/-
  Kernel functions as critical sections.

  `Body cfg s g cur d s1 g1` says that a function entered in `s` has taken the kernel to `s1`,
  where its `OsSchedUnlock` is still to come: `s1` is coherent, no mutex list has changed, and
  `d` is what has become of mails, flags and waiting tasks. `Steady cfg g d res` says that a
  call as a whole ends in a state that is stable once the context switch is taken.
-/
import CoOS.Coh.Pending

namespace CoOS

open Function (update)
open DList KeyOrder

/-! ## Moves that concern no mutex -/

/-- The same tasks exist, and nobody moved into or out of a mutex list. -/
structure Calm (g g' : Ghost) : Prop where
  free : ∀ t, g'.tcb.loc t = some .free ↔ g.tcb.loc t = some .free
  lst : ∀ m, g'.tcb.lst (.mtx m) = g.tcb.lst (.mtx m)
  mtx : ∀ t m, g'.tcb.loc t = some (.mtx m) ↔ g.tcb.loc t = some (.mtx m)

/-- Neither free nor waiting for a mutex. -/
def Plain (o : Option Kind) : Prop := o ≠ some .free ∧ ∀ m, o ≠ some (.mtx m)

theorem plain_none : Plain none := ⟨(fun e => nomatch e), fun _ e => nomatch e⟩

theorem plain_dly : Plain (some .dly) := ⟨(fun e => nomatch e), fun _ e => nomatch e⟩

section Calm

variable {g g' g'' : Ghost} {t : Nat}

theorem Calm.refl (g : Ghost) : Calm g g := ⟨fun _ => Iff.rfl, fun _ => rfl, fun _ _ => Iff.rfl⟩

theorem Calm.trans (h : Calm g g') (h' : Calm g' g'') : Calm g g'' :=
  ⟨fun t => (h'.free t).trans (h.free t), fun m => (h'.lst m).trans (h.lst m),
    fun t m => (h'.mtx t m).trans (h.mtx t m)⟩

theorem Calm.live {cfg : Env} (h : Calm g g') (t : Nat) : Live cfg g' t ↔ Live cfg g t := by
  unfold Live
  rw [Ne, h.free t]

/-- One task moves between lists that are not mutex lists. -/
theorem Calm.move (t : Nat) (hloc : ∀ u, u ≠ t → g'.tcb.loc u = g.tcb.loc u)
    (h : Plain (g.tcb.loc t)) (h' : Plain (g'.tcb.loc t))
    (hlst : ∀ m, g'.tcb.lst (.mtx m) = g.tcb.lst (.mtx m)) : Calm g g' := by
  refine ⟨fun u => ?_, hlst, fun u m => ?_⟩
  · by_cases hu : u = t
    · rw [hu]
      exact ⟨fun e => absurd e h'.1, fun e => absurd e h.1⟩
    · rw [hloc u hu]
  · by_cases hu : u = t
    · rw [hu]
      exact ⟨fun e => absurd e (h'.2 m), fun e => absurd e (h.2 m)⟩
    · rw [hloc u hu]

theorem RdyFrame.calm (h : RdyFrame g g') : Calm g g' :=
  ⟨fun t => h.loc t .free (by decide), fun m => h.lst _ (fun e => nomatch e),
    fun t m => h.loc t (.mtx m) (fun e => nomatch e)⟩

theorem calm_mkReady {prio : Nat → Nat} (ho : g.tcb.loc t = none) : Calm g (g.mkReady prio t) :=
  (rdyFrame_mkReady ho).calm

theorem calm_unready (ho : g.tcb.loc t = some .rdy) : Calm g (g.unready t) :=
  (rdyFrame_unready ho).calm

theorem calm_delay {n : Nat} (ho : g.tcb.loc t = none) : Calm g (g.delay t n) := by
  refine Calm.move t (fun u hu => Family.put_loc_ne _ _ hu) ?_ ?_
    (fun m => Family.put_lst_ne _ _ fun e => nomatch e)
  · rw [ho]
    exact plain_none
  · rw [show (g.delay t n).tcb.loc t = some .dly from Family.put_loc_self ..]
    exact plain_dly

theorem calm_of_tcb (h : g'.tcb = g.tcb) : Calm g g' :=
  ⟨fun _ => by rw [h], fun _ => by rw [h], fun _ _ => by rw [h]⟩

theorem Woken.calm {T : List Nat} {s s' : Kernel} (h : Woken T s g s' g')
    (hT : ∀ t ∈ T, Plain (g.tcb.loc t)) : Calm g g' := by
  refine ⟨fun t => ?_, fun m => h.lst _ (fun e => nomatch e) (fun e => nomatch e), fun t m => ?_⟩
  · rw [h.loc t]
    split
    · next ht => exact ⟨(fun e => nomatch e), fun e => absurd e (hT t ht).1⟩
    · exact Iff.rfl
  · rw [h.loc t]
    split
    · next ht => exact ⟨(fun e => nomatch e), fun e => absurd e ((hT t ht).2 m)⟩
    · exact Iff.rfl

end Calm

/-! ## What a call does to mails, flags and waiting tasks -/

/-- Besides the columns of `Aside`: the waiting lists of the events, who is WAITING, and who is
    in the delay list. -/
structure Data where
  aside : Aside
  evt : Family Nat Nat
  waits : Nat → Prop
  timed : Nat → Prop

structure Holds (s : Kernel) (g : Ghost) (d : Data) : Prop where
  aside : s.aside = d.aside
  evt : g.evt = d.evt
  waits : ∀ t, s.state t = .WAITING ↔ d.waits t
  timed : ∀ t, g.tcb.loc t = some .dly ↔ d.timed t

def Kernel.data (s : Kernel) (g : Ghost) : Data :=
  ⟨s.aside, g.evt, fun t => s.state t = .WAITING, fun t => g.tcb.loc t = some .dly⟩

theorem holds_data (s : Kernel) (g : Ghost) : Holds s g (s.data g) :=
  ⟨rfl, rfl, fun _ => Iff.rfl, fun _ => Iff.rfl⟩

theorem Holds.eq {s : Kernel} {g : Ghost} {d : Data} (h : Holds s g d) : s.data g = d := by
  unfold Kernel.data
  rw [h.aside, h.evt, funext fun t => propext (h.waits t), funext fun t => propext (h.timed t)]

/-- `t` stops to wait. -/
def Data.wake (d : Data) (t : Nat) : Data := { d with waits := fun u => u ≠ t ∧ d.waits u }

/-- `t` starts to wait. -/
def Data.block (d : Data) (t : Nat) : Data := { d with waits := fun u => u = t ∨ d.waits u }

/-- `t` starts to wait for its delay. -/
def Data.delay (d : Data) (t : Nat) : Data :=
  { d with waits := fun u => u = t ∨ d.waits u, timed := fun u => u = t ∨ d.timed u }

/-- `t` stops to wait for its delay, and waits for nothing else. -/
def Data.undelay (d : Data) (t : Nat) : Data :=
  { d with waits := fun u => u ≠ t ∧ d.waits u, timed := fun u => u ≠ t ∧ d.timed u }

/-- Before the `OsSchedUnlock` of a function entered in `s`. -/
structure Body (cfg : Env) (s : Kernel) (g : Ghost) (cur : Nat) (d : Data) (s1 : Kernel)
    (g1 : Ghost) : Prop where
  pend : Pending cfg s1 g1 cur
  lock : s1.OSSchedLock = s.OSSchedLock + 1
  calm : Calm g g1
  data : Holds s1 g1 d

/-- The call ends in a state that is stable after the context switch. -/
def Steady (cfg : Env) (g : Ghost) (d : Data) (res : Option Kernel) : Prop :=
  ∃ s' g' r, res = some s' ∧ Stable cfg (takeSwitch s') g' r ∧ Calm g g' ∧
    Holds (takeSwitch s') g' d

section End

variable {cfg : Env} {s : Kernel} {g : Ghost} {cur t : Nat} {d : Data}

theorem resched_aside (s : Kernel) (L : Links Nat) (T : PriTable) (ct : Nat) (req : Bool)
    (st : Nat → TaskState) (nx : Option Nat) : (s.resched L T ct req st nx).aside = s.aside :=
  (show (s.resched L T ct req st nx).aside = (s.unreadied L T).aside from rfl).trans
    (unreadied_aside ..)

theorem Settled.aside {s' : Kernel} (h : Settled s s') : s'.aside = s.aside := by
  obtain ⟨L, T, ct, req, st, nx, e⟩ := h
  rw [e, ← resched_aside s L T ct req st nx]
  rfl

theorem Settled.clock {s' : Kernel} (h : Settled s s') : s'.OSTickCnt = s.OSTickCnt := by
  obtain ⟨L, T, ct, req, st, nx, e⟩ := h
  rw [e]
  rfl

/-- The last step of a call, when no interrupt has deferred a request. -/
theorem Body.finish {s1 : Kernel} {g1 : Ghost} (h : Body cfg s g cur d s1 g1)
    (hl : s.OSSchedLock = 0) (hi : d.aside.IsrReq = false) :
    Steady cfg g d (osSchedUnlock cfg s1) := by
  have hi1 : s1.IsrReq = false := (congrArg Aside.IsrReq h.data.aside).trans hi
  have hl1 : s1.OSSchedLock = 1 := by
    rw [h.lock, hl]
  obtain ⟨s', g', r, e1, e2, e3, e4, e5⟩ := osSchedUnlock_spec h.pend hi1 hl1
  refine ⟨s', g', r, e1, e5, h.calm.trans e3.calm, e2.aside.trans h.data.aside,
    e3.evt.trans h.data.evt, fun t => ?_, fun t => ?_⟩
  · rw [e4 t]
    exact h.data.waits t
  · rw [e3.loc t .dly (by decide)]
    exact h.data.timed t

/-- A function inside a call: its `OsSchedUnlock` only counts. -/
theorem Body.nested {s1 : Kernel} {g1 : Ghost} (h : Body cfg s g cur d s1 g1)
    (hl : 0 < s.OSSchedLock) :
    ∃ s', osSchedUnlock cfg s1 = some s' ∧ Pending cfg s' g1 cur ∧ s'.OSSchedLock = s.OSSchedLock ∧
      Calm g g1 ∧ Holds s' g1 d ∧ s'.OSTickCnt = s1.OSTickCnt := by
  have hl1 : 1 < s1.OSSchedLock := by
    rw [h.lock]
    omega
  obtain ⟨e1, e2⟩ := h.pend.exit hl1
  refine ⟨_, e1, e2, ?_, h.calm, ⟨h.data.aside, h.data.evt, h.data.waits, h.data.timed⟩, rfl⟩
  change s1.OSSchedLock - 1 = s.OSSchedLock
  rw [h.lock]
  omega

theorem Stable.takeSwitch (h : Stable cfg s g cur) : CoOS.takeSwitch s = s := by
  unfold CoOS.takeSwitch
  rw [h.running, h.picked.next, if_pos rfl]

/-- The call returns without doing anything. -/
theorem Stable.same (h : Stable cfg s g cur) : Steady cfg g (s.data g) (some s) := by
  refine ⟨s, g, cur, rfl, ?_, Calm.refl _, ?_⟩
  · rw [h.takeSwitch]
    exact h
  · rw [h.takeSwitch]
    exact holds_data s g

/-- A RUNNING task is the caller. -/
theorem Stable.eq_of_running (h : Stable cfg s g cur) (hlive : Live cfg g t)
    (hr : s.state t = .RUNNING) : t = cur := by
  have hn := h.coh.run t hlive hr
  rw [h.picked.next] at hn
  exact (Option.some.inj hn).symm

theorem Coh.not_dormant (h : Coh cfg s g) (hlive : Live cfg g t) : s.state t ≠ .DORMANT := by
  intro hst
  have hok := h.task t hlive
  cases hloc : g.tcb.loc t with
  | none =>
    rcases hok.off hloc with e | e
    · rw [hst] at e
      exact nomatch e
    · rw [hst] at e
      exact nomatch e.1
  | some k =>
    cases k with
    | rdy =>
      have e := (hok.rdy hloc).1
      rw [hst] at e
      exact nomatch e
    | dly =>
      have e := hok.dly hloc
      rw [hst] at e
      exact nomatch e
    | free => exact hlive.2 hloc
    | mtx m =>
      have e := (hok.mtx m hloc).1
      rw [hst] at e
      exact nomatch e

/-- A task that is neither ready nor running waits. -/
theorem Coh.waiting_of (h : Coh cfg s g) (hlive : Live cfg g t) (h1 : s.state t ≠ .READY)
    (h2 : s.state t ≠ .RUNNING) : s.state t = .WAITING := by
  cases hst : s.state t with
  | READY => exact absurd hst h1
  | RUNNING => exact absurd hst h2
  | WAITING => rfl
  | DORMANT => exact absurd hst (h.not_dormant hlive)

theorem waits_block {st : Nat → TaskState} (u : Nat) :
    update st t .WAITING u = .WAITING ↔ u = t ∨ st u = .WAITING := by
  by_cases hu : u = t
  · rw [hu, Function.update_self]
    exact ⟨fun _ => Or.inl rfl, fun _ => rfl⟩
  · rw [Function.update_of_ne hu]
    exact ⟨Or.inr, fun e => e.resolve_left hu⟩

theorem waits_wake {st : Nat → TaskState} {x : TaskState} (hx : x ≠ .WAITING) (u : Nat) :
    update st t x u = .WAITING ↔ u ≠ t ∧ st u = .WAITING := by
  by_cases hu : u = t
  · rw [hu, Function.update_self]
    exact ⟨fun e => absurd e hx, fun e => absurd rfl e.1⟩
  · rw [Function.update_of_ne hu]
    exact ⟨fun e => ⟨hu, e⟩, fun e => e.2⟩

theorem timed_delay {n : Nat} (u : Nat) :
    (g.delay t n).tcb.loc u = some .dly ↔ u = t ∨ g.tcb.loc u = some .dly := by
  by_cases hu : u = t
  · rw [hu, show (g.delay t n).tcb.loc t = some .dly from Family.put_loc_self ..]
    exact ⟨fun _ => Or.inl rfl, fun _ => rfl⟩
  · rw [show (g.delay t n).tcb.loc u = g.tcb.loc u from Family.put_loc_ne _ _ hu]
    exact ⟨Or.inr, fun e => e.resolve_left hu⟩

end End

/-! ## Suspension, awakening and delay -/

section Calls

variable {cfg : Env} {s : Kernel} {g : Ghost} {cur t : Nat}

/-- A call that returns at once, or ends its only critical section with the status `b`. -/
def Section (cfg : Env) (s : Kernel) (g : Ghost) (cur : Nat) {β : Type}
    (res : Option (Kernel × β)) (Q : β → Data → Prop) : Prop :=
  (∃ b, res = some (s, b) ∧ Q b (s.data g)) ∨
    ∃ s1 g1 b d, res = (osSchedUnlock cfg s1).map (fun s => (s, b)) ∧ Body cfg s g cur d s1 g1 ∧
      Q b d

theorem section_now {β : Type} {Q : β → Data → Prop} {b : β} (h : Q b (s.data g)) :
    Section cfg s g cur (some (s, b)) Q := Or.inl ⟨b, rfl, h⟩

theorem bind_pair {β : Type} (o : Option Kernel) (b : β) :
    (o.bind fun s => some (s, b)) = o.map fun s => (s, b) := by
  cases o with
  | none => rfl
  | some s => rfl

theorem section_end {β : Type} {Q : β → Data → Prop} {b : β} {d : Data} {s1 : Kernel} {g1 : Ghost}
    (h : Body cfg s g cur d s1 g1) (hq : Q b d) :
    Section cfg s g cur ((osSchedUnlock cfg s1).bind fun s => some (s, b)) Q :=
  Or.inr ⟨s1, g1, b, d, bind_pair .., h, hq⟩

/-- A `Section` that starts no delay. -/
def Restful (cfg : Env) (s : Kernel) (g : Ghost) (cur : Nat) {β : Type}
    (res : Option (Kernel × β)) (Q : β → Data → Prop) : Prop :=
  (∃ b, res = some (s, b) ∧ Q b (s.data g)) ∨
    ∃ s1 g1 b d, res = (osSchedUnlock cfg s1).map (fun s => (s, b)) ∧ Body cfg s g cur d s1 g1 ∧
      Eased s g s1 g1 ∧ Q b d

theorem Restful.section {β : Type} {res : Option (Kernel × β)} {Q : β → Data → Prop}
    (h : Restful cfg s g cur res Q) : Section cfg s g cur res Q :=
  h.imp id fun ⟨s1, g1, b, d, h1, h2, _, h3⟩ => ⟨s1, g1, b, d, h1, h2, h3⟩

theorem restful_now {β : Type} {Q : β → Data → Prop} {b : β} (h : Q b (s.data g)) :
    Restful cfg s g cur (some (s, b)) Q := Or.inl ⟨b, rfl, h⟩

theorem restful_end {β : Type} {Q : β → Data → Prop} {b : β} {d : Data} {s1 : Kernel} {g1 : Ghost}
    (h : Body cfg s g cur d s1 g1) (he : Eased s g s1 g1) (hq : Q b d) :
    Restful cfg s g cur ((osSchedUnlock cfg s1).bind fun s => some (s, b)) Q :=
  Or.inr ⟨s1, g1, b, d, bind_pair .., h, he, hq⟩

/-- **CoSuspendTask** -/
theorem coSuspendTask_section (h : Stable cfg s g cur) (hc : cur ≠ 0) (hlive : Live cfg g t) :
    Section cfg s g cur (coSuspendTask cfg s t) fun _ d =>
      d = s.data g ∨ d = (s.data g).block t := by
  unfold coSuspendTask
  by_cases h0 : t = 0
  · rw [if_pos h0]
    exact section_now (Or.inl rfl)
  rw [if_neg h0, if_neg (Nat.not_le_of_lt hlive.1), if_neg (h.coh.not_dormant hlive),
    if_neg (fun e => e h.lock)]
  by_cases hw : s.state t = .WAITING
  · rw [if_pos hw]
    exact section_now (Or.inl rfl)
  rw [if_neg hw]
  have hp := h.enter
  by_cases htc : t = cur
  · -- the caller suspends itself
    subst htc
    rw [if_neg (fun e => e h.running.symm)]
    exact section_end (d := (s.data g).block t) ⟨hp.block hc h.picked.running, rfl,
      Calm.refl _, rfl,
      rfl, waits_block, fun _ => Iff.rfl⟩ (Or.inr rfl)
  · have hready : s.state t = .READY := by
      by_contra hne
      refine hw (h.coh.waiting_of hlive hne fun e => htc (h.eq_of_running hlive e))
    have hloc := (h.coh.ready_iff hlive).mpr hready
    have hrun : some t ≠ (osSchedLock s).TCBRunning := by
      rw [show (osSchedLock s).TCBRunning = s.TCBRunning from rfl, h.running]
      exact fun e => htc (Option.some.inj e)
    obtain ⟨T, h1, h2⟩ := hp.remove hloc h0
    have ha := unreadied_aside (osSchedLock s) ((osSchedLock s).rdyLinks.unlink t) T
    rw [if_pos hrun, h1]
    exact section_end (d := (s.data g).block t) ⟨h2, rfl, calm_unready hloc, ha, rfl, waits_block,
      fun u => (rdyFrame_unready hloc).loc u .dly (by decide)⟩ (Or.inr rfl)

/-- A WAITING task without a delay, an event and a mutex is in no list. -/
theorem Coh.waits_for_nothing (h : Coh cfg s g) (hlive : Live cfg g t) (hw : s.state t = .WAITING)
    (hd : s.delayTick t = INVALID_VALUE) (he : s.eventID t = INVALID_ID)
    (hm : s.mutexID t = INVALID_ID)
    (hmtx : ∀ m, g.tcb.loc t = some (.mtx m) → m ≠ INVALID_ID) :
    g.evt.loc t = none ∧ g.tcb.loc t = none := by
  have hev : g.evt.loc t = none := Option.eq_none_iff_forall_ne_some.mpr fun e h' =>
    (h.eventID_iff hlive).mpr ⟨e, h'⟩ he
  refine ⟨hev, ?_⟩
  have hok := h.task t hlive
  cases hc : g.tcb.loc t with
  | none => rfl
  | some k =>
    cases k with
    | rdy =>
      have e := (hok.rdy hc).1
      rw [hw] at e
      exact nomatch e
    | dly => exact absurd hd ((h.delayTick_iff hlive).mpr hc)
    | free => exact absurd hc hlive.2
    | mtx m =>
      have e := (hok.mtx m hc).2.1
      rw [hm] at e
      exact absurd e.symm (hmtx m hc)

/-- **CoAwakeTask**; a task that waits for a flag is left alone. -/
theorem coAwakeTask_section (h : Stable cfg s g cur) (hlive : Live cfg g t)
    (hmtx : ∀ m, g.tcb.loc t = some (.mtx m) → m ≠ INVALID_ID) :
    Section cfg s g cur (coAwakeTask cfg s t) fun _ d =>
      d = s.data g ∨
        (d = (s.data g).wake t ∧ s.pnode t = .null ∧ g.evt.loc t = none ∧ g.tcb.loc t = none) := by
  unfold coAwakeTask
  by_cases h0 : t = 0
  · rw [if_pos h0]
    exact section_now (Or.inl rfl)
  rw [if_neg h0, if_neg (Nat.not_le_of_lt hlive.1), if_neg (h.coh.not_dormant hlive)]
  by_cases hw : s.state t ≠ .WAITING
  · rw [if_pos hw]
    exact section_now (Or.inl rfl)
  rw [if_neg hw]
  by_cases hd : s.delayTick t ≠ INVALID_VALUE
  · rw [if_pos hd]
    exact section_now (Or.inl rfl)
  rw [if_neg hd]
  by_cases hf : s.pnode t ≠ .null
  · rw [if_pos hf]
    exact section_now (Or.inl rfl)
  rw [if_neg hf]
  by_cases he : s.eventID t ≠ INVALID_ID
  · rw [if_pos he]
    exact section_now (Or.inl rfl)
  rw [if_neg he]
  by_cases hm : s.mutexID t ≠ INVALID_ID
  · rw [if_pos hm]
    exact section_now (Or.inl rfl)
  rw [if_neg hm]
  have hwait : s.state t = .WAITING := not_not.mp hw
  obtain ⟨hev, hloc⟩ := h.coh.waits_for_nothing hlive hwait (not_not.mp hd) (not_not.mp he)
    (not_not.mp hm) hmtx
  have htc : t ≠ cur := by
    rintro rfl
    rw [h.picked.running] at hwait
    exact nomatch hwait
  obtain ⟨L, T, ct, req, h1, h2⟩ := h.enter.insert hlive hloc hev htc
  have ha := readied_aside (osSchedLock s) L T t ct req
  rw [h1]
  exact section_end (d := (s.data g).wake t) ⟨h2, rfl, calm_mkReady hloc, ha, rfl,
    waits_wake (by decide), fun u => (rdyFrame_mkReady hloc).loc u .dly (by decide)⟩
    (Or.inr ⟨rfl, not_not.mp hf, hev, hloc⟩)

/-- **CoTickDelay** -/
theorem coTickDelay_section (h : Stable cfg s g cur) (hc : cur ≠ 0) {n : Nat} (hn : n < 2 ^ 31) :
    Section cfg s g cur (coTickDelay cfg s n) fun _ d =>
      d = s.data g ∨ d = (s.data g).delay cur := by
  unfold coTickDelay
  rw [if_neg (Nat.not_lt_of_le (Nat.le_of_eq h.coh.nest))]
  have hinv : n ≠ INVALID_VALUE := by
    unfold INVALID_VALUE
    omega
  rw [if_neg hinv]
  by_cases h0 : n = 0
  · rw [if_pos h0]
    exact section_now (Or.inl rfl)
  rw [if_neg h0, if_neg (fun e => e h.lock), h.running]
  obtain ⟨ho, -⟩ := h.coh.loc_of_running h.picked.live h.picked.running
  obtain ⟨D, h1, h2⟩ := h.enter.delay h.picked.live ho hc h0 hn
  have ha := setDly_aside (osSchedLock s) D
  dsimp only
  rw [h1]
  exact section_end (d := (s.data g).delay cur) ⟨h2, rfl, calm_delay ho, ha, rfl, waits_block,
    timed_delay⟩ (Or.inr rfl)

/-- **CoResetTaskDelayTick**; a delay may be ended for a task that waits for nothing else. -/
theorem coResetTaskDelayTick_section (h : Stable cfg s g cur) (hlive : Live cfg g t) {n : Nat}
    (hn : n < 2 ^ 31) (h0 : n = 0 → g.evt.loc t = none) :
    Section cfg s g cur (coResetTaskDelayTick cfg s t n) fun _ d =>
      d = s.data g ∨ (d = (s.data g).undelay t ∧ n = 0 ∧ g.tcb.loc t = some .dly) := by
  unfold coResetTaskDelayTick
  rw [if_neg (Nat.not_le_of_lt hlive.1), if_neg (not_not.mpr (h.coh.stk t hlive))]
  by_cases hd : s.delayTick t = INVALID_VALUE
  · rw [if_pos hd]
    exact section_now (Or.inl rfl)
  rw [if_neg hd]
  have hloc := (h.coh.delayTick_iff hlive).mp hd
  have hw := (h.coh.task t hlive).dly hloc
  have ht0 := h.coh.ne_idle h.idle hw
  have htc : t ≠ cur := by
    rintro rfl
    rw [h.picked.running] at hw
    exact nomatch hw
  obtain ⟨g1, e1, e2, e3, e4, e5, -⟩ := h.enter.undelay hlive hw (Or.inr hloc)
  rw [if_pos (show (osSchedLock s).delayTick t ≠ INVALID_VALUE from hd)] at e1
  have hlive1 : Live cfg g1 t := ⟨hlive.1, by rw [e2]; exact fun e => nomatch e⟩
  have hcalm : Calm g g1 := Calm.move t e4 (by rw [hloc]; exact plain_dly)
    (by rw [e2]; exact plain_none) fun m => e5 (.mtx m) fun e => nomatch e
  have ha : (removeDelayList (osSchedLock s) t).aside = s.aside :=
    setDly_aside s ((osSchedLock s).dly.remove t)
  dsimp only
  by_cases hz : n = 0
  · -- the task becomes ready
    obtain ⟨L, T, ct, req, h1, h2⟩ := e1.insert hlive1 e2
      (by rw [e3]; exact h0 hz) htc
    have ha' := readied_aside (removeDelayList (osSchedLock s) t) L T t ct req
    rw [if_pos hz, h1]
    refine section_end (d := (s.data g).undelay t) ⟨h2, rfl, hcalm.trans (calm_mkReady e2),
      ha'.trans ha, e3, waits_wake (by decide), fun u => ?_⟩ (Or.inr ⟨rfl, hz, hloc⟩)
    rw [(rdyFrame_mkReady e2).loc u .dly (by decide)]
    change _ ↔ u ≠ t ∧ g.tcb.loc u = some .dly
    by_cases hu : u = t
    · rw [hu, e2]
      exact ⟨(fun e => nomatch e), fun e => absurd rfl e.1⟩
    · rw [e4 u hu]
      exact ⟨fun e => ⟨hu, e⟩, fun e => e.2⟩
  · obtain ⟨D, h1, h2⟩ := e1.delay hlive1 e2 ht0 hz hn
    have ha' := setDly_aside (removeDelayList (osSchedLock s) t) D
    rw [if_neg hz, h1]
    refine section_end (d := s.data g) ⟨h2, rfl, hcalm.trans (calm_delay e2), ha'.trans ha, e3,
      fun u => ?_, fun u => ?_⟩ (Or.inl rfl)
    · change update s.state t .WAITING u = .WAITING ↔ s.state u = .WAITING
      rw [waits_block u]
      exact ⟨fun e => e.elim (fun e => e ▸ hw) id, Or.inr⟩
    · rw [timed_delay u]
      change u = t ∨ g1.tcb.loc u = some .dly ↔ g.tcb.loc u = some .dly
      by_cases hu : u = t
      · rw [hu]
        exact ⟨fun _ => hloc, fun _ => Or.inl rfl⟩
      · rw [e4 u hu]
        exact ⟨fun e => e.resolve_left hu, Or.inr⟩

end Calls

end CoOS
