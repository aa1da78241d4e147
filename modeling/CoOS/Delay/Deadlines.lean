/-
  The delay list over whole sequences of insertions, removals, new delays and ticks.

  The ticks that remain for each task are a plain map, and the operations act on it as they should
  (`DelayOp.Does`). Tasks of equal deadline stand in the order of their insertion: the list is the
  stable sort of what was inserted, in the order in which it was (`delay_list_exact`), so that a
  tick makes the tasks ready in that order.
-/
import CoOS.Run.Expiry
import CoOS.Run.LockedTicks

namespace CoOS

open Function (update)
open DList KeyOrder

/-! ## Operations -/

/-- `switch` is the context switch that PendSV makes, some time after `Schedule` asked for it. -/
inductive DelayOp where
  | insert (t n : Nat)
  | remove (t : Nat)
  | reset (t n : Nat)
  | tick
  | switch

def DelayOp.exec (cfg : Env) (s : Kernel) : DelayOp → Option Kernel
  | .insert t n => insertDelayList cfg s t n
  | .remove t => some (removeDelayList s t)
  | .reset t n => (coResetTaskDelayTick cfg s t n).map Prod.fst
  | .tick => sysTick_Handler cfg s
  | .switch => some (takeSwitch s)

/-- A task that no list in `TCBnext` and `TCBprev` holds, so that its links are null. -/
structure Kernel.Unlisted (cfg : Env) (s : Kernel) (t : Nat) : Prop where
  alive : s.alive cfg t
  ready : t ∉ s.readyTasks cfg
  delayed : t ∉ s.delayed cfg
  mutex : ∀ m, t ∉ walk s.TCBnext cfg.tasks (s.waittingList m)

/-- Where the operation may be called. -/
def DelayOp.Ok (cfg : Env) (s : Kernel) : DelayOp → Prop
  | .insert t n => s.Unlisted cfg t ∧ 1 ≤ n ∧ n < 2 ^ 31
  | .remove t => t ∈ s.delayed cfg
  | .reset t n => t ∈ s.delayed cfg ∧ 1 ≤ n ∧ n < 2 ^ 31
  | .tick => s.OSSchedLock = 0
  | .switch => True

/-- What becomes of the pairs of a task and its remaining ticks, in the order of insertion. -/
def DelayOp.apply : DelayOp → List (Nat × Nat) → List (Nat × Nat)
  | .insert t n, A => A ++ [(t, n)]
  | .remove t, A => without A t
  | .reset t n, A => without A t ++ [(t, n)]
  | .tick, A => later A
  | .switch, A => A

/-- Before its closing unlock, the tick has made the tasks `T` ready, one after the other, and no
    others. -/
def TickDone (cfg : Env) (s s' : Kernel) (T : List Nat) : Prop :=
  ∃ s1, sysTickDelay cfg { osSchedLock s with OSTickCnt := s.OSTickCnt + 1 } = some s1 ∧
    osSchedUnlock cfg { s1 with TaskSchedReq := true } = some s' ∧
    s1.readyTasks cfg = T.foldl (fun l t => insertKey s.prio t l) (s.readyTasks cfg) ∧
    ∀ t, s1.state t = if t ∈ T then .READY else s.state t

/-- The effect of an operation on the remaining ticks; the tasks that a tick releases are those of
    `A` whose last tick it is, in that order. -/
def DelayOp.Does (cfg : Env) (s : Kernel) (A : List (Nat × Nat)) (s' : Kernel) : DelayOp → Prop
  | .insert t n => ∀ x, x ∈ s'.remaining cfg ↔ x = (t, n) ∨ x ∈ s.remaining cfg
  | .remove t => ∀ x, x ∈ s'.remaining cfg ↔ x ∈ s.remaining cfg ∧ x.1 ≠ t
  | .reset t n => ∀ x, x ∈ s'.remaining cfg ↔ x = (t, n) ∨ (x ∈ s.remaining cfg ∧ x.1 ≠ t)
  | .tick => (∀ t n, (t, n) ∈ s'.remaining cfg ↔ 1 ≤ n ∧ (t, n + 1) ∈ s.remaining cfg) ∧
      TickDone cfg s s' ((A.filter fun x => x.2 == 1).map Prod.fst)
  | .switch => s'.remaining cfg = s.remaining cfg

/-- The states after a sequence of operations from `s0`, with what is still delayed in the order of
    insertion. -/
inductive Delays (cfg : Env) (s0 : Kernel) : Kernel → List (Nat × Nat) → Prop
  | start : Delays cfg s0 s0 (s0.remaining cfg)
  | step {s s' : Kernel} {A : List (Nat × Nat)} (op : DelayOp) (h : Delays cfg s0 s A)
      (hok : op.Ok cfg s) (hs : op.exec cfg s = some s') : Delays cfg s0 s' (op.apply A)

/-! ## The invariant -/

/-- A coherent kernel outside of all locked sections, with no request of an interrupt. -/
structure AtRest (cfg : Env) (s : Kernel) (g : Ghost) : Prop where
  coh : Coh cfg s g
  lock : s.OSSchedLock = 0
  req : s.IsrReq = false
  ticks : ∀ x ∈ g.dly, 1 ≤ x.2
  running : ∃ r, s.TCBRunning = some r ∧ r < cfg.tasks
  next : ∃ r, s.TCBNext = some r ∧ r < cfg.tasks

section AtRest

variable {cfg : Env} {s s' : Kernel} {g : Ghost} {t n : Nat}

/-- Outside of all lists. -/
theorem Kernel.Unlisted.loc (hu : s.Unlisted cfg t) (h : Coh cfg s g) :
    Live cfg g t ∧ g.tcb.loc t = none := by
  have hlive := (alive_iff h.rep t).mp hu.alive
  refine ⟨hlive, ?_⟩
  cases hloc : g.tcb.loc t with
  | none => rfl
  | some k =>
    have hm := (h.rep.tcb.mem k t).mpr hloc
    exfalso
    cases k with
    | rdy => exact hu.ready (h.rep.readyTasks_eq ▸ hm)
    | dly => exact hu.delayed (h.rep.delayed_eq ▸ hm)
    | free => exact hlive.2 hloc
    | mtx m =>
      refine hu.mutex m ?_
      rw [show walk s.TCBnext cfg.tasks (s.waittingList m) = g.tcb.lst (.mtx m) from
        (h.rep.tcb.single (.mtx m)).walk_eq (h.rep.tcb_length (.mtx m))]
      exact hm

/-- **OsSchedUnlock**, at any time: a switch may be outstanding. -/
theorem Coh.unlock (h : Coh cfg s g) (hl : s.OSSchedLock = 1) (hi : s.IsrReq = false)
    (hr : ∃ r, s.TCBRunning = some r ∧ r < cfg.tasks) (hn : ∃ r, s.TCBNext = some r ∧ r < cfg.tasks)
    (ht : ∀ x ∈ g.dly, 1 ≤ x.2) :
    ∃ s' g', osSchedUnlock cfg s = some s' ∧ AtRest cfg s' g' ∧ g'.dly = g.dly := by
  have hstay : AtRest cfg { s with OSSchedLock := 0 } g := ⟨h.congr rfl, rfl, hi, ht, hr, hn⟩
  rw [osSchedUnlock_eq cfg hi, if_pos hl]
  by_cases hq : s.TaskSchedReq = true
  · rw [if_pos hq]
    obtain ⟨r, hr, hlt⟩ := hr
    obtain ⟨x, hx, hxlt⟩ := hn
    by_cases he : r = x
    · subst he
      obtain ⟨s1, g1, e1, e2, e3, e4⟩ := schedule_spec h hlt hr hx (Nat.le_of_eq hl)
      have hdly : g1.dly = g.dly := e2.frame.dly
      rw [e1]
      refine ⟨_, g1, rfl, ?_, hdly⟩
      by_cases hnil : g.tcb.lst .rdy = []
      · obtain ⟨rfl, rfl⟩ := e3 hnil
        exact hstay
      · obtain ⟨-, p, hp⟩ := e4 hnil
        obtain ⟨L, T, ct, req, st, nx, e⟩ := e2.writes
        refine ⟨e2.coh.congr rfl, rfl, ?_, hdly ▸ ht, ⟨r, ?_, hlt⟩, ⟨p, hp.next, hp.live.1⟩⟩
        · rw [e]
          exact hi
        · rw [e]
          exact hr
    · -- `Schedule` leaves the outstanding switch alone
      have hs : schedule cfg s = some s := by
        unfold schedule
        split
        · next e1 e2 =>
          rw [if_pos (Or.inl ?_)]
          rw [hr, hx]
          exact fun e => he (Option.some.inj e)
        · rfl
      rw [hs]
      exact ⟨_, g, rfl, hstay, rfl⟩
  · rw [if_neg hq]
    exact ⟨_, g, rfl, hstay, rfl⟩

/-! ## One operation -/

/-- The remaining ticks, as a list of pairs that a task is in once. -/
theorem AtRest.remaining (h : AtRest cfg s g) : s.remaining cfg = g.dly := h.coh.rep.remaining_eq

/-- The links and the ticks after a removal and, for the reset, an insertion with `ticks`. -/
theorem reset_eq (h : Coh cfg s g) (hloc : g.tcb.loc t = some .dly) (hn : 1 ≤ n) :
    (coResetTaskDelayTick cfg s t n).map Prod.fst =
      (insertDelayList cfg (removeDelayList (osSchedLock s) t) t n).bind (osSchedUnlock cfg) := by
  have hlive : Live cfg g t := ⟨h.rep.lt t .dly hloc, by rw [hloc]; exact fun e => nomatch e⟩
  unfold coResetTaskDelayTick
  rw [if_neg (Nat.not_le_of_lt hlive.1), if_neg (not_not.mpr (h.stk t hlive)),
    if_neg (h.rep.delayTick_lt hloc)]
  dsimp only
  rw [if_neg (show ¬ n = 0 by omega)]
  cases insertDelayList cfg (removeDelayList (osSchedLock s) t) t n with
  | none => rfl
  | some s1 =>
    change Option.map Prod.fst ((osSchedUnlock cfg s1).bind fun s => some (s, StatusType.E_OK)) =
      osSchedUnlock cfg s1
    cases osSchedUnlock cfg s1 with
    | none => rfl
    | some s2 => rfl

theorem AtRest.insert (h : AtRest cfg s g) (hu : s.Unlisted cfg t) (hn : 1 ≤ n) (hlt : n < 2 ^ 31) :
    ∃ s', insertDelayList cfg s t n = some s' ∧ AtRest cfg s' (g.delay t n) := by
  obtain ⟨hlive, hloc⟩ := hu.loc h.coh
  obtain ⟨D, h1, h2⟩ := h.coh.delay hlive hloc (show n ≠ 0 by omega) hlt
  refine ⟨_, h1, h2, h.lock, h.req, fun x hx => ?_, h.running, h.next⟩
  rcases mem_insertKey.mp hx with rfl | hx
  · exact hn
  · exact h.ticks x hx

theorem AtRest.remove (h : AtRest cfg s g) (ht : t ∈ s.delayed cfg) :
    AtRest cfg (removeDelayList s t) (g.undelay t) := by
  rw [h.coh.rep.delayed_eq] at ht
  exact ⟨h.coh.undelay ((h.coh.rep.tcb.mem .dly t).mp ht), h.lock, h.req,
    fun x hx => h.ticks x (List.mem_of_mem_filter hx), h.running, h.next⟩

theorem AtRest.reset (h : AtRest cfg s g) (ht : t ∈ s.delayed cfg) (hn : 1 ≤ n) (hlt : n < 2 ^ 31) :
    ∃ s' g', (coResetTaskDelayTick cfg s t n).map Prod.fst = some s' ∧ AtRest cfg s' g' ∧
      g'.dly = insertKey Prod.snd (t, n) (without g.dly t) := by
  rw [h.coh.rep.delayed_eq] at ht
  have hloc := (h.coh.rep.tcb.mem .dly t).mp ht
  have h1 : Coh cfg (removeDelayList (osSchedLock s) t) (g.undelay t) :=
    Coh.undelay (s := osSchedLock s) (h.coh.congr rfl) hloc
  have hcpu : (removeDelayList (osSchedLock s) t).cpu = (osSchedLock s).cpu := rfl
  have hreq : (removeDelayList (osSchedLock s) t).IsrReq = s.IsrReq := rfl
  rw [reset_eq h.coh hloc hn]
  generalize removeDelayList (osSchedLock s) t = k at h1 hcpu hreq ⊢
  have hoff : (g.undelay t).tcb.loc t = none := Family.take_loc_self ..
  have hlive : Live cfg (g.undelay t) t :=
    ⟨h.coh.rep.lt t .dly hloc, by rw [hoff]; exact fun e => nomatch e⟩
  obtain ⟨D, h2, h3⟩ := h1.delay hlive hoff (show n ≠ 0 by omega) hlt
  rw [h2, Option.bind_some]
  have hd : (k.setDly D).cpu = (osSchedLock s).cpu := (setDly_cpu k D).trans hcpu
  have ha : (k.setDly D).IsrReq = k.IsrReq := congrArg Aside.IsrReq (setDly_aside k D)
  generalize k.setDly D = k1 at h3 hd ha ⊢
  have hl : k1.OSSchedLock = 1 := (congrArg Cpu.OSSchedLock hd).trans (congrArg (· + 1) h.lock)
  have hrun : k1.TCBRunning = s.TCBRunning := congrArg Cpu.TCBRunning hd
  have hnx : k1.TCBNext = s.TCBNext := congrArg Cpu.TCBNext hd
  refine Coh.unlock h3 hl ((ha.trans hreq).trans h.req) (hrun ▸ h.running) (hnx ▸ h.next)
    fun x hx => ?_
  rcases mem_insertKey.mp hx with rfl | hx
  · exact hn
  · exact h.ticks x (List.mem_of_mem_filter hx)

theorem AtRest.switch (h : AtRest cfg s g) : AtRest cfg (takeSwitch s) g := by
  rw [takeSwitch_eq h.lock]
  exact ⟨h.coh.congr rfl, h.lock, h.req, h.ticks, h.next, h.next⟩

theorem sysTickDelay_frame (hl : s.OSSchedLock ≤ 1) : Framed s.frame (sysTickDelay cfg s) := by
  unfold sysTickDelay isr_TimeDispose
  split
  · exact .some rfl
  · refine .ite (fun _ => .some rfl) fun _ =>
      .ite (fun hlt => absurd hlt (Nat.not_lt_of_le hl)) fun _ => ?_
    exact timeDispose_frame cfg cfg.tasks rfl

theorem AtRest.tick (h : AtRest cfg s g) :
    ∃ s' g', sysTick_Handler cfg s = some s' ∧ AtRest cfg s' g' ∧ g'.dly = later g.dly ∧
      TickDone cfg s s' (due g.dly) := by
  let s0 : Kernel := { osSchedLock s with OSTickCnt := s.OSTickCnt + 1 }
  have h0 : Coh cfg s0 g := h.coh.congr rfl
  have hl : s0.OSSchedLock = 1 := congrArg (· + 1) h.lock
  obtain ⟨s1, g1, e1, e2, e3, e4⟩ := sysTickDelay_spec h0 (Nat.le_of_eq hl) h.ticks
  have hfr := sysTickDelay_frame (Nat.le_of_eq hl) s1 e1
  have hreq : s1.IsrReq = false := (congrArg Frame.IsrReq hfr).trans h.req
  have hlock : s1.OSSchedLock = 1 := (congrArg Frame.OSSchedLock hfr).trans hl
  have hrun : s1.TCBRunning = s.TCBRunning := congrArg Cpu.TCBRunning e4.cpu
  have hnx : s1.TCBNext = s.TCBNext := congrArg Cpu.TCBNext e4.cpu
  have h1 : Coh cfg { s1 with TaskSchedReq := true } g1 := e2.congr rfl
  obtain ⟨s', g', f1, f2, f3⟩ :=
    h1.unlock hlock hreq (hrun ▸ h.running) (hnx ▸ h.next) (e3 ▸ later_pos)
  have htmr : sysTickTmr cfg s1 = some s1 := by
    unfold sysTickTmr
    rw [e2.tmr]
  refine ⟨s', g', ?_, f2, f3.trans e3, s1, e1, f1, ?_, e4.state⟩
  · unfold sysTick_Handler
    change (sysTickDelay cfg s0).bind _ = _
    rw [e1, Option.bind_some, htmr]
    exact f1
  · rw [e2.rep.readyTasks_eq, h.coh.rep.readyTasks_eq]
    exact e4.rdy

/-! ## Sequences -/

variable {s0 : Kernel} {g0 : Ghost} {A : List (Nat × Nat)}

theorem sortKey_without (A : List (Nat × Nat)) (t : Nat) :
    without (sortKey Prod.snd A) t = sortKey Prod.snd (without A t) := sortKey_filter A _

theorem sortKey_later (A : List (Nat × Nat)) :
    later (sortKey Prod.snd A) = sortKey Prod.snd (later A) := by
  unfold later
  rw [sortKey_filter]
  refine (sortKey_tick fun x hx => ?_).symm
  exact Nat.lt_of_succ_lt (of_decide_eq_true (List.mem_filter.mp hx).2)

/-- Who is due, in the order of insertion. -/
theorem due_sortKey (h : ∀ x ∈ A, 1 ≤ x.2) :
    due (sortKey Prod.snd A) = (A.filter fun x => x.2 == 1).map Prod.fst := by
  unfold due
  rw [← filter_sortKey_eq A 1]
  refine congrArg (List.map Prod.fst) (List.filter_congr fun x hx => ?_)
  have := h x (mem_sortKey.mp hx)
  rw [Bool.eq_iff_iff, decide_eq_true_iff, beq_iff_eq]
  omega

theorem mem_undelayed {l : List (Nat × Nat)} {x : Nat × Nat} :
    x ∈ without l t ↔ x ∈ l ∧ x.1 ≠ t := by
  unfold without
  rw [List.mem_filter, bne_iff_ne]

/-- The delay list is the stable sort of what was inserted. -/
structure DelayOrder (g : Ghost) (A : List (Nat × Nat)) : Prop where
  dly : g.dly = sortKey Prod.snd A
  pos : ∀ x ∈ A, 1 ≤ x.2

theorem DelayOrder.concat {g' : Ghost} (hpos : ∀ x ∈ A, 1 ≤ x.2) (hn : 1 ≤ n)
    (h : g'.dly = insertKey Prod.snd (t, n) (sortKey Prod.snd A)) :
    DelayOrder g' (A ++ [(t, n)]) := by
  refine ⟨h.trans (sortKey_concat A (t, n)).symm, fun x hx => ?_⟩
  rcases List.mem_append.mp hx with hx | hx
  · exact hpos x hx
  · rw [List.mem_singleton.mp hx]
    exact hn

/-- **One operation** -/
theorem AtRest.does (h : AtRest cfg s g) (ho : DelayOrder g A) (op : DelayOp) (hok : op.Ok cfg s) :
    ∃ s' g', op.exec cfg s = some s' ∧ AtRest cfg s' g' ∧ DelayOrder g' (op.apply A) ∧
    op.Does cfg s A s' := by
  have hpos : ∀ u, ∀ x ∈ without A u, 1 ≤ x.2 := fun u x hx => ho.pos x (mem_undelayed.mp hx).1
  cases op with
  | insert t n =>
    obtain ⟨s', e, h'⟩ := h.insert hok.1 hok.2.1 hok.2.2
    refine ⟨s', _, e, h', .concat ho.pos hok.2.1 (ho.dly ▸ rfl), fun x => ?_⟩
    rw [h'.remaining, h.remaining]
    exact mem_insertKey
  | remove t =>
    have h' := h.remove hok
    refine ⟨_, _, rfl, h', ⟨?_, hpos t⟩, fun x => ?_⟩
    · change without g.dly t = _
      rw [ho.dly, sortKey_without]
      rfl
    · rw [h'.remaining, h.remaining]
      exact mem_undelayed
  | reset t n =>
    obtain ⟨s', g', e, h', e'⟩ := h.reset hok.1 hok.2.1 hok.2.2
    refine ⟨s', g', e, h', .concat (hpos t) hok.2.1 ?_, fun x => ?_⟩
    · rw [e', ho.dly, sortKey_without]
    · rw [h'.remaining, h.remaining, e', mem_insertKey, mem_undelayed]
  | tick =>
    obtain ⟨s', g', e, h', e', ht⟩ := h.tick
    refine ⟨s', g', e, h', ⟨?_, later_pos⟩, fun t n => ?_, ?_⟩
    · rw [e', ho.dly, sortKey_later]
      rfl
    · rw [h'.remaining, h.remaining, e']
      exact mem_later
    · rw [← due_sortKey ho.pos, ← ho.dly]
      exact ht
  | switch =>
    have h' := h.switch
    exact ⟨_, g, rfl, h', ho, h'.remaining.trans h.remaining.symm⟩

theorem Delays.atRest (h0 : AtRest cfg s0 g0) (hr : Delays cfg s0 s A) :
    ∃ g, AtRest cfg s g ∧ DelayOrder g A := by
  induction hr with
  | start =>
    rw [h0.remaining]
    exact ⟨g0, h0, (sortKey_of_sorted h0.coh.rep.deltas.sorted).symm, h0.ticks⟩
  | step op _ hok hs ih =>
    obtain ⟨g, h, ho⟩ := ih
    obtain ⟨s', g', e, h', ho', -⟩ := h.does ho op hok
    rw [hs] at e
    obtain rfl := Option.some.inj e
    exact ⟨g', h', ho'⟩

end AtRest

/-! ## From the runs of the system -/

section Runs

variable {cfg : Env} {i : Idle} {us : List Setup} {m0 m : Sys} {g : Ghost} {r : Nat} {F : List Nat}

theorem Inv.atRest (h : Inv cfg m g r F) : AtRest cfg.served m.k g :=
  ⟨h.stable.coh, h.stable.lock, h.req, h.stable.ticks,
    ⟨r, h.stable.running, h.stable.picked.live.1⟩,
    ⟨r, h.stable.picked.next, h.stable.picked.live.1⟩⟩

/-- The running task is in no list. -/
theorem Inv.unlisted (h : Inv cfg m g r F) : m.k.Unlisted cfg.served r := by
  have hc := h.stable.coh
  have hloc := (hc.loc_of_running h.stable.picked.live h.stable.picked.running).1
  have hno : ∀ k, r ∉ g.tcb.lst k := fun k => hc.rep.tcb.not_mem_of_off hloc
  refine ⟨(alive_iff hc.rep r).mpr h.stable.picked.live, ?_, ?_, fun i => ?_⟩
  · rw [hc.rep.readyTasks_eq]
    exact hno .rdy
  · rw [hc.rep.delayed_eq]
    exact hno .dly
  · rw [show walk m.k.TCBnext cfg.served.tasks (m.k.waittingList i) = g.tcb.lst (.mtx i) from
      (hc.rep.tcb.single (.mtx i)).walk_eq (hc.rep.tcb_length (.mtx i))]
    exact hno (.mtx i)

/-- **The delay list is the map of the deadlines**, after every sequence of operations from a state
    that a run reaches, and each operation acts on that map as it should. -/
theorem delay_list_exact (hu : ∀ u ∈ us, u.Valid) (hb : boot cfg i us = some m0)
    (h : Reach cfg (Tame cfg) m0 m) {s : Kernel} {A : List (Nat × Nat)}
    (hr : Delays cfg.served m.k s A) :
    s.remaining cfg.served = sortKey Prod.snd A ∧
      ∀ op : DelayOp, op.Ok cfg.served s →
        ∃ s', op.exec cfg.served s = some s' ∧ op.Does cfg.served s A s' := by
  obtain ⟨g, r, hbt, -⟩ := booted hu hb
  obtain ⟨g, r, F, hi⟩ := h.tame ⟨g, r, [], hbt.inv⟩
  obtain ⟨g1, h1, ho⟩ := hr.atRest hi.atRest
  refine ⟨h1.remaining.trans ho.dly, fun op hok => ?_⟩
  obtain ⟨s', g', e, -, -, hd⟩ := h1.does ho op hok
  exact ⟨s', e, hd⟩

/-- Two tasks delay themselves; the third one, which runs, is put in the list, and the first one is
    taken out. -/
theorem delay_list_shipped : ∃ m0 m s s',
    boot shippedEnv shippedIdle [.plainTask 5, .plainTask 10, .plainTask 20] = some m0 ∧
    Reach shippedEnv (Tame shippedEnv) m0 m ∧
    Delays shippedEnv.served m.k s [(2, 5), (1, 7), (3, 7)] ∧
    s.remaining shippedEnv.served = [(2, 5), (1, 7), (3, 7)] ∧
    DelayOp.exec shippedEnv.served s (.remove 1) = some s' ∧
    ∀ x, x ∈ s'.remaining shippedEnv.served ↔ x ∈ s.remaining shippedEnv.served ∧ x.1 ≠ 1 := by
  obtain ⟨m0, m, h1, h2, h3⟩ := @ran shippedEnv DelayStep _ shippedIdle
    [.plainTask 5, .plainTask 10, .plainTask 20] [([], .call (.tickDelay 7)),
      ([], .call (.tickDelay 5))] _
    (fun m => (m.k.TCBRunning, m.k.remaining shippedEnv.served,
      (insertDelayList shippedEnv.served m.k 3 7).map fun s => s.delayed shippedEnv.served))
    (some 3, [(2, 5), (1, 7)], some [2, 1, 3]) (by decide +kernel)
  have hrun : m.k.TCBRunning = some 3 := congrArg Prod.fst h3
  have hrem : m.k.remaining shippedEnv.served = [(2, 5), (1, 7)] := congrArg (fun x => x.2.1) h3
  obtain ⟨s, hs, hd⟩ := Option.map_eq_some_iff.mp (congrArg (fun x => x.2.2) h3)
  have hu : ∀ u ∈ [Setup.plainTask 5, .plainTask 10, .plainTask 20], u.Valid := by decide
  obtain ⟨g, r, hbt, -⟩ := booted hu h1
  obtain ⟨g, r, F, hi⟩ := h2.ofTimed.tame ⟨g, r, [], hbt.inv⟩
  obtain rfl : r = 3 := Option.some.inj (hi.stable.running.symm.trans hrun)
  have hr : Delays shippedEnv.served m.k s ([(2, 5), (1, 7)] ++ [(3, 7)]) := by
    rw [← hrem]
    exact Delays.start.step (.insert 3 7) ⟨hi.unlisted, by decide, by decide⟩ hs
  obtain ⟨e1, e2⟩ := delay_list_exact hu h1 h2.ofTimed hr
  obtain ⟨s', e3, e4⟩ := e2 (.remove 1) (show 1 ∈ s.delayed shippedEnv.served by rw [hd]; decide)
  exact ⟨m0, m, s, s', h1, h2.ofTimed, hr, e1, e3, e4⟩

end Runs

end CoOS
