/-
  The pool of event blocks in the runs of `EvtSys`, in which no event is deleted while another task
  is in the middle of deleting it. A task that loses the CPU between the two critical sections of a
  deletion still has to release its block: it must not have been released by another deletion
  meanwhile.
-/
import CoOS.Event.Pool

namespace CoOS

open Function (update)
open DList

/-! ## Runs -/

/-- The event block that a creation has taken and not yet filled in. -/
def EvtCont.takes : EvtCont → Option Nat
  | .fill e .. => some e
  | _ => Option.none

/-- The event block that a deletion has to release. -/
def EvtCont.releases : EvtCont → Option Nat
  | .release e _ => some e
  | _ => Option.none

def EvtCont.Ok : EvtCont → Prop
  | .fill _ ty .. => ty ≠ .invalid
  | _ => True

def EvtSys.Taken (m : EvtSys) (e : Nat) : Prop := ∃ t, (m.rest t).takes = some e

structure EvtInv (cfg : Env) (m : EvtSys) : Prop where
  pool : EcbPool cfg m.k m.Taken
  ok : ∀ t, (m.rest t).Ok
  once : ∀ t u e, (m.rest t).takes = some e → (m.rest u).takes = some e → t = u
  live : ∀ t e, (m.rest t).releases = some e → e < cfg.maxEvent ∧ m.k.eventType e ≠ .invalid
  alone : ∀ t u e, (m.rest t).releases = some e → (m.rest u).releases = some e → t = u

/-- No task is in the middle of a deletion of the event that is to be deleted. -/
def NoOverlap (m : EvtSys) : EvtAct → Prop
  | .call (.del _ id _) => ∀ t, (m.rest t).releases ≠ some id
  | _ => True

section Runs

variable {cfg : Env} {m : EvtSys} {r : Nat} {k : Kernel}

theorem EvtInv.congr (h : EvtInv cfg m) (hk : k.pool = m.k.pool) :
    EvtInv cfg { m with k := k } := by
  refine ⟨h.pool.congr hk, h.ok, h.once, fun t e ht => ?_, h.alone⟩
  rw [show k.eventType = m.k.eventType from congrArg EcbView.eventType hk]
  exact h.live t e ht

theorem EvtInv.queue (h : EvtInv cfg m) (v : Nat → Bool) (q : Nat → Nat) :
    EvtInv cfg { m with k := { m.k with QueueIDVessel := v, qId := q } } :=
  ⟨h.pool.queue v q, h.ok, h.once, h.live, h.alone⟩

/-- No two tasks hold the same block, also after `r` has got something else to do. -/
theorem unique_update {α : Type} {rest : Nat → α} {c : α} {f : α → Option Nat}
    (h : ∀ t u e, f (rest t) = some e → f (rest u) = some e → t = u)
    (hc : ∀ t e, t ≠ r → f (rest t) = some e → f c ≠ some e) :
    ∀ t u e, f (update rest r c t) = some e → f (update rest r c u) = some e → t = u := by
  intro t u e ht hu
  by_cases htr : t = r
  · by_cases hur : u = r
    · rw [htr, hur]
    · rw [htr, Function.update_self] at ht
      rw [Function.update_of_ne hur] at hu
      exact absurd ht (hc u e hur hu)
  · rw [Function.update_of_ne htr] at ht
    by_cases hur : u = r
    · rw [hur, Function.update_self] at hu
      exact absurd hu (hc t e htr ht)
    · rw [Function.update_of_ne hur] at hu
      exact h t u e ht hu

/-- After a section of `r` that leaves `c` to do. -/
theorem EvtInv.next (h : EvtInv cfg m) {c : EvtCont}
    (hp : EcbPool cfg k fun e => c.takes = some e ∨ ∃ t, t ≠ r ∧ (m.rest t).takes = some e)
    (hok : c.Ok) (hone : ∀ t e, t ≠ r → (m.rest t).takes = some e → c.takes ≠ some e)
    (hlive : ∀ e, c.releases = some e → e < cfg.maxEvent ∧ k.eventType e ≠ .invalid)
    (hold : ∀ t e, t ≠ r → (m.rest t).releases = some e → k.eventType e ≠ .invalid)
    (hal : ∀ t e, t ≠ r → (m.rest t).releases = some e → c.releases ≠ some e) :
    EvtInv cfg ⟨k, update m.rest r c⟩ := by
  have hself : update m.rest r c r = c := Function.update_self ..
  have hne : ∀ {t}, t ≠ r → update m.rest r c t = m.rest t := fun ht => Function.update_of_ne ht ..
  refine ⟨hp.iff fun e => ?_, fun t => ?_, unique_update h.once hone, fun t e ht => ?_,
    unique_update h.alone hal⟩
  · change (∃ t, (update m.rest r c t).takes = some e) ↔ _
    constructor
    · rintro ⟨t, ht⟩
      by_cases htr : t = r
      · rw [htr, hself] at ht
        exact Or.inl ht
      · rw [hne htr] at ht
        exact Or.inr ⟨t, htr, ht⟩
    · rintro (hc | ⟨t, htr, ht⟩)
      · exact ⟨r, by rw [hself]; exact hc⟩
      · exact ⟨t, by rw [hne htr]; exact ht⟩
  · change (update m.rest r c t).Ok
    by_cases htr : t = r
    · rw [htr, hself]
      exact hok
    · rw [hne htr]
      exact h.ok t
  · change (update m.rest r c t).releases = some e at ht
    change e < cfg.maxEvent ∧ k.eventType e ≠ .invalid
    by_cases htr : t = r
    · rw [htr, hself] at ht
      exact hlive e ht
    · rw [hne htr] at ht
      exact ⟨(h.live t e ht).1, hold t e htr ht⟩

/-- The blocks taken, when `r` has taken none. -/
theorem EvtSys.taken_iff (hr : (m.rest r).takes = none) (e : Nat) :
    m.Taken e ↔ ∃ t, t ≠ r ∧ (m.rest t).takes = some e := by
  refine ⟨fun ⟨t, ht⟩ => ⟨t, ?_, ht⟩, fun ⟨t, _, ht⟩ => ⟨t, ht⟩⟩
  rintro rfl
  rw [hr] at ht
  exact nomatch ht

/-- A section of `r` that keeps the pool and leaves neither a creation nor a deletion behind. -/
theorem EvtInv.keep (h : EvtInv cfg m) (hk : k.pool = m.k.pool) (hr : (m.rest r).takes = none)
    {c : EvtCont} (h1 : c.takes = none) (h2 : c.releases = none) (h3 : c.Ok) :
    EvtInv cfg ⟨k, update m.rest r c⟩ := by
  have hp : EcbPool cfg k m.Taken := h.pool.congr hk
  refine h.next (hp.iff fun e => ?_) h3 (fun t e _ _ => ?_) (fun e he => ?_) (fun t e _ ht => ?_)
    fun t e _ _ => ?_
  · rw [EvtSys.taken_iff hr, h1]
    exact or_iff_right fun e => nomatch e
  · rw [h1]
    exact fun e => nomatch e
  · rw [h2] at he
    exact nomatch he
  · rw [show k.eventType = m.k.eventType from congrArg EcbView.eventType hk]
    exact (h.live t e ht).2
  · rw [h2]
    exact fun e => nomatch e

/-- The same, when the section writes queue blocks as well. -/
theorem EvtInv.keepQueue (h : EvtInv cfg m) (v : Nat → Bool) (q : Nat → Nat)
    (hk : k.pool = { m.k with QueueIDVessel := v, qId := q }.pool) (hr : (m.rest r).takes = none)
    {c : EvtCont} (h1 : c.takes = none) (h2 : c.releases = none) (h3 : c.Ok) :
    EvtInv cfg ⟨k, update m.rest r c⟩ := (h.queue v q).keep hk hr h1 h2 h3

/-- The section of `CreatEvent`. -/
theorem EvtInv.createFrom (h : EvtInv cfg m) (hk : k.pool = m.k.pool) (hr : (m.rest r).takes = none)
    {ty : EventType} (hty : ty ≠ .invalid) (sort : Nat) (ptr : EventPtr) (initCnt maxCnt : Nat) :
    Ensures (createFrom cfg.served k ty sort ptr initCnt maxCnt) fun x =>
    EvtInv cfg (m.after r x) := by
  have hp : EcbPool cfg k m.Taken := h.pool.congr hk
  refine Ensures.map (hp.take.imp fun x hx => ?_)
  obtain ⟨htype, hx⟩ := hx
  have hlive : ∀ t e, (m.rest t).releases = some e → (takeSwitch x.1).eventType e ≠ .invalid := by
    intro t e ht
    rw [show (takeSwitch x.1).eventType = m.k.eventType from
      (congrArg EcbView.eventType (takeSwitch_pool x.1)).trans
        (htype.trans (congrArg EcbView.eventType hk))]
    exact (h.live t e ht).2
  cases hpe : x.2 with
  | none =>
    rw [hpe] at hx
    have hs := hx.1.congr (takeSwitch_pool x.1)
    refine h.next (hs.iff fun e => ?_) trivial (fun _ _ _ _ e => nomatch e) (fun _ e => nomatch e)
      (fun t e _ ht => ?_) fun _ _ _ _ e => nomatch e
    · rw [EvtSys.taken_iff hr]
      exact or_iff_right fun e => nomatch e
    · exact hlive t e ht
  | some e =>
    rw [hpe] at hx
    have hs := hx.1.congr (takeSwitch_pool x.1)
    refine h.next (hs.iff fun a => ?_) hty (fun t a _ ht he => ?_) (fun _ e => nomatch e)
      (fun t e _ ht => ?_) fun _ _ _ _ e => nomatch e
    · rw [EvtSys.taken_iff hr]
      exact or_congr_left ⟨fun e => (Option.some.inj e).symm, fun e => e ▸ rfl⟩
    · obtain rfl := Option.some.inj he
      exact hx.2.1 ⟨t, ht⟩
    · exact hlive t e ht

/-- A block in use is released by `r`, which then has `c` to do. -/
theorem EvtInv.released (h : EvtInv cfg m) {e : Nat} (hp : EcbPool cfg k m.Taken)
    (hty : k.eventType = update m.k.eventType e .invalid) (hr : (m.rest r).takes = none)
    (ho : ∀ t, t ≠ r → (m.rest t).releases ≠ some e) {c : EvtCont} (h1 : c.takes = none)
    (h2 : c.releases = none) (h3 : c.Ok) : EvtInv cfg ⟨k, update m.rest r c⟩ := by
  refine h.next (hp.iff fun a => ?_) h3 (fun t a _ _ => ?_) (fun a ha => ?_) (fun t a htr ht => ?_)
    fun t a _ _ => ?_
  · rw [EvtSys.taken_iff hr, h1]
    exact or_iff_right fun e => nomatch e
  · rw [h1]
    exact fun e => nomatch e
  · rw [h2] at ha
    exact nomatch ha
  · have hae : a ≠ e := fun e' => ho t htr (e' ▸ ht)
    rw [hty, Function.update_of_ne hae]
    exact (h.live t a ht).2
  · rw [h2]
    exact fun e => nomatch e

/-- The deletions: they keep the pool, or have released their block at once. The status is
    `none` when the block is still to be released. -/
theorem delEvent_cases {T : Nat → Prop} (h : EcbPool cfg k T) (kd : EventType) (id opt : Nat) :
    Ensures (delEvent cfg.served k kd id opt) fun x =>
      (x.1.pool = k.pool ∧ (x.2 = none → id < cfg.maxEvent ∧ k.eventType id ≠ .invalid)) ∨
      (x.2 = some .E_OK ∧ EcbPool cfg x.1 T ∧ x.1.eventType = update k.eventType id .invalid) := by
  have hkind : ∀ kd : EventType, kd ≠ .invalid → Ensures (delKind cfg.served k kd id opt) fun x =>
      (x.1.pool = k.pool ∧ (x.2 = none → id < cfg.maxEvent ∧ k.eventType id ≠ .invalid)) ∨
      (x.2 = some .E_OK ∧ EcbPool cfg x.1 T ∧ x.1.eventType = update k.eventType id .invalid) := by
    intro kd hkd
    unfold delKind deleteEvent
    refine .ite (fun _ => .some (Or.inl ⟨rfl, fun e => nomatch e⟩)) fun hk => ?_
    have hid : id < cfg.maxEvent := Nat.lt_of_not_le (not_or.mp hk).1
    have hty : k.eventType id ≠ .invalid := by
      rw [not_bad_kind hk]
      exact hkd
    refine .ite (fun _ => ?_) fun _ => .ite (fun _ => ?_) fun _ =>
      .some (Or.inl ⟨rfl, fun e => nomatch e⟩)
    · refine .ite (fun _ => .some (Or.inl ⟨rfl, fun e => nomatch e⟩)) fun _ => ?_
      exact Ensures.bind (h.release hid hty) fun s1 h1 => .some (Or.inr ⟨rfl, h1⟩)
    · refine Ensures.bind (releaseTasks_pool id _ (s := osSchedLock k) rfl) fun s1 h1 => ?_
      refine Ensures.bind (osSchedUnlock_pool cfg h1 h.tmr) fun s2 h2 => .some (Or.inl ⟨h2, ?_⟩)
      exact fun _ => ⟨hid, hty⟩
  cases kd with
  | sem => exact hkind .sem (by decide)
  | mbox => exact hkind .mbox (by decide)
  | queue => exact hkind .queue (by decide)
  | invalid => exact .none

theorem EvtInv.del (h : EvtInv cfg m) (hk : k.pool = m.k.pool) (hr : m.rest r = .none)
    {kd : EventType} {id opt : Nat} (ho : ∀ t, (m.rest t).releases ≠ some id) :
    Ensures ((EvtCall.del kd id opt).exec cfg.served k) fun x => EvtInv cfg (m.after r x) := by
  have hp : EcbPool cfg k m.Taken := h.pool.congr hk
  have htype : k.eventType = m.k.eventType := congrArg EcbView.eventType hk
  have hr1 : (m.rest r).takes = none := by
    rw [hr]
    rfl
  have hkeep : ∀ {k' : Kernel} {c : EvtCont}, k'.pool = k.pool → c.takes = none →
      c.releases = none → c.Ok → EvtInv cfg ⟨takeSwitch k', update m.rest r c⟩ :=
    fun e h1 h2 h3 => h.keep ((takeSwitch_pool _).trans (e.trans hk)) hr1 h1 h2 h3
  have hrel : ∀ {k' : Kernel} {c : EvtCont}, EcbPool cfg k' m.Taken →
      k'.eventType = update k.eventType id .invalid → c.takes = none →
      c.releases = none → c.Ok → EvtInv cfg ⟨takeSwitch k', update m.rest r c⟩ := by
    intro k' c h1 h2
    rw [htype] at h2
    exact h.released (h1.congr (takeSwitch_pool k'))
      ((congrArg EcbView.eventType (takeSwitch_pool k')).trans h2) hr1 fun t _ => ho t
  unfold EvtCall.exec
  dsimp only
  refine Ensures.map ((delEvent_cases hp kd id opt).imp fun x hx => ?_)
  generalize (if kd = .queue then some (qcbOf k id) else none) = q
  rcases hx with ⟨hpool, hnone⟩ | ⟨hst, hpx, htx⟩
  · cases hst : x.2 with
    | none =>
      obtain ⟨h1, h2⟩ := hnone hst
      have hs : (takeSwitch x.1).pool = m.k.pool := (takeSwitch_pool _).trans (hpool.trans hk)
      have hty : (takeSwitch x.1).eventType = m.k.eventType := congrArg EcbView.eventType hs
      refine h.next ((h.pool.congr hs).iff fun e => ?_) trivial (fun _ _ _ _ e => nomatch e)
        (fun e he => ?_) (fun t e _ ht => ?_) fun t e _ ht he => ?_
      · rw [EvtSys.taken_iff hr1]
        exact or_iff_right fun e => nomatch e
      · obtain rfl : id = e := Option.some.inj he
        refine ⟨h1, ?_⟩
        change (takeSwitch x.1).eventType id ≠ _
        rw [hty, ← htype]
        exact h2
      · change (takeSwitch x.1).eventType e ≠ _
        rw [hty]
        exact (h.live t e ht).2
      · obtain rfl : id = e := Option.some.inj he
        exact ho t ht
    | some st =>
      cases st with
      | E_OK =>
        cases q with
        | none => exact hkeep hpool rfl rfl trivial
        | some q =>
          dsimp only
          split
          · exact hkeep hpool rfl rfl trivial
          · refine h.keepQueue (clearQueue x.1 q).QueueIDVessel (clearQueue x.1 q).qId
              ((takeSwitch_pool _).trans ?_) hr1 rfl rfl trivial
            exact pool_queue (hpool.trans hk) _ _
      | _ => exact hkeep hpool rfl rfl trivial
  · rw [hst]
    cases q with
    | none => exact hrel hpx htx rfl rfl trivial
    | some q =>
      dsimp only
      split
      · exact hrel hpx htx rfl rfl trivial
      · exact @hrel (clearQueue x.1 q) _ ((hpx.queue _ _).congr rfl) htx rfl rfl trivial

/-- Accepts, pends and posts. -/
def EvtCall.uses : EvtCall → Bool
  | .accept .. | .pend .. | .post .. => true
  | _ => false

/-- The rest of a pend. -/
def EvtCont.uses : EvtCont → Bool
  | .block .. | .wait _ => true
  | _ => false

/-- Nothing is left of a call, or the rest of a pend. -/
def EvtCont.Light (c : EvtCont) : Prop := c = .none ∨ c.uses = true

theorem EvtCont.Light.pool {c : EvtCont} (h : c.Light) :
    c.takes = Option.none ∧ c.releases = Option.none ∧ c.Ok := by
  rcases h with rfl | h
  · exact ⟨rfl, rfl, trivial⟩
  · cases c with
    | block => exact ⟨rfl, rfl, trivial⟩
    | wait => exact ⟨rfl, rfl, trivial⟩
    | _ => exact nomatch h

theorem EvtCall.uses_pool {c : EvtCall} (hc : c.uses = true) (ht : k.tmr.TmrList = none) :
    Ensures (c.exec cfg.served k) fun x => x.1.pool = k.pool ∧ x.2.1.Light := by
  cases c with
  | accept kd id =>
    exact Ensures.map ((acceptEvent_pool cfg kd id rfl ht).imp fun x e => ⟨e, Or.inl rfl⟩)
  | pend kd id n =>
    refine Ensures.map ((pendEvent_pool cfg kd id rfl ht).imp fun x e => ?_)
    split
    · exact ⟨e, Or.inl rfl⟩
    · exact ⟨e, Or.inr rfl⟩
  | post kd id mail =>
    exact Ensures.map ((postEvent_pool cfg kd id mail rfl ht).imp fun x e => ⟨e, Or.inl rfl⟩)
  | _ => exact nomatch hc

theorem EvtCont.uses_pool {c : EvtCont} (hc : c.uses = true)
    (ht : k.tmr.TmrList = Option.none) (r : Nat) :
    Ensures (c.exec cfg.served k r) fun x => x.1.pool = k.pool ∧ x.2.1.Light := by
  cases c with
  | block id n =>
    exact Ensures.map ((pendWait_pool cfg id n rfl ht).imp fun s e => ⟨e, Or.inr rfl⟩)
  | wait n => exact .some ⟨pendReturn_pool k r n, Or.inl rfl⟩
  | _ => exact nomatch hc

theorem EvtInv.uses (h : EvtInv cfg m) (hk : k.pool = m.k.pool) (hr : (m.rest r).takes = none)
    {x : EvtOutcome} (hx : x.1.pool = k.pool ∧ x.2.1.Light) : EvtInv cfg (m.after r x) :=
  h.keep ((takeSwitch_pool _).trans (hx.1.trans hk)) hr hx.2.pool.1 hx.2.pool.2.1 hx.2.pool.2.2

theorem EvtInv.call (h : EvtInv cfg m) (hk : k.pool = m.k.pool) (hr : m.rest r = .none)
    {c : EvtCall}
    (ho : NoOverlap m (.call c)) :
    Ensures (c.exec cfg.served k) fun x => EvtInv cfg (m.after r x) := by
  have hr1 : (m.rest r).takes = none := by
    rw [hr]
    rfl
  have ht : k.tmr.TmrList = none := by
    rw [show k.tmr = m.k.tmr from congrArg EcbView.tmr hk]
    exact h.pool.tmr
  have hkeep : ∀ {k' : Kernel} {c : EvtCont} {ret : Option Ret}, k'.pool = k.pool → c.takes = none →
      c.releases = none → c.Ok → EvtInv cfg (m.after r (k', c, ret)) :=
    fun e h1 h2 h3 => h.keep ((takeSwitch_pool _).trans (e.trans hk)) hr1 h1 h2 h3
  cases c with
  | createSem initCnt maxCnt sort =>
    refine .ite (fun _ => .some (hkeep rfl rfl rfl trivial)) fun _ => ?_
    exact h.createFrom hk hr1 (by decide) sort .null initCnt maxCnt
  | createMbox sort => exact h.createFrom hk hr1 (by decide) sort .null 0 0
  | createQueue qStart size sort =>
    refine .ite (fun _ => .some (hkeep rfl rfl rfl trivial)) fun _ => ?_
    split
    · exact Ensures.map ((osSchedUnlock_pool cfg (s := osSchedLock k) rfl ht).imp fun s1 e1 =>
        hkeep e1 rfl rfl trivial)
    · next i _ =>
      let k0 : Kernel := { osSchedLock k with QueueIDVessel := update k.QueueIDVessel i true }
      refine Ensures.map ((osSchedUnlock_pool cfg (s := k0) rfl ht).imp fun s1 e1 => ?_)
      refine h.keepQueue k0.QueueIDVessel k0.qId
        ((takeSwitch_pool s1).trans (e1.trans ?_)) hr1 rfl rfl
        trivial
      exact pool_queue hk _ _
  | del kd id opt => exact h.del hk hr ho
  | accept kd id => exact (EvtCall.uses_pool rfl ht).imp fun x hx => h.uses hk hr1 hx
  | pend kd id n => exact (EvtCall.uses_pool rfl ht).imp fun x hx => h.uses hk hr1 hx
  | post kd id mail => exact (EvtCall.uses_pool rfl ht).imp fun x hx => h.uses hk hr1 hx

theorem EvtInv.resume (h : EvtInv cfg m) (hk : k.pool = m.k.pool) (r : Nat) :
    Ensures ((m.rest r).exec cfg.served k r) fun x => EvtInv cfg (m.after r x) := by
  have hp : EcbPool cfg k m.Taken := h.pool.congr hk
  have htype : k.eventType = m.k.eventType := congrArg EcbView.eventType hk
  cases hc : m.rest r with
  | none => exact .none
  | block id n =>
    have hr1 : (m.rest r).takes = none := congrArg EvtCont.takes hc
    exact (EvtCont.uses_pool rfl hp.tmr r).imp fun x hx => h.uses hk hr1 hx
  | wait n =>
    have hr1 : (m.rest r).takes = none := congrArg EvtCont.takes hc
    exact (EvtCont.uses_pool rfl hp.tmr r).imp fun x hx => h.uses hk hr1 hx
  | fill e ty sort ptr i n =>
    have hr1 : (m.rest r).takes = some e := congrArg EvtCont.takes hc
    have hty : ty ≠ .invalid := by
      have := h.ok r
      rw [hc] at this
      exact this
    obtain ⟨c1, c2, c3, c4, c5⟩ := initEvent_cols k e ty sort ptr i n
    have hf := hp.fill ⟨r, hr1⟩ hty c1 c2 c3 c4 c5
    have hsw := takeSwitch_pool (initEvent k e ty sort ptr i n)
    refine .some (h.next ((hf.congr hsw).iff fun a => ?_) trivial (fun _ _ _ _ e => nomatch e)
      (fun _ e => nomatch e) (fun t a _ ht => ?_) fun _ _ _ _ e => nomatch e)
    · constructor
      · rintro (ha | ⟨t, htr, ht⟩)
        · exact nomatch ha
        · refine ⟨fun e' => htr (h.once t r e (e' ▸ ht) hr1), t, ht⟩
      · rintro ⟨hae, t, ht⟩
        refine Or.inr ⟨t, fun htr => hae ?_, ht⟩
        rw [htr, hr1] at ht
        exact (Option.some.inj ht).symm
    · have hlive := h.live t a ht
      change (takeSwitch (initEvent k e ty sort ptr i n)).eventType a ≠ _
      rw [show (takeSwitch (initEvent k e ty sort ptr i n)).eventType = _ from
        (congrArg EcbView.eventType hsw).trans c1]
      by_cases hae : a = e
      · rw [hae, Function.update_self]
        exact hty
      · rw [Function.update_of_ne hae, htype]
        exact hlive.2
  | take i size sort =>
    have hr1 : (m.rest r).takes = none := congrArg EvtCont.takes hc
    let k0 : Kernel := { k with
      qId := update k.qId i i
      qHead := update k.qHead i 0
      qTail := update k.qTail i 0
      qMaxSize := update k.qMaxSize i size
      qSize := update k.qSize i 0 }
    have hq := h.queue k0.QueueIDVessel k0.qId
    exact hq.createFrom (k := k0) (pool_queue hk k0.QueueIDVessel k0.qId) hr1 (by decide) sort
      (.qcb i) 0 0
  | release e q =>
    have hr1 : (m.rest r).takes = none := congrArg EvtCont.takes hc
    have hr2 : (m.rest r).releases = some e := congrArg EvtCont.releases hc
    obtain ⟨he, hty⟩ := h.live r e hr2
    rw [← htype] at hty
    refine Ensures.map ((hp.release he hty).imp fun s1 h1 => ?_)
    have hsw := takeSwitch_pool s1
    have hp1 : EcbPool cfg (takeSwitch s1) m.Taken := h1.1.congr hsw
    have ht1 : (takeSwitch s1).eventType = update m.k.eventType e .invalid := by
      rw [← htype]
      exact (congrArg EcbView.eventType hsw).trans h1.2
    have ho : ∀ t, t ≠ r → (m.rest t).releases ≠ some e := fun t htr ht =>
      htr (h.alone t r e ht hr2)
    cases q with
    | none => exact h.released hp1 ht1 hr1 ho rfl rfl trivial
    | some q => exact h.released hp1 ht1 hr1 ho rfl rfl trivial
  | clear q =>
    have hr1 : (m.rest r).takes = none := congrArg EvtCont.takes hc
    refine .some (h.keepQueue (clearQueue k q).QueueIDVessel (clearQueue k q).qId
      ((takeSwitch_pool _).trans ?_) hr1 rfl rfl trivial)
    exact pool_queue hk _ _

theorem EvtInv.step (h : EvtInv cfg m) {m' : EvtSys} {rs : List SQC} {a : EvtAct}
    (ho : NoOverlap m a)
    (hs : m.step cfg rs a = some m') : EvtInv cfg m' := by
  obtain ⟨hx, -⟩ := Option.filter_eq_some_iff.mp hs
  have hk : (m.k.defer cfg.served rs).pool = m.k.pool := defer_pool _ rs m.k
  unfold EvtSys.exec at hx
  dsimp only at hx
  split at hx
  · obtain ⟨k', e1, rfl⟩ := Option.map_eq_some_iff.mp hx
    have ht : (m.k.defer cfg.served rs).tmr.TmrList = none := (h.pool.congr hk).tmr
    exact h.congr ((takeSwitch_pool k').trans ((sysTick_pool cfg rfl ht k' e1).trans hk))
  · split at hx
    · exact nomatch hx
    · next hr =>
      obtain ⟨x, e1, rfl⟩ := Option.map_eq_some_iff.mp hx
      exact h.call hk (not_not.mp (not_or.mp hr).2) ho x e1
  · obtain ⟨x, e1, rfl⟩ := Option.map_eq_some_iff.mp hx
    exact h.resume hk _ x e1
  · exact nomatch hx

theorem EvtReach.inv {m0 m : EvtSys} {i : Idle} {us : List Setup} (hb : evtBoot cfg i us = some m0)
    (h : EvtReach cfg NoOverlap m0 m) : EvtInv cfg m := by
  induction h with
  | start =>
    obtain ⟨m, e1, rfl⟩ := Option.map_eq_some_iff.mp hb
    refine ⟨(boot_pool e1).iff fun e => ?_, fun _ => trivial, (fun _ _ _ e => nomatch e),
      (fun _ _ e => nomatch e), (fun _ _ _ e => nomatch e)⟩
    exact iff_of_false (fun ⟨_, ht⟩ => nomatch ht) not_false
  | step _ hok hs ih => exact ih.step hok hs

end Runs

end CoOS
