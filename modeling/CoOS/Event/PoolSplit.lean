/-
  The pool of event blocks, in every run that creates, uses and deletes events, whatever comes in
  between the tests of a call and its critical sections.

  A block of type INVALID that is not in the free list is held by a task: by one that creates an
  event and has not filled in the block, or by one that has marked it in `ReleaseECB` and has not
  yet linked it (`Held`). What breaks the pool is a task that goes on behind its tests with an event
  that has been deleted meanwhile: it releases the block a second time, or writes a mail over the
  link of a free one (`InUse`).
-/
import CoOS.Event.PoolRun

namespace CoOS

open Function (update)
open DList

/-! ## What a task holds and what it writes -/

/-- The event block that the task has taken from the free list or has still to put back. -/
def EvtPoint.held : EvtPoint → Option Nat
  | .cont c => c.takes
  | .marked e _ => some e
  | .tested .. => none

/-- The event of which the next step writes the block: the mail, or the mark of `ReleaseECB`. -/
def EvtPoint.writes (k : Kernel) : EvtPoint → Option Nat
  | .tested (.del _ id opt) _ => if opt = OPT_DEL_NO_PEND then some id else none
  | .tested (.accept .mbox id) _ | .tested (.pend .mbox id _) _ =>
    if k.eventCounter id = 1 then some id else none
  | .tested (.post .mbox id _) _ => some id
  | .cont (.release id _) => some id
  | _ => none

/-- The event that the running task is about to write has not been deleted. -/
def InUse (s : EvtSplit) : EvtEdge → Prop
  | .resume => ∀ r ∈ s.k.TCBRunning, ∀ e ∈ (s.pc r).writes s.k, s.k.eventType e ≠ .invalid
  | _ => True

instance (s : EvtSplit) (a : EvtEdge) : Decidable (InUse s a) :=
  match a with
  | .resume => inferInstanceAs (Decidable (∀ r ∈ s.k.TCBRunning, ∀ e ∈ (s.pc r).writes s.k, _))
  | .call _ | .tick | .isr .. => inferInstanceAs (Decidable True)

def EvtPoint.Ok (cfg : Env) : EvtPoint → Prop
  | .cont (.fill _ ty ..) => ty ≠ .invalid
  | .cont (.release id _) | .tested (.del _ id _) _ => id < cfg.maxEvent
  | _ => True

def EvtSplit.Held (s : EvtSplit) (e : Nat) : Prop := ∃ t, (s.pc t).held = some e

structure EvtSplit.Inv (cfg : Env) (s : EvtSplit) : Prop where
  pool : EcbPool cfg s.k s.Held
  ok : ∀ t, (s.pc t).Ok cfg
  once : ∀ t u e, (s.pc t).held = some e → (s.pc u).held = some e → t = u

section Steps

variable {cfg : Env} {s : EvtSplit} {r : Nat} {k k' : Kernel} {p : EvtPoint}

/-- After a step of `r` that leaves it at `p`. -/
theorem EvtSplit.Inv.next (h : s.Inv cfg)
    (hp : EcbPool cfg k fun e => p.held = some e ∨ ∃ t, t ≠ r ∧ (s.pc t).held = some e)
    (hok : p.Ok cfg)
    (hone : ∀ t e, t ≠ r → (s.pc t).held = some e → p.held ≠ some e) :
    EvtSplit.Inv cfg ⟨k, update s.pc r p⟩ := by
  have hself : update s.pc r p r = p := Function.update_self ..
  have hne : ∀ {t}, t ≠ r → update s.pc r p t = s.pc t := fun ht => Function.update_of_ne ht ..
  refine ⟨hp.iff fun e => ?_, fun t => ?_, unique_update h.once hone⟩
  · change (∃ t, (update s.pc r p t).held = some e) ↔ _
    constructor
    · rintro ⟨t, ht⟩
      by_cases htr : t = r
      · rw [htr, hself] at ht
        exact Or.inl ht
      · rw [hne htr] at ht
        exact Or.inr ⟨t, htr, ht⟩
    · rintro (hc | ⟨t, htr, ht⟩)
      · exact ⟨r, by rw [hself]; exact hc⟩
      · exact ⟨t, by rw [hne htr]; exact ht⟩
  · change (update s.pc r p t).Ok cfg
    by_cases htr : t = r
    · rw [htr, hself]
      exact hok
    · rw [hne htr]
      exact h.ok t

theorem EvtSplit.held_iff (hr : (s.pc r).held = none) (e : Nat) :
    s.Held e ↔ ∃ t, t ≠ r ∧ (s.pc t).held = some e := by
  refine ⟨fun ⟨t, ht⟩ => ⟨t, ?_, ht⟩, fun ⟨t, _, ht⟩ => ⟨t, ht⟩⟩
  rintro rfl
  rw [hr] at ht
  exact nomatch ht

/-- A step that leaves the free list as it is. -/
theorem EvtSplit.Inv.keep (h : s.Inv cfg) (hk : EcbPool cfg k s.Held) (hr : (s.pc r).held = none)
    (hp : p.held = none) (hok : p.Ok cfg) : EvtSplit.Inv cfg ⟨k, update s.pc r p⟩ := by
  refine h.next (hk.iff fun e => ?_) hok fun t e _ _ => ?_
  · rw [EvtSplit.held_iff hr, hp]
    exact or_iff_right fun e => nomatch e
  · rw [hp]
    exact fun e => nomatch e

/-- A step that takes a block: it was free. -/
theorem EvtSplit.Inv.hold (h : s.Inv cfg) (hr : (s.pc r).held = none) {e : Nat}
    (hp : p.held = some e)
    (he : ¬ s.Held e) (hk : EcbPool cfg k fun a => a = e ∨ s.Held a) (hok : p.Ok cfg) :
    EvtSplit.Inv cfg ⟨k, update s.pc r p⟩ := by
  refine h.next (hk.iff fun a => ?_) hok fun t a _ ht ha => ?_
  · rw [EvtSplit.held_iff hr, hp]
    exact or_congr_left ⟨fun e => (Option.some.inj e).symm, fun e => e ▸ rfl⟩
  · rw [hp] at ha
    exact he ⟨t, (Option.some.inj ha) ▸ ht⟩

/-- A step that gives the held block up. -/
theorem EvtSplit.Inv.give (h : s.Inv cfg) {e : Nat} (hr : (s.pc r).held = some e)
    (hp : p.held = none)
    (hk : EcbPool cfg k fun a => a ≠ e ∧ s.Held a) (hok : p.Ok cfg) :
    EvtSplit.Inv cfg ⟨k, update s.pc r p⟩ := by
  refine h.next (hk.iff fun a => ?_) hok fun t a _ _ => ?_
  · rw [hp]
    constructor
    · rintro (ha | ⟨t, htr, ht⟩)
      · exact nomatch ha
      · exact ⟨fun e' => htr (h.once t r e (e' ▸ ht) hr), t, ht⟩
    · rintro ⟨hae, t, ht⟩
      refine Or.inr ⟨t, fun htr => hae ?_, ht⟩
      rw [htr, hr] at ht
      exact (Option.some.inj ht).symm
  · rw [hp]
    exact fun e => nomatch e

theorem takeSwitch_free (k : Kernel) : SameFree k (takeSwitch k) := .pool (takeSwitch_pool k)

theorem EcbPool.switched {T : Nat → Prop} (h : EcbPool cfg k T) : EcbPool cfg (takeSwitch k) T :=
  h.same (takeSwitch_free k)

/-- The section of `CreatEvent`. -/
theorem EvtSplit.Inv.createFrom (h : s.Inv cfg) (hk : EcbPool cfg k s.Held)
    (hr : (s.pc r).held = none)
    {ty : EventType} (hty : ty ≠ .invalid) (sort : Nat) (ptr : EventPtr) (i n : Nat) :
    Ensures (createFrom cfg.served k ty sort ptr i n) fun x =>
    (s.after r (EvtOutcome.turn x)).Inv cfg := by
  refine Ensures.map (hk.take.imp fun x hx => ?_)
  obtain ⟨-, hx⟩ := hx
  cases hpe : x.2 with
  | none =>
    rw [hpe] at hx
    exact h.keep hx.1.switched hr rfl trivial
  | some e =>
    rw [hpe] at hx
    exact h.hold hr rfl hx.2.1 hx.1.switched hty

/-- `ReleaseECB` marks the block. -/
theorem EvtSplit.Inv.mark (h : s.Inv cfg) (hk : EcbPool cfg k s.Held)
    (hr : (s.pc r).held = none) {e : Nat}
    (he : e < cfg.maxEvent) (hty : k.eventType e ≠ .invalid) (q : Option Nat) :
    (s.after r (markECB k e, .marked e q, none)).Inv cfg :=
  h.hold hr rfl (fun ht => hty (hk.taken e ht).2) (hk.mark he hty).switched trivial

/-- A deletion that is refused, or whose option is none. -/
theorem delEvent_refused {kd : EventType} {id opt : Nat}
    (h : (EvtCall.del kd id opt).tests cfg k = none) :
    Ensures (delEvent cfg k kd id opt) fun x => x.1 = k ∧ ∃ st, x.2 = some st := by
  have hkind : kd ≠ .invalid → Ensures (delKind cfg k kd id opt) fun x =>
    x.1 = k ∧ ∃ st, x.2 = some st := by
    intro hkd
    unfold delKind deleteEvent
    refine .ite (fun _ => .some ⟨rfl, _, rfl⟩) fun hb => ?_
    rw [EvtCall.tests, if_neg (not_or.mpr ⟨hkd, hb⟩)] at h
    refine .ite (fun h0 => ?_) fun h0 => .ite (fun h1 => ?_) fun _ => .some ⟨rfl, _, rfl⟩
    · refine .ite (fun _ => .some ⟨rfl, _, rfl⟩) fun hl => ?_
      rw [if_pos h0, if_neg hl] at h
      exact nomatch h
    · rw [if_neg h0, if_pos h1] at h
      exact nomatch h
  cases kd with
  | sem => exact hkind (by decide)
  | mbox => exact hkind (by decide)
  | queue => exact hkind (by decide)
  | invalid => exact .none

theorem EvtCont.Light.point {c : EvtCont} (h : c.Light) : (EvtPoint.cont c).Ok cfg := by
  rcases h with rfl | h
  · trivial
  · cases c with
    | block => trivial
    | wait => trivial
    | _ => exact nomatch h

/-- A call that its tests do not let go on, or that has no tests. -/
theorem EvtSplit.Inv.call (h : s.Inv cfg) (hk : EcbPool cfg k s.Held) (hr : s.pc r = .cont .none)
    {c : EvtCall} (ht : c.tests cfg.served k = none) :
    Ensures (c.exec cfg.served k) fun x => (s.after r (EvtOutcome.turn x)).Inv cfg := by
  have hr1 : (s.pc r).held = none := by
    rw [hr]
    rfl
  have hkeep : ∀ {k' : Kernel} {c : EvtCont} {ret : Option Ret}, SameFree k k' → c.Light →
      (s.after r (k', .cont c, ret)).Inv cfg := fun {k' c ret} e hc => by
    exact h.keep (hk.same e).switched hr1 hc.pool.1 hc.point
  have huse : ∀ {c : EvtCall}, c.uses = true →
      Ensures (c.exec cfg.served k) fun x => (s.after r (EvtOutcome.turn x)).Inv cfg := fun hc =>
    (EvtCall.uses_pool hc hk.tmr).imp fun x hx => hkeep (.pool hx.1) hx.2
  cases c with
  | createSem initCnt maxCnt sort =>
    refine .ite (fun _ => .some (hkeep (.pool rfl) (Or.inl rfl))) fun _ => ?_
    exact h.createFrom hk hr1 (by decide) sort .null initCnt maxCnt
  | createMbox sort => exact h.createFrom hk hr1 (by decide) sort .null 0 0
  | createQueue qStart size sort =>
    refine .ite (fun _ => .some (hkeep (.pool rfl) (Or.inl rfl))) fun _ => ?_
    split
    · exact Ensures.map ((osSchedUnlock_pool cfg (s := osSchedLock k) rfl hk.tmr).imp fun s1 e1 =>
        hkeep (.pool e1) (Or.inl rfl))
    · next i _ =>
      let k0 : Kernel := { osSchedLock k with QueueIDVessel := update k.QueueIDVessel i true }
      refine Ensures.map ((osSchedUnlock_pool cfg (s := k0) rfl hk.tmr).imp fun s1 e1 => ?_)
      have h0 : EcbPool cfg k0 s.Held := hk.same ⟨rfl, rfl, rfl, fun _ _ => rfl, rfl⟩
      exact h.keep (h0.congr e1).switched hr1 rfl trivial
  | del kd id opt =>
    unfold EvtCall.exec
    dsimp only
    generalize (if kd = .queue then some (qcbOf k id) else none) = q
    refine Ensures.map ((delEvent_refused ht).imp fun x hx => ?_)
    obtain ⟨h1, st, h2⟩ := hx
    rw [h2, h1]
    cases st with
    | E_OK =>
      cases q with
      | none => exact hkeep (.pool rfl) (Or.inl rfl)
      | some q =>
        dsimp only
        split
        · exact h.keep hk.switched hr1 rfl trivial
        · exact @hkeep (clearQueue k q) _ _ ⟨rfl, rfl, rfl, fun _ _ => rfl, rfl⟩ (Or.inl rfl)
    | _ => exact hkeep (.pool rfl) (Or.inl rfl)
  | accept kd id => exact huse rfl
  | pend kd id n => exact huse rfl
  | post kd id mail => exact huse rfl

/-- What a section writes of the event `id`. -/
theorem SameFree.section {P : Prop} {id : Nat} (h : Mailed k id k'.pool ∧ (¬ P → k'.pool = k.pool))
    (hu : P → k.eventType id ≠ .invalid) : SameFree k k' := by
  by_cases hp : P
  · exact .mailed h.1 (hu hp)
  · exact .pool (h.2 hp)

/-- The section of a use behind its tests. -/
theorem EvtCall.rest_uses {c : EvtCall} {v : Nat} (hc : c.uses = true) (ht : k.tmr.TmrList = none)
    (hu : ∀ e ∈ (EvtPoint.tested c v).writes k, k.eventType e ≠ .invalid) :
    Ensures (c.rest cfg.served k v) fun x => SameFree k x.1 ∧ ∃ c' : EvtCont, c'.Light ∧
    x.2.1 = .cont c' := by
  cases c with
  | accept kd id =>
    refine Ensures.map ((acceptSection_pool cfg kd id v ht).imp fun x hx => ?_)
    refine ⟨.section ⟨hx.1, fun hn => hx.2 (not_and_or.mp hn)⟩ fun hm => hu id ?_, .none,
      Or.inl rfl, rfl⟩
    rw [hm.1]
    exact if_pos hm.2
  | pend kd id n =>
    refine Ensures.map ((pendSection_pool cfg kd id v ht).imp fun x hx => ?_)
    have hs : SameFree k x.1 := by
      refine .section ⟨hx.1, fun hn => hx.2 (not_and_or.mp hn)⟩ fun hm => hu id ?_
      rw [hm.1]
      exact if_pos hm.2
    split
    · exact ⟨hs, .none, Or.inl rfl, rfl⟩
    · exact ⟨hs, .block id n, Or.inr rfl, rfl⟩
  | post kd id mail =>
    refine Ensures.map ((postSection_pool cfg kd id v mail ht).imp fun x hx => ?_)
    exact ⟨.section hx fun e => hu id (e ▸ rfl), .none, Or.inl rfl, rfl⟩
  | _ => exact nomatch hc

/-- The section behind the tests. -/
theorem EvtSplit.Inv.rest (h : s.Inv cfg) (hk : EcbPool cfg k s.Held) {c : EvtCall} {v : Nat}
    (hr : s.pc r = .tested c v)
    (hu : ∀ e ∈ (EvtPoint.tested c v).writes k, k.eventType e ≠ .invalid) :
    Ensures (c.rest cfg.served k v) fun x => (s.after r x).Inv cfg := by
  have hr1 : (s.pc r).held = none := by
    rw [hr]
    rfl
  by_cases hc : c.uses = true
  · refine (EvtCall.rest_uses hc hk.tmr hu).imp fun x hx => ?_
    obtain ⟨h1, c', h2, h3⟩ := hx
    refine h.keep (hk.same h1).switched hr1 ?_ ?_
    · rw [h3]
      exact h2.pool.1
    · rw [h3]
      exact h2.point
  cases c with
  | del kd id opt =>
    have hlt : id < cfg.maxEvent := by
      have := h.ok r
      rw [hr] at this
      exact this
    refine .ite (fun h0 => .some ?_) fun _ => ?_
    · exact h.mark hk hr1 hlt (hu id (if_pos h0)) _
    · refine Ensures.bind (releaseTasks_pool id _ (s := osSchedLock k) rfl) fun s1 h1 => ?_
      refine Ensures.bind (osSchedUnlock_pool cfg h1 hk.tmr) fun s2 h2 => .some ?_
      exact h.keep (hk.congr h2).switched hr1 rfl hlt
  | accept => exact absurd rfl hc
  | pend => exact absurd rfl hc
  | post => exact absurd rfl hc
  | _ => exact .none

/-- What is left behind an unlock. -/
theorem EvtSplit.Inv.cont (h : s.Inv cfg) (hk : EcbPool cfg k s.Held) {c : EvtCont}
    (hr : s.pc r = .cont c)
    (hu : ∀ e ∈ (EvtPoint.cont c).writes k, k.eventType e ≠ .invalid) :
    Ensures ((EvtPoint.cont c).exec cfg.served k r) fun x => (s.after r x).Inv cfg := by
  have hok := h.ok r
  have hr1 : (s.pc r).held = c.takes := congrArg EvtPoint.held hr
  rw [hr] at hok
  have huse : c.uses = true → c.takes = none →
      Ensures ((c.exec cfg.served k r).map EvtOutcome.turn) fun x => (s.after r x).Inv cfg :=
        fun hc ht =>
    Ensures.map ((EvtCont.uses_pool hc hk.tmr r).imp fun x hx =>
      h.keep (hk.congr hx.1).switched (hr1.trans ht) hx.2.pool.1 hx.2.point)
  cases c with
  | none => exact .none
  | block id n => exact huse rfl rfl
  | wait n => exact huse rfl rfl
  | fill e ty sort ptr i n =>
    obtain ⟨c1, c2, c3, c4, c5⟩ := initEvent_cols k e ty sort ptr i n
    have hf := hk.fill ⟨r, hr1⟩ hok c1 c2 c3 c4 c5
    exact .some (h.give hr1 rfl hf.switched trivial)
  | take i size sort =>
    let k0 : Kernel := { k with
      qId := update k.qId i i
      qHead := update k.qHead i 0
      qTail := update k.qTail i 0
      qMaxSize := update k.qMaxSize i size
      qSize := update k.qSize i 0 }
    have h0 : EcbPool cfg k0 s.Held := (hk.queue k0.QueueIDVessel k0.qId).congr rfl
    exact Ensures.map (h.createFrom h0 hr1 (by decide) sort (.qcb i) 0 0)
  | release e q => exact .some (h.mark hk hr1 hok (hu e rfl) q)
  | clear q =>
    have hs : SameFree k (clearQueue k q) := ⟨rfl, rfl, rfl, fun _ _ => rfl, rfl⟩
    exact .some (h.keep (hk.same hs).switched hr1 rfl trivial)

theorem EvtSplit.Inv.resume (h : s.Inv cfg) (hk : EcbPool cfg k s.Held)
    (hu : ∀ e ∈ (s.pc r).writes k, k.eventType e ≠ .invalid) :
    Ensures ((s.pc r).exec cfg.served k r) fun x => (s.after r x).Inv cfg := by
  cases hc : s.pc r with
  | cont c =>
    rw [hc] at hu
    exact h.cont hk hc hu
  | tested c v =>
    rw [hc] at hu
    exact h.rest hk hc hu
  | marked e q =>
    have hr1 : (s.pc r).held = some e := congrArg EvtPoint.held hc
    refine Ensures.map ((hk.linked ⟨r, hr1⟩).imp fun k' hk' => ?_)
    split
    · exact h.give hr1 rfl hk'.1.switched trivial
    · exact h.give hr1 rfl hk'.1.switched trivial

theorem EvtSplit.Inv.tested (h : s.Inv cfg) (hk : EcbPool cfg k s.Held) (hr : s.pc r = .cont .none)
    {c : EvtCall} {v : Nat} (ht : c.tests cfg.served k = some v) :
    EvtSplit.Inv cfg ⟨k, update s.pc r (.tested c v)⟩ := by
  refine h.keep hk (congrArg EvtPoint.held hr) rfl ?_
  cases c with
  | del kd id opt =>
    rw [EvtCall.tests] at ht
    split at ht
    · exact nomatch ht
    · next hb => exact Nat.lt_of_not_le (not_or.mp (not_or.mp hb).2).1
  | _ => trivial

theorem defer_eventCounter (rs : List SQC) :
    ∀ k : Kernel, (k.defer cfg rs).eventCounter = k.eventCounter := by
  induction rs with
  | nil => exact fun _ => rfl
  | cons c rs ih =>
    intro k
    refine (ih _).trans ?_
    unfold insertInSRQ
    dsimp only
    split
    · rfl
    · rfl

theorem EvtPoint.writes_defer (rs : List SQC) (p : EvtPoint) :
    p.writes (k.defer cfg rs) = p.writes k := by
  unfold EvtPoint.writes
  rw [defer_eventCounter rs k]

theorem EvtSplit.Inv.step (h : s.Inv cfg) {s' : EvtSplit} {rs : List SQC} {a : EvtEdge}
    (ho : InUse s a)
    (hs : s.step cfg rs a = some s') : s'.Inv cfg := by
  obtain ⟨hx, -⟩ := Option.filter_eq_some_iff.mp hs
  have hd : SameFree s.k (s.k.defer cfg.served rs) := .pool (defer_pool _ rs s.k)
  have hk := h.pool.same hd
  have hsame : ∀ {k' : Kernel}, k'.pool = (s.k.defer cfg.served rs).pool →
      EvtSplit.Inv cfg { s with k := takeSwitch k' } := fun e =>
    ⟨(hk.congr e).switched, h.ok, h.once⟩
  unfold EvtSplit.exec at hx
  dsimp only at hx
  split at hx
  · obtain ⟨k', e1, rfl⟩ := Option.map_eq_some_iff.mp hx
    exact hsame (sysTick_pool cfg rfl hk.tmr k' e1)
  · obtain ⟨x, e1, rfl⟩ := Option.map_eq_some_iff.mp hx
    exact hsame (postEvent_pool cfg _ _ _ rfl hk.tmr x e1)
  · split at hx
    · exact nomatch hx
    · next hr =>
      have hr := not_not.mp (not_or.mp hr).2
      split at hx
      · next ht =>
        rw [← Option.some.inj hx]
        exact h.tested hk hr ht
      · next ht =>
        obtain ⟨x, e1, rfl⟩ := Option.map_eq_some_iff.mp hx
        exact h.call hk hr ht x e1
  · next r hr =>
    obtain ⟨x, e1, rfl⟩ := Option.map_eq_some_iff.mp hx
    refine h.resume hk (fun e he => ?_) x e1
    rw [hd.type]
    exact ho r hr e (EvtPoint.writes_defer rs (s.pc r) ▸ he)
  · exact nomatch hx

theorem EvtSplit.Reach.inv {s0 : EvtSplit} {i : Idle} {us : List Setup}
    (hb : splitBoot cfg i us = some s0)
    (h : EvtSplit.Reach cfg InUse s0 s) : s.Inv cfg := by
  induction h with
  | start =>
    obtain ⟨m, e1, rfl⟩ := Option.map_eq_some_iff.mp hb
    refine ⟨(boot_pool e1).iff fun e => ?_, fun _ => trivial, fun _ _ _ e => nomatch e⟩
    exact iff_of_false (fun ⟨_, ht⟩ => nomatch ht) not_false
  | step _ hok hs ih => exact ih.step hok hs

/-! ## The uses of events -/

def EvtPoint.uses : EvtPoint → Bool
  | .cont c => c.uses
  | .tested c _ => c.uses
  | .marked .. => false

/-- The next step belongs to an accept, a pend or a post, or is a tick. -/
def EvtEdge.Uses (s : EvtSplit) : EvtEdge → Prop
  | .call c => c.uses = true
  | .resume => ∀ r ∈ s.k.TCBRunning, (s.pc r).uses = true
  | .tick | .isr .. => True

/-- Such a step leaves the free blocks as they are. -/
theorem EvtEdge.uses_free {s' : EvtSplit} {rs : List SQC} {a : EvtEdge}
    (ht : s.k.tmr.TmrList = none)
    (ha : a.Uses s) (ho : InUse s a) (hs : s.step cfg rs a = some s') : SameFree s.k s'.k := by
  obtain ⟨hx, -⟩ := Option.filter_eq_some_iff.mp hs
  have hd : SameFree s.k (s.k.defer cfg.served rs) := .pool (defer_pool _ rs s.k)
  have htd : (s.k.defer cfg.served rs).tmr.TmrList = none := by
    rw [hd.tmr]
    exact ht
  have hsw : ∀ {k' : Kernel}, SameFree (s.k.defer cfg.served rs) k' →
    SameFree s.k (takeSwitch k') :=
    fun e => hd.trans (e.trans (takeSwitch_free _))
  unfold EvtSplit.exec at hx
  dsimp only at hx
  split at hx
  · obtain ⟨k', e1, rfl⟩ := Option.map_eq_some_iff.mp hx
    exact hsw (.pool (sysTick_pool cfg rfl htd k' e1))
  · obtain ⟨x, e1, rfl⟩ := Option.map_eq_some_iff.mp hx
    exact hsw (.pool (postEvent_pool cfg _ _ _ rfl htd x e1))
  · split at hx
    · exact nomatch hx
    · split at hx
      · rw [← Option.some.inj hx]
        exact hd
      · obtain ⟨x, e1, rfl⟩ := Option.map_eq_some_iff.mp hx
        exact hsw (.pool (EvtCall.uses_pool ha htd x e1).1)
  · next r hr =>
    obtain ⟨x, e1, rfl⟩ := Option.map_eq_some_iff.mp hx
    have hu := ha r hr
    have hw : ∀ e ∈ (s.pc r).writes (s.k.defer cfg.served rs),
        (s.k.defer cfg.served rs).eventType e ≠ .invalid := fun e he => by
      rw [hd.type]
      exact ho r hr e (EvtPoint.writes_defer rs (s.pc r) ▸ he)
    cases hc : s.pc r with
    | cont c =>
      rw [hc] at hu e1
      cases c with
      | block =>
        obtain ⟨y, e2, rfl⟩ := Option.map_eq_some_iff.mp e1
        exact hsw (.pool (EvtCont.uses_pool rfl htd r y e2).1)
      | wait n =>
        obtain ⟨y, e2, rfl⟩ : ∃ y,
          (EvtCont.wait n).exec cfg.served (s.k.defer cfg.served rs) r = some y ∧
            EvtOutcome.turn y = x := Option.map_eq_some_iff.mp e1
        exact hsw (.pool (EvtCont.uses_pool rfl htd r y e2).1)
      | _ => exact nomatch hu
    | tested c v =>
      rw [hc] at hu e1 hw
      exact hsw (EvtCall.rest_uses hu htd hw x e1).1
    | marked => rw [hc] at hu; exact nomatch hu
  · exact nomatch hx

end Steps

/-! ## The pool -/

/-- The pool of event blocks in the state `s`: the free list is acyclic and holds the blocks of
    type INVALID, but for those that a creation has taken and not yet filled in or a deletion has
    marked and not yet linked; every id is the index; a creation fails for lack of a block exactly
    when all these blocks are held, and what it takes, until it has returned the id, is no event;
    nothing that uses events changes a free block. -/
structure PoolOk (cfg : Env) (s : EvtSplit) : Prop where
  chain : ∃ l, IsSList s.k.FreeEventList s.k.nextECB l ∧
    ∀ e, e ∈ l ↔ e < cfg.maxEvent ∧ s.k.eventType e = .invalid ∧ ¬ s.Held e
  ids : ∀ e, e < cfg.maxEvent → s.k.ecbId e = e
  fails : ∀ k' pecb, takeECB cfg.served s.k = some (k', pecb) →
    (pecb = none ↔ ∀ e, e < cfg.maxEvent → s.k.eventType e = .invalid → s.Held e)
  fresh : ∀ k' e, takeECB cfg.served s.k = some (k', some e) →
    s.k.eventType e = .invalid ∧ ¬ s.Held e
  held : ∀ e, s.Held e → s.k.eventType e = .invalid ∧ s.k.ecbId e = e
  uses : ∀ rs a s', a.Uses s → InUse s a → s.step cfg rs a = some s' →
    ∀ e, s.k.eventType e = .invalid →
    s'.k.eventPtr e = s.k.eventPtr e ∧ s'.k.eventType e = s.k.eventType e

/-- A `CoPostMail` loses the CPU behind its tests, and the mailbox is deleted before it goes on: the
    mail overwrites the link of the first free block. -/
example : ((splitBoot shippedEnv shippedIdle [.plainTask 5, .plainTask 10]).bind fun s =>
    EvtSplit.runs shippedEnv (fun _ _ => True) s
    [.call (.createMbox 1), .resume, .call (.createSem 0 1 1),
      .resume, .call (.pend .sem 1 1), .resume, .resume, .call (.post .mbox 0 7), .tick, .resume,
      .call (.del .mbox 0 OPT_DEL_NO_PEND), .resume, .resume, .call (.pend .sem 1 0),
      .resume, .resume,
      .resume]).map (fun s => (s.k.FreeEventList, s.k.eventPtr 0)) = some (some 0, .mail 7) := by
  decide +kernel

end CoOS
