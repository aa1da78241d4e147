/-
  Runs with mutexes: `LockInv` holds after every lawful step, and a lawful step can always be taken.
-/
import CoOS.Mutex.Steps

namespace CoOS

open Function (update)

/-! ## The rest of the calls -/

section Forget

variable {cont : Nat → Cont} {ends : Option Nat} {ret : Option Ret} {u : Nat}

theorem forget_none : forget cont ends none = cont := by
  cases ends <;> rfl

theorem forget_other (h : ∀ t, ends = some t → u ≠ t) : forget cont ends ret u = cont u := by
  unfold forget
  split
  · exact Function.update_of_ne (h _ rfl) ..
  · rfl

end Forget

theorem Cont.Passed.kept {cfg : Env} {ty : Nat → EventType} {line : Nat → List Nat}
    {t : Nat} {c : Cont}
    (h : c.Passed cfg ty) : c.Kept cfg ty line t := by
  cases c with
  | enterMutex i => exact h.elim
  | _ => exact h

/-- Who has gone to the end of the line is in it. -/
theorem LocksOk.joins {cfg : Env} {L L' : Locks} {r i : Nat} {ret : Option Ret} (h : LocksOk cfg L)
    (hs : L.Acts cfg r (.inl (.enterMutex i)) ret L') (hret : ret = none) : r ∈ L'.line i := by
  generalize hop : (Sum.inl (Call.enterMutex i) : Call ⊕ Cont) = op at hs
  cases hs with
  | enter j hi hout =>
    obtain rfl := Call.enterMutex.inj (Sum.inl.inj hop)
    rw [h.line_entered, if_pos rfl]
    exact List.mem_append_right _ (List.mem_singleton_self r)
  | leave j ho hown => exact nomatch hop
  | resume j => exact nomatch hop
  | other hv _ _ hs =>
    have := hv i r
    rw [← hop, hret] at this
    exact nomatch (if_pos rfl : (if i = i then some (Line.Visit.enter r) else none) =
      _).symm.trans this

/-! ## One step -/

section Step

variable {cfg : Env} {m m' : Sys} {g g1 g' : Ghost} {r r' : Nat} {F F' : List Nat}

theorem LockInv.ringOk (h : LockInv cfg m g r F) : RingOk cfg.served m.k := by
  refine ⟨?_, h.head, ?_, h.time, h.timer⟩
  · rw [h.cnt]
    exact Nat.zero_le _
  · rw [h.req, h.cnt]
    rfl

/-- The running task waits for no mutex. -/
theorem LockInv.not_waiting (h : LockInv cfg m g r F) (i : Nat) : r ∉ g.tcb.lst (.mtx i) := by
  intro hm
  have h1 := (h.stable.coh.rep.tcb.mem (.mtx i) r).mp hm
  exact nomatch
    (h.stable.coh.loc_of_running h.stable.picked.live h.stable.picked.running).1.symm.trans h1

/-- The mutexes after the requests that a section has drained. -/
theorem Ended.locks {rs : List SQC} {s' : Kernel} {d d' : Data} {b : Bool} {q : SRQ}
    (he : Ended cfg rs s' g1 d g' r' F' d' b q) : s'.locks cfg.served g' =
      ⟨d.aside.lockPart, fun i => g1.tcb.lst (.mtx i), Live cfg.served g1⟩ := by
  obtain ⟨cs, -, hs⟩ := he.serves
  unfold Kernel.locks
  rw [he.calm.live_eq, he.calm.unmoved.waiters, he.data.aside]
  exact congrArg (Locks.mk · _ _) hs.lockPart

/-- What is left of the calls after a section of `r`. -/
theorem LockInv.conts {op : Call ⊕ Cont} {ends : Option Nat} {y : Cont × Option Ret} {L' : Locks}
    (h : LockInv cfg m g r F) (ha : (m.k.locks cfg.served g).Acts cfg.served r op y.2 L')
    (hwaits : ∀ i, y.1 = .enterMutex i ↔ op = .inl (.enterMutex i) ∧ y.2 = none)
    (hpass : y.1.Passed cfg m.k.eventType ∨ ∃ i, y.1 = .enterMutex i)
    (hout : ∀ t, ends = some t → ∀ i, t ∉ (m.k.locks cfg.served g).line i) (hr : r ≠ 0) :
    let cont := forget (update m.cont r y.1) ends y.2
    (∀ i, ∀ u ∈ (m.k.locks cfg.served g).line i, u ≠ r → cont u = m.cont u) ∧
      (∀ i, cont r = .enterMutex i ↔ op = .inl (.enterMutex i) ∧ y.2 = none) ∧
      (∀ t, (cont t).Kept cfg m.k.eventType L'.line t) ∧
      (∀ i, ∀ t ∈ L'.waiters i, cont t = .enterMutex i) ∧ cont 0 = .none := by
  intro cont
  have hother : ∀ i, ∀ u ∈ (m.k.locks cfg.served g).line i, u ≠ r → cont u = m.cont u := by
    intro i u hu hur
    exact (forget_other fun t ht e => hout t ht i (e ▸ hu)).trans (Function.update_of_ne hur ..)
  have hself : ∀ i, cont r = .enterMutex i ↔ op = .inl (.enterMutex i) ∧ y.2 = none := by
    intro i
    rcases forget_cases (update m.cont r y.1) ends y.2 r with e | e
    · rw [show cont r = y.1 from e.trans (Function.update_self ..)]
      exact hwaits i
    · rw [show cont r = .none from e]
      refine ⟨(fun e => nomatch e), fun hw => ?_⟩
      rw [hw.2, forget_none, Function.update_self, (hwaits i).mpr hw] at e
      exact nomatch e
  refine ⟨hother, hself, fun t => ?_, fun i t ht => ?_, ?_⟩
  · rcases forget_cases (update m.cont r y.1) ends y.2 t with e | e
    · rw [show cont t = update m.cont r y.1 t from e]
      by_cases htr : t = r
      · rw [htr, Function.update_self]
        rcases hpass with hp | ⟨i, hi⟩
        · exact hp.kept
        · obtain ⟨rfl, hret⟩ := (hwaits i).mp hi
          rw [hi]
          exact h.locks.joins ha hret
      · rw [Function.update_of_ne htr]
        have hk := h.cont t
        cases hc : m.cont t with
        | enterMutex i =>
          rw [hc] at hk
          exact h.locks.line_kept ha htr hk
        | _ =>
          rw [hc] at hk
          exact hk
    · rw [show cont t = .none from e]
      trivial
  · rcases ha.waits ht with hm | ⟨rfl, hw⟩
    · have hw := h.locks.waiter hm
      have hl : t ∈ (m.k.locks cfg.served g).line i := by
        rw [Locks.line_taken hw.1]
        exact List.mem_cons_of_mem _ hm
      rw [hother i t hl fun e => h.not_waiting i (e ▸ hm)]
      exact h.wait i t hm
    · exact (hself i).mpr hw
  · rcases forget_cases (update m.cont r y.1) ends y.2 0 with e | e
    · exact e.trans ((Function.update_of_ne (Ne.symm hr) ..).trans h.idle)
    · exact e

theorem Ended.lockInv {rs : List SQC} {b b0 : Bool} {q q0 : SRQ} {d d' : Data}
    (h : LockInv cfg m g r F)
    (he : Ended cfg rs m'.k g1 d g' r' F' d' b q) (hb : m'.k.IsrReq = false)
    (hfx : d.aside.fixed = { (m.k.aside.setRing b0 q0).fixed with mutexID := d.aside.mutexID })
    (hL : LocksOk cfg.served (m'.k.locks cfg.served g'))
    (hcont : ∀ t, (m'.cont t).Kept cfg m.k.eventType (m'.k.locks cfg.served g').line t)
    (hwait : ∀ i, ∀ t ∈ g'.tcb.lst (.mtx i), m'.cont t = .enterMutex i)
      (hidle : m'.cont 0 = .none) :
    LockInv cfg m' g' r' F' := by
  obtain ⟨cs, -, hs⟩ := he.serves
  have ha := he.data.aside
  have hb' : b = false := (congrArg Aside.IsrReq ha).symm.trans hb
  have hq : m'.k.ServiceReq = q := congrArg Aside.ServiceReq ha
  have hfx := hs.fixed.trans hfx
  have hty : m'.k.eventType = m.k.eventType :=
    (congrArg Aside.eventType ha).trans (congrArg Fixed.eventType hfx)
  have hso : m'.k.eventSortType = m.k.eventSortType :=
    (congrArg Aside.eventSortType ha).trans (congrArg Fixed.eventSortType hfx)
  obtain ⟨r1, r2⟩ := he.ring hb'
  refine ⟨h.ordered, he.stable, he.flags, hL, ?_, ?_, hb, ?_, ?_, ?_, ?_, hwait, hidle⟩
  · rw [hq]
    exact r1
  · rw [hq]
    exact r2
  · exact (congrArg Aside.TimeReq ha).trans ((congrArg Fixed.TimeReq hfx).trans h.time)
  · exact (congrArg Aside.TimerReq ha).trans ((congrArg Fixed.TimerReq hfx).trans h.timer)
  · rw [hty, hso]
    exact h.sort
  · rw [hty]
    exact hcont

/-- The end of a step of the task `r`. -/
theorem LockInv.after {act : Act} {op : Call ⊕ Cont} {ends : Option Nat} {res : Option Outcome}
    {b : Bool} {q : SRQ}
    (h : LockInv cfg m g r F) (hr : r ≠ 0) (hn : m.Next r act op)
    (hring : RingOk cfg.served { m.k with IsrReq := b, ServiceReq := q })
    (hends : Ends cfg.served { m.k with IsrReq := b, ServiceReq := q } r res
      (Passage cfg.served { m.k with IsrReq := b, ServiceReq := q } g r op))
    (hout : ∀ t, ends = some t → ∀ i, t ∉ (m.k.locks cfg.served g).line i) :
    ∃ m' g' r' F', res.map (m.after r op ends) = some m' ∧
      Locks.Steps cfg.served r m m' act (m.k.locks cfg.served g) (m'.k.locks cfg.served g') ∧
      (m'.k.IsrReq = false → LockInv cfg m' g' r' F') ∧ (b = false → m'.k.IsrReq = false) := by
  obtain ⟨s', y, d, g1, g', r', F', d', b', q', e1, hp, he, hb0⟩ :=
    hends.finish h.stable.lock hring fun y d g1 hp => ⟨hp.ring, hp.listed⟩
  have hlocks : (takeSwitch s').locks cfg.served g' = _ := he.locks
  have hacts : (m.k.locks cfg.served g).Acts cfg.served r op y.2
    ((takeSwitch s').locks cfg.served g') := by
    rw [hlocks]
    exact hp.acts
  obtain ⟨h1, h2, h3, h4, h5⟩ := h.conts hacts hp.waits hp.passed hout hr
  refine ⟨m.after r op ends (s', y), g', r', F', ?_, .run hr hn hacts rfl h1 h2, fun hb => ?_,
    fun hb => (congrArg Aside.IsrReq he.data.aside).trans (hb0 hb)⟩
  · rw [e1]
    rfl
  · exact @Ended.lockInv cfg m (m.after r op ends (s', y)) g g1 g' r r' F F' _ b' b q' q d d' h
      he hb hp.fixed
      (h.locks.acts hacts h.stable.picked.live hr) h3 h4 h5

/-- The first section of a call. -/
theorem LockInv.call (h : LockInv cfg m g r F) (hr : r ≠ 0) {k : Kernel} {rs : List SQC} {c : Call}
    (hk : ∃ b q, k = { m.k with IsrReq := b, ServiceReq := q }) (hl : c.Lawful cfg m.k rs r)
    (hi : rs = [] → k.IsrReq = false) (hw : ¬ c.Wild m.k) :
    Ends cfg.served k r (c.exec cfg.served k) (Passage cfg.served k g r (.inl c)) := by
  obtain ⟨b, q, rfl⟩ := hk
  have hst :=
    @Stable.congr cfg.served m.k g r { m.k with IsrReq := b, ServiceReq := q } h.stable rfl rfl rfl
  have hfl := h.flags.setRing b q
  have hlaw : c.Lawful cfg.served { m.k with IsrReq := b, ServiceReq := q } rs r := hl
  cases c with
  | enterMutex i => exact Call.enter_passage hst h.ordered hr hfl h.locks hl.2 i
  | leaveMutex i => exact Call.leave_passage hst h.ordered hr hfl h.locks i hl.2
  | _ => exact Call.exec_passage hst hr hfl h.locks rfl hlaw hi hw

/-- The next section of a call. -/
theorem LockInv.resume (h : LockInv cfg m g r F) (hr : r ≠ 0) {k : Kernel} (hne : m.cont r ≠ .none)
    (hk : ∃ b q, k = { m.k with IsrReq := b, ServiceReq := q }) :
    Ends cfg.served k r ((m.cont r).exec cfg.served k r)
      (Passage cfg.served k g r (.inr (m.cont r))) := by
  obtain ⟨b, q, rfl⟩ := hk
  have hst :=
    @Stable.congr cfg.served m.k g r { m.k with IsrReq := b, ServiceReq := q } h.stable rfl rfl rfl
  have hfl := h.flags.setRing b q
  have hkept := h.cont r
  cases hc : m.cont r with
  | none => exact absurd hc hne
  | block kd id n =>
    rw [hc] at hkept
    refine Cont.exec_passage hst hr hfl (fun e => nomatch e) ⟨hkept.1, h.sort id ?_,
      hkept.2.2.2⟩ hkept
    rw [hkept.2.1]
    exact hkept.2.2.1
  | enterMutex i => exact Cont.resume_passage hst hfl i
  | _ =>
    rw [hc] at hkept
    exact Cont.exec_passage hst hr hfl (fun e => nomatch e) trivial hkept

/-- **One step**, which is always possible. -/
theorem LockInv.exec (h : LockInv cfg m g r F) {rs : List SQC} {act : Act}
    (hl : Lawful cfg m rs act)
    (hen : Enabled m r act) : ∃ m' g' r' F', m.exec cfg.served rs act = some m' ∧
      Locks.Steps cfg.served r m m' act (m.k.locks cfg.served g) (m'.k.locks cfg.served g') ∧
      (m'.k.IsrReq = false → LockInv cfg m' g' r' F') ∧ (rs = [] → m'.k.IsrReq = false) := by
  obtain ⟨b, q, hk, hring, hnil, -⟩ := @defer_spec cfg.served rs m.k h.ringOk
  rw [hk] at hring
  have hb : rs = [] → b = false := fun e => (hnil e).trans h.req
  cases act with
  | call c =>
    obtain ⟨hr, h0, hw⟩ := hen
    have hlaw : c.Lawful cfg m.k rs r := hl r h.stable.running
    have hout : ∀ t, c.ends r = some t → ∀ i, t ∉ (m.k.locks cfg.served g).line i := by
      intro t ht
      refine h.locks.outside ?_
      have hapt := hlaw.2
      cases c with
      | delTask u =>
        obtain rfl := Option.some.inj ht
        exact hapt
      | exitTask =>
        obtain rfl := Option.some.inj ht
        exact hapt
      | _ => exact nomatch ht
    obtain ⟨m', g', r', F', e1, e2, e3, e4⟩ :=
      @LockInv.after cfg m g r F (.call c) (.inl c) (c.ends r) _ b q h hr ⟨rfl, h0⟩ hring
      (h.call hr ⟨b, q, rfl⟩ hlaw hb hw) hout
    refine ⟨m', g', r', F', ?_, e2, e3, fun e => e4 (hb e)⟩
    unfold Sys.exec
    rw [h.stable.running, hk]
    exact (if_neg (not_or.mpr ⟨hr, fun e => e h0⟩)).trans e1
  | resume =>
    have hr : r ≠ 0 := by
      rintro rfl
      exact hen h.idle
    obtain ⟨m', g', r', F', e1, e2, e3, e4⟩ :=
      @LockInv.after cfg m g r F .resume (.inr (m.cont r)) none _ b q h hr
      ⟨rfl, rfl, hen⟩ hring (h.resume hr hen ⟨b, q, rfl⟩) (fun t ht => nomatch ht)
    refine ⟨m', g', r', F', ?_, e2, e3, fun e => e4 (hb e)⟩
    unfold Sys.exec
    rw [h.stable.running, hk]
    exact (if_neg hen).trans e1
  | tick =>
    let k : Kernel := { m.k with IsrReq := b, ServiceReq := q }
    have hst : Stable cfg.served k g r := h.stable.congr rfl rfl rfl
    have hfl : FlagOk cfg.served k g F := h.flags.setRing b q
    have hli : Listed (k.data g) (Live cfg.served g) F :=
      ⟨hfl.data, fun t ht => (h.flags.wait t ht).1⟩
    obtain ⟨s1, g1, e1, e2, -⟩ := @sysTick_section cfg.served k g r hst
    let T := due g.dly
    have hends : Ends cfg.served k r ((sysTick_Handler cfg.served k).map fun s => (s, ()))
        fun _ d g1 => d = (k.data g).expire T ∧ Calm g g1 :=
      Or.inr ⟨s1, g1, (), _, by rw [e1], ⟨e2.pend, e2.lock, Calm.refl _, e2.data⟩, rfl, e2.calm⟩
    have hfx : ((k.data g).expire T).aside.fixed = k.aside.fixed :=
      congrArg EvtPart.fixed (expire_evtPart (k.data g) T)
    obtain ⟨s', y, d, g2, g', r', F', d', b', q', f1, ⟨rfl, hc⟩, he, hb0⟩ :=
      hends.finish hst.lock hring fun y d g1 hy => by
        obtain ⟨rfl, hc⟩ := hy
        refine ⟨congrArg Fixed.ring hfx, F.filter (· ∉ T), ?_, fun t ht m e => ?_⟩
        · rw [hc.live_eq]
          exact ⟨(hli.expire T).flag, fun t ht => ((hli.expire T).alive t ht).2⟩
        · exact (hfl.wait t (List.mem_of_mem_filter ht)).2.2.2 m ((hc.mtx t m).mp e)
    have hres : sysTick_Handler cfg.served k = some s' := by
      cases hs : sysTick_Handler cfg.served k with
      | none =>
        rw [hs] at f1
        exact nomatch f1
      | some z =>
        rw [hs] at f1
        exact congrArg some (congrArg Prod.fst (Option.some.inj f1))
    have hlocks : (takeSwitch s').locks cfg.served g' = m.k.locks cfg.served g := by
      rw [he.locks, hc.live_eq, hc.unmoved.waiters]
      exact congrArg (Locks.mk · _ _) (dropFlags_lockPart ..)
    refine ⟨{ m with k := takeSwitch s' }, g', r', F', ?_, .tick rfl rfl rfl hlocks, fun hb => ?_,
      fun e => (congrArg Aside.IsrReq he.data.aside).trans (hb0 (hb e))⟩
    · unfold Sys.exec
      rw [hk]
      exact congrArg (Option.map _) hres
    · refine @Ended.lockInv cfg m
        { m with k := takeSwitch s' } g g2 g' r r' F F' _ b' b q' q _ d' h he hb ?_ ?_
        (fun t => ?_) (fun i t ht => h.wait i t ?_) h.idle
      · rw [show ((k.data g).expire T).aside.mutexID = m.k.mutexID from congrArg Fixed.mutexID hfx]
        exact hfx
      · rw [hlocks]
        exact h.locks
      · rw [hlocks]
        exact h.cont t
      · have e : g'.tcb.lst (.mtx i) = g.tcb.lst (.mtx i) :=
          congrArg (fun L : Locks => L.waiters i) hlocks
        rwa [e] at ht

theorem LockInv.step (h : LockInv cfg m g r F) {rs : List SQC} {act : Act}
    (hl : Lawful cfg m rs act)
    (hs : m.step cfg rs act = some m') : ∃ g' r' F', LockInv cfg m' g' r' F' ∧
      Locks.Steps cfg.served r m m' act (m.k.locks cfg.served g) (m'.k.locks cfg.served g') := by
  unfold Sys.step at hs
  obtain ⟨he, hreq⟩ := Option.filter_eq_some_iff.mp hs
  have hb : m'.k.IsrReq = false := by
    rw [Bool.not_eq_true'] at hreq
    exact hreq
  obtain ⟨m1, g', r', F', e1, e2, e3, -⟩ :=
    h.exec hl (enabled_of_exec h.stable.running (fun t ht hw => by
    subst ht
    obtain ⟨h1, h2⟩ := hl r h.stable.running
    have ht := h1.resolve_left nofun
    exact defer_wild h.ringOk rs ht.1 h2 hw) he)
  rw [he] at e1
  obtain rfl := Option.some.inj e1
  exact ⟨g', r', F', e3 hb, e2⟩

/-- A step during which no interrupt defers a request can be taken. -/
theorem LockInv.progress (h : LockInv cfg m g r F) {act : Act} (hl : Lawful cfg m [] act)
    (hen : Enabled m r act) : ∃ m', m.step cfg [] act = some m' := by
  obtain ⟨m', g', r', F', e1, -, -, e4⟩ := h.exec hl hen
  refine ⟨m', Option.filter_eq_some_iff.mpr ⟨e1, ?_⟩⟩
  rw [e4 rfl]
  rfl

end Step

end CoOS
