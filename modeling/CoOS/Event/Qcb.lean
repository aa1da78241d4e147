/-
  The queue control blocks, in every run that creates, uses and deletes events.

  A creation that finds no event block gives nothing back: its queue block is held by nobody from
  then on. Without one no block leaks (`qcb_not_leaked`).
-/
import CoOS.Event.QcbHeld

namespace CoOS

open Function (update)

/-! ## The sections of the calls -/

/-- The options that `DeleteEvent` knows. -/
def ValidOpt (opt : Nat) : Prop := opt = OPT_DEL_NO_PEND ∨ opt = OPT_DEL_ANYWAY

section Sections

variable {cfg : Env} {k : Kernel} {rest : Nat → EvtCont} {r : Nat}

theorem createFrom_qcbs (ht : k.tmr.TmrList = none) (ty : EventType) (sort : Nat) (ptr : EventPtr)
    (initCnt maxCnt : Nat) : Ensures (createFrom cfg.served k ty sort ptr initCnt maxCnt) fun x =>
      x.1.qcbs = k.qcbs ∧ ((k.FreeEventList = none ∧ x.2.1 = .none) ∨
        ∃ e, k.FreeEventList = some e ∧ x.2.1 = .fill e ty sort ptr initCnt maxCnt) := by
  refine Ensures.map ((takeECB_qcbs ht).imp fun x hx => ?_)
  obtain ⟨h1, h2⟩ := hx
  cases hf : x.2 with
  | none =>
    rw [hf] at h2
    exact ⟨h1, Or.inl ⟨h2.symm, rfl⟩⟩
  | some e =>
    rw [hf] at h2
    exact ⟨h1, Or.inr ⟨e, h2.symm, rfl⟩⟩

/-- A semaphore or a mailbox is created. -/
theorem QcbInv.createFrom (h : QcbInv k.qcbs rest) (ht : k.tmr.TmrList = none)
    (hr : (rest r).qcb = none)
    {ty : EventType} (hty : ty ≠ .queue) (sort : Nat) (ptr : EventPtr) (initCnt maxCnt : Nat) :
    Ensures (createFrom cfg.served k ty sort ptr initCnt maxCnt) fun x =>
      QcbInv x.1.qcbs (update rest r x.2.1) := by
  refine (createFrom_qcbs ht ty sort ptr initCnt maxCnt).imp fun x hx => ?_
  obtain ⟨h1, ⟨-, h2⟩ | ⟨e, -, h2⟩⟩ := hx
  · rw [h1, h2]
    exact h.keep hr.symm trivial fun _ e => nomatch e
  · rw [h1, h2]
    have hq : (EvtCont.fill e ty sort ptr initCnt maxCnt).qcb = none := by
      cases ty with
      | queue => exact absurd rfl hty
      | _ => rfl
    exact h.keep (hq.trans hr.symm) (fun e => absurd e hty) fun i hi =>
      absurd hi (EvtCont.not_named hq i)

theorem QcbView.At.unique {v : QcbView} {e i j : Nat} (hi : v.At e i) : v.At e j ↔ i = j := by
  constructor
  · exact fun hj => EventPtr.qcb.inj (hi.2.symm.trans hj.2)
  · rintro rfl
    exact hi

theorem QcbView.setAt_not_at (v : QcbView) {e i : Nat} {ty : EventType} (hty : ty ≠ .queue)
    (p : EventPtr) : ¬ (v.setAt e ty p).At e i := fun h => by
  have h1 : update v.eventType e ty e = .queue := h.1
  rw [Function.update_self] at h1
  exact hty h1

/-- The end of a creation. -/
theorem QcbInv.fill {v : QcbView} (h : QcbInv v rest) {e : Nat} {ty : EventType}
    {sort initCnt maxCnt : Nat} {ptr : EventPtr} (hr : rest r = .fill e ty sort ptr initCnt maxCnt)
    (he : v.eventType e = .invalid) (hrel : ∀ t, t ≠ r → (rest t).releases ≠ some e) :
    QcbInv (v.setAt e ty (if ty = .mbox then .null else ptr)) (update rest r EvtCont.none) := by
  have hno : ∀ i, ¬ v.At e i := fun i hi => by
    have h1 : v.eventType e = .queue := hi.1
    rw [he] at h1
    cases h1
  by_cases hty : ty = .queue
  · subst hty
    obtain ⟨j, rfl⟩ : ∃ j, ptr = .qcb j := by
      have := h.cont r
      rw [hr] at this
      exact this rfl
    have hat : (v.setAt e .queue (.qcb j)).At e j :=
      ⟨Function.update_self .., Function.update_self ..⟩
    refine h.exchange (fun i => iff_of_false (fun e => nomatch e) (hno i)) (fun i => ?_) hrel
      (fun _ => ⟨j, rfl⟩) (fun i hi => ?_) trivial
    · rw [hr]
      exact hat.unique.trans ⟨fun e => congrArg some e, Option.some.inj⟩
    · refine h.taskId r i ?_
      rw [hr] at hi ⊢
      exact hi
  · have hq : (rest r).qcb = Option.none := by
      rw [hr]
      cases ty with
      | queue => exact absurd rfl hty
      | _ => rfl
    have hnq : ∀ i, ¬ (rest r).qcb = some i := fun i hi => by
      rw [hq] at hi
      cases hi
    exact h.exchange (fun i => iff_of_false (fun e => nomatch e) (hno i))
      (fun i => iff_of_false (v.setAt_not_at hty _) (hnq i)) hrel (fun e => absurd e hty)
      (fun i hi => absurd hi (hnq i)) trivial

/-- Accepts, pends and posts. -/
theorem QcbInv.light (h : QcbInv k.qcbs rest) {k' : Kernel} (e : k'.qcbs = k.qcbs)
    (hr : (rest r).qcb = none) {c : EvtCont} (hc : c.Light) : QcbInv k'.qcbs (update rest r c) := by
  have hq : c.qcb = none ∧ c.QcbOk k.qcbs := by
    rcases hc with rfl | hc
    · exact ⟨rfl, trivial⟩
    · cases c with
      | block => exact ⟨rfl, trivial⟩
      | wait => exact ⟨rfl, trivial⟩
      | _ => exact nomatch hc
  rw [e]
  exact h.keep (hq.1.trans hr.symm) hq.2 fun i hi => absurd hi (EvtCont.not_named hq.1 i)

/-- What the release of the event `e` leaves to do, when `q` is the queue block it has. -/
def afterRelease : Option Nat → EvtCont
  | Option.none => .none
  | some q => .clear q

/-- An event is released. -/
theorem QcbInv.release (h : QcbInv k.qcbs rest) (ht : k.tmr.TmrList = none) {e : Nat}
    {q : Option Nat}
    (hr : (rest r).qcb = none) (hq : (EvtCont.release e q).QcbOk k.qcbs)
    (hrel : ∀ t, t ≠ r → (rest t).releases ≠ some e) :
    Ensures (releaseECB cfg.served k e) fun k' =>
    QcbInv k'.qcbs (update rest r (afterRelease q)) := by
  refine (releaseECB_qcbs ht e).imp fun k' hk => ?_
  obtain ⟨p, hp⟩ := hk
  rw [hp]
  have hnq : ∀ i, ¬ (rest r).qcb = some i := fun i hi => by
    rw [hr] at hi
    cases hi
  have hy : ∀ i, (k.qcbs.setAt e .invalid p).At e i ↔ (rest r).qcb = some i := fun i =>
    iff_of_false (k.qcbs.setAt_not_at (by decide) _) (hnq i)
  cases q with
  | none =>
    refine h.exchange (fun i => ?_) hy hrel (fun e => nomatch e)
      (fun i hi => absurd hi (hnq i)) trivial
    exact iff_of_false (fun e => nomatch e) fun hi => hq hi.1
  | some q =>
    refine h.exchange (fun i => ?_) hy hrel (fun e => nomatch e)
      (fun i hi => absurd hi (hnq i)) trivial
    exact Iff.trans ⟨Option.some.inj, fun e => congrArg some e⟩ (QcbView.At.unique hq).symm

/-- The deletions with a valid option: they fail, or release the event at once, or have released its
    tasks. -/
theorem delEvent_qcbs (ht : k.tmr.TmrList = none) (kd : EventType) {id opt : Nat}
    (ho : ValidOpt opt)
    {P : Kernel × Option StatusType → Prop}
    (hfail : ∀ k' st, st ≠ .E_OK → k'.qcbs = k.qcbs → P (k', some st))
    (htasks : ∀ k', opt ≠ OPT_DEL_NO_PEND → k.eventType id = kd → k'.qcbs = k.qcbs → P (k', none))
    (hrel : opt = OPT_DEL_NO_PEND → k.eventType id = kd →
      Ensures (releaseECB cfg.served k id) fun k' => P (k', some .E_OK)) :
    Ensures (delEvent cfg.served k kd id opt) P := by
  have hkind : ∀ kd : EventType,
    (∀ k', opt ≠ OPT_DEL_NO_PEND → k.eventType id = kd → k'.qcbs = k.qcbs →
      P (k', none)) → (opt = OPT_DEL_NO_PEND → k.eventType id = kd →
      Ensures (releaseECB cfg.served k id) fun k' => P (k', some .E_OK)) →
      Ensures (delKind cfg.served k kd id opt) P := by
    intro kd htasks hrel
    unfold delKind deleteEvent
    refine .ite (fun _ => .some (hfail k _ (by decide) rfl)) fun hk => ?_
    have hty := not_bad_kind hk
    refine .ite (fun ho => ?_) fun hno => .ite (fun _ => ?_) fun hno' =>
      absurd ho (not_or.mpr ⟨hno, hno'⟩)
    · refine .ite (fun _ => .some (hfail k _ (by decide) rfl)) fun _ => ?_
      exact Ensures.bind (hrel ho hty) fun s1 h1 => .some h1
    · refine Ensures.bind (releaseTasks_pool id _ (s := osSchedLock k) rfl) fun s1 h1 => ?_
      refine Ensures.bind (osSchedUnlock_pool cfg h1 ht) fun s2 h2 => .some ?_
      exact htasks s2 hno hty (qcbs_of_pool h2)
  cases kd with
  | sem => exact hkind .sem htasks hrel
  | mbox => exact hkind .mbox htasks hrel
  | queue => exact hkind .queue htasks hrel
  | invalid => exact .none

theorem QcbInv.del (h : QcbInv k.qcbs rest) (ht : k.tmr.TmrList = none) (hr : rest r = .none)
    {kd : EventType} {id opt : Nat} (ho : ValidOpt opt) (hrel : ∀ t, (rest t).releases ≠ some id) :
    Ensures ((EvtCall.del kd id opt).exec cfg.served k) fun x =>
      QcbInv x.1.qcbs (update rest r x.2.1) := by
  have hqr : (rest r).qcb = none := by rw [hr]; rfl
  have hkeep : ∀ {k' : Kernel} {c : EvtCont}, k'.qcbs = k.qcbs → c.qcb = none → c.QcbOk k.qcbs →
      QcbInv k'.qcbs (update rest r c) := fun {k' c} e hc hok => by
    rw [e]
    exact h.keep (hc.trans hqr.symm) hok fun i hi => absurd hi (EvtCont.not_named hc i)
  have hq : k.eventType id = kd →
      (EvtCont.release id (if kd = .queue then some (qcbOf k id) else none)).QcbOk k.qcbs := by
    intro hty
    split
    · next hkd =>
      obtain ⟨i, hi⟩ := h.ptr id (hty.trans hkd)
      have : qcbOf k id = i := by
        unfold qcbOf
        rw [(queueAt_iff.mp hi).2]
      rwa [this]
    · next hkd => exact fun e => hkd (hty.symm.trans e)
  unfold EvtCall.exec
  dsimp only
  generalize (if kd = .queue then some (qcbOf k id) else none) = q at hq
  refine Ensures.map (delEvent_qcbs ht kd ho (fun k' st hst e => ?_) (fun k' _ hty e => ?_)
    fun hop hty => ?_)
  · cases st with
    | E_OK => exact absurd rfl hst
    | _ => cases q <;> exact hkeep e rfl trivial
  · exact hkeep e rfl (hq hty)
  · refine (h.release ht hqr (hq hty) fun t _ => hrel t).imp fun k' hk => ?_
    cases q with
    | none => exact hk
    | some q =>
      dsimp only
      rw [if_pos hop]
      exact hk

/-- The next step of a run keeps the queue blocks: a deletion has a valid option, and no task is in
    the middle of deleting the same event; a `CoCreateQueue` that has a queue block finds an event
    block. -/
def QcbKept (m : EvtSys) : EvtAct → Prop
  | .call (.del _ id opt) => ValidOpt opt ∧ ∀ t, (m.rest t).releases ≠ some id
  | .resume => ∀ r i size sort, m.k.TCBRunning = some r → m.rest r = .take i size sort →
      m.k.FreeEventList ≠ none
  | _ => True

theorem QcbInv.call (h : QcbInv k.qcbs rest) (ht : k.tmr.TmrList = none) (hr : rest r = .none)
    {c : EvtCall} {m : EvtSys} (hm : m.rest = rest) (ho : QcbKept m (.call c)) :
    Ensures (c.exec cfg.served k) fun x => QcbInv x.1.qcbs (update rest r x.2.1) := by
  subst hm
  have hqr : (m.rest r).qcb = none := by rw [hr]; rfl
  have hkeep : ∀ {k' : Kernel}, k'.qcbs = k.qcbs → QcbInv k'.qcbs (update m.rest r .none) :=
    fun e => by
    rw [e]
    exact h.keep hqr.symm trivial fun _ e => nomatch e
  cases c with
  | createSem initCnt maxCnt sort =>
    refine .ite (fun _ => .some (hkeep rfl)) fun _ => ?_
    exact h.createFrom ht hqr (by decide) sort .null initCnt maxCnt
  | createMbox sort => exact h.createFrom ht hqr (by decide) sort .null 0 0
  | createQueue qStart size sort =>
    refine .ite (fun _ => .some (hkeep rfl)) fun _ => ?_
    split
    · exact Ensures.map ((osSchedUnlock_pool cfg (s := osSchedLock k) rfl ht).imp fun s1 e1 =>
        hkeep (qcbs_of_pool e1))
    · next i hi =>
      let k0 : Kernel := { osSchedLock k with QueueIDVessel := update k.QueueIDVessel i true }
      refine Ensures.map ((osSchedUnlock_pool cfg (s := k0) rfl ht).imp fun s1 e1 => ?_)
      have e2 : s1.qcbs = k0.qcbs := qcbs_of_pool e1
      rw [show (s1, EvtCont.take i size sort, (none : Option Ret)).1 = s1 from rfl, e2]
      exact h.take (@freeQueue_free (osSchedLock k) i _ _ hi) hqr
  | del kd id opt => exact h.del ht hr ho.1 ho.2
  | accept kd id =>
    exact (EvtCall.uses_pool rfl ht).imp fun x hx => h.light (qcbs_of_pool hx.1) hqr hx.2
  | pend kd id n =>
    exact (EvtCall.uses_pool rfl ht).imp fun x hx => h.light (qcbs_of_pool hx.1) hqr hx.2
  | post kd id mail =>
    exact (EvtCall.uses_pool rfl ht).imp fun x hx => h.light (qcbs_of_pool hx.1) hqr hx.2

theorem QcbInv.resume {m : EvtSys} (h : QcbInv m.k.qcbs m.rest) (hi : EvtInv cfg m)
    (hk : k.pool = m.k.pool)
    (hrun : m.k.TCBRunning = some r) (ho : QcbKept m .resume) :
    Ensures ((m.rest r).exec cfg.served k r) fun x => QcbInv x.1.qcbs (update m.rest r x.2.1) := by
  have ht : k.tmr.TmrList = none := (hi.pool.congr hk).tmr
  have htype : k.eventType = m.k.eventType := congrArg EcbView.eventType hk
  rw [← qcbs_of_pool hk] at h
  cases hc : m.rest r with
  | none => exact .none
  | block id n =>
    exact (EvtCont.uses_pool rfl ht r).imp fun x hx =>
      h.light (qcbs_of_pool hx.1) (by rw [hc]; rfl) hx.2
  | wait n =>
    exact (EvtCont.uses_pool rfl ht r).imp fun x hx =>
      h.light (qcbs_of_pool hx.1) (by rw [hc]; rfl) hx.2
  | fill e ty sort ptr i n =>
    have he : m.k.eventType e = .invalid := (hi.pool.taken e ⟨r, by rw [hc]; rfl⟩).2
    refine .some ?_
    change QcbInv (initEvent k e ty sort ptr i n).qcbs _
    rw [initEvent_qcbs, fillECB_qcbs]
    refine h.fill hc ?_ fun t _ ht => (hi.live t e ht).2 he
    exact (congrFun htype e).trans he
  | take i size sort =>
    have hf : k.FreeEventList ≠ none := by
      rw [show k.FreeEventList = m.k.FreeEventList from congrArg EcbView.FreeEventList hk]
      exact ho r i size sort hrun hc
    let k0 : Kernel := { k with
      qId := update k.qId i i
      qHead := update k.qHead i 0
      qTail := update k.qTail i 0
      qMaxSize := update k.qMaxSize i size
      qSize := update k.qSize i 0 }
    refine (createFrom_qcbs (k := k0) ht .queue sort (.qcb i) 0 0).imp fun x hx => ?_
    obtain ⟨h1, ⟨hn, -⟩ | ⟨e, -, h2⟩⟩ := hx
    · exact absurd hn hf
    · rw [h1, h2]
      exact h.number hc
  | release e q =>
    have hr : (m.rest r).releases = some e := by rw [hc]; rfl
    have hq := h.cont r
    rw [hc] at hq
    refine Ensures.map ((h.release ht (by rw [hc]; rfl) hq fun t htr ht => ?_).imp fun k' hk' => ?_)
    · exact htr (hi.alone t r e ht hr)
    · cases q with
      | none => exact hk'
      | some q => exact hk'
  | clear q => exact .some (h.clear hc)

theorem QcbInv.step {m m' : EvtSys} (h : QcbInv m.k.qcbs m.rest) (hi : EvtInv cfg m) {rs : List SQC}
    {a : EvtAct} (ho : QcbKept m a) (hs : m.step cfg rs a = some m') :
    QcbInv m'.k.qcbs m'.rest := by
  obtain ⟨hx, -⟩ := Option.filter_eq_some_iff.mp hs
  have hk : (m.k.defer cfg.served rs).pool = m.k.pool := defer_pool _ rs m.k
  have hd : QcbInv (m.k.defer cfg.served rs).qcbs m.rest := by rwa [qcbs_of_pool hk]
  have ht : (m.k.defer cfg.served rs).tmr.TmrList = none := (hi.pool.congr hk).tmr
  have hafter : ∀ {r} {x : EvtOutcome}, QcbInv x.1.qcbs (update m.rest r x.2.1) →
      QcbInv (m.after r x).k.qcbs (m.after r x).rest := fun {r x} hx => by
    change QcbInv (takeSwitch x.1).qcbs _
    rwa [qcbs_of_pool (takeSwitch_pool x.1)]
  unfold EvtSys.exec at hx
  dsimp only at hx
  split at hx
  · obtain ⟨k', e1, rfl⟩ := Option.map_eq_some_iff.mp hx
    change QcbInv (takeSwitch k').qcbs _
    rwa [qcbs_of_pool (takeSwitch_pool k'), qcbs_of_pool (sysTick_pool cfg rfl ht k' e1)]
  · split at hx
    · exact nomatch hx
    · next hr =>
      obtain ⟨x, e1, rfl⟩ := Option.map_eq_some_iff.mp hx
      exact hafter (hd.call ht (not_not.mp (not_or.mp hr).2) rfl ho x e1)
  · next r hrun =>
    obtain ⟨x, e1, rfl⟩ := Option.map_eq_some_iff.mp hx
    exact hafter (h.resume hi hk hrun ho x e1)
  · exact nomatch hx

end Sections

/-! ## Before the system starts -/

/-- `CoCreateQueue` takes a queue block and finds no event block. -/
def Leaks (cfg : Env) (s : Kernel) (qStart size : Nat) : Prop :=
  qStart ≠ 0 ∧ size ≠ 0 ∧ freeQueue s cfg.maxQueue 0 ≠ none ∧ s.FreeEventList = none

def Setup.QcbKept (cfg : Env) (s : Kernel) : Setup → Prop
  | .queue qStart size _ => ¬ Leaks cfg s qStart size
  | _ => True

def SetUpKept (cfg : Env) : Kernel → List Setup → Prop
  | _, [] => True
  | s, u :: us => u.QcbKept cfg s ∧ ∀ s', u.exec cfg.served s = some s' → SetUpKept cfg s' us

/-- No creation before `CoStartOS` loses a queue block. -/
def BootKept (cfg : Env) (i : Idle) (us : List Setup) : Prop :=
  ∀ k, coInitOS cfg.served Kernel.zero i.task i.stk i.stkSz = some k → SetUpKept cfg k us

/-- No task is in the middle of a call. -/
def noCall (_ : Nat) : EvtCont := .none

section Boot

variable {cfg : Env} {s : Kernel}

theorem creatEvent_qcbs (ht : s.tmr.TmrList = none) (ty : EventType) (sort : Nat) (ptr : EventPtr) :
    Ensures (creatEvent cfg.served s ty sort ptr) fun x =>
      (s.FreeEventList = none ∧ x.2 = none ∧ x.1.qcbs = s.qcbs) ∨
      ∃ e, s.FreeEventList = some e ∧ x.2 = some e ∧
        x.1.qcbs = s.qcbs.setAt e ty (if ty = .mbox then .null else ptr) := by
  rw [creatEvent_eq]
  refine Ensures.map ((takeECB_qcbs ht).imp fun x hx => ?_)
  obtain ⟨h1, h2⟩ := hx
  cases hf : x.2 with
  | none => exact Or.inl ⟨h2.symm.trans hf, rfl, h1⟩
  | some e => exact Or.inr ⟨e, h2.symm.trans hf, rfl, by rw [fillECB_qcbs, h1]⟩

/-- The first block of the free list has the type INVALID. -/
theorem EcbPool.first_invalid (hp : EcbPool cfg s noneTaken) {e : Nat}
    (he : s.FreeEventList = some e) :
    e < cfg.maxEvent ∧ s.eventType e = .invalid := by
  obtain ⟨l, h1, h2⟩ := hp.chain
  have hel : e ∈ l := List.mem_of_mem_head? (h1.head.symm.trans he)
  exact ⟨((h2 e).mp hel).1, ((h2 e).mp hel).2.1⟩

/-- A semaphore or a mailbox is created. -/
theorem QcbInv.created (h : QcbInv s.qcbs noCall) (hp : EcbPool cfg s noneTaken) {ty : EventType}
    (hty : ty ≠ .queue) (sort : Nat) (ptr : EventPtr) :
    Ensures (creatEvent cfg.served s ty sort ptr) fun x => QcbInv x.1.qcbs noCall := by
  refine (creatEvent_qcbs hp.tmr ty sort ptr).imp fun x hx => ?_
  rcases hx with ⟨-, -, e⟩ | ⟨e, hf, -, hx⟩
  · rwa [e]
  · rw [hx, show noCall = update noCall 0 EvtCont.none from (Function.update_eq_self 0 noCall).symm]
    refine h.exchange (fun i => iff_of_false (fun e => nomatch e) fun hi => ?_)
      (fun i => iff_of_false (s.qcbs.setAt_not_at hty _) fun e => nomatch e)
        (fun _ _ e => nomatch e)
      (fun e => absurd e hty) (fun _ e => nomatch e) trivial
    have h1 : s.eventType e = .queue := hi.1
    rw [(hp.first_invalid hf).2] at h1
    cases h1

/-- `CoCreateQueue`: nothing changes, a queue is created, or its queue block is lost. -/
theorem coCreateQueue_qcbs (ht : s.tmr.TmrList = none) (qStart size sort : Nat) :
    Ensures (coCreateQueue cfg.served s qStart size sort) fun x =>
      (¬ Leaks cfg s qStart size ∧ x.2 = INVALID_ID ∧ x.1.pool = s.pool) ∨
      ∃ i, s.QueueIDVessel i = false ∧ qStart ≠ 0 ∧ size ≠ 0 ∧ freeQueue s cfg.maxQueue 0 = some i ∧
        ((s.FreeEventList = none ∧ x.2 = INVALID_ID ∧ x.1.qcbs = { s.qcbs with
            QueueIDVessel := update s.QueueIDVessel i true, qId := update s.qId i i }) ∨
          ∃ e, s.FreeEventList = some e ∧ x.2 = e ∧ x.1.qcbs = QcbView.setAt { s.qcbs with
            QueueIDVessel := update s.QueueIDVessel i true, qId :=
              update s.qId i i } e .queue (.qcb i)) := by
  unfold coCreateQueue
  refine .ite (fun hbad => .some (Or.inl ⟨fun hl => hbad.elim hl.1 hl.2.1, rfl, rfl⟩)) fun hok => ?_
  obtain ⟨hq, hs⟩ := not_or.mp hok
  dsimp only
  split
  · next hf =>
    rw [show freeQueue (osSchedLock s) cfg.served.maxQueue 0 = freeQueue s cfg.maxQueue 0 from
      @freeQueue_congr s (osSchedLock s) _ rfl _] at hf
    have hnl : ¬ Leaks cfg s qStart size := fun hl => hl.2.2.1 hf
    exact Ensures.bind (osSchedUnlock_pool cfg (s := osSchedLock s) rfl ht) fun s1 e1 =>
      .some (Or.inl ⟨hnl, rfl, e1⟩)
  · next i hi =>
    rw [show freeQueue (osSchedLock s) cfg.served.maxQueue 0 = freeQueue s cfg.maxQueue 0 from
      @freeQueue_congr s (osSchedLock s) _ rfl _] at hi
    let s0 : Kernel := { osSchedLock s with QueueIDVessel := update s.QueueIDVessel i true }
    refine Ensures.bind (osSchedUnlock_pool cfg (s := s0) rfl ht) fun s1 e1 => ?_
    let s2 : Kernel := { s1 with
      qId := update s1.qId i i
      qHead := update s1.qHead i 0
      qTail := update s1.qTail i 0
      qMaxSize := update s1.qMaxSize i size
      qSize := update s1.qSize i 0 }
    have hv : s2.qcbs = { s.qcbs with
        QueueIDVessel := update s.QueueIDVessel i true, qId := update s.qId i i } := by
      have e2 : s1.qcbs = s0.qcbs := qcbs_of_pool e1
      exact congrArg (fun v : QcbView => { v with qId := update v.qId i i }) e2
    have hfree : s2.FreeEventList = s.FreeEventList := congrArg EcbView.FreeEventList e1
    have ht2 : s2.tmr.TmrList = none := (congrArg (fun p : EcbView => p.tmr.TmrList) e1).trans ht
    refine Ensures.bind (creatEvent_qcbs (s := s2) ht2 .queue sort (.qcb i)) fun x hx =>
      .some (Or.inr ?_)
    refine ⟨i, freeQueue_free _ _ hi, hq, hs, hi, ?_⟩
    rw [hfree, hv] at hx
    rcases hx with ⟨hn, h1, h2⟩ | ⟨e, hn, h1, h2⟩
    · exact Or.inl ⟨hn, by rw [h1]; rfl, h2⟩
    · exact Or.inr ⟨e, hn, by rw [h1]; rfl, h2⟩

theorem QcbInv.queueCreated (h : QcbInv s.qcbs noCall) (hp : EcbPool cfg s noneTaken)
    {qStart size : Nat}
    (hk : ¬ Leaks cfg s qStart size) (sort : Nat) :
    Ensures (coCreateQueue cfg.served s qStart size sort) fun x => QcbInv x.1.qcbs noCall := by
  refine (coCreateQueue_qcbs hp.tmr qStart size sort).imp fun x hx => ?_
  rcases hx with ⟨-, -, e⟩ | ⟨i, hi, hq, hs, hf, ⟨hn, -⟩ | ⟨e, he, -, hx⟩⟩
  · rwa [qcbs_of_pool e]
  · exact absurd ⟨hq, hs, by rw [hf]; exact Option.some_ne_none i, hn⟩ hk
  · -- the three sections of the call, one after the other
    have h1 := @QcbInv.take s.qcbs noCall 0 h i size sort hi rfl
    have h2 := h1.number (e := e) (Function.update_self ..)
    have h3 := h2.fill (Function.update_self ..) (hp.first_invalid he).2 fun t ht => by
      rw [Function.update_of_ne ht, Function.update_of_ne ht]
      exact fun e => nomatch e
    rw [Function.update_idem, Function.update_idem] at h3
    rw [hx, show noCall = update noCall 0 EvtCont.none from (Function.update_eq_self 0 noCall).symm]
    exact h3

theorem Setup.exec_qcb (h : QcbInv s.qcbs noCall) (hp : EcbPool cfg s noneTaken) {u : Setup}
    (hu : u.QcbKept cfg s) : Ensures (u.exec cfg.served s) fun s' => QcbInv s'.qcbs noCall := by
  have hkeep : ∀ {s' : Kernel}, s'.pool = s.pool → QcbInv s'.qcbs noCall := fun e => by
    rwa [qcbs_of_pool e]
  cases u with
  | task entry stk parameter =>
    exact Ensures.map ((createTask_pool rfl hp.tmr entry stk parameter).imp fun x e => hkeep e)
  | sem initCnt maxCnt sortType =>
    refine Ensures.map ?_
    unfold coCreateSem
    refine .ite (fun _ => .some h) fun _ => ?_
    refine Ensures.bind (h.created hp (by decide) _ _) fun x hx => ?_
    dsimp only
    split
    · exact .some hx
    · exact .some hx
  | mbox sortType =>
    refine Ensures.map ?_
    unfold coCreateMbox
    refine Ensures.bind (h.created hp (by decide) _ _) fun x hx => ?_
    dsimp only
    split
    · exact .some hx
    · exact .some hx
  | queue qStart size sortType => exact Ensures.map (h.queueCreated hp hu sortType)
  | flag auto init =>
    exact Ensures.map ((coCreateFlag_pool rfl hp.tmr auto init).imp fun x e => hkeep e)
  | mutex => exact Ensures.map ((coCreateMutex_pool rfl hp.tmr).imp fun x e => hkeep e)

theorem setUp_qcb (us : List Setup) :
    ∀ {s : Kernel}, QcbInv s.qcbs noCall → EcbPool cfg s noneTaken →
    SetUpKept cfg s us → Ensures (setUp cfg.served s us) fun s' => QcbInv s'.qcbs noCall := by
  induction us with
  | nil => exact fun h _ _ => .some h
  | cons u us ih =>
    intro s h hp hu
    unfold setUp
    rw [List.foldlM_cons]
    intro s' e'
    obtain ⟨s1, e1, e2⟩ := Option.bind_eq_some_iff.mp e'
    exact ih (Setup.exec_qcb h hp hu.1 s1 e1) (Setup.exec_pool hp u s1 e1) (hu.2 s1 e1) s' e2

theorem boot_qcb {m : Sys} {i : Idle} {us : List Setup} (hb : boot cfg i us = some m)
    (hu : BootKept cfg i us) : QcbInv m.k.qcbs noCall := by
  unfold boot at hb
  obtain ⟨k1, e1, hb⟩ := Option.bind_eq_some_iff.mp hb
  obtain ⟨k2, e2, hb⟩ := Option.bind_eq_some_iff.mp hb
  obtain ⟨k3, e3, hb⟩ := Option.bind_eq_some_iff.mp hb
  let k0 : Kernel := osSchedLock (createEventList cfg (createTCBList cfg.served Kernel.zero))
  have hp0 : EcbPool cfg k0 noneTaken :=
    (@createEventList_pool cfg (createTCBList cfg.served Kernel.zero) rfl).congr rfl
  have hno : ∀ e, k0.eventType e ≠ .queue := fun e => by
    change (if e < cfg.maxEvent then EventType.invalid else .invalid) ≠ _
    rw [ite_self]
    decide
  have h0 : QcbInv k0.qcbs noCall := by
    refine ⟨⟨fun i => iff_of_false (fun e => nomatch e) ?_, fun i x y hx => ?_⟩,
      fun e he => absurd he (hno e),
      fun e i hi => absurd hi.1 (hno e), (fun _ _ e => nomatch e), fun _ => trivial⟩
    · rintro ⟨x | t, hx⟩
      · exact hno x hx.1
      · cases hx
    · cases x with
      | ev e => exact absurd hx.1 (hno e)
      | task t => cases hx
  obtain ⟨x, ex, e1'⟩ := Option.bind_eq_some_iff.mp e1
  have hx : k1.pool = k0.pool := by
    rw [← Option.some.inj e1']
    exact createTask_pool (s := k0) rfl hp0.tmr _ _ _ x ex
  have h1 : QcbInv k1.qcbs noCall := by rwa [qcbs_of_pool hx]
  have h2 := setUp_qcb us h1 (hp0.congr hx) (hu k1 e1) k2 e2
  have hp2 := setUp_pool us (hp0.congr hx) k2 e2
  have e4 : k3.pool = k2.pool := by
    let k : Kernel := { k2 with
      TCBRunning := some 0, TCBNext := some 0, state := update k2.state 0 .RUNNING }
    obtain ⟨k', ek, e3⟩ := Option.bind_eq_some_iff.mp e3
    have hp := Framed.pool (s := k) (removeFromTCBRdyList_frame cfg.served 0 rfl) rfl k' ek
    exact osSchedUnlock_pool cfg hp hp2.tmr k3 e3
  rw [← Option.some.inj hb]
  rwa [qcbs_of_pool (takeSwitch_pool k3), qcbs_of_pool e4]

end Boot

/-! ## Runs -/

section Runs

variable {cfg : Env} {i : Idle} {us : List Setup} {m0 m : EvtSys}

theorem QcbKept.noOverlap {a : EvtAct} (h : QcbKept m a) : NoOverlap m a := by
  cases a with
  | call c =>
    cases c with
    | del => exact h.2
    | _ => trivial
  | _ => trivial

theorem EvtReach.qcb (hb : evtBoot cfg i us = some m0) (hu : BootKept cfg i us)
    (h : EvtReach cfg QcbKept m0 m) : EvtInv cfg m ∧ QcbInv m.k.qcbs m.rest := by
  induction h with
  | start =>
    refine ⟨EvtReach.inv hb .start, ?_⟩
    obtain ⟨m, e1, rfl⟩ := Option.map_eq_some_iff.mp hb
    exact boot_qcb e1 hu
  | step _ hok hs ih => exact ⟨ih.1.step hok.noOverlap hs, ih.2.step ih.1 hok hs⟩

/-- `QueueIDVessel` and the pool of event blocks are what they were. -/
structure SameBlocks (s s' : Kernel) : Prop where
  QueueIDVessel : s'.QueueIDVessel = s.QueueIDVessel
  FreeEventList : s'.FreeEventList = s.FreeEventList
  ecbId : s'.ecbId = s.ecbId
  eventType : s'.eventType = s.eventType
  link : s'.link = s.link

/-- A `CoCreateQueue` that fails leaves the blocks as they were exactly when it does not take a
    queue block in vain. -/
theorem coCreateQueue_fails (hp : EcbPool cfg m.k m.Taken) {qStart size sort : Nat} {k' : Kernel}
    (e : coCreateQueue cfg.served m.k qStart size sort = some (k', INVALID_ID)) :
    SameBlocks m.k k' ↔ ¬ Leaks cfg m.k qStart size := by
  rcases coCreateQueue_qcbs hp.tmr qStart size sort _ e with
    ⟨hl, -, hx⟩ | ⟨j, hj, hq, hs, hf, ⟨hn, -, hx⟩ | ⟨a, ha, hid, -⟩⟩
  · refine iff_of_true ⟨?_, ?_, ?_, ?_, ?_⟩ hl
    · exact congrArg EcbView.QueueIDVessel hx
    · exact congrArg EcbView.FreeEventList hx
    · exact congrArg EcbView.ecbId hx
    · exact congrArg EcbView.eventType hx
    · exact congrArg EcbView.link hx
  · refine iff_of_false (fun h => ?_) (not_not.mpr ⟨hq,
      hs, by rw [hf]; exact Option.some_ne_none j, hn⟩)
    have hv : k'.QueueIDVessel = update m.k.QueueIDVessel j true :=
      congrArg QcbView.QueueIDVessel hx
    have := congrFun (h.QueueIDVessel.symm.trans hv) j
    rw [Function.update_self, hj] at this
    cases this
  · obtain ⟨l, h1, h2⟩ := hp.chain
    have hlt := ((h2 a).mp (List.mem_of_mem_head? (h1.head.symm.trans ha))).1
    have := cfg.maxEvent_le
    have hid : (255 : Nat) = a := hid
    omega

end Runs

end CoOS
