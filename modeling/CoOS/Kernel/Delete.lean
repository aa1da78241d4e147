/-
  Creation and deletion of events while tasks run: `CreatEvent`, `ReleaseECB` and `DeleteEvent`
  of `event.c`, `CoDelSem`, `CoDelMbox` and `CoDelQueue`.

  `CreatEvent` takes an event block in a critical section and fills it in afterwards.
  `DeleteEvent` with `OPT_DEL_ANYWAY` has two critical sections: it releases the waiting tasks in
  the first one and the event block in the second one. Any of these unlocks can lose the CPU, so
  what follows it is a step of its own (`EvtCont`). In the runs of this module the tests of a call
  belong to the step of its first critical section, and the mark that `ReleaseECB` sets to that of
  its critical section.
-/
import CoOS.Kernel.System

namespace CoOS

open Function (update)

/-! ## The functions -/

/-- `pecb->eventPtr` as the link of the free list. -/
def Kernel.nextECB (s : Kernel) (e : Nat) : Option Nat :=
  match s.eventPtr e with
  | .ecb e' => some e'
  | _ => none

/-- `CreatEvent` up to its unlock: the event block, if there is one. -/
def takeECB (cfg : Env) (s : Kernel) : Option (Kernel × Option Nat) :=
  let s := osSchedLock s
  match s.FreeEventList with
  | none => do
    let s ← osSchedUnlock cfg s
    some (s, none)
  | some e => do
    let s ← osSchedUnlock cfg { s with FreeEventList := s.nextECB e }
    some (s, some e)

/-- The rest of `CreatEvent`. -/
def fillECB (s : Kernel) (e : Nat) (ty : EventType) (sort : Nat) (ptr : EventPtr) : Kernel :=
  { s with
    eventType := update s.eventType e ty
    eventSortType := update s.eventSortType e (sort % 16)
    eventPtr := update s.eventPtr e ptr
    eventTCBList := update s.eventTCBList e none }

theorem creatEvent_eq (cfg : Env) (s : Kernel) (ty : EventType) (sort : Nat) (ptr : EventPtr) :
    creatEvent cfg s ty sort ptr = (takeECB cfg s).map fun x =>
      match x.2 with
      | none => (x.1, none)
      | some e => (fillECB x.1 e ty sort ptr, some e) := by
  unfold creatEvent takeECB
  dsimp only
  cases (osSchedLock s).FreeEventList with
  | none =>
    dsimp only
    cases osSchedUnlock cfg (osSchedLock s) with
    | none => rfl
    | some s1 => rfl
  | some e =>
    change Option.bind (osSchedUnlock cfg { osSchedLock s with
      FreeEventList := (osSchedLock s).nextECB e }) _ = Option.map _ (Option.bind _ _)
    cases osSchedUnlock cfg { osSchedLock s with FreeEventList := (osSchedLock s).nextECB e } with
    | none => rfl
    | some s1 => rfl

/-- The block is marked as not in use. -/
def markECB (s : Kernel) (e : Nat) : Kernel := { s with eventType := update s.eventType e .invalid }

/-- `ReleaseECB` from its `OsSchedLock` on. -/
def linkECB (cfg : Env) (s : Kernel) (e : Nat) : Option Kernel :=
  let s := osSchedLock s
  let ptr := match s.FreeEventList with
    | none => .null
    | some e' => .ecb e'
  osSchedUnlock cfg { s with eventPtr := update s.eventPtr e ptr, FreeEventList := some e }

/-- `ReleaseECB`, when nothing comes between the mark and its `OsSchedLock`. -/
def releaseECB (cfg : Env) (s : Kernel) (e : Nat) : Option Kernel := linkECB cfg (markECB s e) e

/-- The block goes in front of the free list. -/
theorem linkECB_eq (cfg : Env) (s : Kernel) (e : Nat) : ∃ p : EventPtr,
    linkECB cfg s e = osSchedUnlock cfg
      { osSchedLock s with eventPtr := update s.eventPtr e p, FreeEventList := some e } ∧
    ((p = .null ∧ s.FreeEventList = none) ∨ ∃ e', p = .ecb e' ∧ s.FreeEventList = some e') := by
  unfold linkECB
  dsimp only
  rw [show (osSchedLock s).FreeEventList = s.FreeEventList from rfl]
  cases s.FreeEventList with
  | none => exact ⟨.null, rfl, Or.inl ⟨rfl, rfl⟩⟩
  | some e' => exact ⟨.ecb e', rfl, Or.inr ⟨e', rfl, rfl⟩⟩

theorem releaseECB_eq (cfg : Env) (s : Kernel) (e : Nat) : ∃ p : EventPtr,
    releaseECB cfg s e = osSchedUnlock cfg
      { osSchedLock { s with eventType := update s.eventType e .invalid } with
        eventPtr := update s.eventPtr e p, FreeEventList := some e } ∧
    ((p = .null ∧ s.FreeEventList = none) ∨ ∃ e', p = .ecb e' ∧ s.FreeEventList = some e') :=
  linkECB_eq cfg (markECB s e) e

/-- The loop of `DeleteEvent`: the waiting tasks are released. -/
def releaseTasks (cfg : Env) (e : Nat) : Nat → Kernel → Option Kernel
  | fuel, s =>
    match s.eventTCBList e with
    | none => some s
    | some t =>
      match fuel with
      | 0 => none
      | fuel + 1 => do
        let s := if s.delayTick t ≠ INVALID_VALUE then removeDelayList s t else s
        let s := { s with
          eventTCBList := update s.eventTCBList e (s.waitNext t)
          waitNext := update s.waitNext t none
          eventID := update s.eventID t INVALID_ID }
        let s ← insertToTCBRdyList cfg s t
        releaseTasks cfg e fuel s

/-- `DeleteEvent` up to the end of the first critical section that it enters, when nothing comes
    between its tests and that. The status is `none` when the `ReleaseECB` of `OPT_DEL_ANYWAY` is
    still to come. -/
def deleteEvent (cfg : Env) (s : Kernel) (e opt : Nat) : Option (Kernel × Option StatusType) :=
  if opt = OPT_DEL_NO_PEND then
    if s.eventTCBList e ≠ none then some (s, some .E_TASK_WAITING)
    else do
      let s ← releaseECB cfg s e
      some (s, some .E_OK)
  else if opt = OPT_DEL_ANYWAY then do
    let s ← releaseTasks cfg e cfg.tasks (osSchedLock s)
    let s ← osSchedUnlock cfg s
    some (s, none)
  else some (s, some .E_OK)

/-- The deletion of an event that has to be of the kind `k`, when nothing comes between this test
    and the first critical section. -/
def delKind (cfg : Env) (s : Kernel) (k : EventType) (id opt : Nat) :
    Option (Kernel × Option StatusType) :=
  if cfg.maxEvent ≤ id ∨ s.eventType id ≠ k then some (s, some .E_INVALID_ID)
  else deleteEvent cfg s id opt

/-- `CoDelSem`. -/
def coDelSem (cfg : Env) (s : Kernel) (id opt : Nat) : Option (Kernel × Option StatusType) :=
  delKind cfg s .sem id opt

/-- `CoDelMbox`. -/
def coDelMbox (cfg : Env) (s : Kernel) (id opt : Nat) : Option (Kernel × Option StatusType) :=
  delKind cfg s .mbox id opt

/-- `CoDelQueue` up to the return of `DeleteEvent`. -/
def coDelQueue (cfg : Env) (s : Kernel) (id opt : Nat) : Option (Kernel × Option StatusType) :=
  delKind cfg s .queue id opt

/-- The deletions by the kind of event. -/
def delEvent (cfg : Env) (s : Kernel) (k : EventType) (id opt : Nat) :
    Option (Kernel × Option StatusType) :=
  match k with
  | .sem => coDelSem cfg s id opt
  | .mbox => coDelMbox cfg s id opt
  | .queue => coDelQueue cfg s id opt
  | .invalid => none

/-- The end of `CoDelQueue`, for the queue block `q`. -/
def clearQueue (s : Kernel) (q : Nat) : Kernel :=
  { s with
    QueueIDVessel := update s.QueueIDVessel (s.qId q) false
    qId := update s.qId q 0
    qHead := update s.qHead q 0
    qTail := update s.qTail q 0
    qMaxSize := update s.qMaxSize q 0
    qSize := update s.qSize q 0 }

/-! ## Calls and what is left of them -/

inductive EvtCall where
  | createSem (initCnt maxCnt sortType : Nat)
  | createMbox (sortType : Nat)
  | createQueue (qStart size sortType : Nat)
  | del (k : EventType) (id opt : Nat)
  | accept (k : EventType) (id : Nat)
  | pend (k : EventType) (id timeout : Nat)
  | post (k : EventType) (id mail : Nat)
  deriving DecidableEq, Repr

/-- What is left of a call: of a pend, of a creation that has its event block (`fill`) or only its
    queue block (`take`), of a deletion that has released the tasks (`release`) or also the event
    block (`clear`). -/
inductive EvtCont where
  | none
  | block (id timeout : Nat)
  | wait (timeout : Nat)
  | fill (e : Nat) (ty : EventType) (sort : Nat) (ptr : EventPtr) (initCnt maxCnt : Nat)
  | take (i size sort : Nat)
  | release (id : Nat) (q : Option Nat)
  | clear (q : Nat)
  deriving DecidableEq, Repr

/-- After a section: the kernel, what is left of the call, and its result if it has returned. -/
abbrev EvtOutcome := Kernel × EvtCont × Option Ret

def evtReturned (k : Kernel) (ret : Ret) : EvtOutcome := (k, .none, some ret)

/-- The section of `CreatEvent`, and the failure of the creation. -/
def createFrom (cfg : Env) (k : Kernel) (ty : EventType) (sort : Nat) (ptr : EventPtr)
    (initCnt maxCnt : Nat) : Option EvtOutcome :=
  (takeECB cfg k).map fun x =>
    match x.2 with
    | none => evtReturned x.1 (INVALID_ID, .E_OK)
    | some e => (x.1, .fill e ty sort ptr initCnt maxCnt, none)

/-- The event block is filled in, with the counters that `CoCreateSem` and `CoCreateMbox` set. -/
def initEvent (k : Kernel) (e : Nat) (ty : EventType) (sort : Nat) (ptr : EventPtr)
    (initCnt maxCnt : Nat) : Kernel :=
  let k := fillECB k e ty sort ptr
  match ty with
  | .sem => { k with
      eventCounter := update k.eventCounter e initCnt
      initialEventCounter := update k.initialEventCounter e maxCnt }
  | .mbox => { k with eventCounter := update k.eventCounter e 0 }
  | _ => k

/-- The first section of each call. -/
def EvtCall.exec (cfg : Env) (k : Kernel) : EvtCall → Option EvtOutcome
  | .createSem initCnt maxCnt sort =>
    if maxCnt < initCnt ∨ (sort ≠ sortFifo ∧ sort ≠ sortPrio) then
      some (evtReturned k (INVALID_ID, .E_OK))
    else createFrom cfg k .sem sort .null initCnt maxCnt
  | .createMbox sort => createFrom cfg k .mbox sort .null 0 0
  | .createQueue qStart size sort =>
    if qStart = 0 ∨ size = 0 then some (evtReturned k (INVALID_ID, .E_OK))
    else
      let k := osSchedLock k
      match freeQueue k cfg.maxQueue 0 with
      | none => (osSchedUnlock cfg k).map fun k => evtReturned k (INVALID_ID, .E_OK)
      | some i => (osSchedUnlock cfg { k with QueueIDVessel := update k.QueueIDVessel i true }).map
        fun k => (k, .take i size sort, none)
  | .del kd id opt =>
    let q := if kd = .queue then some (qcbOf k id) else none
    (delEvent cfg k kd id opt).map fun x =>
      match x.2, q with
      | none, q => (x.1, .release id q, none)
      | some .E_OK, some q =>
        if opt = OPT_DEL_NO_PEND then (x.1, .clear q, none)
        else evtReturned (clearQueue x.1 q) (0, .E_OK)
      | some st, _ => evtReturned x.1 (0, st)
  | .accept kd id => (acceptEvent cfg k kd id).map fun x => evtReturned x.1 x.2
  | .pend kd id timeout => (pendEvent cfg k kd id).map fun x =>
    match x.2 with
    | some ret => evtReturned x.1 ret
    | none => (x.1, .block id timeout, none)
  | .post kd id mail => (postEvent cfg k kd id mail).map fun x => evtReturned x.1 (0, x.2)

/-- The next section of a call of the task `r` that has not returned. -/
def EvtCont.exec (cfg : Env) (k : Kernel) (r : Nat) : EvtCont → Option EvtOutcome
  | .none => Option.none
  | .block id timeout => (pendWait cfg k id timeout).map fun k => (k, .wait timeout, Option.none)
  | .wait timeout => some (evtReturned (pendReturn k r timeout).1 (pendReturn k r timeout).2)
  | .fill e ty sort ptr initCnt maxCnt =>
    some (evtReturned (initEvent k e ty sort ptr initCnt maxCnt) (k.ecbId e, .E_OK))
  | .take i size sort =>
    let k := { k with
      qId := update k.qId i i
      qHead := update k.qHead i 0
      qTail := update k.qTail i 0
      qMaxSize := update k.qMaxSize i size
      qSize := update k.qSize i 0 }
    createFrom cfg k .queue sort (.qcb i) 0 0
  | .release id q => (releaseECB cfg k id).map fun k =>
    match q with
    | Option.none => evtReturned k (0, .E_OK)
    | some q => (k, .clear q, Option.none)
  | .clear q => some (evtReturned (clearQueue k q) (0, .E_OK))

/-! ## Runs -/

structure EvtSys where
  k : Kernel
  rest : Nat → EvtCont

inductive EvtAct where
  | call (c : EvtCall)
  | resume
  | tick
  deriving DecidableEq, Repr

def EvtSys.after (m : EvtSys) (r : Nat) (x : EvtOutcome) : EvtSys where
  k := takeSwitch x.1
  rest := update m.rest r x.2.1

/-- One step, before it is known that the ring of requests is empty again. -/
def EvtSys.exec (cfg : Env) (m : EvtSys) (rs : List SQC) (a : EvtAct) : Option EvtSys :=
  let k := m.k.defer cfg rs
  match a, m.k.TCBRunning with
  | .tick, _ => (sysTick_Handler cfg k).map fun k => { m with k := takeSwitch k }
  | .call c, some r =>
    if r = 0 ∨ m.rest r ≠ .none then none else (c.exec cfg k).map (m.after r)
  | .resume, some r => ((m.rest r).exec cfg k r).map (m.after r)
  | _, none => none

/-- One step, as `Sys.step`. -/
def EvtSys.step (cfg : Env) (m : EvtSys) (rs : List SQC) (a : EvtAct) : Option EvtSys :=
  (m.exec cfg.served rs a).filter fun m => !m.k.IsrReq

/-- The states that steps allowed by `ok` reach from `m0`. -/
inductive EvtReach (cfg : Env) (ok : EvtSys → EvtAct → Prop) (m0 : EvtSys) : EvtSys → Prop
  | start : EvtReach cfg ok m0 m0
  | step {m m' : EvtSys} {rs : List SQC} {a : EvtAct} (h : EvtReach cfg ok m0 m) (hok : ok m a)
      (hs : m.step cfg rs a = some m') : EvtReach cfg ok m0 m'

/-- The run that takes the given steps. -/
def evtRuns (cfg : Env) : EvtSys → List EvtAct → Option EvtSys
  | m, [] => some m
  | m, a :: l => (m.step cfg [] a).bind fun m => evtRuns cfg m l

theorem evtRuns_reach {cfg : Env} {ok : EvtSys → EvtAct → Prop} {m0 : EvtSys} (l : List EvtAct)
    (hl : ∀ a ∈ l, ∀ m, ok m a) : ∀ {m m' : EvtSys}, EvtReach cfg ok m0 m →
      evtRuns cfg m l = some m' → EvtReach cfg ok m0 m' := by
  induction l with
  | nil =>
    intro m m' h e
    rw [← Option.some.inj e]
    exact h
  | cons a l ih =>
    intro m m' h e
    obtain ⟨m1, e1, e2⟩ := Option.bind_eq_some_iff.mp e
    exact ih (fun b hb => hl b (List.mem_cons_of_mem a hb))
      (h.step (hl a List.mem_cons_self m) e1) e2

/-- `boot`, for these runs. -/
def evtBoot (cfg : Env) (i : Idle) (us : List Setup) : Option EvtSys :=
  (boot cfg i us).map fun m => ⟨m.k, fun _ => .none⟩

end CoOS
