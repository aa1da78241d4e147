/-
  The state of the CoOS kernel: tasks, events, mutexes, the flag waiting list, the
  priority table of the binary scheduler and the software timers.

  Tables are held field by field: `s.prio t` is `TCBTbl[t].prio`, `s.eventCounter e` is
  `EventTbl[e].eventCounter`, `s.hipriTaskID m` is `MutexTbl[m].hipriTaskID`. A pointer to
  a control block is the index of the block in its table, and `Co_NULL` is `none`. The
  fields `taskID` and `tmrID`, in which `CreateTCBList` and `CoCreateTmr` store that index
  once, are the index itself; so is `id` of an event block where it is read, though it is
  also a column of its own (`ecbId`), as is `id` of a queue block (`qId`).

  Counters are `Nat`; the 32-bit fields whose arithmetic can wrap (`delayTick`, `tmrCnt`)
  are updated modulo `2 ^ 32`. Stacks and saved contexts are outside the model:
  `stkPtr` is only ever compared with `Co_NULL`, and `hasStk` is that comparison.
-/
import CoOS.Lib.DList

namespace CoOS

open Function (update)

/-! ## Constants -/

/-- `INVALID_ID`, also `E_CREATE_FAIL`: `(U8)0xff`. -/
def INVALID_ID : Nat := 0xff

/-- `INVALID_VALUE`: `(U32)0xffffffff`. -/
def INVALID_VALUE : Nat := 0xffffffff

inductive TaskState where
  | READY | RUNNING | WAITING | DORMANT
  deriving DecidableEq, Repr

inductive StatusType where
  | E_OK | E_INVALID_ID | E_INVALID_PARAMETER | E_CALL | E_TASK_WAITING | E_TIMEOUT
  | E_SEM_FULL | E_SEM_EMPTY | E_ALREADY_IN_WAITING | E_TASK_NOT_WAITING
  | E_TASK_WAIT_OTHER | E_NOT_IN_DELAY_LIST | E_PROTECTED_TASK | E_OS_IN_LOCK
  | E_MBOX_FULL | E_MBOX_EMPTY | E_QUEUE_FULL | E_QUEUE_EMPTY | E_FLAG_NOT_READY | E_SEV_REQ_FULL
  deriving DecidableEq, Repr

/-- `eventType`. -/
inductive EventType where
  | sem | mbox | queue | invalid
  deriving DecidableEq, Repr

/-- `eventPtr` of an ECB: the next free ECB, the queue block, or a mail value. -/
inductive EventPtr where
  | null
  | ecb (e : Nat)
  | qcb (q : Nat)
  | mail (v : Nat)
  deriving DecidableEq, Repr

/-- The mail that `eventPtr` of a mailbox stands for; `Co_NULL` is the mail `0`. -/
def EventPtr.mailVal : EventPtr → Nat
  | .mail v => v
  | _ => 0

/-- `pnode` of a TCB: a flag node (a blocked task owns one node, named by the task), or the
    mark `(void*)0xffffffff` that `RemoveFromLink` leaves. -/
inductive PNode where
  | null
  | node (t : Nat)
  | ones
  deriving DecidableEq, Repr

/-- The type of a deferred request: `SEM_REQ` and so on. -/
inductive ReqType where
  | SEM_REQ | MBOX_REQ | FLAG_REQ | QUEUE_REQ
  deriving DecidableEq, Repr

/-- `OPT_WAIT_ALL`, `OPT_WAIT_ANY` and `OPT_WAIT_ONE`. -/
def OPT_WAIT_ALL : Nat := 0
def OPT_WAIT_ANY : Nat := 1
def OPT_WAIT_ONE : Nat := 2

/-- `OPT_DEL_NO_PEND` and `OPT_DEL_ANYWAY`. -/
def OPT_DEL_NO_PEND : Nat := 0
def OPT_DEL_ANYWAY : Nat := 1

/-- `EVENT_SORT_TYPE_FIFO` and `EVENT_SORT_TYPE_PRIO`. -/
def sortFifo : Nat := 1
def sortPrio : Nat := 2

/-! ## Configuration -/

/-- The build options of `OsConfig.h` that the model varies, within the bounds that
    `OsError.h` checks. The other options are as shipped: parameter checks, events sorted
    either way (`CFG_EVENT_SORT` 3), dynamic task creation, mutexes, flags and timers on.
    `nullPrio` is the byte that a read of `->prio` through `Co_NULL` yields. -/
structure Config where
  maxUserTasks : Nat
  lowestPrio : Nat
  defaultSlice : Nat
  maxEvent : Nat
  maxMutex : Nat
  maxTmr : Nat
  maxQueue : Nat
  maxServiceRequest : Nat
  orderListScheduleEn : Bool
  robinEn : Bool
  nullPrio : Nat
  maxUserTasks_le : maxUserTasks ≤ 253
  lowestPrio_le : lowestPrio ≤ 254
  maxEvent_le : maxEvent ≤ 254
  maxEvent_pos : 0 < maxEvent
  maxMutex_le : maxMutex ≤ 254
  maxTmr_le : maxTmr ≤ 32
  maxQueue_le : maxQueue ≤ 32
  maxServiceRequest_le : maxServiceRequest ≤ 255
  maxServiceRequest_pos : 0 < maxServiceRequest

/-- `CFG_MAX_USER_TASKS + SYS_TASK_NUM`. -/
def Config.tasks (cfg : Config) : Nat := cfg.maxUserTasks + 1

/-! ## State -/

/-- `TmrTbl`, `TmrList` and `TmrIDVessel` (bit `i` of the vessel is `TmrIDVessel i`). -/
structure Tmr where
  tmrPeriodic : Nat → Bool
  tmrRunning : Nat → Bool
  tmrCnt : Nat → Nat
  tmrReload : Nat → Nat
  tmrCallBack : Nat → Nat
  tmrNext : Nat → Option Nat
  tmrPrev : Nat → Option Nat
  TmrList : Option Nat
  TmrIDVessel : Nat → Bool

/-- A cell of the service request queue. -/
structure SQC where
  type : ReqType
  id : Nat
  arg : Nat
  deriving DecidableEq, Repr

/-- `ServiceReq`: the posts that interrupts deferred. -/
structure SRQ where
  cnt : Nat
  head : Nat
  cell : Nat → SQC

/-- What happened to a mail or a token: posted, taken by an accept or by the first section of a
    pend, or handed over to the waiting task `t`. -/
inductive Fate where
  | posted
  | taken
  | handed (t : Nat)
  deriving DecidableEq, Repr

/-- A mail of the event `id`, for a semaphore the mark `0xffffffff` of a token. -/
structure Move where
  id : Nat
  mail : Nat
  fate : Fate
  deriving DecidableEq, Repr

structure Kernel where
  -- TCBTbl
  hasStk : Nat → Bool
  prio : Nat → Nat
  state : Nat → TaskState
  mutexID : Nat → Nat
  eventID : Nat → Nat
  timeSlice : Nat → Nat
  pmail : Nat → Nat
  waitNext : Nat → Option Nat
  waitPrev : Nat → Option Nat
  pnode : Nat → PNode
  delayTick : Nat → Nat
  TCBnext : Nat → Option Nat
  TCBprev : Nat → Option Nat
  -- globals of task.c, core.c, time.c, arch.c and serviceReq.c
  FreeTCB : Option Nat
  TCBRdy : Option Nat
  TCBNext : Option Nat
  TCBRunning : Option Nat
  OSCheckTime : Nat
  OSIntNesting : Nat
  OSSchedLock : Nat
  TaskSchedReq : Bool
  DlyList : Option Nat
  OSTickCnt : Nat
  IsrReq : Bool
  TimeReq : Bool
  TimerReq : Bool
  ServiceReq : SRQ
  -- EventTbl and FreeEventList
  ecbId : Nat → Nat
  eventPtr : Nat → EventPtr
  eventType : Nat → EventType
  eventSortType : Nat → Nat
  eventCounter : Nat → Nat
  initialEventCounter : Nat → Nat
  eventTCBList : Nat → Option Nat
  FreeEventList : Option Nat
  -- the queue blocks: the ring contents, QueueTbl's indices and QueueIDVessel by bits
  qId : Nat → Nat
  qBuf : Nat → Nat → Nat
  qHead : Nat → Nat
  qTail : Nat → Nat
  qMaxSize : Nat → Nat
  qSize : Nat → Nat
  QueueIDVessel : Nat → Bool
  -- MutexTbl and MutexFreeID
  originalPrio : Nat → Nat
  mutexOccupied : Nat → Bool
  mutexTaskID : Nat → Nat
  hipriTaskID : Nat → Nat
  waittingList : Nat → Option Nat
  MutexFreeID : Nat
  -- FlagCrl and the flag nodes
  flagRdy : BitVec 32
  resetOpt : BitVec 32
  flagActive : BitVec 32
  waitFlags : Nat → BitVec 32
  waitType : Nat → Nat
  nextNode : Nat → Option Nat
  prevNode : Nat → Option Nat
  headNode : Option Nat
  tailNode : Option Nat
  -- the priority table of the binary scheduler
  PriNum : Nat
  ActivePri : Nat → Nat
  TaskNumPerPri : Nat → Nat
  RdyTaskPri : Nat → Nat
  RdyTaskPriInfo : Nat → Nat
  -- timer.c, and the callbacks called so far with the tick of each call
  tmr : Tmr
  callBacks : List (Nat × Nat)
  -- the mails and tokens moved so far
  moves : List Move
  -- the deferred requests executed so far, with the answers that `RespondSRQ` discards
  answers : List (SQC × StatusType)

/-- The build together with the code that the scheduler calls: `respondSRQ`, which
    `OsSchedUnlock` calls only after an ISR has deferred a request (`IsrReq`), and the timer
    callbacks of the application. -/
structure Env extends Config where
  respondSRQ : Kernel → Option Kernel
  runCallBack : Nat → Kernel → Option Kernel

/-! ## Accessors -/

/-- `ptr->prio`, through a pointer that may be `Co_NULL`. -/
def prioOf (cfg : Env) (s : Kernel) : Option Nat → Nat
  | none => cfg.nullPrio
  | some t => s.prio t

/-- The ready list in the columns `TCBnext` and `TCBprev`. -/
def Kernel.rdyLinks (s : Kernel) : DList.Links Nat := ⟨s.TCBRdy, s.TCBnext, s.TCBprev⟩

def Kernel.setRdyLinks (s : Kernel) (L : DList.Links Nat) : Kernel :=
  { s with TCBRdy := L.head, TCBnext := L.next, TCBprev := L.prev }

/-- The delay list in the same columns. -/
def Kernel.dlyLinks (s : Kernel) : DList.Links Nat := ⟨s.DlyList, s.TCBnext, s.TCBprev⟩

def Kernel.setDlyLinks (s : Kernel) (L : DList.Links Nat) : Kernel :=
  { s with DlyList := L.head, TCBnext := L.next, TCBprev := L.prev }

/-- The waiting list of event `e` in the columns `waitNext` and `waitPrev`. -/
def Kernel.evtLinks (s : Kernel) (e : Nat) : DList.Links Nat :=
  ⟨s.eventTCBList e, s.waitNext, s.waitPrev⟩

def Kernel.setEvtLinks (s : Kernel) (e : Nat) (L : DList.Links Nat) : Kernel :=
  { s with eventTCBList := update s.eventTCBList e L.head, waitNext := L.next, waitPrev := L.prev }

/-- The record of a mail that is moved. -/
def Kernel.note (s : Kernel) (id mail : Nat) (fate : Fate) : Kernel :=
  { s with moves := s.moves ++ [⟨id, mail, fate⟩] }

/-- The record of a deferred request and the status of the call it stands for. -/
def Kernel.answer (s : Kernel) (cell : SQC) (st : StatusType) : Kernel :=
  { s with answers := s.answers ++ [(cell, st)] }

/-! ## The state at reset -/

def Tmr.zero : Tmr where
  tmrPeriodic _ := false
  tmrRunning _ := false
  tmrCnt _ := 0
  tmrReload _ := 0
  tmrCallBack _ := 0
  tmrNext _ := none
  tmrPrev _ := none
  TmrList := none
  TmrIDVessel _ := false

/-- The state before `CoInitOS`: all variables zero. -/
def Kernel.zero : Kernel where
  hasStk _ := false
  prio _ := 0
  state _ := .READY
  mutexID _ := 0
  eventID _ := 0
  timeSlice _ := 0
  pmail _ := 0
  waitNext _ := none
  waitPrev _ := none
  pnode _ := .null
  delayTick _ := 0
  TCBnext _ := none
  TCBprev _ := none
  FreeTCB := none
  TCBRdy := none
  TCBNext := none
  TCBRunning := none
  OSCheckTime := 0
  OSIntNesting := 0
  OSSchedLock := 0
  TaskSchedReq := false
  DlyList := none
  OSTickCnt := 0
  IsrReq := false
  TimeReq := false
  TimerReq := false
  ServiceReq := ⟨0, 0, fun _ => ⟨.SEM_REQ, 0, 0⟩⟩
  ecbId _ := 0
  eventPtr _ := .null
  eventType _ := .invalid
  eventSortType _ := 0
  eventCounter _ := 0
  initialEventCounter _ := 0
  eventTCBList _ := none
  FreeEventList := none
  qId _ := 0
  qBuf _ _ := 0
  qHead _ := 0
  qTail _ := 0
  qMaxSize _ := 0
  qSize _ := 0
  QueueIDVessel _ := false
  originalPrio _ := 0
  mutexOccupied _ := false
  mutexTaskID _ := 0
  hipriTaskID _ := 0
  waittingList _ := none
  MutexFreeID := 0
  flagRdy := 0
  resetOpt := 0
  flagActive := 0
  waitFlags _ := 0
  waitType _ := 0
  nextNode _ := none
  prevNode _ := none
  headNode := none
  tailNode := none
  PriNum := 0
  ActivePri _ := 0
  TaskNumPerPri _ := 0
  RdyTaskPri _ := 0
  RdyTaskPriInfo _ := 0
  tmr := Tmr.zero
  callBacks := []
  moves := []
  answers := []

/-- The shipped `OsConfig.h`, with callbacks that do nothing. -/
def shippedEnv : Env where
  maxUserTasks := 5
  lowestPrio := 64
  defaultSlice := 10
  maxEvent := 20
  maxMutex := 10
  maxTmr := 2
  maxQueue := 2
  maxServiceRequest := 5
  orderListScheduleEn := true
  robinEn := true
  nullPrio := 0
  maxUserTasks_le := by decide
  lowestPrio_le := by decide
  maxEvent_le := by decide
  maxEvent_pos := by decide
  maxMutex_le := by decide
  maxTmr_le := by decide
  maxQueue_le := by decide
  maxServiceRequest_le := by decide
  maxServiceRequest_pos := by decide
  respondSRQ := some
  runCallBack _ := some

end CoOS
