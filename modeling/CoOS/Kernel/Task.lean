/-
  Task management (`task.c`) and start-up (`core.c`).

  `CreateTask` is modelled from its `parameter` word: the priority in bits 0..7, the stack
  size in bits 8..19, the time slice from bit 20 on, and the waiting flag in bit 31. The
  entry point and the stack are addresses of which only the null checks matter.
-/
import CoOS.Kernel.Mutex

namespace CoOS

open Function (update)

/-! ## Start-up -/

/-- `CreateTCBList`. The state of the last TCB is not written, nor the last `RdyTaskPri`. -/
def createTCBList (cfg : Env) (s : Kernel) : Kernel :=
  { s with
    state := fun i => if i < cfg.tasks - 1 then .DORMANT else s.state i
    TCBnext := fun i => if i < cfg.tasks - 1 then some (i + 1)
      else if i = cfg.tasks - 1 then none else s.TCBnext i
    RdyTaskPri := fun i => if i < cfg.tasks - 1 then INVALID_ID else s.RdyTaskPri i
    ActivePri := fun i => if i < cfg.tasks then INVALID_ID else s.ActivePri i
    PriNum := 0
    FreeTCB := some 0 }

/-- `CreateEventList`, for `CFG_MAX_EVENT > 0`. -/
def createEventList (cfg : Env) (s : Kernel) : Kernel :=
  { s with
    ecbId := fun e => if e < cfg.maxEvent then e else s.ecbId e
    eventPtr := fun e => if e < cfg.maxEvent - 1 then .ecb (e + 1)
      else if e = cfg.maxEvent - 1 then .null else s.eventPtr e
    eventType := fun e => if e < cfg.maxEvent then .invalid else s.eventType e
    FreeEventList := some 0 }

/-! ## Tasks -/

/-- `AssignTCB`. -/
def assignTCB (cfg : Env) (s : Kernel) : Option (Kernel × Option Nat) :=
  let s := osSchedLock s
  match s.FreeTCB with
  | none => do
    let s ← osSchedUnlock cfg s
    some (s, none)
  | some t => do
    let s ← osSchedUnlock cfg { s with FreeTCB := s.TCBnext t }
    some (s, some t)

/-- `CreateTask`: the id of the new task, or `E_CREATE_FAIL`. -/
def createTask (cfg : Env) (s : Kernel) (task stk parameter : Nat) : Option (Kernel × Nat) :=
  let sktSz := (parameter &&& 0xfff00) >>> 8
  let prio := parameter &&& 0xff
  if task = 0 ∨ stk = 0 ∨ cfg.lowestPrio < prio ∨ sktSz < 20 then some (s, INVALID_ID)
  else do
    let (s, ptcb) ← assignTCB cfg s
    match ptcb with
    | none => some (s, INVALID_ID)
    | some t =>
      let slice := (parameter &&& 0x7fff0000) >>> 20
      let s := { s with
        hasStk := update s.hasStk t true
        prio := update s.prio t prio
        delayTick := update s.delayTick t INVALID_VALUE
        TCBnext := update s.TCBnext t none
        TCBprev := update s.TCBprev t none
        timeSlice := update s.timeSlice t (if slice = 0 then cfg.defaultSlice else slice)
        pnode := update s.pnode t .null
        eventID := update s.eventID t INVALID_ID
        pmail := update s.pmail t 0
        waitNext := update s.waitNext t none
        waitPrev := update s.waitPrev t none
        mutexID := update s.mutexID t INVALID_ID }
      let s ← if cfg.orderListScheduleEn then some s else activeTaskPri s prio
      if parameter >>> 31 = 0 then
        let s ← insertToTCBRdyList cfg (osSchedLock s) t
        let s ← osSchedUnlock cfg s
        some (s, t)
      else some ({ s with state := update s.state t .WAITING }, t)

/-- `if(ptcb->pnode != Co_NULL) RemoveLinkNode(ptcb->pnode)` in `CoDelTask`. A waiter that was
    released and suspended before it ran again still has the mark `0xffffffff`, which
    `RemoveLinkNode` follows as a pointer: there is no state after that. -/
def unlinkFlagNode (s : Kernel) (t : Nat) : Option Kernel :=
  match s.pnode t with
  | .null => some s
  | .node n => some (removeLinkNode s n)
  | .ones => none

/-- The part of `CoDelTask` for a waiting task: leave every list it waits in. -/
def leaveWaiting (cfg : Env) (s : Kernel) (t : Nat) : Option Kernel := do
  let s := if s.delayTick t ≠ INVALID_VALUE then removeDelayList s t else s
  let s := if s.eventID t ≠ INVALID_ID then removeEventWaittingList s t else s
  let s ← unlinkFlagNode s t
  if s.mutexID t ≠ INVALID_ID then removeMutexList cfg s t else some s

/-- `CoDelTask`. -/
def coDelTask (cfg : Env) (s : Kernel) (taskID : Nat) : Option (Kernel × StatusType) :=
  if cfg.tasks ≤ taskID then some (s, .E_INVALID_ID)
  else if s.state taskID = .DORMANT then some (s, .E_INVALID_ID)
  else if taskID = 0 then some (s, .E_PROTECTED_TASK)
  else if s.state taskID = .RUNNING ∧ s.OSSchedLock ≠ 0 then some (s, .E_OS_IN_LOCK)
  else do
    let s ← if holdsMutex s taskID then do
        let (s, _) ← coLeaveMutexSection cfg s (s.mutexID taskID)
        some s
      else some s
    let s := osSchedLock s
    let s ← match s.state taskID with
      | .READY => removeFromTCBRdyList cfg s taskID
      | .WAITING => leaveWaiting cfg s taskID
      | _ => some s
    let s := { s with state := update s.state taskID .DORMANT, TaskSchedReq := true }
    let s ← if cfg.orderListScheduleEn then some s else deleteTaskPri s (s.prio taskID)
    let s ← osSchedUnlock cfg { s with
      TCBnext := update s.TCBnext taskID s.FreeTCB, FreeTCB := some taskID }
    some (s, .E_OK)

/-- `CoExitTask`. -/
def coExitTask (cfg : Env) (s : Kernel) : Option (Kernel × StatusType) :=
  match s.TCBRunning with
  | none => none
  | some r => coDelTask cfg s r

/-- `CoSuspendTask`. -/
def coSuspendTask (cfg : Env) (s : Kernel) (taskID : Nat) : Option (Kernel × StatusType) :=
  if taskID = 0 then some (s, .E_PROTECTED_TASK)
  else if cfg.tasks ≤ taskID then some (s, .E_INVALID_ID)
  else if s.state taskID = .DORMANT then some (s, .E_INVALID_ID)
  else if s.OSSchedLock ≠ 0 then some (s, .E_OS_IN_LOCK)
  else if s.state taskID = .WAITING then some (s, .E_ALREADY_IN_WAITING)
  else do
    let s := osSchedLock s
    let s ← if some taskID ≠ s.TCBRunning then removeFromTCBRdyList cfg s taskID
      else some { s with TaskSchedReq := true }
    let s ← osSchedUnlock cfg { s with state := update s.state taskID .WAITING }
    some (s, .E_OK)

/-- `CoAwakeTask`. -/
def coAwakeTask (cfg : Env) (s : Kernel) (taskID : Nat) : Option (Kernel × StatusType) :=
  if taskID = 0 then some (s, .E_PROTECTED_TASK)
  else if cfg.tasks ≤ taskID then some (s, .E_INVALID_ID)
  else if s.state taskID = .DORMANT then some (s, .E_INVALID_ID)
  else if s.state taskID ≠ .WAITING then some (s, .E_TASK_NOT_WAITING)
  else if s.delayTick taskID ≠ INVALID_VALUE then some (s, .E_TASK_WAIT_OTHER)
  else if s.pnode taskID ≠ .null then some (s, .E_TASK_WAIT_OTHER)
  else if s.eventID taskID ≠ INVALID_ID then some (s, .E_TASK_WAIT_OTHER)
  else if s.mutexID taskID ≠ INVALID_ID then some (s, .E_TASK_WAIT_OTHER)
  else do
    let s ← insertToTCBRdyList cfg (osSchedLock s) taskID
    let s ← osSchedUnlock cfg s
    some (s, .E_OK)

/-! ## Start of multitasking -/

/-- `CoInitOS`: the lists, and the idle task as task 0 with the scheduler locked. `task` and
    `stk` are the addresses of `CoIdleTask` and its stack. -/
def coInitOS (cfg : Env) (s : Kernel) (task stk stkSz : Nat) : Option Kernel := do
  let s := osSchedLock (createEventList cfg (createTCBList cfg s))
  let (s, _) ← createTask cfg s task stk (cfg.lowestPrio ||| ((stkSz <<< 8) &&& 0x000FFF00))
  some s

/-- `CoStartOS`. -/
def coStartOS (cfg : Env) (s : Kernel) : Option Kernel := do
  let s ← removeFromTCBRdyList cfg { s with
    TCBRunning := some 0, TCBNext := some 0, state := update s.state 0 .RUNNING } 0
  osSchedUnlock cfg s

end CoOS
