/-
  Waiting: the delay list (`time.c`), the event waiting lists (`event.c`) and the removal of
  a node from the flag waiting list (`flag.c`).

  `delayTick` counts from the item before, so the delay list is a delta list in the columns
  `TCBnext`, `TCBprev`, `delayTick`; insertion and removal are those of `DList.Delta`.
-/
import CoOS.Lib.Delta
import CoOS.Kernel.Sched

namespace CoOS

open Function (update)

/-! ## The delay list -/

/-- The delay list with its counters. -/
def Kernel.dly (s : Kernel) : DList.Delta Nat := ⟨s.dlyLinks, s.delayTick⟩

def Kernel.setDly (s : Kernel) (D : DList.Delta Nat) : Kernel :=
  { s.setDlyLinks D.toLinks with delayTick := D.cnt }

/-- `InsertDelayList`. -/
def insertDelayList (cfg : Env) (s : Kernel) (t ticks : Nat) : Option Kernel :=
  if ticks = 0 then some s
  else do
    let D ← s.dly.insert cfg.tasks t ticks
    let s := s.setDly D
    some { s with state := update s.state t .WAITING, TaskSchedReq := true }

/-- `RemoveDelayList`. -/
def removeDelayList (s : Kernel) (t : Nat) : Kernel :=
  let s := s.setDly (s.dly.remove t)
  { s with delayTick := update s.delayTick t INVALID_VALUE }

/-- `CoTickDelay`. -/
def coTickDelay (cfg : Env) (s : Kernel) (ticks : Nat) : Option (Kernel × StatusType) :=
  if 0 < s.OSIntNesting then some (s, .E_CALL)
  else if ticks = INVALID_VALUE then some (s, .E_INVALID_PARAMETER)
  else if ticks = 0 then some (s, .E_OK)
  else if s.OSSchedLock ≠ 0 then some (s, .E_OS_IN_LOCK)
  else
    match s.TCBRunning with
    | none => none
    | some r => do
      let s ← insertDelayList cfg (osSchedLock s) r ticks
      let s ← osSchedUnlock cfg s
      some (s, .E_OK)

/-- `CoResetTaskDelayTick`. -/
def coResetTaskDelayTick (cfg : Env) (s : Kernel) (taskID ticks : Nat) :
    Option (Kernel × StatusType) :=
  if cfg.tasks ≤ taskID then some (s, .E_INVALID_ID)
  else if ¬ s.hasStk taskID then some (s, .E_INVALID_ID)
  else if s.delayTick taskID = INVALID_VALUE then some (s, .E_NOT_IN_DELAY_LIST)
  else do
    let s := removeDelayList (osSchedLock s) taskID
    let s ← if ticks = 0 then insertToTCBRdyList cfg s taskID
      else insertDelayList cfg s taskID ticks
    let s ← osSchedUnlock cfg s
    some (s, .E_OK)

/-! ## Event waiting lists -/

/-- The walk to the last waiting task: `while(ptcb1->waitNext != Co_NULL)`. -/
def lastWaiting (s : Kernel) : Nat → Nat → Option Nat
  | 0, _ => none
  | fuel + 1, t =>
    match s.waitNext t with
    | none => some t
    | some n => lastWaiting s fuel n

/-- The walk by priority: `ptcb1` where the loop stops. -/
def findWaitPlace (s : Kernel) (prio : Nat) : Nat → Nat → Option Nat → Option Nat
  | _, ptcb1, none => some ptcb1
  | 0, _, some _ => none
  | fuel + 1, ptcb1, some ptcb2 =>
    if prio < s.prio ptcb2 then some ptcb1
    else findWaitPlace s prio fuel ptcb2 (s.waitNext ptcb2)

/-- The list part of `EventTaskToWait`. -/
def linkWaiting (cfg : Env) (s : Kernel) (e t : Nat) : Option Kernel :=
  let L := s.evtLinks e
  if s.eventSortType e = sortFifo then
    match L.head with
    | none => some (s.setEvtLinks e (L.pushFront t))
    | some h => do
      let p ← lastWaiting s cfg.tasks h
      some (s.setEvtLinks e (L.append p t))
  else if s.eventSortType e = sortPrio then
    match L.head with
    | none => some (s.setEvtLinks e (L.pushFront t))
    | some h =>
      if s.prio t < s.prio h then some (s.setEvtLinks e (L.pushFront t))
      else do
        let p ← findWaitPlace s (s.prio t) cfg.tasks h (s.waitNext h)
        some (s.setEvtLinks e (L.insertAfter p t))
  else some s

/-- `EventTaskToWait`. -/
def eventTaskToWait (cfg : Env) (s : Kernel) (e t : Nat) : Option Kernel := do
  let s := osSchedLock s
  let s ← linkWaiting cfg { s with eventID := update s.eventID t e } e t
  osSchedUnlock cfg { s with state := update s.state t .WAITING, TaskSchedReq := true }

/-- `RemoveEventWaittingList`. -/
def removeEventWaittingList (s : Kernel) (t : Nat) : Kernel :=
  let e := s.eventID t
  let s := s.setEvtLinks e ((s.evtLinks e).unlink t)
  { s with eventID := update s.eventID t INVALID_ID }

/-- The part of `EventTaskToRdy` that depends on the event: the mail handed over, and the
    event sign cleared. -/
def handOver (s : Kernel) (e t : Nat) : Kernel :=
  let dec := (s.eventCounter e + 65535) % 65536
  match s.eventType e with
  | .mbox => { s with
      pmail := update s.pmail t (s.eventPtr e).mailVal
      eventPtr := update s.eventPtr e .null
      eventCounter := update s.eventCounter e dec }.note e (s.eventPtr e).mailVal (.handed t)
  | .queue =>
    match s.eventPtr e with
    | .qcb q =>
      let head := (s.qHead q + 1) % 65536
      { s with
        pmail := update s.pmail t (s.qBuf q (s.qHead q))
        qHead := update s.qHead q (if head = s.qMaxSize q then 0 else head)
        qSize := update s.qSize q ((s.qSize q + 65535) % 65536)
        }.note e (s.qBuf q (s.qHead q)) (.handed t)
    | _ => s
  | .sem => { s with
      eventCounter := update s.eventCounter e dec
      pmail := update s.pmail t 0xffffffff }.note e 0xffffffff (.handed t)
  | .invalid => s

/-- `EventTaskToRdy`: the head of the waiting list is released. -/
def eventTaskToRdy (cfg : Env) (s : Kernel) (e : Nat) : Option Kernel :=
  match s.eventTCBList e with
  | none => some s
  | some t =>
    let n := s.waitNext t
    let s := { s with
      eventTCBList := update s.eventTCBList e n
      waitPrev := match n with
        | none => s.waitPrev
        | some n => update s.waitPrev n none
      waitNext := update s.waitNext t none
      eventID := update s.eventID t INVALID_ID }
    let s := if s.delayTick t ≠ INVALID_VALUE then removeDelayList s t else s
    let s := handOver s e t
    if some t = s.TCBRunning then some { s with state := update s.state t .RUNNING }
    else insertToTCBRdyList cfg s t

/-! ## The flag waiting list -/

/-- `RemoveLinkNode`, for the node of task `t`. -/
def removeLinkNode (s : Kernel) (t : Nat) : Kernel :=
  let s := match s.nextNode t, s.prevNode t with
    | none, none => { s with headNode := none, tailNode := none }
    | none, some p => { s with tailNode := some p, nextNode := update s.nextNode p none }
    | some n, none => { s with headNode := some n, prevNode := update s.prevNode n none }
    | some n, some p => { s with
        prevNode := update s.prevNode n (some p), nextNode := update s.nextNode p (some n) }
  { s with pnode := update s.pnode t .null }

/-- `if(ptcb->pnode != Co_NULL) RemoveLinkNode(ptcb->pnode)` in `TimeDispose`. The mark
    `0xffffffff` is no node; `RemoveFromLink` takes a task out of the delay list before it gives it
    the mark, so no task whose time is up has it (`Reach.unmarked`). -/
def dropFlagNode (s : Kernel) (t : Nat) : Kernel :=
  match s.pnode t with
  | .node n => removeLinkNode s n
  | _ => s

/-! ## Expiry of delays -/

/-- `TimeDispose`: release the tasks at the head of the delay list whose time is up. -/
def timeDispose (cfg : Env) : Nat → Kernel → Option Kernel
  | fuel, s =>
    match s.DlyList with
    | none => some s
    | some t =>
      if s.delayTick t ≠ 0 then some s
      else
        match fuel with
        | 0 => none
        | fuel + 1 => do
          let s := if s.eventID t ≠ INVALID_ID then removeEventWaittingList s t else s
          let s := dropFlagNode s t
          let s := { s with
            delayTick := update s.delayTick t INVALID_VALUE
            DlyList := s.TCBnext t
            TCBnext := update s.TCBnext t none }
          let s ← insertToTCBRdyList cfg s t
          let s := match s.DlyList with
            | none => s
            | some h => { s with TCBprev := update s.TCBprev h none }
          timeDispose cfg fuel s

/-- `isr_TimeDispose`. -/
def isr_TimeDispose (cfg : Env) (s : Kernel) : Option Kernel :=
  if 1 < s.OSSchedLock then some { s with IsrReq := true, TimeReq := true }
  else timeDispose cfg cfg.tasks s

/-- The `CFG_TASK_WAITTING_EN` part of `SysTick_Handler`. -/
def sysTickDelay (cfg : Env) (s : Kernel) : Option Kernel :=
  match s.DlyList with
  | none => some s
  | some h =>
    if 1 < s.delayTick h then
      some { s with delayTick := update s.delayTick h (s.delayTick h - 1) }
    else isr_TimeDispose cfg { s with delayTick := update s.delayTick h 0 }

end CoOS
