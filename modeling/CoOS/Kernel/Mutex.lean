/-
  Priorities and mutexes: `CoSetPriority` of `task.c` and all of `mutex.c`.

  The waiting list of a mutex uses the columns `TCBnext` and `TCBprev` of the ready list.
  `CoSetPriority` on a task that waits for a mutex sets the priority of the owner by calling
  itself; the recursion takes fuel, one round for each task.
-/
import CoOS.Kernel.Wait

namespace CoOS

open Function (update)

/-- The search for the most urgent waiter along `TCBnext`: `prio` and `hipriTaskID` at the
    end of the list that starts at `ptcb`. -/
def hipriWaiter (s : Kernel) : Nat → Option Nat → Nat → Nat → Option (Nat × Nat)
  | _, none, prio, hipri => some (prio, hipri)
  | 0, some _, _, _ => none
  | fuel + 1, some t, prio, hipri =>
    if s.prio t < prio then hipriWaiter s fuel (s.TCBnext t) (s.prio t) t
    else hipriWaiter s fuel (s.TCBnext t) prio hipri

/-- `if(pecb->eventSortType == EVENT_SORT_TYPE_PRIO)` reorder `t` in its waiting list. -/
def reorderWaiting (cfg : Env) (s : Kernel) (t : Nat) : Option Kernel :=
  let e := s.eventID t
  if s.eventSortType e = sortPrio then eventTaskToWait cfg (removeEventWaittingList s t) e t
  else some s

/-- `DeleteTaskPri(old); ActiveTaskPri(new)` of the binary build. -/
def changeTaskPri (cfg : Env) (s : Kernel) (old new : Nat) : Option Kernel :=
  if cfg.orderListScheduleEn then some s
  else do
    let s ← deleteTaskPri s old
    activeTaskPri s new

/-- `RemoveFromTCBRdyList(ptcb); InsertToTCBRdyList(ptcb)`. -/
def reorderReady (cfg : Env) (s : Kernel) (t : Nat) : Option Kernel := do
  let s ← removeFromTCBRdyList cfg s t
  insertToTCBRdyList cfg s t

/-- Is `t` the owner of the mutex in its `mutexID`? -/
def holdsMutex (s : Kernel) (t : Nat) : Prop :=
  s.mutexID t ≠ INVALID_ID ∧ s.mutexTaskID (s.mutexID t) = t

instance (s : Kernel) (t : Nat) : Decidable (holdsMutex s t) :=
  inferInstanceAs (Decidable (_ ∧ _))

/-- `CoSetPriority`, with the nesting depth as fuel. -/
def coSetPriorityN (cfg : Env) : Nat → Kernel → Nat → Nat → Option (Kernel × StatusType)
  | 0, _, _, _ => none
  | depth + 1, s, taskID, priority =>
    if taskID = 0 then some (s, .E_PROTECTED_TASK)
    else if cfg.tasks ≤ taskID then some (s, .E_INVALID_ID)
    else if s.state taskID = .DORMANT then some (s, .E_INVALID_ID)
    else if cfg.lowestPrio < priority then some (s, .E_INVALID_ID)
    else if s.prio taskID = priority then some (s, .E_OK)
    else
      let mid := s.mutexID taskID
      let s' := if holdsMutex s taskID then
        { s with originalPrio := update s.originalPrio mid priority } else s
      if holdsMutex s taskID ∧ s.prio taskID < priority then some (s', .E_OK)
      else do
        let s ← changeTaskPri cfg s' (s'.prio taskID) priority
        let s := { s with prio := update s.prio taskID priority }
        match s.state taskID with
        | .READY =>
          let s ← reorderReady cfg (osSchedLock s) taskID
          let s ← osSchedUnlock cfg s
          some (s, .E_OK)
        | .RUNNING =>
          if prioOf cfg s s.TCBRdy < s.prio taskID then
            let s ← osSchedUnlock cfg { osSchedLock s with TaskSchedReq := true }
            some (s, .E_OK)
          else some (s, .E_OK)
        | _ =>
          let s ← if mid ≠ INVALID_ID then do
              let s := osSchedLock s
              let (prio, hipri) ← hipriWaiter s cfg.tasks (s.waittingList mid)
                (s.originalPrio mid) (s.mutexTaskID mid)
              let s ← osSchedUnlock cfg { s with hipriTaskID := update s.hipriTaskID mid hipri }
              if s.originalPrio mid ≠ prio then do
                let (s, _) ← coSetPriorityN cfg depth s (s.mutexTaskID mid) prio
                some s
              else some s
            else some s
          let s ← if s.eventID taskID ≠ INVALID_ID then reorderWaiting cfg s taskID else some s
          some (s, .E_OK)

/-- `CoSetPriority`. -/
def coSetPriority (cfg : Env) (s : Kernel) (taskID priority : Nat) :
    Option (Kernel × StatusType) :=
  coSetPriorityN cfg (cfg.tasks + 1) s taskID priority

/-- `CoCreateMutex`. -/
def coCreateMutex (cfg : Env) (s : Kernel) : Option (Kernel × Nat) :=
  let id := s.MutexFreeID
  if id < cfg.maxMutex then do
    let s ← osSchedUnlock cfg { osSchedLock s with MutexFreeID := id + 1 }
    some ({ s with
      hipriTaskID := update s.hipriTaskID id INVALID_ID
      originalPrio := update s.originalPrio id 0xff
      mutexOccupied := update s.mutexOccupied id false
      mutexTaskID := update s.mutexTaskID id INVALID_ID
      waittingList := update s.waittingList id none }, id)
  else do
    let s ← osSchedUnlock cfg (osSchedLock s)
    some (s, INVALID_ID)

/-- The walk to the last waiter: `while(ptcb->TCBnext != Co_NULL)`. -/
def lastInChain (s : Kernel) : Nat → Nat → Option Nat
  | 0, _ => none
  | fuel + 1, t =>
    match s.TCBnext t with
    | none => some t
    | some n => lastInChain s fuel n

/-- The promotion of the owner `o` in `CoEnterMutexSection` to the priority of `cur`. -/
def promoteOwner (cfg : Env) (s : Kernel) (m o cur : Nat) : Option Kernel := do
  let s ← changeTaskPri cfg s (s.prio o) (s.prio cur)
  let s := { s with
    prio := update s.prio o (s.prio cur)
    hipriTaskID := update s.hipriTaskID m cur }
  if s.state o = .READY then reorderReady cfg s o
  else if s.eventID o ≠ INVALID_ID then reorderWaiting cfg s o
  else some s

/-- The blocking of `cur` in `CoEnterMutexSection`: it is put at the tail of the list. -/
def blockOnMutex (cfg : Env) (s : Kernel) (m cur : Nat) : Option Kernel :=
  let s := { s with
    state := update s.state cur .WAITING
    TaskSchedReq := true
    TCBnext := update s.TCBnext cur none
    TCBprev := update s.TCBprev cur none }
  match s.waittingList m with
  | none => some { s with waittingList := update s.waittingList m (some cur) }
  | some h => do
    let p ← lastInChain s cfg.tasks h
    some { s with
      TCBnext := update (update s.TCBnext p (some cur)) cur none
      TCBprev := update s.TCBprev cur (some p) }

/-- `CoEnterMutexSection`. -/
def coEnterMutexSection (cfg : Env) (s : Kernel) (m : Nat) : Option (Kernel × StatusType) :=
  if 0 < s.OSIntNesting then some (s, .E_CALL)
  else if s.OSSchedLock ≠ 0 then some (s, .E_OS_IN_LOCK)
  else if s.MutexFreeID ≤ m then some (s, .E_INVALID_ID)
  else
    match s.TCBRunning with
    | none => none
    | some cur => do
      let s := osSchedLock s
      let s := { s with mutexID := update s.mutexID cur m }
      let s ← if ¬ s.mutexOccupied m then
          some { s with
            originalPrio := update s.originalPrio m (s.prio cur)
            mutexTaskID := update s.mutexTaskID m cur
            hipriTaskID := update s.hipriTaskID m cur
            mutexOccupied := update s.mutexOccupied m true }
        else do
          let o := s.mutexTaskID m
          let s ← if s.prio cur < s.prio o then promoteOwner cfg s m o cur else some s
          blockOnMutex cfg s m cur
      let s ← osSchedUnlock cfg s
      some (s, .E_OK)

/-- The priority that `CoLeaveMutexSection` hands on: that of the most urgent waiter when
    the owner was not promoted, else the owner's own. -/
def handOnPrio (cfg : Env) (s : Kernel) (m owner h : Nat) : Option (Nat × Nat) :=
  if s.hipriTaskID m = owner then
    hipriWaiter s cfg.tasks (some h) (s.prio h) (s.hipriTaskID m)
  else some (s.prio owner, s.hipriTaskID m)

/-- `CoLeaveMutexSection`. -/
def coLeaveMutexSection (cfg : Env) (s : Kernel) (m : Nat) : Option (Kernel × StatusType) :=
  if 0 < s.OSIntNesting then some (s, .E_CALL)
  else if s.MutexFreeID ≤ m then some (s, .E_INVALID_ID)
  else
    let s := osSchedLock s
    let owner := s.mutexTaskID m
    let s := { s with mutexID := update s.mutexID owner INVALID_ID }
    match s.waittingList m with
    | none => do
      let s ← osSchedUnlock cfg { s with
        mutexOccupied := update s.mutexOccupied m false
        mutexTaskID := update s.mutexTaskID m INVALID_ID }
      some (s, .E_OK)
    | some h => do
      let (prio, hipri) ← handOnPrio cfg s m owner h
      let s := { s with
        hipriTaskID := update s.hipriTaskID m hipri
        mutexTaskID := update s.mutexTaskID m INVALID_ID }
      let (s, _) ← coSetPriority cfg s owner (s.originalPrio m)
      match s.waittingList m with
      | none => none
      | some t =>
        let s := { s with
          waittingList := update s.waittingList m (s.TCBnext t)
          originalPrio := update s.originalPrio m (s.prio t)
          mutexTaskID := update s.mutexTaskID m t }
        let s ← if prio ≠ s.prio t then changeTaskPri cfg s (s.prio t) prio else some s
        let s := { s with
          prio := update s.prio t prio
          TCBnext := update s.TCBnext t none
          TCBprev := update s.TCBprev t none }
        let s ← insertToTCBRdyList cfg s t
        let s ← osSchedUnlock cfg s
        some (s, .E_OK)

/-- `RemoveMutexList`. The head case does not move `waittingList`. -/
def removeMutexList (cfg : Env) (s : Kernel) (t : Nat) : Option Kernel :=
  let m := s.mutexID t
  let s := match s.TCBnext t, s.TCBprev t with
    | none, none => { s with waittingList := update s.waittingList m none }
    | none, some p => { s with
        TCBnext := update s.TCBnext p none, TCBprev := update s.TCBprev t none }
    | some n, none => { s with
        TCBprev := update s.TCBprev n none, TCBnext := update s.TCBnext t none }
    | some n, some p => { s with
        TCBprev := update (update s.TCBprev n (some p)) t none
        TCBnext := update (update s.TCBnext p (some n)) t none }
  let s := { s with mutexID := update s.mutexID t INVALID_ID }
  if s.hipriTaskID m = t then do
    let owner := s.mutexTaskID m
    let (prio, hipri) ← hipriWaiter s cfg.tasks (s.waittingList m) (s.originalPrio m) owner
    let s := { s with
      hipriTaskID := update s.hipriTaskID m hipri
      mutexTaskID := update s.mutexTaskID m INVALID_ID }
    let (s, _) ← coSetPriority cfg s owner prio
    some { s with mutexTaskID := update s.mutexTaskID m owner }
  else some s

end CoOS
