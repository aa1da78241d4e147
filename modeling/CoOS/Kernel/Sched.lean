/-
  The ready list and the scheduler: `InsertToTCBRdyList`, `RemoveFromTCBRdyList` and
  `Schedule` of `task.c`, `OsSchedLock` and `OsSchedUnlock` of `core.c`, and the context
  switch that `SwitchContext` requests (`PendSV_Handler` of the port).

  Both builds are here. `cfg.orderListScheduleEn` is `CFG_ORDER_LIST_SCHEDULE_EN`: with it
  the insertion point is found by walking the list, without it through the priority table.

  A walk along `TCBnext` is given as many steps as there are TCBs and returns `none` when it
  has not ended by then, so `none` stands for a list that runs in a circle.
-/
import CoOS.Kernel.PrioTable

namespace CoOS

open Function (update)

/-- The walk of the ordered-list build: `ptcb` and `ptcbNext` where the loop stops. -/
def findRdyPlace (s : Kernel) (prio : Nat) : Nat → Nat → Option Nat → Option (Nat × Option Nat)
  | _, ptcb, none => some (ptcb, none)
  | 0, _, some _ => none
  | fuel + 1, ptcb, some nxt =>
    if prio < s.prio nxt then some (ptcb, some nxt)
    else findRdyPlace s prio fuel nxt (s.TCBnext nxt)

/-- The `CFG_ROBIN_EN` part of `InsertToTCBRdyList`. Through a null `TCBRunning` the code
    reads a byte and then does nothing. -/
def robinCheck (cfg : Env) (s : Kernel) (t : Nat) : Kernel :=
  match s.TCBRunning with
  | none => s
  | some r =>
    if cfg.robinEn ∧ s.prio t = s.prio r ∧ r ≠ t ∧ s.OSCheckTime < s.OSTickCnt then
      { s with OSCheckTime := s.OSTickCnt + s.timeSlice r }
    else s

/-- `InsertToTCBRdyList` after the robin check, ordered-list build. -/
def insertOrdered (cfg : Env) (s : Kernel) (t : Nat) : Option Kernel :=
  match s.TCBRdy with
  | none => some { s.setRdyLinks (s.rdyLinks.pushFront t) with TaskSchedReq := true }
  | some h =>
    if s.prio t < s.prio h then
      some { s.setRdyLinks (s.rdyLinks.pushFront t) with TaskSchedReq := true }
    else do
      let (ptcb, _) ← findRdyPlace s (s.prio t) cfg.tasks h (s.TCBnext h)
      some (s.setRdyLinks (s.rdyLinks.insertAfter ptcb t))

/-- `InsertToTCBRdyList` after the robin check, binary-scheduling build. -/
def insertBinary (s : Kernel) (t : Nat) : Option Kernel := do
  let (_, seqNum) ← getPriSeqNum s (s.prio t)
  if getPrioSeqNumStatus s seqNum then
    let ptcb := s.RdyTaskPri seqNum
    let s' := { s with RdyTaskPri := update s.RdyTaskPri seqNum t }
    some (s'.setRdyLinks (s'.rdyLinks.insertAfter ptcb t))
  else
    let s' := { s with RdyTaskPri := update s.RdyTaskPri seqNum t }
    let rdyTaskSeqNum := getRdyPriSeqNum s' seqNum
    let s' := setPrioSeqNumStatus s' seqNum true
    if rdyTaskSeqNum = INVALID_ID then
      some { s'.setRdyLinks (s'.rdyLinks.pushFront t) with TaskSchedReq := true }
    else
      some (s'.setRdyLinks (s'.rdyLinks.insertAfter (s'.RdyTaskPri rdyTaskSeqNum) t))

/-- `InsertToTCBRdyList`. -/
def insertToTCBRdyList (cfg : Env) (s : Kernel) (t : Nat) : Option Kernel :=
  let s := robinCheck cfg { s with state := update s.state t .READY } t
  if cfg.orderListScheduleEn then insertOrdered cfg s t else insertBinary s t

/-- The index upkeep of `RemoveFromTCBRdyList` in the binary build: what becomes of the
    entry `seqNum` of `ptcb`'s priority, judged by the neighbours of `ptcb`. -/
def removeIndex (cfg : Env) (s : Kernel) (seqNum t : Nat) : Kernel :=
  let prio := s.prio t
  let clear := setPrioSeqNumStatus
    { s with RdyTaskPri := update s.RdyTaskPri seqNum INVALID_ID } seqNum false
  let back p := { s with RdyTaskPri := update s.RdyTaskPri seqNum p }
  match s.TCBnext t, s.TCBprev t with
  | none, none => clear
  | some n, none => if prioOf cfg s (some n) ≠ prio then clear else s
  | none, some p => if prioOf cfg s (some p) ≠ prio then clear else back p
  | some n, some p =>
    if s.prio p ≠ prio ∧ s.prio n ≠ prio then clear
    else if s.prio p = prio ∧ s.prio n ≠ prio then back p
    else s

/-- `RemoveFromTCBRdyList`. -/
def removeFromTCBRdyList (cfg : Env) (s : Kernel) (t : Nat) : Option Kernel :=
  if cfg.orderListScheduleEn then some (s.setRdyLinks (s.rdyLinks.unlink t))
  else do
    let (_, seqNum) ← getPriSeqNum s (s.prio t)
    let s' := removeIndex cfg s seqNum t
    some (s'.setRdyLinks (s'.rdyLinks.unlink t))

/-- The end of `Schedule`: `OSCheckTime` is reset when the new running task shares its
    priority with the head of the ready list, then the switch is requested. -/
def resetCheckTime (cfg : Env) (s : Kernel) (next : Nat) : Kernel :=
  if cfg.robinEn ∧ s.prio next = prioOf cfg s s.TCBRdy then
    { s with OSCheckTime := s.OSTickCnt + s.timeSlice next }
  else s

/-- Give the CPU to `rdy`, putting the running task back in the ready list. -/
def preempt (cfg : Env) (s : Kernel) (cur rdy : Nat) : Option Kernel := do
  let s ← insertToTCBRdyList cfg { s with TCBNext := some rdy } cur
  let s ← removeFromTCBRdyList cfg s rdy
  some (resetCheckTime cfg { s with state := update s.state rdy .RUNNING } rdy)

/-- `Schedule`. The stack check is outside the model. -/
def schedule (cfg : Env) (s : Kernel) : Option Kernel :=
  match s.TCBRdy, s.TCBRunning with
  | some rdy, some cur =>
    if s.TCBRunning ≠ s.TCBNext ∨ 1 < s.OSSchedLock ∨ 0 < s.OSIntNesting then some s
    else
      let s := { s with TaskSchedReq := false }
      if s.state cur ≠ .RUNNING then do
        let s ← removeFromTCBRdyList cfg
          { s with TCBNext := some rdy, state := update s.state rdy .RUNNING } rdy
        some (resetCheckTime cfg s rdy)
      else if s.prio rdy < s.prio cur then preempt cfg s cur rdy
      else if cfg.robinEn ∧ s.prio cur = s.prio rdy ∧ s.OSCheckTime = s.OSTickCnt then
        preempt cfg s cur rdy
      else some s
  | _, _ => some s

/-- `OsSchedLock`. -/
def osSchedLock (s : Kernel) : Kernel := { s with OSSchedLock := s.OSSchedLock + 1 }

/-- `OsSchedUnlock`. -/
def osSchedUnlock (cfg : Env) (s : Kernel) : Option Kernel :=
  if s.OSSchedLock = 1 then do
    let s ← if s.IsrReq then cfg.respondSRQ s else some s
    let s ← if s.TaskSchedReq then schedule cfg s else some s
    some { s with OSSchedLock := 0 }
  else some { s with OSSchedLock := s.OSSchedLock - 1 }

/-- `OsSchedUnlock` inside a section that is locked more than once. -/
theorem osSchedUnlock_nested (cfg : Env) {s : Kernel} (hl : s.OSSchedLock ≠ 1) :
    osSchedUnlock cfg s = some { s with OSSchedLock := s.OSSchedLock - 1 } := by
  unfold osSchedUnlock
  rw [if_neg hl]

/-- Without a deferred request. -/
theorem osSchedUnlock_eq (cfg : Env) {s : Kernel} (hi : s.IsrReq = false) :
    osSchedUnlock cfg s =
      if s.OSSchedLock = 1 then
        (if s.TaskSchedReq then schedule cfg s else some s).map fun s => { s with OSSchedLock := 0 }
      else some { s with OSSchedLock := s.OSSchedLock - 1 } := by
  have hn : ¬ s.IsrReq = true := by
    rw [hi]
    decide
  unfold osSchedUnlock
  simp only [if_neg hn, Option.bind_eq_bind, Option.bind_some]
  congr 1
  split
  · cases schedule cfg s with
    | none => rfl
    | some s' => rfl
  · rfl

/-- `PendSV_Handler`, when `SwitchContext` has requested it: the switch to `TCBNext`. -/
def takeSwitch (s : Kernel) : Kernel :=
  if s.TCBRunning = s.TCBNext then s else { s with TCBRunning := s.TCBNext, OSSchedLock := 0 }

end CoOS
