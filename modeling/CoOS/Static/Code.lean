/-
  Static task scheduling (`CFG_TASK_SCHEDULE_EN` = 0) with binary scheduling: the code, and what
  it inserts into the ready list.

  In this model no task is created after `CoStartOS`. A task that has ended keeps its TCB, is
  DORMANT, and can be started again with `CoActivateTask`. `CoDelTask` takes it out of the table
  of priorities (`DeleteTaskPri`) as in the dynamic model; `CoActivateTask` puts it in the ready
  list without `ActiveTaskPri`.
-/
import CoOS.Run.Boot

namespace CoOS

open Function (update)

/-! ## The code of the static model -/

namespace Static

/-- The part of `CoDelTask` for a waiting task. There are no mutexes in this model. -/
def leaveWaiting (s : Kernel) (t : Nat) : Option Kernel :=
  let s := if s.delayTick t ≠ INVALID_VALUE then removeDelayList s t else s
  let s := if s.eventID t ≠ INVALID_ID then removeEventWaittingList s t else s
  unlinkFlagNode s t

/-- `CoDelTask`. The TCB does not go back to `FreeTCB`. -/
def coDelTask (cfg : Env) (s : Kernel) (taskID : Nat) : Option (Kernel × StatusType) :=
  if cfg.tasks ≤ taskID then some (s, .E_INVALID_ID)
  else if s.state taskID = .DORMANT then some (s, .E_INVALID_ID)
  else if taskID = 0 then some (s, .E_PROTECTED_TASK)
  else if s.state taskID = .RUNNING ∧ s.OSSchedLock ≠ 0 then some (s, .E_OS_IN_LOCK)
  else do
    let s := osSchedLock s
    let s ← match s.state taskID with
      | .READY => removeFromTCBRdyList cfg s taskID
      | .WAITING => leaveWaiting s taskID
      | _ => some s
    let s := { s with state := update s.state taskID .DORMANT, TaskSchedReq := true }
    let s ← if cfg.orderListScheduleEn then some s else deleteTaskPri s (s.prio taskID)
    let s ← osSchedUnlock cfg s
    some (s, .E_OK)

/-- `CoExitTask`. -/
def coExitTask (cfg : Env) (s : Kernel) : Option (Kernel × StatusType) :=
  match s.TCBRunning with
  | none => none
  | some r => coDelTask cfg s r

/-- `CoActivateTask`. The context that it prepares on the stack is outside the model. -/
def coActivateTask (cfg : Env) (s : Kernel) (taskID : Nat) : Option (Kernel × StatusType) :=
  if cfg.tasks ≤ taskID then some (s, .E_INVALID_ID)
  else if ¬ s.hasStk taskID then some (s, .E_INVALID_ID)
  else if s.state taskID ≠ .DORMANT then some (s, .E_OK)
  else do
    let s ← insertToTCBRdyList cfg (osSchedLock s) taskID
    let s ← osSchedUnlock cfg s
    some (s, .E_OK)

/-- What happens: the running task makes a call, or `SysTick_Handler` comes. -/
inductive Op where
  | delTask (t : Nat)
  | exitTask
  | activateTask (t : Nat)
  | tick
  deriving DecidableEq, Repr

/-- With the context switch at the end. -/
def Op.exec (cfg : Env) (k : Kernel) : Op → Option Kernel
  | .delTask t => (coDelTask cfg k t).map fun x => takeSwitch x.1
  | .exitTask => (coExitTask cfg k).map fun x => takeSwitch x.1
  | .activateTask t => (coActivateTask cfg k t).map fun x => takeSwitch x.1
  | .tick => (sysTick_Handler cfg k).map takeSwitch

/-- The operation concerns one of the tasks `B` that were created. -/
def Op.On (B : List Nat) : Op → Prop
  | .delTask t | .activateTask t => t ∈ B
  | .exitTask | .tick => True

instance (B : List Nat) (op : Op) : Decidable (op.On B) :=
  match op with
  | .delTask t | .activateTask t => inferInstanceAs (Decidable (t ∈ B))
  | .exitTask | .tick => inferInstanceAs (Decidable True)

/-! ## What is inserted -/

/-- The executions of `InsertToTCBRdyList`: the state and the task. -/
abbrev Inserts := List (Kernel × Nat)

/-- What is inserted after a computation, if it gets that far. -/
def insertsAfter (x : Option Kernel) (f : Kernel → Inserts) : Inserts := (x.map f).getD []

theorem insertsAfter_all {x : Option Kernel} {k : Kernel} {f : Kernel → Inserts}
    {P : Kernel × Nat → Prop} (hx : x = some k) (h : ∀ y ∈ f k, P y) :
    ∀ y ∈ insertsAfter x f, P y := hx ▸ h

/-- `Schedule` puts the running task back when it is preempted. -/
def scheduleInserts (cfg : Env) (s : Kernel) : Inserts :=
  match s.TCBRdy, s.TCBRunning with
  | some rdy, some cur =>
    if s.TCBRunning ≠ s.TCBNext ∨ 1 < s.OSSchedLock ∨ 0 < s.OSIntNesting then []
    else if s.state cur ≠ .RUNNING then []
    else if s.prio rdy < s.prio cur ∨
        (cfg.robinEn ∧ s.prio cur = s.prio rdy ∧ s.OSCheckTime = s.OSTickCnt) then
      [({ s with TaskSchedReq := false, TCBNext := some rdy }, cur)]
    else []
  | _, _ => []

/-- `OsSchedUnlock`; nothing is deferred in these runs. -/
def unlockInserts (cfg : Env) (s : Kernel) : Inserts :=
  if s.OSSchedLock = 1 ∧ s.TaskSchedReq then scheduleInserts cfg s else []

def delTaskInserts (cfg : Env) (s : Kernel) (taskID : Nat) : Inserts :=
  if cfg.tasks ≤ taskID ∨ s.state taskID = .DORMANT ∨ taskID = 0 ∨
      (s.state taskID = .RUNNING ∧ s.OSSchedLock ≠ 0) then []
  else
    insertsAfter (match s.state taskID with
      | .READY => removeFromTCBRdyList cfg (osSchedLock s) taskID
      | .WAITING => leaveWaiting (osSchedLock s) taskID
      | _ => some (osSchedLock s)) fun s =>
    let s := { s with state := update s.state taskID .DORMANT, TaskSchedReq := true }
    insertsAfter (if cfg.orderListScheduleEn then some s else deleteTaskPri s (s.prio taskID))
      (unlockInserts cfg)

def activateTaskInserts (cfg : Env) (s : Kernel) (taskID : Nat) : Inserts :=
  if cfg.tasks ≤ taskID ∨ ¬ s.hasStk taskID ∨ s.state taskID ≠ .DORMANT then []
  else (osSchedLock s, taskID) ::
    insertsAfter (insertToTCBRdyList cfg (osSchedLock s) taskID) (unlockInserts cfg)

/-- `TimeDispose`. -/
def timeDisposeInserts (cfg : Env) : Nat → Kernel → Inserts
  | 0, _ => []
  | fuel + 1, s =>
    match s.DlyList with
    | none => []
    | some t =>
      if s.delayTick t ≠ 0 then []
      else
        let s := if s.eventID t ≠ INVALID_ID then removeEventWaittingList s t else s
        let s := dropFlagNode s t
        let s := { s with
          delayTick := update s.delayTick t INVALID_VALUE
          DlyList := s.TCBnext t
          TCBnext := update s.TCBnext t none }
        (s, t) :: insertsAfter (insertToTCBRdyList cfg s t) fun s =>
          timeDisposeInserts cfg fuel (match s.DlyList with
            | none => s
            | some h => { s with TCBprev := update s.TCBprev h none })

def sysTickInserts (cfg : Env) (s : Kernel) : Inserts :=
  let s := { osSchedLock s with OSTickCnt := s.OSTickCnt + 1 }
  (match s.DlyList with
    | none => []
    | some h =>
      if 1 < s.delayTick h ∨ 1 < s.OSSchedLock then []
      else timeDisposeInserts cfg cfg.tasks { s with delayTick := update s.delayTick h 0 }) ++
    insertsAfter ((sysTickDelay cfg s).bind (sysTickTmr cfg)) fun s =>
      unlockInserts cfg { s with TaskSchedReq := true }

def Op.inserts (cfg : Env) (k : Kernel) : Op → Inserts
  | .delTask t => delTaskInserts cfg k t
  | .exitTask => (k.TCBRunning.map fun r => delTaskInserts cfg k r).getD []
  | .activateTask t => activateTaskInserts cfg k t
  | .tick => sysTickInserts cfg k

/-! ## The property -/

/-- The priority of `t` is one of `ActivePri[0..PriNum-1]`. -/
def Listed (s : Kernel) (t : Nat) : Prop := ∃ i, i < s.PriNum ∧ s.ActivePri i = s.prio t

instance (s : Kernel) (t : Nat) : Decidable (Listed s t) :=
  inferInstanceAs (Decidable (∃ i, i < s.PriNum ∧ _))

/-- The number of activated tasks of the priority `p`, among the tasks `B`. -/
def activated (cfg : Env) (B : List Nat) (k : Kernel) (p : Nat) : Nat :=
  ((Finset.range cfg.tasks).filter fun t => (t ∈ B ∧ k.state t ≠ .DORMANT) ∧ k.prio t = p).card

/-- Every entry of `TaskNumPerPri` is the number of activated tasks of its priority, and every
    activated task has an entry. -/
def Counted (cfg : Env) (B : List Nat) (k : Kernel) : Prop :=
  (∀ i, i < k.PriNum → k.TaskNumPerPri i = activated cfg B k (k.ActivePri i)) ∧
    ∀ t ∈ B, k.state t ≠ .DORMANT → Listed k t

instance (cfg : Env) (B : List Nat) (k : Kernel) : Decidable (Counted cfg B k) :=
  inferInstanceAs (Decidable ((∀ i, i < k.PriNum → _) ∧ _))

/-- The run `ops` goes through, the counts are right in every state between two operations, and the
    priority of whoever is inserted is listed. -/
def Maintains (cfg : Env) (B : List Nat) : Kernel → List Op → Prop
  | k, [] => Counted cfg B k
  | k, op :: ops => Counted cfg B k ∧ (∀ x ∈ op.inserts cfg k, Listed x.1 x.2) ∧
    match op.exec cfg k with
    | none => False
    | some k' => Maintains cfg B k' ops

instance decMaintains (cfg : Env) (B : List Nat) : (ops : List Op) → (k : Kernel) →
    Decidable (Maintains cfg B k ops)
  | [], k => inferInstanceAs (Decidable (Counted cfg B k))
  | op :: ops, k => by
    unfold Maintains
    refine @instDecidableAnd _ _ _ (@instDecidableAnd _ _ _ ?_)
    cases op.exec cfg k with
    | none => exact inferInstanceAs (Decidable False)
    | some k' => exact decMaintains cfg B ops k'

/-- `CoActivateTask` of a task that has ended. -/
def Op.Reactivates (k : Kernel) : Op → Prop
  | .activateTask t => k.state t = .DORMANT
  | _ => False

/-- No task is started again. -/
def NoReactivation (cfg : Env) : Kernel → List Op → Prop
  | _, [] => True
  | k, op :: ops => ¬ op.Reactivates k ∧
    match op.exec cfg k with
    | none => True
    | some k' => NoReactivation cfg k' ops

instance (k : Kernel) (op : Op) : Decidable (op.Reactivates k) :=
  match op with
  | .activateTask _ => inferInstanceAs (Decidable (_ = _))
  | .delTask _ | .exitTask | .tick => inferInstanceAs (Decidable False)

instance decNoReactivation (cfg : Env) : (ops : List Op) → (k : Kernel) →
    Decidable (NoReactivation cfg k ops)
  | [], _ => inferInstanceAs (Decidable True)
  | op :: ops, k => by
    unfold NoReactivation
    refine @instDecidableAnd _ _ _ ?_
    cases op.exec cfg k with
    | none => exact inferInstanceAs (Decidable True)
    | some k' => exact decNoReactivation cfg ops k'

end Static

end CoOS
