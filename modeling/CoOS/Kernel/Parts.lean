/-
  The functions about priorities and mutexes in parts: what comes between their unlocks and their
  nested calls has a name here, and each function is shown to be put together from these.
-/
import CoOS.Kernel.Task

namespace CoOS

open Function (update)

/-! ## CoSetPriority -/

/-- The checks of `CoSetPriority`, and the comparison with the old priority. -/
def priorityChecked (cfg : Env) (s : Kernel) (t p : Nat) : Option StatusType :=
  if t = 0 then some .E_PROTECTED_TASK
  else if cfg.tasks ≤ t then some .E_INVALID_ID
  else if s.state t = .DORMANT then some .E_INVALID_ID
  else if cfg.lowestPrio < p then some .E_INVALID_ID
  else if s.prio t = p then some .E_OK
  else none

/-- The priority that the owner of `m` gets from the waiting tasks. -/
def passOn (cfg : Env) (depth : Nat) (s : Kernel) (m : Nat) : Option Kernel :=
  (hipriWaiter (osSchedLock s) cfg.tasks (s.waittingList m) (s.originalPrio m)
    (s.mutexTaskID m)).bind fun x =>
    (osSchedUnlock cfg
      { osSchedLock s with hipriTaskID := update s.hipriTaskID m x.2 }).bind fun s =>
      if s.originalPrio m ≠ x.1 then (coSetPriorityN cfg depth s (s.mutexTaskID m) x.1).map Prod.fst
      else some s

/-- What follows the change of `prio`: the task moves in the list that it is in. -/
def reorderTask (cfg : Env) (depth : Nat) (s : Kernel) (t m : Nat) : Option Kernel :=
  match s.state t with
  | .READY => (reorderReady cfg (osSchedLock s) t).bind (osSchedUnlock cfg)
  | .RUNNING =>
    if prioOf cfg s s.TCBRdy < s.prio t then osSchedUnlock cfg
      { osSchedLock s with TaskSchedReq := true }
    else some s
  | _ => (if m ≠ INVALID_ID then passOn cfg depth s m else some s).bind fun s =>
    if s.eventID t ≠ INVALID_ID then reorderWaiting cfg s t else some s

/-- `originalPrio = priority`, when the task owns a mutex. -/
def setOriginal (s : Kernel) (t p : Nat) : Kernel :=
  if holdsMutex s t then { s with originalPrio := update s.originalPrio (s.mutexID t) p } else s

theorem passOn_map {α : Type} (cfg : Env) (depth : Nat) (s : Kernel) (m : Nat)
    (f : Kernel → Option α) :
    (do
      let s1 := osSchedLock s
      let (prio, hipri) ← hipriWaiter s1 cfg.tasks (s1.waittingList m) (s1.originalPrio m)
        (s1.mutexTaskID m)
      let s2 ← osSchedUnlock cfg { s1 with hipriTaskID := update s1.hipriTaskID m hipri }
      if s2.originalPrio m ≠ prio then do
        let (s3, _) ← coSetPriorityN cfg depth s2 (s2.mutexTaskID m) prio
        f s3
      else f s2) = (passOn cfg depth s m).bind f := by
  unfold passOn
  change (hipriWaiter (osSchedLock s) cfg.tasks (s.waittingList m) (s.originalPrio m)
    (s.mutexTaskID m)).bind _ = _
  rw [Option.bind_assoc]
  congr 1
  funext x
  change (osSchedUnlock cfg
    { osSchedLock s with hipriTaskID := update s.hipriTaskID m x.2 }).bind _ = _
  rw [Option.bind_assoc]
  congr 1
  funext s2
  split
  · cases coSetPriorityN cfg depth s2 (s2.mutexTaskID m) x.1 with
    | none => rfl
    | some y => rfl
  · rfl

theorem reorderEvent_map (cfg : Env) (s : Kernel) (t : Nat) :
    (if s.eventID t ≠ INVALID_ID then do
      let s ← reorderWaiting cfg s t
      some (s, StatusType.E_OK)
    else some (s, .E_OK)) =
      (if s.eventID t ≠ INVALID_ID then reorderWaiting cfg s t else some s).map fun s =>
        (s, .E_OK) := by
  split
  · exact (Option.map_eq_bind ..).symm
  · rfl

theorem coSetPriorityN_parts (cfg : Env) (depth : Nat) (s : Kernel) (t p : Nat) :
    coSetPriorityN cfg (depth + 1) s t p = match priorityChecked cfg s t p with
      | some st => some (s, st)
      | none =>
        if holdsMutex s t ∧ s.prio t < p then some (setOriginal s t p, .E_OK)
        else (changeTaskPri cfg (setOriginal s t p) ((setOriginal s t p).prio t) p).bind fun s1 =>
          (reorderTask cfg depth { s1 with prio := update s1.prio t p } t (s.mutexID t)).map
          fun s2 =>
            (s2, .E_OK) := by
  unfold coSetPriorityN priorityChecked
  by_cases h1 : t = 0
  · rw [if_pos h1, if_pos h1]
  rw [if_neg h1, if_neg h1]
  by_cases h2 : cfg.tasks ≤ t
  · rw [if_pos h2, if_pos h2]
  rw [if_neg h2, if_neg h2]
  by_cases h3 : s.state t = .DORMANT
  · rw [if_pos h3, if_pos h3]
  rw [if_neg h3, if_neg h3]
  by_cases h4 : cfg.lowestPrio < p
  · rw [if_pos h4, if_pos h4]
  rw [if_neg h4, if_neg h4]
  by_cases h5 : s.prio t = p
  · rw [if_pos h5, if_pos h5]
  rw [if_neg h5, if_neg h5]
  change (if holdsMutex s t ∧ s.prio t < p then some (setOriginal s t p, StatusType.E_OK) else
    (changeTaskPri cfg (setOriginal s t p) ((setOriginal s t p).prio t) p).bind _) = _
  congr 2
  funext s1
  generalize { s1 with prio := update s1.prio t p } = s2
  -- a task that does not run and is not ready
  have hwait : (if s.mutexID t ≠ INVALID_ID then (passOn cfg depth s2 (s.mutexID t)).bind fun s3 =>
        if s3.eventID t ≠ INVALID_ID then (reorderWaiting cfg s3 t).bind fun s =>
          some (s, StatusType.E_OK)
        else some (s3, .E_OK)
      else if s2.eventID t ≠ INVALID_ID then (reorderWaiting cfg s2 t).bind fun s =>
        some (s, StatusType.E_OK)
        else some (s2, .E_OK)) =
      ((if s.mutexID t ≠ INVALID_ID then passOn cfg depth s2
        (s.mutexID t) else some s2).bind fun s3 =>
        if s3.eventID t ≠ INVALID_ID then reorderWaiting cfg s3 t else some s3).map fun s =>
          (s, StatusType.E_OK) := by
    split
    · rw [Option.map_bind]
      congr 1
      funext s3
      exact reorderEvent_map cfg s3 t
    · exact reorderEvent_map cfg s2 t
  have hstep := passOn_map cfg depth s2 (s.mutexID t) fun s3 =>
    if s3.eventID t ≠ INVALID_ID then (reorderWaiting cfg s3 t).bind fun s =>
      some (s, StatusType.E_OK)
    else some (s3, .E_OK)
  unfold reorderTask
  dsimp only
  cases s2.state t with
  | READY =>
    cases reorderReady cfg (osSchedLock s2) t with
    | none => rfl
    | some s3 => exact (Option.map_eq_bind ..).symm
  | RUNNING =>
    dsimp only
    split
    · exact (Option.map_eq_bind ..).symm
    · rfl
  | WAITING =>
    exact Eq.trans (if_congr Iff.rfl hstep rfl) hwait
  | DORMANT =>
    exact Eq.trans (if_congr Iff.rfl hstep rfl) hwait

theorem priorityChecked_none {cfg : Env} {s : Kernel} {t p : Nat}
    (h : priorityChecked cfg s t p = none) :
    t ≠ 0 ∧ t < cfg.tasks ∧ s.state t ≠ .DORMANT ∧ p ≤ cfg.lowestPrio ∧ s.prio t ≠ p := by
  unfold priorityChecked at h
  split at h
  · exact nomatch h
  split at h
  · exact nomatch h
  split at h
  · exact nomatch h
  split at h
  · exact nomatch h
  split at h
  · exact nomatch h
  next h1 h2 h3 h4 h5 => exact ⟨h1, Nat.lt_of_not_le h2, h3, Nat.le_of_not_lt h4, h5⟩

/-! ## Mutexes -/

/-- A free mutex gets its owner. -/
def occupyMutex (s : Kernel) (m cur : Nat) : Kernel :=
  { s with
    originalPrio := update s.originalPrio m (s.prio cur)
    mutexTaskID := update s.mutexTaskID m cur
    hipriTaskID := update s.hipriTaskID m cur
    mutexOccupied := update s.mutexOccupied m true }

/-- What `CoEnterMutexSection` does with the mutex. -/
def takeMutex (cfg : Env) (s : Kernel) (m cur : Nat) : Option Kernel :=
  if s.mutexOccupied m then
    (if s.prio cur < s.prio (s.mutexTaskID m) then promoteOwner cfg s m (s.mutexTaskID m) cur
      else some s).bind fun s => blockOnMutex cfg s m cur
  else some (occupyMutex s m cur)

theorem takeMutex_bind (cfg : Env) (s : Kernel) (m cur : Nat) :
    (do
      let s ← if ¬ s.mutexOccupied m then
          some { s with
            originalPrio := update s.originalPrio m (s.prio cur)
            mutexTaskID := update s.mutexTaskID m cur
            hipriTaskID := update s.hipriTaskID m cur
            mutexOccupied := update s.mutexOccupied m true }
        else do
          let o := s.mutexTaskID m
          let s ← if s.prio cur < s.prio o then promoteOwner cfg s m o cur else some s
          blockOnMutex cfg s m cur
      let s ← osSchedUnlock cfg s
      some (s, StatusType.E_OK)) =
      (takeMutex cfg s m cur).bind fun s => (osSchedUnlock cfg s).map fun s => (s, .E_OK) := by
  unfold takeMutex
  by_cases ho : s.mutexOccupied m = true
  · rw [if_neg (not_not.mpr ho), if_pos ho]
    dsimp only
    split
    · cases promoteOwner cfg s m (s.mutexTaskID m) cur with
      | none => rfl
      | some s1 =>
        change (blockOnMutex cfg s1 m cur).bind _ = (blockOnMutex cfg s1 m cur).bind _
        congr 1
        funext s2
        exact (Option.map_eq_bind ..).symm
    · change (blockOnMutex cfg s m cur).bind _ = (blockOnMutex cfg s m cur).bind _
      congr 1
      funext s2
      exact (Option.map_eq_bind ..).symm
  · rw [if_pos ho, if_neg ho]
    exact (Option.map_eq_bind ..).symm

theorem coEnterMutexSection_parts (cfg : Env) (s : Kernel) (m : Nat) : coEnterMutexSection cfg s m =
    if 0 < s.OSIntNesting then some (s, .E_CALL)
    else if s.OSSchedLock ≠ 0 then some (s, .E_OS_IN_LOCK)
    else if s.MutexFreeID ≤ m then some (s, .E_INVALID_ID)
    else s.TCBRunning.bind fun cur =>
      (takeMutex cfg { osSchedLock s with mutexID := update s.mutexID cur m } m cur).bind fun s =>
        (osSchedUnlock cfg s).map fun s => (s, .E_OK) := by
  unfold coEnterMutexSection
  congr 3
  cases s.TCBRunning with
  | none => rfl
  | some cur =>
    exact takeMutex_bind cfg { osSchedLock s with mutexID := update s.mutexID cur m } m cur

/-- The mutex is handed over to the first waiting task, which gets the priority `prio`. -/
def handMutex (cfg : Env) (s : Kernel) (m prio : Nat) : Option Kernel :=
  (s.waittingList m).bind fun t =>
    let s := { s with
      waittingList := update s.waittingList m (s.TCBnext t)
      originalPrio := update s.originalPrio m (s.prio t)
      mutexTaskID := update s.mutexTaskID m t }
    (if prio ≠ s.prio t then changeTaskPri cfg s (s.prio t) prio else some s).bind fun s =>
      insertToTCBRdyList cfg { s with
        prio := update s.prio t prio
        TCBnext := update s.TCBnext t none
        TCBprev := update s.TCBprev t none } t

/-- `CoLeaveMutexSection` when a task waits, up to its `OsSchedUnlock`. -/
def leaveWaited (cfg : Env) (s : Kernel) (m h : Nat) : Option Kernel :=
  (handOnPrio cfg s m (s.mutexTaskID m) h).bind fun x =>
    (coSetPriority cfg { s with
      hipriTaskID := update s.hipriTaskID m x.2
      mutexTaskID :=
        update s.mutexTaskID m INVALID_ID } (s.mutexTaskID m) (s.originalPrio m)).bind fun y =>
        handMutex cfg y.1 m x.1

/-- `OsSchedLock`, and the owner forgets the mutex. -/
def leaving (s : Kernel) (m : Nat) : Kernel :=
  { osSchedLock s with mutexID := update s.mutexID (s.mutexTaskID m) INVALID_ID }

/-- Nobody waits: the mutex is free. -/
def freeMutex (s : Kernel) (m : Nat) : Kernel :=
  { s with
    mutexOccupied := update s.mutexOccupied m false
    mutexTaskID := update s.mutexTaskID m INVALID_ID }

theorem handMutex_bind (cfg : Env) (s : Kernel) (m prio : Nat) :
    (match s.waittingList m with
      | none => none
      | some t =>
        let s := { s with
          waittingList := update s.waittingList m (s.TCBnext t)
          originalPrio := update s.originalPrio m (s.prio t)
          mutexTaskID := update s.mutexTaskID m t }
        do
        let s ← if prio ≠ s.prio t then changeTaskPri cfg s (s.prio t) prio else some s
        let s := { s with
          prio := update s.prio t prio
          TCBnext := update s.TCBnext t none
          TCBprev := update s.TCBprev t none }
        let s ← insertToTCBRdyList cfg s t
        let s ← osSchedUnlock cfg s
        some (s, StatusType.E_OK)) =
      (handMutex cfg s m prio).bind fun s => (osSchedUnlock cfg s).map fun s => (s, .E_OK) := by
  unfold handMutex
  cases s.waittingList m with
  | none => rfl
  | some t =>
    have hend : ∀ s1 : Kernel, ((insertToTCBRdyList cfg { s1 with
          prio := update s1.prio t prio
          TCBnext := update s1.TCBnext t none
          TCBprev := update s1.TCBprev t none } t).bind fun s2 =>
        (osSchedUnlock cfg s2).bind fun s3 => some (s3, StatusType.E_OK)) =
      (insertToTCBRdyList cfg { s1 with
          prio := update s1.prio t prio
          TCBnext := update s1.TCBnext t none
          TCBprev := update s1.TCBprev t none } t).bind fun s2 =>
        (osSchedUnlock cfg s2).map fun s3 => (s3, StatusType.E_OK) := by
      intro s1
      congr 1
      funext s2
      exact (Option.map_eq_bind ..).symm
    dsimp only [Option.bind_some]
    split
    · rw [Option.bind_assoc]
      change Option.bind _ _ = _
      congr 1
      funext s1
      exact hend s1
    · exact hend _

theorem coLeaveMutexSection_parts (cfg : Env) (s : Kernel) (m : Nat) : coLeaveMutexSection cfg s m =
    if 0 < s.OSIntNesting then some (s, .E_CALL)
    else if s.MutexFreeID ≤ m then some (s, .E_INVALID_ID)
    else (match s.waittingList m with
      | none => some (freeMutex (leaving s m) m)
      | some h => leaveWaited cfg (leaving s m) m h).bind fun s =>
        (osSchedUnlock cfg s).map fun s => (s, .E_OK) := by
  unfold coLeaveMutexSection
  congr 2
  change (match s.waittingList m with | none => _ | some h => _) = _
  cases s.waittingList m with
  | none => exact (Option.map_eq_bind ..).symm
  | some h =>
    change (handOnPrio cfg (leaving s m) m (s.mutexTaskID m) h).bind _ = (Option.bind _ _).bind _
    rw [Option.bind_assoc]
    congr 1
    funext x
    change Option.bind _ _ = (Option.bind _ _).bind _
    rw [Option.bind_assoc]
    congr 1
    funext y
    exact handMutex_bind cfg y.1 m x.1

/-- The links of the waiting list without `t`, and `mutexID`. -/
def unlinkWaiter (s : Kernel) (t : Nat) : Kernel :=
  let m := s.mutexID t
  let s := match s.TCBnext t, s.TCBprev t with
    | none, none => { s with waittingList := update s.waittingList m none }
    | none, some p => { s with
        TCBnext := update s.TCBnext p none, TCBprev := update s.TCBprev t none }
    | some n, none => { s with
        TCBprev := update s.TCBprev n none, TCBnext := update s.TCBnext t none }
    | some n, some p => { s with
        TCBprev := update (update s.TCBprev n (some p)) t none
        TCBnext := update (update s.TCBnext p (some n)) t none }
  { s with mutexID := update s.mutexID t INVALID_ID }

/-- The owner gets the priority of the tasks that still wait. -/
def resetOwner (cfg : Env) (s : Kernel) (m : Nat) : Option Kernel :=
  (hipriWaiter s cfg.tasks (s.waittingList m) (s.originalPrio m) (s.mutexTaskID m)).bind fun x =>
    (coSetPriority cfg { s with
      hipriTaskID := update s.hipriTaskID m x.2
      mutexTaskID := update s.mutexTaskID m INVALID_ID } (s.mutexTaskID m) x.1).map fun y =>
        { y.1 with mutexTaskID := update y.1.mutexTaskID m (s.mutexTaskID m) }

theorem removeMutexList_parts (cfg : Env) (s : Kernel) (t : Nat) : removeMutexList cfg s t =
    if (unlinkWaiter s t).hipriTaskID (s.mutexID t) = t
    then resetOwner cfg (unlinkWaiter s t) (s.mutexID t)
    else some (unlinkWaiter s t) := by
  change (if (unlinkWaiter s t).hipriTaskID (s.mutexID t) = t then _ else _) = _
  split
  · unfold resetOwner
    change Option.bind _ _ = _
    congr 1
    funext x
    exact (Option.map_eq_bind ..).symm
  · rfl

/-! ## CoDelTask -/

/-- `CoDelTask` once the task has given up its mutex: it leaves its list, and its TCB is freed. -/
def deleteTask (cfg : Env) (s : Kernel) (t : Nat) : Option Kernel :=
  (match s.state t with
    | .READY => removeFromTCBRdyList cfg (osSchedLock s) t
    | .WAITING => leaveWaiting cfg (osSchedLock s) t
    | _ => some (osSchedLock s)).bind fun s =>
      let s := { s with state := update s.state t .DORMANT, TaskSchedReq := true }
      (if cfg.orderListScheduleEn then some s else deleteTaskPri s (s.prio t)).bind fun s =>
        osSchedUnlock cfg { s with TCBnext := update s.TCBnext t s.FreeTCB, FreeTCB := some t }

theorem deleteTask_map (cfg : Env) (s : Kernel) (taskID : Nat) :
    (do
      let s := osSchedLock s
      let s ← match s.state taskID with
        | .READY => removeFromTCBRdyList cfg s taskID
        | .WAITING => leaveWaiting cfg s taskID
        | _ => some s
      let s := { s with state := update s.state taskID .DORMANT, TaskSchedReq := true }
      let s ← if cfg.orderListScheduleEn then some s else deleteTaskPri s (s.prio taskID)
      let s ← osSchedUnlock cfg { s with
        TCBnext := update s.TCBnext taskID s.FreeTCB, FreeTCB := some taskID }
      some (s, StatusType.E_OK)) = (deleteTask cfg s taskID).map fun s => (s, .E_OK) := by
  have hend : ∀ s1 : Kernel, (do
      let s1 := { s1 with state := update s1.state taskID .DORMANT, TaskSchedReq := true }
      let s1 ← if cfg.orderListScheduleEn then some s1 else deleteTaskPri s1 (s1.prio taskID)
      let s1 ← osSchedUnlock cfg { s1 with
        TCBnext := update s1.TCBnext taskID s1.FreeTCB, FreeTCB := some taskID }
      some (s1, StatusType.E_OK)) =
      Option.map (fun s => (s, StatusType.E_OK))
        ((if cfg.orderListScheduleEn then
          some { s1 with state := update s1.state taskID .DORMANT, TaskSchedReq := true }
        else deleteTaskPri
          { s1 with state := update s1.state taskID .DORMANT, TaskSchedReq := true }
          (s1.prio taskID)).bind fun s => osSchedUnlock cfg { s with
            TCBnext := update s.TCBnext taskID s.FreeTCB, FreeTCB := some taskID }) := by
    intro s1
    rw [Option.map_bind]
    dsimp only
    split
    · exact (Option.map_eq_bind ..).symm
    · change Option.bind _ _ = _
      congr 1
      funext s2
      exact (Option.map_eq_bind ..).symm
  unfold deleteTask
  rw [Option.map_bind]
  change (match s.state taskID with | .READY => _ | .WAITING => _ | _ => _) =
    Option.bind (match s.state taskID with | .READY => _ | .WAITING => _ | _ => _) _
  cases s.state taskID with
  | READY =>
    change Option.bind _ _ = Option.bind _ _
    congr 1
    funext s1
    exact hend s1
  | WAITING =>
    change Option.bind _ _ = Option.bind _ _
    congr 1
    funext s1
    exact hend s1
  | RUNNING => exact hend _
  | DORMANT => exact hend _

theorem coDelTask_parts (cfg : Env) (s : Kernel) (t : Nat) : coDelTask cfg s t =
    if cfg.tasks ≤ t then some (s, .E_INVALID_ID)
    else if s.state t = .DORMANT then some (s, .E_INVALID_ID)
    else if t = 0 then some (s, .E_PROTECTED_TASK)
    else if s.state t = .RUNNING ∧ s.OSSchedLock ≠ 0 then some (s, .E_OS_IN_LOCK)
    else ((if holdsMutex s t then (coLeaveMutexSection cfg s (s.mutexID t)).map Prod.fst else
      some s).bind
      fun s => deleteTask cfg s t).map fun s => (s, .E_OK) := by
  unfold coDelTask
  congr 4
  dsimp only
  split
  · cases coLeaveMutexSection cfg s (s.mutexID t) with
    | none => rfl
    | some x => exact deleteTask_map cfg x.1 t
  · exact deleteTask_map cfg s t

end CoOS
