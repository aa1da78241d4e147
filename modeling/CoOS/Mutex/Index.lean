/-
  The indices at which the mutex functions and `CoDelTask` read `TCBTbl`. They are in range at
  every call of every run in which no task leaves a free mutex; `CoLeaveMutexSection` on a free
  mutex reads `TCBTbl[INVALID_ID]`.
-/
import CoOS.Zone.Run

namespace CoOS

/-! ## The indices -/

/-- `CoEnterMutexSection`: the owner, when the mutex is occupied. -/
def enterIndices (s : Kernel) (m : Nat) : List Nat :=
  if 0 < s.OSIntNesting ∨ s.OSSchedLock ≠ 0 ∨ s.MutexFreeID ≤ m then []
  else if s.mutexOccupied m then [s.mutexTaskID m] else []

/-- `CoLeaveMutexSection`: the owner, and once more if a task waits and the owner was promoted.
    `CoSetPriority` checks its argument before it reads the table. -/
def leaveIndices (s : Kernel) (m : Nat) : List Nat :=
  if 0 < s.OSIntNesting ∨ s.MutexFreeID ≤ m then []
  else s.mutexTaskID m ::
    if s.waittingList m ≠ none ∧ s.hipriTaskID m ≠ s.mutexTaskID m then [s.mutexTaskID m] else []

/-- `CoDelTask`: its argument, and what leaving the mutex of the task reads. -/
def delIndices (cfg : Config) (s : Kernel) (t : Nat) : List Nat :=
  if cfg.tasks ≤ t then []
  else t ::
    if s.state t ≠ .DORMANT ∧ t ≠ 0 ∧ ¬ (s.state t = .RUNNING ∧ s.OSSchedLock ≠ 0) ∧ holdsMutex s t
    then leaveIndices s (s.mutexID t) else []

/-- The indices of a call into `TCBTbl`. -/
def Call.indices (cfg : Config) (s : Kernel) : Call → List Nat
  | .enterMutex m => enterIndices s m
  | .leaveMutex m => leaveIndices s m
  | .delTask t => delIndices cfg s t
  | .exitTask => (s.TCBRunning.map (delIndices cfg s)).getD []
  | _ => []

section Indices

variable {cfg : Env} {s : Kernel} {m t x : Nat}

theorem Config.tasks_lt_invalid (cfg : Config) : cfg.tasks < INVALID_ID :=
  Nat.lt_succ_of_le (Nat.succ_le_succ cfg.maxUserTasks_le)

theorem enterIndices_lt (h : InTable cfg.toConfig s) (hx : x ∈ enterIndices s m) :
    x < cfg.tasks := by
  unfold enterIndices at hx
  split at hx
  · exact nomatch hx
  · split at hx
    · next ho =>
      rw [List.mem_singleton.mp hx]
      exact (h.mtx.owner m).owner ho
    · exact nomatch hx

/-- All the indices of `CoLeaveMutexSection` are the owner. -/
theorem mem_leaveIndices (hx : x ∈ leaveIndices s m) : x = s.mutexTaskID m := by
  unfold leaveIndices at hx
  split at hx
  · exact nomatch hx
  · rcases List.mem_cons.mp hx with h | h
    · exact h
    · split at h
      · exact List.mem_singleton.mp h
      · exact nomatch h

theorem leaveIndices_lt (h : InTable cfg.toConfig s) :
    (∀ x ∈ leaveIndices s m, x < cfg.tasks) ↔ (Call.leaveMutex m).LeavesOccupied s := by
  constructor
  · intro hall
    by_contra hn
    obtain ⟨h1, hn⟩ := not_or.mp hn
    obtain ⟨h2, h3⟩ := not_or.mp hn
    have hown := (h.mtx.owner m).free (Bool.eq_false_iff.mpr h3) (Nat.lt_of_not_le h2)
    have hin : s.mutexTaskID m ∈ leaveIndices s m := by
      unfold leaveIndices
      rw [if_neg (not_or.mpr ⟨h1, h2⟩)]
      exact List.mem_cons_self
    have hlt : INVALID_ID < cfg.tasks := Eq.trans_lt (Eq.symm hown) (hall _ hin)
    exact absurd hlt (Nat.lt_asymm cfg.tasks_lt_invalid)
  · rintro (h1 | h2 | h3) x hx
    · unfold leaveIndices at hx
      rw [if_pos (Or.inl h1)] at hx
      exact nomatch hx
    · unfold leaveIndices at hx
      rw [if_pos (Or.inr h2)] at hx
      exact nomatch hx
    · rw [mem_leaveIndices hx]
      exact (h.mtx.owner m).owner h3

theorem delIndices_lt (hx : x ∈ delIndices cfg.toConfig s t) : x < cfg.tasks := by
  unfold delIndices at hx
  split at hx
  · exact nomatch hx
  · next ht =>
    rcases List.mem_cons.mp hx with h | h
    · rw [h]
      exact Nat.lt_of_not_le ht
    · split at h
      · next hc =>
        -- the task that leaves is the owner of the mutex
        rw [mem_leaveIndices h, hc.2.2.2.2]
        exact Nat.lt_of_not_le ht
      · exact nomatch h

theorem Call.indices_lt (h : InTable cfg.toConfig s) (c : Call) :
    (∀ x ∈ c.indices cfg.toConfig s, x < cfg.tasks) ↔ c.LeavesOccupied s := by
  cases c with
  | enterMutex m => exact iff_of_true (fun x => enterIndices_lt h) trivial
  | leaveMutex m => exact leaveIndices_lt h
  | delTask t => exact iff_of_true (fun x => delIndices_lt) trivial
  | exitTask =>
    refine iff_of_true (fun x hx => ?_) trivial
    unfold Call.indices at hx
    cases hr : s.TCBRunning with
    | none =>
      rw [hr] at hx
      exact nomatch hx
    | some r =>
      rw [hr] at hx
      exact delIndices_lt hx
  | _ => exact iff_of_true (fun x hx => nomatch hx) trivial

end Indices

/-! ## Runs -/

/-- **The indices into `TCBTbl` are in range, in every run that leaves no free mutex and only
    in such runs**; and so are those that the binary insertion takes from `RdyTaskPri`. -/
theorem mutex_indices_in_range {cfg : Env} {i : Idle} {us : List Setup} {m0 m : Sys}
    (hb : boot cfg i us = some m0) (h : Reach cfg LeavesOccupied m0 m) (c : Call) :
    ((∀ x ∈ c.indices cfg.toConfig m.k, x < cfg.tasks) ↔ c.LeavesOccupied m.k) ∧
      ∀ j, infoBit m.k.RdyTaskPriInfo j = true → m.k.RdyTaskPri j < cfg.tasks :=
  have hi := Reach.inTable (boot_inTable m0 hb) h
  ⟨Call.indices_lt hi c, hi.sealed.bit⟩

theorem mutex_indices_in_range_shipped : ∃ m0 m, boot shippedEnv shippedIdle
      [.plainTask 5, .mutex] = some m0 ∧ Reach shippedEnv LeavesOccupied m0 m ∧ m.log.length = 2 ∧
    ∀ c : Call, (∀ x ∈ c.indices shippedEnv.toConfig m.k, x < shippedEnv.tasks) ↔
    c.LeavesOccupied m.k := by
  obtain ⟨m0, m, h1, h2, h3⟩ := @ran shippedEnv LeavesOccupied _ shippedIdle [.plainTask 5, .mutex]
    [([], .call (.enterMutex 0)), ([], .call (.leaveMutex 0))] _ (fun m => m.log.length) 2
      (by decide +kernel)
  exact ⟨m0, m, h1, h2, h3, fun c => (mutex_indices_in_range h1 h2 c).1⟩

/-- A task leaves a created mutex that nobody holds: `CoLeaveMutexSection` indexes the table at
    255. -/
theorem leave_free_mutex_out_of_range :
    ∃ m0, boot shippedEnv shippedIdle [.plainTask 5, .mutex] = some m0 ∧
    (m0.step shippedEnv [] (.call (.leaveMutex 0))).isSome = true ∧
    ¬ ∀ x ∈ (Call.leaveMutex 0).indices shippedEnv.toConfig m0.k, x < shippedEnv.tasks := by
  obtain ⟨m0, h0, h1⟩ :=
    Option.map_eq_some_iff.mp (show (boot shippedEnv shippedIdle [.plainTask 5, .mutex]).map
    (fun m => ((m.step shippedEnv [] (.call (.leaveMutex 0))).isSome,
      (Call.leaveMutex 0).indices shippedEnv.toConfig m.k)) = some (true, [255]) by decide +kernel)
  have h2 : (Call.leaveMutex 0).indices shippedEnv.toConfig m0.k = [255] := congrArg Prod.snd h1
  refine ⟨m0, h0, congrArg Prod.fst h1, fun hall => ?_⟩
  rw [h2] at hall
  exact absurd (hall 255 (List.mem_singleton.mpr rfl)) (by decide)

end CoOS
