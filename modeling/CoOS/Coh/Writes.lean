/-
  What the ready list functions and the scheduler write, in any state, well-formed or not: the
  ready list with its table, the task states, `OSCheckTime`, `TaskSchedReq` and `TCBNext`
  (`Resched`). Every other column is kept.
-/
import CoOS.Lib.Ensures
import CoOS.Coh.Sched

namespace CoOS

open Function (update)

theorem Resched.trans {s s' s'' : Kernel} (h : Resched s s') (h' : Resched s' s'') :
    Resched s s'' := by
  obtain ⟨L, T, ct, req, st, nx, rfl⟩ := h
  obtain ⟨L', T', ct', req', st', nx', rfl⟩ := h'
  exact ⟨L', T', ct', req', st', nx', rfl⟩

section Writes

variable {cfg : Env} {s s0 : Kernel}

theorem robinCheck_writes (h : Resched s0 s) (t : Nat) : Resched s0 (robinCheck cfg s t) := by
  have hct : ∃ ct, robinCheck cfg s t = { s with OSCheckTime := ct } := by
    unfold robinCheck
    split
    · exact ⟨_, rfl⟩
    · split
      · exact ⟨_, rfl⟩
      · exact ⟨_, rfl⟩
  obtain ⟨ct, e⟩ := hct
  rw [e]
  exact h.trans ⟨s.rdyLinks, s.priTable, ct, s.TaskSchedReq, s.state, s.TCBNext, rfl⟩

theorem setState_writes (h : Resched s0 s) (st : Nat → TaskState) :
    Resched s0 { s with state := st } :=
  h.trans ⟨s.rdyLinks, s.priTable, s.OSCheckTime, s.TaskSchedReq, st, s.TCBNext, rfl⟩

theorem setRdyLinks_writes (h : Resched s0 s) (L : DList.Links Nat) :
    Resched s0 (s.setRdyLinks L) :=
  h.trans ⟨L, s.priTable, s.OSCheckTime, s.TaskSchedReq, s.state, s.TCBNext, rfl⟩

theorem setReq_writes (h : Resched s0 s) (req : Bool) : Resched s0 { s with TaskSchedReq := req } :=
  h.trans ⟨s.rdyLinks, s.priTable, s.OSCheckTime, req, s.state, s.TCBNext, rfl⟩

theorem setTable_writes (h : Resched s0 s) (rdy info : Nat → Nat) :
    Resched s0 { s with RdyTaskPri := rdy, RdyTaskPriInfo := info } :=
  h.trans ⟨s.rdyLinks, { s.priTable with RdyTaskPri := rdy, RdyTaskPriInfo := info }, s.OSCheckTime,
    s.TaskSchedReq, s.state, s.TCBNext, rfl⟩

theorem insertOrdered_writes (h : Resched s0 s) (t : Nat) :
    Ensures (insertOrdered cfg s t) (Resched s0) := by
  unfold insertOrdered
  split
  · exact .some (setReq_writes (setRdyLinks_writes h _) true)
  · refine .ite (fun _ => .some (setReq_writes (setRdyLinks_writes h _) true)) fun _ => ?_
    exact Ensures.skip fun x => .some (setRdyLinks_writes h _)

theorem insertBinary_writes (h : Resched s0 s) (t : Nat) :
    Ensures (insertBinary s t) (Resched s0) := by
  unfold insertBinary
  refine Ensures.skip fun x => ?_
  refine .ite (fun _ => .some (setRdyLinks_writes (setTable_writes h _ _) _)) fun _ => ?_
  exact .ite (fun _ => .some (setReq_writes (setRdyLinks_writes (setTable_writes h _ _) _) true))
    fun _ => .some (setRdyLinks_writes (setTable_writes h _ _) _)

theorem insertToTCBRdyList_writes (h : Resched s0 s) (t : Nat) :
    Ensures (insertToTCBRdyList cfg s t) (Resched s0) := by
  unfold insertToTCBRdyList
  have hr : Resched s0 (robinCheck cfg { s with state := update s.state t .READY } t) :=
    robinCheck_writes (setState_writes h _) t
  exact .ite (fun _ => insertOrdered_writes hr t) fun _ => insertBinary_writes hr t

theorem removeIndex_writes (h : Resched s0 s) (seqNum t : Nat) :
    Resched s0 (removeIndex cfg s seqNum t) := by
  unfold removeIndex
  dsimp only
  split
  · exact setTable_writes h _ _
  · split
    · exact setTable_writes h _ _
    · exact h
  · split
    · exact setTable_writes h _ _
    · exact setTable_writes h _ _
  · split
    · exact setTable_writes h _ _
    · split
      · exact setTable_writes h _ _
      · exact h

theorem removeFromTCBRdyList_writes (h : Resched s0 s) (t : Nat) :
    Ensures (removeFromTCBRdyList cfg s t) (Resched s0) := by
  unfold removeFromTCBRdyList
  refine .ite (fun _ => .some (setRdyLinks_writes h _)) fun _ => ?_
  exact Ensures.skip fun x => .some (setRdyLinks_writes (removeIndex_writes h x.2 t) _)

theorem resetCheckTime_writes (h : Resched s0 s) (t : Nat) :
    Resched s0 (resetCheckTime cfg s t) := by
  obtain ⟨ct, e⟩ := resetCheckTime_eq cfg s t
  rw [e]
  exact h.trans ⟨s.rdyLinks, s.priTable, ct, s.TaskSchedReq, s.state, s.TCBNext, rfl⟩

theorem dispatch_writes (h : Resched s0 s) (nx : Option Nat) (st : Nat → TaskState) :
    Resched s0 { s with TCBNext := nx, state := st } :=
  h.trans ⟨s.rdyLinks, s.priTable, s.OSCheckTime, s.TaskSchedReq, st, nx, rfl⟩

theorem preempt_writes (h : Resched s0 s) (cur rdy : Nat) :
    Ensures (preempt cfg s cur rdy) (Resched s0) := by
  unfold preempt
  refine Ensures.bind (insertToTCBRdyList_writes (dispatch_writes h _ s.state) cur) fun s1 h1 => ?_
  refine Ensures.bind (removeFromTCBRdyList_writes h1 rdy) fun s2 h2 => ?_
  exact .some (resetCheckTime_writes (setState_writes h2 _) rdy)

/-- **Schedule** -/
theorem schedule_writes (h : Resched s0 s) : Ensures (schedule cfg s) (Resched s0) := by
  unfold schedule
  split
  · next rdy cur _ _ =>
    refine .ite (fun _ => .some h) fun _ => ?_
    have hreq := setReq_writes h false
    refine .ite (fun _ => ?_) fun _ => ?_
    · refine Ensures.bind (removeFromTCBRdyList_writes (dispatch_writes hreq _ _) rdy) fun s1 h1 =>
        ?_
      exact .some (resetCheckTime_writes h1 rdy)
    · refine .ite (fun _ => preempt_writes hreq cur rdy) fun _ => ?_
      exact .ite (fun _ => preempt_writes hreq cur rdy) fun _ => .some hreq
  · exact .some h

/-- **OsSchedUnlock**, when no interrupt has deferred a request. -/
theorem osSchedUnlock_writes (h : Resched s0 s) (hi : s.IsrReq = false) :
    Ensures (osSchedUnlock cfg s) fun s' => ∃ s1, Resched s0 s1 ∧
      s' = { s1 with OSSchedLock := s.OSSchedLock - 1 } := by
  rw [osSchedUnlock_eq cfg hi]
  refine .ite (fun hl => ?_) fun _ => .some ⟨s, h, rfl⟩
  rw [hl]
  refine Ensures.map ?_
  refine .ite (fun _ => (schedule_writes h).imp fun s1 h1 => ⟨s1, h1, rfl⟩) fun _ =>
    .some ⟨s, h, rfl⟩

end Writes

end CoOS
