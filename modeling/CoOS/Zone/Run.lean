/-
  `InTable` over whole runs: it holds after start-up and after every step, with all services, the
  ticks and the deferred requests, as long as no task leaves a mutex that is free.
-/
import CoOS.Zone.Table

namespace CoOS

open Function (update)
open DList

/-! ## Start-up -/

section Boot

variable {cfg : Env} {s : Kernel}

theorem empty_within (S : Nat → Prop) :
    (⟨none, fun _ => none, fun _ => none⟩ : Links Nat).Within S where
  head := within_none
  next _ _ _ e := nomatch e
  prev _ _ _ e := nomatch e

theorem zero_inTable (cfg : Env) : InTable cfg.toConfig Kernel.zero where
  sealed := {
    tcb := empty_within _
    dly := within_none
    free := within_none
    cur := within_none
    nxt := within_none
    off := fun _ _ => ⟨rfl, rfl⟩
    evt := fun _ => empty_within _
    node := empty_within _
    tail := within_none
    ready := fun _ ht _ => ht
    eventID := fun _ ht _ => ht.elim (fun h => h) fun h => h
    pnode := fun _ _ e => nomatch e
    dormant := fun _ _ => trivial
    ptr := fun _ _ => Nat.succ_pos _
    bit := fun _ _ => Nat.succ_pos _
    tmr := Or.inl rfl
    part := rfl }
  mtx := {
    owner := fun m => ⟨(fun e => nomatch e), fun _ hm => absurd hm (Nat.not_lt_zero m)⟩
    waiting := fun _ _ e => nomatch e }

/-- `CreateTCBList` and `CreateEventList`. -/
theorem lists_inTable (cfg : Env) :
    InTable cfg.toConfig (createEventList cfg (createTCBList cfg Kernel.zero)) := by
  have h := zero_inTable cfg
  refine Sealed.inTable (d := Kernel.zero.mtxPart) { h.sealed with
    tcb := ⟨within_none, fun a b ha hb => ?_, fun _ _ _ e => nomatch e⟩
    free := within_some (Nat.succ_pos _)
    off := fun a ha => ⟨?_, rfl⟩
    ready := fun _ ht _ => ht
    dormant := fun _ _ => trivial
    ptr := fun i hne => ?_
    bit := fun i hb => ?_ } h.mtx
  · change (if a < cfg.tasks - 1 then some (a + 1) else if a = cfg.tasks - 1 then none else none) =
      some b at hb
    change b < cfg.tasks
    split at hb
    · rw [← Option.some.inj hb]
      omega
    · split at hb
      · exact nomatch hb
      · exact nomatch hb
  · have ha' : ¬ a < cfg.tasks := ha
    change (if a < cfg.tasks - 1 then some (a + 1) else if a = cfg.tasks - 1 then none else none) =
      none
    rw [if_neg (by omega), ite_self]
  · change (if i < cfg.tasks - 1 then INVALID_ID else 0) ≠ INVALID_ID at hne
    change (if i < cfg.tasks - 1 then INVALID_ID else 0) < cfg.tasks
    split at hne
    · exact absurd rfl hne
    · next hi =>
      rw [if_neg hi]
      exact Nat.succ_pos _
  · exact nomatch (Nat.zero_testBit _).symm.trans hb

variable (hr : Responds cfg (Zone.table cfg.toConfig))
include hr

theorem creatEvent_inTable (h : InTable cfg.toConfig s) (ty : EventType) (sort : Nat)
    (ptr : EventPtr) :
    Ensures (creatEvent cfg s ty sort ptr) fun x => InTable cfg.toConfig x.1 := by
  have h0 := osSchedLock_sealed h.sealed
  unfold creatEvent
  dsimp only
  split
  · exact h.keep fun _ => unlock_sealed hr h0 _
  · next e _ =>
    refine Ensures.bind (osSchedUnlock_sealed hr (h0.congr rfl)) fun s2 h2 => .some ?_
    have h3 := (h2.setEvtLinks e (L := ⟨none, s2.waitNext, s2.waitPrev⟩)
      ⟨within_none, (h2.evt e).next, (h2.evt e).prev⟩).inTable h.mtx
    exact h3.congr rfl

theorem coCreateSem_inTable (h : InTable cfg.toConfig s) (initCnt maxCnt sort : Nat) :
    Ensures (coCreateSem cfg s initCnt maxCnt sort) fun x => InTable cfg.toConfig x.1 := by
  unfold coCreateSem
  refine .ite (fun _ => .some h) fun _ =>
    Ensures.bind (creatEvent_inTable hr h _ _ _) fun ⟨s1, o⟩ h1 => ?_
  cases o with
  | none => exact .some h1
  | some e => exact .some (h1.congr rfl)

theorem coCreateMbox_inTable (h : InTable cfg.toConfig s) (sort : Nat) :
    Ensures (coCreateMbox cfg s sort) fun x => InTable cfg.toConfig x.1 := by
  unfold coCreateMbox
  refine Ensures.bind (creatEvent_inTable hr h _ _ _) fun ⟨s1, o⟩ h1 => ?_
  cases o with
  | none => exact .some h1
  | some e => exact .some (h1.congr rfl)

theorem coCreateQueue_inTable (h : InTable cfg.toConfig s) (qStart size sort : Nat) :
    Ensures (coCreateQueue cfg s qStart size sort) fun x => InTable cfg.toConfig x.1 := by
  have h0 := osSchedLock_sealed h.sealed
  unfold coCreateQueue
  refine .ite (fun _ => .some h) fun _ => ?_
  dsimp only
  split
  · exact h.keep fun _ => unlock_sealed hr h0 _
  · next i _ =>
    have h1 : Sealed cfg.toConfig (Zone.table cfg.toConfig) s.mtxPart
        { osSchedLock s with QueueIDVessel := update s.QueueIDVessel i true } := h0.congr rfl
    refine Ensures.bind (osSchedUnlock_sealed hr h1) fun s2 h2 => ?_
    refine Ensures.bind (creatEvent_inTable hr ?_ _ _ _) fun x h3 => .some h3
    exact (h2.inTable h.mtx).congr rfl

theorem coCreateMutex_inTable (h : InTable cfg.toConfig s) :
    Ensures (coCreateMutex cfg s) fun x => InTable cfg.toConfig x.1 := by
  have h0 : InTable cfg.toConfig (osSchedLock s) := h.congr rfl
  unfold coCreateMutex
  refine .ite (fun _ => ?_) fun _ => unlock_inTable hr h0 _
  have h1 : Sealed cfg.toConfig (Zone.table cfg.toConfig)
    { s.mtxPart with MutexFreeID := s.MutexFreeID + 1 }
      { osSchedLock s with MutexFreeID := s.MutexFreeID + 1 } := { h.sealed with part := rfl }
  refine Ensures.bind (osSchedUnlock_sealed hr h1) fun s2 h2 =>
    .some ⟨h2.setPart rfl, fun m' => ?_, ?_⟩
  · have e1 : s2.mutexOccupied = s.mutexOccupied := congrArg MtxPart.mutexOccupied h2.part
    have e2 : s2.mutexTaskID = s.mutexTaskID := congrArg MtxPart.mutexTaskID h2.part
    have e3 : s2.MutexFreeID = s.MutexFreeID + 1 := congrArg MtxPart.MutexFreeID h2.part
    change MtxPart.OwnerOk cfg.toConfig ({ s2 with
      hipriTaskID := update s2.hipriTaskID s.MutexFreeID INVALID_ID
      originalPrio := update s2.originalPrio s.MutexFreeID 0xff
      mutexOccupied := update s2.mutexOccupied s.MutexFreeID false
      mutexTaskID := update s2.mutexTaskID s.MutexFreeID INVALID_ID
      waittingList := update s2.waittingList s.MutexFreeID none } : Kernel).mtxPart m'
    by_cases hm : m' = s.MutexFreeID
    · rw [hm]
      have e4 := Function.update_self s.MutexFreeID false s2.mutexOccupied
      exact ⟨fun ho => (nomatch e4.symm.trans ho), fun _ _ => Function.update_self ..⟩
    · have e4 : update s2.mutexOccupied s.MutexFreeID false m' = s.mutexOccupied m' :=
        (Function.update_of_ne hm ..).trans (congrFun e1 m')
      have e5 : update s2.mutexTaskID s.MutexFreeID INVALID_ID m' = s.mutexTaskID m' :=
        (Function.update_of_ne hm ..).trans (congrFun e2 m')
      refine ⟨fun ho => e5.trans_lt ((h.mtx.owner m').owner (e4.symm.trans ho)), fun hf hlt => ?_⟩
      have hlt' : m' < s2.MutexFreeID := hlt
      exact e5.trans ((h.mtx.owner m').free (e4.symm.trans hf) (show m' < s.MutexFreeID by omega))
  · have e6 : s2.waittingList = s.waittingList := congrArg MtxPart.waittingList h2.part
    refine update_waiting ?_ within_none
    rw [e6]
    exact h.mtx.waiting

/-- **CoInitOS** -/
theorem coInitOS_inTable (task stk stkSz : Nat) :
    Ensures (coInitOS cfg Kernel.zero task stk stkSz) (InTable cfg.toConfig) := by
  unfold coInitOS
  refine Ensures.bind (createTask_inTable hr ?_ _ _ _) fun x h1 => .some h1
  exact (lists_inTable cfg).congr rfl

theorem Setup.exec_inTable (h : InTable cfg.toConfig s) (u : Setup) :
    Ensures (u.exec cfg s) (InTable cfg.toConfig) := by
  cases u with
  | task entry stk parameter => exact Ensures.map (createTask_inTable hr h entry stk parameter)
  | sem initCnt maxCnt sort => exact Ensures.map (coCreateSem_inTable hr h initCnt maxCnt sort)
  | mbox sort => exact Ensures.map (coCreateMbox_inTable hr h sort)
  | queue qStart size sort => exact Ensures.map (coCreateQueue_inTable hr h qStart size sort)
  | flag auto init => exact Ensures.map (h.keep fun h => coCreateFlag_sealed hr h auto init)
  | mutex => exact Ensures.map (coCreateMutex_inTable hr h)

theorem setUp_inTable (us : List Setup) : ∀ {s : Kernel}, InTable cfg.toConfig s →
    Ensures (setUp cfg s us) (InTable cfg.toConfig) := by
  induction us with
  | nil => exact fun h => .some h
  | cons u us ih => exact fun h => Ensures.bind (Setup.exec_inTable hr h u) fun s1 h1 => ih h1

theorem coStartOS_inTable (h : InTable cfg.toConfig s) :
    Ensures (coStartOS cfg s) (InTable cfg.toConfig) := by
  have h0 : (Zone.table cfg.toConfig).tcb 0 := Nat.succ_pos _
  have h1 : Sealed cfg.toConfig (Zone.table cfg.toConfig) s.mtxPart { s with
      TCBRunning := some 0, TCBNext := some 0, state := update s.state 0 .RUNNING } :=
    { setRunning_sealed (h.sealed.setNext h0) 0 with cur := within_some h0 }
  unfold coStartOS
  refine Ensures.bind (removeFromTCBRdyList_sealed h1 h0) fun s1 h2 => ?_
  exact (osSchedUnlock_sealed hr h2).imp fun s2 h3 => h3.inTable h.mtx

end Boot

theorem boot_inTable {cfg : Env} {i : Idle} {us : List Setup} :
    Ensures (boot cfg i us) fun m => InTable cfg.toConfig m.k := by
  unfold boot
  have hr : Responds cfg.served (Zone.table cfg.served.toConfig) := responds_table
  refine Ensures.bind (coInitOS_inTable hr _ _ _) fun s1 h1 => ?_
  refine Ensures.bind (setUp_inTable hr us h1) fun s2 h2 => ?_
  refine Ensures.bind (coStartOS_inTable hr h2) fun s3 h3 => .some ?_
  exact (@takeSwitch_sealed cfg _ _ _ h3.sealed).inTable h3.mtx

/-! ## Steps -/

/-- A call that leaves a mutex is not accepted unless the mutex is occupied. -/
def Call.LeavesOccupied (k : Kernel) : Call → Prop
  | .leaveMutex m => 0 < k.OSIntNesting ∨ k.MutexFreeID ≤ m ∨ k.mutexOccupied m = true
  | _ => True

instance (k : Kernel) (c : Call) : Decidable (c.LeavesOccupied k) :=
  match c with
  | .leaveMutex _ => inferInstanceAs (Decidable (_ ∨ _ ∨ _))
  | .createTask .. | .delTask _ | .exitTask | .suspendTask _ | .awakeTask _ | .setPriority ..
  | .tickDelay _ | .resetDelay .. | .accept .. | .pend .. | .post .. | .createFlag .. | .delFlag ..
  | .setFlag _ | .clearFlag _ | .acceptFlag _ | .acceptFlags .. | .waitFlag .. | .waitFlags ..
  | .enterMutex _ => inferInstanceAs (Decidable True)

/-- The step does not leave a free mutex. -/
def LeavesOccupied (m : Sys) (_ : List SQC) : Act → Prop
  | .call c => c.LeavesOccupied m.k
  | _ => True

instance (m : Sys) (rs : List SQC) (a : Act) : Decidable (LeavesOccupied m rs a) :=
  match a with
  | .call c => inferInstanceAs (Decidable (c.LeavesOccupied m.k))
  | .resume | .tick => inferInstanceAs (Decidable True)

section Steps

variable {cfg : Env} {s : Kernel} (hr : Responds cfg (Zone.table cfg.toConfig))
include hr

theorem Call.exec_inTable (h : InTable cfg.toConfig s) {c : Call} (hc : c.LeavesOccupied s) :
    Ensures (c.exec cfg s) fun x => InTable cfg.toConfig x.1 := by
  cases c with
  | createTask task stk parameter => exact Ensures.map (createTask_inTable hr h task stk parameter)
  | delTask t => exact Ensures.map (coDelTask_inTable hr h t)
  | exitTask => exact Ensures.map (coExitTask_inTable hr h)
  | suspendTask t => exact Ensures.map (h.keep fun h => coSuspendTask_sealed hr h fun ht => ht)
  | awakeTask t => exact Ensures.map (h.keep fun h => coAwakeTask_sealed hr h fun ht => ht)
  | setPriority t p => exact Ensures.map (coSetPriority_inTable hr h p)
  | tickDelay n => exact Ensures.map (h.keep fun h => coTickDelay_sealed hr h n)
  | resetDelay t n =>
    exact Ensures.map (h.keep fun h => coResetTaskDelayTick_sealed hr h n fun ht => ht)
  | accept kd id => exact Ensures.map (h.keep fun h => acceptEvent_sealed hr h kd id)
  | pend kd id timeout =>
    refine Ensures.map ((h.keep fun h => pendEvent_sealed hr h kd id).imp fun x h1 => ?_)
    split
    · exact h1
    · exact h1
  | post kd id mail => exact Ensures.map (h.keep fun h => postEvent_sealed hr h kd id mail)
  | createFlag auto init => exact Ensures.map (h.keep fun h => coCreateFlag_sealed hr h auto init)
  | delFlag id opt => exact Ensures.map (h.keep fun h => coDelFlag_sealed hr h id opt)
  | setFlag id => exact Ensures.map (h.keep fun h => coSetFlag_sealed hr h id)
  | clearFlag id => exact .some ((@coClearFlag_sealed cfg _ _ _ h.sealed id).inTable h.mtx)
  | acceptFlag id => exact Ensures.map (h.keep fun h => coAcceptSingleFlag_sealed hr h id)
  | acceptFlags flags ty =>
    exact Ensures.map (h.keep fun h => coAcceptMultipleFlags_sealed hr h flags ty)
  | waitFlag id timeout =>
    refine Ensures.map
      ((h.keep fun h => coWaitForSingleFlag_sealed hr h id timeout h.cur).imp fun x h1 => ?_)
    split
    · exact h1
    · exact h1
  | waitFlags flags ty timeout =>
    refine Ensures.map
      ((h.keep fun h => coWaitForMultipleFlags_sealed hr h flags ty timeout h.cur).imp
      fun x h1 => ?_)
    split
    · exact h1
    · exact h1
  | enterMutex m =>
    refine Ensures.map ((coEnterMutexSection_inTable hr h m).imp fun x h1 => ?_)
    split
    · exact h1
    · exact h1
  | leaveMutex m => exact Ensures.map (coLeaveMutexSection_inTable hr h hc)

theorem Cont.exec_inTable (h : InTable cfg.toConfig s) (r : Nat) (c : Cont) :
    Ensures (c.exec cfg s r) fun x => InTable cfg.toConfig x.1 := by
  cases c with
  | none => exact .none
  | block kd id timeout => exact Ensures.map (h.keep fun h => pendWait_sealed hr h id timeout h.cur)
  | wait kd id timeout =>
    exact .some ((@pendReturn_sealed cfg _ _ _ h.sealed r timeout).inTable h.mtx)
  | waitFlag id timeout =>
    exact Ensures.map (h.keep fun h => waitSingleReturn_sealed hr h r id timeout)
  | waitFlags flags ty timeout =>
    exact Ensures.map (h.keep fun h => waitMultipleReturn_sealed hr h r flags timeout)
  | enterMutex m => exact .some h

end Steps

section Runs

variable {cfg : Env} {m0 m m' : Sys} {rs : List SQC} {a : Act}

theorem Sys.after_inTable {r : Nat} {op : Call ⊕ Cont} {ends : Option Nat} {x : Outcome}
    (h : InTable cfg.toConfig x.1) : InTable cfg.toConfig (m.after r op ends x).k :=
  (@takeSwitch_sealed cfg _ _ _ h.sealed).inTable h.mtx

/-- The interrupts do not touch the mutexes. -/
theorem Call.LeavesOccupied.defer {c : Call} {k : Kernel} (hc : c.LeavesOccupied k) :
    c.LeavesOccupied (k.defer cfg rs) := by
  have hins : ∀ {k : Kernel} (r : SQC), c.LeavesOccupied k →
      c.LeavesOccupied (insertInSRQ cfg k r.type r.id r.arg).1 := by
    intro k r h
    unfold insertInSRQ
    dsimp only
    split
    · exact h
    · cases c <;> exact h
  induction rs generalizing k with
  | nil => exact hc
  | cons r rs ih => exact ih (hins r hc)

theorem Sys.step_inTable (h : InTable cfg.toConfig m.k) (hok : LeavesOccupied m rs a) :
    Ensures (m.step cfg rs a) fun m => InTable cfg.toConfig m.k := by
  have hr : Responds cfg.served (Zone.table cfg.served.toConfig) := responds_table
  have hd : InTable cfg.served.toConfig (m.k.defer cfg.served rs) :=
    (defer_sealed rs h.sealed).inTable h.mtx
  refine fun m' hs => ?_
  obtain ⟨hx, -⟩ := Option.filter_eq_some_iff.mp hs
  unfold Sys.exec at hx
  dsimp only at hx
  split at hx
  · obtain ⟨k, e1, e2⟩ := Option.map_eq_some_iff.mp hx
    rw [← e2]
    have h1 := sysTick_Handler_sealed hr callsBack_table hd.sealed k e1
    exact (@takeSwitch_sealed cfg _ _ _ h1).inTable hd.mtx
  · next c r _ =>
    split at hx
    · exact nomatch hx
    · obtain ⟨x, e1, e2⟩ := Option.map_eq_some_iff.mp hx
      rw [← e2]
      exact Sys.after_inTable (Call.exec_inTable hr hd (Call.LeavesOccupied.defer hok) x e1)
  · next r _ =>
    split at hx
    · exact nomatch hx
    · obtain ⟨x, e1, e2⟩ := Option.map_eq_some_iff.mp hx
      rw [← e2]
      exact Sys.after_inTable (Cont.exec_inTable hr hd r _ x e1)
  · exact nomatch hx

/-- **Every pointer to a TCB names a task of the table, in every run that leaves no free mutex.** -/
theorem Reach.inTable (hm0 : InTable cfg.toConfig m0.k) (h : Reach cfg LeavesOccupied m0 m) :
    InTable cfg.toConfig m.k := by
  induction h with
  | start => exact hm0
  | step _ hok hs ih => exact Sys.step_inTable ih hok _ hs

end Runs

end CoOS
