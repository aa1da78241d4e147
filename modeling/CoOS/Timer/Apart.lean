/-
  The tasks do not read the timers.

  The ready list, the delay list and the scheduler neither read nor write `TmrTbl`, so a function
  of theirs commutes with a change of the timers (`Kernel.withTmr`): what is known of the tasks in
  states without timers holds with timers as well.

  The other way round, `TmrDispose` leaves the tasks alone when the callbacks call no function of
  the kernel (`Silent`).
-/
import CoOS.Coh.Tick
import CoOS.Kernel.Frame
import CoOS.Timer.Dispose

namespace CoOS

open Function (update)

/-- The state with these timers and this record of callbacks. -/
def Kernel.withTmr (k : Kernel) (m : Tmr) (log : List (Nat × Nat)) : Kernel :=
  { k with tmr := m, callBacks := log }

section Tasks

variable (cfg : Env) (k : Kernel) (m : Tmr) (log : List (Nat × Nat)) (t : Nat)

theorem findRdyPlace_withTmr (prio : Nat) : ∀ (n ptcb : Nat) (next : Option Nat),
    findRdyPlace (k.withTmr m log) prio n ptcb next = findRdyPlace k prio n ptcb next
  | _, _, none => by simp only [findRdyPlace]
  | 0, _, some _ => rfl
  | n + 1, ptcb, some next => by
    unfold findRdyPlace
    rw [findRdyPlace_withTmr prio n next]
    rfl

theorem robinCheck_withTmr :
    robinCheck cfg (k.withTmr m log) t = (robinCheck cfg k t).withTmr m log := by
  have hr : (k.withTmr m log).TCBRunning = k.TCBRunning := rfl
  unfold robinCheck
  rw [hr]
  cases k.TCBRunning with
  | none => rfl
  | some r =>
    dsimp only
    rw [apply_ite (fun k : Kernel => k.withTmr m log)]
    rfl

theorem insertOrdered_withTmr :
    insertOrdered cfg (k.withTmr m log) t = (insertOrdered cfg k t).map (·.withTmr m log) := by
  have hr : (k.withTmr m log).TCBRdy = k.TCBRdy := rfl
  unfold insertOrdered
  rw [hr]
  cases k.TCBRdy with
  | none => rfl
  | some h =>
    dsimp only
    rw [findRdyPlace_withTmr, apply_ite (Option.map fun k : Kernel => k.withTmr m log)]
    change (if k.prio t < k.prio h then _ else
      (findRdyPlace k (k.prio t) cfg.tasks h (k.TCBnext h)).bind _) = _
    congr 1
    change _ = Option.map _ (Option.bind _ _)
    cases findRdyPlace k (k.prio t) cfg.tasks h (k.TCBnext h) with
    | none => rfl
    | some x => rfl

theorem insertBinary_withTmr :
    insertBinary (k.withTmr m log) t = (insertBinary k t).map (·.withTmr m log) := by
  unfold insertBinary
  change (getPriSeqNum k (k.prio t)).bind _ = Option.map _ ((getPriSeqNum k (k.prio t)).bind _)
  cases getPriSeqNum k (k.prio t) with
  | none => rfl
  | some x =>
    dsimp only [Option.bind_some]
    rw [apply_ite (Option.map fun k : Kernel => k.withTmr m log),
      apply_ite (Option.map fun k : Kernel => k.withTmr m log)]
    rfl

theorem insertToTCBRdyList_withTmr : insertToTCBRdyList cfg (k.withTmr m log) t =
    (insertToTCBRdyList cfg k t).map (·.withTmr m log) := by
  unfold insertToTCBRdyList
  change (if cfg.orderListScheduleEn then insertOrdered cfg (robinCheck cfg
      (Kernel.withTmr { k with state := update k.state t .READY } m log) t) t
    else insertBinary
      (robinCheck cfg (Kernel.withTmr { k with state := update k.state t .READY } m log) t) t) = _
  rw [robinCheck_withTmr, insertOrdered_withTmr, insertBinary_withTmr,
    ← apply_ite (Option.map fun k : Kernel => k.withTmr m log)]

theorem removeIndex_withTmr (i : Nat) :
    removeIndex cfg (k.withTmr m log) i t = (removeIndex cfg k i t).withTmr m log := by
  have h1 : (k.withTmr m log).TCBnext t = k.TCBnext t := rfl
  have h2 : (k.withTmr m log).TCBprev t = k.TCBprev t := rfl
  unfold removeIndex
  dsimp only
  rw [h1, h2]
  cases k.TCBnext t with
  | none =>
    cases k.TCBprev t with
    | none => rfl
    | some p =>
      dsimp only
      rw [apply_ite (fun k : Kernel => k.withTmr m log)]
      rfl
  | some n =>
    cases k.TCBprev t with
    | none =>
      dsimp only
      rw [apply_ite (fun k : Kernel => k.withTmr m log)]
      rfl
    | some p =>
      dsimp only
      rw [apply_ite (fun k : Kernel => k.withTmr m log),
        apply_ite (fun k : Kernel => k.withTmr m log)]
      rfl

theorem removeFromTCBRdyList_withTmr : removeFromTCBRdyList cfg (k.withTmr m log) t =
    (removeFromTCBRdyList cfg k t).map (·.withTmr m log) := by
  unfold removeFromTCBRdyList
  rw [apply_ite (Option.map fun k : Kernel => k.withTmr m log)]
  congr 1
  change (getPriSeqNum k (k.prio t)).bind _ = Option.map _ ((getPriSeqNum k (k.prio t)).bind _)
  cases getPriSeqNum k (k.prio t) with
  | none => rfl
  | some x =>
    dsimp only [Option.bind_some]
    rw [removeIndex_withTmr]
    rfl

theorem resetCheckTime_withTmr :
    resetCheckTime cfg (k.withTmr m log) t = (resetCheckTime cfg k t).withTmr m log := by
  have hr : prioOf cfg (k.withTmr m log) (k.withTmr m log).TCBRdy = prioOf cfg k k.TCBRdy := by
    change prioOf cfg (k.withTmr m log) k.TCBRdy = _
    cases k.TCBRdy with
    | none => rfl
    | some r => rfl
  unfold resetCheckTime
  rw [hr, apply_ite (fun k : Kernel => k.withTmr m log)]
  rfl

theorem preempt_withTmr (cur rdy : Nat) : preempt cfg (k.withTmr m log) cur rdy =
    (preempt cfg k cur rdy).map (·.withTmr m log) := by
  unfold preempt
  change (insertToTCBRdyList cfg (Kernel.withTmr { k with TCBNext := some rdy } m log) cur).bind _ =
    Option.map _ ((insertToTCBRdyList cfg { k with TCBNext := some rdy } cur).bind _)
  rw [insertToTCBRdyList_withTmr]
  cases insertToTCBRdyList cfg { k with TCBNext := some rdy } cur with
  | none => rfl
  | some k1 =>
    change (removeFromTCBRdyList cfg (k1.withTmr m log) rdy).bind _ =
      Option.map _ ((removeFromTCBRdyList cfg k1 rdy).bind _)
    rw [removeFromTCBRdyList_withTmr]
    cases removeFromTCBRdyList cfg k1 rdy with
    | none => rfl
    | some k2 =>
      exact congrArg some
        (resetCheckTime_withTmr cfg { k2 with state := update k2.state rdy .RUNNING } m log rdy)

theorem schedule_some {rdy cur : Nat} (h1 : k.TCBRdy = some rdy) (h2 : k.TCBRunning = some cur) :
    schedule cfg k =
      if k.TCBRunning ≠ k.TCBNext ∨ 1 < k.OSSchedLock ∨ 0 < k.OSIntNesting then some k
      else if k.state cur ≠ .RUNNING then
        (removeFromTCBRdyList cfg { k with
          TaskSchedReq := false, TCBNext := some rdy, state :=
          update k.state rdy .RUNNING } rdy).bind
          fun s => some (resetCheckTime cfg s rdy)
      else if k.prio rdy < k.prio cur ∨
          (cfg.robinEn ∧ k.prio cur = k.prio rdy ∧ k.OSCheckTime = k.OSTickCnt) then
        preempt cfg { k with TaskSchedReq := false } cur rdy
      else some { k with TaskSchedReq := false } := by
  unfold schedule
  split
  · next rdy' cur' e1 e2 =>
    obtain rfl : rdy = rdy' := Option.some.inj (h1.symm.trans e1)
    obtain rfl : cur = cur' := Option.some.inj (h2.symm.trans e2)
    congr 1
    dsimp only
    congr 1
    by_cases hlt : k.prio rdy < k.prio cur
    · rw [if_pos hlt, if_pos (Or.inl hlt)]
    · rw [if_neg hlt]
      congr 1
      exact propext ⟨Or.inr, fun e => e.resolve_left hlt⟩
  · next hno => exact absurd h2 (hno rdy cur h1)

theorem schedule_idle (h : ∀ rdy cur, k.TCBRdy = some rdy → k.TCBRunning = some cur → False) :
    schedule cfg k = some k := by
  unfold schedule
  split
  · next rdy cur e1 e2 => exact (h rdy cur e1 e2).elim
  · rfl

theorem schedule_withTmr :
    schedule cfg (k.withTmr m log) = (schedule cfg k).map (·.withTmr m log) := by
  by_cases h : ∃ rdy cur, k.TCBRdy = some rdy ∧ k.TCBRunning = some cur
  · obtain ⟨rdy, cur, h1, h2⟩ := h
    rw [schedule_some cfg k h1 h2, schedule_some cfg (k.withTmr m log) h1 h2]
    let k0 : Kernel := { k with TaskSchedReq := false }
    let k1 : Kernel := { k0 with TCBNext := some rdy, state := update k.state rdy .RUNNING }
    have hrm : ((removeFromTCBRdyList cfg (k1.withTmr m log) rdy).bind fun s =>
        some (resetCheckTime cfg s rdy)) = Option.map (·.withTmr m log)
        ((removeFromTCBRdyList cfg k1 rdy).bind fun s => some (resetCheckTime cfg s rdy)) := by
      rw [removeFromTCBRdyList_withTmr]
      cases removeFromTCBRdyList cfg k1 rdy with
      | none => rfl
      | some k2 => exact congrArg some (resetCheckTime_withTmr cfg k2 m log rdy)
    have hpre := preempt_withTmr cfg k0 m log cur rdy
    simp only [apply_ite (Option.map fun k : Kernel => k.withTmr m log)]
    congr 1
    congr 1
    congr 1
  · have hno : ∀ rdy cur, k.TCBRdy = some rdy → k.TCBRunning = some cur → False :=
      fun rdy cur h1 h2 => h ⟨rdy, cur, h1, h2⟩
    rw [schedule_idle cfg k hno, schedule_idle cfg (k.withTmr m log) hno]
    rfl

theorem osSchedUnlock_withTmr (hi : k.IsrReq = false) :
    osSchedUnlock cfg (k.withTmr m log) = (osSchedUnlock cfg k).map (·.withTmr m log) := by
  rw [osSchedUnlock_eq cfg hi, osSchedUnlock_eq cfg (s := k.withTmr m log) hi, schedule_withTmr]
  change (if k.OSSchedLock = 1 then Option.map _ (if k.TaskSchedReq then _ else _) else _) = _
  by_cases hl : k.OSSchedLock = 1
  · rw [if_pos hl, if_pos hl]
    by_cases hr : k.TaskSchedReq = true
    · rw [if_pos hr, if_pos hr, Option.map_map, Option.map_map]
      rfl
    · rw [if_neg hr, if_neg hr]
      rfl
  · rw [if_neg hl, if_neg hl]
    rfl

theorem takeSwitch_withTmr : takeSwitch (k.withTmr m log) = (takeSwitch k).withTmr m log := by
  unfold takeSwitch
  rw [apply_ite (fun k : Kernel => k.withTmr m log)]
  rfl

theorem dropFlagNode_withTmr :
    dropFlagNode (k.withTmr m log) t = (dropFlagNode k t).withTmr m log := by
  have hp : (k.withTmr m log).pnode t = k.pnode t := rfl
  unfold dropFlagNode
  rw [hp]
  cases k.pnode t with
  | null => rfl
  | ones => rfl
  | node n =>
    have h1 : (k.withTmr m log).nextNode n = k.nextNode n := rfl
    have h2 : (k.withTmr m log).prevNode n = k.prevNode n := rfl
    dsimp only
    unfold removeLinkNode
    rw [h1, h2]
    cases k.nextNode n with
    | none =>
      cases k.prevNode n with
      | none => rfl
      | some p => rfl
    | some q =>
      cases k.prevNode n with
      | none => rfl
      | some p => rfl

theorem timeDispose_withTmr (n : Nat) : ∀ k : Kernel,
    timeDispose cfg n (k.withTmr m log) = (timeDispose cfg n k).map (·.withTmr m log) := by
  induction n with
  | zero =>
    intro k
    have hd : (k.withTmr m log).DlyList = k.DlyList := rfl
    unfold timeDispose
    rw [hd]
    cases k.DlyList with
    | none => rfl
    | some t =>
      dsimp only
      rw [apply_ite (Option.map fun k : Kernel => k.withTmr m log)]
      rfl
  | succ n ih =>
    intro k
    have hd : (k.withTmr m log).DlyList = k.DlyList := rfl
    unfold timeDispose
    rw [hd]
    cases k.DlyList with
    | none => rfl
    | some t =>
      dsimp only
      rw [apply_ite (Option.map fun k : Kernel => k.withTmr m log)]
      congr 1
      let k1 : Kernel := if k.eventID t ≠ INVALID_ID then removeEventWaittingList k t else k
      have hk1 : (if (k.withTmr m log).eventID t ≠ INVALID_ID then
          removeEventWaittingList (k.withTmr m log) t else k.withTmr m log) = k1.withTmr m log := by
        unfold k1
        rw [apply_ite (fun k : Kernel => k.withTmr m log)]
        rfl
      rw [hk1, dropFlagNode_withTmr]
      let k2 : Kernel := { dropFlagNode k1 t with
        delayTick := update (dropFlagNode k1 t).delayTick t INVALID_VALUE
        DlyList := (dropFlagNode k1 t).TCBnext t
        TCBnext := update (dropFlagNode k1 t).TCBnext t none }
      change (insertToTCBRdyList cfg (k2.withTmr m log) t).bind _ =
        Option.map _ ((insertToTCBRdyList cfg k2 t).bind _)
      rw [insertToTCBRdyList_withTmr]
      cases insertToTCBRdyList cfg k2 t with
      | none => rfl
      | some k3 =>
        have h1 := congrArg (timeDispose cfg n) (fixHead_eq (k3.withTmr m log))
        have h2 := congrArg (fun k => (timeDispose cfg n k).map (·.withTmr m log)) (fixHead_eq k3)
        exact h1.trans ((ih (fixHead k3)).trans h2.symm)

theorem sysTickDelay_withTmr :
    sysTickDelay cfg (k.withTmr m log) = (sysTickDelay cfg k).map (·.withTmr m log) := by
  cases hd : k.DlyList with
  | none =>
    rw [sysTickDelay_none hd, sysTickDelay_none (s := k.withTmr m log) hd]
    rfl
  | some h =>
    have hdis :=
      timeDispose_withTmr cfg m log cfg.tasks { k with delayTick := update k.delayTick h 0 }
    rw [sysTickDelay_some hd, sysTickDelay_some (s := k.withTmr m log) hd]
    unfold isr_TimeDispose
    simp only [apply_ite (Option.map fun k : Kernel => k.withTmr m log)]
    congr 1
    congr 1

theorem respondTime_withTmr :
    respondTime cfg (k.withTmr m log) = (respondTime cfg k).map (·.withTmr m log) := by
  unfold respondTime
  change (if k.TimeReq then (timeDispose cfg cfg.tasks (k.withTmr m log)).map _ else _) = _
  rw [timeDispose_withTmr, apply_ite (Option.map fun k : Kernel => k.withTmr m log), Option.map_map,
    Option.map_map]
  rfl

variable {cfg k} in
/-- What is known of the tasks does not depend on the timers. -/
theorem Stable.withoutTmr {g : Ghost} {r : Nat} (h : Stable cfg k g r) :
    Stable cfg (k.withTmr Tmr.zero []) g r := by
  have hv : (k.withTmr Tmr.zero []).view = k.view :=
    congrArg (fun l => { k.view with TmrList := l })
      (show (none : Option Nat) = k.tmr.TmrList from h.coh.tmr.symm)
  exact ⟨h.coh.congr hv, h.lock, h.running,
    ⟨h.picked.next, h.picked.live, h.picked.running, h.picked.first⟩, h.req, h.ticks, h.idle⟩

end Tasks

/-! ## Callbacks that call no function of the kernel -/

/-- The callbacks of the application leave the kernel alone. -/
def Silent (cfg : Env) : Prop := ∀ f k, cfg.runCallBack f k = some k

theorem Silent.ok {cfg : Env} (h : Silent cfg) : CallBacksOk cfg := fun f k => ⟨k, h f k, rfl⟩

/-- Only the timers and the record of callbacks differ. -/
def OnlyTmr (k k' : Kernel) : Prop := ∃ m log, k' = k.withTmr m log

theorem OnlyTmr.refl (k : Kernel) : OnlyTmr k k := ⟨k.tmr, k.callBacks, rfl⟩

theorem OnlyTmr.trans {k k' k'' : Kernel} (h : OnlyTmr k k') (h' : OnlyTmr k' k'') :
    OnlyTmr k k'' := by
  obtain ⟨m, log, rfl⟩ := h
  obtain ⟨m', log', rfl⟩ := h'
  exact ⟨m', log', rfl⟩

theorem OnlyTmr.eq {k k' : Kernel} (h : OnlyTmr k k') : k' = k.withTmr k'.tmr k'.callBacks := by
  obtain ⟨m, log, rfl⟩ := h
  rfl

section Timers

variable {cfg : Env} {k : Kernel}

theorem callBack_onlyTmr (hcb : Silent cfg) (t : Nat) : Ensures (callBack cfg k t) (OnlyTmr k) := by
  unfold callBack
  rw [hcb]
  exact .some ⟨k.tmr, k.callBacks ++ [(t, k.OSTickCnt)], rfl⟩

/-- The lock that the functions of the timer list take is not the outermost one. -/
theorem unlock_onlyTmr (hl : 0 < k.OSSchedLock) (m : Tmr) :
    Ensures (osSchedUnlock cfg { osSchedLock k with tmr := m }) (OnlyTmr k) := by
  have hne : ({ osSchedLock k with tmr := m } : Kernel).OSSchedLock ≠ 1 := by
    change k.OSSchedLock + 1 ≠ 1
    omega
  rw [osSchedUnlock_nested cfg hne]
  exact .some ⟨m, k.callBacks, rfl⟩

theorem fireTmr_onlyTmr (hcb : Silent cfg) (hl : 0 < k.OSSchedLock) (t : Nat) :
    Ensures (fireTmr cfg k t) (OnlyTmr k) := by
  have hremove : Ensures (removeTmrList cfg k t) (OnlyTmr k) := unlock_onlyTmr hl _
  unfold fireTmr
  refine .ite (fun _ => ?_) fun _ => ?_
  · refine Ensures.bind hremove fun k1 h1 => ?_
    obtain ⟨m, log, rfl⟩ := h1
    let k2 : Kernel := k.withTmr { m with tmrCnt := update m.tmrCnt t (m.tmrReload t) } log
    have hinsert : Ensures (insertTmrList cfg k2 t) (OnlyTmr k2) := by
      unfold insertTmrList
      refine .ite (fun _ => .some (.refl k2)) fun _ => ?_
      exact Ensures.skip fun D => unlock_onlyTmr (k := k2) hl _
    refine Ensures.bind hinsert fun k3 h3 => ?_
    obtain ⟨m3, log3, rfl⟩ := h3
    exact (callBack_onlyTmr hcb t).imp fun k4 h4 => OnlyTmr.trans ⟨m3, log3, rfl⟩ h4
  · refine Ensures.bind hremove fun k1 h1 => ?_
    obtain ⟨m, log, rfl⟩ := h1
    exact (callBack_onlyTmr hcb t).imp fun k4 h4 => OnlyTmr.trans ⟨_, log, rfl⟩ h4

theorem tmrDispose_onlyTmr (hcb : Silent cfg) (n : Nat) : ∀ {k : Kernel}, 0 < k.OSSchedLock →
    Ensures (tmrDispose cfg n k) (OnlyTmr k) := by
  induction n with
  | zero =>
    intro k _
    unfold tmrDispose
    split
    · exact .some (.refl k)
    · exact .ite (fun _ => .some (.refl k)) fun _ => .none
  | succ n ih =>
    intro k hl
    unfold tmrDispose
    split
    · exact .some (.refl k)
    · next t _ =>
      refine .ite (fun _ => .some (.refl k)) fun _ => ?_
      refine Ensures.bind (fireTmr_onlyTmr hcb hl t) fun k1 h1 => ?_
      obtain ⟨m, log, rfl⟩ := h1
      exact (ih (k := k.withTmr m log) hl).imp fun k2 h2 => OnlyTmr.trans ⟨m, log, rfl⟩ h2

theorem sysTickTmr_onlyTmr (hcb : Silent cfg) (hl : k.OSSchedLock = 1) :
    Ensures (sysTickTmr cfg k) (OnlyTmr k) := by
  unfold sysTickTmr
  split
  · exact .some (.refl k)
  · next h _ =>
    refine .ite (fun _ => .some ⟨_, k.callBacks, rfl⟩) fun _ => ?_
    let k1 : Kernel := k.withTmr { k.tmr with tmrCnt := update k.tmr.tmrCnt h 0 } k.callBacks
    refine .ite (fun hn => ?_) fun _ => ?_
    · change 1 < k.OSSchedLock at hn
      omega
    · refine (tmrDispose_onlyTmr (k := k1) hcb cfg.maxTmr ?_).imp fun k2 h2 =>
        OnlyTmr.trans ⟨_, _, rfl⟩ h2
      change 0 < k.OSSchedLock
      omega

end Timers

end CoOS
