/-
  After `CoStartOS` `TCBRunning` is never null, and the only null read left is at the end of
  `Schedule`, when a task that stops itself leaves nobody but its successor (`null_read_iff`).
-/
import CoOS.Run.Reads

namespace CoOS

open Function (update)
open DList KeyOrder

/-! ## Calls after `CoStartOS` -/

section Calls

variable {cfg : Env} {s : Kernel} {g : Ghost} {r t : Nat} {F : List Nat}

/-- The running task goes on: it is in no list, and has not been made to wait. -/
theorem Pending.goes_on {s1 : Kernel} {g1 : Ghost} (h : Pending cfg s1 g1 r) (hlive : Live cfg g1 r)
    (ho : g1.tcb.loc r ≠ some .rdy) (hw : s1.state r ≠ .WAITING) : s1.state r = .RUNNING := by
  cases hst : s1.state r with
  | READY => exact absurd ((h.coh.ready_iff hlive).mpr hst) ho
  | RUNNING => rfl
  | WAITING => exact absurd hst hw
  | DORMANT => exact absurd hst (h.coh.not_dormant hlive)

theorem Stable.assignReads (h : Stable cfg s g r) (hr : r ≠ 0) (hi : s.IsrReq = false) :
    assignReads cfg s = [] := by
  have hq : ∀ k : Kernel, k.IsrReq = false → k.TaskSchedReq = false → unlockReads cfg k = [] := by
    intro k h1 h2
    unfold unlockReads
    rw [h1, if_neg Bool.false_ne_true, readsAfter_some, h2, if_neg Bool.false_ne_true, ite_self]
  unfold CoOS.assignReads
  split
  · exact hq _ hi (h.noreq hr)
  · exact hq _ hi (h.noreq hr)

theorem createTaskReads_safe (h : Stable cfg s g r) (hr : r ≠ 0) (hi : s.IsrReq = false)
    (hrob : cfg.robinEn = true) (task stk parameter : Nat) :
    none ∉ createTaskReads cfg s task stk parameter := by
  have hp : parameter &&& 0xff < 256 := Nat.lt_succ_of_le Nat.and_le_right
  unfold createTaskReads
  split
  · exact List.not_mem_nil
  rw [h.assignReads hr hi, List.nil_append, assignTCB_eq h hr hi]
  cases hl : g.tcb.lst .free with
  | nil =>
    have hfree : s.FreeTCB = none :=
      (h.coh.rep.tcb.single .free).head.trans (congrArg List.head? hl)
    rw [hfree]
    exact List.not_mem_nil
  | cons t l =>
    have hfree : s.FreeTCB = some t :=
      (h.coh.rep.tcb.single .free).head.trans (congrArg List.head? hl)
    rw [hfree]
    dsimp only
    obtain ⟨T, h1, h2, h3, h4, h5, h6, -⟩ := @Stable.alloc cfg s g r t h l hl (parameter &&& 0xff)
      (newSlice cfg parameter) hp
    have h1' : (if cfg.orderListScheduleEn then
        some (s.assigned t (parameter &&& 0xff) (newSlice cfg parameter))
        else activeTaskPri (s.assigned t (parameter &&& 0xff) (newSlice cfg parameter))
          (parameter &&& 0xff)) = _ := h1
    intro hn
    obtain ⟨k, e1, e2⟩ := mem_readsAfter.mp hn
    obtain rfl := Option.some.inj (h1'.symm.trans e1)
    split at e2
    · rw [← readyReads_state _ _ t .WAITING] at e2
      refine h2.enter.readyReads_safe hrob (congrArg Nat.succ h.lock) hi ?_ h3 h5 h6 h4 e2
      exact (Function.update_of_ne (Ne.symm h4) ..).trans h.picked.running
    · exact List.not_mem_nil e2

theorem delTaskReads_safe (h : Stable cfg s g r) (hr : r ≠ 0) (hi : s.IsrReq = false)
    (hrob : cfg.robinEn = true) (hf : FlagOk cfg s g F) (hlive : Live cfg g t) (htr : t ≠ r)
    (hm : s.mutexID t = INVALID_ID) (hmx : ∀ m, g.tcb.loc t ≠ some (.mtx m)) (hw : ¬ s.Wild t) :
    none ∉ delTaskReads cfg s t := by
  unfold delTaskReads
  split
  · exact List.not_mem_nil
  next hn =>
  simp only [not_or] at hn
  obtain ⟨s1, s2, g1, T, e1, rfl, e2, e3, e4⟩ := delete_section h hr hf hlive hn.2.2.1 hm hmx hw
  have hlive1 : Live cfg g1 r := by
    unfold Live
    rw [e4.loc r (Ne.symm htr)]
    exact h.picked.live
  have hloc : g1.tcb.loc r ≠ some .rdy := by
    rw [e4.loc r (Ne.symm htr), (h.coh.loc_of_running h.picked.live h.picked.running).1]
    exact fun e => nomatch e
  have hw := (e3.data.waits r).not.mpr fun e => by
    have hwait : s.state r = .WAITING := e.2
    rw [h.picked.running] at hwait
    exact nomatch hwait
  refine mt (congrArg (none ∈ readsAfter · _) e1).mp ?_
  dsimp only [readsAfter_some] at e2 ⊢
  rw [e2, readsAfter_some]
  have hisr := (congrArg Aside.IsrReq e3.data.aside).trans
    ((congrArg EvtPart.IsrReq (dropFlags_evtPart s.aside [t])).trans hi)
  exact e3.pend.unlockReads_safe hrob (e3.lock.trans (congrArg Nat.succ h.lock)) hisr
    (e3.pend.goes_on hlive1 hloc hw)

/-- The running task ends itself. -/
theorem delTaskReads_self (h : Stable cfg s g r) (hr : r ≠ 0) (hi : s.IsrReq = false)
    (hrob : cfg.robinEn = true) :
    none ∈ delTaskReads cfg s r ↔ ∃ a, g.tcb.lst .rdy = [a] := by
  have hlive := h.picked.live
  obtain ⟨ho, he⟩ := h.coh.loc_of_running hlive h.picked.running
  have hn : ¬ (cfg.tasks ≤ r ∨ s.state r = .DORMANT ∨ r = 0 ∨
      (s.state r = .RUNNING ∧ s.OSSchedLock ≠ 0)) := by
    rintro (e | e | e | e)
    · exact absurd hlive.1 (Nat.not_lt_of_le e)
    · exact h.coh.not_dormant hlive e
    · exact hr e
    · exact e.2 h.lock
  let k : Kernel := { osSchedLock s with state := update s.state r .WAITING, TaskSchedReq := true }
  let s2 : Kernel := { osSchedLock s with state := update s.state r .DORMANT, TaskSchedReq := true }
  have hs2 : s2 = { k with state := update k.state r .DORMANT, TaskSchedReq := true } :=
    congrArg (fun f => { osSchedLock s with state := f, TaskSchedReq := true })
      (show update s.state r .DORMANT = update (update s.state r .WAITING) r .DORMANT by
        rw [Function.update_idem])
  have hk : Pending cfg k g r := h.enter.block hr h.picked.running
  obtain ⟨T, e1, e2⟩ := hk.release hlive.1 ho he hr hs2
  have hlst : (g.release r).tcb.lst .rdy = g.tcb.lst .rdy := Family.put_lst_ne _ _ (by decide)
  have hst : ((s2.setPriTable T).freed r).state r ≠ .RUNNING := by
    change update s.state r .DORMANT r ≠ .RUNNING
    rw [Function.update_self]
    decide
  have hcode : delTaskReads cfg s r = unlockReads cfg ((s2.setPriTable T).freed r) := by
    unfold delTaskReads
    rw [if_neg hn, h.picked.running]
    dsimp only
    rw [readsAfter_some]
    exact congrArg (readsAfter · fun s => unlockReads cfg (s.freed r)) e1
  rw [hcode, e2.null_unlockReads hrob (congrArg Nat.succ h.lock) hi, hlst]
  exact and_iff_right hst

theorem suspendTaskReads_null (h : Stable cfg s g r) (hr : r ≠ 0) (hi : s.IsrReq = false)
    (hrob : cfg.robinEn = true) (hlive : Live cfg g t) :
    none ∈ suspendTaskReads cfg s t ↔ t = r ∧ ∃ a, g.tcb.lst .rdy = [a] := by
  have hl : (osSchedLock s).OSSchedLock = 1 := congrArg Nat.succ h.lock
  unfold suspendTaskReads
  by_cases htr : t = r
  · subst htr
    have hn : ¬ (t = 0 ∨ cfg.tasks ≤ t ∨ s.state t = .DORMANT ∨ s.OSSchedLock ≠ 0 ∨
        s.state t = .WAITING) := by
      rw [h.picked.running]
      rintro (e | e | e | e | e)
      · exact hr e
      · exact absurd hlive.1 (Nat.not_lt_of_le e)
      · exact nomatch e
      · exact e h.lock
      · exact nomatch e
    have hk := h.enter.block hr h.picked.running
    have hst : update s.state t .WAITING t ≠ .RUNNING := by
      rw [Function.update_self]
      decide
    rw [if_neg hn, if_neg (not_not.mpr h.running.symm), readsAfter_some,
      and_iff_right (rfl : t = t)]
    exact (hk.null_unlockReads hrob hl hi).trans (and_iff_right hst)
  · refine ⟨fun e => ?_, fun e => absurd e.1 htr⟩
    split at e
    · exact absurd e List.not_mem_nil
    next hn =>
    simp only [not_or] at hn
    have hready : s.state t = .READY := by
      by_contra hne
      exact hn.2.2.2.2 (h.coh.waiting_of hlive hne fun e => htr (h.eq_of_running hlive e))
    have hloc := (h.coh.ready_iff hlive).mpr hready
    have hrun : some t ≠ s.TCBRunning := by
      rw [h.running]
      exact fun e => htr (Option.some.inj e)
    obtain ⟨T, e1, e2⟩ := h.enter.remove hloc hn.1
    rw [if_pos hrun, e1, readsAfter_some] at e
    exact absurd e (e2.unlockReads_safe hrob hl hi
      ((Function.update_of_ne (Ne.symm htr) ..).trans h.picked.running))

theorem awakeTaskReads_safe (h : Stable cfg s g r) (hi : s.IsrReq = false)
    (hrob : cfg.robinEn = true) (hlive : Live cfg g t) (hmx : ∀ m, g.tcb.loc t ≠ some (.mtx m)) :
    none ∉ awakeTaskReads cfg s t := by
  unfold awakeTaskReads
  split
  · exact List.not_mem_nil
  next hn =>
  simp only [not_or, not_not] at hn
  obtain ⟨-, -, hw, hd, -, he, hm⟩ := hn
  obtain ⟨hev, hloc⟩ := h.coh.waits_for_nothing hlive hw hd he hm fun m e => absurd e (hmx m)
  have htr : t ≠ r := by
    rintro rfl
    rw [h.picked.running] at hw
    exact nomatch hw
  exact h.enter.readyReads_safe hrob
    (congrArg Nat.succ h.lock) hi h.picked.running hlive hloc hev htr

theorem tickDelayReads_null (h : Stable cfg s g r) (hr : r ≠ 0) (hi : s.IsrReq = false)
    (hrob : cfg.robinEn = true) {n : Nat} (hn : n < 2 ^ 31) :
    none ∈ tickDelayReads cfg s n ↔ n ≠ 0 ∧ ∃ a, g.tcb.lst .rdy = [a] := by
  unfold tickDelayReads
  by_cases h0 : n = 0
  · rw [if_pos (Or.inr (Or.inr (Or.inl h0)))]
    exact ⟨fun e => absurd e List.not_mem_nil, fun e => absurd h0 e.1⟩
  · have hinv : n ≠ INVALID_VALUE := by
      unfold INVALID_VALUE
      omega
    have hc : ¬ (0 < s.OSIntNesting ∨ n = INVALID_VALUE ∨ n = 0 ∨ s.OSSchedLock ≠ 0) := by
      rintro (e | e | e | e)
      · exact absurd h.coh.nest (Nat.ne_of_gt e)
      · exact hinv e
      · exact h0 e
      · exact e h.lock
    obtain ⟨ho, -⟩ := h.coh.loc_of_running h.picked.live h.picked.running
    obtain ⟨D, e1, e2⟩ := h.enter.delay h.picked.live ho hr h0 hn
    have hlst : (g.delay r n).tcb.lst .rdy = g.tcb.lst .rdy := Family.put_lst_ne _ _ (by decide)
    have hst : update (osSchedLock s).state r .WAITING r ≠ .RUNNING := by
      rw [Function.update_self]
      decide
    rw [if_neg hc, h.running]
    dsimp only
    rw [e1, readsAfter_some, and_iff_right h0, ← hlst]
    exact (e2.null_unlockReads hrob (congrArg Nat.succ h.lock) hi).trans (and_iff_right hst)

theorem resetDelayReads_safe (h : Stable cfg s g r) (hi : s.IsrReq = false)
    (hrob : cfg.robinEn = true) (hlive : Live cfg g t) {n : Nat} (hn : n < 2 ^ 31)
    (h0 : n = 0 → g.evt.loc t = none) : none ∉ resetDelayReads cfg s t n := by
  unfold resetDelayReads
  split
  · exact List.not_mem_nil
  next hc =>
  simp only [not_or] at hc
  have hloc := (h.coh.delayTick_iff hlive).mp hc.2.2
  have hw := (h.coh.task t hlive).dly hloc
  have ht0 := h.coh.ne_idle h.idle hw
  have htr : t ≠ r := by
    rintro rfl
    rw [h.picked.running] at hw
    exact nomatch hw
  obtain ⟨g1, e1, e2, e3, -⟩ := h.enter.undelay hlive hw (Or.inr hloc)
  rw [if_pos (show (osSchedLock s).delayTick t ≠ INVALID_VALUE from hc.2.2)] at e1
  have hlive1 : Live cfg g1 t := ⟨hlive.1, by rw [e2]; exact fun e => nomatch e⟩
  have hl : (removeDelayList (osSchedLock s) t).OSSchedLock = 1 := congrArg Nat.succ h.lock
  have hi1 : (removeDelayList (osSchedLock s) t).IsrReq = false := hi
  have hst : (removeDelayList (osSchedLock s) t).state r = .RUNNING := h.picked.running
  dsimp only
  generalize removeDelayList (osSchedLock s) t = k at e1 hl hi1 hst ⊢
  by_cases hz : n = 0
  · rw [if_pos hz]
    exact e1.readyReads_safe hrob hl hi1 hst hlive1 e2 (by rw [e3]; exact h0 hz) htr
  · obtain ⟨D, f1, f2⟩ := e1.delay hlive1 e2 ht0 hz hn
    rw [if_neg hz, f1, readsAfter_some]
    exact f2.unlockReads_safe hrob hl hi1 ((Function.update_of_ne (Ne.symm htr) ..).trans hst)

/-- A caller has the idle task behind it. -/
theorem Stable.rdy_ne (h : Stable cfg s g r) (hr : r ≠ 0) : g.tcb.lst .rdy ≠ [] :=
  List.ne_nil_of_mem ((h.coh.rep.tcb.mem .rdy 0).mpr (h.idle_ready hr))

theorem reorderWaitingReads_safe (h : Stable cfg s g r) (hi : s.IsrReq = false)
    (hrob : cfg.robinEn = true) (hlive : Live cfg g t) (h0 : t ≠ 0) :
    none ∉ reorderWaitingReads cfg s t := by
  unfold reorderWaitingReads
  split
  · next hc =>
    obtain ⟨e, he⟩ := (h.coh.eventID_iff hlive).mp hc.1
    have hid : s.eventID t = e := by
      have := (h.coh.task t hlive).ev
      rw [he] at this
      exact this
    rw [hid] at hc ⊢
    obtain ⟨s1, g1, e1, e2, -, e4⟩ := reorderWaiting_link h hlive h0 he hc.2
    have hw := (h.coh.waits hlive he).1
    have htr : r ≠ t := by
      rintro rfl
      rw [h.picked.running] at hw
      exact nomatch hw
    have hst : update s1.state t .WAITING r = .RUNNING :=
      (Function.update_of_ne htr ..).trans ((congrFun e4 r).trans h.picked.running)
    have hisr : s1.IsrReq = false :=
      (congrArg Frame.IsrReq (linkWaiting_frame cfg e t rfl s1 e1)).trans hi
    intro hn
    obtain ⟨k, f1, f2⟩ := mem_readsAfter.mp hn
    obtain rfl : s1 = k := Option.some.inj (e1.symm.trans f1)
    exact e2.pend.unlockReads_safe hrob (e2.lock.trans (congrArg Nat.succ h.lock)) hisr hst f2
  · exact List.not_mem_nil

theorem setPriorityReads_safe (h : Stable cfg s g r) (hr : r ≠ 0) (hi : s.IsrReq = false)
    (hrob : cfg.robinEn = true) (hlive : Live cfg g t)
    (hb : cfg.orderListScheduleEn = true ∨ s.state t ≠ .READY) (p : Nat) :
    none ∉ setPriorityReads cfg s t p := by
  have hl : s.OSSchedLock + 1 = 1 := congrArg Nat.succ h.lock
  unfold setPriorityReads
  split
  · exact List.not_mem_nil
  next hc =>
  simp only [not_or] at hc
  obtain ⟨h0, -, hd, hlp, -⟩ := hc
  have hp : p < 256 := by
    have := cfg.lowestPrio_le
    omega
  cases hst : s.state t with
  | READY =>
    have hord := hb.resolve_right fun e => e hst
    have htr : t ≠ r := by
      rintro rfl
      rw [h.picked.running] at hst
      exact nomatch hst
    obtain ⟨s1, g1, e1, e2, -, e4⟩ := reorderReady_body h hord hlive hst h0 hp
    rw [show changeTaskPri cfg s (s.prio t) p = some s from if_pos hord, readsAfter_some]
    dsimp only
    rw [hst]
    dsimp only
    unfold reorderReady at e1
    obtain ⟨k, f1, f2⟩ := Option.bind_eq_some_iff.mp e1
    have hrun : k.TCBRunning = some r :=
      (congrArg Frame.TCBRunning (removeFromTCBRdyList_frame cfg t rfl k f1)).trans h.running
    rw [f1, readsAfter_some]
    unfold readyReads
    rw [List.mem_append, null_insertReads hrob, hrun, f2, readsAfter_some]
    rintro (e | e)
    · exact nomatch e
    · have hisr : s1.IsrReq = false :=
        (congrArg Frame.IsrReq (insertToTCBRdyList_frame cfg t rfl s1 f2)).trans
          ((congrArg Frame.IsrReq (removeFromTCBRdyList_frame cfg t rfl k f1)).trans hi)
      exact e2.pend.unlockReads_safe hrob (e2.lock.trans hl) hisr (e4.trans h.picked.running) e
  | RUNNING =>
    obtain rfl := h.eq_of_running hlive hst
    have hloc : g.tcb.loc t ≠ some .rdy := by
      rw [(h.coh.loc_of_running hlive hst).1]
      exact fun e => nomatch e
    obtain ⟨T, e1, e2⟩ := h.coh.setPrio hlive hloc hp
    have hrdy : s.TCBRdy ≠ none := fun e => h.rdy_ne hr ((rdy_none h.coh.rep).mp e)
    rw [e1, readsAfter_some]
    dsimp only
    rw [show (s.setPriTable T).state t = .RUNNING from hst]
    dsimp only
    rw [List.mem_cons]
    rintro (e | e)
    · exact hrdy e.symm
    · split at e
      · have hpend : Pending cfg { osSchedLock (s.reprio T t p) with TaskSchedReq := true } g t :=
          ⟨e2.congr rfl, h.picked.live.1, h.running, h.picked.next, Nat.succ_pos _, Or.inl rfl,
            fun _ => h.ticks, h.idle⟩
        exact hpend.unlockReads_safe hrob hl hi hst e
      · exact List.not_mem_nil e
  | WAITING =>
    obtain ⟨T, e1, e2⟩ := h.reprio hlive hst hp
    rw [e1, readsAfter_some]
    dsimp only
    rw [show (s.setPriTable T).state t = .WAITING from hst]
    dsimp only
    exact reorderWaitingReads_safe (s := s.reprio T t p) e2 hi hrob hlive h0
  | DORMANT => exact absurd hst hd

/-- Nobody else starts to run inside the loop. -/
theorem timeDisposeReads_safe (hrob : cfg.robinEn = true) (fuel : Nat) : ∀ {s : Kernel},
    s.TCBRunning = some r → none ∉ timeDisposeReads cfg fuel s := by
  induction fuel with
  | zero => exact fun _ => List.not_mem_nil
  | succ fuel ih =>
    intro s h
    unfold timeDisposeReads
    split
    · exact List.not_mem_nil
    next t _ =>
    split
    · exact List.not_mem_nil
    let s1 : Kernel := dropFlagNode
      (if s.eventID t ≠ INVALID_ID then removeEventWaittingList s t else s) t
    have h1 : s1.TCBRunning = some r :=
      (congrArg (fun v : Slot => v.frame.TCBRunning)
        ((dropFlagNode_slot _ t).trans (removeEvent_slot s t))).trans h
    dsimp only
    rw [List.mem_append, null_insertReads hrob]
    rintro (e | e)
    · rw [show s1.TCBRunning = none from e] at h1
      exact nomatch h1
    · obtain ⟨k, f1, f2⟩ := mem_readsAfter.mp e
      have hk : k.TCBRunning = some r :=
        (congrArg Frame.TCBRunning (insertToTCBRdyList_frame cfg t rfl k f1)).trans h1
      refine ih ?_ f2
      split
      · exact hk
      · exact hk

theorem sysTickReads_safe (h : Stable cfg s g r) (hi : s.IsrReq = false)
    (hrob : cfg.robinEn = true) : none ∉ sysTickReads cfg s := by
  obtain ⟨s1, g1, e1, e2, e3, -, e5⟩ := sysTickDelay_pending h
  have hdly : none ∉ sysTickDelayReads cfg { osSchedLock s with OSTickCnt := s.OSTickCnt + 1 } := by
    unfold sysTickDelayReads
    split
    · exact List.not_mem_nil
    · split
      · exact List.not_mem_nil
      · exact timeDisposeReads_safe hrob _ h.running
  have htmr : sysTickTmr cfg s1 = some s1 := by
    unfold sysTickTmr
    rw [show s1.tmr.TmrList = none from e2.coh.tmr]
  have hst : s1.state r = .RUNNING := by
    rw [e5.state r, if_neg fun hm => ?_]
    · exact h.picked.running
    · have hloc := due_loc h.coh r hm
      rw [(h.coh.loc_of_running h.picked.live h.picked.running).1] at hloc
      exact nomatch hloc
  unfold sysTickReads
  dsimp only
  rw [List.mem_append]
  rintro (e | e)
  · exact hdly e
  · rw [e1, Option.bind_some, htmr, readsAfter_some] at e
    have hisr : s1.IsrReq = false :=
      (congrArg Aside.IsrReq e5.aside).trans
        ((congrArg EvtPart.IsrReq (dropFlags_evtPart _ _)).trans hi)
    exact e2.unlockReads_safe hrob (e3.trans (congrArg Nat.succ h.lock)) hisr hst e

end Calls

/-! ## Runs after `CoStartOS` -/

/-- The calls of the runs in question. -/
def Call.ofTasks : Call → Bool
  | .createTask .. | .delTask _ | .exitTask | .suspendTask _ | .awakeTask _ | .setPriority ..
  | .tickDelay _ | .resetDelay .. => true
  | _ => false

/-- The steps of the runs in question. -/
def TaskStep (cfg : Env) (m : Sys) (rs : List SQC) (act : Act) : Prop :=
  rs = [] ∧ (match act with
    | .call c => c.ofTasks
    | .tick => true
    | .resume => false) ∧ Tame cfg m rs act

/-- The call takes the CPU from its caller `r`. -/
def Call.parks (r : Nat) : Call → Prop
  | .delTask t | .suspendTask t => t = r
  | .exitTask => True
  | .tickDelay n => n ≠ 0
  | _ => False

/-- The step takes the CPU from the running task for good. -/
def Sys.parks (m : Sys) : Act → Prop
  | .call c => ∃ r, m.k.TCBRunning = some r ∧ c.parks r
  | _ => False

section Runs

variable {cfg : Env} {s : Kernel} {m m' m0 : Sys} {g : Ghost} {r : Nat} {F : List Nat}
  {i : Idle} {us : List Setup}

/-- One ready task, as the code can see it. -/
theorem rdy_single (h : Rep cfg s g) (hne : g.tcb.lst .rdy ≠ []) :
    s.TCBRdy.bind s.TCBnext = none ↔ ∃ a, g.tcb.lst .rdy = [a] := by
  have hs : IsSList s.TCBRdy s.TCBnext (g.tcb.lst .rdy) := h.ready.links.toSList
  cases hl : g.tcb.lst .rdy with
  | nil => exact absurd hl hne
  | cons a l =>
    rw [hl] at hs
    rw [hs.head, List.head?_cons, Option.bind_some, hs.next a List.mem_cons_self, nextIn_cons_self,
      List.head?_eq_none_iff]
    exact ⟨fun e => ⟨a, by rw [e]⟩, fun ⟨b, e⟩ => (List.cons.inj e).2⟩

theorem Stable.rejected_reads (h : Stable cfg s g r) {c : Call} (hc : c.Rejected cfg s) :
    none ∉ c.reads cfg s ∧ ¬ c.parks r := by
  have hfour : ∀ {t}, ¬ s.alive cfg t ∧ (t + 1 = cfg.tasks → s.hasStk t = true) →
      (cfg.tasks ≤ t ∨ s.state t = .DORMANT) ∧ t ≠ r := by
    intro t ht
    refine ⟨?_, ?_⟩
    · by_cases hlt : cfg.tasks ≤ t
      · exact Or.inl hlt
      · exact Or.inr ((h.coh.dormant_iff ht.1 (Nat.lt_of_not_le hlt)).mpr ht.2)
    · rintro rfl
      exact ht.1 ((alive_iff h.coh.rep t).mpr h.picked.live)
  have hnil : ∀ {x : Reads}, x = [] → none ∉ x := fun e => by
    rw [e]
    exact List.not_mem_nil
  cases c with
  | delTask t =>
    obtain ⟨h1, h2⟩ := hfour hc
    exact ⟨hnil (if_pos (h1.imp id Or.inl)), h2⟩
  | suspendTask t =>
    obtain ⟨h1, h2⟩ := hfour hc
    exact ⟨hnil (if_pos (Or.inr (h1.imp id Or.inl))), h2⟩
  | awakeTask t =>
    refine ⟨hnil (if_pos (Or.inr ((hfour hc).1.imp id fun e => Or.inl ?_))), id⟩
    rw [e]
    decide
  | setPriority t p => exact ⟨hnil (if_pos (Or.inr ((hfour hc).1.imp id Or.inl))), id⟩
  | resetDelay t n =>
    refine ⟨hnil (if_pos ?_), id⟩
    by_cases ht : cfg.tasks ≤ t
    · exact Or.inl ht
    by_cases hs : s.hasStk t = true
    · exact Or.inr (Or.inr (h.coh.spare t (h.coh.free_of_not_alive hc (Nat.lt_of_not_le ht)) hs))
    · exact Or.inr (Or.inl hs)
  | _ => exact hc.elim

theorem Call.null_reads (h : Inv cfg m g r F) (hr : r ≠ 0) (hrob : cfg.robinEn = true) {c : Call}
    (hc : c.ofTasks = true) (hok : c.Fine cfg m.k [] ∨ c.Rejected cfg m.k)
    (hw : c.Fine cfg m.k [] → ¬ c.Wild m.k) :
    none ∈ c.reads cfg.served m.k ↔ c.parks r ∧ ∃ a, g.tcb.lst .rdy = [a] := by
  have hst := h.stable
  have hlive : ∀ {t}, m.k.alive cfg t → Live cfg.served g t :=
    fun ha => (alive_iff hst.coh.rep _).mp ha
  have hno : ∀ {x : Reads} {q : Prop}, none ∉ x → ¬ q →
    (none ∈ x ↔ q ∧ ∃ a, g.tcb.lst .rdy = [a]) :=
    fun hx hq => ⟨fun e => absurd e hx, fun e => absurd e.1 hq⟩
  rcases hok with hok | hok
  · cases c with
    | createTask task stk parameter =>
      exact hno (createTaskReads_safe hst hr h.req hrob task stk parameter) id
    | delTask t =>
      by_cases htr : t = r
      · subst htr
        exact (delTaskReads_self hst hr h.req hrob).trans (and_iff_right rfl).symm
      · exact hno (delTaskReads_safe hst hr h.req hrob h.flags (hlive hok) htr
          (h.noMutex.id t (hlive hok)) (h.noMutex.loc t) (hw hok)) htr
    | exitTask =>
      have : Call.reads cfg.served m.k .exitTask = delTaskReads cfg.served m.k r := by
        unfold Call.reads
        rw [hst.running]
        rfl
      rw [this]
      exact (delTaskReads_self hst hr h.req hrob).trans (and_iff_right trivial).symm
    | suspendTask t => exact suspendTaskReads_null hst hr h.req hrob (hlive hok)
    | awakeTask t =>
      exact hno (awakeTaskReads_safe hst h.req hrob (hlive hok) (h.noMutex.loc t)) id
    | setPriority t p =>
      exact hno (setPriorityReads_safe hst hr h.req hrob (hlive hok.1) hok.2 p) id
    | tickDelay n => exact tickDelayReads_null hst hr h.req hrob hok
    | resetDelay t n =>
      refine hno (resetDelayReads_safe hst h.req hrob (hlive hok.1) hok.2.1 fun hz => ?_) id
      refine Option.eq_none_iff_forall_ne_some.mpr fun e he => ?_
      exact (hst.coh.eventID_iff (hlive hok.1)).mpr ⟨e, he⟩ (hok.2.2 hz).1
    | _ => exact nomatch hc
  · obtain ⟨h1, h2⟩ := hst.rejected_reads hok
    exact hno h1 h2

/-- **One step after `CoStartOS`** reads through null exactly when the running task stops itself and
    only one task is ready. -/
theorem null_read_iff (hrob : cfg.robinEn = true) (hu : ∀ u ∈ us, u.Valid)
    (hb : boot cfg i us = some m0) (h : Reach cfg (TaskStep cfg) m0 m) {act : Act}
    (hok : TaskStep cfg m [] act) (hs : m.step cfg [] act = some m') :
    none ∈ m.reads cfg act ↔ m.parks act ∧ m.k.TCBRdy.bind m.k.TCBnext = none := by
  have hinv : ∃ g r F, Inv cfg m g r F := by
    clear hok hs
    induction h with
    | start =>
      obtain ⟨g, r, hbt, -⟩ := booted hu hb
      exact ⟨g, r, [], hbt.inv⟩
    | step _ hok hs ih =>
      obtain ⟨g, r, F, hi⟩ := ih
      exact hi.tame hok.2.2 hs
  obtain ⟨g, r, F, hi⟩ := hinv
  have hst := hi.stable
  cases act with
  | call c =>
    have hr : r ≠ 0 := by
      obtain ⟨hx, -⟩ := Option.filter_eq_some_iff.mp hs
      unfold Sys.exec at hx
      rw [hst.running] at hx
      dsimp only at hx
      split at hx
      · exact nomatch hx
      · next hn => exact (not_or.mp hn).1
    have hparks : m.parks (.call c) ↔ c.parks r :=
      ⟨fun ⟨r', e, hp⟩ => Option.some.inj (hst.running.symm.trans e) ▸ hp,
        fun hp => ⟨r, hst.running, hp⟩⟩
    rw [hparks, rdy_single hst.coh.rep (hst.rdy_ne hr)]
    exact Call.null_reads hi hr hrob hok.2.1 hok.2.2 fun e =>
      (@Inv.enabled cfg m m' g r F hi [] (.call c) e (Option.filter_eq_some_iff.mp hs).1).2.2
  | resume => exact nomatch hok.2.1
  | tick =>
    exact ⟨fun e => absurd e (sysTickReads_safe hst hi.req hrob), fun e => e.1.elim⟩

/-- **The scheduler reads through null** in every run, when `CoInitOS` creates the idle task. After
    `CoStartOS` it does so exactly when the running task stops itself and leaves one ready task. -/
theorem scheduler_null_reads (hrob : cfg.robinEn = true) (i : Idle) (us : List Setup) :
    (∀ as : List Act, none ∈ runReads cfg i us as) ∧
      ∀ (m0 m m' : Sys) (act : Act), (∀ u ∈ us, u.Valid) → boot cfg i us = some m0 →
        Reach cfg (TaskStep cfg) m0 m → TaskStep cfg m [] act → m.step cfg [] act = some m' →
        (none ∈ m.reads cfg act ↔ m.parks act ∧ m.k.TCBRdy.bind m.k.TCBnext = none) :=
  ⟨runReads_null hrob i us, fun _ _ _ _ hu hb h hok hs => null_read_iff hrob hu hb h hok hs⟩

/-- One task, which delays itself at once. -/
theorem scheduler_null_reads_one :
    none ∈ runReads shippedEnv shippedIdle [.plainTask 5] [.call (.tickDelay 2)] ∧
    ∃ m, boot shippedEnv shippedIdle [.plainTask 5] = some m ∧
      none ∈ m.reads shippedEnv (.call (.tickDelay 2)) := by
  obtain ⟨h1, h2⟩ := @scheduler_null_reads shippedEnv (by decide) shippedIdle [.plainTask 5]
  refine ⟨h1 _, ?_⟩
  have hrun : ((boot shippedEnv shippedIdle [.plainTask 5]).bind fun m =>
      (m.step shippedEnv [] (.call (.tickDelay 2))).map fun _ =>
        (m.k.TCBRunning, m.k.TCBRdy.bind m.k.TCBnext)) = some (some 1, none) := by
    decide +kernel
  obtain ⟨m, hb, hm⟩ := Option.bind_eq_some_iff.mp hrun
  obtain ⟨m', hs, hv⟩ := Option.map_eq_some_iff.mp hm
  have hfine : (Call.tickDelay 2).Fine shippedEnv m.k [] := show 2 < 2 ^ 31 by decide
  have hparks : m.parks (.call (.tickDelay 2)) := ⟨1, congrArg Prod.fst hv, show 2 ≠ 0 by decide⟩
  have hok : TaskStep shippedEnv m [] (.call (.tickDelay 2)) := ⟨rfl, rfl, Or.inl hfine⟩
  exact ⟨m, hb, (h2 m m m' _ (by decide) hb .start hok hs).mpr ⟨hparks, congrArg Prod.snd hv⟩⟩

/-- The idle task alone, and no step. -/
theorem no_null_read_fails : ¬ none ∉ runReads shippedEnv shippedIdle [] [] := by
  decide +kernel

end Runs

end CoOS
