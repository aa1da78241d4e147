/-
  Time slices (`CFG_ROBIN_EN`).

  `OSCheckTime` is the tick at which the slice of the running task ends. `Schedule` sets it when
  it dispatches a task that has an equal at the head of the ready list, `InsertToTCBRdyList` when
  such an equal arrives and the last slice end is over; `Schedule` tests it for equality with
  `OSTickCnt`. So a running task that faces an equal has to have its slice end ahead.

  `Robin` is that invariant between calls, `Facing` what is left of it while the scheduler is
  locked: insertions keep `Facing` (`Facing.insert`), and the unlock makes it `Robin` again
  (`Facing.unlock`).
-/
import CoOS.Kernel.Frame
import CoOS.Run.Pool

namespace CoOS

open Function (update)
open DList KeyOrder

/-- Between calls: who is dispatched and has an equal first in the ready list has its slice end
    ahead. -/
structure Robin (s : Kernel) : Prop where
  slices : ∀ t, s.hasStk t = true → 0 < s.timeSlice t
  armed : ∀ n h, s.TCBNext = some n → s.hasStk n = true → s.TCBRdy = some h → h ≠ n →
    s.prio h = s.prio n → s.OSTickCnt < s.OSCheckTime

/-- Inside a section of the task `r`: a slice that ends now is seen by the `Schedule` of the
    unlock, which is requested already or will be (`q`). -/
structure Facing (s : Kernel) (r : Nat) (q : Prop) : Prop where
  running : s.TCBRunning = some r
  next : s.TCBNext = some r
  lock : s.OSSchedLock = 1
  nest : s.OSIntNesting = 0
  isr : s.IsrReq = false
  stk : s.hasStk r = true
  slices : ∀ t, s.hasStk t = true → 0 < s.timeSlice t
  due : ∀ h, s.TCBRdy = some h → h ≠ r → s.prio h = s.prio r →
    s.OSTickCnt < s.OSCheckTime ∨ (s.OSTickCnt = s.OSCheckTime ∧ (s.TaskSchedReq = true ∨ q))

/-! ## The list functions -/

/-- What the lists of waiting tasks leave alone, beyond the frame. -/
structure Slot where
  frame : Frame
  TCBNext : Option Nat
  TCBRdy : Option Nat
  OSCheckTime : Nat
  TaskSchedReq : Bool
  mutexID : Nat → Nat

def Kernel.slot (s : Kernel) : Slot where
  frame := s.frame
  TCBNext := s.TCBNext
  TCBRdy := s.TCBRdy
  OSCheckTime := s.OSCheckTime
  TaskSchedReq := s.TaskSchedReq
  mutexID := s.mutexID

section Slot

variable {cfg : Env} {s s' : Kernel} {r t : Nat} {q : Prop}

theorem Facing.congr (h : Facing s r q) (e : s'.slot = s.slot) : Facing s' r q := by
  have hf : s'.frame = s.frame := congrArg Slot.frame e
  have h1 : s'.TCBRunning = s.TCBRunning := congrArg Frame.TCBRunning hf
  have h2 : s'.TCBNext = s.TCBNext := congrArg Slot.TCBNext e
  have h3 : s'.OSSchedLock = s.OSSchedLock := congrArg Frame.OSSchedLock hf
  have h4 : s'.OSIntNesting = s.OSIntNesting := congrArg Frame.OSIntNesting hf
  have h5 : s'.IsrReq = s.IsrReq := congrArg Frame.IsrReq hf
  have h6 : s'.hasStk = s.hasStk := congrArg Frame.hasStk hf
  have h7 : s'.timeSlice = s.timeSlice := congrArg Frame.timeSlice hf
  have h8 : s'.prio = s.prio := congrArg Frame.prio hf
  have h9 : s'.OSTickCnt = s.OSTickCnt := congrArg Frame.OSTickCnt hf
  have h10 : s'.TCBRdy = s.TCBRdy := congrArg Slot.TCBRdy e
  have h11 : s'.OSCheckTime = s.OSCheckTime := congrArg Slot.OSCheckTime e
  have h12 : s'.TaskSchedReq = s.TaskSchedReq := congrArg Slot.TaskSchedReq e
  refine ⟨h1.trans h.running, h2.trans h.next, h3.trans h.lock, h4.trans h.nest, h5.trans h.isr, ?_,
    ?_, ?_⟩
  · rw [h6]
    exact h.stk
  · rw [h6, h7]
    exact h.slices
  · rw [h8, h9, h10, h11, h12]
    exact h.due

theorem Robin.congr (h : Robin s) (e : s'.slot = s.slot) : Robin s' := by
  have hf : s'.frame = s.frame := congrArg Slot.frame e
  have h1 : s'.hasStk = s.hasStk := congrArg Frame.hasStk hf
  have h2 : s'.timeSlice = s.timeSlice := congrArg Frame.timeSlice hf
  have h3 : s'.prio = s.prio := congrArg Frame.prio hf
  have h4 : s'.OSTickCnt = s.OSTickCnt := congrArg Frame.OSTickCnt hf
  have h5 : s'.TCBNext = s.TCBNext := congrArg Slot.TCBNext e
  have h6 : s'.TCBRdy = s.TCBRdy := congrArg Slot.TCBRdy e
  have h7 : s'.OSCheckTime = s.OSCheckTime := congrArg Slot.OSCheckTime e
  constructor
  · rw [h1, h2]
    exact h.slices
  · rw [h1, h3, h4, h5, h6, h7]
    exact h.armed

theorem slot_lock (e : s'.slot = s.slot) : (osSchedLock s').slot = (osSchedLock s).slot := by
  have hf : (osSchedLock s').frame = (osSchedLock s).frame :=
    (osSchedLock_frame rfl).trans
      ((congrArg (fun v : Slot => v.frame.locked) e).trans (osSchedLock_frame rfl).symm)
  exact (congrArg (fun v => { s'.slot with frame := v }) hf).trans
    (congrArg (fun v : Slot => { v with frame := (osSchedLock s).frame }) e)

theorem removeLinkNode_slot (s : Kernel) (n : Nat) : (removeLinkNode s n).slot = s.slot := by
  unfold removeLinkNode
  split
  · rfl
  · rfl
  · rfl
  · rfl

theorem dropFlagNode_slot (s : Kernel) (t : Nat) : (dropFlagNode s t).slot = s.slot := by
  unfold dropFlagNode
  split
  · exact removeLinkNode_slot s _
  · rfl

theorem unlinkFlagNode_slot (s : Kernel) (t : Nat) :
    Ensures (unlinkFlagNode s t) fun s' => s'.slot = s.slot := by
  unfold unlinkFlagNode
  split
  · exact .some rfl
  · exact .some (removeLinkNode_slot s _)
  · exact .none

theorem removeDelay_slot (s : Kernel) (t : Nat) :
    (if s.delayTick t ≠ INVALID_VALUE then removeDelayList s t else s).slot = s.slot := by
  split
  · rfl
  · rfl

theorem removeEvent_slot (s : Kernel) (t : Nat) :
    (if s.eventID t ≠ INVALID_ID then removeEventWaittingList s t else s).slot = s.slot := by
  split
  · rfl
  · rfl

theorem leaveWaiting_slot (hm : s.mutexID t = INVALID_ID) :
    Ensures (leaveWaiting cfg s t) fun s' => s'.slot = s.slot := by
  unfold leaveWaiting
  dsimp only
  generalize hs1 : (if s.delayTick t ≠ INVALID_VALUE then removeDelayList s t else s) = s1
  have h1 : s1.slot = s.slot := by
    rw [← hs1]
    exact removeDelay_slot s t
  generalize hs2 : (if s1.eventID t ≠ INVALID_ID then removeEventWaittingList s1 t else s1) = s2
  have h2 : s2.slot = s.slot := by
    rw [← hs2]
    exact (removeEvent_slot s1 t).trans h1
  refine (unlinkFlagNode_slot s2 t).bind fun s3 e3 => ?_
  have h3 : s3.slot = s.slot := e3.trans h2
  refine .ite (fun hne => ?_) fun _ => .some h3
  rw [show s3.mutexID = s.mutexID from congrArg Slot.mutexID h3] at hne
  exact absurd hm hne

/-- The priority table is not looked at. -/
theorem activeTaskPri_slot (s : Kernel) (pri : Nat) :
    Ensures (activeTaskPri s pri) fun s' => s'.slot = s.slot := by
  unfold activeTaskPri
  refine Ensures.skip fun x => ?_
  exact .ite (fun _ => .some rfl) fun _ => .some rfl

theorem deleteTaskPri_slot (s : Kernel) (pri : Nat) :
    Ensures (deleteTaskPri s pri) fun s' => s'.slot = s.slot := by
  unfold deleteTaskPri
  refine Ensures.skip fun x => ?_
  exact .ite (fun _ => .some rfl) fun _ => .some rfl

/-- A task that joins a waiting list. -/
theorem linkWaiting_slot (s : Kernel) (e t : Nat) :
    Ensures (linkWaiting cfg s e t) fun s' => s'.slot = s.slot := by
  unfold linkWaiting
  refine .ite (fun _ => ?_) fun _ => .ite (fun _ => ?_) fun _ => .some rfl
  · split
    · exact .some rfl
    · refine Ensures.skip fun p => ?_
      exact .some rfl
  · split
    · exact .some rfl
    · refine .ite (fun _ => .some rfl) fun _ => ?_
      refine Ensures.skip fun p => ?_
      exact .some rfl

/-- A request never hurts. -/
theorem Facing.request (h : Facing s r q) : Facing { s with TaskSchedReq := true } r False :=
  ⟨h.running, h.next, h.lock, h.nest, h.isr, h.stk, h.slices, fun a ha hne he =>
    (h.due a ha hne he).imp id fun e => ⟨e.1, Or.inl rfl⟩⟩

end Slot

/-! ## Insertion and dispatch -/

section Dispatch

variable {cfg : Env} {s s' : Kernel} {r t : Nat} {q : Prop}

/-- Who is first after an insertion, and whether a request was raised. -/
theorem insertToTCBRdyList_head (cfg : Env) (s : Kernel) (t : Nat) :
    Ensures (insertToTCBRdyList cfg s t) fun s' =>
      s'.TCBNext = s.TCBNext ∧ s'.OSCheckTime = (robinCheck cfg s t).OSCheckTime ∧
      ((s'.TCBRdy = some t ∧ s'.TaskSchedReq = true) ∨
        (s'.TCBRdy = s.TCBRdy ∧ s'.TaskSchedReq = s.TaskSchedReq)) := by
  let s0 : Kernel := robinCheck cfg { s with state := update s.state t .READY } t
  have h0 : s0.TCBNext = s.TCBNext ∧ s0.OSCheckTime = (robinCheck cfg s t).OSCheckTime ∧
      s0.TCBRdy = s.TCBRdy ∧ s0.TaskSchedReq = s.TaskSchedReq := by
    change (robinCheck cfg { s with state := update s.state t .READY } t).TCBNext = _ ∧
      (robinCheck cfg { s with state := update s.state t .READY } t).OSCheckTime = _ ∧
      (robinCheck cfg { s with state := update s.state t .READY } t).TCBRdy = _ ∧
      (robinCheck cfg { s with state := update s.state t .READY } t).TaskSchedReq = _
    unfold robinCheck
    dsimp only
    split
    · exact ⟨rfl, rfl, rfl, rfl⟩
    · split
      · exact ⟨rfl, rfl, rfl, rfl⟩
      · exact ⟨rfl, rfl, rfl, rfl⟩
  obtain ⟨h1, h2, h3, h4⟩ := h0
  unfold insertToTCBRdyList
  refine .ite (fun _ => ?_) fun _ => ?_
  · change Ensures (insertOrdered cfg s0 t) _
    unfold insertOrdered
    split
    · exact .some ⟨h1, h2, Or.inl ⟨Links.pushFront_head .., rfl⟩⟩
    · refine .ite (fun _ => .some ⟨h1, h2, Or.inl ⟨Links.pushFront_head .., rfl⟩⟩) fun _ => ?_
      refine Ensures.skip fun x => ?_
      exact .some ⟨h1, h2, Or.inr ⟨h3, h4⟩⟩
  · change Ensures (insertBinary s0 t) _
    unfold insertBinary
    refine Ensures.skip fun x => ?_
    refine .ite (fun _ => .some ⟨h1, h2, Or.inr ⟨h3, h4⟩⟩) fun _ => ?_
    exact .ite (fun _ => .some ⟨h1, h2, Or.inl ⟨Links.pushFront_head .., rfl⟩⟩) fun _ =>
      .some ⟨h1, h2, Or.inr ⟨h3, h4⟩⟩

/-- A slice end that is not over is not moved by an insertion. -/
theorem robinCheck_ahead (cfg : Env) (t : Nat) (h : s.OSTickCnt ≤ s.OSCheckTime) :
    (robinCheck cfg s t).OSCheckTime = s.OSCheckTime := by
  unfold robinCheck
  split
  · rfl
  · split
    · next hc => exact absurd hc.2.2.2 (Nat.not_lt_of_le h)
    · rfl

/-- An equal that arrives finds the slice end ahead, or moves it there. -/
theorem robinCheck_equal (hrob : cfg.robinEn = true) (hr : s.TCBRunning = some r) (hne : t ≠ r)
    (hp : s.prio t = s.prio r) (hs : 0 < s.timeSlice r) :
    s.OSTickCnt < (robinCheck cfg s t).OSCheckTime ∨
      s.OSTickCnt = (robinCheck cfg s t).OSCheckTime := by
  unfold robinCheck
  rw [hr]
  dsimp only
  split
  · refine Or.inl ?_
    change s.OSTickCnt < s.OSTickCnt + s.timeSlice r
    omega
  · next hc =>
    have : ¬ s.OSCheckTime < s.OSTickCnt := fun hlt => hc ⟨hrob, hp, Ne.symm hne, hlt⟩
    omega

theorem Facing.insert (h : Facing s r q) (hrob : cfg.robinEn = true) (t : Nat) :
    Ensures (insertToTCBRdyList cfg s t) fun s' => Facing s' r q ∧ s'.frame = s.frame := by
  intro s' e
  have hf : s'.frame = s.frame := insertToTCBRdyList_frame cfg t rfl s' e
  obtain ⟨h1, h2, h3⟩ := insertToTCBRdyList_head cfg s t s' e
  have hp : s'.prio = s.prio := congrArg Frame.prio hf
  have ht : s'.OSTickCnt = s.OSTickCnt := congrArg Frame.OSTickCnt hf
  refine ⟨⟨(congrArg Frame.TCBRunning hf).trans h.running, h1.trans h.next,
    (congrArg Frame.OSSchedLock hf).trans h.lock, (congrArg Frame.OSIntNesting hf).trans h.nest,
    (congrArg Frame.IsrReq hf).trans h.isr, ?_, ?_, fun a ha hne he => ?_⟩, hf⟩
  · rw [show s'.hasStk = s.hasStk from congrArg Frame.hasStk hf]
    exact h.stk
  · rw [show s'.hasStk = s.hasStk from congrArg Frame.hasStk hf,
      show s'.timeSlice = s.timeSlice from congrArg Frame.timeSlice hf]
    exact h.slices
  · rw [hp] at he
    rw [ht, h2]
    rcases h3 with ⟨h3, h4⟩ | ⟨h3, h4⟩
    · -- the task itself is first now, with a request
      obtain rfl : t = a := Option.some.inj (h3.symm.trans ha)
      exact (robinCheck_equal hrob h.running hne he (h.slices r h.stk)).imp id fun e =>
        ⟨e, Or.inl h4⟩
    · -- the same task as before is first
      rw [h3] at ha
      have hd := h.due a ha hne he
      rw [robinCheck_ahead cfg t (by omega), h4]
      exact hd

/-- `TimeDispose` in a section that will ask for `Schedule`. -/
theorem Facing.timeDispose (hrob : cfg.robinEn = true) (fuel : Nat) : ∀ {s : Kernel},
    Facing s r q → Ensures (timeDispose cfg fuel s) fun s' => Facing s' r q := by
  induction fuel with
  | zero =>
    intro s h
    unfold CoOS.timeDispose
    split
    · exact .some h
    · exact .ite (fun _ => .some h) fun _ => .none
  | succ fuel ih =>
    intro s h
    unfold CoOS.timeDispose
    split
    · exact .some h
    · next t _ =>
      refine .ite (fun _ => .some h) fun _ => ?_
      let s1 : Kernel := dropFlagNode
        (if s.eventID t ≠ INVALID_ID then removeEventWaittingList s t else s) t
      have h1 : Facing s1 r q := h.congr ((dropFlagNode_slot _ t).trans (removeEvent_slot s t))
      let s2 : Kernel := { s1 with
        delayTick := update s1.delayTick t INVALID_VALUE
        DlyList := s1.TCBnext t
        TCBnext := update s1.TCBnext t none }
      have h2 : Facing s2 r q := h1.congr rfl
      refine Ensures.bind (h2.insert hrob t) fun s3 h3 => ?_
      refine ih ?_
      split
      · exact h3.1
      · exact h3.1.congr rfl

/-- The new running task has its slice end ahead if it needs one. -/
theorem resetCheckTime_armed (hrob : cfg.robinEn = true) {n a : Nat} (hs : 0 < s.timeSlice n)
    (ha : (resetCheckTime cfg s n).TCBRdy = some a)
    (he : (resetCheckTime cfg s n).prio a = (resetCheckTime cfg s n).prio n) :
    (resetCheckTime cfg s n).OSTickCnt < (resetCheckTime cfg s n).OSCheckTime := by
  unfold resetCheckTime at ha he ⊢
  split at ha
  · next hc =>
    rw [if_pos hc]
    change s.OSTickCnt < s.OSTickCnt + s.timeSlice n
    omega
  · next hc =>
    rw [if_neg hc] at he
    refine absurd ⟨hrob, ?_⟩ hc
    rw [ha]
    exact he.symm

/-- The state after `Schedule`. -/
structure Dispatched (s s' : Kernel) : Prop where
  frame : s'.frame = s.frame
  armed : ∀ n h, s'.TCBNext = some n → 0 < s'.timeSlice n → s'.TCBRdy = some h → h ≠ n →
    s'.prio h = s'.prio n → s'.OSTickCnt < s'.OSCheckTime

theorem resetCheckTime_dispatched (hrob : cfg.robinEn = true) {s0 : Kernel} {n : Nat}
    (hf : s.frame = s0.frame) (hn : s.TCBNext = some n) :
    Dispatched s0 (resetCheckTime cfg s n) := by
  refine ⟨(resetCheckTime_frame cfg s n).trans hf, fun m a hm hs ha _ he => ?_⟩
  have hnext : (resetCheckTime cfg s n).TCBNext = s.TCBNext := by
    unfold resetCheckTime
    split
    · rfl
    · rfl
  obtain rfl : n = m := Option.some.inj (hn.symm.trans (hnext.symm.trans hm))
  have hts : (resetCheckTime cfg s n).timeSlice = s.timeSlice :=
    congrArg Frame.timeSlice (resetCheckTime_frame cfg s n)
  rw [hts] at hs
  exact resetCheckTime_armed hrob hs ha he

theorem removeFromTCBRdyList_next (s : Kernel) (t : Nat) :
    Ensures (removeFromTCBRdyList cfg s t) fun s' => s'.TCBNext = s.TCBNext := by
  have hidx : ∀ n, (removeIndex cfg s n t).TCBNext = s.TCBNext := by
    intro n
    unfold removeIndex
    dsimp only
    split
    · rfl
    · split
      · rfl
      · rfl
    · split
      · rfl
      · rfl
    · split
      · rfl
      · split
        · rfl
        · rfl
  unfold removeFromTCBRdyList
  refine .ite (fun _ => .some rfl) fun _ => ?_
  refine Ensures.skip fun x => ?_
  exact .some (hidx x.2)

theorem preempt_dispatched (hrob : cfg.robinEn = true) {s0 : Kernel} (hf : s.frame = s0.frame)
    (cur rdy : Nat) : Ensures (preempt cfg s cur rdy) fun s' => Dispatched s0 s' := by
  unfold preempt
  intro s' e
  obtain ⟨s1, e1, e⟩ := Option.bind_eq_some_iff.mp e
  obtain ⟨s2, e2, e⟩ := Option.bind_eq_some_iff.mp e
  have f1 : s1.frame = s0.frame :=
    insertToTCBRdyList_frame cfg cur (s := { s with TCBNext := some rdy }) hf s1 e1
  have n1 : s1.TCBNext = some rdy := (insertToTCBRdyList_head cfg _ cur s1 e1).1
  have f2 : s2.frame = s0.frame := removeFromTCBRdyList_frame cfg rdy f1 s2 e2
  have n2 : s2.TCBNext = some rdy := (removeFromTCBRdyList_next s1 rdy s2 e2).trans n1
  rw [← Option.some.inj e]
  exact resetCheckTime_dispatched
    (s := { s2 with state := update s2.state rdy .RUNNING }) hrob f2 n2

/-- `Schedule`: it dispatches, or the running task keeps a slice end that is ahead. -/
theorem Facing.schedule (h : Facing s r True) (hrob : cfg.robinEn = true) :
    Ensures (schedule cfg s) fun s' => Dispatched s s' := by
  cases hrd : s.TCBRdy with
  | none =>
    unfold CoOS.schedule
    rw [hrd]
    refine .some ⟨rfl, fun n a _ _ ha => ?_⟩
    rw [hrd] at ha
    exact nomatch ha
  | some hd =>
    rw [schedule_eq hrd h.running h.next (Nat.le_of_eq h.lock) h.nest]
    let s1 : Kernel := { s with TaskSchedReq := false }
    refine .ite (fun _ => ?_) fun _ => .ite (fun _ => ?_) fun _ => .ite (fun _ => ?_) fun hne => ?_
    · let s2 : Kernel := { s1 with TCBNext := some hd, state := update s.state hd .RUNNING }
      refine Ensures.map fun s3 e3 => ?_
      exact resetCheckTime_dispatched hrob (removeFromTCBRdyList_frame cfg hd (s := s2) rfl s3 e3)
        (removeFromTCBRdyList_next s2 hd s3 e3)
    · exact @preempt_dispatched cfg s1 hrob s rfl r hd
    · exact @preempt_dispatched cfg s1 hrob s rfl r hd
    · refine .some ⟨rfl, fun n a hn _ ha han he => ?_⟩
      obtain rfl : r = n := Option.some.inj (h.next.symm.trans hn)
      obtain rfl : hd = a := Option.some.inj (hrd.symm.trans ha)
      refine (h.due hd hrd han he).resolve_right fun e => hne ⟨hrob, Eq.symm he, e.1.symm⟩

/-- **OsSchedUnlock** at the end of a section. -/
theorem Facing.unlock (h : Facing s r False) (hrob : cfg.robinEn = true) :
    Ensures (osSchedUnlock cfg s) Robin := by
  have hend : ∀ s' : Kernel, Dispatched s s' → Robin { s' with OSSchedLock := 0 } := by
    intro s' hd
    have h1 : s'.hasStk = s.hasStk := congrArg Frame.hasStk hd.frame
    have h2 : s'.timeSlice = s.timeSlice := congrArg Frame.timeSlice hd.frame
    have hsl : ∀ t, s'.hasStk t = true → 0 < s'.timeSlice t := by
      rw [h1, h2]
      exact h.slices
    exact ⟨hsl, fun n a hn hk => hd.armed n a hn (hsl n hk)⟩
  have hq : Facing s r True :=
    ⟨h.running, h.next, h.lock, h.nest, h.isr, h.stk, h.slices, fun a ha hne he =>
      (h.due a ha hne he).imp id fun e => ⟨e.1, Or.inr trivial⟩⟩
  rw [osSchedUnlock_eq cfg h.isr, if_pos h.lock]
  refine Ensures.map (Ensures.imp ?_ hend)
  refine .ite (fun _ => hq.schedule hrob) fun hreq => ?_
  refine .some ⟨rfl, fun n a hn _ ha han he => ?_⟩
  obtain rfl : r = n := Option.some.inj (h.next.symm.trans hn)
  exact (h.due a ha han he).resolve_right fun e => e.2.elim hreq id

end Dispatch

end CoOS
