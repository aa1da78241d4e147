/-
  What the functions of the lists leave alone.

  The ready list, the delay list, the waiting lists and the scheduler write links, task states
  and their own heads, in any state, well-formed or not. `Kernel.frame` are columns that none of
  them writes: priorities, who is running, the requests of the interrupts, the clock, the timers,
  the pool of event blocks and the queue blocks that are taken. A post writes `eventPtr` of its
  mailbox; that of every other event block is part of the frame (`Kernel.link`).
-/
import CoOS.Lib.Ensures
import CoOS.Kernel.Service

namespace CoOS

open Function (update)

/-- `eventPtr` of an event block that is no mailbox. -/
def Kernel.link (s : Kernel) (e : Nat) : EventPtr :=
  if s.eventType e = .mbox then .null else s.eventPtr e

structure Frame where
  hasStk : Nat → Bool
  prio : Nat → Nat
  timeSlice : Nat → Nat
  TCBRunning : Option Nat
  OSIntNesting : Nat
  OSSchedLock : Nat
  OSTickCnt : Nat
  IsrReq : Bool
  TimeReq : Bool
  TimerReq : Bool
  ServiceReq : SRQ
  tmr : Tmr
  FreeEventList : Option Nat
  ecbId : Nat → Nat
  eventType : Nat → EventType
  link : Nat → EventPtr
  QueueIDVessel : Nat → Bool
  qId : Nat → Nat

def Kernel.frame (s : Kernel) : Frame where
  hasStk := s.hasStk
  prio := s.prio
  timeSlice := s.timeSlice
  TCBRunning := s.TCBRunning
  OSIntNesting := s.OSIntNesting
  OSSchedLock := s.OSSchedLock
  OSTickCnt := s.OSTickCnt
  IsrReq := s.IsrReq
  TimeReq := s.TimeReq
  TimerReq := s.TimerReq
  ServiceReq := s.ServiceReq
  tmr := s.tmr
  FreeEventList := s.FreeEventList
  ecbId := s.ecbId
  eventType := s.eventType
  link := s.link
  QueueIDVessel := s.QueueIDVessel
  qId := s.qId

/-- Every result of `x` has the frame `v`. -/
def Framed (v : Frame) (x : Option Kernel) : Prop := Ensures x fun s => s.frame = v

section Lists

variable (cfg : Env) {v : Frame}

theorem robinCheck_frame (s : Kernel) (t : Nat) : (robinCheck cfg s t).frame = s.frame := by
  unfold robinCheck
  split
  · rfl
  · split
    · rfl
    · rfl

theorem insertOrdered_frame {s : Kernel} (t : Nat) (h : s.frame = v) :
    Framed v (insertOrdered cfg s t) := by
  unfold insertOrdered
  split
  · exact .some h
  · refine .ite (fun _ => .some h) fun _ => ?_
    refine Ensures.skip fun x => ?_
    exact .some h

theorem insertBinary_frame {s : Kernel} (t : Nat) (h : s.frame = v) :
    Framed v (insertBinary s t) := by
  unfold insertBinary
  refine Ensures.skip fun x => ?_
  refine .ite (fun _ => .some h) fun _ => ?_
  exact .ite (fun _ => .some h) fun _ => .some h

theorem insertToTCBRdyList_frame {s : Kernel} (t : Nat) (h : s.frame = v) :
    Framed v (insertToTCBRdyList cfg s t) := by
  unfold insertToTCBRdyList
  have hr := (robinCheck_frame cfg { s with state := update s.state t .READY } t).trans h
  exact .ite (fun _ => insertOrdered_frame cfg t hr) fun _ => insertBinary_frame t hr

theorem removeIndex_frame (s : Kernel) (seqNum t : Nat) :
    (removeIndex cfg s seqNum t).frame = s.frame := by
  unfold removeIndex
  dsimp only
  split
  · rfl
  · split
    · rfl
    · rfl
  · split
    · rfl
    · rfl
  · split
    · rfl
    · split
      · rfl
      · rfl

theorem activeTaskPri_frame {s : Kernel} (h : s.frame = v) (pri : Nat) :
    Framed v (activeTaskPri s pri) := by
  unfold activeTaskPri
  refine Ensures.skip fun x => ?_
  exact .ite (fun _ => .some h) fun _ => .some h

theorem removeFromTCBRdyList_frame {s : Kernel} (t : Nat) (h : s.frame = v) :
    Framed v (removeFromTCBRdyList cfg s t) := by
  unfold removeFromTCBRdyList
  refine .ite (fun _ => .some h) fun _ => ?_
  refine Ensures.skip fun x => ?_
  exact .some ((removeIndex_frame cfg s x.2 t).trans h)

theorem resetCheckTime_frame (s : Kernel) (t : Nat) : (resetCheckTime cfg s t).frame = s.frame := by
  unfold resetCheckTime
  split
  · rfl
  · rfl

theorem preempt_frame {s : Kernel} (cur rdy : Nat) (h : s.frame = v) :
    Framed v (preempt cfg s cur rdy) := by
  unfold preempt
  refine Ensures.bind (insertToTCBRdyList_frame cfg cur h) fun s1 h1 => ?_
  refine Ensures.bind (removeFromTCBRdyList_frame cfg rdy h1) fun s2 h2 => ?_
  exact .some ((resetCheckTime_frame cfg _ rdy).trans h2)

theorem schedule_frame {s : Kernel} (h : s.frame = v) : Framed v (schedule cfg s) := by
  unfold schedule
  split
  · next rdy cur _ _ =>
    refine .ite (fun _ => .some h) fun _ => ?_
    refine .ite (fun _ => ?_) fun _ => ?_
    · refine Ensures.bind (removeFromTCBRdyList_frame cfg rdy h) fun s1 h1 => ?_
      exact .some ((resetCheckTime_frame cfg _ rdy).trans h1)
    · refine .ite (fun _ => preempt_frame cfg cur rdy h) fun _ => ?_
      exact .ite (fun _ => preempt_frame cfg cur rdy h) fun _ => .some h
  · exact .some h

theorem insertDelayList_frame {s : Kernel} (t n : Nat) (h : s.frame = v) :
    Framed v (insertDelayList cfg s t n) := by
  unfold insertDelayList
  refine .ite (fun _ => .some h) fun _ => ?_
  refine Ensures.skip fun D => ?_
  exact .some h

theorem linkWaiting_frame {s : Kernel} (e t : Nat) (h : s.frame = v) :
    Framed v (linkWaiting cfg s e t) := by
  unfold linkWaiting
  refine .ite (fun _ => ?_) fun _ => .ite (fun _ => ?_) fun _ => .some h
  · split
    · exact .some h
    · refine Ensures.skip fun p => ?_
      exact .some h
  · split
    · exact .some h
    · refine .ite (fun _ => .some h) fun _ => ?_
      refine Ensures.skip fun p => ?_
      exact .some h

theorem removeLinkNode_frame (s : Kernel) (t : Nat) : (removeLinkNode s t).frame = s.frame := by
  unfold removeLinkNode
  split
  · rfl
  · rfl
  · rfl
  · rfl

theorem dropFlagNode_frame (s : Kernel) (t : Nat) : (dropFlagNode s t).frame = s.frame := by
  unfold dropFlagNode
  split
  · exact removeLinkNode_frame s _
  · rfl

theorem removeDelay_frame {s : Kernel} (t : Nat) (h : s.frame = v) :
    (if s.delayTick t ≠ INVALID_VALUE then removeDelayList s t else s).frame = v := by
  split
  · exact h
  · exact h

/-- `TimeDispose`, in any state. -/
theorem timeDispose_frame (fuel : Nat) : ∀ {s : Kernel}, s.frame = v →
    Framed v (timeDispose cfg fuel s) := by
  induction fuel with
  | zero =>
    intro s h
    unfold timeDispose
    split
    · exact .some h
    · exact .ite (fun _ => .some h) fun _ => .none
  | succ fuel ih =>
    intro s h
    unfold timeDispose
    split
    · exact .some h
    · next t _ =>
      refine .ite (fun _ => .some h) fun _ => ?_
      have h1 : (if s.eventID t ≠ INVALID_ID then removeEventWaittingList s t else s).frame =
        v := by
        split
        · exact h
        · exact h
      have h2 := (dropFlagNode_frame _ t).trans h1
      refine Ensures.bind (insertToTCBRdyList_frame cfg t h2) fun s1 h3 => ?_
      refine ih ?_
      split
      · exact h3
      · exact h3

end Lists

/-! ## Posts with the scheduler locked -/

section Posts

variable (cfg : Env) {v : Frame}

/-- Inside a section that is locked more than once. -/
def Frame.locked (v : Frame) : Frame := { v with OSSchedLock := v.OSSchedLock + 1 }

theorem osSchedLock_frame {s : Kernel} (h : s.frame = v) : (osSchedLock s).frame = v.locked := by
  rw [← h]
  rfl

theorem osSchedUnlock_frame {s : Kernel} (h : s.frame = v.locked) (hv : 0 < v.OSSchedLock) :
    Framed v (osSchedUnlock cfg s) := by
  have hl : s.OSSchedLock = v.OSSchedLock + 1 := congrArg Frame.OSSchedLock h
  rw [osSchedUnlock_nested cfg (by omega)]
  refine .some ?_
  change { s.frame with OSSchedLock := s.OSSchedLock - 1 } = v
  rw [h, hl]
  rfl

/-- A mail is written to the block of a mailbox. -/
theorem link_mail {s : Kernel} {e : Nat} (he : s.eventType e = .mbox) (p : EventPtr) :
    ({ s with eventPtr := update s.eventPtr e p } : Kernel).link = s.link := by
  funext e'
  unfold Kernel.link
  dsimp only
  split
  · rfl
  · next hne =>
    have : e' ≠ e := by
      intro h
      rw [h] at hne
      exact hne he
    exact Function.update_of_ne this ..

theorem frame_mail {s : Kernel} {e : Nat} (he : s.eventType e = .mbox) (p : EventPtr) :
    ({ s with eventPtr := update s.eventPtr e p } : Kernel).frame = s.frame := by
  have := link_mail he p
  exact congrArg (fun l => { s.frame with link := l }) this

theorem handOver_frame (s : Kernel) (e t : Nat) : (handOver s e t).frame = s.frame := by
  unfold handOver
  split
  · next he => exact frame_mail he .null
  · split
    · rfl
    · rfl
  · rfl
  · rfl

theorem eventTaskToRdy_frame {s : Kernel} (e : Nat) (h : s.frame = v) :
    Framed v (eventTaskToRdy cfg s e) := by
  unfold eventTaskToRdy
  split
  · exact .some h
  · next t _ =>
    have key : ∀ s1 : Kernel, s1.frame = v → Framed v
        (let s := handOver (if s1.delayTick t ≠ INVALID_VALUE then removeDelayList s1 t else s1) e t
        if some t = s.TCBRunning then some { s with state := update s.state t .RUNNING }
        else insertToTCBRdyList cfg s t) := by
      intro s1 h1
      have h2 := (handOver_frame _ e t).trans (removeDelay_frame t h1)
      exact .ite (fun _ => .some h2) fun _ => insertToTCBRdyList_frame cfg t h2
    exact key _ h

/-- The end of a post. -/
theorem post_frame {s : Kernel} (id mail : Nat) (st : StatusType) (h : s.frame = v.locked)
    (hv : 0 < v.OSSchedLock) :
    Ensures (do
      let s ← postTo cfg s id mail
      let s ← osSchedUnlock cfg s
      some (s, st)) fun x : Kernel × StatusType => x.1.frame = v := by
  have h0 : (s.note id mail .posted).frame = v.locked := h
  refine Ensures.bind (eventTaskToRdy_frame cfg id h0) fun s1 h1 => ?_
  exact Ensures.bind (osSchedUnlock_frame cfg h1 hv) fun s2 h2 => .some h2

theorem coPostSem_frame {s : Kernel} (id : Nat) (h : s.frame = v) (hv : 0 < v.OSSchedLock) :
    Ensures (coPostSem cfg s id) fun x => x.1.frame = v := by
  unfold coPostSem
  refine .ite (fun _ => .some h) fun _ => .ite (fun _ => .some h) fun _ => ?_
  exact post_frame cfg id _ _ (osSchedLock_frame h) hv

theorem coPostMail_frame {s : Kernel} (id pmail : Nat) (h : s.frame = v) (hv : 0 < v.OSSchedLock) :
    Ensures (coPostMail cfg s id pmail) fun x => x.1.frame = v := by
  unfold coPostMail
  refine .ite (fun _ => .some h) fun hid => .ite (fun _ => ?_) fun _ => .some h
  have hm : s.eventType id = .mbox := by
    by_contra hne
    exact hid (.inr hne)
  have h1 := (@frame_mail (osSchedLock s) id hm (.mail pmail)).trans (osSchedLock_frame h)
  exact post_frame cfg id _ _ h1 hv

theorem coPostQueueMail_frame {s : Kernel} (id pmail : Nat) (h : s.frame = v)
    (hv : 0 < v.OSSchedLock) :
    Ensures (coPostQueueMail cfg s id pmail) fun x => x.1.frame = v := by
  unfold coPostQueueMail
  refine .ite (fun _ => .some h) fun _ => .ite (fun _ => .some h) fun _ => ?_
  exact post_frame cfg id _ _ (osSchedLock_frame h) hv

theorem removeFromLink_frame {s : Kernel} (t : Nat) (h : s.frame = v) :
    Framed v (removeFromLink cfg s t) := by
  unfold removeFromLink
  have h2 := removeDelay_frame t ((removeLinkNode_frame s t).trans h)
  exact .ite (fun _ => .some h2) fun _ => insertToTCBRdyList_frame cfg t h2

theorem setFlagLoop_frame (id fuel : Nat) : ∀ {s : Kernel} (n : Option Nat), s.frame = v →
    Framed v (setFlagLoop cfg id fuel s n) := by
  induction fuel with
  | zero =>
    intro s n h
    unfold setFlagLoop
    split
    · exact .some h
    · exact .none
    · next e => exact nomatch e
  | succ fuel ih =>
    intro s n h
    unfold setFlagLoop
    split
    · exact .some h
    · exact .none
    · next f _ e =>
      rw [← Nat.succ.inj e]
      refine .ite (fun _ => ?_) fun _ => ih _ h
      refine Ensures.bind (removeFromLink_frame cfg _ h) fun s1 h1 => ?_
      exact .ite (fun _ => .some h1) fun _ => ih _ h1

theorem delFlagLoop_frame (id opt fuel : Nat) : ∀ {s : Kernel} (n : Option Nat), s.frame = v →
    Ensures (delFlagLoop cfg id opt fuel s n) fun x => x.1.frame = v := by
  induction fuel with
  | zero =>
    intro s n h
    unfold delFlagLoop
    split
    · exact .some h
    · exact .none
    · next e => exact nomatch e
  | succ fuel ih =>
    intro s n h
    unfold delFlagLoop
    split
    · exact .some h
    · exact .none
    · next f t e =>
      rw [← Nat.succ.inj e]
      refine .ite (fun _ => .ite (fun _ => .some h) fun _ =>
        .ite (fun _ => .ite (fun _ => ih _ h) fun _ => ?_)
        fun _ => ih _ h) fun _ => ih _ h
      exact Ensures.bind (removeFromLink_frame cfg t h) fun s1 h1 => ih _ h1

theorem coSetFlag_frame {s : Kernel} (id : Nat) (h : s.frame = v) (hv : 0 < v.OSSchedLock) :
    Ensures (coSetFlag cfg s id) fun x => x.1.frame = v := by
  unfold coSetFlag
  refine .ite (fun _ => .some h) fun _ => .ite (fun _ => .some h) fun _ => ?_
  have h0 : (osSchedLock { s with flagRdy := s.flagRdy ||| flagBit id }).frame = v.locked :=
    osSchedLock_frame (s := { s with flagRdy := s.flagRdy ||| flagBit id }) h
  refine Ensures.bind (setFlagLoop_frame cfg id cfg.tasks _ h0) fun s1 h1 => ?_
  exact Ensures.bind (osSchedUnlock_frame cfg h1 hv) fun s2 h2 => .some h2

/-- A request of the drain leaves the requests alone: it is a post with the scheduler locked. -/
theorem serve_frame {s : Kernel} (c : SQC) (h : s.frame = v) (hv : 0 < v.OSSchedLock) :
    Ensures (serve cfg s c) fun x => x.1.frame = v := by
  unfold serve
  refine Ensures.map ?_
  unfold serveSwitch
  split
  · exact coPostSem_frame cfg _ h hv
  · exact coPostMail_frame cfg _ _ h hv
  · exact coSetFlag_frame cfg _ h hv
  · exact coPostQueueMail_frame cfg _ _ h hv

end Posts

/-! ## OsSchedUnlock and RespondSRQ in parts -/

theorem osSchedUnlock_parts (cfg : Env) (s : Kernel) : osSchedUnlock cfg s =
    if s.OSSchedLock = 1 then
      (if s.IsrReq then cfg.respondSRQ s else some s).bind fun s =>
        (if s.TaskSchedReq then schedule cfg s else some s).map fun s => { s with OSSchedLock := 0 }
    else some { s with OSSchedLock := s.OSSchedLock - 1 } := by
  have hend : ∀ s : Kernel, (if s.TaskSchedReq then do
        let s ← schedule cfg s
        some { s with OSSchedLock := 0 }
      else some { s with OSSchedLock := 0 }) =
      (if s.TaskSchedReq then schedule cfg s else some s).map fun s =>
        { s with OSSchedLock := 0 } := by
    intro s
    split
    · exact (Option.map_eq_bind ..).symm
    · rfl
  unfold osSchedUnlock
  simp only [← hend]
  split
  · split
    · rfl
    · rfl
  · rfl


/-- The time request of `RespondSRQ`. -/
def respondTime (cfg : Env) (k : Kernel) : Option Kernel :=
  if k.TimeReq then (timeDispose cfg cfg.tasks k).map fun k =>
    { k with TimeReq := false } else some k

/-- The timer request of `RespondSRQ`. -/
def respondTimer (cfg : Env) (k : Kernel) : Option Kernel :=
  if k.TimerReq then (tmrDispose cfg cfg.maxTmr k).map fun k =>
    { k with TimerReq := false } else some k

/-- The last statements of `RespondSRQ`. -/
def endRespond (k : Kernel) : Kernel :=
  if k.ServiceReq.cnt = 0 then { k with IsrReq := false } else k

theorem respondSRQ_parts (cfg : Env) (k : Kernel) : respondSRQ cfg k =
    (respondTime cfg k).bind fun k => (respondTimer cfg k).bind fun k =>
      (serveLoop cfg cfg.maxServiceRequest k).map endRespond := by
  have htmr : ∀ k : Kernel, (if k.TimerReq then do
        let s ← tmrDispose cfg cfg.maxTmr k
        let s ← some { s with TimerReq := false }
        let s ← serveLoop cfg cfg.maxServiceRequest s
        some (endRespond s)
      else do
        let s ← serveLoop cfg cfg.maxServiceRequest k
        some (endRespond s)) =
      (respondTimer cfg k).bind fun k =>
        (serveLoop cfg cfg.maxServiceRequest k).map endRespond := by
    intro k
    unfold respondTimer
    split
    · cases tmrDispose cfg cfg.maxTmr k with
      | none => rfl
      | some k1 => exact (Option.map_eq_bind ..).symm
    · exact (Option.map_eq_bind ..).symm
  unfold respondSRQ respondTime
  simp only [← htmr]
  split
  · cases timeDispose cfg cfg.tasks k with
    | none => rfl
    | some k1 => rfl
  · rfl

end CoOS
