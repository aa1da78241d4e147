/-
  The services that leave priorities and mutexes alone stay in the zone.
-/
import CoOS.Zone.Wait

namespace CoOS

open Function (update)
open DList

section Calls

variable {cfg : Env} {Z : Zone} {d : MtxPart} {s : Kernel} {t : Nat}

/-! ## Delays -/

theorem coTickDelay_sealed (hr : Responds cfg Z) (h : Sealed cfg.toConfig Z d s) (ticks : Nat) :
    Ensures (coTickDelay cfg s ticks) fun x => Sealed cfg.toConfig Z d x.1 := by
  unfold coTickDelay
  refine .ite (fun _ => .some h) fun _ => .ite (fun _ => .some h) fun _ => ?_
  refine .ite (fun _ => .some h) fun _ => .ite (fun _ => .some h) fun _ => ?_
  split
  · exact .none
  · next r e =>
    refine Ensures.bind (insertDelayList_sealed (osSchedLock_sealed h) (h.cur r e) ticks)
      fun s1 h1 => ?_
    exact unlock_sealed hr h1 _

theorem coResetTaskDelayTick_sealed (hr : Responds cfg Z) (h : Sealed cfg.toConfig Z d s)
    (ticks : Nat)
    (ht : t < cfg.tasks → Z.tcb t) :
    Ensures (coResetTaskDelayTick cfg s t ticks) fun x => Sealed cfg.toConfig Z d x.1 := by
  unfold coResetTaskDelayTick
  refine .ite (fun _ => .some h) fun hlt => .ite (fun _ => .some h) fun _ => ?_
  refine .ite (fun _ => .some h) fun _ => ?_
  have htz : Z.tcb t := ht (Nat.lt_of_not_le hlt)
  have h1 := removeDelayList_sealed (osSchedLock_sealed h) htz
  refine .ite (fun _ => ?_) fun _ => ?_
  · exact Ensures.bind (insertToTCBRdyList_sealed h1 htz) fun s1 h2 => unlock_sealed hr h2 _
  · exact Ensures.bind (insertDelayList_sealed h1 htz ticks) fun s1 h2 => unlock_sealed hr h2 _

/-! ## Events -/

theorem acceptEvent_sealed (hr : Responds cfg Z) (h : Sealed cfg.toConfig Z d s) (k : EventType)
    (id : Nat) :
    Ensures (acceptEvent cfg s k id) fun x => Sealed cfg.toConfig Z d x.1 := by
  unfold acceptEvent
  cases k with
  | invalid => exact .none
  | sem =>
    refine Ensures.map ?_
    unfold coAcceptSem acceptSemSection
    refine .ite (fun _ => .some h) fun _ => .ite (fun _ => unlock_sealed hr ?_ _) fun _ =>
      unlock_sealed hr ?_ _
    · exact h.congr rfl
    · exact h.congr rfl
  | mbox =>
    change Ensures (coAcceptMail cfg s id) _
    unfold coAcceptMail acceptMailSection
    refine .ite (fun _ => .some h) fun _ => .ite (fun _ => unlock_sealed hr ?_ _) fun _ =>
      unlock_sealed hr ?_ _
    · exact h.congr rfl
    · exact h.congr rfl
  | queue =>
    change Ensures (coAcceptQueueMail cfg s id) _
    unfold coAcceptQueueMail acceptQueueSection
    refine .ite (fun _ => .some h) fun _ => .ite (fun _ => unlock_sealed hr ?_ _) fun _ =>
      unlock_sealed hr ?_ _
    · exact h.congr rfl
    · exact h.congr rfl

theorem pendEvent_sealed (hr : Responds cfg Z) (h : Sealed cfg.toConfig Z d s) (k : EventType)
    (id : Nat) :
    Ensures (pendEvent cfg s k id) fun x => Sealed cfg.toConfig Z d x.1 := by
  unfold pendEvent
  cases k with
  | invalid => exact .none
  | sem =>
    refine Ensures.map ?_
    unfold coPendSem pendSemSection
    refine .ite (fun _ => .some h) fun _ => .ite (fun _ => .some h) fun _ =>
      .ite (fun _ => .some h) fun _ => ?_
    refine .ite (fun _ => unlock_sealed hr ?_ _) fun _ => unlock_sealed hr ?_ _
    · exact h.congr rfl
    · exact h.congr rfl
  | mbox =>
    change Ensures (coPendMail cfg s id) _
    unfold coPendMail pendMailSection
    refine .ite (fun _ => .some h) fun _ => .ite (fun _ => .some h) fun _ =>
      .ite (fun _ => .some h) fun _ => ?_
    refine .ite (fun _ => unlock_sealed hr ?_ _) fun _ => unlock_sealed hr ?_ _
    · exact h.congr rfl
    · exact h.congr rfl
  | queue =>
    change Ensures (coPendQueueMail cfg s id) _
    unfold coPendQueueMail pendQueueSection
    refine .ite (fun _ => .some h) fun _ => .ite (fun _ => .some h) fun _ =>
      .ite (fun _ => .some h) fun _ => ?_
    refine .ite (fun _ => unlock_sealed hr ?_ _) fun _ => unlock_sealed hr ?_ _
    · exact h.congr rfl
    · exact h.congr rfl

theorem postEvent_sealed (hr : Responds cfg Z) (h : Sealed cfg.toConfig Z d s) (k : EventType)
    (id mail : Nat) :
    Ensures (postEvent cfg s k id mail) fun x => Sealed cfg.toConfig Z d x.1 := by
  unfold postEvent
  cases k with
  | invalid => exact .none
  | sem => exact coPostSem_sealed hr h id
  | mbox => exact coPostMail_sealed hr h id mail
  | queue => exact coPostQueueMail_sealed hr h id mail

theorem pendWait_sealed (hr : Responds cfg Z) (h : Sealed cfg.toConfig Z d s) (id timeout : Nat)
    (he : ∀ r, s.TCBRunning = some r → Z.evt r) :
    Ensures (pendWait cfg s id timeout) (Sealed cfg.toConfig Z d) := by
  unfold pendWait
  split
  · exact .none
  · next r e =>
    refine .ite (fun _ => eventTaskToWait_sealed hr h id (he r e)) fun _ => ?_
    refine Ensures.bind (eventTaskToWait_sealed hr (osSchedLock_sealed h) id (he r e)) fun s1 h1 =>
      ?_
    exact Ensures.bind (insertDelayList_sealed h1 (h.cur r e) timeout) fun s2 h2 =>
      osSchedUnlock_sealed hr h2

theorem pendReturn_sealed (h : Sealed cfg.toConfig Z d s) (r timeout : Nat) :
    Sealed cfg.toConfig Z d (pendReturn s r timeout).1 := by
  unfold pendReturn
  split
  · exact h
  · exact h.congr rfl

/-! ## Flags -/

theorem coCreateFlag_sealed (hr : Responds cfg Z) (h : Sealed cfg.toConfig Z d s)
    (auto init : Nat) :
    Ensures (coCreateFlag cfg s auto init) fun x => Sealed cfg.toConfig Z d x.1 := by
  unfold coCreateFlag
  dsimp only
  split
  · refine unlock_sealed hr ?_ _
    exact h.congr rfl
  · exact unlock_sealed hr (osSchedLock_sealed h) _

theorem coDelFlag_sealed (hr : Responds cfg Z) (h : Sealed cfg.toConfig Z d s) (id opt : Nat) :
    Ensures (coDelFlag cfg s id opt) fun x => Sealed cfg.toConfig Z d x.1 := by
  unfold coDelFlag
  refine .ite (fun _ => .some h) fun _ => .ite (fun _ => .some h) fun _ => ?_
  refine Ensures.bind (delFlagLoop_sealed id opt _ (osSchedLock_sealed h) h.node.head) fun x h1 =>
    ?_
  refine .ite (fun _ => unlock_sealed hr h1 _) fun _ => unlock_sealed hr ?_ _
  exact h1.congr rfl

theorem coClearFlag_sealed (h : Sealed cfg.toConfig Z d s) (id : Nat) :
    Sealed cfg.toConfig Z d (coClearFlag s id).1 := by
  unfold coClearFlag
  split
  · exact h
  · exact h.congr rfl

theorem coAcceptSingleFlag_sealed (hr : Responds cfg Z) (h : Sealed cfg.toConfig Z d s) (id : Nat) :
    Ensures (coAcceptSingleFlag cfg s id) fun x => Sealed cfg.toConfig Z d x.1 := by
  unfold coAcceptSingleFlag
  refine .ite (fun _ => .some h) fun _ => .ite (fun _ => unlock_sealed hr ?_ _) fun _ => .some h
  exact h.congr rfl

theorem coAcceptMultipleFlags_sealed (hr : Responds cfg Z) (h : Sealed cfg.toConfig Z d s)
    (flags : BitVec 32)
    (waitType : Nat) :
    Ensures (coAcceptMultipleFlags cfg s flags waitType) fun x => Sealed cfg.toConfig Z d x.1 := by
  unfold coAcceptMultipleFlags
  refine .ite (fun _ => .some h) fun _ => .ite (fun _ => unlock_sealed hr ?_ _) fun _ =>
    unlock_sealed hr ?_ _
  · exact h.congr rfl
  · exact h.congr rfl

theorem flagWait_sealed (hr : Responds cfg Z) (h : Sealed cfg.toConfig Z d s) (flags : BitVec 32)
    (waitType timeout : Nat) (hf : ∀ r, s.TCBRunning = some r → Z.flag r) :
    Ensures (flagWait cfg s flags waitType timeout) (Sealed cfg.toConfig Z d) := by
  unfold flagWait
  split
  · exact .none
  · next r e =>
    have h1 := flagBlock_sealed h (hf r e) flags waitType
    refine .ite (fun _ => osSchedUnlock_sealed hr (setWaiting_sealed h1 r)) fun _ => ?_
    exact Ensures.bind (insertDelayList_sealed h1 (h.cur r e) timeout) fun s1 h2 =>
      osSchedUnlock_sealed hr h2

theorem coWaitForSingleFlag_sealed (hr : Responds cfg Z) (h : Sealed cfg.toConfig Z d s)
    (id timeout : Nat)
    (hf : ∀ r, s.TCBRunning = some r → Z.flag r) :
    Ensures (coWaitForSingleFlag cfg s id timeout) fun x => Sealed cfg.toConfig Z d x.1 := by
  unfold coWaitForSingleFlag
  refine .ite (fun _ => .some h) fun _ => .ite (fun _ => .some h) fun _ =>
    .ite (fun _ => .some h) fun _ => ?_
  refine .ite (fun _ => unlock_sealed hr ?_ _) fun _ => ?_
  · exact h.congr rfl
  · exact Ensures.bind (flagWait_sealed hr (osSchedLock_sealed h) _ _ timeout hf) fun s1 h1 =>
      .some h1

theorem coWaitForMultipleFlags_sealed (hr : Responds cfg Z) (h : Sealed cfg.toConfig Z d s)
    (flags : BitVec 32) (waitType timeout : Nat) (hf : ∀ r, s.TCBRunning = some r → Z.flag r) :
    Ensures (coWaitForMultipleFlags cfg s flags waitType timeout) fun x =>
    Sealed cfg.toConfig Z d x.1 := by
  unfold coWaitForMultipleFlags
  refine .ite (fun _ => .some h) fun _ => .ite (fun _ => .some h) fun _ =>
    .ite (fun _ => .some h) fun _ => ?_
  refine .ite (fun _ => unlock_sealed hr ?_ _) fun _ => ?_
  · exact h.congr rfl
  · exact Ensures.bind (flagWait_sealed hr (osSchedLock_sealed h) _ _ timeout hf) fun s1 h1 =>
      .some h1

/-- The node of a task that returns is gone. -/
theorem leaveFlag_sealed (h : Sealed cfg.toConfig Z d s) (r : Nat) (rdy : BitVec 32) :
    Sealed cfg.toConfig Z d
    { osSchedLock { s with pnode := update s.pnode r .null } with flagRdy := rdy } :=
  (h.setPnode (t := r) (p := .null) fun _ e => nomatch e).congr rfl

theorem waitSingleReturn_sealed (hr : Responds cfg Z) (h : Sealed cfg.toConfig Z d s)
    (r id timeout : Nat) :
    Ensures (waitSingleReturn cfg s r id timeout) fun x => Sealed cfg.toConfig Z d x.1 := by
  unfold waitSingleReturn
  exact .ite (fun _ => .some h) fun _ => unlock_sealed hr (leaveFlag_sealed h r _) _

theorem waitMultipleReturn_sealed (hr : Responds cfg Z) (h : Sealed cfg.toConfig Z d s) (r : Nat)
    (flags : BitVec 32) (timeout : Nat) :
    Ensures (waitMultipleReturn cfg s r flags timeout) fun x => Sealed cfg.toConfig Z d x.1 := by
  unfold waitMultipleReturn
  exact .ite (fun _ => .some h) fun _ => unlock_sealed hr (leaveFlag_sealed h r _) _

/-! ## Suspension -/

theorem coSuspendTask_sealed (hr : Responds cfg Z) (h : Sealed cfg.toConfig Z d s)
    (ht : t < cfg.tasks → Z.tcb t) :
    Ensures (coSuspendTask cfg s t) fun x => Sealed cfg.toConfig Z d x.1 := by
  have hend : ∀ {s : Kernel}, Sealed cfg.toConfig Z d s → Ensures (do
      let s ← osSchedUnlock cfg { s with state := update s.state t .WAITING }
      some (s, StatusType.E_OK)) fun x : Kernel × StatusType => Sealed cfg.toConfig Z d x.1 :=
        fun h =>
    unlock_sealed hr (h.setState t .WAITING (fun e => nomatch e) (Or.inl (nomatch ·))) _
  unfold coSuspendTask
  refine .ite (fun _ => .some h) fun _ => .ite (fun _ => .some h) fun hlt =>
    .ite (fun _ => .some h) fun _ => ?_
  refine .ite (fun _ => .some h) fun _ => .ite (fun _ => .some h) fun _ =>
    .ite (fun _ => ?_) fun _ => ?_
  · refine Ensures.bind (removeFromTCBRdyList_sealed (osSchedLock_sealed h)
      (ht (Nat.lt_of_not_le hlt))) ?_
    exact fun s1 h1 => hend h1
  · refine hend ?_
    exact h.congr rfl

theorem coAwakeTask_sealed (hr : Responds cfg Z) (h : Sealed cfg.toConfig Z d s)
    (ht : t < cfg.tasks → Z.tcb t) :
    Ensures (coAwakeTask cfg s t) fun x => Sealed cfg.toConfig Z d x.1 := by
  unfold coAwakeTask
  refine .ite (fun _ => .some h) fun _ => .ite (fun _ => .some h) fun hlt =>
    .ite (fun _ => .some h) fun _ => ?_
  refine .ite (fun _ => .some h) fun _ => .ite (fun _ => .some h) fun _ =>
    .ite (fun _ => .some h) fun _ => ?_
  refine .ite (fun _ => .some h) fun _ => .ite (fun _ => .some h) fun _ => ?_
  refine Ensures.bind
    (insertToTCBRdyList_sealed (osSchedLock_sealed h) (ht (Nat.lt_of_not_le hlt))) ?_
  exact fun s1 h1 => unlock_sealed hr h1 _

/-! ## Deferred requests -/

theorem defer_sealed (rs : List SQC) : ∀ {s : Kernel}, Sealed cfg.toConfig Z d s →
    Sealed cfg.toConfig Z d (s.defer cfg rs) := by
  induction rs with
  | nil => exact fun h => h
  | cons c rs ih =>
    intro s h
    refine ih (s := (insertInSRQ cfg s c.type c.id c.arg).1) ?_
    unfold insertInSRQ
    dsimp only
    split
    · exact h
    · exact h.congr rfl

end Calls

end CoOS
