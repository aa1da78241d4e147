/-
  Waiting and posting stay in the zone: the delay list, the event lists, the flag nodes, the timers
  and the requests that `OsSchedUnlock` executes.
-/
import CoOS.Kernel.Unlock
import CoOS.Zone.Base

namespace CoOS

open Function (update)
open DList

section Wait

variable {cfg : Env} {Z : Zone} {d : MtxPart} {s : Kernel} {t : Nat}

theorem setWaiting_sealed (h : Sealed cfg.toConfig Z d s) (t : Nat) :
    Sealed cfg.toConfig Z d { s with state := update s.state t .WAITING, TaskSchedReq := true } :=
  (h.setState t .WAITING (fun e => nomatch e) (Or.inl (nomatch ·))).congr rfl

/-! ## The delay list -/

theorem insertDelayList_sealed (h : Sealed cfg.toConfig Z d s) (ht : Z.tcb t) (ticks : Nat) :
    Ensures (insertDelayList cfg s t ticks) (Sealed cfg.toConfig Z d) := by
  unfold insertDelayList
  refine .ite (fun _ => .some h) fun _ => ?_
  have hD : Ensures (s.dly.insert cfg.tasks t ticks) fun D =>
      D.toLinks.Within Z.tcb ∧ s.dlyLinks.SameOff Z.tcb D.toLinks :=
    fun D e => Delta.insert_within h.dlyLinks ht e
  refine Ensures.bind hD fun D hD => .some (setWaiting_sealed ?_ t)
  exact (h.setDlyLinks hD).congr rfl

theorem removeDelayList_sealed (h : Sealed cfg.toConfig Z d s) (ht : Z.tcb t) :
    Sealed cfg.toConfig Z d (removeDelayList s t) :=
  (h.setDlyLinks (h.dlyLinks.unlink ht)).congr rfl

theorem removeDelay_sealed (h : Sealed cfg.toConfig Z d s) (ht : Z.tcb t) :
    Sealed cfg.toConfig Z d (if s.delayTick t ≠ INVALID_VALUE then removeDelayList s t else s) := by
  split
  · exact removeDelayList_sealed h ht
  · exact h

/-! ## Event lists -/

theorem lastWaiting_within {S : Nat → Prop} (hn : ∀ a b, S a → s.waitNext a = some b → S b)
    (fuel : Nat) :
    ∀ {p x : Nat}, S p → lastWaiting s fuel p = some x → S x := by
  induction fuel with
  | zero => exact fun _ e => nomatch e
  | succ fuel ih =>
    intro p x hp e
    unfold lastWaiting at e
    split at e
    · rw [← Option.some.inj e]
      exact hp
    · next n hx => exact ih (hn p n hp hx) e

theorem findWaitPlace_within {S : Nat → Prop} (hn : ∀ a b, S a → s.waitNext a = some b → S b)
    (prio fuel : Nat) : ∀ {p x : Nat} {o : Option Nat}, S p → (∀ a, o = some a → S a) →
      findWaitPlace s prio fuel p o = some x → S x := by
  induction fuel with
  | zero =>
    intro p x o hp _ e
    cases o with
    | none =>
      rw [← Option.some.inj e]
      exact hp
    | some a => exact nomatch e
  | succ fuel ih =>
    intro p x o hp ho e
    cases o with
    | none =>
      rw [← Option.some.inj e]
      exact hp
    | some a =>
      unfold findWaitPlace at e
      split at e
      · rw [← Option.some.inj e]
        exact hp
      · exact ih (ho a rfl) (fun b hb => hn a b (ho a rfl) hb) e

theorem linkWaiting_sealed (h : Sealed cfg.toConfig Z d s) (e : Nat) (ht : Z.evt t) :
    Ensures (linkWaiting cfg s e t) (Sealed cfg.toConfig Z d) := by
  have hE : (s.evtLinks e).Within Z.evt := h.evt e
  have hfront : Sealed cfg.toConfig Z d (s.setEvtLinks e ((s.evtLinks e).pushFront t)) :=
    h.setEvtLinks e (hE.pushFront ht).1
  unfold linkWaiting
  refine .ite (fun _ => ?_) fun _ => .ite (fun _ => ?_) fun _ => .some h
  · split
    · exact .some hfront
    · next x hx =>
      have hp : Ensures (lastWaiting s cfg.tasks x) Z.evt := fun p e1 =>
        lastWaiting_within hE.next _ (hE.head x hx) e1
      exact Ensures.bind hp fun p hp => .some (h.setEvtLinks e (hE.append hp ht).1)
  · split
    · exact .some hfront
    · next x hx =>
      refine .ite (fun _ => .some hfront) fun _ => ?_
      have hxz : Z.evt x := hE.head x hx
      have hp : Ensures (findWaitPlace s (s.prio t) cfg.tasks x (s.waitNext x)) Z.evt := fun p e1 =>
        findWaitPlace_within hE.next _ _ hxz (fun b hb => hE.next x b hxz hb) e1
      exact Ensures.bind hp fun p hp => .some (h.setEvtLinks e (hE.insertAfter hp ht).1)

theorem eventTaskToWait_sealed (hr : Responds cfg Z) (h : Sealed cfg.toConfig Z d s) (e : Nat)
    (ht : Z.evt t) :
    Ensures (eventTaskToWait cfg s e t) (Sealed cfg.toConfig Z d) := by
  unfold eventTaskToWait
  have h1 := (osSchedLock_sealed h).setEventID (t := t) (e := e) (Or.inr ht)
  refine Ensures.bind (linkWaiting_sealed h1 e ht) fun s1 h2 => ?_
  exact osSchedUnlock_sealed hr (setWaiting_sealed h2 t)

theorem removeEventWaittingList_sealed (h : Sealed cfg.toConfig Z d s) (ht : Z.evt t) :
    Sealed cfg.toConfig Z d (removeEventWaittingList s t) :=
  (h.setEvtLinks (s.eventID t) ((h.evt (s.eventID t)).unlink ht).1).setEventID (Or.inl rfl)

theorem removeEvent_sealed (h : Sealed cfg.toConfig Z d s) (ht : Z.tcb t ∨ t < cfg.tasks) :
    Sealed cfg.toConfig Z d
    (if s.eventID t ≠ INVALID_ID then removeEventWaittingList s t else s) := by
  split
  · next hne => exact removeEventWaittingList_sealed h (h.eventID t ht hne)
  · exact h

theorem handOver_sealed (h : Sealed cfg.toConfig Z d s) (e t : Nat) :
    Sealed cfg.toConfig Z d (handOver s e t) := by
  unfold handOver
  split
  · exact h.congr rfl
  · split
    · exact h.congr rfl
    · exact h
  · exact h.congr rfl
  · exact h

/-- The head `t` leaves the list of `e`. -/
theorem popWaiting_sealed (h : Sealed cfg.toConfig Z d s) {e : Nat} (ht : Z.evt t) :
    Sealed cfg.toConfig Z d { s with
      eventTCBList := update s.eventTCBList e (s.waitNext t)
      waitPrev := match s.waitNext t with
        | none => s.waitPrev
        | some n => update s.waitPrev n none
      waitNext := update s.waitNext t none
      eventID := update s.eventID t INVALID_ID } := by
  have hE : (s.evtLinks e).Within Z.evt := h.evt e
  have hn : ∀ b, s.waitNext t = some b → Z.evt b := fun b hb => hE.next t b ht hb
  have hnext := update_within (x := t) (v := none) hE.next within_none
  have hL : (⟨s.waitNext t, update s.waitNext t none, match s.waitNext t with
      | none => s.waitPrev
      | some n => update s.waitPrev n none⟩ : Links Nat).Within Z.evt := by
    split
    · exact ⟨hn, hnext, hE.prev⟩
    · exact ⟨hn, hnext, update_within hE.prev within_none⟩
  exact (h.setEvtLinks e hL).setEventID (Or.inl rfl)

theorem wake_sealed (h : Sealed cfg.toConfig Z d s) (ht : Z.tcb t) :
    Ensures (if some t = s.TCBRunning then some { s with state := update s.state t .RUNNING }
      else insertToTCBRdyList cfg s t) (Sealed cfg.toConfig Z d) :=
  .ite (fun _ => .some (setRunning_sealed h t)) fun _ => insertToTCBRdyList_sealed h ht

theorem eventTaskToRdy_sealed (h : Sealed cfg.toConfig Z d s) (e : Nat) :
    Ensures (eventTaskToRdy cfg s e) (Sealed cfg.toConfig Z d) := by
  unfold eventTaskToRdy
  split
  · exact .some h
  · next t he =>
    have ht : Z.evt t := (h.evt e).head t he
    have htz : Z.tcb t := Z.evt_tcb t ht
    exact wake_sealed (handOver_sealed (removeDelay_sealed (popWaiting_sealed h ht) htz) e t) htz

/-! ## Flag nodes -/

theorem removeLinkNode_sealed (h : Sealed cfg.toConfig Z d s) (ht : Z.flag t) :
    Sealed cfg.toConfig Z d (removeLinkNode s t) := by
  have hn := h.node.next
  have hp := h.node.prev
  unfold removeLinkNode
  refine Sealed.setPnode ?_ (fun _ e => nomatch e)
  split
  · exact h.setNodes (L := ⟨none, s.nextNode, s.prevNode⟩) ⟨within_none, hn, hp⟩ within_none
  · next p _ e =>
    exact h.setNodes (L := ⟨s.headNode, update s.nextNode p none, s.prevNode⟩)
      ⟨h.node.head, update_within hn within_none, hp⟩ (within_some (hp t p ht e))
  · next n e _ =>
    exact h.setNodes (L := ⟨some n, s.nextNode, update s.prevNode n none⟩)
      ⟨within_some (hn t n ht e), hn, update_within hp within_none⟩ h.tail
  · next n p e1 e2 =>
    exact h.setNodes (L := ⟨s.headNode, update s.nextNode p (some n), update s.prevNode n (some p)⟩)
      ⟨h.node.head, update_within hn (within_some (hn t n ht e1)),
        update_within hp (within_some (hp t p ht e2))⟩ h.tail

theorem dropFlagNode_sealed (h : Sealed cfg.toConfig Z d s) (t : Nat) :
    Sealed cfg.toConfig Z d (dropFlagNode s t) := by
  unfold dropFlagNode
  split
  · next n e => exact removeLinkNode_sealed h (h.pnode t n e)
  · exact h

theorem unlinkFlagNode_sealed (h : Sealed cfg.toConfig Z d s) (t : Nat) :
    Ensures (unlinkFlagNode s t) (Sealed cfg.toConfig Z d) := by
  unfold unlinkFlagNode
  split
  · exact .some h
  · next n e => exact .some (removeLinkNode_sealed h (h.pnode t n e))
  · exact .none

theorem flagBlock_sealed (h : Sealed cfg.toConfig Z d s) (ht : Z.flag t) (flags : BitVec 32)
    (waitType : Nat) :
    Sealed cfg.toConfig Z d (flagBlock s t flags waitType) := by
  have hn := h.node.next
  have hp := h.node.prev
  have h1 : Sealed cfg.toConfig Z d { s with
      pnode := update s.pnode t (.node t)
      waitFlags := update s.waitFlags t flags
      waitType := update s.waitType t waitType } := by
    refine (h.setPnode (t := t) (p := .node t) fun n e => ?_).congr rfl
    rw [← PNode.node.inj e]
    exact ht
  unfold flagBlock
  dsimp only
  split
  · exact h1.setNodes (L := ⟨some t, update s.nextNode t none, update s.prevNode t none⟩)
      ⟨within_some ht, update_within hn within_none, update_within hp within_none⟩ (within_some ht)
  · next p e =>
    exact h1.setNodes (L := ⟨s.headNode, update (update s.nextNode p (some t)) t none,
        update s.prevNode t (some p)⟩)
      ⟨h.node.head, update_within (update_within hn (within_some ht)) within_none,
        update_within hp (within_some (h.tail p e))⟩ (within_some ht)

theorem removeFromLink_sealed (h : Sealed cfg.toConfig Z d s) (ht : Z.flag t) :
    Ensures (removeFromLink cfg s t) (Sealed cfg.toConfig Z d) := by
  have htz : Z.tcb t := Z.flag_tcb t ht
  unfold removeFromLink
  have h1 := removeDelay_sealed (removeLinkNode_sealed h ht) htz
  exact wake_sealed (h1.setPnode (p := .ones) fun _ e => nomatch e) htz

theorem delFlagLoop_sealed (id opt fuel : Nat) : ∀ {s : Kernel} {o : Option Nat},
    Sealed cfg.toConfig Z d s → (∀ t, o = some t → Z.flag t) →
      Ensures (delFlagLoop cfg id opt fuel s o) fun x => Sealed cfg.toConfig Z d x.1 := by
  induction fuel with
  | zero =>
    intro s o h _
    cases o with
    | none => exact .some h
    | some t => exact .none
  | succ fuel ih =>
    intro s o h ho
    cases o with
    | none => exact .some h
    | some t =>
      have ht : Z.flag t := ho t rfl
      have hnext : ∀ {s : Kernel}, Sealed cfg.toConfig Z d s →
          Ensures (delFlagLoop cfg id opt fuel s (s.nextNode t)) fun x =>
            Sealed cfg.toConfig Z d x.1 :=
        fun h => ih h fun b hb => h.node.next t b ht hb
      unfold delFlagLoop
      refine .ite (fun _ => ?_) fun _ => hnext h
      refine .ite (fun _ => .some h) fun _ => .ite (fun _ => ?_) fun _ => hnext h
      refine .ite (fun _ => hnext (h.congr rfl)) fun _ => ?_
      exact Ensures.bind (removeFromLink_sealed h ht) fun s1 h1 => hnext h1

theorem setFlagLoop_sealed (id fuel : Nat) : ∀ {s : Kernel} {o : Option Nat},
    Sealed cfg.toConfig Z d s → (∀ t, o = some t → Z.flag t) →
      Ensures (setFlagLoop cfg id fuel s o) (Sealed cfg.toConfig Z d) := by
  induction fuel with
  | zero =>
    intro s o h _
    cases o with
    | none => exact .some h
    | some t => exact .none
  | succ fuel ih =>
    intro s o h ho
    cases o with
    | none => exact .some h
    | some t =>
      have ht : Z.flag t := ho t rfl
      have hnext : ∀ {s : Kernel}, Sealed cfg.toConfig Z d s →
          Ensures (setFlagLoop cfg id fuel s (s.nextNode t)) (Sealed cfg.toConfig Z d) :=
        fun h => ih h fun b hb => h.node.next t b ht hb
      unfold setFlagLoop
      refine .ite (fun _ => ?_) fun _ => hnext h
      refine Ensures.bind (removeFromLink_sealed h ht) fun s1 h1 => ?_
      exact .ite (fun _ => .some h1) fun _ => hnext h1

/-! ## Expiry of delays -/

theorem timeDispose_sealed (fuel : Nat) : ∀ {s : Kernel}, Sealed cfg.toConfig Z d s →
    Ensures (timeDispose cfg fuel s) (Sealed cfg.toConfig Z d) := by
  induction fuel with
  | zero =>
    intro s h
    unfold timeDispose
    split
    · exact .some h
    · exact .ite (fun _ => .some h) fun _ => .none
  | succ fuel ih =>
    intro s h
    unfold timeDispose
    split
    · exact .some h
    · next t e =>
      refine .ite (fun _ => .some h) fun _ => ?_
      have ht : Z.tcb t := h.dly t e
      have h1 := dropFlagNode_sealed (removeEvent_sealed h (Or.inl ht)) t
      have hL := h1.dlyLinks
      have h2 := (h1.setDlyLinks (L := ⟨_, _, _⟩) ⟨⟨fun b hb => hL.next t b ht hb,
        update_within hL.next within_none, hL.prev⟩, fun a ha => ⟨update_off ht ha none, rfl⟩⟩)
      refine Ensures.bind (insertToTCBRdyList_sealed (h2.congr rfl) ht) fun s1 h3 => ih ?_
      split
      · exact h3
      · next x hx =>
        have hxz : Z.tcb x := h3.dly x hx
        have hM := h3.dlyLinks
        exact h3.setDlyLinks (L := ⟨s1.DlyList, s1.TCBnext, update s1.TCBprev x none⟩)
          ⟨⟨hM.head, hM.next, update_within hM.prev within_none⟩,
            fun a ha => ⟨rfl, update_off hxz ha none⟩⟩

end Wait

/-! ## Posts, timers and deferred requests -/

section Posts

variable {cfg : Env} {Z : Zone} {d : MtxPart} {s : Kernel}

/-- The end of a section that returns `v`. -/
theorem unlock_sealed {α : Type} (hr : Responds cfg Z) (h : Sealed cfg.toConfig Z d s) (v : α) :
    Ensures (do
      let s ← osSchedUnlock cfg s
      some (s, v)) fun x : Kernel × α => Sealed cfg.toConfig Z d x.1 :=
  Ensures.bind (osSchedUnlock_sealed hr h) fun _ h1 => .some h1

theorem postTo_sealed {α : Type} (hr : Responds cfg Z) (h : Sealed cfg.toConfig Z d s)
    (id mail : Nat) (v : α) :
    Ensures (do
      let s ← postTo cfg s id mail
      let s ← osSchedUnlock cfg s
      some (s, v)) fun x : Kernel × α => Sealed cfg.toConfig Z d x.1 := by
  have h0 : Sealed cfg.toConfig Z d (s.note id mail .posted) := h.congr rfl
  have h1 : Ensures (postTo cfg s id mail) (Sealed cfg.toConfig Z d) := eventTaskToRdy_sealed h0 id
  exact Ensures.bind h1 fun _ h2 => unlock_sealed hr h2 v

theorem coPostSem_sealed (hr : Responds cfg Z) (h : Sealed cfg.toConfig Z d s) (id : Nat) :
    Ensures (coPostSem cfg s id) fun x => Sealed cfg.toConfig Z d x.1 := by
  unfold coPostSem
  refine .ite (fun _ => .some h) fun _ => .ite (fun _ => .some h) fun _ =>
    postTo_sealed hr ?_ id _ _
  exact h.congr rfl

theorem coPostMail_sealed (hr : Responds cfg Z) (h : Sealed cfg.toConfig Z d s) (id pmail : Nat) :
    Ensures (coPostMail cfg s id pmail) fun x => Sealed cfg.toConfig Z d x.1 := by
  unfold coPostMail
  refine .ite (fun _ => .some h) fun _ => .ite (fun _ => postTo_sealed hr ?_ id _ _) fun _ =>
    .some h
  exact h.congr rfl

theorem coPostQueueMail_sealed (hr : Responds cfg Z) (h : Sealed cfg.toConfig Z d s)
    (id pmail : Nat) :
    Ensures (coPostQueueMail cfg s id pmail) fun x => Sealed cfg.toConfig Z d x.1 := by
  unfold coPostQueueMail
  refine .ite (fun _ => .some h) fun _ => .ite (fun _ => .some h) fun _ =>
    postTo_sealed hr ?_ id _ _
  exact h.congr rfl

theorem coSetFlag_sealed (hr : Responds cfg Z) (h : Sealed cfg.toConfig Z d s) (id : Nat) :
    Ensures (coSetFlag cfg s id) fun x => Sealed cfg.toConfig Z d x.1 := by
  unfold coSetFlag
  refine .ite (fun _ => .some h) fun _ => .ite (fun _ => .some h) fun _ => ?_
  have h1 : Sealed cfg.toConfig Z d (osSchedLock { s with flagRdy := s.flagRdy ||| flagBit id }) :=
    h.congr rfl
  exact Ensures.bind (setFlagLoop_sealed id _ h1 h1.node.head) fun s1 h2 => unlock_sealed hr h2 _

/-- What the callbacks of running timers do stays in the zone. -/
def CallsBack (cfg : Env) (Z : Zone) : Prop :=
  Z.timers → ∀ d f s, Sealed cfg.toConfig Z d s →
    Ensures (cfg.runCallBack f s) (Sealed cfg.toConfig Z d)

theorem setTmr_sealed (ht : Z.timers) (h : Sealed cfg.toConfig Z d s) (m : Tmr) :
    Sealed cfg.toConfig Z d { s with tmr := m } := { h with tmr := Or.inr ht }

theorem insertTmrList_sealed (hr : Responds cfg Z) (ht : Z.timers)
    (h : Sealed cfg.toConfig Z d s) (t : Nat) :
    Ensures (insertTmrList cfg s t) (Sealed cfg.toConfig Z d) := by
  unfold insertTmrList
  refine .ite (fun _ => .some h) fun _ => Ensures.skip fun D => ?_
  exact osSchedUnlock_sealed hr (setTmr_sealed ht (osSchedLock_sealed h) _)

theorem removeTmrList_sealed (hr : Responds cfg Z) (ht : Z.timers)
    (h : Sealed cfg.toConfig Z d s) (t : Nat) :
    Ensures (removeTmrList cfg s t) (Sealed cfg.toConfig Z d) :=
  osSchedUnlock_sealed hr (setTmr_sealed ht (osSchedLock_sealed h) _)

theorem fireTmr_sealed (hr : Responds cfg Z) (hc : CallsBack cfg Z) (ht : Z.timers)
    (h : Sealed cfg.toConfig Z d s) (t : Nat) :
    Ensures (fireTmr cfg s t) (Sealed cfg.toConfig Z d) := by
  have hcall : ∀ {s : Kernel}, Sealed cfg.toConfig Z d s →
      Ensures (callBack cfg s t) (Sealed cfg.toConfig Z d) := fun h => hc ht d _ _ (h.congr rfl)
  unfold fireTmr
  refine .ite (fun _ => ?_) fun _ => ?_
  · refine Ensures.bind (removeTmrList_sealed hr ht h t) fun s1 h1 => ?_
    exact Ensures.bind (insertTmrList_sealed hr ht (setTmr_sealed ht h1 _) t) fun s2 h2 => hcall h2
  · exact Ensures.bind (removeTmrList_sealed hr ht h t) fun s1 h1 => hcall (setTmr_sealed ht h1 _)

theorem tmrDispose_sealed (hr : Responds cfg Z) (hc : CallsBack cfg Z) (fuel : Nat) :
    ∀ {s : Kernel}, Sealed cfg.toConfig Z d s →
    Ensures (tmrDispose cfg fuel s) (Sealed cfg.toConfig Z d) := by
  induction fuel with
  | zero =>
    intro s h
    unfold tmrDispose
    split
    · exact .some h
    · exact .ite (fun _ => .some h) fun _ => .none
  | succ fuel ih =>
    intro s h
    unfold tmrDispose
    split
    · exact .some h
    · next t e =>
      refine .ite (fun _ => .some h) fun _ => ?_
      have ht : Z.timers := h.tmr.resolve_left fun hn => nomatch hn.symm.trans e
      exact Ensures.bind (fireTmr_sealed hr hc ht h t) fun s1 h1 => ih h1

theorem serve_sealed (hr : Responds cfg Z) (h : Sealed cfg.toConfig Z d s) (c : SQC) :
    Ensures (serve cfg s c) fun x => Sealed cfg.toConfig Z d x.1 := by
  unfold serve
  refine Ensures.map (Ensures.imp ?_ fun x (h : Sealed cfg.toConfig Z d x.1) => h.congr rfl)
  unfold serveSwitch
  split
  · exact coPostSem_sealed hr h _
  · exact coPostMail_sealed hr h _ _
  · exact coSetFlag_sealed hr h _
  · exact coPostQueueMail_sealed hr h _ _

theorem serveLoop_sealed (hr : Responds cfg Z) (fuel : Nat) :
    ∀ {s : Kernel}, Sealed cfg.toConfig Z d s →
    Ensures (serveLoop cfg fuel s) (Sealed cfg.toConfig Z d) := by
  induction fuel with
  | zero =>
    intro s h
    unfold serveLoop
    exact .ite (fun _ => .some h) fun _ => .none
  | succ fuel ih =>
    intro s h
    unfold serveLoop
    refine .ite (fun _ => .some h) fun _ => Ensures.bind (serve_sealed hr ?_ _) fun x h1 => ih h1
    exact h.congr rfl

theorem respondSRQ_sealed (hr : Responds cfg Z) (hc : CallsBack cfg Z)
    (h : Sealed cfg.toConfig Z d s) :
    Ensures (respondSRQ cfg s) (Sealed cfg.toConfig Z d) := by
  rw [respondSRQ_parts]
  have h1 : Ensures (respondTime cfg s) (Sealed cfg.toConfig Z d) :=
    .ite (fun _ => Ensures.map ((timeDispose_sealed _ h).imp fun _ h1 => h1.congr rfl)) fun _ =>
      .some h
  refine Ensures.bind h1 fun s1 h1 => ?_
  have h2 : Ensures (respondTimer cfg s1) (Sealed cfg.toConfig Z d) :=
    .ite (fun _ => Ensures.map ((tmrDispose_sealed hr hc _ h1).imp fun _ h2 => h2.congr rfl))
      fun _ => .some h1
  refine Ensures.bind h2 fun s2 h2 => Ensures.map ((serveLoop_sealed hr _ h2).imp fun s3 h3 => ?_)
  unfold endRespond
  split
  · exact h3.congr rfl
  · exact h3

/-- The build with `RespondSRQ`: no post of the drain begins another one. -/
theorem responds_served (hc : CallsBack cfg Z) : Responds cfg.served Z := fun d _ h =>
  @respondSRQ_sealed cfg.inner Z d _ (fun _ _ _ => .none) hc h

/-! ## The tick -/

theorem sysTick_Handler_sealed (hr : Responds cfg Z) (hc : CallsBack cfg Z)
    (h : Sealed cfg.toConfig Z d s) :
    Ensures (sysTick_Handler cfg s) (Sealed cfg.toConfig Z d) := by
  have hd : ∀ {s : Kernel}, Sealed cfg.toConfig Z d s →
    Ensures (sysTickDelay cfg s) (Sealed cfg.toConfig Z d) := by
    intro s h
    unfold sysTickDelay
    split
    · exact .some h
    · refine .ite (fun _ => .some (h.congr rfl)) fun _ => ?_
      unfold isr_TimeDispose
      exact .ite (fun _ => .some (h.congr rfl)) fun _ => timeDispose_sealed _ (h.congr rfl)
  have ht : ∀ {s : Kernel}, Sealed cfg.toConfig Z d s →
    Ensures (sysTickTmr cfg s) (Sealed cfg.toConfig Z d) := by
    intro s h
    unfold sysTickTmr
    split
    · exact .some h
    · refine .ite (fun _ => .some (h.congr rfl)) fun _ => ?_
      unfold isr_TmrDispose
      exact .ite (fun _ => .some (h.congr rfl)) fun _ => tmrDispose_sealed hr hc _ (h.congr rfl)
  unfold sysTick_Handler
  refine Ensures.bind (hd (h.congr rfl)) fun s1 h1 => Ensures.bind (ht h1) fun s2 h2 => ?_
  exact osSchedUnlock_sealed hr (h2.congr rfl)

end Posts

end CoOS
