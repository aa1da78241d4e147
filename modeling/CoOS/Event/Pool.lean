/-
  The pool of event blocks.

  `eventPtr` is the link of the free list, the mail of a mailbox or the block of a queue,
  depending on `eventType`. Posts, accepts, pends and timeouts keep the pool, in any state of the
  lists (`Kernel.pool`); a creation takes the first free block, a deletion puts its block in
  front (`EcbPool`).
-/
import CoOS.Kernel.EventGap
import CoOS.Kernel.Frame

namespace CoOS

open Function (update)
open DList

/-! ## What does not touch the pool -/

/-- The part of the frame that is about event blocks, with the timers. -/
structure EcbView where
  FreeEventList : Option Nat
  ecbId : Nat → Nat
  eventType : Nat → EventType
  link : Nat → EventPtr
  QueueIDVessel : Nat → Bool
  qId : Nat → Nat
  tmr : Tmr

def Kernel.pool (s : Kernel) : EcbView :=
  ⟨s.FreeEventList, s.ecbId, s.eventType, s.link, s.QueueIDVessel, s.qId, s.tmr⟩

def Frame.pool (v : Frame) : EcbView :=
  ⟨v.FreeEventList, v.ecbId, v.eventType, v.link, v.QueueIDVessel, v.qId, v.tmr⟩

theorem pool_of_frame {s s' : Kernel} (h : s'.frame = s.frame) : s'.pool = s.pool :=
  congrArg Frame.pool h

section Frames

variable (cfg : Env) {v : EcbView}

/-- A function that keeps the frame keeps the pool. -/
theorem Framed.pool {s : Kernel} {x : Option Kernel} (h : Framed s.frame x) (hv : s.pool = v) :
    Ensures x fun s' => s'.pool = v := h.imp fun _ e => (pool_of_frame e).trans hv

theorem serveLoop_pool (fuel : Nat) : ∀ {s : Kernel}, s.pool = v → 0 < s.OSSchedLock →
    Ensures (serveLoop cfg fuel s) fun s' => s'.pool = v := by
  induction fuel with
  | zero =>
    intro s h _
    unfold serveLoop
    exact .ite (fun _ => .some h) fun _ => .none
  | succ fuel ih =>
    intro s h hl
    unfold serveLoop
    refine .ite (fun _ => .some h) fun _ => ?_
    let s1 : Kernel := { s with ServiceReq := { s.ServiceReq with
      head := (s.ServiceReq.head + 1) % cfg.maxServiceRequest, cnt := s.ServiceReq.cnt - 1 } }
    refine Ensures.bind (serve_frame cfg (s := s1) _ rfl hl) fun x hx => ?_
    refine ih ((pool_of_frame hx).trans h) ?_
    rw [show x.1.OSSchedLock = s.OSSchedLock from congrArg Frame.OSSchedLock hx]
    exact hl

/-- `RespondSRQ`, without timers. -/
theorem respondSRQ_pool {s : Kernel} (h : s.pool = v) (ht : v.tmr.TmrList = none)
    (hl : 0 < s.OSSchedLock) : Ensures (respondSRQ cfg s) fun s' => s'.pool = v := by
  have htime : Ensures (respondTime cfg s) fun s' => s'.pool = v ∧ 0 < s'.OSSchedLock := by
    refine .ite (fun _ => ?_) fun _ => .some ⟨h, hl⟩
    refine Ensures.map fun s1 e1 => ?_
    have h1 := @timeDispose_frame cfg _ cfg.tasks s rfl s1 e1
    refine ⟨(pool_of_frame h1).trans h, ?_⟩
    rw [show s1.OSSchedLock = s.OSSchedLock from congrArg Frame.OSSchedLock h1]
    exact hl
  rw [respondSRQ_parts]
  refine Ensures.bind htime fun s1 h1 => ?_
  have htl : s1.tmr.TmrList = none := by
    rw [show s1.tmr = v.tmr from congrArg EcbView.tmr h1.1]
    exact ht
  have htmr : Ensures (respondTimer cfg s1) fun s' => s'.pool = v ∧ 0 < s'.OSSchedLock := by
    refine .ite (fun _ => ?_) fun _ => .some h1
    refine Ensures.map fun s2 e2 => ?_
    unfold tmrDispose at e2
    rw [htl] at e2
    rw [← Option.some.inj e2]
    exact h1
  refine Ensures.bind htmr fun s2 h2 => Ensures.map ?_
  refine (serveLoop_pool cfg _ h2.1 h2.2).imp fun s3 h3 => ?_
  unfold endRespond
  split
  · exact h3
  · exact h3

theorem osSchedUnlock_pool {s : Kernel} (h : s.pool = v) (ht : v.tmr.TmrList = none) :
    Ensures (osSchedUnlock cfg.served s) fun s' => s'.pool = v := by
  rw [osSchedUnlock_parts]
  refine .ite (fun hl => ?_) fun _ => .some h
  have hresp : Ensures (if s.IsrReq then cfg.served.respondSRQ s else some s)
      fun s1 : Kernel => s1.pool = v := by
    refine .ite (fun _ => respondSRQ_pool _ h ht ?_) fun _ => .some h
    rw [hl]
    exact Nat.one_pos
  refine Ensures.bind hresp fun s1 h1 => Ensures.map ?_
  exact .ite (fun _ => Framed.pool (schedule_frame _ rfl) h1) fun _ => .some h1

/-- The end of a call. -/
theorem unlocked_pool {β : Type} {s : Kernel} {b : β} (h : s.pool = v) (ht : v.tmr.TmrList = none) :
    Ensures (do
      let s ← osSchedUnlock cfg.served s
      some (s, b)) fun x => x.1.pool = v :=
  Ensures.bind (osSchedUnlock_pool cfg h ht) fun _ h1 => .some h1

theorem not_bad_kind {s : Kernel} {n id : Nat} {k : EventType}
    (h : ¬ (n ≤ id ∨ s.eventType id ≠ k)) :
    s.eventType id = k := not_not.mp (not_or.mp h).2

/-- The pool is that of `s`, but that the `eventPtr` of `id` may have been written. -/
def Mailed (s : Kernel) (id : Nat) (v : EcbView) : Prop :=
  v = s.pool ∨ ∃ p : EventPtr, v = { s with eventPtr := update s.eventPtr id p }.pool

/-- The mail of a mailbox is no part of the pool. -/
theorem Mailed.mbox {s : Kernel} {id : Nat} {v : EcbView} (h : Mailed s id v)
    (he : s.eventType id = .mbox) :
    v = s.pool := by
  rcases h with h | ⟨p, h⟩
  · exact h
  · exact h.trans (pool_of_frame (frame_mail he p))

theorem unlocked_mailed {β : Type} {s s0 : Kernel} {id : Nat} {b : β} (h : Mailed s0 id s.pool)
    (ht : s.tmr.TmrList = none) : Ensures (do
      let s ← osSchedUnlock cfg.served s
      some (s, b)) fun x => Mailed s0 id x.1.pool := by
  refine (unlocked_pool cfg (s := s) rfl ht).imp fun x e => ?_
  rw [e]
  exact h

theorem acceptSemSection_pool {s : Kernel} (id : Nat) (h : s.pool = v) (ht : v.tmr.TmrList = none) :
    Ensures (acceptSemSection cfg.served s id) fun x => x.1.pool = v := by
  unfold acceptSemSection
  exact .ite (fun _ => unlocked_pool cfg h ht) fun _ => unlocked_pool cfg h ht

theorem acceptMailSection_pool {s : Kernel} (id : Nat) (ht : s.tmr.TmrList = none) :
    Ensures (acceptMailSection cfg.served s id) fun x =>
      Mailed s id x.1.pool ∧ (s.eventCounter id ≠ 1 → x.1.pool = s.pool) := by
  unfold acceptMailSection
  refine .ite (fun h1 => ?_) fun _ => (unlocked_pool cfg (s := osSchedLock s) rfl ht).imp fun x e =>
    ⟨Or.inl e, fun _ => e⟩
  exact (unlocked_mailed cfg (s := (takeMail (osSchedLock s) id).1) (Or.inr ⟨.null, rfl⟩) ht).imp
    fun x e =>
    ⟨e, fun hn => absurd h1 hn⟩

theorem acceptQueueSection_pool {s : Kernel} (id q : Nat) (h : s.pool = v)
    (ht : v.tmr.TmrList = none) :
    Ensures (acceptQueueSection cfg.served s id q) fun x => x.1.pool = v := by
  unfold acceptQueueSection
  exact .ite (fun _ => unlocked_pool cfg h ht) fun _ => unlocked_pool cfg h ht

theorem acceptEvent_pool {s : Kernel} (k : EventType) (id : Nat) (h : s.pool = v)
    (ht : v.tmr.TmrList = none) :
    Ensures (acceptEvent cfg.served s k id) fun x => x.1.pool = v := by
  subst h
  cases k with
  | sem =>
    exact Ensures.map (.ite (fun _ => .some rfl) fun _ => acceptSemSection_pool cfg id rfl ht)
  | mbox =>
    refine .ite (fun _ => .some rfl) fun hk => ?_
    exact (acceptMailSection_pool cfg id ht).imp fun x e => e.1.mbox (not_bad_kind hk)
  | queue => exact .ite (fun _ => .some rfl) fun _ => acceptQueueSection_pool cfg id _ rfl ht
  | invalid => exact .none

theorem acceptSection_pool {s : Kernel} (k : EventType) (id q : Nat) (ht : s.tmr.TmrList = none) :
    Ensures (acceptSection cfg.served s k id q) fun x =>
      Mailed s id x.1.pool ∧ (k ≠ .mbox ∨ s.eventCounter id ≠ 1 → x.1.pool = s.pool) := by
  cases k with
  | sem =>
    exact Ensures.map ((acceptSemSection_pool cfg id rfl ht).imp fun x e => ⟨Or.inl e, fun _ => e⟩)
  | mbox => exact (acceptMailSection_pool cfg id ht).imp fun x e =>
    ⟨e.1, fun hn => e.2 (hn.resolve_left fun hk => hk rfl)⟩
  | queue => exact (acceptQueueSection_pool cfg id q rfl ht).imp fun x e => ⟨Or.inl e, fun _ => e⟩
  | invalid => exact .none

theorem pendSemSection_pool {s : Kernel} (id : Nat) (h : s.pool = v) (ht : v.tmr.TmrList = none) :
    Ensures (pendSemSection cfg.served s id) fun x => x.1.pool = v := by
  unfold pendSemSection
  exact .ite (fun _ => unlocked_pool cfg h ht) fun _ => unlocked_pool cfg h ht

theorem pendMailSection_pool {s : Kernel} (id : Nat) (ht : s.tmr.TmrList = none) :
    Ensures (pendMailSection cfg.served s id) fun x =>
      Mailed s id x.1.pool ∧ (s.eventCounter id ≠ 1 → x.1.pool = s.pool) := by
  unfold pendMailSection
  refine .ite (fun h1 => ?_) fun _ => (unlocked_pool cfg (s := osSchedLock s) rfl ht).imp fun x e =>
    ⟨Or.inl e, fun _ => e⟩
  exact (unlocked_mailed cfg (s := (takeMail (osSchedLock s) id).1) (Or.inr ⟨.null, rfl⟩) ht).imp
    fun x e =>
    ⟨e, fun hn => absurd h1 hn⟩

theorem pendQueueSection_pool {s : Kernel} (id q : Nat) (h : s.pool = v)
    (ht : v.tmr.TmrList = none) :
    Ensures (pendQueueSection cfg.served s id q) fun x => x.1.pool = v := by
  unfold pendQueueSection
  exact .ite (fun _ => unlocked_pool cfg h ht) fun _ => unlocked_pool cfg h ht

theorem pendEvent_pool {s : Kernel} (k : EventType) (id : Nat) (h : s.pool = v)
    (ht : v.tmr.TmrList = none) : Ensures (pendEvent cfg.served s k id) fun x => x.1.pool = v := by
  subst h
  cases k with
  | sem =>
    refine Ensures.map (.ite (fun _ => .some rfl) fun _ => .ite (fun _ => .some rfl) fun _ => ?_)
    exact .ite (fun _ => .some rfl) fun _ => pendSemSection_pool cfg id rfl ht
  | mbox =>
    refine .ite (fun _ => .some rfl) fun _ => .ite (fun _ => .some rfl) fun hk => ?_
    refine .ite (fun _ => .some rfl) fun _ => ?_
    exact (pendMailSection_pool cfg id ht).imp fun x e => e.1.mbox (not_bad_kind hk)
  | queue =>
    refine .ite (fun _ => .some rfl) fun _ => .ite (fun _ => .some rfl) fun _ => ?_
    exact .ite (fun _ => .some rfl) fun _ => pendQueueSection_pool cfg id _ rfl ht
  | invalid => exact .none

theorem pendSection_pool {s : Kernel} (k : EventType) (id q : Nat) (ht : s.tmr.TmrList = none) :
    Ensures (pendSection cfg.served s k id q) fun x =>
      Mailed s id x.1.pool ∧ (k ≠ .mbox ∨ s.eventCounter id ≠ 1 → x.1.pool = s.pool) := by
  cases k with
  | sem =>
    exact Ensures.map ((pendSemSection_pool cfg id rfl ht).imp fun x e => ⟨Or.inl e, fun _ => e⟩)
  | mbox => exact (pendMailSection_pool cfg id ht).imp fun x e =>
    ⟨e.1, fun hn => e.2 (hn.resolve_left fun hk => hk rfl)⟩
  | queue => exact (pendQueueSection_pool cfg id q rfl ht).imp fun x e => ⟨Or.inl e, fun _ => e⟩
  | invalid => exact .none

theorem postTo_pool {s : Kernel} (id mail : Nat) (h : s.pool = v) (ht : v.tmr.TmrList = none) :
    Ensures (do
      let s ← postTo cfg.served s id mail
      let s ← osSchedUnlock cfg.served s
      some (s, StatusType.E_OK)) fun x => x.1.pool = v := by
  have hp : Ensures (postTo cfg.served s id mail) fun s' => s'.pool = v :=
    Framed.pool (s := s.note id mail .posted) (eventTaskToRdy_frame _ id rfl) h
  exact Ensures.bind hp fun s1 h1 => unlocked_pool cfg h1 ht

theorem postSemSection_pool {s : Kernel} (id : Nat) (h : s.pool = v) (ht : v.tmr.TmrList = none) :
    Ensures (postSemSection cfg.served s id) fun x => x.1.pool = v := postTo_pool cfg id _ h ht

theorem postMailSection_pool {s : Kernel} (id mail : Nat) (ht : s.tmr.TmrList = none) :
    Ensures (postMailSection cfg.served s id mail) fun x => Mailed s id x.1.pool := by
  let s1 : Kernel := { osSchedLock s with
    eventPtr := update s.eventPtr id (.mail mail)
    eventCounter := update s.eventCounter id 1 }
  exact (postTo_pool cfg (s := s1) id mail rfl ht).imp fun x e => Or.inr ⟨.mail mail, e⟩

theorem postQueueSection_pool {s : Kernel} (id q mail : Nat) (h : s.pool = v)
    (ht : v.tmr.TmrList = none) :
    Ensures (postQueueSection cfg.served s id q mail) fun x => x.1.pool = v :=
  postTo_pool cfg id mail h ht

theorem postEvent_pool {s : Kernel} (k : EventType) (id mail : Nat) (h : s.pool = v)
    (ht : v.tmr.TmrList = none) :
    Ensures (postEvent cfg.served s k id mail) fun x => x.1.pool = v := by
  subst h
  cases k with
  | sem =>
    refine .ite (fun _ => .some rfl) fun _ => .ite (fun _ => .some rfl) fun _ => ?_
    exact postSemSection_pool cfg id rfl ht
  | mbox =>
    refine .ite (fun _ => .some rfl) fun hk => .ite (fun _ => ?_) fun _ => .some rfl
    exact (postMailSection_pool cfg id mail ht).imp fun x e => e.mbox (not_bad_kind hk)
  | queue =>
    refine .ite (fun _ => .some rfl) fun _ => .ite (fun _ => .some rfl) fun _ => ?_
    exact postQueueSection_pool cfg id _ mail rfl ht
  | invalid => exact .none

theorem postSection_pool {s : Kernel} (k : EventType) (id q mail : Nat)
    (ht : s.tmr.TmrList = none) :
    Ensures (postSection cfg.served s k id q mail) fun x =>
      Mailed s id x.1.pool ∧ (k ≠ .mbox → x.1.pool = s.pool) := by
  cases k with
  | sem => exact (postSemSection_pool cfg id rfl ht).imp fun x e => ⟨Or.inl e, fun _ => e⟩
  | mbox => exact (postMailSection_pool cfg id mail ht).imp fun x e => ⟨e, fun hk => absurd rfl hk⟩
  | queue =>
    exact (postQueueSection_pool cfg id q mail rfl ht).imp fun x e => ⟨Or.inl e, fun _ => e⟩
  | invalid => exact .none

theorem eventTaskToWait_pool {s : Kernel} (e t : Nat) (h : s.pool = v) (ht : v.tmr.TmrList = none) :
    Ensures (eventTaskToWait cfg.served s e t) fun s' => s'.pool = v := by
  unfold eventTaskToWait
  let s1 : Kernel := { osSchedLock s with eventID := update s.eventID t e }
  refine Ensures.bind (Framed.pool (s := s1) (linkWaiting_frame _ e t rfl) h) fun s2 h2 => ?_
  exact osSchedUnlock_pool cfg h2 ht

theorem pendWait_pool {s : Kernel} (id timeout : Nat) (h : s.pool = v) (ht : v.tmr.TmrList = none) :
    Ensures (pendWait cfg.served s id timeout) fun s' => s'.pool = v := by
  unfold pendWait
  split
  · exact .none
  · next cur _ =>
    refine .ite (fun _ => eventTaskToWait_pool cfg id cur h ht) fun _ => ?_
    refine Ensures.bind (eventTaskToWait_pool cfg (s := osSchedLock s) id cur h ht) fun s1 h1 => ?_
    refine Ensures.bind (Framed.pool (insertDelayList_frame _ cur timeout rfl) h1) fun s2 h2 => ?_
    exact osSchedUnlock_pool cfg h2 ht

theorem sysTick_pool {s : Kernel} (h : s.pool = v) (ht : v.tmr.TmrList = none) :
    Ensures (sysTick_Handler cfg.served s) fun s' => s'.pool = v := by
  unfold sysTick_Handler
  have hdelay : ∀ {s : Kernel}, s.pool = v →
      Ensures (sysTickDelay cfg.served s) fun s' => s'.pool = v := by
    intro s h
    unfold sysTickDelay isr_TimeDispose
    split
    · exact .some h
    · refine .ite (fun _ => .some h) fun _ => .ite (fun _ => .some h) fun _ => ?_
      exact Framed.pool (timeDispose_frame _ _ rfl) h
  refine Ensures.bind (hdelay (s := { osSchedLock s with OSTickCnt := s.OSTickCnt + 1 }) h)
    fun s1 h1 => ?_
  have htl : s1.tmr.TmrList = none := by
    rw [show s1.tmr = v.tmr from congrArg EcbView.tmr h1]
    exact ht
  have htmr : sysTickTmr cfg.served s1 = some s1 := by
    unfold sysTickTmr
    rw [htl]
  rw [htmr]
  exact osSchedUnlock_pool cfg (s := { s1 with TaskSchedReq := true }) h1 ht

theorem pendReturn_pool (s : Kernel) (r timeout : Nat) : (pendReturn s r timeout).1.pool =
    s.pool := by
  unfold pendReturn
  split
  · rfl
  · rfl

theorem takeSwitch_pool (s : Kernel) : (takeSwitch s).pool = s.pool := by
  unfold takeSwitch
  split
  · rfl
  · rfl

theorem defer_pool (rs : List SQC) : ∀ s : Kernel, (s.defer cfg rs).pool = s.pool := by
  induction rs with
  | nil => exact fun _ => rfl
  | cons c rs ih =>
    intro s
    refine (ih _).trans ?_
    unfold insertInSRQ
    dsimp only
    split
    · rfl
    · rfl

end Frames

/-! ## The pool -/

/-- The free list runs through the blocks of type INVALID that no creation has taken (`T`), each
    once; every block has its index as its id. There are no timers. -/
structure EcbPool (cfg : Env) (s : Kernel) (T : Nat → Prop) : Prop where
  chain : ∃ l, IsSList s.FreeEventList s.nextECB l ∧
    ∀ e, e ∈ l ↔ e < cfg.maxEvent ∧ s.eventType e = .invalid ∧ ¬ T e
  ids : ∀ e, e < cfg.maxEvent → s.ecbId e = e
  taken : ∀ e, T e → e < cfg.maxEvent ∧ s.eventType e = .invalid
  tmr : s.tmr.TmrList = none

section Pool

variable {cfg : Env} {s s' : Kernel} {T T' : Nat → Prop}

/-- The link of a block that is no mailbox is part of the pool. -/
theorem nextECB_congr (h : s'.pool = s.pool) {e : Nat} (he : s.eventType e = .invalid) :
    s'.eventPtr e = s.eventPtr e := by
  have hty : s'.eventType e = .invalid := by
    rw [show s'.eventType = s.eventType from congrArg EcbView.eventType h]
    exact he
  have hl : s'.link e = s.link e := congrFun (congrArg EcbView.link h) e
  unfold Kernel.link at hl
  rw [hty, he] at hl
  exact hl

/-- The free list, the types of the blocks and the links of the free ones have not changed. -/
structure SameFree (s s' : Kernel) : Prop where
  head : s'.FreeEventList = s.FreeEventList
  id : s'.ecbId = s.ecbId
  type : s'.eventType = s.eventType
  ptr : ∀ e, s.eventType e = .invalid → s'.eventPtr e = s.eventPtr e
  tmr : s'.tmr = s.tmr

theorem SameFree.pool (e : s'.pool = s.pool) : SameFree s s' where
  head := congrArg EcbView.FreeEventList e
  id := congrArg EcbView.ecbId e
  type := congrArg EcbView.eventType e
  ptr _ he := nextECB_congr e he
  tmr := congrArg EcbView.tmr e

theorem SameFree.trans {s'' : Kernel} (h : SameFree s s') (h' : SameFree s' s'') :
    SameFree s s'' where
  head := h'.head.trans h.head
  id := h'.id.trans h.id
  type := h'.type.trans h.type
  ptr e he := (h'.ptr e (by rw [h.type]; exact he)).trans (h.ptr e he)
  tmr := h'.tmr.trans h.tmr

/-- A mail may be written to a block in use. -/
theorem SameFree.mailed {id : Nat} (h : Mailed s id s'.pool) (he : s.eventType id ≠ .invalid) :
    SameFree s s' := by
  rcases h with h | ⟨p, h⟩
  · exact .pool h
  · have h1 : SameFree s { s with eventPtr := update s.eventPtr id p } := by
      refine ⟨rfl, rfl, rfl, fun a ha => ?_, rfl⟩
      exact Function.update_of_ne (fun e : a = id => he (e ▸ ha)) ..
    exact h1.trans (.pool h)

theorem EcbPool.same (h : EcbPool cfg s T) (e : SameFree s s') : EcbPool cfg s' T := by
  obtain ⟨l, h1, h2⟩ := h.chain
  refine ⟨⟨l, h1.congr e.head fun a ha => ?_, ?_⟩, ?_, ?_, ?_⟩
  · unfold Kernel.nextECB
    rw [e.ptr a ((h2 a).mp ha).2.1]
  · rw [e.type]
    exact h2
  · rw [e.id]
    exact h.ids
  · rw [e.type]
    exact h.taken
  · rw [e.tmr]
    exact h.tmr

theorem EcbPool.congr (h : EcbPool cfg s T) (e : s'.pool = s.pool) : EcbPool cfg s' T :=
  h.same (.pool e)

/-- Queue blocks are no part of it. -/
theorem EcbPool.queue (h : EcbPool cfg s T) (v : Nat → Bool) (q : Nat → Nat) :
    EcbPool cfg { s with QueueIDVessel := v, qId := q } T := ⟨h.chain, h.ids, h.taken, h.tmr⟩

theorem pool_queue (e : s'.pool = s.pool) (v : Nat → Bool) (q : Nat → Nat) :
    { s' with QueueIDVessel := v, qId := q }.pool = { s with QueueIDVessel := v, qId := q }.pool :=
  congrArg (fun p : EcbView => { p with QueueIDVessel := v, qId := q }) e

theorem EcbPool.iff (h : EcbPool cfg s T) (hT : ∀ e, T' e ↔ T e) : EcbPool cfg s T' := by
  rw [show T' = T from funext fun e => propext (hT e)]
  exact h

/-- `CreatEvent` takes a block: it was free, or there is none left. -/
theorem EcbPool.take (h : EcbPool cfg s T) : Ensures (takeECB cfg.served s) fun x =>
    x.1.eventType = s.eventType ∧
    match x.2 with
    | none => EcbPool cfg x.1 T ∧ ∀ e, e < cfg.maxEvent → s.eventType e = .invalid → T e
    | some e => EcbPool cfg x.1 (fun a => a = e ∨ T a) ∧ ¬ T e ∧ e < cfg.maxEvent ∧
        s.eventType e = .invalid := by
  obtain ⟨l, h1, h2⟩ := h.chain
  unfold takeECB
  dsimp only
  split
  · next hf =>
    have hl : l = [] := by
      have := h1.head
      rw [show s.FreeEventList = none from hf] at this
      exact List.head?_eq_none_iff.mp this.symm
    refine Ensures.bind (osSchedUnlock_pool cfg (s := osSchedLock s) rfl h.tmr) fun s1 e1 =>
      .some ?_
    refine ⟨congrArg EcbView.eventType e1, h.congr e1, fun e he hty => ?_⟩
    by_contra hn
    have := (h2 e).mpr ⟨he, hty, hn⟩
    rw [hl] at this
    exact List.not_mem_nil this
  · next e hf =>
    obtain ⟨l', rfl⟩ : ∃ l', l = e :: l' := by
      have := h1.head
      rw [show s.FreeEventList = some e from hf] at this
      exact List.head?_eq_some_iff.mp this.symm
    rw [show s.FreeEventList = some e from hf] at h1
    have he := (h2 e).mp List.mem_cons_self
    have hnl := (List.nodup_cons.mp h1.nodup).1
    let s0 : Kernel := { osSchedLock s with FreeEventList := s.nextECB e }
    have h0 : EcbPool cfg s0 fun a => a = e ∨ T a := by
      refine ⟨⟨l', h1.pop, fun a => ?_⟩, h.ids, ?_, h.tmr⟩
      · constructor
        · intro ha
          obtain ⟨g1, g2, g3⟩ := (h2 a).mp (List.mem_cons_of_mem e ha)
          refine ⟨g1, g2, ?_⟩
          rintro (rfl | ht)
          · exact hnl ha
          · exact g3 ht
        · rintro ⟨g1, g2, g3⟩
          rw [not_or] at g3
          exact (List.mem_cons.mp ((h2 a).mpr ⟨g1, g2, g3.2⟩)).resolve_left g3.1
      · rintro a (rfl | ht)
        · exact ⟨he.1, he.2.1⟩
        · exact h.taken a ht
    refine Ensures.bind (osSchedUnlock_pool cfg (s := s0) rfl h.tmr) fun s1 e1 => .some ?_
    exact ⟨congrArg EcbView.eventType e1, h0.congr e1, he.2.2, he.1, he.2.1⟩

theorem initEvent_cols (s : Kernel) (e : Nat) (ty : EventType) (sort : Nat) (ptr : EventPtr)
    (initCnt maxCnt : Nat) :
    (initEvent s e ty sort ptr initCnt maxCnt).eventType = update s.eventType e ty ∧
    (initEvent s e ty sort ptr initCnt maxCnt).eventPtr = update s.eventPtr e ptr ∧
    (initEvent s e ty sort ptr initCnt maxCnt).FreeEventList = s.FreeEventList ∧
    (initEvent s e ty sort ptr initCnt maxCnt).ecbId = s.ecbId ∧
    (initEvent s e ty sort ptr initCnt maxCnt).tmr = s.tmr := by
  unfold initEvent
  split
  · exact ⟨rfl, rfl, rfl, rfl, rfl⟩
  · exact ⟨rfl, rfl, rfl, rfl, rfl⟩
  · exact ⟨rfl, rfl, rfl, rfl, rfl⟩

/-- A creation fills in the block that it has taken. -/
theorem EcbPool.fill (h : EcbPool cfg s T) {e : Nat} (he : T e) {ty : EventType}
    (hty : ty ≠ .invalid)
    (e1 : s'.eventType = update s.eventType e ty) {ptr : EventPtr}
    (e2 : s'.eventPtr = update s.eventPtr e ptr) (e3 : s'.FreeEventList = s.FreeEventList)
    (e4 : s'.ecbId = s.ecbId) (e5 : s'.tmr = s.tmr) : EcbPool cfg s' fun a => a ≠ e ∧ T a := by
  obtain ⟨l, h1, h2⟩ := h.chain
  have hel : e ∉ l := fun hm => ((h2 e).mp hm).2.2 he
  have hne : ∀ {a}, a ≠ e → s'.eventType a = s.eventType a := fun ha => by
    rw [e1]
    exact Function.update_of_ne ha ..
  have hself : s'.eventType e ≠ .invalid := by
    rw [e1, Function.update_self]
    exact hty
  refine ⟨⟨l, h1.congr e3 fun a ha => ?_, fun a => ?_⟩, by rw [e4]; exact h.ids, fun a ha => ?_,
    by rw [e5]; exact h.tmr⟩
  · have hae : a ≠ e := fun e' => hel (e' ▸ ha)
    unfold Kernel.nextECB
    rw [e2, Function.update_of_ne hae]
  · by_cases hae : a = e
    · subst hae
      exact iff_of_false hel fun hx => hself hx.2.1
    · rw [h2 a, hne hae]
      refine and_congr_right fun _ => and_congr_right fun _ => ?_
      exact ⟨fun hn hx => hn hx.2, fun hn hx => hn ⟨hae, hx⟩⟩
  · rw [hne ha.1]
    exact h.taken a ha.2

/-- A block in use is marked as not in use. -/
theorem EcbPool.mark (h : EcbPool cfg s T) {e : Nat} (he : e < cfg.maxEvent)
    (hty : s.eventType e ≠ .invalid) : EcbPool cfg (markECB s e) fun a => a = e ∨ T a := by
  obtain ⟨l, h1, h2⟩ := h.chain
  have hel : e ∉ l := fun hm => hty ((h2 e).mp hm).2.1
  have hself : (markECB s e).eventType e = .invalid := Function.update_self ..
  have hne : ∀ {a}, a ≠ e → (markECB s e).eventType a = s.eventType a := fun ha =>
    Function.update_of_ne ha ..
  refine ⟨⟨l, h1, fun a => ?_⟩, h.ids, fun a ha => ?_, h.tmr⟩
  · by_cases hae : a = e
    · subst hae
      exact iff_of_false hel fun hx => hx.2.2 (Or.inl rfl)
    · rw [hne hae, h2 a, or_iff_right hae]
  · by_cases hae : a = e
    · rw [hae]
      exact ⟨he, hself⟩
    · rw [hne hae]
      exact h.taken a (ha.resolve_left hae)

/-- A block that has been marked goes in front of the free list. -/
theorem EcbPool.linked (h : EcbPool cfg s T) {e : Nat} (he : T e) :
    Ensures (linkECB cfg.served s e) fun s' =>
      EcbPool cfg s' (fun a => a ≠ e ∧ T a) ∧ s'.eventType = s.eventType := by
  obtain ⟨l, h1, h2⟩ := h.chain
  have hel : e ∉ l := fun hm => ((h2 e).mp hm).2.2 he
  obtain ⟨ptr, heq, hptr⟩ := linkECB_eq cfg.served s e
  let s1 : Kernel :=
    { osSchedLock s with eventPtr := update s.eventPtr e ptr, FreeEventList := some e }
  have hnext : s1.nextECB e = s.FreeEventList := by
    unfold Kernel.nextECB
    rw [show s1.eventPtr e = ptr from Function.update_self ..]
    rcases hptr with ⟨h3, h4⟩ | ⟨e', h3, h4⟩
    · rw [h3, h4]
    · rw [h3, h4]
  have hp1 : EcbPool cfg s1 fun a => a ≠ e ∧ T a := by
    refine ⟨⟨e :: l, h1.push hel hnext fun a ha => ?_, fun a => ?_⟩, h.ids,
      fun a ha => h.taken a ha.2,
      h.tmr⟩
    · have hae : a ≠ e := fun e' => hel (e' ▸ ha)
      unfold Kernel.nextECB
      rw [show s1.eventPtr a = s.eventPtr a from Function.update_of_ne hae ..]
    · by_cases hae : a = e
      · subst hae
        exact iff_of_true List.mem_cons_self ⟨(h.taken a he).1, (h.taken a he).2,
          fun hx => hx.1 rfl⟩
      · rw [List.mem_cons, or_iff_right hae, h2 a]
        refine and_congr_right fun _ => and_congr_right fun _ => ?_
        exact ⟨fun hn hx => hn hx.2, fun hn hx => hn ⟨hae, hx⟩⟩
  rw [heq]
  refine (osSchedUnlock_pool cfg (s := s1) rfl h.tmr).imp fun s2 e2 => ?_
  exact ⟨hp1.congr e2, congrArg EcbView.eventType e2⟩

/-- `ReleaseECB` of a block in use. -/
theorem EcbPool.release (h : EcbPool cfg s T) {e : Nat} (he : e < cfg.maxEvent)
    (hty : s.eventType e ≠ .invalid) : Ensures (releaseECB cfg.served s e) fun s' =>
      EcbPool cfg s' T ∧ s'.eventType = update s.eventType e .invalid := by
  have hT : ¬ T e := fun ht => hty (h.taken e ht).2
  refine ((h.mark he hty).linked (Or.inl rfl)).imp fun s' hs => ⟨hs.1.iff fun a => ?_, hs.2⟩
  exact ⟨fun ha => ⟨fun e' => hT (e' ▸ ha), Or.inr ha⟩, fun ha => ha.2.resolve_left ha.1⟩

theorem releaseTasks_pool {v : EcbView} (e fuel : Nat) : ∀ {s : Kernel}, s.pool = v →
    Ensures (releaseTasks cfg e fuel s) fun s' => s'.pool = v := by
  induction fuel with
  | zero =>
    intro s h
    unfold releaseTasks
    split
    · exact .some h
    · exact .none
  | succ fuel ih =>
    intro s h
    unfold releaseTasks
    split
    · exact .some h
    · next t _ =>
      have key : ∀ s1 : Kernel, s1.pool = v → Ensures (do
          let s ← insertToTCBRdyList cfg s1 t
          releaseTasks cfg e fuel s) fun s' => s'.pool = v := by
        intro s1 h1
        exact Ensures.bind (Framed.pool (insertToTCBRdyList_frame cfg t rfl) h1) fun s2 h2 => ih h2
      refine key _ ?_
      exact (pool_of_frame (removeDelay_frame t rfl)).trans h

end Pool

/-! ## Before the start -/

section Boot

variable {cfg : Env} {s : Kernel}

/-- No creation is under way. -/
def noneTaken (_ : Nat) : Prop := False

theorem assignTCB_pool {v : EcbView} (h : s.pool = v) (ht : v.tmr.TmrList = none) :
    Ensures (assignTCB cfg.served s) fun x => x.1.pool = v := by
  unfold assignTCB
  dsimp only
  split
  · exact unlocked_pool cfg h ht
  · exact unlocked_pool cfg h ht

theorem createTask_pool {v : EcbView} (h : s.pool = v) (ht : v.tmr.TmrList = none)
    (task stk parameter : Nat) :
    Ensures (createTask cfg.served s task stk parameter) fun x => x.1.pool = v := by
  unfold createTask
  refine .ite (fun _ => .some h) fun _ => ?_
  refine Ensures.bind (assignTCB_pool h ht) fun x hx => ?_
  have hend : ∀ {s : Kernel} (t : Nat), s.pool = v → Ensures (if parameter >>> 31 = 0 then do
        let s ← insertToTCBRdyList cfg.served (osSchedLock s) t
        let s ← osSchedUnlock cfg.served s
        some (s, t)
      else some ({ s with state := update s.state t .WAITING }, t)) fun x => x.1.pool = v := by
    intro s t h
    refine .ite (fun _ => ?_) fun _ => .some h
    refine Ensures.bind (Framed.pool (s := osSchedLock s) (insertToTCBRdyList_frame _ t rfl) h)
      fun s1 h1 => ?_
    exact unlocked_pool cfg h1 ht
  dsimp only
  split
  · exact .some hx
  · next t _ =>
    refine .ite (fun _ => hend t hx) fun _ => ?_
    exact Ensures.bind (Framed.pool (activeTaskPri_frame rfl _) hx) fun s1 h1 => hend t h1

theorem coCreateFlag_pool {v : EcbView} (h : s.pool = v) (ht : v.tmr.TmrList = none)
    (auto init : Nat) :
    Ensures (coCreateFlag cfg.served s auto init) fun x => x.1.pool = v := by
  unfold coCreateFlag
  dsimp only
  split
  · exact unlocked_pool cfg h ht
  · exact unlocked_pool cfg h ht

theorem coCreateMutex_pool {v : EcbView} (h : s.pool = v) (ht : v.tmr.TmrList = none) :
    Ensures (coCreateMutex cfg.served s) fun x => x.1.pool = v := by
  unfold coCreateMutex
  refine .ite (fun _ => ?_) fun _ => unlocked_pool cfg h ht
  let s1 : Kernel := { osSchedLock s with MutexFreeID := s.MutexFreeID + 1 }
  exact Ensures.bind (osSchedUnlock_pool cfg (s := s1) h ht) fun s2 h2 => .some h2

theorem EcbPool.creatEvent (h : EcbPool cfg s noneTaken) {ty : EventType} (hty : ty ≠ .invalid)
    (sort : Nat) (ptr : EventPtr) :
    Ensures (creatEvent cfg.served s ty sort ptr) fun x => EcbPool cfg x.1 noneTaken := by
  rw [creatEvent_eq]
  refine Ensures.map (h.take.imp fun x hx => ?_)
  obtain ⟨-, hx⟩ := hx
  cases hp : x.2 with
  | none =>
    rw [hp] at hx
    exact hx.1
  | some e =>
    rw [hp] at hx
    have hf : EcbPool cfg (fillECB x.1 e ty sort ptr) _ :=
      hx.1.fill (Or.inl rfl) hty rfl rfl rfl rfl rfl
    exact hf.iff fun a => iff_of_false not_false fun ha => ha.2.elim ha.1 id

theorem Setup.exec_pool (h : EcbPool cfg s noneTaken) (u : Setup) :
    Ensures (u.exec cfg.served s) fun s' => EcbPool cfg s' noneTaken := by
  cases u with
  | task entry stk parameter =>
    exact Ensures.map ((createTask_pool rfl h.tmr entry stk parameter).imp fun x e => h.congr e)
  | sem initCnt maxCnt sortType =>
    refine Ensures.map ?_
    unfold coCreateSem
    refine .ite (fun _ => .some h) fun _ => ?_
    refine Ensures.bind (h.creatEvent (by decide) _ _) fun x hx => ?_
    dsimp only
    split
    · exact .some hx
    · exact .some (hx.congr rfl)
  | mbox sortType =>
    refine Ensures.map ?_
    unfold coCreateMbox
    refine Ensures.bind (h.creatEvent (by decide) _ _) fun x hx => ?_
    dsimp only
    split
    · exact .some hx
    · exact .some (hx.congr rfl)
  | queue qStart size sortType =>
    refine Ensures.map ?_
    unfold coCreateQueue
    refine .ite (fun _ => .some h) fun _ => ?_
    dsimp only
    split
    · exact Ensures.bind (osSchedUnlock_pool cfg (s := osSchedLock s) rfl h.tmr) fun s1 e1 =>
        .some (h.congr e1)
    · next i _ =>
      let s0 : Kernel := { osSchedLock s with QueueIDVessel := update s.QueueIDVessel i true }
      refine Ensures.bind (osSchedUnlock_pool cfg (s := s0) rfl h.tmr) fun s1 e1 => ?_
      let s2 : Kernel := { s1 with
        qId := update s1.qId i i
        qHead := update s1.qHead i 0
        qTail := update s1.qTail i 0
        qMaxSize := update s1.qMaxSize i size
        qSize := update s1.qSize i 0 }
      have h2 : EcbPool cfg s2 noneTaken :=
        (((h.queue s0.QueueIDVessel s0.qId).congr e1).queue s1.QueueIDVessel s2.qId).congr rfl
      exact Ensures.bind (h2.creatEvent (by decide) _ _) fun x hx => .some hx
  | flag auto init =>
    exact Ensures.map ((coCreateFlag_pool rfl h.tmr auto init).imp fun x e => h.congr e)
  | mutex => exact Ensures.map ((coCreateMutex_pool rfl h.tmr).imp fun x e => h.congr e)

theorem setUp_pool (us : List Setup) : ∀ {s : Kernel}, EcbPool cfg s noneTaken →
    Ensures (setUp cfg.served s us) fun s' => EcbPool cfg s' noneTaken := by
  induction us with
  | nil => exact fun h => .some h
  | cons u us ih =>
    intro s h
    unfold setUp
    rw [List.foldlM_cons]
    exact Ensures.bind (Setup.exec_pool h u) fun s1 h1 => ih h1

/-- `CreateEventList`: all blocks are free, in the order of the table. -/
theorem createEventList_pool (h : s.tmr.TmrList = none) :
    EcbPool cfg (createEventList cfg s) noneTaken := by
  have hpos := cfg.maxEvent_pos
  refine ⟨⟨List.range cfg.maxEvent, ⟨?_, List.nodup_range, fun e he => ?_⟩, fun e => ?_⟩,
    fun e he => if_pos he, fun e he => he.elim, h⟩
  · change some 0 = _
    rw [show cfg.maxEvent = (cfg.maxEvent - 1) + 1 by omega, List.range_succ_eq_map]
    rfl
  · have hlt := List.mem_range.mp he
    rw [nextIn_range hlt]
    unfold Kernel.nextECB createEventList
    dsimp only
    by_cases hl : e < cfg.maxEvent - 1
    · rw [if_pos hl, if_pos (by omega)]
    · rw [if_neg hl, if_pos (by omega), if_neg (by omega)]
  · rw [List.mem_range]
    exact ⟨fun he => ⟨he, if_pos he, not_false⟩, fun he => he.1⟩

theorem boot_pool {m : Sys} {i : Idle} {us : List Setup} (hb : boot cfg i us = some m) :
    EcbPool cfg m.k noneTaken := by
  unfold boot at hb
  obtain ⟨k1, e1, hb⟩ := Option.bind_eq_some_iff.mp hb
  obtain ⟨k2, e2, hb⟩ := Option.bind_eq_some_iff.mp hb
  obtain ⟨k3, e3, hb⟩ := Option.bind_eq_some_iff.mp hb
  have h1 : EcbPool cfg k1 noneTaken := by
    let k0 : Kernel := osSchedLock (createEventList cfg (createTCBList cfg.served Kernel.zero))
    have h0 : EcbPool cfg k0 noneTaken :=
      (@createEventList_pool cfg (createTCBList cfg.served Kernel.zero) rfl).congr rfl
    unfold coInitOS at e1
    obtain ⟨x, ex, e1⟩ := Option.bind_eq_some_iff.mp e1
    rw [← Option.some.inj e1]
    exact h0.congr (createTask_pool (s := k0) rfl h0.tmr _ _ _ x ex)
  have h2 := setUp_pool us h1 k2 e2
  have h3 : EcbPool cfg k3 noneTaken := by
    let k0 : Kernel := { k2 with
      TCBRunning := some 0, TCBNext := some 0, state := update k2.state 0 .RUNNING }
    have h0 : EcbPool cfg k0 noneTaken := h2.congr rfl
    unfold coStartOS at e3
    obtain ⟨k, ek, e3⟩ := Option.bind_eq_some_iff.mp e3
    have hp := Framed.pool (s := k0) (removeFromTCBRdyList_frame cfg.served 0 rfl) rfl k ek
    exact (h0.congr hp).congr (osSchedUnlock_pool cfg rfl (h0.congr hp).tmr k3 e3)
  rw [← Option.some.inj hb]
  exact h3.congr (takeSwitch_pool k3)

end Boot

end CoOS
