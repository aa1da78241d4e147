/-
  All pointers to TCBs lead into `TCBTbl`, and so do the owners of the occupied mutexes. The
  functions of `mutex.c` and those that create and delete tasks keep this (`InTable`), in both
  builds and whatever the links look like.
-/
import CoOS.Zone.Mutex
import CoOS.Zone.Calls

namespace CoOS

open Function (update)
open DList

/-! ## The invariant -/

/-- The tasks of `TCBTbl`, without timers. -/
def Zone.table (cfg : Config) : Zone where
  tcb t := t < cfg.tasks
  evt t := t < cfg.tasks
  flag t := t < cfg.tasks
  dormant _ := True
  timers := False
  next _ := none
  prev _ := none
  evt_tcb _ h := h
  flag_tcb _ h := h

/-- The owner of an occupied mutex is a task; a free mutex has the mark of no task. -/
structure MtxPart.OwnerOk (cfg : Config) (d : MtxPart) (m : Nat) : Prop where
  owner : d.mutexOccupied m = true → d.mutexTaskID m < cfg.tasks
  free : d.mutexOccupied m = false → m < d.MutexFreeID → d.mutexTaskID m = INVALID_ID

structure MtxPart.InTable (cfg : Config) (d : MtxPart) : Prop where
  owner : ∀ m, d.OwnerOk cfg m
  waiting : ∀ m t, d.waittingList m = some t → t < cfg.tasks

structure InTable (cfg : Config) (s : Kernel) : Prop where
  sealed : Sealed cfg (Zone.table cfg) s.mtxPart s
  mtx : s.mtxPart.InTable cfg

section InTable

variable {cfg : Env} {d d' : MtxPart} {s : Kernel} {t : Nat}

theorem Sealed.inTable (h : Sealed cfg.toConfig (Zone.table cfg.toConfig) d s)
    (hd : d.InTable cfg.toConfig) : InTable cfg.toConfig s := by
  have e := h.part
  subst e
  exact ⟨h, hd⟩

theorem InTable.congr {s' : Kernel} (h : InTable cfg.toConfig s) (e : s'.zoneView = s.zoneView) :
    InTable cfg.toConfig s' := (h.sealed.congr e).inTable h.mtx

theorem MtxPart.OwnerOk.congr {m : Nat} (h : d.OwnerOk cfg.toConfig m)
    (h1 : d'.mutexOccupied m = d.mutexOccupied m) (h2 : d'.mutexTaskID m = d.mutexTaskID m)
    (h3 : d'.MutexFreeID = d.MutexFreeID) : d'.OwnerOk cfg.toConfig m := by
  obtain ⟨ho, hf⟩ := h
  rw [← h1, ← h2] at ho hf
  rw [← h3] at hf
  exact ⟨ho, hf⟩

theorem SameHolders.ownerOk (h : SameHolders d d') {m : Nat} (hm : d.OwnerOk cfg.toConfig m) :
    d'.OwnerOk cfg.toConfig m :=
  hm.congr (congrFun h.mutexOccupied m) (congrFun h.mutexTaskID m) h.MutexFreeID

theorem SameHolders.inTable (h : SameHolders d d') (hd : d.InTable cfg.toConfig) :
    d'.InTable cfg.toConfig := by
  refine ⟨fun m => h.ownerOk (hd.owner m), ?_⟩
  rw [h.waittingList]
  exact hd.waiting

theorem HoldersKept.inTable (h : HoldersKept cfg.toConfig (Zone.table cfg.toConfig) d s)
    (hd : d.InTable cfg.toConfig) : InTable cfg.toConfig s :=
  let ⟨_, h1, h2⟩ := h
  h2.inTable (h1.inTable hd)

/-- What keeps the part keeps the invariant. -/
theorem InTable.keep {α : Type} {x : Option α} {f : α → Kernel} (h : InTable cfg.toConfig s)
    (hx : Sealed cfg.toConfig (Zone.table cfg.toConfig) s.mtxPart s →
      Ensures x fun a => Sealed cfg.toConfig (Zone.table cfg.toConfig) s.mtxPart (f a)) :
    Ensures x fun a => InTable cfg.toConfig (f a) :=
  (hx h.sealed).imp fun _ h1 => h1.inTable h.mtx

theorem callsBack_table : CallsBack cfg (Zone.table cfg.toConfig) := fun ht => ht.elim

theorem responds_table : Responds cfg.served (Zone.table cfg.toConfig) :=
  responds_served callsBack_table

/-- The columns of the mutexes are written. -/
theorem InTable.setPart {s' : Kernel} (h : InTable cfg.toConfig s)
    (hv : s'.zoneView = { s.zoneView with part := s'.mtxPart })
    (hd : s'.mtxPart.InTable cfg.toConfig) :
    InTable cfg.toConfig s' := ⟨h.sealed.setPart hv, hd⟩

end InTable

/-! ## The functions of mutex.c -/

section Mutex

variable {cfg : Env} {s : Kernel} {t : Nat}

theorem unlock_inTable {α : Type} (hr : Responds cfg (Zone.table cfg.toConfig))
    (h : InTable cfg.toConfig s) (v : α) :
    Ensures (do
      let s ← osSchedUnlock cfg s
      some (s, v)) fun x : Kernel × α => InTable cfg.toConfig x.1 :=
  h.keep fun h => unlock_sealed hr h v

theorem coSetPriority_inTable (hr : Responds cfg (Zone.table cfg.toConfig))
    (h : InTable cfg.toConfig s) (p : Nat) :
    Ensures (coSetPriority cfg s t p) fun x => InTable cfg.toConfig x.1 :=
  (coSetPriority_holders hr h.sealed t p).imp fun _ h1 => h1.inTable h.mtx

theorem promoteOwner_inTable (hr : Responds cfg (Zone.table cfg.toConfig))
    (h : InTable cfg.toConfig s)
    (m cur : Nat) (ho : t < cfg.tasks) :
    Ensures (promoteOwner cfg s m t cur) (InTable cfg.toConfig) := by
  unfold promoteOwner
  refine Ensures.bind (changeTaskPri_sealed h.sealed _ _) fun s1 h1 => ?_
  obtain ⟨d, hd, h2⟩ := h1.setPrios (update s1.prio t (s1.prio cur)) s1.originalPrio
    (update s1.hipriTaskID m cur)
  have hin := hd.inTable h.mtx
  refine .ite (fun _ => ?_) fun _ => ?_
  · exact (reorderReady_sealed h2 ho).imp fun _ h3 => h3.inTable hin
  · exact (reorderEvent_sealed hr h2 ho).imp fun _ h3 => h3.inTable hin

theorem lastInChain_within {S : Nat → Prop} (hn : ∀ a b, S a → s.TCBnext a = some b → S b)
    (fuel : Nat) :
    ∀ {p x : Nat}, S p → lastInChain s fuel p = some x → S x := by
  induction fuel with
  | zero => exact fun _ e => nomatch e
  | succ fuel ih =>
    intro p x hp e
    unfold lastInChain at e
    split at e
    · rw [← Option.some.inj e]
      exact hp
    · next n hx => exact ih (hn p n hp hx) e

/-- The links of the tasks of a zone are written. -/
theorem Sealed.setLinks {Z : Zone} {d : MtxPart} {n p : Nat → Option Nat}
    (h : Sealed cfg.toConfig Z d s)
    (hn : ∀ a b, Z.tcb a → n a = some b → Z.tcb b) (hp : ∀ a b, Z.tcb a → p a = some b → Z.tcb b)
    (ho : ∀ a, ¬ Z.tcb a → n a = s.TCBnext a ∧ p a = s.TCBprev a) :
    Sealed cfg.toConfig Z d { s with TCBnext := n, TCBprev := p } :=
  h.setRdyLinks (L := ⟨s.TCBRdy, n, p⟩) ⟨⟨h.tcb.head, hn, hp⟩, ho⟩

/-- The task at the end of the waiting list. -/
theorem joinWaiting_inTable (h : InTable cfg.toConfig s) (m : Nat) (ht : t < cfg.tasks) :
    Ensures (match s.waittingList m with
      | none => some { s with waittingList := update s.waittingList m (some t) }
      | some x => do
        let p ← lastInChain s cfg.tasks x
        some { s with
          TCBnext := update (update s.TCBnext p (some t)) t none
          TCBprev := update s.TCBprev t (some p) }) (InTable cfg.toConfig) := by
  have htz : (Zone.table cfg.toConfig).tcb t := ht
  have hn := h.sealed.tcb.next
  have hp := h.sealed.tcb.prev
  split
  · refine .some (h.setPart rfl ⟨fun m' => (h.mtx.owner m').congr rfl rfl rfl, fun m' a e => ?_⟩)
    change update s.waittingList m (some t) m' = some a at e
    by_cases hm : m' = m
    · rw [hm, Function.update_self] at e
      rw [← Option.some.inj e]
      exact ht
    · rw [Function.update_of_ne hm] at e
      exact h.mtx.waiting m' a e
  · next x hx =>
    have hxz : (Zone.table cfg.toConfig).tcb x := h.mtx.waiting m x hx
    have hl : Ensures (lastInChain s cfg.tasks x) (Zone.table cfg.toConfig).tcb := fun p e =>
      lastInChain_within hn _ hxz e
    refine Ensures.bind hl fun p hpz => .some ?_
    refine (h.sealed.setLinks (update_within (update_within hn (within_some htz)) within_none)
      (update_within hp (within_some hpz)) fun a ha => ⟨?_, update_off htz ha _⟩).inTable h.mtx
    exact (update_off htz ha _).trans (update_off hpz ha _)

theorem blockOnMutex_inTable (h : InTable cfg.toConfig s) (m : Nat) (ht : t < cfg.tasks) :
    Ensures (blockOnMutex cfg s m t) (InTable cfg.toConfig) := by
  have htz : (Zone.table cfg.toConfig).tcb t := ht
  have h1 := h.sealed.setLinks (update_within (x := t) h.sealed.tcb.next within_none)
    (update_within (x := t) h.sealed.tcb.prev within_none) fun a ha =>
      ⟨update_off htz ha _, update_off htz ha _⟩
  have h2 : InTable cfg.toConfig { s with
      state := update s.state t .WAITING, TaskSchedReq := true
      TCBnext := update s.TCBnext t none, TCBprev := update s.TCBprev t none } :=
    (setWaiting_sealed h1 t).inTable h.mtx
  exact joinWaiting_inTable h2 m ht

theorem unlocked_inTable {α : Type} (hr : Responds cfg (Zone.table cfg.toConfig))
    (h : InTable cfg.toConfig s) (v : α) :
    Ensures ((osSchedUnlock cfg s).map fun s => (s, v)) fun x : Kernel × α =>
    InTable cfg.toConfig x.1 :=
  Ensures.map (h.keep fun h => osSchedUnlock_sealed hr h)

theorem occupyMutex_inTable (h : InTable cfg.toConfig s) (m : Nat) (ht : t < cfg.tasks) :
    InTable cfg.toConfig (occupyMutex s m t) := by
  refine h.setPart rfl ⟨fun m' => ?_, h.mtx.waiting⟩
  by_cases hm : m' = m
  · have e1 : update s.mutexOccupied m true m' = true := by rw [hm, Function.update_self]
    have e2 : update s.mutexTaskID m t m' = t := by rw [hm, Function.update_self]
    exact ⟨fun _ => e2.trans_lt ht, fun hf => (nomatch e1.symm.trans hf)⟩
  · have e1 : update s.mutexOccupied m true m' = s.mutexOccupied m' := Function.update_of_ne hm ..
    have e2 : update s.mutexTaskID m t m' = s.mutexTaskID m' := Function.update_of_ne hm ..
    exact (h.mtx.owner m').congr e1 e2 rfl

/-- **CoEnterMutexSection** -/
theorem coEnterMutexSection_inTable (hr : Responds cfg (Zone.table cfg.toConfig))
    (h : InTable cfg.toConfig s) (m : Nat) :
    Ensures (coEnterMutexSection cfg s m) fun x => InTable cfg.toConfig x.1 := by
  rw [coEnterMutexSection_parts]
  refine .ite (fun _ => .some h) fun _ => .ite (fun _ => .some h) fun _ =>
    .ite (fun _ => .some h) fun _ => ?_
  have hcur : Ensures s.TCBRunning fun cur => cur < cfg.tasks := fun cur e => h.sealed.cur cur e
  refine Ensures.bind hcur fun cur ht => ?_
  have h1 : InTable cfg.toConfig { osSchedLock s with mutexID := update s.mutexID cur m } :=
    InTable.setPart ⟨osSchedLock_sealed h.sealed, h.mtx⟩ rfl
      ⟨fun m' => (h.mtx.owner m').congr rfl rfl rfl, h.mtx.waiting⟩
  refine Ensures.bind (P := InTable cfg.toConfig) ?_ fun s2 h2 => unlocked_inTable hr h2 _
  unfold takeMutex
  refine .ite (fun hocc => ?_) fun _ => .some (occupyMutex_inTable h1 m ht)
  refine Ensures.bind (P := InTable cfg.toConfig) ?_ fun s2 h2 => blockOnMutex_inTable h2 m ht
  exact .ite (fun _ => promoteOwner_inTable hr h1 m cur ((h.mtx.owner m).owner hocc)) fun _ =>
    .some h1

theorem freeMutex_inTable (h : InTable cfg.toConfig s) (m : Nat) :
    InTable cfg.toConfig (freeMutex s m) := by
  refine h.setPart rfl ⟨fun m' => ?_, h.mtx.waiting⟩
  by_cases hm : m' = m
  · have e1 : update s.mutexOccupied m false m' = false := by rw [hm, Function.update_self]
    have e2 : update s.mutexTaskID m INVALID_ID m' = INVALID_ID := by rw [hm, Function.update_self]
    exact ⟨fun ho => (nomatch e1.symm.trans ho), fun _ _ => e2⟩
  · have e1 : update s.mutexOccupied m false m' = s.mutexOccupied m' := Function.update_of_ne hm ..
    have e2 : update s.mutexTaskID m INVALID_ID m' = s.mutexTaskID m' := Function.update_of_ne hm ..
    exact (h.mtx.owner m').congr e1 e2 rfl

theorem leaving_inTable (h : InTable cfg.toConfig s) (m : Nat) :
    InTable cfg.toConfig (leaving s m) :=
  InTable.setPart ⟨osSchedLock_sealed h.sealed, h.mtx⟩ rfl
    ⟨fun m' => (h.mtx.owner m').congr rfl rfl rfl, h.mtx.waiting⟩

/-- The priority of the owner is set while the mutex names no owner. -/
theorem setUnowned_inTable (hr : Responds cfg (Zone.table cfg.toConfig))
    (h : InTable cfg.toConfig s)
    (m hipri o p : Nat) :
    Ensures (coSetPriority cfg { s with
      hipriTaskID := update s.hipriTaskID m hipri
      mutexTaskID := update s.mutexTaskID m INVALID_ID } o p) fun x =>
        Sealed cfg.toConfig (Zone.table cfg.toConfig) x.1.mtxPart x.1 ∧
        SameHolders
          { s.mtxPart with mutexTaskID := update s.mutexTaskID m INVALID_ID } x.1.mtxPart := by
  have h1 : Sealed cfg.toConfig (Zone.table cfg.toConfig) ({ s with
      hipriTaskID := update s.hipriTaskID m hipri
      mutexTaskID := update s.mutexTaskID m INVALID_ID } : Kernel).mtxPart { s with
      hipriTaskID := update s.hipriTaskID m hipri
      mutexTaskID := update s.mutexTaskID m INVALID_ID } := h.sealed.setPart rfl
  refine (coSetPriority_holders hr h1 o p).imp fun x ⟨d, hd, h2⟩ => ?_
  have e := h2.part
  subst e
  exact ⟨h2, ⟨hd.mutexID, hd.mutexOccupied, hd.mutexTaskID, hd.waittingList, hd.MutexFreeID⟩⟩

/-- The mutex gets an owner again. -/
theorem reown_inTable {d : MtxPart} {s' : Kernel} (hd : d.InTable cfg.toConfig) {m o : Nat}
    (h : SameHolders { d with mutexTaskID := update d.mutexTaskID m INVALID_ID } s.mtxPart)
    (h1 : s'.mutexOccupied = s.mutexOccupied) (h2 : s'.mutexTaskID = update s.mutexTaskID m o)
    (h3 : s'.MutexFreeID = s.MutexFreeID) (ho : (d.mutexOccupied m = true ∧ o < cfg.tasks) ∨
      d.mutexTaskID m = o)
    (m' : Nat) : s'.mtxPart.OwnerOk cfg.toConfig m' := by
  have e1 : s'.mutexOccupied m' = d.mutexOccupied m' :=
    (congrFun h1 m').trans (congrFun h.mutexOccupied m')
  have e3 : s'.MutexFreeID = d.MutexFreeID := h3.trans h.MutexFreeID
  by_cases hm : m' = m
  · have e2 : s'.mutexTaskID m' = o := by rw [h2, hm, Function.update_self]
    rcases ho with ⟨hocc, ho⟩ | ho
    · refine ⟨fun _ => e2.trans_lt ho, fun hf => ?_⟩
      rw [← hm] at hocc
      exact nomatch hocc.symm.trans (e1.symm.trans hf)
    · rw [← hm] at ho
      exact (hd.owner m').congr e1 (e2.trans ho.symm) e3
  · have e2 : s'.mutexTaskID m' = d.mutexTaskID m' := by
      rw [h2, Function.update_of_ne hm]
      exact (congrFun h.mutexTaskID m').trans (Function.update_of_ne hm ..)
    exact (hd.owner m').congr e1 e2 e3

theorem update_waiting {f : Nat → Option Nat} {m : Nat} {o : Option Nat}
    (hf : ∀ m t, f m = some t → t < cfg.tasks) (ho : ∀ t, o = some t → t < cfg.tasks) :
    ∀ m' t, update f m o m' = some t → t < cfg.tasks := by
  intro m' t e
  by_cases hm : m' = m
  · rw [hm, Function.update_self] at e
    exact ho t e
  · rw [Function.update_of_ne hm] at e
    exact hf m' t e

theorem handMutex_inTable {d : MtxPart}
    (h : Sealed cfg.toConfig (Zone.table cfg.toConfig) s.mtxPart s)
    (hd : d.InTable cfg.toConfig) {m prio : Nat} (ho : d.mutexOccupied m = true)
    (hs : SameHolders { d with mutexTaskID := update d.mutexTaskID m INVALID_ID } s.mtxPart) :
    Ensures (handMutex cfg s m prio) (InTable cfg.toConfig) := by
  have hw : ∀ m t, s.waittingList m = some t → t < cfg.tasks := fun m t e =>
    hd.waiting m t ((congrFun hs.waittingList m).symm.trans e)
  unfold handMutex
  refine Ensures.bind (P := fun t => t < cfg.tasks) (fun t e => hw m t e) fun t ht => ?_
  have htz : (Zone.table cfg.toConfig).tcb t := ht
  have h1 : InTable cfg.toConfig { s with
      waittingList := update s.waittingList m (s.TCBnext t)
      originalPrio := update s.originalPrio m (s.prio t)
      mutexTaskID := update s.mutexTaskID m t } :=
    ⟨h.setPart rfl, reown_inTable hd hs rfl rfl rfl (Or.inl ⟨ho, ht⟩),
      update_waiting hw fun b hb => h.tcb.next t b ht hb⟩
  refine Ensures.bind (P := InTable cfg.toConfig) ?_ fun s2 h2 => ?_
  · refine h1.keep fun h => ?_
    exact .ite (fun _ => changeTaskPri_sealed h (s.prio t) prio) fun _ => .some h
  have h3 := h2.sealed.setLinks (update_within (x := t) h2.sealed.tcb.next within_none)
    (update_within (x := t) h2.sealed.tcb.prev within_none) fun a ha =>
      ⟨update_off htz ha _, update_off htz ha _⟩
  have h4 : InTable cfg.toConfig { s2 with
      prio := update s2.prio t prio
      TCBnext := update s2.TCBnext t none
      TCBprev := update s2.TCBprev t none } :=
    (h3.inTable h2.mtx).setPart rfl ⟨fun m' => (h2.mtx.owner m').congr rfl rfl rfl, h2.mtx.waiting⟩
  exact h4.keep fun h => insertToTCBRdyList_sealed h ht

/-- **CoLeaveMutexSection**, for a mutex that is occupied if the call is accepted. -/
theorem coLeaveMutexSection_inTable (hr : Responds cfg (Zone.table cfg.toConfig))
    (h : InTable cfg.toConfig s) {m : Nat}
    (ho : 0 < s.OSIntNesting ∨ s.MutexFreeID ≤ m ∨ s.mutexOccupied m = true) :
    Ensures (coLeaveMutexSection cfg s m) fun x => InTable cfg.toConfig x.1 := by
  rw [coLeaveMutexSection_parts]
  refine .ite (fun _ => .some h) fun hn => .ite (fun _ => .some h) fun hid => ?_
  have hocc : s.mutexOccupied m = true := (ho.resolve_left hn).resolve_left hid
  have h1 := leaving_inTable h m
  refine Ensures.bind (P := InTable cfg.toConfig) ?_ fun s2 h2 => unlocked_inTable hr h2 _
  split
  · exact .some (freeMutex_inTable h1 m)
  · next w _ =>
    unfold leaveWaited
    refine Ensures.skip fun x => ?_
    refine Ensures.bind (setUnowned_inTable hr h1 m x.2 _ _) fun y ⟨h2, h3⟩ => ?_
    exact handMutex_inTable h2 h1.mtx hocc h3

theorem unlinkWaiter_inTable (h : InTable cfg.toConfig s) (ht : t < cfg.tasks) :
    InTable cfg.toConfig (unlinkWaiter s t) := by
  have htz : (Zone.table cfg.toConfig).tcb t := ht
  have hn := h.sealed.tcb.next
  have hp := h.sealed.tcb.prev
  unfold unlinkWaiter
  dsimp only
  split
  · exact h.setPart rfl ⟨fun m' => (h.mtx.owner m').congr rfl rfl rfl,
      update_waiting h.mtx.waiting within_none⟩
  · next p _ e =>
    have hpz := hp t p ht e
    refine ((h.sealed.setLinks (update_within (x := p) hn within_none)
      (update_within (x := t) hp within_none)
      fun a ha => ⟨update_off hpz ha _, update_off htz ha _⟩).inTable h.mtx).setPart rfl ?_
    exact ⟨fun m' => (h.mtx.owner m').congr rfl rfl rfl, h.mtx.waiting⟩
  · next n e _ =>
    have hnz := hn t n ht e
    refine ((h.sealed.setLinks (update_within (x := t) hn within_none)
      (update_within (x := n) hp within_none)
      fun a ha => ⟨update_off htz ha _, update_off hnz ha _⟩).inTable h.mtx).setPart rfl ?_
    exact ⟨fun m' => (h.mtx.owner m').congr rfl rfl rfl, h.mtx.waiting⟩
  · next n p e1 e2 =>
    have hnz := hn t n ht e1
    have hpz := hp t p ht e2
    refine ((h.sealed.setLinks
      (update_within (x := t) (update_within (x := p) hn (within_some hnz)) within_none)
      (update_within (x := t) (update_within (x := n) hp (within_some hpz)) within_none)
      fun a ha => ⟨?_, ?_⟩).inTable h.mtx).setPart rfl ?_
    · exact (update_off htz ha _).trans (update_off hpz ha _)
    · exact (update_off htz ha _).trans (update_off hnz ha _)
    · exact ⟨fun m' => (h.mtx.owner m').congr rfl rfl rfl, h.mtx.waiting⟩

/-- **RemoveMutexList** -/
theorem removeMutexList_inTable (hr : Responds cfg (Zone.table cfg.toConfig))
    (h : InTable cfg.toConfig s)
    (ht : t < cfg.tasks) : Ensures (removeMutexList cfg s t) (InTable cfg.toConfig) := by
  rw [removeMutexList_parts]
  have h1 := unlinkWaiter_inTable h ht
  refine .ite (fun _ => ?_) fun _ => .some h1
  unfold resetOwner
  refine Ensures.skip fun x => Ensures.map ?_
  refine (setUnowned_inTable hr h1 (s.mutexID t) x.2 _ x.1).imp fun y ⟨h2, h3⟩ =>
    ⟨h2.setPart rfl, ?_⟩
  refine ⟨reown_inTable h1.mtx h3 rfl rfl rfl (Or.inr rfl), ?_⟩
  exact fun m t e => h1.mtx.waiting m t ((congrFun h3.waittingList m).symm.trans e)

end Mutex

/-! ## Tasks -/

section Tasks

variable {cfg : Env} {s : Kernel} {t : Nat}

theorem leaveWaiting_inTable (hr : Responds cfg (Zone.table cfg.toConfig))
    (h : InTable cfg.toConfig s)
    (ht : t < cfg.tasks) : Ensures (leaveWaiting cfg s t) (InTable cfg.toConfig) := by
  unfold leaveWaiting
  refine (unlinkFlagNode_sealed (removeEvent_sealed (removeDelay_sealed h.sealed ht)
    (Or.inl ht)) t).bind
    fun s1 h1 => ?_
  refine .ite (fun _ => ?_) fun _ => .some (h1.inTable h.mtx)
  exact removeMutexList_inTable hr (h1.inTable h.mtx) ht

theorem deleteTask_inTable (hr : Responds cfg (Zone.table cfg.toConfig))
    (h : InTable cfg.toConfig s)
    (ht : t < cfg.tasks) : Ensures (deleteTask cfg s t) (InTable cfg.toConfig) := by
  have htz : (Zone.table cfg.toConfig).tcb t := ht
  have h0 : InTable cfg.toConfig (osSchedLock s) := ⟨osSchedLock_sealed h.sealed, h.mtx⟩
  unfold deleteTask
  refine Ensures.bind (P := InTable cfg.toConfig) ?_ fun s1 h1 => ?_
  · split
    · exact h0.keep fun h => removeFromTCBRdyList_sealed h ht
    · exact leaveWaiting_inTable hr h0 ht
    · exact .some h0
  · have h2 : Sealed cfg.toConfig (Zone.table cfg.toConfig) s1.mtxPart { s1 with
        state := update s1.state t .DORMANT, TaskSchedReq := true } :=
      (h1.sealed.setState t .DORMANT (fun _ h => h) (Or.inr trivial)).congr rfl
    refine Ensures.bind (P := Sealed cfg.toConfig (Zone.table cfg.toConfig) s1.mtxPart) ?_
      fun s2 h3 => ?_
    · exact .ite (fun _ => .some h2) fun _ => deleteTaskPri_sealed h2 _
    · have h4 :=
        h3.setLinks (update_within (x := t) h3.tcb.next fun b hb => h3.free b hb) h3.tcb.prev
        fun a ha => ⟨update_off htz ha _, rfl⟩
      have h5 : Sealed cfg.toConfig (Zone.table cfg.toConfig) s1.mtxPart { s2 with
          TCBnext := update s2.TCBnext t s2.FreeTCB, FreeTCB := some t } :=
            { h4 with free := within_some htz }
      exact (osSchedUnlock_sealed hr h5).imp fun s3 h6 => h6.inTable h1.mtx

/-- **CoDelTask** -/
theorem coDelTask_inTable (hr : Responds cfg (Zone.table cfg.toConfig))
    (h : InTable cfg.toConfig s) (t : Nat) :
    Ensures (coDelTask cfg s t) fun x => InTable cfg.toConfig x.1 := by
  rw [coDelTask_parts]
  refine .ite (fun _ => .some h) fun hlt => .ite (fun _ => .some h) fun _ =>
    .ite (fun _ => .some h) fun _ => ?_
  have ht : t < cfg.tasks := Nat.lt_of_not_le hlt
  refine .ite (fun _ => .some h) fun _ => Ensures.map ?_
  refine Ensures.bind (P := InTable cfg.toConfig) ?_ fun s1 h1 => deleteTask_inTable hr h1 ht
  refine .ite (fun hm => Ensures.map (coLeaveMutexSection_inTable hr h (Or.inr ?_))) fun _ =>
    .some h
  -- a mutex that names the task as its owner is occupied
  refine or_iff_not_imp_left.mpr fun hid => Bool.not_eq_false _ ▸ fun hf => ?_
  have := ((h.mtx.owner (s.mutexID t)).free hf (Nat.lt_of_not_le hid)).symm.trans hm.2
  have hmax := cfg.maxUserTasks_le
  unfold Config.tasks at ht
  unfold INVALID_ID at this
  omega

theorem coExitTask_inTable (hr : Responds cfg (Zone.table cfg.toConfig))
    (h : InTable cfg.toConfig s) :
    Ensures (coExitTask cfg s) fun x => InTable cfg.toConfig x.1 := by
  unfold coExitTask
  split
  · exact .none
  · exact coDelTask_inTable hr h _

theorem assignTCB_inTable (hr : Responds cfg (Zone.table cfg.toConfig))
    (h : InTable cfg.toConfig s) :
    Ensures (assignTCB cfg s) fun x => InTable cfg.toConfig x.1 ∧ ∀ t, x.2 = some t →
    t < cfg.tasks := by
  have h0 := osSchedLock_sealed h.sealed
  unfold assignTCB
  dsimp only
  split
  · exact Ensures.bind (osSchedUnlock_sealed hr h0) fun s1 h1 =>
      .some ⟨h1.inTable h.mtx, within_none⟩
  · next t e =>
    have ht : t < cfg.tasks := h.sealed.free t e
    have h1 : Sealed cfg.toConfig (Zone.table cfg.toConfig) s.mtxPart
        { osSchedLock s with FreeTCB := s.TCBnext t } :=
      { h0 with free := fun b hb => h.sealed.tcb.next t b ht hb }
    exact Ensures.bind (osSchedUnlock_sealed hr h1) fun s1 h2 =>
      .some ⟨h2.inTable h.mtx, within_some ht⟩

/-- The TCB of a new task. -/
theorem newTCB_inTable (h : InTable cfg.toConfig s) (ht : t < cfg.tasks) (f : Nat → Bool)
    (p d k l : Nat → Nat) :
    InTable cfg.toConfig { s with
      hasStk := f
      prio := p
      delayTick := d
      TCBnext := update s.TCBnext t none
      TCBprev := update s.TCBprev t none
      timeSlice := k
      pnode := update s.pnode t .null
      eventID := update s.eventID t INVALID_ID
      pmail := l
      waitNext := update s.waitNext t none
      waitPrev := update s.waitPrev t none
      mutexID := update s.mutexID t INVALID_ID } := by
  have htz : (Zone.table cfg.toConfig).tcb t := ht
  have h1 := h.sealed.setLinks (update_within (x := t) h.sealed.tcb.next within_none)
    (update_within (x := t) h.sealed.tcb.prev within_none) fun a ha =>
      ⟨update_off htz ha _, update_off htz ha _⟩
  have h2 := (h1.setEventID (t := t) (e := INVALID_ID) (Or.inl rfl)).setPnode (t := t) (p := .null)
    fun _ e => nomatch e
  have h3 : Sealed cfg.toConfig (Zone.table cfg.toConfig) s.mtxPart { s with
      TCBnext := update s.TCBnext t none
      TCBprev := update s.TCBprev t none
      pnode := update s.pnode t .null
      eventID := update s.eventID t INVALID_ID
      waitNext := update s.waitNext t none
      waitPrev := update s.waitPrev t none } :=
    { h2 with
      evt := fun e => ⟨(h.sealed.evt e).head, update_within (h.sealed.evt e).next within_none,
        update_within (h.sealed.evt e).prev within_none⟩ }
  exact (h3.inTable h.mtx).setPart rfl ⟨fun m' => (h.mtx.owner m').congr rfl rfl rfl, h.mtx.waiting⟩

/-- **CreateTask** -/
theorem createTask_inTable (hr : Responds cfg (Zone.table cfg.toConfig))
    (h : InTable cfg.toConfig s)
    (task stk parameter : Nat) :
    Ensures (createTask cfg s task stk parameter) fun x => InTable cfg.toConfig x.1 := by
  unfold createTask
  dsimp only
  refine .ite (fun _ => .some h) fun _ => Ensures.bind (assignTCB_inTable hr h) fun x ⟨h1, h2⟩ => ?_
  split
  · exact .some h1
  · next t e =>
    have ht : t < cfg.tasks := h2 t e
    have hend : ∀ s : Kernel, InTable cfg.toConfig s → Ensures (if parameter >>> 31 = 0 then do
        let s ← insertToTCBRdyList cfg (osSchedLock s) t
        let s ← osSchedUnlock cfg s
        some (s, t)
      else some ({ s with state := update s.state t .WAITING }, t)) fun x =>
        InTable cfg.toConfig x.1 := by
      intro s h
      refine .ite (fun _ => h.keep fun h => ?_) fun _ => .some ?_
      · exact Ensures.bind (insertToTCBRdyList_sealed (osSchedLock_sealed h) ht) fun s1 h1 =>
          unlock_sealed hr h1 t
      · exact (h.sealed.setState t .WAITING (fun e => nomatch e) (Or.inl (nomatch ·))).inTable h.mtx
    refine .ite (fun _ => hend _ ?_) fun _ =>
      Ensures.bind (InTable.keep ?_ fun h => activeTaskPri_sealed h _) hend
    · exact newTCB_inTable h1 ht _ _ _ _ _
    · exact newTCB_inTable h1 ht _ _ _ _ _

end Tasks

end CoOS
