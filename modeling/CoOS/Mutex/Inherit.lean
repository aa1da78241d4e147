/-
  `CoSetPriority` on a task that waits for a mutex.

  The priority of the owner becomes that of the most urgent task (`mostUrgent`), through a nested
  `CoSetPriority` on the owner. That one takes the new priority for a base priority: it writes
  `originalPrio`. And it is skipped when nobody is more urgent than `originalPrio`, so that an owner
  that was promoted stays promoted. So the call is right exactly if the owner needs no change
  (`setWaiterPriority_exact`).
-/
import CoOS.Mutex.Waiters

namespace CoOS

open Function (update)
open DList

/-! ## The most urgent task -/

/-- The least of `b` and the priorities of the tasks `l`. -/
def mostUrgent (prio : Nat → Nat) (b : Nat) (l : List Nat) : Nat :=
  l.foldl (fun q t => min q (prio t)) b

theorem mostUrgent_le (prio : Nat → Nat) (b : Nat) (l : List Nat) : mostUrgent prio b l ≤ b := by
  induction l generalizing b with
  | nil => exact Nat.le_refl b
  | cons t l ih => exact Nat.le_trans (ih (min b (prio t))) (Nat.min_le_left _ _)

section Search

variable {s : Kernel} {l : List Nat}

theorem hipriWaiter_end (fuel q k : Nat) : hipriWaiter s fuel none q k = some (q, k) := by
  cases fuel with
  | zero => rfl
  | succ fuel => rfl

/-- Along a list, the search finds the most urgent task. -/
theorem hipriWaiter_min {hd : Option Nat} {fuel q k : Nat} (h : IsSList hd s.TCBnext l) :
    Ensures (hipriWaiter s fuel hd q k) fun x => x.1 = mostUrgent s.prio q l := by
  induction l generalizing hd fuel q k with
  | nil =>
    rw [show hd = none from h.head, hipriWaiter_end]
    exact .some rfl
  | cons t l ih =>
    have e : hd = some t := h.head
    subst e
    cases fuel with
    | zero => exact .none
    | succ fuel =>
      unfold hipriWaiter
      refine .ite (fun hlt => ?_) fun hge => ?_
      · refine (ih h.pop).imp fun x e => e.trans ?_
        change _ = mostUrgent s.prio (min q (s.prio t)) l
        rw [Nat.min_eq_right (Nat.le_of_lt hlt)]
      · refine (ih h.pop).imp fun x e => e.trans ?_
        change _ = mostUrgent s.prio (min q (s.prio t)) l
        rw [Nat.min_eq_left (Nat.le_of_not_lt hge)]

/-- Whatever the links are, it finds nothing less urgent than what it begins with. -/
theorem hipriWaiter_le {fuel q k : Nat} {hd : Option Nat} :
    Ensures (hipriWaiter s fuel hd q k) fun x => x.1 ≤ q := by
  induction fuel generalizing hd q k with
  | zero =>
    cases hd with
    | none => exact .some (Nat.le_refl q)
    | some t => exact .none
  | succ fuel ih =>
    cases hd with
    | none => exact .some (Nat.le_refl q)
    | some t =>
      unfold hipriWaiter
      exact .ite (fun hlt => ih.imp fun x h => Nat.le_trans h (Nat.le_of_lt hlt)) fun _ => ih

end Search

/-! ## What is written of priorities and mutexes -/

/-- The zone of all tasks: it says nothing but what `MtxPart` is. -/
def Zone.all : Zone where
  tcb _ := True
  evt _ := True
  flag _ := True
  dormant _ := True
  timers := True
  next _ := none
  prev _ := none
  evt_tcb _ _ := trivial
  flag_tcb _ _ := trivial

theorem sealed_all (cfg : Config) (s : Kernel) : Sealed cfg Zone.all s.mtxPart s where
  tcb := ⟨fun _ _ => trivial, fun _ _ _ _ => trivial, fun _ _ _ _ => trivial⟩
  dly _ _ := trivial
  free _ _ := trivial
  cur _ _ := trivial
  nxt _ _ := trivial
  off _ h := absurd trivial h
  evt _ := ⟨fun _ _ => trivial, fun _ _ _ _ => trivial, fun _ _ _ _ => trivial⟩
  node := ⟨fun _ _ => trivial, fun _ _ _ _ => trivial, fun _ _ _ _ => trivial⟩
  tail _ _ := trivial
  ready _ _ _ := trivial
  eventID _ _ _ := trivial
  pnode _ _ _ := trivial
  dormant _ _ := trivial
  ptr _ _ := trivial
  bit _ _ := trivial
  tmr := Or.inr trivial
  part := rfl

/-- Every result of `x` has these priorities and mutexes. -/
def Parted (d : MtxPart) (x : Option Kernel) : Prop := Ensures x fun s => s.mtxPart = d

section Parts

variable {cfg : Env} {s : Kernel} (hr : Responds cfg Zone.all)

theorem sealed_part {d : MtxPart} {x : Option Kernel}
    (h : Ensures x (Sealed cfg.toConfig Zone.all d)) :
    Parted d x := h.imp fun _ h => h.part

theorem reorderReady_part (t : Nat) : Parted s.mtxPart (reorderReady cfg s t) :=
  sealed_part (reorderReady_sealed (sealed_all cfg.toConfig s) trivial)

theorem changeTaskPri_part (p p' : Nat) : Parted s.mtxPart (changeTaskPri cfg s p p') :=
  sealed_part (changeTaskPri_sealed (sealed_all cfg.toConfig s) p p')

include hr

theorem osSchedUnlock_part : Parted s.mtxPart (osSchedUnlock cfg s) :=
  sealed_part (osSchedUnlock_sealed hr (sealed_all cfg.toConfig s))

theorem reorderEvent_part {t : Nat} (ht : t < cfg.tasks) :
    Parted s.mtxPart (if s.eventID t ≠ INVALID_ID then reorderWaiting cfg s t else some s) :=
  sealed_part (reorderEvent_sealed hr (sealed_all cfg.toConfig s) ht)

end Parts

/-- The table of the binary build is apart from the links. -/
theorem changeTaskPri_next {cfg : Env} {s : Kernel} (p p' : Nat) :
    Ensures (changeTaskPri cfg s p p') fun s' => s'.TCBnext = s.TCBnext ∧ s'.state = s.state := by
  unfold changeTaskPri deleteTaskPri activeTaskPri
  refine .ite (fun _ => .some ⟨rfl, rfl⟩) fun _ => ?_
  refine Ensures.bind (P := fun s' => s'.TCBnext = s.TCBnext ∧ s'.state = s.state) ?_ fun s1 h1 =>
    ?_
  · exact Ensures.skip fun x => .ite (fun _ => .some ⟨rfl, rfl⟩) fun _ => .some ⟨rfl, rfl⟩
  · exact Ensures.skip fun x => .ite (fun _ => .some h1) fun _ => .some h1

/-! ## The owner -/

/-- The task `o` owns `m`, and its base priority is below `b`. -/
structure Lowered (b m o : Nat) (d : MtxPart) : Prop where
  mutexID : d.mutexID o = m
  mutexTaskID : d.mutexTaskID m = o
  original : d.originalPrio m < b

section Owner

variable {cfg : Env} {s : Kernel} {b m o p depth : Nat}

theorem Parted.lowered {x : Option Kernel} (h : Parted s.mtxPart x) (hd : Lowered b m o s.mtxPart) :
    Ensures x fun s' => Lowered b m o s'.mtxPart := h.imp fun _ e => e ▸ hd

/-- A nested `CoSetPriority` on the owner, to less than `b`, leaves the base priority below `b`. -/
def SetsLowered (cfg : Env) (b m o depth : Nat) : Prop := ∀ s p, p < b → Lowered b m o s.mtxPart →
  Ensures (coSetPriorityN cfg depth s o p) fun x => Lowered b m o x.1.mtxPart

theorem passOn_lowered (hr : Responds cfg Zone.all) (hs : SetsLowered cfg b m o depth)
    (hd : Lowered b m o s.mtxPart) :
    Ensures (passOn cfg depth s m) fun s' => Lowered b m o s'.mtxPart := by
  unfold passOn
  refine Ensures.bind hipriWaiter_le fun x hx => ?_
  have hx1 : x.1 < b := Nat.lt_of_le_of_lt hx hd.original
  have h1 : Lowered b m o
      ({ osSchedLock s with hipriTaskID := update s.hipriTaskID m x.2 } : Kernel).mtxPart :=
        ⟨hd.1, hd.2, hd.3⟩
  refine Ensures.bind ((osSchedUnlock_part hr).lowered h1) fun s1 h2 =>
    .ite (fun _ => Ensures.map ?_) fun _ => .some h2
  rw [show s1.mutexTaskID m = o from h2.mutexTaskID]
  exact hs s1 x.1 hx1 h2

theorem reorderOwner_lowered (hr : Responds cfg Zone.all) (hs : SetsLowered cfg b m o depth)
    (hd : Lowered b m o s.mtxPart) (ho : o < cfg.tasks) :
    Ensures (reorderTask cfg depth s o m) fun s' => Lowered b m o s'.mtxPart := by
  have hpass : Ensures (if m ≠ INVALID_ID then passOn cfg depth s m else some s) fun s' =>
    Lowered b m o s'.mtxPart :=
    .ite (fun _ => passOn_lowered hr hs hd) fun _ => .some hd
  unfold reorderTask
  split
  · have h1 : Lowered b m o (osSchedLock s).mtxPart := hd
    refine Ensures.bind ((reorderReady_part o).lowered h1) fun s1 h2 => ?_
    exact (osSchedUnlock_part hr).lowered h2
  · refine .ite (fun _ => ?_) fun _ => .some hd
    have h1 : Lowered b m o ({ osSchedLock s with TaskSchedReq := true } : Kernel).mtxPart := hd
    exact (osSchedUnlock_part hr).lowered h1
  · exact Ensures.bind hpass fun s1 h1 => (reorderEvent_part hr ho).lowered h1

/-- If `CoSetPriority` on the owner sets a priority below `b` at all, it writes it as the base
    priority. -/
theorem setOwner_lowered (hr : Responds cfg Zone.all) (hs : SetsLowered cfg b m o depth)
    (hm : m ≠ INVALID_ID) (h1 : s.mutexID o = m) (h2 : s.mutexTaskID m = o) (hp : p < b)
    (hc : priorityChecked cfg s o p = none) :
    Ensures (coSetPriorityN cfg (depth + 1) s o p) fun x => Lowered b m o x.1.mtxPart := by
  have hh : holdsMutex s o := ⟨h1.trans_ne hm, by rw [h1]; exact h2⟩
  have h3 : Lowered b m o (setOriginal s o p).mtxPart := by
    unfold setOriginal
    rw [if_pos hh, h1]
    exact ⟨h1, h2, (Function.update_self m p s.originalPrio).trans_lt hp⟩
  rw [coSetPriorityN_parts, hc]
  refine .ite (fun _ => .some h3) fun _ => ?_
  refine Ensures.bind ((changeTaskPri_part _ p).lowered h3) fun s1 h4 => Ensures.map ?_
  have h5 : Lowered b m o ({ s1 with prio := update s1.prio o p } : Kernel).mtxPart :=
    ⟨h4.1, h4.2, h4.3⟩
  rw [h1]
  exact reorderOwner_lowered hr hs h5 (priorityChecked_none hc).2.1

theorem setsLowered (hr : Responds cfg Zone.all) (hm : m ≠ INVALID_ID) (depth : Nat) :
    SetsLowered cfg b m o depth := by
  induction depth with
  | zero => exact fun s p _ _ => .none
  | succ depth ih =>
    intro s p hp hd
    cases hc : priorityChecked cfg s o p with
    | none => exact setOwner_lowered hr ih hm hd.mutexID hd.mutexTaskID hp hc
    | some st =>
      rw [coSetPriorityN_parts, hc]
      exact .some hd

end Owner

/-! ## The waiting task -/

/-- The priorities and the base priority that the mutex should have after `CoSetPriority(w, p)`. -/
structure Adjusted (s s' : Kernel) (m w p : Nat) (l : List Nat) : Prop where
  original : s'.originalPrio m = s.originalPrio m
  waiter : s'.prio w = p
  owner : s'.prio (s.mutexTaskID m) = mostUrgent s'.prio (s.originalPrio m) l
  rest : ∀ t, t ≠ w → t ≠ s.mutexTaskID m → s'.prio t = s.prio t

section Waiter

variable {cfg : Env} {s s' : Kernel} {l : List Nat} {m w p : Nat}

/-- Nothing but the priority of the waiter was written. -/
theorem adjusted_iff (hne : s.mutexTaskID m ≠ w) (ho : s'.originalPrio m = s.originalPrio m)
    (hp : s'.prio = update s.prio w p) :
    Adjusted s s' m w p l ↔
    s.prio (s.mutexTaskID m) = mostUrgent (update s.prio w p) (s.originalPrio m) l := by
  have e : s'.prio (s.mutexTaskID m) = s.prio (s.mutexTaskID m) := by
    rw [hp]
    exact Function.update_of_ne hne ..
  constructor
  · intro h
    rw [← e, h.owner, hp]
  · intro h
    refine ⟨ho, by rw [hp, Function.update_self], ?_,
      fun t ht _ => by rw [hp, Function.update_of_ne ht]⟩
    rw [e, h, hp]

/-- What `CoSetPriority` on the waiter `w` does: it writes the priority of `w` only, or it is called
    for the owner, who needs another priority, and writes the base priority. -/
def Adjusts (s : Kernel) (m w p : Nat) (l : List Nat) (d : MtxPart) : Prop :=
  (d.originalPrio m = s.originalPrio m ∧ d.prio = update s.prio w p) ∨
  (Lowered (s.originalPrio m) m (s.mutexTaskID m) d ∧
    s.prio (s.mutexTaskID m) ≠ mostUrgent (update s.prio w p) (s.originalPrio m) l)

theorem Adjusts.adjusted_iff (h : Adjusts s m w p l s'.mtxPart) (hne : s.mutexTaskID m ≠ w) :
    Adjusted s s' m w p l ↔
    s.prio (s.mutexTaskID m) = mostUrgent (update s.prio w p) (s.originalPrio m) l := by
  rcases h with ⟨h1, h2⟩ | ⟨h1, h2⟩
  · exact CoOS.adjusted_iff hne h1 h2
  · exact iff_of_false (fun h => Nat.ne_of_lt h1.original h.original) h2

/-- The nested call on the owner, at the end of the search. -/
theorem passOn_adjusts (hr : Responds cfg Zone.all) (hm : m ≠ INVALID_ID)
    (ho : s.mutexID (s.mutexTaskID m) = m)
    (hne : s.mutexTaskID m ≠ w) {s2 : Kernel} {depth : Nat} (h2 : s2.mtxPart = { s.mtxPart with
      prio := update s.prio w p }) (hl : IsSList (s.waittingList m) s2.TCBnext l) :
    Ensures (passOn cfg (depth + 1) s2 m) fun s4 => Adjusts s m w p l s4.mtxPart := by
  have e1 : s2.prio = update s.prio w p := congrArg MtxPart.prio h2
  have e2 : s2.waittingList = s.waittingList := congrArg MtxPart.waittingList h2
  have e3 : s2.originalPrio = s.originalPrio := congrArg MtxPart.originalPrio h2
  have e4 : s2.mutexTaskID = s.mutexTaskID := congrArg MtxPart.mutexTaskID h2
  have e5 : s2.mutexID = s.mutexID := congrArg MtxPart.mutexID h2
  have hl2 : IsSList (s2.waittingList m) (osSchedLock s2).TCBnext l := by
    rw [e2]
    exact hl
  unfold passOn
  refine Ensures.bind (hipriWaiter_min hl2) fun x hx => ?_
  have hmin : x.1 = mostUrgent (update s.prio w p) (s.originalPrio m) l := by
    rw [hx, e3]
    exact congrArg (mostUrgent · _ l) e1
  refine Ensures.bind (osSchedUnlock_part hr) fun s3 h3 => ?_
  have f1 : s3.prio = update s.prio w p := (congrArg MtxPart.prio h3).trans e1
  have f3 : s3.originalPrio = s.originalPrio := (congrArg MtxPart.originalPrio h3).trans e3
  have f4 : s3.mutexTaskID = s.mutexTaskID := (congrArg MtxPart.mutexTaskID h3).trans e4
  have f5 : s3.mutexID = s.mutexID := (congrArg MtxPart.mutexID h3).trans e5
  have hsame : Adjusts s m w p l s3.mtxPart := Or.inl ⟨congrFun f3 m, f1⟩
  refine .ite (fun hx' => Ensures.map ?_) fun _ => .some hsame
  rw [f3] at hx'
  have hlt : x.1 < s.originalPrio m :=
    Nat.lt_of_le_of_ne (hmin ▸ mostUrgent_le _ _ l) fun e => hx' e.symm
  have hown : s3.mutexID (s.mutexTaskID m) = m := (congrFun f5 _).trans ho
  rw [f4]
  cases hc : priorityChecked cfg s3 (s.mutexTaskID m) x.1 with
  | some st =>
    rw [coSetPriorityN_parts, hc]
    exact .some hsame
  | none =>
    have hprio : s3.prio (s.mutexTaskID m) = s.prio (s.mutexTaskID m) := by
      rw [f1]
      exact Function.update_of_ne hne ..
    have hother := (priorityChecked_none hc).2.2.2.2
    rw [hprio, hmin] at hother
    exact (setOwner_lowered hr (setsLowered hr hm depth) hm hown (congrFun f4 m) hlt hc).imp
      fun y h => Or.inr ⟨h, hother⟩

theorem priorityChecked_ok {t : Nat} (h : priorityChecked cfg s t p = some .E_OK) :
    s.prio t = p := by
  unfold priorityChecked at h
  split at h
  · exact nomatch h
  split at h
  · exact nomatch h
  split at h
  · exact nomatch h
  split at h
  · exact nomatch h
  split at h
  · assumption
  · exact nomatch h

/-- **CoSetPriority** on a task that waits for `m` adjusts only the inherited priority, if and only
    if the owner has the right one already. -/
theorem setWaiterPriority_exact (hc : CallsBack cfg Zone.all) (hm : m ≠ INVALID_ID)
    (hl : IsDList (s.mtxLinks m) l) (hw : w ∈ l) (hown : s.mutexTaskID m ∉ l)
    (ho : s.mutexID (s.mutexTaskID m) = m) (hid : s.mutexID w = m) (hst : s.state w = .WAITING) :
    Ensures (coSetPriority cfg.served s w p) fun x => x.2 = .E_OK → (Adjusted s x.1 m w p l ↔
      s.prio (s.mutexTaskID m) = mostUrgent (update s.prio w p) (s.originalPrio m) l) := by
  have hr : Responds cfg.served Zone.all := responds_served hc
  have hne : s.mutexTaskID m ≠ w := fun e => hown (e ▸ hw)
  have hnot : ¬ holdsMutex s w := fun h => hne (hid ▸ h.2)
  unfold coSetPriority
  rw [coSetPriorityN_parts]
  cases hck : priorityChecked cfg.served s w p with
  | some st =>
    refine .some fun e => adjusted_iff hne rfl ?_
    have e1 : s.prio w = p := priorityChecked_ok (hck.trans (congrArg some e))
    rw [← e1]
    exact (Function.update_eq_self w s.prio).symm
  | none =>
    have hset : setOriginal s w p = s := if_neg hnot
    rw [hset]
    refine .ite (fun h => absurd h.1 hnot) fun _ => ?_
    refine Ensures.bind (P := fun s1 => s1.mtxPart = s.mtxPart ∧ s1.TCBnext = s.TCBnext ∧
      s1.state = s.state)
      (fun s1 e => ⟨changeTaskPri_part _ p s1 e, changeTaskPri_next _ p s1 e⟩)
        fun s1 ⟨h1, h2, h3⟩ => Ensures.map ?_
    have h4 : ({ s1 with prio := update s1.prio w p } : Kernel).mtxPart =
        { s.mtxPart with prio := update s.prio w p } := by
      change ({ s1.mtxPart with prio := update s1.mtxPart.prio w p } : MtxPart) = _
      rw [h1]
      rfl
    have h5 : IsSList (s.waittingList m) s1.TCBnext l := by
      rw [h2]
      exact hl.toSList
    have hlt := (priorityChecked_none hck).2.1
    refine Ensures.imp (P := fun s4 => Adjusts s m w p l s4.mtxPart) ?_ fun s4 h _ =>
      h.adjusted_iff hne
    unfold reorderTask
    dsimp only
    rw [show s1.state w = .WAITING from (congrFun h3 w).trans hst, hid]
    dsimp only
    rw [if_pos hm]
    refine Ensures.bind (passOn_adjusts hr hm ho hne h4 h5) fun s3 h6 => ?_
    exact (reorderEvent_part hr hlt).imp fun s4 e => e ▸ h6

end Waiter

/-- The owner has the priority 6 from another task; the task 3 gets the same. -/
theorem setWaiterPriority_shared :
    ∃ x, coSetPriority shippedEnv.served (waitingOn [1, 2, 3]) 3 6 = some x ∧
    Adjusted (waitingOn [1, 2, 3]) x.1 0 3 6 [1, 2, 3] := by
  obtain ⟨x, e, h⟩ := Option.map_eq_some_iff.mp (show (coSetPriority shippedEnv.served
    (waitingOn [1, 2, 3]) 3 6).map Prod.snd = some .E_OK by decide +kernel)
  have hd : IsDList ((waitingOn [1, 2, 3]).mtxLinks 0) [1, 2, 3] := waitingOn_isDList (by decide)
  exact ⟨x, e, (@setWaiterPriority_exact shippedEnv (waitingOn [1, 2, 3]) [1, 2, 3] 0 3 6
    (fun _ _ _ _ h => .some h) (by decide) hd (by decide) (by decide) rfl rfl rfl x e h).mpr
      (by decide)⟩

/-- A task waits for a mutex whose owner has the base priority 10; it gets the priority 7, and so
    does the owner, as its base priority. -/
theorem setWaiterPriority_base : ∃ m0 m x, boot shippedEnv shippedIdle
      [.plainTask 10, .plainTask 20, .mutex] = some m0 ∧ Reach shippedEnv LeavesOccupied m0 m ∧
    IsDList (m.k.mtxLinks 0) [2] ∧ m.k.mutexOccupied 0 = true ∧ m.k.mutexTaskID 0 = 1 ∧
    m.k.mutexID 1 = 0 ∧
    m.k.originalPrio 0 = 10 ∧ coSetPriority shippedEnv.served m.k 2 7 = some (x, .E_OK) ∧
    ¬ Adjusted m.k x 0 2 7 [2] := by
  obtain ⟨m0, m, h1, h2, h3⟩ := @ran shippedEnv LeavesOccupied _ shippedIdle
    [.plainTask 10, .plainTask 20, .mutex]
    [([], .call (.enterMutex 0)), ([], .call (.tickDelay 2)), ([], .call (.enterMutex 0)),
      ([], .tick), ([], .tick)] _
    (fun m => (decide (IsDList (m.k.mtxLinks 0) [2] ∧ m.k.mutexOccupied 0 = true ∧
      m.k.mutexTaskID 0 = 1 ∧
      m.k.mutexID 1 = 0 ∧ m.k.originalPrio 0 = 10),
      (coSetPriority shippedEnv.served m.k 2 7).map fun x => (x.1.originalPrio 0, x.2)))
    (true, some (7, .E_OK)) (by decide +kernel)
  obtain ⟨h3, h8⟩ := Prod.mk.inj h3
  obtain ⟨h3, h4, h5, h6, h7⟩ := of_decide_eq_true h3
  obtain ⟨⟨x, st⟩, h9, h10⟩ := Option.map_eq_some_iff.mp h8
  obtain ⟨h11, h12⟩ := Prod.mk.inj h10
  have h13 : st = .E_OK := h12
  subst h13
  refine ⟨m0, m, x, h1, h2, h3, h4, h5, h6, h7, h9, fun ha => ?_⟩
  have h14 : x.originalPrio 0 = 10 := ha.original.trans h7
  exact absurd (h11.symm.trans h14) (by decide)

end CoOS
