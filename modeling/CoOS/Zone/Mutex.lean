/-
  Priorities and mutexes stay in the zone. `CoSetPriority` writes priorities and `hipriTaskID`, but
  not who owns a mutex or waits for it (`SameHolders`).
-/
import CoOS.Kernel.Parts
import CoOS.Zone.Wait

namespace CoOS

open Function (update)
open DList

/-! ## The table of the binary build -/

section Table

variable {cfg : Env} {Z : Zone} {d : MtxPart} {s : Kernel}

theorem setTable_sealed (h : Sealed cfg.toConfig Z d s) (T : PriTable)
    (hp : ∀ i, T.RdyTaskPri i ≠ INVALID_ID → Z.tcb (T.RdyTaskPri i))
    (hb : ∀ i, infoBit T.RdyTaskPriInfo i = true → Z.tcb (T.RdyTaskPri i)) :
    Sealed cfg.toConfig Z d (s.setPriTable T) := { h with ptr := hp, bit := hb }

/-- `PrioRemap` after the entries from `k` on were moved. -/
theorem prioRemap_sealed (h : Sealed cfg.toConfig Z d s) (T : PriTable) {k : Nat}
    (hp : ∀ i, T.RdyTaskPri i ≠ INVALID_ID → Z.tcb (T.RdyTaskPri i))
    (hi : T.RdyTaskPriInfo = s.RdyTaskPriInfo)
    (hout : ∀ i, i < k ∨ T.PriNum ≤ i → T.RdyTaskPri i = s.RdyTaskPri i) :
    Sealed cfg.toConfig Z d (prioRemap (s.setPriTable T) k) := by
  refine setTable_sealed h ⟨T.PriNum, T.ActivePri, T.TaskNumPerPri, T.RdyTaskPri,
    (prioRemap (s.setPriTable T) k).RdyTaskPriInfo⟩ hp fun i hb => ?_
  rcases prioRemap_only (s.setPriTable T) k i hb with hold | hne
  · by_cases hik : i < k ∨ T.PriNum ≤ i
    · change Z.tcb (T.RdyTaskPri i)
      rw [hout i hik]
      refine h.bit i ?_
      rw [← hi]
      exact hold
    · have hk : k ≤ i ∧ i < T.PriNum := by omega
      have := (prioRemap_spec (s.setPriTable T)
        (Nat.le_trans hk.1 (Nat.le_of_lt hk.2))).2 i hk.1 hk.2
      exact hp i (of_decide_eq_true (this.symm.trans hb))
  · exact hp i hne

theorem getPriSeqNum_le {p : Nat} : Ensures (getPriSeqNum s p) fun x => x.2 ≤ s.PriNum := by
  have hloop : ∀ fuel num seqNum, num ≤ seqNum → seqNum ≤ s.PriNum →
      Ensures (getPriSeqNumLoop s.ActivePri p fuel num seqNum) fun x => x.2 ≤ s.PriNum := by
    intro fuel
    induction fuel with
    | zero => exact fun _ _ _ _ => .none
    | succ fuel ih =>
      intro num seqNum h1 h2
      unfold getPriSeqNumLoop
      refine .ite (fun _ => .some (Nat.le_trans h1 h2)) fun _ => ?_
      refine .ite (fun _ => .some ?_) fun _ => ?_
      · dsimp only
        omega
      · exact .ite (fun _ => ih num _ (by omega) (by omega)) fun _ => ih _ seqNum (by omega) h2
  exact hloop _ 0 s.PriNum (Nat.zero_le _) (le_refl _)

theorem activeTaskPri_sealed (h : Sealed cfg.toConfig Z d s) (p : Nat) :
    Ensures (activeTaskPri s p) (Sealed cfg.toConfig Z d) := by
  unfold activeTaskPri
  refine Ensures.bind getPriSeqNum_le fun x hx =>
    .ite (fun _ => .some (h.congr rfl)) fun _ => .some ?_
  refine prioRemap_sealed h ⟨s.PriNum + 1, shiftUp s.ActivePri x.2 s.PriNum p,
    shiftUp s.TaskNumPerPri x.2 s.PriNum 1, shiftUp s.RdyTaskPri x.2 s.PriNum INVALID_ID,
    s.RdyTaskPriInfo⟩ (fun i hne => ?_) rfl fun i hi => ?_
  · dsimp only at hne ⊢
    unfold shiftUp at hne ⊢
    split at hne
    · exact absurd rfl hne
    · next hi =>
      rw [if_neg hi]
      split at hne
      · next hi2 =>
        rw [if_pos hi2]
        exact h.ptr _ hne
      · next hi2 =>
        rw [if_neg hi2]
        exact h.ptr _ hne
  · dsimp only at hi ⊢
    unfold shiftUp
    rw [if_neg (by omega), if_neg (by omega)]

theorem deleteTaskPri_sealed (h : Sealed cfg.toConfig Z d s) (p : Nat) :
    Ensures (deleteTaskPri s p) (Sealed cfg.toConfig Z d) := by
  unfold deleteTaskPri
  refine Ensures.skip fun x => .ite (fun _ => .some ?_) fun _ => .some (h.congr rfl)
  refine prioRemap_sealed h ⟨s.PriNum - 1, shiftDown s.ActivePri x.2 s.PriNum,
    shiftDown (update s.TaskNumPerPri x.2 ((s.TaskNumPerPri x.2 + 255) % 256)) x.2 s.PriNum,
    shiftDown s.RdyTaskPri x.2 s.PriNum, s.RdyTaskPriInfo⟩ (fun i hne => ?_) rfl fun i hi => ?_
  · dsimp only at hne ⊢
    unfold shiftDown at hne ⊢
    split at hne
    · next hi =>
      rw [if_pos hi]
      exact h.ptr _ hne
    · next hi =>
      rw [if_neg hi]
      exact h.ptr _ hne
  · dsimp only at hi ⊢
    unfold shiftDown
    rw [if_neg (by omega)]

theorem changeTaskPri_sealed (h : Sealed cfg.toConfig Z d s) (p p' : Nat) :
    Ensures (changeTaskPri cfg s p p') (Sealed cfg.toConfig Z d) := by
  unfold changeTaskPri
  refine .ite (fun _ => .some h) fun _ => ?_
  exact Ensures.bind (deleteTaskPri_sealed h p) fun s1 h1 => activeTaskPri_sealed h1 p'

end Table

/-! ## CoSetPriority -/

/-- Who owns a mutex and who waits for it is the same. -/
structure SameHolders (d d' : MtxPart) : Prop where
  mutexID : d'.mutexID = d.mutexID
  mutexOccupied : d'.mutexOccupied = d.mutexOccupied
  mutexTaskID : d'.mutexTaskID = d.mutexTaskID
  waittingList : d'.waittingList = d.waittingList
  MutexFreeID : d'.MutexFreeID = d.MutexFreeID

theorem SameHolders.refl (d : MtxPart) : SameHolders d d := ⟨rfl, rfl, rfl, rfl, rfl⟩

theorem SameHolders.trans {d d' d'' : MtxPart} (h : SameHolders d d') (h' : SameHolders d' d'') :
    SameHolders d d'' :=
  ⟨h'.mutexID.trans h.mutexID, h'.mutexOccupied.trans h.mutexOccupied,
    h'.mutexTaskID.trans h.mutexTaskID,
    h'.waittingList.trans h.waittingList, h'.MutexFreeID.trans h.MutexFreeID⟩

/-- Sealed, with the holders of `d`. -/
def HoldersKept (cfg : Config) (Z : Zone) (d : MtxPart) (s : Kernel) : Prop :=
  ∃ d', SameHolders d d' ∧ Sealed cfg Z d' s

section Priority

variable {cfg : Env} {Z : Zone} {d : MtxPart} {s : Kernel} {t : Nat}

theorem Sealed.kept (h : Sealed cfg.toConfig Z d s) : HoldersKept cfg.toConfig Z d s :=
  ⟨d, .refl d, h⟩

/-- From one part to the next. -/
theorem HoldersKept.after {α : Type} {d' : MtxPart} {x : Option α} {f : α → Kernel}
    (hd : SameHolders d d')
    (h : Ensures x fun a => HoldersKept cfg.toConfig Z d' (f a)) :
    Ensures x fun a => HoldersKept cfg.toConfig Z d (f a) :=
  h.imp fun _ ⟨d2, h2, h3⟩ => ⟨d2, hd.trans h2, h3⟩

theorem Sealed.setPrios (h : Sealed cfg.toConfig Z d s) (f g k : Nat → Nat) :
    HoldersKept cfg.toConfig Z d { s with prio := f, originalPrio := g, hipriTaskID := k } := by
  have h1 : Sealed cfg.toConfig Z
      ({ s with prio := f, originalPrio := g, hipriTaskID := k } : Kernel).mtxPart
      { s with prio := f, originalPrio := g, hipriTaskID := k } := h.setPart rfl
  refine ⟨_, ?_, h1⟩
  rw [← h.part]
  exact ⟨rfl, rfl, rfl, rfl, rfl⟩

theorem reorderReady_sealed (h : Sealed cfg.toConfig Z d s) (ht : Z.tcb t) :
    Ensures (reorderReady cfg s t) (Sealed cfg.toConfig Z d) :=
  Ensures.bind (removeFromTCBRdyList_sealed h ht) fun _ h1 => insertToTCBRdyList_sealed h1 ht

theorem reorderWaiting_sealed (hr : Responds cfg Z) (h : Sealed cfg.toConfig Z d s) (ht : Z.evt t) :
    Ensures (reorderWaiting cfg s t) (Sealed cfg.toConfig Z d) := by
  unfold reorderWaiting
  refine .ite (fun _ => ?_) fun _ => .some h
  exact eventTaskToWait_sealed hr (removeEventWaittingList_sealed h ht) _ ht

theorem reorderEvent_sealed (hr : Responds cfg Z) (h : Sealed cfg.toConfig Z d s)
    (ht : t < cfg.tasks) :
    Ensures (if s.eventID t ≠ INVALID_ID then reorderWaiting cfg s t else some s)
      (Sealed cfg.toConfig Z d) :=
  .ite (fun hne => reorderWaiting_sealed hr h (h.eventID t (Or.inr ht) hne)) fun _ => .some h

/-- `CoSetPriority` of nested depth `depth` keeps the holders. -/
def SetsPriority (cfg : Env) (Z : Zone) (depth : Nat) : Prop :=
  ∀ d s t p, Sealed cfg.toConfig Z d s →
    Ensures (coSetPriorityN cfg depth s t p) fun x => HoldersKept cfg.toConfig Z d x.1

theorem passOn_holders (hr : Responds cfg Z) {depth : Nat} (hs : SetsPriority cfg Z depth)
    (h : Sealed cfg.toConfig Z d s) (m : Nat) :
    Ensures (passOn cfg depth s m) (HoldersKept cfg.toConfig Z d) := by
  unfold passOn
  refine Ensures.skip fun x => ?_
  obtain ⟨d1, hd1, h1⟩ :=
    (osSchedLock_sealed h).setPrios s.prio s.originalPrio (update s.hipriTaskID m x.2)
  refine Ensures.bind (osSchedUnlock_sealed hr h1) fun s1 h2 => .ite (fun _ => ?_) fun _ => ?_
  · exact Ensures.map (HoldersKept.after hd1 (hs d1 _ _ _ h2))
  · exact .some ⟨d1, hd1, h2⟩

theorem reorderTask_holders (hr : Responds cfg Z) {depth : Nat} (hs : SetsPriority cfg Z depth)
    (h : Sealed cfg.toConfig Z d s) (ht : t < cfg.tasks) (m : Nat) :
    Ensures (reorderTask cfg depth s t m) (HoldersKept cfg.toConfig Z d) := by
  have hwait : Ensures ((if m ≠ INVALID_ID then passOn cfg depth s m else some s).bind fun s =>
      if s.eventID t ≠ INVALID_ID then reorderWaiting cfg s t else some s)
        (HoldersKept cfg.toConfig Z d) := by
    have hpass : Ensures (if m ≠ INVALID_ID then passOn cfg depth s m else some s)
      (HoldersKept cfg.toConfig Z d) :=
      .ite (fun _ => passOn_holders hr hs h m) fun _ => .some h.kept
    refine Ensures.bind hpass fun s1 ⟨d1, hd1, h1⟩ => ?_
    exact (reorderEvent_sealed hr h1 ht).imp fun s2 h2 => ⟨d1, hd1, h2⟩
  unfold reorderTask
  split
  · next hst =>
    refine Ensures.bind (reorderReady_sealed (osSchedLock_sealed h) (h.ready t ht hst)) fun s1 h1 =>
      ?_
    exact (osSchedUnlock_sealed hr h1).imp fun s2 h2 => h2.kept
  · refine .ite (fun _ => ?_) fun _ => .some h.kept
    refine (osSchedUnlock_sealed hr ?_).imp fun s2 h2 => h2.kept
    exact h.congr rfl
  · exact hwait

theorem setsPriority (hr : Responds cfg Z) (depth : Nat) : SetsPriority cfg Z depth := by
  induction depth with
  | zero => exact fun d s t p _ => .none
  | succ depth ih =>
    intro d s t p h
    rw [coSetPriorityN_parts]
    split
    · exact .some h.kept
    · next hc =>
      have ht := (priorityChecked_none hc).2.1
      have h1 : HoldersKept cfg.toConfig Z d (setOriginal s t p) := by
        unfold setOriginal
        split
        · exact h.setPrios s.prio _ s.hipriTaskID
        · exact h.kept
      refine .ite (fun _ => .some h1) fun _ => ?_
      obtain ⟨d1, hd1, h1⟩ := h1
      refine Ensures.bind (changeTaskPri_sealed h1 _ p) fun s2 h2 => Ensures.map ?_
      obtain ⟨d3, hd3, h3⟩ := h2.setPrios (update s2.prio t p) s2.originalPrio s2.hipriTaskID
      exact HoldersKept.after (hd1.trans hd3) (reorderTask_holders hr ih h3 ht (s.mutexID t))

/-- **CoSetPriority** keeps the holders. -/
theorem coSetPriority_holders (hr : Responds cfg Z) (h : Sealed cfg.toConfig Z d s) (t p : Nat) :
    Ensures (coSetPriority cfg s t p) fun x => HoldersKept cfg.toConfig Z d x.1 :=
  setsPriority hr _ d s t p h

end Priority

end CoOS
