/-
  What a mutex does to priorities. Nobody waits behind a less urgent owner (`no_inversion`). The
  priority of a task when it was last outside of the mutexes is its base (`Watched`); leaving gives
  it back when somebody waits, and else only if the owner runs with it (`leave_restores`).

  `hipriTaskID` decides whose priority is handed on. It may name a task that has left long ago, and
  then the next owner gets that of the last; `Prompt` excludes this, and under it an owner has the
  most urgent of its base and the priorities of those that wait, no more (`inheritance_exact`).
-/
import CoOS.Mutex.History
import Mathlib.Order.Bounds.Defs

namespace CoOS

open Function (update)
open DList

/-! ## Bases -/

/-- The bases after one state more. -/
def LockPart.rebase (a : LockPart) (b : Nat → Nat) (t : Nat) : Nat :=
  if a.mutexID t = INVALID_ID then a.prio t else b t

/-- Who is outside of the mutexes or waits has its base, and the owner is restored to it. -/
structure Based (L : Locks) (b : Nat → Nat) : Prop where
  out : ∀ t, L.a.mutexID t = INVALID_ID → L.a.prio t = b t
  wait : ∀ i, ∀ t ∈ L.waiters i, L.a.prio t = b t
  own : ∀ i, L.a.mutexOccupied i = true → L.a.originalPrio i = b (L.a.mutexTaskID i)
  le : ∀ i, L.a.mutexOccupied i = true → L.a.prio (L.a.mutexTaskID i) ≤ b (L.a.mutexTaskID i)

/-- No owner is more urgent than it has to be. -/
def Modest (L : Locks) (b : Nat → Nat) : Prop :=
  ∀ i, L.a.mutexOccupied i = true → L.a.prio (L.a.mutexTaskID i) = b (L.a.mutexTaskID i) ∨
    ∃ t ∈ L.waiters i, L.a.prio t = L.a.prio (L.a.mutexTaskID i)

/-- Leaving `i` hands on the priority of a task that waits, or lets the next owner have its own. -/
def Locks.Prompt (L : Locks) (i : Nat) : Prop :=
  L.waiters i = [] ∨ L.a.hipriTaskID i = L.a.mutexTaskID i ∨
    ∃ t ∈ L.waiters i, L.a.prio t ≤ L.a.prio (L.a.mutexTaskID i)

section Bases

variable {cfg : Env} {L L' : Locks} {b : Nat → Nat} {r i j t u : Nat} {op : Call ⊕ Cont}
    {ret : Option Ret}

theorem LocksOk.rebase_line (h : LocksOk cfg L) (ht : t ∈ L.line i) : L.a.rebase b t = b t := by
  obtain ⟨-, e, hi⟩ := (h.mem i t).mp ht
  exact if_neg fun e' => h.ne_invalid hi (e.symm.trans e')

theorem LocksOk.mem_owner (_ : LocksOk cfg L) (ho : L.a.mutexOccupied i = true) :
    L.a.mutexTaskID i ∈ L.line i := by
  rw [Locks.line_taken ho]
  exact List.mem_cons_self

theorem LocksOk.mem_waiter (h : LocksOk cfg L) (ht : t ∈ L.waiters i) : t ∈ L.line i := by
  rw [Locks.line_taken (h.waiter ht).1]
  exact List.mem_cons_of_mem _ ht

/-- Who waits owns nothing. -/
theorem LocksOk.waiter_ne_owner (h : LocksOk cfg L) (ht : t ∈ L.waiters i)
    (ho : L.a.mutexOccupied j = true) :
    t ≠ L.a.mutexTaskID j := by
  rintro rfl
  obtain rfl := h.one_line (h.mem_waiter ht) (h.mem_owner ho)
  exact (h.waiter ht).2.2.2.2 rfl

theorem LocksOk.owner_ne (h : LocksOk cfg L) (hi : L.a.mutexOccupied i = true)
    (hj : L.a.mutexOccupied j = true)
    (hij : i ≠ j) : L.a.mutexTaskID i ≠ L.a.mutexTaskID j := fun e =>
  hij (h.one_line (h.mem_owner hi) (by rw [e]; exact h.mem_owner hj))

/-- The bases of those in the lines have not changed. -/
theorem LocksOk.based (h : LocksOk cfg L) (hw : ∀ i, ∀ t ∈ L.waiters i, L.a.prio t = b t)
    (ho : ∀ i, L.a.mutexOccupied i = true → L.a.originalPrio i = b (L.a.mutexTaskID i))
    (hl : ∀ i, L.a.mutexOccupied i = true → L.a.prio (L.a.mutexTaskID i) ≤ b (L.a.mutexTaskID i)) :
    Based L (L.a.rebase b) := by
  refine ⟨fun t ht => (if_pos ht).symm, fun i t ht => ?_, fun i hi => ?_, fun i hi => ?_⟩
  · rw [h.rebase_line (h.mem_waiter ht)]
    exact hw i t ht
  · rw [h.rebase_line (h.mem_owner hi)]
    exact ho i hi
  · rw [h.rebase_line (h.mem_owner hi)]
    exact hl i hi

theorem LocksOk.modest_iff (h : LocksOk cfg L) : Modest L (L.a.rebase b) ↔ Modest L b := by
  refine forall_congr' fun i => forall_congr' fun hi => ?_
  rw [h.rebase_line (h.mem_owner hi)]

/-- An outsider has another priority. -/
theorem Based.off (h : Based L b) (hL' : LocksOk cfg L') (hw : L'.waiters = L.waiters)
    (ho : L'.a.mutexOccupied = L.a.mutexOccupied) (ht : L'.a.mutexTaskID = L.a.mutexTaskID)
    (hor : L'.a.originalPrio = L.a.originalPrio)
    (hp : ∀ i, ∀ u ∈ L'.line i, L'.a.prio u = L.a.prio u) :
    Based L' (L'.a.rebase b) ∧ (Modest L' (L'.a.rebase b) ↔ Modest L b) := by
  have hown : ∀ i, L'.a.mutexOccupied i = true → L'.a.prio (L.a.mutexTaskID i) =
    L.a.prio (L.a.mutexTaskID i) :=
    fun i hi => hp i _ (ht ▸ hL'.mem_owner hi)
  refine ⟨hL'.based (fun i t hm => ?_) (fun i hi => ?_) fun i hi => ?_, hL'.modest_iff.trans ?_⟩
  · rw [hp i t (hL'.mem_waiter hm)]
    exact h.wait i t (hw ▸ hm)
  · rw [hor, ht]
    exact h.own i (ho ▸ hi)
  · rw [ht, hown i hi]
    exact h.le i (ho ▸ hi)
  · unfold Modest
    rw [ho, ht, hw]
    refine forall_congr' fun i => forall_congr' fun hi => ?_
    rw [hown i (ho.symm ▸ hi)]
    refine or_congr_right (exists_congr fun t => and_congr_right fun hm => ?_)
    rw [hp i t (hL'.mem_waiter (hw.symm ▸ hm))]

/-! ## Entering -/

/-- The caller waits. -/
theorem Based.joined (h : Based L b) (hL : LocksOk cfg L) (hL' : LocksOk cfg (L.entered j r))
    (ho : L.a.mutexOccupied j = true) (hout : L.a.mutexID r = INVALID_ID) :
    Based (L.entered j r) ((L.entered j r).a.rebase b) ∧
      (Modest L b → Modest (L.entered j r) ((L.entered j r).a.rebase b)) := by
  obtain ⟨e1, e2, e3, e5⟩ := entered_taken L.a j r ho
  have hwait : (L.entered j r).waiters = update L.waiters j (L.waiters j ++ [r]) := if_pos ho
  have hne : r ≠ L.a.mutexTaskID j := fun e => hL.outside hout j (e ▸ hL.mem_owner ho)
  have hsame : ∀ u, u ≠ L.a.mutexTaskID j → (L.entered j r).a.prio u = L.a.prio u := by
    intro u hu
    change (L.a.entered j r).prio u = _
    rw [e5]
    split
    · exact Function.update_of_ne hu ..
    · rfl
  have hown : (L.entered j r).a.prio (L.a.mutexTaskID j) =
    min (L.a.prio r) (L.a.prio (L.a.mutexTaskID j)) := by
    change (L.a.entered j r).prio _ = _
    rw [e5]
    split
    · next hlt =>
      rw [Function.update_self]
      exact (Nat.min_eq_left (Nat.le_of_lt hlt)).symm
    · next hlt => exact (Nat.min_eq_right (Nat.le_of_not_lt hlt)).symm
  have hmem : ∀ i t, t ∈ (L.entered j r).waiters i → t ∈ L.waiters i ∨ t = r := by
    intro i t ht
    rw [hwait] at ht
    by_cases hij : i = j
    · rw [hij, Function.update_self, List.mem_append, List.mem_singleton] at ht
      rwa [hij]
    · rw [Function.update_of_ne hij] at ht
      exact Or.inl ht
  have hold : ∀ i t, t ∈ L.waiters i → t ∈ (L.entered j r).waiters i := by
    intro i t ht
    rw [hwait]
    by_cases hij : i = j
    · rw [hij, Function.update_self]
      exact List.mem_append_left _ (hij ▸ ht)
    · rwa [Function.update_of_ne hij]
  refine ⟨hL'.based (fun i t ht => ?_) (fun i hi => ?_) fun i hi => ?_,
    fun hx => hL'.modest_iff.mpr fun i hi => ?_⟩
  · rcases hmem i t ht with hm | rfl
    · rw [hsame t (hL.waiter_ne_owner hm ho)]
      exact h.wait i t hm
    · rw [hsame t hne]
      exact h.out t hout
  · rw [show (L.entered j r).a.originalPrio = L.a.originalPrio from e3,
      show (L.entered j r).a.mutexTaskID = L.a.mutexTaskID from e2]
    exact h.own i ((congrFun e1 i).symm.trans hi)
  · have hi : L.a.mutexOccupied i = true := (congrFun e1 i).symm.trans hi
    rw [show (L.entered j r).a.mutexTaskID = L.a.mutexTaskID from e2]
    by_cases hij : i = j
    · rw [hij, hown]
      exact Nat.le_trans (Nat.min_le_right ..) (h.le j ho)
    · rw [hsame _ (hL.owner_ne hi ho hij)]
      exact h.le i hi
  · have hi : L.a.mutexOccupied i = true := (congrFun e1 i).symm.trans hi
    rw [show (L.entered j r).a.mutexTaskID = L.a.mutexTaskID from e2]
    have hkeep : ∀ p, (L.entered j r).a.prio (L.a.mutexTaskID i) = p →
      L.a.prio (L.a.mutexTaskID i) = p →
        p = b (L.a.mutexTaskID i) ∨ ∃ t ∈ (L.entered j r).waiters i,
          (L.entered j r).a.prio t = p := by
      rintro p - rfl
      refine (hx i hi).imp_right fun ⟨t, hm, ht⟩ => ⟨t, hold i t hm, ?_⟩
      rw [hsame t (hL.waiter_ne_owner hm ho)]
      exact ht
    by_cases hij : i = j
    · subst hij
      by_cases hlt : L.a.prio r < L.a.prio (L.a.mutexTaskID i)
      · refine Or.inr ⟨r, ?_, ?_⟩
        · rw [hwait, Function.update_self]
          exact List.mem_append_right _ (List.mem_singleton_self r)
        · rw [hown, hsame r hne, Nat.min_eq_left (Nat.le_of_lt hlt)]
      · exact hkeep _ rfl (by rw [hown, Nat.min_eq_right (Nat.le_of_not_lt hlt)])
    · exact hkeep _ rfl (hsame _ (hL.owner_ne hi ho hij)).symm

/-- The caller becomes the owner. -/
theorem Based.taken (h : Based L b) (hL' : LocksOk cfg (L.entered j r))
    (ho : L.a.mutexOccupied j = false)
    (hout : L.a.mutexID r = INVALID_ID) :
    Based (L.entered j r) ((L.entered j r).a.rebase b) ∧
      (Modest L b → Modest (L.entered j r) ((L.entered j r).a.rebase b)) := by
  have ha : (L.entered j r).a = _ := entered_free L.a j r (by rw [ho]; exact Bool.false_ne_true)
  have hwait : (L.entered j r).waiters = L.waiters := if_neg (by rw [ho]; exact Bool.false_ne_true)
  have hp : (L.entered j r).a.prio = L.a.prio := by rw [ha]
  have hself : (L.entered j r).a.mutexTaskID j = r ∧ (L.entered j r).a.originalPrio j =
    L.a.prio r := by
    rw [ha]
    exact ⟨Function.update_self .., Function.update_self ..⟩
  have hother : ∀ i, i ≠ j → (L.entered j r).a.mutexTaskID i = L.a.mutexTaskID i ∧
      (L.entered j r).a.originalPrio i = L.a.originalPrio i ∧
      (L.entered j r).a.mutexOccupied i = L.a.mutexOccupied i := by
    intro i hij
    rw [ha]
    exact ⟨Function.update_of_ne hij .., Function.update_of_ne hij .., Function.update_of_ne hij ..⟩
  refine ⟨hL'.based (fun i t ht => ?_) (fun i hi => ?_) fun i hi => ?_,
    fun hx => hL'.modest_iff.mpr fun i hi => ?_⟩
  · rw [hp]
    exact h.wait i t (hwait ▸ ht)
  · by_cases hij : i = j
    · rw [hij, hself.1, hself.2]
      exact h.out r hout
    · obtain ⟨e1, e2, e3⟩ := hother i hij
      rw [e1, e2]
      exact h.own i (e3.symm.trans hi)
  · rw [hp]
    by_cases hij : i = j
    · rw [hij, hself.1]
      exact Nat.le_of_eq (h.out r hout)
    · obtain ⟨e1, -, e3⟩ := hother i hij
      rw [e1]
      exact h.le i (e3.symm.trans hi)
  · rw [hp, hwait]
    by_cases hij : i = j
    · rw [hij, hself.1]
      exact Or.inl (h.out r hout)
    · obtain ⟨e1, -, e3⟩ := hother i hij
      rw [e1]
      exact hx i (e3.symm.trans hi)

/-! ## Leaving -/

/-- Nobody waits. The owner keeps the priority that it has. -/
theorem Based.freed (h : Based L b) (hL' : LocksOk cfg (L.left j r)) (hw : L.waiters j = []) :
    Based (L.left j r) ((L.left j r).a.rebase b) ∧ (L.left j r).a.prio = L.a.prio ∧
      (Modest L b → Modest (L.left j r) ((L.left j r).a.rebase b)) := by
  have ha : (L.left j r).a = _ := (congrArg (L.a.left j r) hw).trans (left_nil L.a j r)
  have hp : (L.left j r).a.prio = L.a.prio := by rw [ha]
  have hwait : (L.left j r).waiters = L.waiters := by
    change update L.waiters j (L.waiters j).tail = _
    rw [hw]
    exact Function.update_eq_self_iff.mpr hw.symm
  have hor : (L.left j r).a.originalPrio = L.a.originalPrio := by rw [ha]
  have hother : ∀ i, (L.left j r).a.mutexOccupied i = true →
      (L.left j r).a.mutexTaskID i = L.a.mutexTaskID i ∧ L.a.mutexOccupied i = true := by
    intro i hi
    rw [ha] at hi ⊢
    dsimp only at hi ⊢
    by_cases hij : i = j
    · rw [hij, Function.update_self] at hi
      exact absurd hi Bool.false_ne_true
    · rw [Function.update_of_ne hij] at hi ⊢
      exact ⟨rfl, hi⟩
  refine ⟨hL'.based (fun i t ht => ?_) (fun i hi => ?_) fun i hi => ?_, hp,
    fun hx => hL'.modest_iff.mpr fun i hi => ?_⟩
  · rw [hp]
    exact h.wait i t (hwait ▸ ht)
  · rw [hor, (hother i hi).1]
    exact h.own i (hother i hi).2
  · rw [hp, (hother i hi).1]
    exact h.le i (hother i hi).2
  · rw [hp, hwait, (hother i hi).1]
    exact hx i (hother i hi).2

/-- The first that waits becomes the owner. -/
theorem Based.handed (h : Based L b) (hL : LocksOk cfg L) (hL' : LocksOk cfg (L.left j r))
    (ho : L.a.mutexOccupied j = true) (hown : L.a.mutexTaskID j = r) {l : List Nat}
    (hw : L.waiters j = t :: l) :
    Based (L.left j r) ((L.left j r).a.rebase b) ∧ (L.left j r).a.prio r = b r ∧
      (Modest L b → (Modest (L.left j r) ((L.left j r).a.rebase b) ↔ L.Prompt j)) := by
  have ha : (L.left j r).a = _ := (congrArg (L.a.left j r) hw).trans (left_cons L.a j r t l)
  have hwait : (L.left j r).waiters = update L.waiters j l :=
    congrArg (update L.waiters j) (congrArg List.tail hw)
  have hnd : (t :: l).Nodup := hw ▸ (List.nodup_cons.mp (Locks.line_taken ho ▸ hL.nodup j)).2
  have hmem : ∀ u ∈ t :: l, u ∈ L.waiters j := fun u hu => hw ▸ hu
  have htj : t ∈ L.waiters j := hmem t List.mem_cons_self
  have htr : t ≠ r := fun e => (hL.waiter htj).2.2.2.2 (e.trans hown.symm)
  have hprio : ∀ u, u ≠ t → u ≠ r → (L.left j r).a.prio u = L.a.prio u := by
    intro u hut hur
    rw [ha]
    exact (Function.update_of_ne hut ..).trans (Function.update_of_ne hur ..)
  have hpt : (L.left j r).a.prio t = (L.a.handOn j t l).1 := by
    rw [ha]
    exact Function.update_self ..
  have hpr : (L.left j r).a.prio r = b r := by
    rw [ha]
    refine ((Function.update_of_ne (Ne.symm htr) ..).trans (Function.update_self ..)).trans ?_
    rw [h.own j ho, hown]
  have hx : ∀ u ∈ t :: l, (L.a.handOn j t l).1 ≤ L.a.prio u :=
    handOn_first L.a j t l fun u hu => hL.urgent j ho u (hmem u hu)
  have hself : (L.left j r).a.mutexTaskID j = t ∧ (L.left j r).a.originalPrio j = L.a.prio t := by
    rw [ha]
    exact ⟨Function.update_self .., Function.update_self ..⟩
  have hocc : (L.left j r).a.mutexOccupied = L.a.mutexOccupied := by rw [ha]
  have hother : ∀ i, i ≠ j → (L.left j r).a.mutexTaskID i = L.a.mutexTaskID i ∧
      (L.left j r).a.originalPrio i = L.a.originalPrio i := by
    intro i hij
    rw [ha]
    exact ⟨Function.update_of_ne hij .., Function.update_of_ne hij ..⟩
  -- those behind keep their priorities, in this line and in the others
  have hstill : ∀ i u, u ∈ (L.left j r).waiters i → u ∈ L.waiters i ∧ (L.left j r).a.prio u =
    L.a.prio u := by
    intro i u hu
    rw [hwait] at hu
    by_cases hij : i = j
    · rw [hij, Function.update_self] at hu
      have huj := hmem u (List.mem_cons_of_mem t hu)
      refine ⟨hij ▸ huj, hprio u (fun e => (List.nodup_cons.mp hnd).1 (e ▸ hu)) fun e => ?_⟩
      exact (hL.waiter huj).2.2.2.2 (e.trans hown.symm)
    · rw [Function.update_of_ne hij] at hu
      refine ⟨hu, hprio u (fun e => hij ?_) fun e => ?_⟩
      · exact hL.one_line (hL.mem_waiter (e ▸ hu)) (hL.mem_waiter htj)
      · exact hL.waiter_ne_owner hu ho (e.trans hown.symm)
  have howner : ∀ i, i ≠ j → L.a.mutexOccupied i = true →
      (L.left j r).a.prio (L.a.mutexTaskID i) = L.a.prio (L.a.mutexTaskID i) := fun i hij hi =>
    hprio _ (Ne.symm (hL.waiter_ne_owner htj hi)) fun e => hL.owner_ne hi ho hij (e.trans hown.symm)
  refine ⟨hL'.based (fun i u hu => ?_) (fun i hi => ?_) (fun i hi => ?_), hpr,
    fun hex => hL'.modest_iff.trans ?_⟩
  · rw [(hstill i u hu).2]
    exact h.wait i u (hstill i u hu).1
  · by_cases hij : i = j
    · rw [hij, hself.1, hself.2]
      exact h.wait j t htj
    · rw [(hother i hij).1, (hother i hij).2]
      exact h.own i (hocc ▸ hi)
  · by_cases hij : i = j
    · rw [hij, hself.1, hpt, ← h.wait j t htj]
      exact hx t List.mem_cons_self
    · rw [(hother i hij).1, howner i hij (hocc ▸ hi)]
      exact h.le i (hocc ▸ hi)
  · have hrest : ∀ i, i ≠ j → (L.left j r).a.mutexOccupied i = true →
        (L.left j r).a.prio ((L.left j r).a.mutexTaskID i) = b ((L.left j r).a.mutexTaskID i) ∨
          ∃ u ∈ (L.left j r).waiters i,
            (L.left j r).a.prio u = (L.left j r).a.prio ((L.left j r).a.mutexTaskID i) := by
      intro i hij hi
      rw [(hother i hij).1, howner i hij (hocc ▸ hi)]
      refine (hex i (hocc ▸ hi)).imp_right fun ⟨u, hu, e⟩ => ?_
      have hu' : u ∈ (L.left j r).waiters i := by rwa [hwait, Function.update_of_ne hij]
      exact ⟨u, hu', (hstill i u hu').2.trans e⟩
    have hlj : ∀ u ∈ l, u ∈ (L.left j r).waiters j :=
      fun u hu => by rwa [hwait, Function.update_self]
    -- the new owner has its own priority or that of one behind it, if somebody has what is
    -- handed on
    have hnew : (∃ u ∈ t :: l, L.a.prio u = (L.a.handOn j t l).1) →
        (L.left j r).a.prio t = b t ∨ ∃ u ∈ (L.left j r).waiters j,
          (L.left j r).a.prio u = (L.left j r).a.prio t := by
      rintro ⟨u, hu, e⟩
      rw [hpt, ← h.wait j t htj]
      rcases List.mem_cons.mp hu with rfl | hu
      · exact Or.inl e.symm
      · exact Or.inr ⟨u, hlj u hu, (hstill j u (hlj u hu)).2.trans e⟩
    constructor
    · intro hex'
      refine Or.inr ((Decidable.em (L.a.hipriTaskID j = L.a.mutexTaskID j)).imp_right fun hne => ?_)
      have hxe : (L.a.handOn j t l).1 = L.a.prio (L.a.mutexTaskID j) :=
        congrArg Prod.fst (if_neg hne)
      have hj := hex' j (hocc ▸ ho)
      rw [hself.1, hpt, hxe] at hj
      rcases hj with e | ⟨u, hu, e⟩
      · exact ⟨t, htj, Nat.le_of_eq ((h.wait j t htj).trans e.symm)⟩
      · exact ⟨u, (hstill j u hu).1, Nat.le_of_eq ((hstill j u hu).2.symm.trans e)⟩
    · intro hpm i hi
      by_cases hij : i = j
      · rw [hij, hself.1]
        refine hnew ?_
        by_cases hh : L.a.hipriTaskID j = L.a.mutexTaskID j
        · have hxe : L.a.handOn j t l = firstUrgent L.a.prio (L.a.prio t,
            L.a.hipriTaskID j) (t :: l) := if_pos hh
          rw [hxe]
          rcases firstUrgent_cases L.a.prio (L.a.prio t, L.a.hipriTaskID j) (t :: l)
            with e | ⟨h1, h2, -⟩
          · exact ⟨t, List.mem_cons_self, by rw [e]⟩
          · exact ⟨_, h1, h2.symm⟩
        · have hxe : (L.a.handOn j t l).1 = L.a.prio (L.a.mutexTaskID j) :=
            congrArg Prod.fst (if_neg hh)
          obtain hnil | hpm := hpm
          · rw [hw] at hnil
            exact nomatch hnil
          · obtain ⟨u, hu, hle⟩ := hpm.resolve_left hh
            refine ⟨u, hw ▸ hu, ?_⟩
            rw [hxe]
            exact Nat.le_antisymm hle (hL.urgent j ho u hu)
      · exact hrest i hij hi

/-! ## Steps -/

/-- A section that leaves a mutex does so promptly. -/
def Locks.PromptOp (L : Locks) : Call ⊕ Cont → Prop
  | .inl (.leaveMutex i) => L.Prompt i
  | _ => True

/-- What one section does to the bases, and when the owners stay as urgent as they have to be. -/
theorem Based.acts (h : Based L b) (hL : LocksOk cfg L) (hs : L.Acts cfg r op ret L')
    (ha : L.alive r) (h0 : r ≠ 0) :
    Based L' (L'.a.rebase b) ∧ (Modest L b → (Modest L' (L'.a.rebase b) ↔ L.PromptOp op)) := by
  have hL' := hL.acts hs ha h0
  cases hs with
  | enter j hj hout =>
    cases ho : L.a.mutexOccupied j with
    | true =>
      obtain ⟨h1, h2⟩ := h.joined hL hL' ho hout
      exact ⟨h1, fun hx => iff_of_true (h2 hx) trivial⟩
    | false =>
      obtain ⟨h1, h2⟩ := h.taken hL' ho hout
      exact ⟨h1, fun hx => iff_of_true (h2 hx) trivial⟩
  | leave j ho hown =>
    cases hw : L.waiters j with
    | nil =>
      obtain ⟨h1, -, h2⟩ := h.freed hL' hw
      exact ⟨h1, fun hx => iff_of_true (h2 hx) (Or.inl hw)⟩
    | cons t l =>
      obtain ⟨h1, -, h2⟩ := h.handed hL hL' ho hown hw
      exact ⟨h1, h2⟩
  | resume j =>
    obtain ⟨h1, h2⟩ := h.off hL' rfl rfl rfl rfl fun _ _ _ => rfl
    exact ⟨h1, fun hx => iff_of_true (h2.mpr hx) trivial⟩
  | other hv hne hlv hs =>
    have hpm : L.PromptOp op := by
      unfold Locks.PromptOp
      split
      · next i => exact Or.inl (hlv i rfl)
      · trivial
    -- the priority of a task outside of all lines
    have hout : ∀ {t p : Nat}, (∀ i, t ∉ L'.line i) → ∀ i, ∀ u ∈ L'.line i,
      update L.a.prio t p u = L.a.prio u :=
      fun {t p} ht i u hu => Function.update_of_ne (show u ≠ t from fun e => ht i (e ▸ hu)) ..
    have hkeep : Based L' (L'.a.rebase b) ∧ (Modest L' (L'.a.rebase b) ↔ Modest L b) := by
      cases hs with
      | same => exact h.off hL' rfl rfl rfl rfl fun _ _ _ => rfl
      | created t p hn hp =>
        exact h.off hL' rfl rfl rfl rfl (hout fun i hm => hn ((hL.mem i t).mp hm).1)
      | deleted t hd => exact h.off hL' rfl rfl rfl rfl fun _ _ _ => rfl
      | reprio t p hd hp => exact h.off hL' rfl rfl rfl rfl (hout fun i hm => hL.outside hd i hm)
    exact ⟨hkeep.1, fun hx => iff_of_true (hkeep.2.mpr hx) hpm⟩

end Bases

/-! ## Runs -/

/-- A run, with the priority that each task had when it was last outside of the mutexes. -/
inductive Watched (cfg : Env) (ok : Sys → List SQC → Act → Prop) (m0 : Sys) :
    Sys → (Nat → Nat) → Prop
  | start : Watched cfg ok m0 m0 m0.k.prio
  | step {m m' : Sys} {b : Nat → Nat} {rs : List SQC} {act : Act} (h : Watched cfg ok m0 m b)
      (hok : ok m rs act)
      (hs : m.step cfg rs act = some m') : Watched cfg ok m0 m' (m'.k.aside.lockPart.rebase b)

/-- The run that takes the given steps, with the bases. -/
def watch (cfg : Env) (ok : Sys → List SQC → Act → Prop) [∀ m rs a, Decidable (ok m rs a)] :
    Sys → (Nat → Nat) → List (List SQC × Act) → Option (Sys × (Nat → Nat))
  | m, b, [] => some (m, b)
  | m, b, (rs, a) :: l =>
    if ok m rs a then (m.step cfg rs a).bind fun m' =>
      watch cfg ok m' (m'.k.aside.lockPart.rebase b) l else none

theorem watch_watched {cfg : Env} {ok : Sys → List SQC → Act → Prop}
    [∀ m rs a, Decidable (ok m rs a)] {m0 : Sys}
    (l : List (List SQC × Act)) : ∀ {m m' : Sys} {b b' : Nat → Nat}, Watched cfg ok m0 m b →
      watch cfg ok m b l = some (m', b') → Watched cfg ok m0 m' b' := by
  induction l with
  | nil =>
    intro m m' b b' h e
    obtain ⟨rfl, rfl⟩ := Prod.mk.inj (Option.some.inj e)
    exact h
  | cons x l ih =>
    intro m m' b b' h e
    unfold watch at e
    split at e
    · next hok =>
      obtain ⟨m1, e1, e2⟩ := Option.bind_eq_some_iff.mp e
      exact ih (h.step hok e1) e2
    · exact nomatch e

/-- A run from the start, from what can be computed of its last state and the bases. -/
theorem watched {cfg : Env} {ok : Sys → List SQC → Act → Prop}
    [∀ m rs a, Decidable (ok m rs a)] {i : Idle}
    {us : List Setup} {l : List (List SQC × Act)} {α : Type} {f : Sys → (Nat → Nat) → α} {v : α}
    (h : (((boot cfg i us).bind fun m => watch cfg ok m m.k.prio l).map fun x => f x.1
      x.2) = some v) :
    ∃ m0 m b, boot cfg i us = some m0 ∧ Watched cfg ok m0 m b ∧ f m b = v := by
  obtain ⟨⟨m, b⟩, hm, hf⟩ := Option.map_eq_some_iff.mp h
  obtain ⟨m0, h0, hr⟩ := Option.bind_eq_some_iff.mp hm
  exact ⟨m0, m, b, h0, watch_watched l .start hr, hf⟩

/-- The tasks that wait for the mutex `i`. -/
def Kernel.mutexWaiters (cfg : Env) (k : Kernel) (i : Nat) : List Nat :=
  walk k.TCBnext cfg.tasks (k.waittingList i)

def Call.Prompt (cfg : Env) (k : Kernel) : Call → Prop
  | .leaveMutex i => k.mutexWaiters cfg i = [] ∨ k.hipriTaskID i = k.mutexTaskID i ∨
    ∃ t ∈ k.mutexWaiters cfg i, k.prio t ≤ k.prio (k.mutexTaskID i)
  | _ => True

instance (cfg : Env) (k : Kernel) (c : Call) : Decidable (c.Prompt cfg k) :=
  match c with
  | .leaveMutex _ => inferInstanceAs (Decidable (_ ∨ _ ∨ _))
  | .createTask .. | .delTask .. | .exitTask | .suspendTask .. | .awakeTask .. | .setPriority ..
  | .tickDelay ..
  | .resetDelay .. | .accept .. | .pend .. | .post .. | .createFlag .. | .delFlag .. | .setFlag ..
  | .clearFlag ..
  | .acceptFlag .. | .acceptFlags .. | .waitFlag .. | .waitFlags .. | .enterMutex .. =>
    inferInstanceAs (Decidable True)

/-- `hipriTaskID` of a mutex that is left names its owner, or somebody waits with the priority that
    is handed on. -/
def Prompt (cfg : Env) (m : Sys) : Act → Prop
  | .call c => c.Prompt cfg m.k
  | _ => True

instance (cfg : Env) (m : Sys) (a : Act) : Decidable (Prompt cfg m a) :=
  match a with
  | .call c => inferInstanceAs (Decidable (c.Prompt cfg m.k))
  | .resume | .tick => inferInstanceAs (Decidable True)

/-- Lawful runs in which the mutexes are left promptly. -/
def PromptStep (cfg : Env) (m : Sys) (rs : List SQC) (a : Act) : Prop :=
  Lawful cfg m rs a ∧ Prompt cfg m a

instance (cfg : Env) (m : Sys) (rs : List SQC) (a : Act) : Decidable (PromptStep cfg m rs a) :=
  inferInstanceAs (Decidable (_ ∧ _))

/-- The owner of every mutex has the most urgent of its base and the priorities of those that
    wait. -/
def Inherited (cfg : Env) (k : Kernel) (b : Nat → Nat) : Prop :=
  ∀ i, k.mutexOccupied i = true →
    IsLeast {p | p = b (k.mutexTaskID i) ∨ ∃ t ∈ k.mutexWaiters cfg i, k.prio t = p}
      (k.prio (k.mutexTaskID i))

section Runs

variable {cfg : Env} {ok : Sys → List SQC → Act → Prop} {i0 : Idle} {us : List Setup}
    {m0 m m' : Sys} {b : Nat → Nat}
  {g : Ghost} {r i : Nat} {F : List Nat}

theorem LockInv.waiters (h : LockInv cfg m g r F) (i : Nat) :
    m.k.mutexWaiters cfg i = g.tcb.lst (.mtx i) :=
  (h.stable.coh.rep.tcb.single (.mtx i)).walk_eq (h.stable.coh.rep.tcb_length (.mtx i))

theorem LockInv.prompt_iff (h : LockInv cfg m g r F) {act : Act} {op : Call ⊕ Cont}
    (hn : m.Next r act op) :
    (m.k.locks cfg.served g).PromptOp op ↔ Prompt cfg m act := by
  cases op with
  | inl c =>
    rw [hn.1]
    cases c with
    | leaveMutex i =>
      change _ ↔ (m.k.mutexWaiters cfg i = [] ∨ _ ∨ ∃ t ∈ m.k.mutexWaiters cfg i, _)
      rw [h.waiters]
      rfl
    | _ => exact Iff.rfl
  | inr c =>
    rw [hn.1]
    exact Iff.rfl

theorem LockInv.inherited_iff (h : LockInv cfg m g r F) (hb : Based (m.k.locks cfg.served g) b) :
    Inherited cfg m.k b ↔ Modest (m.k.locks cfg.served g) b := by
  refine forall_congr' fun i => forall_congr' fun hi => ?_
  rw [h.waiters]
  refine ⟨fun hx => ?_, fun hx => ⟨?_, ?_⟩⟩
  · obtain e | ⟨t, ht, e⟩ := hx.1
    · exact Or.inl e
    · exact Or.inr ⟨t, ht, e⟩
  · obtain e | ⟨t, ht, e⟩ := hx
    · exact Or.inl e
    · exact Or.inr ⟨t, ht, e⟩
  · rintro p (rfl | ⟨t, ht, rfl⟩)
    · exact hb.le i hi
    · exact h.locks.urgent i hi t ht

/-- What one step does to the bases. -/
theorem LockInv.rebased (h : LockInv cfg m g r F) {act : Act} {L' : Locks}
    (hb : Based (m.k.locks cfg.served g) b)
    (hs : Locks.Steps cfg.served r m m' act (m.k.locks cfg.served g) L') :
    Based L' (L'.a.rebase b) ∧
      (Modest (m.k.locks cfg.served g) b → (Modest L' (L'.a.rebase b) ↔ Prompt cfg m act)) := by
  cases hs with
  | tick ha hc hl e =>
    rw [e, ha]
    obtain ⟨h1, h2⟩ := hb.off h.locks rfl rfl rfl rfl fun _ _ _ => rfl
    exact ⟨h1, fun hx => iff_of_true (h2.mpr hx) trivial⟩
  | run h0 hn ha hl hc hr =>
    obtain ⟨h1, h2⟩ := hb.acts h.locks ha h.stable.picked.live h0
    exact ⟨h1, fun hx => (h2 hx).trans (h.prompt_iff hn)⟩

/-- The run begins with nobody in a mutex. -/
theorem Unheld.based {k : Kernel} (h : Unheld cfg.served k.aside.lockPart)
    (hL : LocksOk cfg.served (k.locks cfg.served g)) :
    Based (k.locks cfg.served g) k.prio ∧ Modest (k.locks cfg.served g) k.prio := by
  have hno : ∀ {i : Nat}, (k.locks cfg.served g).a.mutexOccupied i ≠ true := fun {i} ho =>
    absurd ((h.free i).symm.trans ho) Bool.false_ne_true
  refine ⟨⟨fun t _ => rfl, fun i t ht => absurd (hL.waiter ht).1 hno, fun i ho => absurd ho hno,
    fun i ho => absurd ho hno⟩, fun i ho => absurd ho hno⟩

/-- The bases along a run. -/
theorem Watched.based (hok : ∀ m rs act, ok m rs act → Lawful cfg m rs act)
    (hord : cfg.orderListScheduleEn = true) (hu : ∀ u ∈ us, u.Valid) (hb : boot cfg i0 us = some m0)
    (h : Watched cfg ok m0 m b) : ∃ g r F, LockInv cfg m g r F ∧ Based (m.k.locks cfg.served g) b ∧
      ((∀ m rs act, ok m rs act → Prompt cfg m act) → Modest (m.k.locks cfg.served g) b) := by
  induction h with
  | start =>
    obtain ⟨g, r, hi, -⟩ := booted_locks hord hu hb
    obtain ⟨h1, h2⟩ := (boot_unheld hu hb).based hi.locks
    exact ⟨g, r, [], hi, h1, fun _ => h2⟩
  | step _ h1 hs ih =>
    obtain ⟨g, r, F, hi, hbs, hx⟩ := ih
    obtain ⟨g', r', F', hi', hst⟩ := hi.step (hok _ _ _ h1) hs
    obtain ⟨h2, h3⟩ := hi.rebased hbs hst
    exact ⟨g', r', F', hi', h2, fun hp => (h3 (hx hp)).mpr (hp _ _ _ h1)⟩

/-- Tasks of the priorities 5, 7 and 8 wait, in this order, for one of priority 10. -/
def contended : List (List SQC × Act) :=
  [([], .call (.tickDelay 1)), ([], .call (.tickDelay 2)), ([], .call (.tickDelay 3)),
    ([], .call (.enterMutex 0)),
    ([], .tick), ([], .call (.enterMutex 0)), ([], .tick), ([], .tick), ([], .call (.tickDelay 1)),
    ([], .call (.enterMutex 0)), ([], .call (.enterMutex 0)), ([], .tick),
      ([], .call (.leaveMutex 0)), ([], .resume),
    ([], .call (.leaveMutex 0)), ([], .call (.tickDelay 5)), ([], .resume)]

/-- Four tasks and a mutex. -/
def contenders : List Setup := [.plainTask 5, .plainTask 7, .plainTask 8, .plainTask 10, .mutex]

/-- A task that has left a mutex. -/
theorem LockInv.leaves (hi : LockInv cfg m g r F) (hbs : Based (m.k.locks cfg.served g) b)
    {rs : List SQC} {act : Act}
    (hl : Lawful cfg m rs act) (hs : m.step cfg rs act = some m') {t : Nat}
    (hlog : m'.log = m.log ++ [⟨t, .inl (.leaveMutex i), some (0, .E_OK)⟩]) :
    (m'.k.prio t = b t ↔ m.k.waittingList i ≠ none ∨ m.k.prio t = b t) ∧
      m.k.mutexOccupied i = true ∧ m.k.mutexTaskID i = t := by
  obtain ⟨g', r', F', hi', hst⟩ := hi.step hl hs
  have hhead : m.k.waittingList i = (g.tcb.lst (.mtx i)).head? :=
    (hi.stable.coh.rep.tcb.single (.mtx i)).head
  cases hst with
  | tick _ _ hl' _ =>
    rw [hl'] at hlog
    exact absurd hlog (by simp)
  | @run op ret h0 hn ha hl' hc hr =>
    obtain e := List.append_cancel_left (hl'.symm.trans hlog)
    obtain ⟨rfl, rfl, rfl⟩ := Entry.mk.inj (List.cons.inj e).1
    have hL' := hi.locks.acts ha hi.stable.picked.live h0
    change (((m'.k.locks cfg.served g').a.prio r = b r) ↔ _) ∧ _
    generalize m'.k.locks cfg.served g' = L' at ha hL'
    cases ha with
    | leave j ho hown =>
      refine ⟨?_, ho, hown⟩
      cases hw : g.tcb.lst (.mtx i) with
      | nil =>
        obtain ⟨-, e, -⟩ := hbs.freed hL' hw
        rw [hhead, hw, e]
        exact ⟨Or.inr, fun e => e.resolve_left fun hn => hn rfl⟩
      | cons u l =>
        obtain ⟨-, e, -⟩ := hbs.handed hi.locks hL' ho hown hw
        rw [hhead, hw]
        exact iff_of_true e (Or.inl fun e => nomatch e)
    | other hv _ _ _ =>
      exact nomatch (if_pos rfl : (if i = i then some (Line.Visit.leave r) else none) =
        _).symm.trans (hv i r)

end Runs

end CoOS
