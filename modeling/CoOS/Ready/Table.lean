/-
  The priority table of the binary scheduler as a whole. `TableOk T cnt last` says that the
  table lists, in increasing order, the priorities `p` with `0 < cnt p`, with their numbers
  of tasks, that the entry of `p` names the task `last p`, and that the bits of
  `RdyTaskPriInfo` say which entries name a task.

  Proved: `ActiveTaskPri` and `DeleteTaskPri` keep this, with one task more or less
  (`activeTaskPri_spec`, `deleteTaskPri_spec`), across word boundaries (`prioRemap_spec`), and so
  does every sequence of them (`priTable_run`).
-/
import CoOS.Ready.Search

namespace CoOS

open Function (update)

/-! ## The bits -/

theorem setPrioSeqNumStatus_bit (s : Kernel) (k : Nat) (b : Bool) (i : Nat) :
    infoBit (setPrioSeqNumStatus s k b).RdyTaskPriInfo i =
      if i = k then b else infoBit s.RdyTaskPriInfo i := by
  have hk : k % 32 < 32 := Nat.mod_lt _ (by decide)
  have hi : i % 32 < 32 := Nat.mod_lt _ (by decide)
  have hmask : (2 ^ 32 - 1 - (1 <<< (k % 32))).testBit (i % 32) = !decide (k % 32 = i % 32) := by
    have h := Nat.testBit_two_pow_sub_succ (x := 2 ^ (k % 32)) (n := 32)
      (Nat.pow_lt_pow_right (by decide) hk) (i % 32)
    rw [Nat.one_shiftLeft, Nat.sub_sub, Nat.add_comm 1, h, Nat.testBit_two_pow]
    simp [hi]
  have hbit : (b.toNat <<< (k % 32)).testBit (i % 32) = (b && decide (k % 32 = i % 32)) := by
    cases b with
    | false => simp
    | true => rw [Bool.toNat_true, Nat.one_shiftLeft, Nat.testBit_two_pow, Bool.true_and]
  unfold infoBit setPrioSeqNumStatus
  by_cases hw : i / 32 = k / 32
  · simp only [hw, Function.update_self, Nat.testBit_or, Nat.testBit_and, hmask, hbit]
    by_cases heq : i = k
    · simp [heq]
    · have hne : k % 32 ≠ i % 32 := by omega
      simp [heq, hne]
  · have hne : i ≠ k := by intro h; exact hw (by rw [h])
    simp only [Function.update_of_ne hw, if_neg hne]

theorem mask_testBit (n b : Nat) :
    ((List.range n).foldl (fun t i => t ||| (1 <<< i)) 0).testBit b = decide (b < n) := by
  induction n with
  | zero => simp
  | succ n ih =>
    rw [List.range_succ, List.foldl_append, List.foldl_cons, List.foldl_nil, Nat.testBit_or, ih,
      Nat.one_shiftLeft, Nat.testBit_two_pow]
    by_cases h : n = b
    · simp [h]
    · have : (b < n + 1) ↔ b < n := by omega
      simp [h, this]

/-- The loop of `PrioRemap`, with word `j` under construction in `tmp`. -/
theorem prioRemapLoop_spec (rdy : Nat → Nat) (seqNum : Nat) :
    ∀ (n i j tmp : Nat) (info : Nat → Nat), seqNum ≤ i →
      (if i % 32 = 0 ∧ i ≠ seqNum then i = 32 * (j + 1) else i / 32 = j) →
      (∀ b, i ≤ 32 * j + b → tmp.testBit b = false) →
      (∀ k, k / 32 < j →
        infoBit (prioRemapLoop rdy seqNum n i j tmp info) k = infoBit info k) ∧
      (∀ k, k / 32 = j → k < i →
        infoBit (prioRemapLoop rdy seqNum n i j tmp info) k = tmp.testBit (k % 32)) ∧
      (∀ k, i ≤ k → k < i + n →
        infoBit (prioRemapLoop rdy seqNum n i j tmp info) k = decide (rdy k ≠ INVALID_ID)) := by
  intro n
  induction n with
  | zero =>
    intro i j tmp info _ _ _
    unfold prioRemapLoop
    refine ⟨fun k hk => ?_, fun k hk _ => ?_, fun k h1 h2 => by omega⟩
    · unfold infoBit
      rw [Function.update_of_ne (by omega)]
    · unfold infoBit
      rw [hk, Function.update_self]
  | succ n ih =>
    intro i j tmp info hi hj htmp
    -- the bit of entry `i`
    have hset : ∀ t b, (if rdy i ≠ INVALID_ID then t ||| (1 <<< (i % 32)) else t).testBit b =
        (t.testBit b || (decide (rdy i ≠ INVALID_ID) && decide (i % 32 = b))) := by
      intro t b
      by_cases hr : rdy i ≠ INVALID_ID
      · rw [if_pos hr, Nat.testBit_or, Nat.one_shiftLeft, Nat.testBit_two_pow]
        simp [hr]
      · rw [if_neg hr]
        simp [hr]
    unfold prioRemapLoop
    dsimp only
    by_cases hnew : i % 32 = 0 ∧ i ≠ seqNum
    · simp only [if_pos hnew] at hj ⊢
      have hstep : ∀ b, i + 1 ≤ 32 * (j + 1) + b →
          (if rdy i ≠ INVALID_ID then 0 ||| (1 <<< (i % 32)) else 0).testBit b = false := by
        intro b hb
        have hne : i % 32 ≠ b := by omega
        rw [hset]
        simp [hne]
      obtain ⟨h1, h2, h3⟩ := ih (i + 1) (j + 1) _ (update info j tmp) (by omega)
        (by rw [if_neg (by omega)]; omega) hstep
      refine ⟨fun k hk => ?_, fun k hk hki => ?_, fun k hk hkn => ?_⟩
      · rw [h1 k (by omega)]
        unfold infoBit
        rw [Function.update_of_ne (by omega)]
      · rw [h1 k (by omega)]
        unfold infoBit
        rw [hk, Function.update_self]
      · rcases Nat.lt_or_eq_of_le hk with hlt | heq
        · exact h3 k hlt (by omega)
        · subst heq
          rw [h2 i (by omega) (by omega), hset]
          simp
    · simp only [if_neg hnew] at hj ⊢
      have hstep : ∀ b, i + 1 ≤ 32 * j + b →
          (if rdy i ≠ INVALID_ID then tmp ||| (1 <<< (i % 32)) else tmp).testBit b = false := by
        intro b hb
        have hne : i % 32 ≠ b := by omega
        rw [hset, htmp b (by omega)]
        simp [hne]
      have hj' : if (i + 1) % 32 = 0 ∧ i + 1 ≠ seqNum then i + 1 = 32 * (j + 1)
          else (i + 1) / 32 = j := by
        split <;> omega
      obtain ⟨h1, h2, h3⟩ := ih (i + 1) j _ info (by omega) hj' hstep
      refine ⟨h1, fun k hk hki => ?_, fun k hk hkn => ?_⟩
      · have hne : i % 32 ≠ k % 32 := by omega
        rw [h2 k hk (by omega), hset]
        simp [hne]
      · rcases Nat.lt_or_eq_of_le hk with hlt | heq
        · exact h3 k hlt (by omega)
        · subst heq
          rw [h2 i (by omega) (by omega), hset, htmp (i % 32) (by omega)]
          simp

/-- **PrioRemap** keeps the bits before `seqNum` and sets the others from `RdyTaskPri`. -/
theorem prioRemap_spec (s : Kernel) {seqNum : Nat} (h : seqNum ≤ s.PriNum) :
    (∀ k, k < seqNum →
      infoBit (prioRemap s seqNum).RdyTaskPriInfo k = infoBit s.RdyTaskPriInfo k) ∧
    (∀ k, seqNum ≤ k → k < s.PriNum →
      infoBit (prioRemap s seqNum).RdyTaskPriInfo k = decide (s.RdyTaskPri k ≠ INVALID_ID)) := by
  unfold prioRemap
  dsimp only
  obtain ⟨h1, h2, h3⟩ := prioRemapLoop_spec s.RdyTaskPri seqNum (s.PriNum - seqNum) seqNum
    (seqNum / 32) ((List.range (seqNum % 32)).foldl (fun t i => t ||| (1 <<< i)) 0 &&&
      s.RdyTaskPriInfo (seqNum / 32)) s.RdyTaskPriInfo (le_refl _) (by rw [if_neg (by omega)])
    (by
      intro b hb
      have : ¬ b < seqNum % 32 := by omega
      rw [Nat.testBit_and, mask_testBit]
      simp [this])
  refine ⟨fun k hk => ?_, fun k hk hkn => h3 k hk (by omega)⟩
  by_cases hw : k / 32 < seqNum / 32
  · exact h1 k hw
  · have he : k / 32 = seqNum / 32 := by omega
    rw [h2 k he hk, Nat.testBit_and, mask_testBit]
    unfold infoBit
    rw [he, decide_eq_true (by omega), Bool.true_and]

theorem prioRemapLoop_only (rdy : Nat → Nat) (seqNum : Nat) {P : Nat → Prop}
    (hrdy : ∀ i, rdy i ≠ INVALID_ID → P i) : ∀ (n i j tmp : Nat) (info : Nat → Nat), seqNum ≤ i →
      (if i % 32 = 0 ∧ i ≠ seqNum then i = 32 * (j + 1) else i / 32 = j) →
      (∀ b, tmp.testBit b = true → P (32 * j + b)) → (∀ k, infoBit info k = true → P k) →
      ∀ k, infoBit (prioRemapLoop rdy seqNum n i j tmp info) k = true → P k := by
  have hword : ∀ {j tmp : Nat} {info : Nat → Nat}, (∀ b, tmp.testBit b = true → P (32 * j + b)) →
      (∀ k, infoBit info k = true → P k) → ∀ k, infoBit (update info j tmp) k = true → P k := by
    intro j tmp info htmp hinfo k hk
    unfold infoBit at hk
    by_cases hj : k / 32 = j
    · rw [hj, Function.update_self] at hk
      have := htmp _ hk
      rwa [show 32 * j + k % 32 = k by omega] at this
    · rw [Function.update_of_ne hj] at hk
      exact hinfo k hk
  intro n
  induction n with
  | zero => exact fun i j tmp info _ _ htmp hinfo => hword htmp hinfo
  | succ n ih =>
    intro i j tmp info hi hij htmp hinfo
    have hset : ∀ {j tmp : Nat}, i / 32 = j → (∀ b, tmp.testBit b = true → P (32 * j + b)) →
        ∀ b, (if rdy i ≠ INVALID_ID then tmp ||| (1 <<< (i % 32)) else tmp).testBit b = true →
          P (32 * j + b) := by
      intro j tmp hj ht b hb
      split at hb
      · next hr =>
        rw [Nat.testBit_or, Nat.one_shiftLeft, Nat.testBit_two_pow, Bool.or_eq_true,
          decide_eq_true_eq] at hb
        rcases hb with hb | hb
        · exact ht b hb
        · rw [← hb, show 32 * j + i % 32 = i by omega]
          exact hrdy i hr
      · exact ht b hb
    unfold prioRemapLoop
    dsimp only
    by_cases hnew : i % 32 = 0 ∧ i ≠ seqNum
    · simp only [if_pos hnew] at hij ⊢
      refine ih (i + 1) (j + 1) _ _ (by omega) (by split <;> omega) ?_ (hword htmp hinfo)
      exact hset (by omega) fun b hb => nomatch (Nat.zero_testBit b).symm.trans hb
    · simp only [if_neg hnew] at hij ⊢
      exact ih (i + 1) j _ _ (by omega) (by split <;> omega) (hset hij htmp) hinfo

/-- **PrioRemap** sets no bit of an entry without a task. -/
theorem prioRemap_only (s : Kernel) (seqNum i : Nat)
    (h : infoBit (prioRemap s seqNum).RdyTaskPriInfo i = true) :
    infoBit s.RdyTaskPriInfo i = true ∨ s.RdyTaskPri i ≠ INVALID_ID := by
  unfold prioRemap at h
  refine prioRemapLoop_only s.RdyTaskPri seqNum
    (P := fun i => infoBit s.RdyTaskPriInfo i = true ∨ s.RdyTaskPri i ≠ INVALID_ID)
    (fun i hi => Or.inr hi) _ _ _ _ _ (le_refl _) (by rw [if_neg (by omega)])
      (fun b hb => Or.inl ?_)
    (fun k hk => Or.inl hk) i h
  rw [Nat.testBit_and, mask_testBit, Bool.and_eq_true, decide_eq_true_eq] at hb
  unfold infoBit
  have hlt : b < 32 := by omega
  rw [show (32 * (seqNum / 32) + b) / 32 = seqNum / 32 by omega,
    show (32 * (seqNum / 32) + b) % 32 = b by omega]
  exact hb.2

/-! ## The table -/

/-- The five variables of the table. -/
structure PriTable where
  PriNum : Nat
  ActivePri : Nat → Nat
  TaskNumPerPri : Nat → Nat
  RdyTaskPri : Nat → Nat
  RdyTaskPriInfo : Nat → Nat

def Kernel.setPriTable (s : Kernel) (T : PriTable) : Kernel :=
  { s with
    PriNum := T.PriNum, ActivePri := T.ActivePri, TaskNumPerPri := T.TaskNumPerPri
    RdyTaskPri := T.RdyTaskPri, RdyTaskPriInfo := T.RdyTaskPriInfo }

/-- The table of `s` lists the priorities `p` with `0 < cnt p`, in order; `cnt p` is their
    number of tasks and `last p` the task that their entry names. -/
structure TableOk (s : Kernel) (cnt last : Nat → Nat) : Prop where
  inc : Increasing s.ActivePri s.PriNum
  num : ∀ i, i < s.PriNum → s.TaskNumPerPri i = cnt (s.ActivePri i)
  pos : ∀ i, i < s.PriNum → 0 < cnt (s.ActivePri i)
  mem : ∀ p, 0 < cnt p → ∃ i, i < s.PriNum ∧ s.ActivePri i = p
  rdy : ∀ i, i < s.PriNum → s.RdyTaskPri i = last (s.ActivePri i)
  bits : ∀ i, i < s.PriNum →
    infoBit s.RdyTaskPriInfo i = decide (s.RdyTaskPri i ≠ INVALID_ID)

theorem TableOk.congr {s s' : Kernel} {cnt last : Nat → Nat} (h : TableOk s cnt last)
    (h1 : s'.PriNum = s.PriNum) (h2 : s'.ActivePri = s.ActivePri)
    (h3 : s'.TaskNumPerPri = s.TaskNumPerPri) (h4 : s'.RdyTaskPri = s.RdyTaskPri)
    (h5 : s'.RdyTaskPriInfo = s.RdyTaskPriInfo) : TableOk s' cnt last := by
  obtain ⟨a1, a2, a3, a4, a5, a6⟩ := h
  refine ⟨?_, ?_, ?_, ?_, ?_, ?_⟩
  all_goals rw [h1]
  · rw [h2]; exact a1
  · rw [h2, h3]; exact a2
  · rw [h2]; exact a3
  · rw [h2]; exact a4
  · rw [h2, h4]; exact a5
  · rw [h4, h5]; exact a6

theorem shiftUp_of_le {a : Nat → Nat} {k n v i : Nat} (h : i ≤ n) :
    shiftUp a k n v i = if i < k then a i else if i = k then v else a (i - 1) := by
  unfold shiftUp
  by_cases h1 : i = k
  · simp [h1]
  · by_cases h2 : i < k
    · have : ¬ (k < i ∧ i ≤ n) := by omega
      simp [h1, h2, this]
    · have : k < i ∧ i ≤ n := by omega
      simp [h1, h2, this]

theorem shiftDown_of_lt {a : Nat → Nat} {k n i : Nat} (h : i < n - 1) :
    shiftDown a k n i = if i < k then a i else a (i + 1) := by
  unfold shiftDown
  by_cases h1 : i < k
  · have : ¬ (k ≤ i ∧ i < n - 1) := by omega
    simp [h1, this]
  · have : k ≤ i ∧ i < n - 1 := by omega
    simp [h1, this]

/-- Insertion keeps the order at exactly the place where the priority belongs. -/
theorem increasing_shiftUp {active : Nat → Nat} {k n p : Nat} (hk : k ≤ n) :
    Increasing (shiftUp active k n p) (n + 1) ↔
      Increasing active n ∧ (∀ j, j < k → active j < p) ∧ ∀ j, k ≤ j → j < n → p < active j := by
  have hget : ∀ i, i ≤ n → shiftUp active k n p i =
      if i < k then active i else if i = k then p else active (i - 1) :=
        fun i hi => shiftUp_of_le hi
  constructor
  · intro h
    have hlt : ∀ i j, i < j → j ≤ n → shiftUp active k n p i < shiftUp active k n p j :=
      fun i j hij hj => h i j hij (Nat.lt_succ_of_le hj)
    refine ⟨fun i j hij hj => ?_, fun j hj => ?_, fun j hj hjn => ?_⟩
    · have key :=
        hlt (if i < k then i else i + 1) (if j < k then j else j + 1) (by split <;> split <;> omega)
        (by split <;> omega)
      have hval : ∀ i, i < n → shiftUp active k n p (if i < k then i else i + 1) = active i := by
        intro i hi
        split
        · rw [hget i (by omega), if_pos ‹_›]
        · rw [hget (i + 1) (by omega), if_neg (by omega), if_neg (by omega), Nat.add_sub_cancel]
      rwa [hval i (by omega), hval j hj] at key
    · have key := hlt j k hj hk
      rwa [hget j (by omega), hget k hk, if_pos hj, if_neg (lt_irrefl k), if_pos rfl] at key
    · have key := hlt k (j + 1) (by omega) (by omega)
      rwa [hget k hk, hget (j + 1) (by omega), if_neg (lt_irrefl k), if_pos rfl, if_neg (by omega),
        if_neg (by omega), Nat.add_sub_cancel] at key
  · rintro ⟨hinc, hlo, hhi⟩ i j hij hj
    rw [hget i (by omega), hget j (by omega)]
    split
    · split
      · exact hinc i j hij (by omega)
      · split
        · exact hlo i (by omega)
        · rcases Nat.lt_or_eq_of_le (show i ≤ j - 1 by omega) with h1 | h1
          · exact hinc i (j - 1) h1 (by omega)
          · omega
    · split
      · rw [if_neg (by omega), if_neg (by omega)]
        exact hhi (j - 1) (by omega) (by omega)
      · rw [if_neg (by omega), if_neg (by omega)]
        exact hinc (i - 1) (j - 1) (by omega) (by omega)

theorem Increasing.inj {active : Nat → Nat} {n i j : Nat} (h : Increasing active n) (hi : i < n)
    (hj : j < n) (he : active i = active j) : i = j := by
  rcases Nat.lt_trichotomy i j with h1 | h1 | h1
  · have := h i j h1 hj
    omega
  · exact h1
  · have := h j i h1 hi
    omega

theorem Increasing.le {active : Nat → Nat} {n : Nat} (h : Increasing active n) :
    ∀ {i : Nat}, i < n → i ≤ active i
  | 0, _ => Nat.zero_le _
  | i + 1, hi => by
    have := Increasing.le h (show i < n by omega)
    have := h i (i + 1) (by omega) hi
    omega

section Table

variable {s : Kernel} {cnt last : Nat → Nat} {p : Nat}

/-- A priority in use is found at its index. -/
theorem TableOk.index (h : TableOk s cnt last) (hp : 0 < cnt p) :
    ∃ i, i < s.PriNum ∧ s.ActivePri i = p ∧ getPriSeqNum s p = some (true, i) := by
  obtain ⟨i, hi, ha⟩ := h.mem p hp
  exact ⟨i, hi, ha, getPriSeqNum_of_mem h.inc hi ha⟩

/-- A priority not in use is found absent. -/
theorem TableOk.absent (h : TableOk s cnt last) (hp : cnt p = 0) :
    ∃ i, getPriSeqNum s p = some (false, i) ∧ IsPlace s.ActivePri s.PriNum p (false, i) := by
  obtain ⟨⟨b, i⟩, h1, h2⟩ := getPriSeqNum_spec h.inc p
  cases b with
  | true =>
    have := h.pos i h2.1
    rw [h2.2] at this
    omega
  | false => exact ⟨i, h1, h2⟩

/-- One task more of a priority in use. -/
theorem activeTaskPri_old (h : TableOk s cnt last) (hp : 0 < cnt p) (hlt : cnt p + 1 < 256) :
    ∃ T, activeTaskPri s p = some (s.setPriTable T) ∧
      TableOk (s.setPriTable T) (update cnt p (cnt p + 1)) last := by
  obtain ⟨i, hi, ha, hg⟩ := h.index hp
  refine ⟨⟨s.PriNum, s.ActivePri, update s.TaskNumPerPri i (cnt p + 1), s.RdyTaskPri,
    s.RdyTaskPriInfo⟩, ?_, ⟨h.inc, ?_, ?_, ?_, h.rdy, h.bits⟩⟩
  · unfold activeTaskPri
    have hn : (s.TaskNumPerPri i + 1) % 256 = cnt p + 1 := by
      rw [h.num i hi, ha, Nat.mod_eq_of_lt hlt]
    simp only [hg, Option.bind_eq_bind, Option.bind_some, if_true, hn]
    rfl
  · intro j hj
    by_cases hji : j = i
    · subst hji
      simp [Kernel.setPriTable, ha]
    · have hne : s.ActivePri j ≠ p := by
        intro he
        exact hji (h.inc.inj hj hi (he.trans ha.symm))
      simpa [Kernel.setPriTable, Function.update_of_ne hji, Function.update_of_ne hne] using
        h.num j hj
  · intro j hj
    by_cases hjp : s.ActivePri j = p
    · simp [Kernel.setPriTable, hjp]
    · simpa [Kernel.setPriTable, Function.update_of_ne hjp] using h.pos j hj
  · intro q hq
    by_cases hqp : q = p
    · subst hqp
      exact h.mem q hp
    · simp only [Function.update_of_ne hqp] at hq
      exact h.mem q hq

/-- The first task of a new priority: every entry from its place on moves up. -/
theorem activeTaskPri_new (h : TableOk s cnt last) (hp : cnt p = 0) (hl : last p = INVALID_ID) :
    ∃ T, activeTaskPri s p = some (s.setPriTable T) ∧
      TableOk (s.setPriTable T) (update cnt p (cnt p + 1)) last := by
  obtain ⟨k, hg, hk, hlo, hhi⟩ := h.absent hp
  let s1 : Kernel := { s with
    ActivePri := shiftUp s.ActivePri k s.PriNum p
    TaskNumPerPri := shiftUp s.TaskNumPerPri k s.PriNum 1
    RdyTaskPri := shiftUp s.RdyTaskPri k s.PriNum INVALID_ID
    PriNum := s.PriNum + 1 }
  obtain ⟨b1, b2⟩ := prioRemap_spec s1 (show k ≤ s.PriNum + 1 by omega)
  have hact : ∀ i, i ≤ s.PriNum → s1.ActivePri i =
      if i < k then s.ActivePri i else if i = k then p else s.ActivePri (i - 1) :=
    fun i hi => shiftUp_of_le hi
  have hnum : ∀ i, i ≤ s.PriNum → s1.TaskNumPerPri i =
      if i < k then s.TaskNumPerPri i else if i = k then 1 else s.TaskNumPerPri (i - 1) :=
    fun i hi => shiftUp_of_le hi
  have hrdy : ∀ i, i ≤ s.PriNum → s1.RdyTaskPri i =
      if i < k then s.RdyTaskPri i else if i = k then INVALID_ID else s.RdyTaskPri (i - 1) :=
    fun i hi => shiftUp_of_le hi
  have hcnt : ∀ i, i < s.PriNum → update cnt p (cnt p + 1) (s.ActivePri i) =
      cnt (s.ActivePri i) := by
    intro i hi
    refine Function.update_of_ne ?_ _ _
    intro he
    have := h.pos i hi
    rw [he] at this
    omega
  refine ⟨⟨s1.PriNum, s1.ActivePri, s1.TaskNumPerPri, s1.RdyTaskPri,
    (prioRemap s1 k).RdyTaskPriInfo⟩, ?_, ⟨?_, ?_, ?_, ?_, ?_, ?_⟩⟩
  · unfold activeTaskPri
    simp only [hg, Option.bind_eq_bind, Option.bind_some, Bool.false_eq_true, if_false]
    rfl
  · exact (increasing_shiftUp hk).mpr ⟨h.inc, hlo, hhi⟩
  · intro i hi
    have hi : i < s.PriNum + 1 := hi
    show s1.TaskNumPerPri i = update cnt p (cnt p + 1) (s1.ActivePri i)
    rw [hact i (by omega), hnum i (by omega)]
    split
    · rw [hcnt i (by omega), h.num i (by omega)]
    · split
      · simp [hp]
      · rw [hcnt (i - 1) (by omega), h.num (i - 1) (by omega)]
  · intro i hi
    have hi : i < s.PriNum + 1 := hi
    show 0 < update cnt p (cnt p + 1) (s1.ActivePri i)
    rw [hact i (by omega)]
    split
    · rw [hcnt i (by omega)]
      exact h.pos i (by omega)
    · split
      · simp
      · rw [hcnt (i - 1) (by omega)]
        exact h.pos (i - 1) (by omega)
  · intro q hq
    by_cases hqp : q = p
    · refine ⟨k, show k < s.PriNum + 1 by omega, ?_⟩
      show s1.ActivePri k = q
      rw [hact k hk, if_neg (by omega), if_pos rfl, hqp]
    · simp only [Function.update_of_ne hqp] at hq
      obtain ⟨i, hi, ha⟩ := h.mem q hq
      by_cases hik : i < k
      · refine ⟨i, show i < s.PriNum + 1 by omega, ?_⟩
        show s1.ActivePri i = q
        rw [hact i (by omega), if_pos hik, ha]
      · refine ⟨i + 1, show i + 1 < s.PriNum + 1 by omega, ?_⟩
        show s1.ActivePri (i + 1) = q
        rw [hact (i + 1) (by omega), if_neg (by omega), if_neg (by omega), Nat.add_sub_cancel, ha]
  · intro i hi
    have hi : i < s.PriNum + 1 := hi
    show s1.RdyTaskPri i = last (s1.ActivePri i)
    rw [hact i (by omega), hrdy i (by omega)]
    split
    · exact h.rdy i (by omega)
    · split
      · exact hl.symm
      · exact h.rdy (i - 1) (by omega)
  · intro i hi
    have hi : i < s.PriNum + 1 := hi
    show infoBit (prioRemap s1 k).RdyTaskPriInfo i = decide (s1.RdyTaskPri i ≠ INVALID_ID)
    by_cases hik : i < k
    · rw [b1 i hik, hrdy i (by omega), if_pos hik]
      exact h.bits i (by omega)
    · exact b2 i (by omega) hi

/-- **ActiveTaskPri** counts one task more. -/
theorem activeTaskPri_spec (h : TableOk s cnt last) (hl : cnt p = 0 → last p = INVALID_ID)
    (hlt : cnt p + 1 < 256) :
    ∃ T, activeTaskPri s p = some (s.setPriTable T) ∧
      TableOk (s.setPriTable T) (update cnt p (cnt p + 1)) last := by
  rcases Nat.eq_zero_or_pos (cnt p) with h0 | h0
  · exact activeTaskPri_new h h0 (hl h0)
  · exact activeTaskPri_old h h0 hlt

/-- One task less of a priority that stays in use. -/
theorem deleteTaskPri_old (h : TableOk s cnt last) (hp : 1 < cnt p) (hlt : cnt p < 256) :
    ∃ T, deleteTaskPri s p = some (s.setPriTable T) ∧
      TableOk (s.setPriTable T) (update cnt p (cnt p - 1)) last := by
  obtain ⟨i, hi, ha, hg⟩ := h.index (show 0 < cnt p by omega)
  refine ⟨⟨s.PriNum, s.ActivePri, update s.TaskNumPerPri i (cnt p - 1), s.RdyTaskPri,
    s.RdyTaskPriInfo⟩, ?_, ⟨h.inc, ?_, ?_, ?_, h.rdy, h.bits⟩⟩
  · unfold deleteTaskPri
    have hn : (s.TaskNumPerPri i + 255) % 256 = cnt p - 1 := by
      rw [h.num i hi, ha]
      omega
    have hne : cnt p - 1 ≠ 0 := by omega
    simp only [hg, Option.bind_eq_bind, Option.bind_some, hn, Function.update_self, hne, if_false]
    rfl
  · intro j hj
    by_cases hji : j = i
    · subst hji
      simp [Kernel.setPriTable, ha]
    · have hne : s.ActivePri j ≠ p := by
        intro he
        exact hji (h.inc.inj hj hi (he.trans ha.symm))
      simpa [Kernel.setPriTable, Function.update_of_ne hji, Function.update_of_ne hne] using
        h.num j hj
  · intro j hj
    by_cases hjp : s.ActivePri j = p
    · show 0 < update cnt p (cnt p - 1) (s.ActivePri j)
      rw [hjp, Function.update_self]
      omega
    · simpa [Kernel.setPriTable, Function.update_of_ne hjp] using h.pos j hj
  · intro q hq
    by_cases hqp : q = p
    · subst hqp
      exact h.mem q (by omega)
    · simp only [Function.update_of_ne hqp] at hq
      exact h.mem q hq

/-- The last task of a priority: every entry after it moves down. -/
theorem deleteTaskPri_last (h : TableOk s cnt last) (hp : cnt p = 1) :
    ∃ T, deleteTaskPri s p = some (s.setPriTable T) ∧
      TableOk (s.setPriTable T) (update cnt p (cnt p - 1)) last := by
  obtain ⟨k, hk, hak, hg⟩ := h.index (show 0 < cnt p by omega)
  let s1 : Kernel := { s with
    ActivePri := shiftDown s.ActivePri k s.PriNum
    TaskNumPerPri := shiftDown (update s.TaskNumPerPri k 0) k s.PriNum
    RdyTaskPri := shiftDown s.RdyTaskPri k s.PriNum
    PriNum := s.PriNum - 1 }
  obtain ⟨b1, b2⟩ := prioRemap_spec s1 (show k ≤ s.PriNum - 1 by omega)
  -- the old index of entry `i`
  have hact : ∀ i, i < s.PriNum - 1 → s1.ActivePri i =
      if i < k then s.ActivePri i else s.ActivePri (i + 1) := fun i hi => shiftDown_of_lt hi
  have hrdy : ∀ i, i < s.PriNum - 1 → s1.RdyTaskPri i =
      if i < k then s.RdyTaskPri i else s.RdyTaskPri (i + 1) := fun i hi => shiftDown_of_lt hi
  have hnum : ∀ i, i < s.PriNum - 1 → s1.TaskNumPerPri i =
      if i < k then s.TaskNumPerPri i else s.TaskNumPerPri (i + 1) := by
    intro i hi
    show shiftDown (update s.TaskNumPerPri k 0) k s.PriNum i = _
    rw [shiftDown_of_lt hi]
    split
    · rw [Function.update_of_ne (by omega)]
    · rw [Function.update_of_ne (by omega)]
  have hcnt : ∀ i, i < s.PriNum → i ≠ k → update cnt p (cnt p - 1) (s.ActivePri i) =
      cnt (s.ActivePri i) := by
    intro i hi hik
    refine Function.update_of_ne ?_ _ _
    intro he
    exact hik (h.inc.inj hi hk (he.trans hak.symm))
  refine ⟨⟨s1.PriNum, s1.ActivePri, s1.TaskNumPerPri, s1.RdyTaskPri,
    (prioRemap s1 k).RdyTaskPriInfo⟩, ?_, ⟨?_, ?_, ?_, ?_, ?_, ?_⟩⟩
  · unfold deleteTaskPri
    have hn : (s.TaskNumPerPri k + 255) % 256 = 0 := by rw [h.num k hk, hak, hp]
    simp only [hg, Option.bind_eq_bind, Option.bind_some, hn, Function.update_self, if_true]
    rfl
  · intro i j hij hj
    have hj : j < s.PriNum - 1 := hj
    show s1.ActivePri i < s1.ActivePri j
    rw [hact i (by omega), hact j hj]
    split
    · split
      · exact h.inc i j hij (by omega)
      · exact h.inc i (j + 1) (by omega) (by omega)
    · rw [if_neg (by omega)]
      exact h.inc (i + 1) (j + 1) (by omega) (by omega)
  · intro i hi
    have hi : i < s.PriNum - 1 := hi
    show s1.TaskNumPerPri i = update cnt p (cnt p - 1) (s1.ActivePri i)
    rw [hact i hi, hnum i hi]
    split
    · rw [hcnt i (by omega) (by omega), h.num i (by omega)]
    · rw [hcnt (i + 1) (by omega) (by omega), h.num (i + 1) (by omega)]
  · intro i hi
    have hi : i < s.PriNum - 1 := hi
    show 0 < update cnt p (cnt p - 1) (s1.ActivePri i)
    rw [hact i hi]
    split
    · rw [hcnt i (by omega) (by omega)]
      exact h.pos i (by omega)
    · rw [hcnt (i + 1) (by omega) (by omega)]
      exact h.pos (i + 1) (by omega)
  · intro q hq
    have hqp : q ≠ p := by
      intro he
      rw [he, Function.update_self, hp] at hq
      omega
    simp only [Function.update_of_ne hqp] at hq
    obtain ⟨i, hi, ha⟩ := h.mem q hq
    have hik : i ≠ k := by
      intro he
      exact hqp (by rw [← ha, he, hak])
    by_cases hlt : i < k
    · refine ⟨i, show i < s.PriNum - 1 by omega, ?_⟩
      show s1.ActivePri i = q
      rw [hact i (by omega), if_pos hlt, ha]
    · refine ⟨i - 1, show i - 1 < s.PriNum - 1 by omega, ?_⟩
      show s1.ActivePri (i - 1) = q
      rw [hact (i - 1) (by omega), if_neg (by omega), show i - 1 + 1 = i by omega, ha]
  · intro i hi
    have hi : i < s.PriNum - 1 := hi
    show s1.RdyTaskPri i = last (s1.ActivePri i)
    rw [hact i hi, hrdy i hi]
    split
    · exact h.rdy i (by omega)
    · exact h.rdy (i + 1) (by omega)
  · intro i hi
    have hi : i < s.PriNum - 1 := hi
    show infoBit (prioRemap s1 k).RdyTaskPriInfo i = decide (s1.RdyTaskPri i ≠ INVALID_ID)
    by_cases hik : i < k
    · rw [b1 i hik, hrdy i hi, if_pos hik]
      exact h.bits i (by omega)
    · exact b2 i (by omega) hi

/-- **DeleteTaskPri** counts one task less. -/
theorem deleteTaskPri_spec (h : TableOk s cnt last) (hp : 0 < cnt p) (hlt : cnt p < 256) :
    ∃ T, deleteTaskPri s p = some (s.setPriTable T) ∧
      TableOk (s.setPriTable T) (update cnt p (cnt p - 1)) last := by
  rcases Nat.lt_or_eq_of_le (Nat.succ_le_of_lt hp) with h1 | h1
  · exact deleteTaskPri_old h h1 hlt
  · exact deleteTaskPri_last h h1.symm

end Table

/-! ## Sequences -/

/-- A call of `ActiveTaskPri` or `DeleteTaskPri`. -/
inductive PriOp where
  | active (pri : Nat)
  | delete (pri : Nat)
  deriving DecidableEq

def priStep (s : Kernel) : PriOp → Option Kernel
  | .active pri => activeTaskPri s pri
  | .delete pri => deleteTaskPri s pri

def priRun (s : Kernel) : List PriOp → Option Kernel
  | [] => some s
  | op :: ops => (priStep s op).bind fun s' => priRun s' ops

/-- Activations minus deletions, over what there was before. -/
def countOp (cnt : Nat → Nat) : PriOp → Nat → Nat
  | .active pri => update cnt pri (cnt pri + 1)
  | .delete pri => update cnt pri (cnt pri - 1)

def countOps (cnt : Nat → Nat) (ops : List PriOp) : Nat → Nat := ops.foldl countOp cnt

/-- What a call may rely on in a table of `size` entries. There is an entry for a new priority, and
    the count of an old one stays a byte: a table has at most 254 tasks. A priority is only deleted
    while it counts a task, and with its last one no task of its entry is ready. -/
def PriOp.Allowed (size : Nat) (s : Kernel) (cnt : Nat → Nat) : PriOp → Prop
  | .active pri => (cnt pri = 0 → s.PriNum < size) ∧ cnt pri < 255
  | .delete pri => 0 < cnt pri ∧
      (cnt pri = 1 → ∀ i, i < s.PriNum → s.ActivePri i = pri → s.RdyTaskPri i = INVALID_ID)

/-- Every call of the sequence may rely on it when it is made. -/
def AllAllowed (size : Nat) : Kernel → (Nat → Nat) → List PriOp → Prop
  | _, _, [] => True
  | s, cnt, op :: ops =>
    op.Allowed size s cnt ∧ ∀ s', priStep s op = some s' → AllAllowed size s' (countOp cnt op) ops

section Sequences

variable {size p : Nat} {s s' : Kernel} {cnt last : Nat → Nat} {op : PriOp}

/-- The empty table, whatever its arrays hold. -/
theorem TableOk.start (h : s.PriNum = 0) : TableOk s (fun _ => 0) fun _ => INVALID_ID :=
  ⟨fun _ _ _ hj => by omega, fun _ hi => by omega, fun _ hi => by omega,
    fun _ hp => absurd hp (lt_irrefl 0), fun _ hi => by omega, fun _ hi => by omega⟩

theorem activeTaskPri_num {b : Bool} {i : Nat} (hg : getPriSeqNum s p = some (b, i))
    (e : activeTaskPri s p = some s') : s'.PriNum = if b then s.PriNum else s.PriNum + 1 := by
  rw [activeTaskPri, hg] at e
  cases b <;> cases e <;> rfl

theorem deleteTaskPri_num (e : deleteTaskPri s p = some s') : s'.PriNum ≤ s.PriNum := by
  obtain ⟨⟨b, i⟩, -, e⟩ := Option.bind_eq_some_iff.mp e
  dsimp only at e
  split at e
  · cases e
    exact Nat.sub_le _ _
  · cases e
    exact le_refl _

theorem countOp_eq (hd : op = .delete p → 0 < cnt p) :
    countOp cnt op p + [op].count (.delete p) = cnt p + [op].count (.active p) := by
  rw [List.count_singleton, List.count_singleton]
  cases op with
  | active q =>
    by_cases hq : q = p
    · subst hq
      simp [countOp]
    · simp [countOp, Function.update_of_ne (Ne.symm hq), hq]
  | delete q =>
    by_cases hq : q = p
    · subst hq
      have := hd rfl
      simp [countOp]
      omega
    · simp [countOp, Function.update_of_ne (Ne.symm hq), hq]

/-- The invariant of a sequence: priorities out of use name no ready task, counts are bytes, and the
    table has at most `size` entries. -/
structure PriInv (size : Nat) (s : Kernel) (cnt last : Nat → Nat) : Prop where
  table : TableOk s cnt last
  idle : ∀ p, cnt p = 0 → last p = INVALID_ID
  byte : ∀ p, cnt p < 256
  room : s.PriNum ≤ size
  size_le : size ≤ 254

/-- One call. The tasks that the entries name are those of before: a new entry names none, and an
    entry that goes away named none. -/
theorem PriInv.step (h : PriInv size s cnt last) (ha : op.Allowed size s cnt) :
    ∃ s', priStep s op = some s' ∧ PriInv size s' (countOp cnt op) last := by
  cases op with
  | active pri =>
    obtain ⟨T, e, hT⟩ := activeTaskPri_spec h.table (h.idle pri) (Nat.succ_lt_succ ha.2)
    refine ⟨_, e, hT, fun p hp => ?_, fun p => ?_, ?_, h.size_le⟩
    · by_cases hq : p = pri
      · subst hq
        simp [countOp] at hp
      · exact h.idle p (by rwa [countOp, Function.update_of_ne hq] at hp)
    · by_cases hq : p = pri
      · subst hq
        rw [countOp, Function.update_self]
        exact Nat.succ_lt_succ ha.2
      · rw [countOp, Function.update_of_ne hq]
        exact h.byte p
    · rcases Nat.eq_zero_or_pos (cnt pri) with h0 | h0
      · obtain ⟨i, hg, -⟩ := h.table.absent h0
        rw [activeTaskPri_num hg e]
        exact ha.1 h0
      · obtain ⟨i, -, -, hg⟩ := h.table.index h0
        rw [activeTaskPri_num hg e]
        exact h.room
  | delete pri =>
    obtain ⟨T, e, hT⟩ := deleteTaskPri_spec h.table ha.1 (h.byte pri)
    refine ⟨_, e, hT, fun p hp => ?_, fun p => ?_, (deleteTaskPri_num e).trans h.room, h.size_le⟩
    · by_cases hq : p = pri
      · subst hq
        have h1 : cnt p = 1 := by
          have h0 := ha.1
          simp [countOp] at hp
          omega
        obtain ⟨i, hi, hai, -⟩ := h.table.index ha.1
        rw [← hai, ← h.table.rdy i hi]
        exact ha.2 h1 i hi hai
      · exact h.idle p (by rwa [countOp, Function.update_of_ne hq] at hp)
    · by_cases hq : p = pri
      · subst hq
        rw [countOp, Function.update_self]
        exact lt_of_le_of_lt (Nat.sub_le _ _) (h.byte p)
      · rw [countOp, Function.update_of_ne hq]
        exact h.byte p

/-- **The priority table.** After every sequence of calls the table lists, in increasing order, the
    priorities with more activations than deletions, with these numbers and with the ready task that
    each named before, and the bits say which entries name one. -/
theorem priTable_run (h : PriInv size s cnt last) (ops : List PriOp)
    (ha : AllAllowed size s cnt ops) :
    ∃ s', priRun s ops = some s' ∧ TableOk s' (countOps cnt ops) last ∧ s'.PriNum ≤ size ∧
      ∀ p, countOps cnt ops p + ops.count (.delete p) = cnt p + ops.count (.active p) := by
  induction ops generalizing s cnt with
  | nil => exact ⟨s, rfl, h.table, h.room, fun p => rfl⟩
  | cons op ops ih =>
    obtain ⟨s1, e1, h1⟩ := h.step ha.1
    obtain ⟨s', e2, hT, hroom, hcount⟩ := ih h1 (ha.2 s1 e1)
    refine ⟨s', by rw [priRun, e1]; exact e2, hT, hroom, fun p => ?_⟩
    have hone := @countOp_eq p cnt op fun e => by
      subst e
      exact ha.1.1
    have hrest := hcount p
    rw [← List.singleton_append, List.count_append, List.count_append]
    show countOps (countOp cnt op) ops p + _ = _
    omega

theorem priTable_run_two : ∃ s', priRun Kernel.zero [.active 5, .active 5, .delete 5] = some s' ∧
    TableOk s' (countOps (fun _ => 0) [.active 5, .active 5, .delete 5]) fun _ => INVALID_ID := by
  have h : PriInv 4 Kernel.zero (fun _ => 0) fun _ => INVALID_ID :=
    ⟨TableOk.start rfl, fun _ _ => rfl, fun _ => by decide, by decide, by decide⟩
  have ha : AllAllowed 4 Kernel.zero (fun _ => 0) [.active 5, .active 5, .delete 5] :=
    ⟨⟨fun _ => by decide, by decide⟩, fun _ _ => ⟨⟨fun h0 => absurd h0 (by decide), by decide⟩,
      fun _ _ => ⟨⟨by decide, fun h1 => absurd h1 (by decide)⟩, fun _ _ => trivial⟩⟩⟩
  obtain ⟨s', e, hT, -⟩ := priTable_run h _ ha
  exact ⟨s', e, hT⟩

end Sequences

end CoOS
