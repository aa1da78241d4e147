/-
  The two searches of the binary scheduler: `GetPriSeqNum`, a binary search in the table of
  active priorities, and `GetRdyPriSeqNum`, a search for the nearest set bit at or below a
  position, nibble by nibble.

  Proved: on a strictly increasing table `getPriSeqNum` ends and returns the index of the
  priority, or where it belongs (`getPriSeqNum_spec`); on any bitmap `getRdyPriSeqNum`
  returns the largest index at or below its argument whose bit is set, or `INVALID_ID`
  (`getRdyPriSeqNum_spec`).
-/
import CoOS.Kernel.PrioTable
import Mathlib.Data.Nat.Bitwise

namespace CoOS

open Function (update)

/-! ## The table of priorities -/

/-- The first `n` entries are strictly increasing. -/
def Increasing (active : Nat → Nat) (n : Nat) : Prop :=
  ∀ i j, i < j → j < n → active i < active j

/-- `i` is where `pri` stands in the first `n` entries, or where it belongs. -/
def IsPlace (active : Nat → Nat) (n pri : Nat) : Bool × Nat → Prop
  | (true, i) => i < n ∧ active i = pri
  | (false, i) => i ≤ n ∧ (∀ j, j < i → active j < pri) ∧ ∀ j, i ≤ j → j < n → pri < active j

theorem getPriSeqNumLoop_spec {active : Nat → Nat} {n pri : Nat} (hinc : Increasing active n) :
    ∀ (fuel num seqNum : Nat), num ≤ seqNum → seqNum ≤ n → seqNum - num < fuel →
      (∀ j, j < num → active j < pri) → (∀ j, seqNum ≤ j → j < n → pri < active j) →
      ∃ r, getPriSeqNumLoop active pri fuel num seqNum = some r ∧ IsPlace active n pri r := by
  intro fuel
  induction fuel with
  | zero => intro num seqNum _ _ hf; omega
  | succ fuel ih =>
    intro num seqNum hle hn hf hlo hhi
    unfold getPriSeqNumLoop
    by_cases heq : num = seqNum
    · rw [if_pos heq]
      subst heq
      exact ⟨_, rfl, hn, hlo, hhi⟩
    · rw [if_neg heq]
      have hmid : (num + seqNum) / 2 < seqNum := by omega
      by_cases hm : pri = active ((num + seqNum) / 2)
      · rw [if_pos hm]
        exact ⟨_, rfl, by omega, hm.symm⟩
      · rw [if_neg hm]
        by_cases hlt : pri < active ((num + seqNum) / 2)
        · rw [if_pos hlt]
          refine ih num _ (by omega) (by omega) (by omega) hlo fun j hj hjn => ?_
          rcases Nat.lt_or_eq_of_le hj with hj | hj
          · exact hlt.trans (hinc _ _ hj hjn)
          · rw [← hj]
            exact hlt
        · rw [if_neg hlt]
          refine ih _ seqNum (by omega) hn (by omega) (fun j hj => ?_) hhi
          have hgt : active ((num + seqNum) / 2) < pri := by omega
          rcases Nat.lt_or_eq_of_le (Nat.lt_succ_iff.mp hj) with hj | hj
          · exact (hinc _ _ hj (by omega)).trans hgt
          · rw [hj]
            exact hgt

/-- **GetPriSeqNum** ends and finds the place of the priority. -/
theorem getPriSeqNum_spec {s : Kernel} (hinc : Increasing s.ActivePri s.PriNum) (pri : Nat) :
    ∃ r, getPriSeqNum s pri = some r ∧ IsPlace s.ActivePri s.PriNum pri r := by
  unfold getPriSeqNum
  exact getPriSeqNumLoop_spec hinc _ _ _ (Nat.zero_le _) (le_refl _) (by omega)
    (by intro j hj; omega) (by intro j h1 h2; omega)

/-- The place of a priority is unique. -/
theorem isPlace_true {active : Nat → Nat} {n pri i : Nat} {r : Bool × Nat}
    (hinc : Increasing active n) (hi : i < n) (ha : active i = pri)
    (hr : IsPlace active n pri r) : r = (true, i) := by
  obtain ⟨b, k⟩ := r
  cases b with
  | true =>
    obtain ⟨hk, hak⟩ := hr
    rcases Nat.lt_trichotomy k i with h | h | h
    · have := hinc _ _ h hi
      omega
    · rw [h]
    · have := hinc _ _ h hk
      omega
  | false =>
    obtain ⟨hk, hlo, hhi⟩ := hr
    rcases Nat.lt_or_ge i k with h | h
    · have := hlo _ h
      omega
    · have := hhi _ h hi
      omega

theorem getPriSeqNum_of_mem {s : Kernel} (hinc : Increasing s.ActivePri s.PriNum) {pri i : Nat}
    (hi : i < s.PriNum) (ha : s.ActivePri i = pri) : getPriSeqNum s pri = some (true, i) := by
  obtain ⟨r, h1, h2⟩ := getPriSeqNum_spec hinc pri
  rw [h1, isPlace_true hinc hi ha h2]

/-! ## The nearest set bit -/

/-- The largest `c` from `lo` to below `hi` with `p c`, or none. -/
def Nearest (p : Nat → Bool) (lo hi : Nat) : Option Nat → Prop
  | some c => lo ≤ c ∧ c < hi ∧ p c = true ∧ ∀ d, c < d → d < hi → p d = false
  | none => ∀ d, lo ≤ d → d < hi → p d = false

/-- A search in two parts, the upper one first. -/
theorem Nearest.or {p : Nat → Bool} {lo mid hi : Nat} {r r' : Option Nat}
    (h : Nearest p mid hi r) (h' : Nearest p lo mid r') (h1 : lo ≤ mid) (h2 : mid ≤ hi) :
    Nearest p lo hi (r.or r') := by
  cases r with
  | some c =>
    obtain ⟨e1, e2, e3, e4⟩ := h
    exact ⟨by omega, e2, e3, e4⟩
  | none =>
    rw [Option.none_or]
    have hup : ∀ d, mid ≤ d → d < hi → p d = false := h
    cases r' with
    | some c =>
      obtain ⟨e1, e2, e3, e4⟩ := h'
      refine ⟨e1, by omega, e3, fun d hd hdj => ?_⟩
      rcases Nat.lt_or_ge d mid with hm | hm
      · exact e4 d hd hm
      · exact hup d hm hdj
    | none =>
      intro d hd hdj
      rcases Nat.lt_or_ge d mid with hm | hm
      · exact h' d hd hm
      · exact hup d hm hdj

theorem scanDown_spec (tmp lo : Nat) :
    ∀ j, Nearest tmp.testBit lo (j + 1) (scanDown tmp lo j) := by
  intro j
  induction j with
  | zero =>
    unfold scanDown
    split
    · rename_i h
      exact ⟨by omega, by omega, h.2, by intro d h1 h2; omega⟩
    · rename_i h
      intro d h1 h2
      obtain rfl : d = 0 := by omega
      have hlo : lo = 0 := by omega
      simpa [hlo] using h
  | succ j ih =>
    unfold scanDown
    split
    · intro d h1 h2
      omega
    · split
      · rename_i h
        exact ⟨by omega, by omega, h, by intro d h1 h2; omega⟩
      · rename_i h0 h
        have hj : Nearest tmp.testBit (j + 1) (j + 1 + 1) none := by
          intro d h1 h2
          obtain rfl : d = j + 1 := by omega
          simpa using h
        have key := hj.or ih (by omega) (by omega)
        rwa [Option.none_or] at key

/-- The bits that a mask shifted to position `k` tests. -/
theorem testBit_of_mask {tmp m k : Nat} (h : tmp &&& (m <<< k) = 0) {b : Nat}
    (hb : m.testBit b = true) : tmp.testBit (k + b) = false := by
  have h1 : (tmp &&& (m <<< k)).testBit (k + b) = false := by rw [h]; exact Nat.zero_testBit _
  rw [Nat.testBit_and, Nat.testBit_shiftLeft] at h1
  simpa [hb] using h1

/-- `j | 3` and `j & 4`, by the last three bits. -/
theorem or_three (j : Nat) : j ||| 3 = j / 4 * 4 + 3 := by
  have key := Nat.two_pow_add_eq_or_of_lt (i := 2) (b := 3) (by decide) (j / 4)
  have hj : 2 ^ 2 * (j / 4) ||| j % 4 = j := by
    rw [← Nat.two_pow_add_eq_or_of_lt (i := 2) (b := j % 4) (by omega) (j / 4)]
    omega
  have h3 : (j % 4) ||| 3 = 3 :=
    (by decide : ∀ r, r < 4 → r ||| 3 = 3) _ (Nat.mod_lt _ (by decide))
  calc j ||| 3 = (2 ^ 2 * (j / 4) ||| j % 4) ||| 3 := by rw [hj]
    _ = 2 ^ 2 * (j / 4) + 3 := by rw [Nat.or_assoc, h3, key]
    _ = j / 4 * 4 + 3 := by omega

theorem and_four (j : Nat) : j &&& 4 = 4 ↔ j / 4 % 2 = 1 := by
  have h : j.testBit 2 = decide (j / 4 % 2 = 1) := by
    rw [Nat.testBit_eq_decide_div_mod_eq]
  constructor
  · intro h4
    have : (j &&& 4).testBit 2 = true := by rw [h4]; rfl
    rw [Nat.testBit_and, h, Bool.and_eq_true, decide_eq_true_eq] at this
    exact this.1
  · intro h4
    have hb : j.testBit 2 = true := by rw [h]; simpa using h4
    have e : (4 : Nat) = 2 ^ 2 := rfl
    rw [e, Nat.and_two_pow, hb]
    rfl

/-- One byte, from bit `j` down. -/
theorem scanByte_spec {tmp num j : Nat} (h1 : num * 8 ≤ j) (h2 : j < num * 8 + 8) :
    Nearest tmp.testBit (num * 8) (j + 1) (scanByte tmp num j) := by
  unfold scanByte
  split
  · rename_i h0
    intro d hd hdj
    obtain ⟨b, rfl⟩ := Nat.exists_eq_add_of_le hd
    exact testBit_of_mask h0 ((by decide : ∀ b, b < 8 → (0xff : Nat).testBit b = true) b (by omega))
  · -- the high nibble, which is empty when `j` is in the low one
    have hhigh : Nearest tmp.testBit (num * 8 + 4) (j + 1)
        (if tmp &&& (0xf0 <<< (num * 8)) = 0 then none else scanDown tmp (num * 8 + 4) j) := by
      split
      · rename_i h0
        intro d hd hdj
        obtain ⟨b, rfl⟩ := Nat.exists_eq_add_of_le hd
        have hb := (by decide : ∀ b, b < 4 → (0xf0 : Nat).testBit (4 + b) = true) b (by omega)
        have := testBit_of_mask h0 hb
        rwa [← Nat.add_assoc] at this
      · exact scanDown_spec tmp _ j
    generalize (if tmp &&& (0xf0 <<< (num * 8)) = 0 then none
      else scanDown tmp (num * 8 + 4) j) = high at hhigh ⊢
    cases high with
    | some c =>
      obtain ⟨e1, e2, e3, e4⟩ := hhigh
      exact ⟨by omega, e2, e3, e4⟩
    | none =>
      show Nearest tmp.testBit (num * 8) (j + 1)
        (scanDown tmp (num * 8) (if j &&& 4 = 4 then (j ||| 3) - 4 else j))
      by_cases hj : num * 8 + 4 ≤ j
      · have hlow := scanDown_spec tmp (num * 8) (num * 8 + 3)
        have h4 : j &&& 4 = 4 := (and_four j).mpr (by omega)
        have h3 : (j ||| 3) - 4 = num * 8 + 3 := by rw [or_three]; omega
        rw [if_pos h4, h3]
        have key := hhigh.or hlow (by omega) (by omega)
        rwa [Option.none_or] at key
      · have h4 : ¬ j &&& 4 = 4 := fun h => by have := (and_four j).mp h; omega
        rw [if_neg h4]
        exact scanDown_spec tmp _ j

/-- One word, from bit `j` of byte `num` down. -/
theorem scanWord_spec (tmp : Nat) :
    ∀ num j, num * 8 ≤ j → j < num * 8 + 8 →
    Nearest tmp.testBit 0 (j + 1) (scanWord tmp num j) := by
  intro num
  induction num with
  | zero =>
    intro j h1 h2
    unfold scanWord
    have := @scanByte_spec tmp 0 j (by omega) h2
    rwa [Nat.zero_mul] at this
  | succ num ih =>
    intro j h1 h2
    have hbyte := @scanByte_spec tmp (num + 1) j h1 h2
    have hrest := ih ((num + 1) * 8 - 1) (by omega) (by omega)
    rw [show (num + 1) * 8 - 1 + 1 = (num + 1) * 8 by omega] at hrest
    have key := hbyte.or hrest (Nat.zero_le _) (by omega)
    unfold scanWord
    cases hb : scanByte tmp (num + 1) j with
    | some c => rwa [hb, Option.some_or] at key
    | none => rwa [hb, Option.none_or] at key

/-- Bit `k` of the word array. -/
def infoBit (info : Nat → Nat) (k : Nat) : Bool := (info (k / 32)).testBit (k % 32)

/-- The search as a result: the index found, or `INVALID_ID`. -/
theorem scanInfo_spec (info : Nat → Nat) :
    ∀ i j, j < 32 → ∃ r, Nearest (infoBit info) 0 (32 * i + j + 1) r ∧
      scanInfo info i j = r.getD INVALID_ID := by
  -- the bits of word `i` in the array
  have hword : ∀ i c, c < 32 → infoBit info (32 * i + c) = (info i).testBit c := by
    intro i c hc
    unfold infoBit
    rw [show (32 * i + c) / 32 = i by omega, show (32 * i + c) % 32 = c by omega]
  have hone : ∀ i j, j < 32 → Nearest (infoBit info) (32 * i) (32 * i + j + 1)
      ((if info i ≠ 0 then scanWord (info i) (j / 8) j else none).map (32 * i + ·)) := by
    intro i j hj
    have hw : Nearest (info i).testBit 0 (j + 1)
        (if info i ≠ 0 then scanWord (info i) (j / 8) j else none) := by
      split
      · exact scanWord_spec (info i) (j / 8) j (by omega) (by omega)
      · rename_i h0
        intro d _ _
        have h0 : info i = 0 := by simpa using h0
        rw [h0, Nat.zero_testBit]
    cases hr : (if info i ≠ 0 then scanWord (info i) (j / 8) j else none) with
    | none =>
      rw [hr] at hw
      intro d h1 h2
      obtain ⟨c, rfl⟩ := Nat.exists_eq_add_of_le h1
      rw [hword i c (by omega)]
      exact hw c (Nat.zero_le _) (by omega)
    | some c =>
      rw [hr] at hw
      obtain ⟨-, e2, e3, e4⟩ := hw
      rw [Option.map_some]
      refine ⟨by omega, by omega, by rw [hword i c (by omega)]; exact e3, fun d h1 h2 => ?_⟩
      obtain ⟨b, rfl⟩ := Nat.exists_eq_add_of_le (show 32 * i ≤ d by omega)
      rw [hword i b (by omega)]
      exact e4 b (by omega) (by omega)
  intro i
  induction i with
  | zero =>
    intro j hj
    refine ⟨_, hone 0 j hj, ?_⟩
    unfold scanInfo
    cases (if info 0 ≠ 0 then scanWord (info 0) (j / 8) j else none) <;> simp
  | succ i ih =>
    intro j hj
    obtain ⟨r, hr1, hr2⟩ := ih 31 (by decide)
    have key :=
      (hone (i + 1) j hj).or (by rwa [show 32 * i + 31 + 1 = 32 * (i + 1) by omega] at hr1)
      (Nat.zero_le _) (by omega)
    refine ⟨_, key, ?_⟩
    unfold scanInfo
    cases (if info (i + 1) ≠ 0 then scanWord (info (i + 1)) (j / 8) j else none) with
    | some c => simp
    | none => simpa using hr2

/-- **GetRdyPriSeqNum** returns the nearest ready entry at or before `seqNum`. -/
theorem getRdyPriSeqNum_spec (s : Kernel) (seqNum : Nat) :
    ∃ r, Nearest (infoBit s.RdyTaskPriInfo) 0 (seqNum + 1) r ∧
      getRdyPriSeqNum s seqNum = r.getD INVALID_ID := by
  obtain ⟨r, h1, h2⟩ := scanInfo_spec s.RdyTaskPriInfo (seqNum / 32) (seqNum % 32)
    (Nat.mod_lt _ (by decide))
  rw [show 32 * (seqNum / 32) + seqNum % 32 = seqNum by omega] at h1
  exact ⟨r, h1, h2⟩

end CoOS
