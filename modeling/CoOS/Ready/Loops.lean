/-
  The searches of the binary scheduler as the processor runs them: the counters are `U8`, the loops
  end by their own tests and not by the structure of the data, and the entries that are read are
  recorded.

  Proved: `priority_search` for `GetPriSeqNum` on every sorted table, `nearest_ready` for
  `GetRdyPriSeqNum` on every bitmap. Both loops end, no counter that matters wraps, and they return
  what `getPriSeqNum` and `getRdyPriSeqNum` return.
-/
import CoOS.Ready.Table
import Mathlib.Order.Bounds.Basic

namespace CoOS

/-! ## The loops -/

/-- `GetPriSeqNum`, with the entries of `ActivePri` that it reads. -/
def priSearch (active : Nat → Nat) (pri : Nat) : Nat → Nat → Nat → Option ((Bool × Nat) × List Nat)
  | 0, _, _ => none
  | fuel + 1, num, seqNum =>
    if num = seqNum then some ((false, num), [])
    else
      let tmpNum := num
      let num := (num + seqNum) / 2 % 256
      if pri = active num then some ((true, num), [num])
      else if pri < active num then (priSearch active pri fuel tmpNum num).map fun r =>
        (r.1, num :: r.2)
      else (priSearch active pri fuel ((num + 1) % 256) seqNum).map fun r => (r.1, num :: r.2)

/-- The inner loop of `GetRdyPriSeqNum`, `do … while((num--)!=0)`: `num` and `j` wrap below zero. -/
def rdyBytes (tmp : Nat) : Nat → Nat → Nat → Option (Option Nat)
  | 0, _, _ => none
  | fuel + 1, num, j =>
    match scanByte tmp num j with
    | some cnt => some (some cnt)
    | none =>
      let j := (num * 8 + 255) % 256
      if num ≠ 0 then rdyBytes tmp fuel ((num + 255) % 256) j else some none

/-- The outer loop, `do … while((i--)!=0)`. -/
def rdyWords (info : Nat → Nat) : Nat → Nat → Nat → Option Nat
  | 0, _, _ => none
  | fuel + 1, i, j =>
    match if info i ≠ 0 then rdyBytes (info i) 4 (j / 8) j else some none with
    | none => none
    | some (some cnt) => some ((32 * i + cnt) % 256)
    | some none => if i ≠ 0 then rdyWords info fuel ((i + 255) % 256) 31 else some INVALID_ID

/-! ## The search of a priority -/

section Search

variable {active : Nat → Nat} {n pri : Nat}

/-- The machine search follows the other one, and reads only entries of the table. -/
theorem priSearch_eq (hn : n ≤ 254) :
    ∀ (fuel num seqNum : Nat) (r : Bool × Nat), num ≤ seqNum → seqNum ≤ n →
      getPriSeqNumLoop active pri fuel num seqNum = some r →
      ∃ l, priSearch active pri fuel num seqNum = some (r, l) ∧ ∀ i ∈ l, i < n := by
  intro fuel
  induction fuel with
  | zero => intro _ _ _ _ _ e; cases e
  | succ fuel ih =>
    intro num seqNum r h1 h2 e
    unfold getPriSeqNumLoop at e
    unfold priSearch
    by_cases heq : num = seqNum
    · rw [if_pos heq] at e ⊢
      cases e
      exact ⟨[], rfl, by simp⟩
    · have hmid : (num + seqNum) / 2 < seqNum := by omega
      have hmod : (num + seqNum) / 2 % 256 = (num + seqNum) / 2 := Nat.mod_eq_of_lt (by omega)
      have hsucc : ((num + seqNum) / 2 + 1) % 256 = (num + seqNum) / 2 + 1 :=
        Nat.mod_eq_of_lt (by omega)
      rw [if_neg heq] at e ⊢
      dsimp only
      rw [hmod, hsucc]
      by_cases hm : pri = active ((num + seqNum) / 2)
      · rw [if_pos hm] at e ⊢
        cases e
        exact ⟨_, rfl, fun i hi => by rw [List.mem_singleton.mp hi]; omega⟩
      · rw [if_neg hm] at e ⊢
        have hcons : ∀ {l : List Nat}, (∀ i ∈ l, i < n) → ∀ i ∈ (num + seqNum) / 2 :: l, i < n := by
          intro l hl i hi
          rcases List.mem_cons.mp hi with rfl | hi
          · omega
          · exact hl i hi
        by_cases hlt : pri < active ((num + seqNum) / 2)
        · rw [if_pos hlt] at e ⊢
          obtain ⟨l, e1, hl⟩ := ih num ((num + seqNum) / 2) r (by omega) (by omega) e
          exact ⟨_, by rw [e1]; rfl, hcons hl⟩
        · rw [if_neg hlt] at e ⊢
          obtain ⟨l, e1, hl⟩ := ih ((num + seqNum) / 2 + 1) seqNum r (by omega) h2 e
          exact ⟨_, by rw [e1]; rfl, hcons hl⟩

/-- **GetPriSeqNum.** On a sorted table of at most 254 entries the search ends without reading
    beside the table. It returns `Co_TRUE` exactly for the priorities of the table, with their
    index, and for the others the only index at which they can be inserted. -/
theorem priority_search {s : Kernel} (hinc : Increasing s.ActivePri s.PriNum) (hn : s.PriNum ≤ 254)
    (pri : Nat) :
    ∃ found i l, priSearch s.ActivePri pri (s.PriNum + 1) 0 s.PriNum = some ((found, i), l) ∧
      getPriSeqNum s pri = some (found, i) ∧ (∀ k ∈ l, k < s.PriNum) ∧
      (found = true ↔ ∃ k, k < s.PriNum ∧ s.ActivePri k = pri) ∧
      (found = true → i < s.PriNum ∧ s.ActivePri i = pri) ∧
      (found = false → i ≤ s.PriNum ∧
        Increasing (shiftUp s.ActivePri i s.PriNum pri) (s.PriNum + 1) ∧
        ∀ k, k ≤ s.PriNum → Increasing (shiftUp s.ActivePri k s.PriNum pri) (s.PriNum + 1) →
        k = i) := by
  obtain ⟨⟨found, i⟩, e, hplace⟩ := getPriSeqNum_spec hinc pri
  obtain ⟨l, e1, hl⟩ := priSearch_eq hn _ _ _ _ (Nat.zero_le _) (le_refl _) e
  refine ⟨found, i, l, e1, e, hl, ?_⟩
  cases found with
  | true => exact ⟨⟨fun _ => ⟨i, hplace⟩, fun _ => rfl⟩, fun _ => hplace, (fun h => nomatch h)⟩
  | false =>
    obtain ⟨hi, hlo, hhi⟩ := hplace
    refine ⟨⟨(fun h => nomatch h), ?_⟩, (fun h => nomatch h), fun _ => ⟨hi, ?_, fun k hk hk' => ?_⟩⟩
    · rintro ⟨k, hk, rfl⟩
      rcases Nat.lt_or_ge k i with h | h
      · exact absurd (hlo k h) (lt_irrefl _)
      · exact absurd (hhi k h hk) (lt_irrefl _)
    · exact (increasing_shiftUp hi).mpr ⟨hinc, hlo, hhi⟩
    · obtain ⟨-, hlo', hhi'⟩ := (increasing_shiftUp hk).mp hk'
      rcases Nat.lt_trichotomy k i with h | h | h
      · exact absurd ((hlo k h).trans (hhi' k (le_refl _) (by omega))) (lt_irrefl _)
      · exact h
      · exact absurd ((hlo' i h).trans (hhi i (le_refl _) (by omega))) (lt_irrefl _)

/-- A table of three priorities, 0, 10 and 20. -/
def threePriorities : Kernel := { Kernel.zero with PriNum := 3, ActivePri := fun i => 10 * i }

theorem priority_search_three : ∃ found i l,
    priSearch threePriorities.ActivePri 15 (threePriorities.PriNum + 1) 0 threePriorities.PriNum =
      some ((found, i), l) ∧ getPriSeqNum threePriorities 15 = some (found, i) ∧
    ∀ k ∈ l, k < threePriorities.PriNum := by
  have hinc : Increasing threePriorities.ActivePri threePriorities.PriNum := by
    intro i j hij _
    show 10 * i < 10 * j
    omega
  obtain ⟨found, i, l, e, e', hl, -⟩ := priority_search hinc (by decide) 15
  exact ⟨found, i, l, e, e', hl⟩

end Search

/-! ## The search of a ready priority -/

theorem rdyBytes_eq (tmp : Nat) : ∀ (fuel num j : Nat), num < fuel → num < 32 →
    rdyBytes tmp fuel num j = some (scanWord tmp num j) := by
  intro fuel
  induction fuel with
  | zero => intro num j h; omega
  | succ fuel ih =>
    intro num j h1 h2
    unfold rdyBytes
    cases num with
    | zero =>
      rw [scanWord]
      cases scanByte tmp 0 j <;> rfl
    | succ num =>
      rw [scanWord]
      cases hb : scanByte tmp (num + 1) j with
      | some cnt => rfl
      | none =>
        dsimp only
        rw [if_pos (Nat.succ_ne_zero num), show (num + 1 + 255) % 256 = num by omega,
          show ((num + 1) * 8 + 255) % 256 = (num + 1) * 8 - 1 by omega]
        exact ih num _ (by omega) (by omega)

theorem rdyWords_eq (info : Nat → Nat) : ∀ (fuel i j : Nat), i < fuel → i < 8 → j < 32 →
    rdyWords info fuel i j = some (scanInfo info i j) := by
  intro fuel
  induction fuel with
  | zero => intro i j h; omega
  | succ fuel ih =>
    intro i j h1 h2 h3
    have hword : (if info i ≠ 0 then rdyBytes (info i) 4 (j / 8) j else some none) =
        some (if info i ≠ 0 then scanWord (info i) (j / 8) j else none) := by
      split
      · exact rdyBytes_eq (info i) 4 (j / 8) j (by omega) (by omega)
      · rfl
    -- the bit that is found is one of the word
    have hbit : ∀ cnt, (if info i ≠ 0 then scanWord (info i) (j / 8) j else none) = some cnt →
      cnt < 32 := by
      intro cnt hc
      split at hc
      · have hw := scanWord_spec (info i) (j / 8) j (by omega) (by omega)
        rw [hc] at hw
        exact lt_of_lt_of_le hw.2.1 (by omega)
      · cases hc
    unfold rdyWords
    rw [hword]
    cases i with
    | zero =>
      rw [scanInfo]
      cases hs : (if info 0 ≠ 0 then scanWord (info 0) (j / 8) j else none) with
      | none => rfl
      | some cnt =>
        have := hbit cnt hs
        show some ((32 * 0 + cnt) % 256) = some cnt
        rw [show (32 * 0 + cnt) % 256 = cnt by omega]
    | succ i =>
      rw [scanInfo]
      cases hs : (if info (i + 1) ≠ 0 then scanWord (info (i + 1)) (j / 8) j else none) with
      | none =>
        dsimp only
        rw [if_pos (Nat.succ_ne_zero i), show (i + 1 + 255) % 256 = i by omega]
        exact ih i 31 (by omega) (by omega) (by decide)
      | some cnt =>
        have := hbit cnt hs
        show some ((32 * (i + 1) + cnt) % 256) = some (32 * (i + 1) + cnt)
        rw [Nat.mod_eq_of_lt (by omega)]

/-- **GetRdyPriSeqNum.** On every bitmap the loops end with the largest index at or below `seqNum`
    whose bit is set, or with `INVALID_ID` when there is none. -/
theorem nearest_ready (s : Kernel) {seqNum : Nat} (h : seqNum < 254) :
    ∃ k, rdyWords s.RdyTaskPriInfo 8 (seqNum / 32) (seqNum % 32) = some k ∧
    getRdyPriSeqNum s seqNum = k ∧
      ((k = INVALID_ID ∧ ∀ i, i ≤ seqNum → infoBit s.RdyTaskPriInfo i = false) ∨
        (k ≠ INVALID_ID ∧ IsGreatest {i | i ≤ seqNum ∧ infoBit s.RdyTaskPriInfo i = true} k)) := by
  obtain ⟨r, hr, e⟩ := getRdyPriSeqNum_spec s seqNum
  refine ⟨_, rdyWords_eq s.RdyTaskPriInfo 8 (seqNum / 32) (seqNum % 32) (by omega) (by omega)
    (by omega), rfl, ?_⟩
  rw [show scanInfo s.RdyTaskPriInfo (seqNum / 32) (seqNum % 32) = r.getD INVALID_ID from e]
  cases r with
  | none => exact Or.inl ⟨rfl, fun i hi => hr i (Nat.zero_le i) (Nat.lt_succ_of_le hi)⟩
  | some k =>
    obtain ⟨-, hk, hset, habove⟩ := hr
    have hinv : INVALID_ID = 255 := rfl
    refine Or.inr ⟨?_, ⟨Nat.le_of_lt_succ hk, hset⟩, ?_⟩
    · rw [Option.getD_some]
      omega
    · rintro i ⟨hi, hb⟩
      by_contra hlt
      rw [habove i (Nat.lt_of_not_le hlt) (Nat.lt_succ_of_le hi)] at hb
      cases hb

theorem nearest_ready_three : ∃ k,
    rdyWords { Kernel.zero with RdyTaskPriInfo := fun _ => 5 }.RdyTaskPriInfo 8 (35 / 32)
    (35 % 32) = some k ∧
    getRdyPriSeqNum { Kernel.zero with RdyTaskPriInfo := fun _ => 5 } 35 = k := by
  obtain ⟨k, e, e', -⟩ :=
    @nearest_ready { Kernel.zero with RdyTaskPriInfo := fun _ => 5 } 35 (by decide)
  exact ⟨k, e, e'⟩

end CoOS
