/-
  Lists in the order of a key, with insertion after the items of equal key. Nothing here is
  about a kernel.

  `insertKey key x l` puts `x` before the first item with a larger key; on a sorted list it
  keeps the order (`SortedKey.insertKey`) and stands after all items with at most that key
  (`insertKey_eq_filter`). `sortKey key A` inserts the items of `A` one after the other and
  keeps the order of `A` among equal keys (`filter_sortKey_eq`).
-/
import Mathlib.Data.List.TakeWhile
import Mathlib.Data.List.Induction
import Mathlib.Data.List.Nodup

namespace KeyOrder

variable {α : Type} {key : α → Nat}

/-- Insertion in the order of `key`, after the items of equal key. -/
def insertKey (key : α → Nat) (x : α) (l : List α) : List α :=
  l.takeWhile (fun y => decide (key y ≤ key x)) ++ x ::
    l.dropWhile (fun y => decide (key y ≤ key x))

/-- In the order of `key`. -/
def SortedKey (key : α → Nat) (l : List α) : Prop := l.Pairwise fun x y => key x ≤ key y

theorem insertKey_of_before {x y : α} {k k' : List α}
    (hk : ∀ z ∈ k, key z ≤ key x) (hy : key x < key y) :
    insertKey key x (k ++ y :: k') = k ++ x :: y :: k' := by
  unfold insertKey
  rw [List.takeWhile_append_of_pos (by simpa using hk),
    List.dropWhile_append_of_pos (by simpa using hk),
    List.takeWhile_cons_of_neg (by simpa using hy),
    List.dropWhile_cons_of_neg (by simpa using hy), List.append_nil]

theorem insertKey_of_last {x : α} {l : List α} (h : ∀ z ∈ l, key z ≤ key x) :
    insertKey key x l = l ++ [x] := by
  unfold insertKey
  rw [List.takeWhile_eq_self_iff.mpr (by simpa using h),
    List.dropWhile_eq_nil_iff.mpr (by simpa using h)]

theorem insertKey_append {x : α} {k l : List α} (h : ∀ z ∈ k, key z ≤ key x) :
    insertKey key x (k ++ l) = k ++ insertKey key x l := by
  have hk : ∀ z ∈ k, decide (key z ≤ key x) = true := fun z hz => decide_eq_true (h z hz)
  unfold insertKey
  rw [List.takeWhile_append_of_pos hk, List.dropWhile_append_of_pos hk, List.append_assoc]

theorem mem_insertKey {x y : α} {l : List α} :
    y ∈ insertKey key x l ↔ y = x ∨ y ∈ l := by
  have h : y ∈ l ↔ y ∈ l.takeWhile (fun y => decide (key y ≤ key x)) ∨
      y ∈ l.dropWhile (fun y => decide (key y ≤ key x)) := by
    rw [← List.mem_append, List.takeWhile_append_dropWhile]
  simp only [insertKey, List.mem_append, List.mem_cons, h]
  tauto

theorem takeWhile_eq_filter {l : List α} (h : SortedKey key l) (n : Nat) :
    l.takeWhile (fun y => decide (key y ≤ n)) = l.filter (fun y => decide (key y ≤ n)) ∧
      l.dropWhile (fun y => decide (key y ≤ n)) = l.filter (fun y => decide (n < key y)) := by
  induction l with
  | nil => exact ⟨rfl, rfl⟩
  | cons x l ih =>
    obtain ⟨hx, hl⟩ := List.pairwise_cons.mp h
    by_cases hxn : key x ≤ n
    · rw [List.takeWhile_cons_of_pos (by simpa using hxn),
        List.dropWhile_cons_of_pos (by simpa using hxn),
        List.filter_cons_of_pos (by simpa using hxn),
        List.filter_cons_of_neg (by simpa using hxn), (ih hl).1, (ih hl).2]
      exact ⟨rfl, rfl⟩
    · have hrest : ∀ y ∈ l, n < key y := fun y hy => by have := hx y hy; omega
      rw [List.takeWhile_cons_of_neg (by simpa using hxn),
        List.dropWhile_cons_of_neg (by simpa using hxn)]
      refine ⟨?_, ?_⟩
      · symm
        rw [List.filter_eq_nil_iff]
        intro y hy
        rcases List.mem_cons.mp hy with rfl | hy
        · simpa using hxn
        · simpa using hrest y hy
      · symm
        rw [List.filter_eq_self]
        intro y hy
        rcases List.mem_cons.mp hy with rfl | hy
        · simpa using hxn
        · simpa using hrest y hy

theorem insertKey_eq_filter {l : List α} (h : SortedKey key l) (x : α) :
    insertKey key x l =
      l.filter (fun y => decide (key y ≤ key x)) ++
      x :: l.filter (fun y => decide (key x < key y)) := by
  unfold insertKey
  rw [(takeWhile_eq_filter h (key x)).1, (takeWhile_eq_filter h (key x)).2]

theorem SortedKey.insertKey {l : List α} (h : SortedKey key l) (x : α) :
    SortedKey key (insertKey key x l) := by
  unfold SortedKey at h
  rw [insertKey_eq_filter h, SortedKey, List.pairwise_append, List.pairwise_cons]
  refine ⟨h.filter _, ⟨?_, h.filter _⟩, ?_⟩
  · intro y hy
    have := (List.mem_filter.mp hy).2
    simp only [decide_eq_true_eq] at this
    omega
  · intro y hy z hz
    have h1 := (List.mem_filter.mp hy).2
    simp only [decide_eq_true_eq] at h1
    rcases List.mem_cons.mp hz with rfl | hz
    · exact h1
    · have h2 := (List.mem_filter.mp hz).2
      simp only [decide_eq_true_eq] at h2
      omega

/-- In the order of `key`, and of `stamp` among items of equal key. -/
def Ranked (key stamp : α → Nat) (x y : α) : Prop :=
  key x < key y ∨ (key x = key y ∧ stamp x < stamp y)

/-- The newest item, among the items of equal key, stands last. -/
theorem pairwise_insertKey {stamp : α → Nat} {l : List α}
    (h : l.Pairwise (Ranked key stamp)) {x : α}
    (hx : ∀ y ∈ l, stamp y < stamp x) : (insertKey key x l).Pairwise (Ranked key stamp) := by
  have hs : SortedKey key l := h.imp fun hr => by
    rcases hr with hr | hr
    · omega
    · omega
  rw [insertKey_eq_filter hs, List.pairwise_append, List.pairwise_cons]
  refine ⟨h.filter _, ⟨fun y hy => ?_, h.filter _⟩, fun y hy z hz => ?_⟩
  · exact Or.inl (of_decide_eq_true (List.mem_filter.mp hy).2)
  · obtain ⟨hyl, h1⟩ := List.mem_filter.mp hy
    have h1 := of_decide_eq_true h1
    rcases List.mem_cons.mp hz with rfl | hz
    · rcases Nat.lt_or_eq_of_le h1 with h1 | h1
      · exact Or.inl h1
      · exact Or.inr ⟨h1, hx y hyl⟩
    · have h2 := of_decide_eq_true (List.mem_filter.mp hz).2
      exact Or.inl (by omega)

/-- The items of `A` inserted one after the other. -/
def sortKey (key : α → Nat) (A : List α) : List α := A.foldl (fun l x => insertKey key x l) []

theorem sortKey_concat (A : List α) (x : α) :
    sortKey key (A ++ [x]) = insertKey key x (sortKey key A) := by
  simp [sortKey]

theorem sorted_sortKey (A : List α) : SortedKey key (sortKey key A) := by
  induction A using List.reverseRecOn with
  | nil => exact List.Pairwise.nil
  | append_singleton A x ih => rw [sortKey_concat]; exact ih.insertKey x

theorem mem_sortKey {A : List α} {x : α} : x ∈ sortKey key A ↔ x ∈ A := by
  induction A using List.reverseRecOn with
  | nil => simp [sortKey]
  | append_singleton A y ih => rw [sortKey_concat, mem_insertKey, ih]; simp [or_comm]

theorem filter_insertKey {l : List α} (h : SortedKey key l) (x : α)
    (p : α → Bool) :
    (insertKey key x l).filter p = if p x then insertKey key x (l.filter p) else l.filter p := by
  have hf : SortedKey key (l.filter p) := List.Pairwise.filter p h
  have hswap : ∀ q : α → Bool, (l.filter q).filter p = (l.filter p).filter q := by
    intro q
    rw [List.filter_filter, List.filter_filter]
    congr 1
    funext y
    exact Bool.and_comm _ _
  rw [insertKey_eq_filter h, List.filter_append, List.filter_cons, hswap, hswap]
  by_cases hp : p x = true
  · rw [if_pos hp, if_pos hp, insertKey_eq_filter hf]
  · rw [if_neg hp, if_neg hp, ← (takeWhile_eq_filter hf (key x)).1,
      ← (takeWhile_eq_filter hf (key x)).2]
    exact List.takeWhile_append_dropWhile

theorem sortKey_filter (A : List α) (p : α → Bool) :
    (sortKey key A).filter p = sortKey key (A.filter p) := by
  induction A using List.reverseRecOn with
  | nil => rfl
  | append_singleton A x ih =>
    rw [sortKey_concat, filter_insertKey (sorted_sortKey A), ih, List.filter_append]
    by_cases hp : p x = true
    · simp [hp, sortKey_concat]
    · simp [hp]

/-- Items of equal key stay in order of insertion. -/
theorem filter_sortKey_eq (A : List α) (n : Nat) :
    (sortKey key A).filter (fun x => key x == n) = A.filter (fun x => key x == n) := by
  rw [sortKey_filter]
  have hall : ∀ x ∈ A.filter (fun x => key x == n), key x = n := by
    intro x hx
    simpa using (List.mem_filter.mp hx).2
  generalize A.filter (fun x => key x == n) = B at hall
  induction B using List.reverseRecOn with
  | nil => rfl
  | append_singleton B x ih =>
    rw [sortKey_concat, ih fun y hy => hall y (by simp [hy]), insertKey_of_last]
    intro z hz
    rw [hall z (by simp [hz]), hall x (by simp)]

theorem sortKey_of_sorted {A : List α} (h : SortedKey key A) : sortKey key A = A := by
  induction A using List.reverseRecOn with
  | nil => rfl
  | append_singleton A x ih =>
    obtain ⟨h1, -, h2⟩ := List.pairwise_append.mp h
    rw [sortKey_concat, ih h1, insertKey_of_last fun z hz => h2 z hz x (List.mem_singleton.mpr rfl)]

theorem map_insertKey {β : Type} {key' : β → Nat} {f : α → β} {l : List α} {x : α}
    (hf : ∀ y ∈ l, key' (f y) ≤ key' (f x) ↔ key y ≤ key x) :
    (insertKey key x l).map f = insertKey key' (f x) (l.map f) := by
  unfold insertKey
  rw [List.map_append, List.map_cons, List.takeWhile_map, List.dropWhile_map]
  have h : ∀ k : List α, (∀ y ∈ k, y ∈ l) →
      k.takeWhile (fun y => decide (key y ≤ key x)) =
        k.takeWhile ((fun y => decide (key' y ≤ key' (f x))) ∘ f) ∧
      k.dropWhile (fun y => decide (key y ≤ key x)) =
        k.dropWhile ((fun y => decide (key' y ≤ key' (f x))) ∘ f) := by
    intro k hk
    induction k with
    | nil => exact ⟨rfl, rfl⟩
    | cons y k ih =>
      have hy : decide (key y ≤ key x) = decide (key' (f y) ≤ key' (f x)) := by
        rw [decide_eq_decide]
        exact (hf y (hk y (by simp))).symm
      have ih' := ih fun z hz => hk z (by simp [hz])
      rw [List.takeWhile_cons, List.takeWhile_cons, List.dropWhile_cons, List.dropWhile_cons,
        ih'.1, ih'.2]
      simp only [Function.comp_apply, hy]
      exact ⟨trivial, trivial⟩
  rw [(h l fun _ hy => hy).1, (h l fun _ hy => hy).2]

/-! ## The last item of a key -/

section Last

variable {x : α} {l l1 l2 : List α}

/-- The last item with key `p`. -/
def lastWith (key : α → Nat) (l : List α) (p : Nat) : Option α :=
  (l.filter (fun y => key y == p)).getLast?

theorem lastWith_mem {p : Nat} (h : lastWith key l p = some x) : x ∈ l ∧ key x = p := by
  have := List.mem_filter.mp (List.mem_of_mem_getLast? h)
  simpa using this

theorem lastWith_isSome {p : Nat} (hx : x ∈ l) (hp : key x = p) :
    ∃ y, lastWith key l p = some y := by
  have hmem : x ∈ l.filter (fun y => key y == p) := List.mem_filter.mpr ⟨hx, by simpa using hp⟩
  refine ⟨_, List.getLast?_eq_some_getLast ?_⟩
  intro h
  rw [h] at hmem
  simp at hmem

theorem lastWith_insertKey (h : SortedKey key l) (x : α) (p : Nat) :
    lastWith key (insertKey key x l) p = if p = key x then some x else lastWith key l p := by
  unfold lastWith
  rw [filter_insertKey h]
  by_cases hp : p = key x
  · subst hp
    have hall : ∀ z ∈ l.filter (fun y => key y == key x), key z ≤ key x := by
      intro z hz
      have := (List.mem_filter.mp hz).2
      exact Nat.le_of_eq (by simpa using this)
    rw [if_pos rfl, if_pos (by simp), insertKey_of_last hall, List.getLast?_concat]
  · rw [if_neg hp, if_neg (by simpa using fun e => hp e.symm)]

/-- The last item of the front part of a sorted list is the last one with its key. -/
theorem lastWith_front {p : α} (h : SortedKey key (l1 ++ l2)) (hp : l1.getLast? = some p)
    (hl : ∀ y ∈ l2.head?, key p < key y) : lastWith key (l1 ++ l2) (key p) = some p := by
  obtain ⟨_, h2, _⟩ := List.pairwise_append.mp h
  have hnil : l2.filter (fun y => key y == key p) = [] := by
    rw [List.filter_eq_nil_iff]
    intro y hy
    cases l2 with
    | nil => simp at hy
    | cons z l2 =>
      have hz := hl z rfl
      rcases List.mem_cons.mp hy with rfl | hy
      · simp only [beq_iff_eq]; omega
      · have := (List.pairwise_cons.mp h2).1 y hy
        simp only [beq_iff_eq]; omega
  obtain ⟨k, rfl⟩ : ∃ k, l1 = k ++ [p] := by
    rcases List.eq_nil_or_concat l1 with rfl | ⟨k, q, rfl⟩
    · simp at hp
    · rw [List.concat_eq_append] at hp ⊢
      obtain rfl : q = p := by simpa using hp
      exact ⟨k, rfl⟩
  unfold lastWith
  rw [List.filter_append, hnil, List.append_nil, List.filter_append]
  simp

theorem lastWith_erase_ne {t : α} {p : Nat} (hp : p ≠ key t) :
    lastWith key (l1 ++ l2) p = lastWith key (l1 ++ t :: l2) p := by
  unfold lastWith
  rw [List.filter_append, List.filter_append, List.filter_cons_of_neg (by simpa using Ne.symm hp)]

/-- Removing an item that is followed by one of equal key. -/
theorem lastWith_erase_next {t n : α} (hn : l2.head? = some n) (hk : key n = key t) :
    lastWith key (l1 ++ l2) (key t) = lastWith key (l1 ++ t :: l2) (key t) := by
  cases l2 with
  | nil => simp at hn
  | cons m l2 =>
    obtain rfl : m = n := by simpa using hn
    unfold lastWith
    simp only [List.filter_append, List.filter_cons, hk, BEq.rfl, if_true]
    rw [List.getLast?_append_of_ne_nil _ (by simp), List.getLast?_append_of_ne_nil _ (by simp),
      List.getLast?_cons_cons]

/-- Removing the last item of its key from a sorted list. -/
theorem lastWith_erase_last {t : α} (h : SortedKey key (l1 ++ t :: l2))
    (hn : ∀ n ∈ l2.head?, key n ≠ key t) :
    lastWith key (l1 ++ l2) (key t) =
      match l1.getLast? with
      | none => none
      | some p => if key p = key t then some p else none := by
  obtain ⟨h1, h2, h3⟩ := List.pairwise_append.mp h
  obtain ⟨h4, h5⟩ := List.pairwise_cons.mp h2
  have hnil : l2.filter (fun y => key y == key t) = [] := by
    rw [List.filter_eq_nil_iff]
    intro y hy
    cases l2 with
    | nil => simp at hy
    | cons z l2 =>
      have hz := hn z rfl
      have hz' := h4 z (by simp)
      rcases List.mem_cons.mp hy with rfl | hy
      · simpa using hz
      · have := (List.pairwise_cons.mp h5).1 y hy
        simp only [beq_iff_eq]; omega
  unfold lastWith
  rw [List.filter_append, hnil, List.append_nil]
  rcases List.eq_nil_or_concat l1 with rfl | ⟨k, p, rfl⟩
  · simp
  · rw [List.concat_eq_append] at h1 h3 ⊢
    rw [List.getLast?_concat, List.filter_append]
    by_cases hp : key p = key t
    · simp [hp]
    · have hnil' : k.filter (fun y => key y == key t) = [] := by
        rw [List.filter_eq_nil_iff]
        intro y hy
        have e1 := (List.pairwise_append.mp h1).2.2 y hy p (by simp)
        have e2 := h3 p (by simp) t (by simp)
        simp only [beq_iff_eq]; omega
      simp [hp, hnil']

/-- Where an item is inserted. -/
theorem insertKey_split (key : α → Nat) (x : α) (l : List α) :
    ∃ k k', l = k ++ k' ∧ l.takeWhile (fun y => decide (key y ≤ key x)) = k ∧
      insertKey key x l = k ++ x :: k' ∧ (∀ z ∈ k, key z ≤ key x) ∧
      ∀ y ∈ k'.head?, key x < key y := by
  refine ⟨_, _, (List.takeWhile_append_dropWhile (p := fun y => decide (key y ≤ key x))).symm, rfl,
    rfl, ?_, ?_⟩
  · intro z hz
    simpa using List.mem_takeWhile_imp hz
  · intro y hy
    have := List.head?_dropWhile_not (fun y => decide (key y ≤ key x)) l
    rw [Option.mem_def.mp hy] at this
    simpa using this

end Last

end KeyOrder
