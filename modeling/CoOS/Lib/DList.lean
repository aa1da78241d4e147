/-
  Null-terminated linked lists in link columns. Nothing here is about a kernel.

  A list of items of type `α` lives in a head pointer and the columns `next` and
  `prev`. `nextIn l a` and `prevIn l a` are the neighbours of `a` in the list `l`, and
  `IsDList L l` says that the columns `L` hold exactly `l`. `IsSList` is the
  one-directional form.

  The edits are the ones C code makes on such lists, write by write: `unlink` (the
  four-case removal), `pushFront`, `append` (after a last item) and `insertAfter`.
  Each edit has one rule, for a list split at the item: `isDList_unlink`,
  `isDList_pushFront`, `isDList_append`, `isDList_insertAfter`. Items outside the list
  keep their links (`IsDList.congr`), so two lists may share the columns.
-/
import Mathlib.Data.List.Nodup
import Mathlib.Data.List.Perm.Subperm
import Mathlib.Logic.Function.Basic

namespace DList

variable {α : Type}

/-- A head pointer and the two link columns. -/
structure Links (α : Type) where
  head : Option α
  next : α → Option α
  prev : α → Option α

/-! ## Splitting a list without repetition at an item -/

section Split

variable {l1 l2 : List α} {t : α}

theorem nodup_split_left (h : (l1 ++ t :: l2).Nodup) : t ∉ l1 := fun h1 =>
  (List.nodup_append.mp h).2.2 t h1 t List.mem_cons_self rfl

theorem nodup_split_right (h : (l1 ++ t :: l2).Nodup) : t ∉ l2 :=
  (List.nodup_cons.mp (List.nodup_append.mp h).2.1).1

theorem nodup_split_append (h : (l1 ++ t :: l2).Nodup) : (l1 ++ l2).Nodup :=
  (List.nodup_cons.mp (List.nodup_middle.mp h)).2

theorem nodup_insert (h : (l1 ++ l2).Nodup) (ht : t ∉ l1 ++ l2) : (l1 ++ t :: l2).Nodup :=
  List.nodup_middle.mpr (List.nodup_cons.mpr ⟨ht, h⟩)

theorem mem_right_of_split (h : (l1 ++ l2).Nodup) (ht : t ∈ l2) : t ∉ l1 :=
  fun h1 => (List.nodup_append.mp h).2.2 t h1 t ht rfl

end Split

/-- A list of distinct numbers below `n`. -/
theorem length_le_of_lt {l : List Nat} {n : Nat} (hnd : l.Nodup) (h : ∀ t ∈ l, t < n) :
    l.length ≤ n := by
  have hs : l ⊆ List.range n := fun t ht => List.mem_range.mpr (h t ht)
  have := (hnd.subperm hs).length_le
  simpa using this

/-! ## Neighbours in a list -/

variable [DecidableEq α]

/-- The item after `a` in `l`. -/
def nextIn : List α → α → Option α
  | [], _ => none
  | x :: l, a => if a = x then l.head? else nextIn l a

/-- The item before `a` in `l`. -/
def prevIn (l : List α) (a : α) : Option α := nextIn l.reverse a

theorem nextIn_cons_self (x : α) (l : List α) : nextIn (x :: l) x = l.head? := by
  simp [nextIn]

theorem nextIn_append_of_not_mem {l1 : List α} {a : α} (h : a ∉ l1) (l2 : List α) :
    nextIn (l1 ++ l2) a = nextIn l2 a := by
  induction l1 with
  | nil => rfl
  | cons x l1 ih =>
    simp only [List.mem_cons, not_or] at h
    rw [List.cons_append, nextIn, if_neg h.1, ih h.2]

theorem nextIn_append_of_mem {l1 : List α} {a : α} (h : a ∈ l1) (l2 : List α) :
    nextIn (l1 ++ l2) a = (nextIn l1 a).or l2.head? := by
  induction l1 with
  | nil => simp at h
  | cons x l1 ih =>
    by_cases hx : a = x
    · subst hx
      simp only [List.cons_append, nextIn, if_true]
      cases l1 <;> simp
    · have ha : a ∈ l1 := by simpa [hx] using h
      rw [List.cons_append, nextIn, if_neg hx, ih ha, nextIn, if_neg hx]

theorem nextIn_split {l1 l2 : List α} {a : α} (h : a ∉ l1) :
    nextIn (l1 ++ a :: l2) a = l2.head? := by
  rw [nextIn_append_of_not_mem h, nextIn_cons_self]

theorem prevIn_split {l1 l2 : List α} {a : α} (h : a ∉ l2) :
    prevIn (l1 ++ a :: l2) a = l1.getLast? := by
  unfold prevIn
  rw [List.reverse_append, List.reverse_cons, List.append_assoc]
  simp only [List.singleton_append]
  rw [nextIn_split (by simpa using h), List.head?_reverse]

theorem nextIn_not_mem {l : List α} {a : α} (h : a ∉ l) : nextIn l a = none := by
  have := nextIn_append_of_not_mem h ([] : List α)
  simpa [nextIn] using this

theorem nextIn_mem {l : List α} {a b : α} (h : nextIn l a = some b) : b ∈ l := by
  induction l with
  | nil => simp [nextIn] at h
  | cons x l ih =>
    rw [nextIn] at h
    split at h
    · exact List.mem_cons_of_mem _ (List.mem_of_mem_head? h)
    · exact List.mem_cons_of_mem _ (ih h)

/-- The last item of a list without repetition is the one with no item after it. -/
theorem nextIn_eq_none_iff {l : List α} {a : α} (h : a ∈ l) (hnd : l.Nodup) :
    nextIn l a = none ↔ l.getLast? = some a := by
  obtain ⟨l1, l2, rfl⟩ := List.append_of_mem h
  have ha : a ∉ l1 := fun h1 =>
    (List.nodup_append.mp hnd).2.2 a h1 a List.mem_cons_self rfl
  rw [nextIn_split ha]
  cases l2 with
  | nil => simp
  | cons y l2 =>
    simp only [List.head?_cons, reduceCtorEq, false_iff]
    intro hl
    rw [List.getLast?_append_of_ne_nil _ (by simp)] at hl
    have hmem : a ∈ y :: l2 := List.mem_of_mem_getLast? (by simpa using hl)
    exact (List.nodup_cons.mp (List.nodup_append.mp hnd).2.1).1 hmem

theorem nextIn_range {n a : Nat} (h : a < n) :
    nextIn (List.range n) a = if a + 1 < n then some (a + 1) else none := by
  obtain ⟨m, rfl⟩ := Nat.exists_eq_add_of_lt h
  have hs : List.range (a + m + 1) = List.range a ++ a :: (List.range m).map (a + 1 + ·) := by
    rw [show a + m + 1 = a + 1 + m by omega, List.range_add, List.range_succ, List.append_assoc]
    rfl
  have ha : a ∉ List.range a := by
    rw [List.mem_range]
    omega
  rw [hs, nextIn_split ha]
  cases m with
  | zero =>
    rw [if_neg (by omega)]
    rfl
  | succ m =>
    rw [if_pos (by omega), List.range_succ_eq_map]
    rfl

/-! ## Well-formed lists -/

/-- The columns `L` hold exactly the doubly linked list `l`. -/
structure IsDList (L : Links α) (l : List α) : Prop where
  head : L.head = l.head?
  nodup : l.Nodup
  next : ∀ a ∈ l, L.next a = nextIn l a
  prev : ∀ a ∈ l, L.prev a = prevIn l a

instance (L : Links α) (l : List α) : Decidable (IsDList L l) :=
  decidable_of_iff (L.head = l.head? ∧ l.Nodup ∧ (∀ a ∈ l, L.next a = nextIn l a) ∧
    ∀ a ∈ l, L.prev a = prevIn l a)
    ⟨fun h => ⟨h.1, h.2.1, h.2.2.1, h.2.2.2⟩, fun h => ⟨h.head, h.nodup, h.next, h.prev⟩⟩

/-- The column `next` holds exactly the singly linked list `l`. -/
structure IsSList (head : Option α) (next : α → Option α) (l : List α) : Prop where
  head : head = l.head?
  nodup : l.Nodup
  next : ∀ a ∈ l, next a = nextIn l a

theorem IsDList.toSList {L : Links α} {l : List α} (h : IsDList L l) :
    IsSList L.head L.next l := ⟨h.head, h.nodup, h.next⟩

theorem isDList_nil {L : Links α} (h : L.head = none) : IsDList L [] :=
  ⟨h, List.nodup_nil, by simp, by simp⟩

theorem isSList_nil {head : Option α} {next : α → Option α} (h : head = none) :
    IsSList head next [] := ⟨h, List.nodup_nil, by simp⟩

/-- Only the head and the links of the list's own items matter. -/
theorem isDList_single {L : Links α} {t : α} (hh : L.head = some t) (hn : L.next t = none)
    (hp : L.prev t = none) : IsDList L [t] := by
  refine ⟨hh, List.nodup_singleton t, fun a ha => ?_, fun a ha => ?_⟩
  · rw [List.mem_singleton.mp ha, hn, nextIn_cons_self]
    rfl
  · rw [List.mem_singleton.mp ha, hp]
    exact (nextIn_cons_self t []).symm

theorem IsDList.congr {L L' : Links α} {l : List α} (h : IsDList L l)
    (hh : L'.head = L.head) (hn : ∀ a ∈ l, L'.next a = L.next a)
    (hp : ∀ a ∈ l, L'.prev a = L.prev a) : IsDList L' l :=
  ⟨hh.trans h.head, h.nodup, fun a ha => (hn a ha).trans (h.next a ha),
    fun a ha => (hp a ha).trans (h.prev a ha)⟩

theorem IsSList.congr {hd hd' : Option α} {next next' : α → Option α} {l : List α}
    (h : IsSList hd next l) (hh : hd' = hd) (hn : ∀ a ∈ l, next' a = next a) :
    IsSList hd' next' l :=
  ⟨hh.trans h.head, h.nodup, fun a ha => (hn a ha).trans (h.next a ha)⟩

section Walk

variable {L : Links α} {l1 l2 : List α} {t : α}

theorem IsDList.next_split (h : IsDList L (l1 ++ t :: l2)) : L.next t = l2.head? := by
  rw [h.next t (by simp), nextIn_split (nodup_split_left h.nodup)]

theorem IsDList.prev_split (h : IsDList L (l1 ++ t :: l2)) : L.prev t = l1.getLast? := by
  rw [h.prev t (by simp), prevIn_split (nodup_split_right h.nodup)]

theorem IsSList.next_split {hd : Option α} {next : α → Option α}
    (h : IsSList hd next (l1 ++ t :: l2)) : next t = l2.head? := by
  rw [h.next t (by simp), nextIn_split (nodup_split_left h.nodup)]

/-- The items met on a walk along `next`, at most as many as the fuel. -/
def walk (next : α → Option α) : Nat → Option α → List α
  | _, none => []
  | 0, some _ => []
  | fuel + 1, some a => a :: walk next fuel (next a)

theorem IsSList.walk_split {hd : Option α} {next : α → Option α} (fuel : Nat) :
    ∀ {l1 l2 : List α}, IsSList hd next (l1 ++ l2) → l2.length ≤ fuel →
      walk next fuel l2.head? = l2 := by
  induction fuel with
  | zero =>
    intro l1 l2 _ hlen
    rw [List.length_eq_zero_iff.mp (Nat.le_zero.mp hlen)]
    rfl
  | succ n ih =>
    intro l1 l2 h hlen
    cases l2 with
    | nil => rfl
    | cons t l =>
      have h' : IsSList hd next ((l1 ++ [t]) ++ l) := by
        rw [List.append_assoc]
        exact h
      rw [List.head?_cons, walk, h.next_split, ih h' (Nat.le_of_succ_le_succ hlen)]

omit [DecidableEq α] in
theorem length_walk_le {next : α → Option α} :
    ∀ (fuel : Nat) (hd : Option α), (walk next fuel hd).length ≤ fuel
  | 0, none => Nat.le_refl 0
  | 0, some _ => Nat.le_refl 0
  | _ + 1, none => Nat.zero_le _
  | fuel + 1, some t => Nat.succ_le_succ (length_walk_le fuel (next t))

/-- With enough fuel the walk meets the whole list. -/
theorem IsSList.walk_eq {hd : Option α} {next : α → Option α} {l : List α} {fuel : Nat}
    (h : IsSList hd next l) (hlen : l.length ≤ fuel) : walk next fuel hd = l := by
  rw [h.head]
  exact @IsSList.walk_split _ _ _ _ fuel [] l h hlen

/-- The first item is taken off. -/
theorem IsSList.pop {next : α → Option α} {t : α} {l : List α}
    (h : IsSList (some t) next (t :: l)) :
    IsSList (next t) next l := by
  obtain ⟨ht, hl⟩ := List.nodup_cons.mp h.nodup
  refine ⟨?_, hl, fun a ha => ?_⟩
  · rw [h.next t List.mem_cons_self, nextIn_cons_self]
  · rw [h.next a (List.mem_cons_of_mem t ha), nextIn,
      if_neg (show ¬ a = t from fun e => ht (e ▸ ha))]

/-- An item is put in front of the others. -/
theorem IsSList.push {hd : Option α} {next next' : α → Option α} {t : α} {l : List α}
    (h : IsSList hd next l) (ht : t ∉ l) (h1 : next' t = hd) (h2 : ∀ a ∈ l, next' a = next a) :
    IsSList (some t) next' (t :: l) := by
  refine ⟨rfl, List.nodup_cons.mpr ⟨ht, h.nodup⟩, fun a ha => ?_⟩
  rcases List.mem_cons.mp ha with rfl | ha
  · rw [h1, nextIn_cons_self, h.head]
  · rw [h2 a ha, h.next a ha, nextIn,
      if_neg (show ¬ a = t from fun e => ht (e ▸ ha))]

end Walk

/-! ## Insertion and removal, column by column -/

/-- Inserting `t` between `l1` and `l2` in one direction: the last item of `l1` is pointed at
    `t`, `t` at the first item of `l2`, and every other item keeps its link. -/
theorem next_insert {next next' : α → Option α} {l1 l2 : List α} {t : α}
    (hnd : (l1 ++ l2).Nodup) (ht : t ∉ l1 ++ l2)
    (h : ∀ a ∈ l1 ++ l2, next a = nextIn (l1 ++ l2) a)
    (hlast : ∀ p, l1.getLast? = some p → next' p = some t) (hself : next' t = l2.head?)
    (hrest : ∀ a ∈ l1 ++ l2, l1.getLast? ≠ some a → next' a = next a) :
    ∀ a ∈ l1 ++ t :: l2, next' a = nextIn (l1 ++ t :: l2) a := by
  have ht1 : t ∉ l1 := fun h1 => ht (List.mem_append_left _ h1)
  have hnd1 : l1.Nodup := (List.nodup_append.mp hnd).1
  intro a ha
  rcases List.mem_append.mp ha with h1 | h1
  · rw [nextIn_append_of_mem h1, List.head?_cons]
    by_cases hp : l1.getLast? = some a
    · rw [hlast a hp, (nextIn_eq_none_iff h1 hnd1).mpr hp, Option.none_or]
    · have hsome : nextIn l1 a ≠ none := fun hn => hp ((nextIn_eq_none_iff h1 hnd1).mp hn)
      obtain ⟨b, hb⟩ := Option.ne_none_iff_exists'.mp hsome
      rw [hrest a (List.mem_append_left _ h1) hp, h a (List.mem_append_left _ h1),
        nextIn_append_of_mem h1, hb, Option.some_or, Option.some_or]
  · rcases List.mem_cons.mp h1 with rfl | h2
    · rw [nextIn_split ht1, hself]
    · have ha1 : a ∉ l1 := mem_right_of_split hnd h2
      have hat : a ≠ t := fun e => ht (List.mem_append_right _ (e ▸ h2))
      have hp : l1.getLast? ≠ some a := fun hl => ha1 (List.mem_of_mem_getLast? hl)
      rw [hrest a (List.mem_append_right _ h2) hp, h a (List.mem_append_right _ h2),
        nextIn_append_of_not_mem ha1, nextIn_append_of_not_mem ha1, nextIn, if_neg hat]

/-- Removing `t` in one direction: the item before `t` is pointed past it, and every other
    item keeps its link. -/
theorem next_erase {next next' : α → Option α} {l1 l2 : List α} {t : α}
    (hnd : (l1 ++ t :: l2).Nodup)
    (h : ∀ a ∈ l1 ++ t :: l2, next a = nextIn (l1 ++ t :: l2) a)
    (hlast : ∀ p, l1.getLast? = some p → next' p = l2.head?)
    (hrest : ∀ a ∈ l1 ++ l2, l1.getLast? ≠ some a → next' a = next a) :
    ∀ a ∈ l1 ++ l2, next' a = nextIn (l1 ++ l2) a := by
  have hnd1 : l1.Nodup := (List.nodup_append.mp hnd).1
  intro a ha
  rcases List.mem_append.mp ha with h1 | h2
  · rw [nextIn_append_of_mem h1]
    by_cases hp : l1.getLast? = some a
    · rw [hlast a hp, (nextIn_eq_none_iff h1 hnd1).mpr hp, Option.none_or]
    · have hsome : nextIn l1 a ≠ none := fun hn => hp ((nextIn_eq_none_iff h1 hnd1).mp hn)
      obtain ⟨b, hb⟩ := Option.ne_none_iff_exists'.mp hsome
      rw [hrest a (List.mem_append_left _ h1) hp, h a (List.mem_append_left _ h1),
        nextIn_append_of_mem h1, hb, Option.some_or, Option.some_or]
  · have ha1 : a ∉ l1 := mem_right_of_split hnd (List.mem_cons_of_mem _ h2)
    have hat : a ≠ t := fun e => nodup_split_right hnd (e ▸ h2)
    have hp : l1.getLast? ≠ some a := fun hl => ha1 (List.mem_of_mem_getLast? hl)
    rw [hrest a (List.mem_append_right _ h2) hp, h a (by simp [h2]),
      nextIn_append_of_not_mem ha1, nextIn_append_of_not_mem ha1, nextIn, if_neg hat]

theorem prev_insert {prev prev' : α → Option α} {l1 l2 : List α} {t : α}
    (hnd : (l1 ++ l2).Nodup) (ht : t ∉ l1 ++ l2)
    (h : ∀ a ∈ l1 ++ l2, prev a = prevIn (l1 ++ l2) a)
    (hfirst : ∀ n, l2.head? = some n → prev' n = some t) (hself : prev' t = l1.getLast?)
    (hrest : ∀ a ∈ l1 ++ l2, l2.head? ≠ some a → prev' a = prev a) :
    ∀ a ∈ l1 ++ t :: l2, prev' a = prevIn (l1 ++ t :: l2) a := by
  have key := @next_insert α _ prev prev' l2.reverse l1.reverse t
  simp only [← List.reverse_append, List.nodup_reverse, List.mem_reverse,
    List.getLast?_reverse, List.head?_reverse] at key
  have hcons : l2.reverse ++ t :: l1.reverse = (l1 ++ t :: l2).reverse := by simp
  rw [hcons] at key
  simp only [List.mem_reverse] at key
  exact key hnd ht h hfirst hself hrest

theorem prev_erase {prev prev' : α → Option α} {l1 l2 : List α} {t : α}
    (hnd : (l1 ++ t :: l2).Nodup)
    (h : ∀ a ∈ l1 ++ t :: l2, prev a = prevIn (l1 ++ t :: l2) a)
    (hfirst : ∀ n, l2.head? = some n → prev' n = l1.getLast?)
    (hrest : ∀ a ∈ l1 ++ l2, l2.head? ≠ some a → prev' a = prev a) :
    ∀ a ∈ l1 ++ l2, prev' a = prevIn (l1 ++ l2) a := by
  have hcons : l2.reverse ++ t :: l1.reverse = (l1 ++ t :: l2).reverse := by simp
  have key := @next_erase α _ prev prev' l2.reverse l1.reverse t
  simp only [hcons, ← List.reverse_append, List.nodup_reverse, List.mem_reverse,
    List.getLast?_reverse, List.head?_reverse] at key
  exact key hnd h hfirst hrest

/-! ## The edits -/

open Function (update)

/-- Remove `t`: the only item, the first, the last, or one in the middle. -/
def Links.unlink (L : Links α) (t : α) : Links α :=
  match L.next t, L.prev t with
  | none, none => { L with head := none }
  | some n, none => ⟨some n, update L.next t none, update L.prev n none⟩
  | none, some p => ⟨L.head, update L.next p none, update L.prev t none⟩
  | some n, some p =>
    ⟨L.head, update (update L.next p (some n)) t none, update (update L.prev n (some p)) t none⟩

/-- Clear the predecessor of an item, if there is one. -/
def clearPrev (o : Option α) (prev : α → Option α) : α → Option α :=
  match o with
  | none => prev
  | some n => update prev n none

theorem clearPrev_apply (o : Option α) (prev : α → Option α) (a : α) :
    clearPrev o prev a = if o = some a then none else prev a := by
  cases o with
  | none => rfl
  | some n =>
    unfold clearPrev
    by_cases h : a = n
    · simp [h]
    · simp [Function.update_of_ne h, Ne.symm h]

/-- `unlink` of an item without a predecessor. -/
theorem unlink_head {L : Links α} {t : α} (hp : L.prev t = none) :
    L.unlink t = ⟨L.next t, update L.next t none, clearPrev (L.next t) L.prev⟩ := by
  unfold Links.unlink
  cases hc : L.next t with
  | none =>
    have hself : update L.next t none = L.next := by
      rw [← hc]
      exact Function.update_eq_self t L.next
    rw [hp, hself]
    rfl
  | some n =>
    rw [hp]
    rfl

/-- Make `t` the first item. On an empty list no link is written, and `t`'s `prev` never is. -/
def Links.pushFront (L : Links α) (t : α) : Links α :=
  match L.head with
  | none => { L with head := some t }
  | some h => ⟨some t, update L.next t (some h), update L.prev h (some t)⟩

theorem Links.pushFront_head (L : Links α) (t : α) : (L.pushFront t).head = some t := by
  unfold Links.pushFront
  split
  · rfl
  · rfl

/-- Put `t` after the last item `p`. `t`'s `next` is not written. -/
def Links.append (L : Links α) (p t : α) : Links α :=
  ⟨L.head, update L.next p (some t), update L.prev t (some p)⟩

/-- Put `t` after `p`, writing both links of `t`. -/
def Links.insertAfter (L : Links α) (p t : α) : Links α :=
  let n := L.next p
  let prev := update L.prev t (some p)
  ⟨L.head, update (update L.next t n) p (some t),
    match n with
    | none => prev
    | some n => update prev n (some t)⟩

/-- Put `t` before `q`: between `q` and the item before it, or first. -/
def Links.insertBefore (L : Links α) (q t : α) : Links α :=
  match L.prev q with
  | some p => ⟨L.head, update (update L.next p (some t)) t (some q),
      update (update L.prev t (some p)) q (some t)⟩
  | none => L.pushFront t

section Edits

variable {L : Links α} {l1 l2 : List α} {t : α}

omit [DecidableEq α] in
theorem ne_head {n a : α} {l : List α} (h : (n :: l).head? ≠ some a) : a ≠ n := by
  rintro rfl; exact h rfl

omit [DecidableEq α] in
theorem ne_last {p a : α} {l : List α} (h : (l ++ [p]).getLast? ≠ some a) : a ≠ p := by
  rintro rfl; exact h (by simp)

theorem isDList_unlink (h : IsDList L (l1 ++ t :: l2)) : IsDList (L.unlink t) (l1 ++ l2) := by
  have hn := h.next_split
  have hp := h.prev_split
  have hnd := nodup_split_append h.nodup
  have hat : ∀ a ∈ l1 ++ l2, a ≠ t := by
    rintro a ha rfl
    rcases List.mem_append.mp ha with ha | ha
    · exact nodup_split_left h.nodup ha
    · exact nodup_split_right h.nodup ha
  rcases List.eq_nil_or_concat l1 with rfl | ⟨k, p, rfl⟩ <;> cases l2 with
  | nil => ?_
  | cons n l2 => ?_
  · simp only [List.head?_nil, List.getLast?_nil] at hn hp
    simp only [Links.unlink, hn, hp]
    exact isDList_nil rfl
  · simp only [List.head?_cons, List.getLast?_nil] at hn hp
    simp only [Links.unlink, hn, hp]
    refine ⟨rfl, hnd, next_erase h.nodup h.next (by simp) ?_, prev_erase h.nodup h.prev ?_ ?_⟩
    · intro a ha _
      exact Function.update_of_ne (hat a ha) _ _
    · simp
    · intro a _ han
      exact Function.update_of_ne (ne_head han) _ _
  · simp only [List.head?_nil, List.concat_eq_append, List.getLast?_concat] at hn hp hnd hat h ⊢
    simp only [Links.unlink, hn, hp]
    refine ⟨by simpa using h.head, hnd, next_erase h.nodup h.next ?_ ?_,
      prev_erase h.nodup h.prev (by simp) ?_⟩
    · simp
    · intro a _ hap
      exact Function.update_of_ne (ne_last hap) _ _
    · intro a ha _
      exact Function.update_of_ne (hat a ha) _ _
  · simp only [List.head?_cons, List.concat_eq_append, List.getLast?_concat] at hn hp hnd hat h ⊢
    simp only [Links.unlink, hn, hp]
    have hhead : L.head = ((k ++ [p]) ++ n :: l2).head? := by
      have := h.head
      cases k <;> simpa using this
    refine ⟨hhead, hnd, next_erase h.nodup h.next ?_ ?_, prev_erase h.nodup h.prev ?_ ?_⟩
    · intro p' hp'
      obtain rfl : p = p' := by simpa using hp'
      simp [Function.update_of_ne (hat p (by simp))]
    · intro a ha hap
      exact (Function.update_of_ne (hat a ha) _ _).trans
        (Function.update_of_ne (ne_last hap) _ _)
    · intro n' hn'
      obtain rfl : n = n' := by simpa using hn'
      simp [Function.update_of_ne (hat n (by simp))]
    · intro a ha han
      exact (Function.update_of_ne (hat a ha) _ _).trans
        (Function.update_of_ne (ne_head han) _ _)

/-- A removed item is left with null links. -/
theorem unlink_links (h : IsDList L (l1 ++ t :: l2)) :
    (L.unlink t).next t = none ∧ (L.unlink t).prev t = none := by
  have hn := h.next_split
  have hp := h.prev_split
  have ht1 := nodup_split_left h.nodup
  have ht2 := nodup_split_right h.nodup
  have h1 : ∀ p, L.prev t = some p → t ≠ p := by
    intro p e; rw [e] at hp
    exact fun he => ht1 (he ▸ List.mem_of_mem_getLast? hp.symm)
  have h2 : ∀ n, L.next t = some n → t ≠ n := by
    intro n e; rw [e] at hn
    exact fun he => ht2 (he ▸ List.mem_of_mem_head? hn.symm)
  unfold Links.unlink
  cases en : L.next t with
  | none =>
    cases ep : L.prev t with
    | none => exact ⟨en, ep⟩
    | some p => simp [Function.update_of_ne (h1 p ep), en]
  | some n =>
    cases ep : L.prev t with
    | none => simp [Function.update_of_ne (h2 n en), ep]
    | some p => simp

/-- Items outside the list keep their links. -/
theorem unlink_frame (h : IsDList L (l1 ++ t :: l2)) {a : α} (ha : a ∉ l1 ++ t :: l2) :
    (L.unlink t).next a = L.next a ∧ (L.unlink t).prev a = L.prev a := by
  have hn := h.next_split
  have hp := h.prev_split
  have hat : a ≠ t := by rintro rfl; simp at ha
  have h1 : ∀ p, L.prev t = some p → a ≠ p := by
    intro p e he; rw [e] at hp
    exact ha (List.mem_append_left _ (he ▸ List.mem_of_mem_getLast? hp.symm))
  have h2 : ∀ n, L.next t = some n → a ≠ n := by
    intro n e he; rw [e] at hn
    exact ha (List.mem_append_right _
      (List.mem_cons_of_mem _ (he ▸ List.mem_of_mem_head? hn.symm)))
  unfold Links.unlink
  cases en : L.next t with
  | none =>
    cases ep : L.prev t with
    | none => simp
    | some p => simp [Function.update_of_ne (h1 p ep), Function.update_of_ne hat]
  | some n =>
    cases ep : L.prev t with
    | none => simp [Function.update_of_ne (h2 n en), Function.update_of_ne hat]
    | some p =>
      simp [Function.update_of_ne (h1 p ep), Function.update_of_ne (h2 n en),
        Function.update_of_ne hat]

theorem isDList_pushFront {l : List α} (h : IsDList L l) (ht : t ∉ l) (hn : L.next t = none)
    (hp : L.prev t = none) : IsDList (L.pushFront t) (t :: l) := by
  have hhead := h.head
  have hnd : ([] ++ t :: l).Nodup := nodup_insert (by simpa using h.nodup) (by simpa using ht)
  cases l with
  | nil =>
    simp only [List.head?_nil] at hhead
    simp only [Links.pushFront, hhead]
    exact ⟨rfl, hnd, by simp [nextIn, hn], by simp [prevIn, nextIn, hp]⟩
  | cons x l =>
    simp only [List.head?_cons] at hhead
    simp only [Links.pushFront, hhead]
    refine ⟨rfl, hnd, @next_insert α _ L.next _ [] (x :: l) t h.nodup ht h.next ?_ ?_ ?_,
      @prev_insert α _ L.prev _ [] (x :: l) t h.nodup ht h.prev ?_ ?_ ?_⟩
    · simp
    · simp
    · intro a ha _
      exact Function.update_of_ne (by rintro rfl; exact ht (by simpa using ha)) _ _
    · simp
    · have htx : t ≠ x := by rintro rfl; simp at ht
      exact (Function.update_of_ne htx _ _).trans hp
    · intro a _ hax
      exact Function.update_of_ne (ne_head hax) _ _

theorem isDList_append {p : α} (h : IsDList L (l1 ++ [p])) (ht : t ∉ l1 ++ [p])
    (hn : L.next t = none) : IsDList (L.append p t) (l1 ++ [p, t]) := by
  have hpt : t ≠ p := by rintro rfl; simp at ht
  have hnd : ((l1 ++ [p]) ++ []).Nodup := by simpa using h.nodup
  have hnd' : ((l1 ++ [p]) ++ t :: []).Nodup := nodup_insert hnd (by simpa using ht)
  have e : l1 ++ [p, t] = (l1 ++ [p]) ++ t :: [] := by simp
  rw [e]
  refine ⟨by rw [Links.append]; simpa using h.head, hnd',
    next_insert hnd (by simpa using ht) (by simpa using h.next) ?_ ?_ ?_,
    prev_insert hnd (by simpa using ht) (by simpa using h.prev) (by simp) ?_ ?_⟩
  · intro p' hp'
    obtain rfl : p = p' := by simpa using hp'
    simp [Links.append]
  · simp [Links.append, Function.update_of_ne hpt, hn]
  · intro a _ hap
    exact Function.update_of_ne (ne_last hap) _ _
  · simp [Links.append]
  · intro a ha _
    exact Function.update_of_ne (by rintro rfl; exact ht (by simpa using ha)) _ _

theorem isDList_insertAfter {p : α} (h : IsDList L (l1 ++ p :: l2)) (ht : t ∉ l1 ++ p :: l2) :
    IsDList (L.insertAfter p t) (l1 ++ p :: t :: l2) := by
  have hpn := h.next_split
  have hpt : t ≠ p := by rintro rfl; simp at ht
  have e1 : l1 ++ p :: l2 = (l1 ++ [p]) ++ l2 := by simp
  have e2 : l1 ++ p :: t :: l2 = (l1 ++ [p]) ++ t :: l2 := by simp
  have hhead : L.head = ((l1 ++ [p]) ++ t :: l2).head? := by
    have := h.head
    cases l1 <;> simpa using this
  have hnext := h.next
  have hprev := h.prev
  have hnd := h.nodup
  rw [e1] at hnext hprev hnd ht
  rw [e2]
  refine ⟨hhead, nodup_insert hnd ht, next_insert hnd ht hnext ?_ ?_ ?_,
    prev_insert hnd ht hprev ?_ ?_ ?_⟩
  · intro p' hp'
    obtain rfl : p = p' := by simpa using hp'
    simp [Links.insertAfter]
  · simp [Links.insertAfter, Function.update_of_ne hpt, hpn]
  · intro a ha hap
    have hat : a ≠ t := by rintro rfl; exact ht ha
    exact (Function.update_of_ne (ne_last hap) _ _).trans (Function.update_of_ne hat _ _)
  · intro n hn
    simp [Links.insertAfter, hpn, hn]
  · rw [Links.insertAfter, hpn]
    cases l2 with
    | nil => simp
    | cons n l2 =>
      have : t ≠ n := by rintro rfl; simp at ht
      simp [Function.update_of_ne this]
  · intro a ha han
    have hat : a ≠ t := by rintro rfl; exact ht ha
    rw [Links.insertAfter, hpn]
    cases l2 with
    | nil => simp [Function.update_of_ne hat]
    | cons n l2 => simp [Function.update_of_ne (ne_head han), Function.update_of_ne hat]

/-- `insertBefore` an item that is not the first one is `insertAfter` its predecessor. -/
theorem insertBefore_eq_insertAfter {p q : α} (h : IsDList L (l1 ++ p :: q :: l2))
    (htp : t ≠ p) : L.insertBefore q t = L.insertAfter p t := by
  have hpn : L.next p = some q := h.next_split
  have hqp : L.prev q = some p := by
    have h' : IsDList L ((l1 ++ [p]) ++ q :: l2) := by simpa using h
    simpa using h'.prev_split
  simp only [Links.insertBefore, Links.insertAfter, hpn, hqp]
  rw [Function.update_comm htp]

theorem insertBefore_first {q : α} {l : List α} (h : IsDList L (q :: l)) :
    L.insertBefore q t = L.pushFront t := by
  have hqp : L.prev q = none := by
    have h' : IsDList L ([] ++ q :: l) := h
    simpa using h'.prev_split
  simp only [Links.insertBefore, hqp]

/-- `insertBefore q` splits the list right before `q`, wherever `q` stands. -/
theorem isDList_insertBefore {q : α} (h : IsDList L (l1 ++ q :: l2)) (ht : t ∉ l1 ++ q :: l2)
    (hn : L.next t = none) (hp : L.prev t = none) :
    IsDList (L.insertBefore q t) (l1 ++ t :: q :: l2) := by
  rcases List.eq_nil_or_concat l1 with rfl | ⟨k, p, rfl⟩
  · rw [insertBefore_first (by simpa using h)]
    exact isDList_pushFront h ht hn hp
  · simp only [List.concat_eq_append, List.append_assoc, List.singleton_append] at h ht ⊢
    have htp : t ≠ p := by rintro rfl; simp at ht
    rw [insertBefore_eq_insertAfter h htp]
    exact isDList_insertAfter h ht

/-! ### Items outside the list keep their links -/

variable {a : α}

theorem pushFront_frame {l : List α} (h : IsDList L l) (ha : a ∉ l) (hat : a ≠ t) :
    (L.pushFront t).next a = L.next a ∧ (L.pushFront t).prev a = L.prev a := by
  have hhead := h.head
  unfold Links.pushFront
  cases l with
  | nil =>
    simp only [List.head?_nil] at hhead
    simp [hhead]
  | cons x l =>
    simp only [List.head?_cons] at hhead
    have hax : a ≠ x := by rintro rfl; simp at ha
    simp [hhead, Function.update_of_ne hax, Function.update_of_ne hat]

theorem append_frame {p : α} (hap : a ≠ p) (hat : a ≠ t) :
    (L.append p t).next a = L.next a ∧ (L.append p t).prev a = L.prev a := by
  simp [Links.append, Function.update_of_ne hap, Function.update_of_ne hat]

theorem insertAfter_frame {p : α} (h : IsDList L (l1 ++ p :: l2)) (ha : a ∉ l1 ++ p :: l2)
    (hat : a ≠ t) :
    (L.insertAfter p t).next a = L.next a ∧ (L.insertAfter p t).prev a = L.prev a := by
  have hpn := h.next_split
  have hap : a ≠ p := by rintro rfl; simp at ha
  unfold Links.insertAfter
  rw [hpn]
  cases l2 with
  | nil => simp [Function.update_of_ne hap, Function.update_of_ne hat]
  | cons n l2 =>
    have han : a ≠ n := by rintro rfl; simp at ha
    simp [Function.update_of_ne hap, Function.update_of_ne hat, Function.update_of_ne han]

theorem insertBefore_frame {q : α} (h : IsDList L (l1 ++ q :: l2)) (ha : a ∉ l1 ++ q :: l2)
    (hat : a ≠ t) (ht : t ∉ l1 ++ q :: l2) :
    (L.insertBefore q t).next a = L.next a ∧ (L.insertBefore q t).prev a = L.prev a := by
  rcases List.eq_nil_or_concat l1 with rfl | ⟨k, p, rfl⟩
  · rw [insertBefore_first (by simpa using h)]
    exact pushFront_frame h ha hat
  · simp only [List.concat_eq_append, List.append_assoc, List.singleton_append] at h ha ht
    have htp : t ≠ p := by rintro rfl; simp at ht
    rw [insertBefore_eq_insertAfter h htp]
    exact insertAfter_frame h ha hat

end Edits

end DList
