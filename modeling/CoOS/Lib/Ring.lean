/-
  A ring of cells that holds a first-in first-out list. Nothing here is about a kernel.

  `Ring.items` reads the list off the cells, oldest item first, and `Ring.Ok` is the relation
  between the two indices and the number of items. `Fifo.replay` is the list on its own: a
  history of puts and gets, replayed on a bounded list that refuses to be overfilled and hands
  out only its oldest item.
-/
import Mathlib.Logic.Function.Basic
import Mathlib.Data.List.Basic
import Mathlib.Data.Nat.ModEq
import Mathlib.Tactic.Common

namespace Ring

open Function (update)

variable {α : Type} {buf : Nat → α} {head tail max size : Nat}

/-- The items, oldest first. -/
def items (buf : Nat → α) (head max size : Nat) : List α :=
  (List.range size).map fun i => buf ((head + i) % max)

structure Ok (head tail max size : Nat) : Prop where
  lt : head < max
  tail_eq : tail = (head + size) % max
  le : size ≤ max

theorem Ok.tail_lt (h : Ok head tail max size) : tail < max := by
  rw [h.tail_eq]
  exact Nat.mod_lt _ (Nat.zero_lt_of_lt h.lt)

theorem length_items : (items buf head max size).length = size := by
  unfold items
  rw [List.length_map, List.length_range]

/-- Cells less than a round apart are different. -/
theorem cell_ne {i j : Nat} (hi : i < j) (hj : j < max) : (head + i) % max ≠ (head + j) % max := by
  intro e
  have h1 : j - i < max := Nat.lt_of_le_of_lt (Nat.sub_le j i) hj
  have h2 : (head + i + 0) % max = (head + i + (j - i)) % max := by
    rw [Nat.add_zero, e]
    congr 1
    omega
  have h3 : 0 % max = (j - i) % max := Nat.ModEq.add_left_cancel' (head + i) h2
  rw [Nat.zero_mod, Nat.mod_eq_of_lt h1] at h3
  omega

theorem items_put (h : Ok head tail max size) (hs : size < max) (v : α) :
    items (update buf tail v) head max (size + 1) = items buf head max size ++ [v] := by
  unfold items
  rw [List.range_succ, List.map_append, List.map_singleton, ← h.tail_eq, Function.update_self]
  congr 1
  apply List.map_congr_left
  intro i hi
  refine Function.update_of_ne ?_ ..
  rw [h.tail_eq]
  exact cell_ne (List.mem_range.mp hi) hs

theorem Ok.put (h : Ok head tail max size) (hs : size < max) :
    Ok head ((tail + 1) % max) max (size + 1) := by
  refine ⟨h.lt, ?_, hs⟩
  rw [h.tail_eq, Nat.mod_add_mod, Nat.add_assoc]

theorem items_get (hh : head < max) :
    items buf head max (size + 1) = buf head :: items buf ((head + 1) % max) max size := by
  unfold items
  rw [List.range_succ_eq_map, List.map_cons, List.map_map, Nat.add_zero, Nat.mod_eq_of_lt hh]
  congr 1
  apply List.map_congr_left
  intro i _
  change buf ((head + (i + 1)) % max) = buf (((head + 1) % max + i) % max)
  rw [Nat.mod_add_mod, Nat.add_assoc, Nat.add_comm 1 i]

theorem Ok.get (h : Ok head tail max (size + 1)) : Ok ((head + 1) % max) tail max size := by
  refine ⟨Nat.mod_lt _ (Nat.zero_lt_of_lt h.lt), ?_, Nat.le_of_succ_le h.le⟩
  rw [h.tail_eq, Nat.mod_add_mod, Nat.add_assoc, Nat.add_comm 1 size]

/-- The next index, as a program with 16-bit indices computes it. -/
theorem next_eq {i : Nat} (hi : i < max) (hm : max < 65536) :
    (if (i + 1) % 65536 = max then 0 else (i + 1) % 65536) = (i + 1) % max := by
  rw [Nat.mod_eq_of_lt (by omega : i + 1 < 65536)]
  split
  · next e => rw [e, Nat.mod_self]
  · next e => rw [Nat.mod_eq_of_lt (by omega)]

end Ring

namespace Fifo

variable {α : Type} [DecidableEq α]

/-- An item enters, or leaves. -/
inductive Op (α : Type) where
  | put (v : α)
  | get (v : α)

def Op.puts : Op α → Option α
  | .put v => some v
  | .get _ => none

def Op.gets : Op α → Option α
  | .put _ => none
  | .get v => some v

/-- One operation on a list that holds at most `max` items. -/
def step (max : Nat) (l : List α) : Op α → Option (List α)
  | .put v => if l.length < max then some (l ++ [v]) else none
  | .get v => if l.head? = some v then some l.tail else none

/-- A history of operations, from the list `l`. -/
def replay (max : Nat) (l : List α) (ops : List (Op α)) : Option (List α) := ops.foldlM (step max) l

variable {max : Nat} {l l' : List α} {ops : List (Op α)}

theorem step_put (hl : l.length < max) (v : α) : step max l (.put v) = some (l ++ [v]) := if_pos hl

theorem step_get (v : α) (l : List α) : step max (v :: l) (.get v) = some l := if_pos rfl

theorem step_conserves {o : Op α} (h : step max l o = some l') :
    l ++ o.puts.toList = o.gets.toList ++ l' := by
  cases o with
  | put v =>
    change (if _ then _ else _) = _ at h
    split at h
    · exact Option.some.inj h
    · exact nomatch h
  | get v =>
    change (if _ then _ else _) = _ at h
    split at h
    · next hv =>
      obtain ⟨k, rfl⟩ := List.head?_eq_some_iff.mp hv
      rw [← Option.some.inj h]
      exact List.append_nil _
    · exact nomatch h

theorem replay_append {ops' : List (Op α)} {l1 : List α} (h : replay max l ops = some l1)
    (h' : replay max l1 ops' = some l') : replay max l (ops ++ ops') = some l' := by
  unfold replay at h h' ⊢
  rw [List.foldlM_append, h]
  exact h'

theorem replay_one {o : Op α} (h : step max l o = some l') : replay max l [o] = some l' := by
  unfold replay
  rw [List.foldlM_cons, h]
  rfl

/-- **Nothing is lost, doubled or overtaken**: what has left is what was there and what has
    entered since, in this order, up to what is still there. -/
theorem replay_conserves : ∀ (ops : List (Op α)) {l : List α}, replay max l ops = some l' →
    l ++ ops.filterMap Op.puts = ops.filterMap Op.gets ++ l' := by
  intro ops
  induction ops with
  | nil =>
    intro l h
    rw [Option.some.inj h]
    exact List.append_nil _
  | cons o ops ih =>
    intro l h
    unfold replay at h
    rw [List.foldlM_cons] at h
    obtain ⟨l1, h1, h2⟩ := Option.bind_eq_some_iff.mp h
    have hcons : ∀ f : Op α → Option α, (o :: ops).filterMap f = (f o).toList ++
      ops.filterMap f := by
      intro f
      rw [List.filterMap_cons]
      cases f o with
      | none => rfl
      | some v => rfl
    rw [hcons, hcons, ← List.append_assoc, step_conserves h1, List.append_assoc, ih h2,
      List.append_assoc]

end Fifo
