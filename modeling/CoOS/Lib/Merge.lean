/-
  Two sequences that were recorded apart, put together in the order in which their items came.
  Nothing here is about a kernel.
-/
import Mathlib.Data.List.Perm.Basic
import Mathlib.Tactic.Common

variable {α : Type} {xs ys zs : List α}

/-- `zs` has the items of `xs` and those of `ys`, each in their order. -/
inductive Merge : List α → List α → List α → Prop
  | nil : Merge [] [] []
  | left {xs ys zs : List α} (x : α) (h : Merge xs ys zs) : Merge (xs ++ [x]) ys (zs ++ [x])
  | right {xs ys zs : List α} (y : α) (h : Merge xs ys zs) : Merge xs (ys ++ [y]) (zs ++ [y])

namespace Merge

/-- Nothing is lost, and nothing is there twice. -/
theorem perm (h : Merge xs ys zs) : zs.Perm (xs ++ ys) := by
  induction h with
  | nil => exact List.Perm.refl _
  | @left xs ys zs x h ih =>
    calc (zs ++ [x]).Perm (xs ++ ys ++ [x]) := ih.append_right _
      _ = xs ++ (ys ++ [x]) := List.append_assoc ..
      _ |>.Perm (xs ++ ([x] ++ ys)) := List.perm_append_comm.append_left xs
      _ = xs ++ [x] ++ ys := (List.append_assoc ..).symm
  | @right xs ys zs y h ih =>
    rw [← List.append_assoc]
    exact ih.append_right _

theorem leftOpt (o : Option α) (h : Merge xs ys zs) :
    Merge (xs ++ o.toList) ys (zs ++ o.toList) := by
  cases o with
  | none => rwa [Option.toList_none, List.append_nil, List.append_nil]
  | some x => exact h.left x

theorem rightOpt (o : Option α) (h : Merge xs ys zs) :
    Merge xs (ys ++ o.toList) (zs ++ o.toList) := by
  cases o with
  | none => rwa [Option.toList_none, List.append_nil, List.append_nil]
  | some y => exact h.right y

theorem length (h : Merge xs ys zs) : zs.length = xs.length + ys.length :=
  h.perm.length_eq.trans List.length_append

end Merge
