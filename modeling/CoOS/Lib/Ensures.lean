/-
  What a computation that may fail guarantees about its result. Nothing here is about a kernel.

  `Ensures x P` is a partial statement: it says nothing when `x` fails. The rules follow the
  ways in which such a computation is put together.
-/
import Mathlib.Data.Option.Basic

/-- Every result of `x` satisfies `P`. -/
def Ensures {α : Type} (x : Option α) (P : α → Prop) : Prop := ∀ a, x = some a → P a

namespace Ensures

variable {α β : Type} {x : Option α} {P Q : α → Prop} {R : β → Prop}

theorem some {a : α} (h : P a) : Ensures (Option.some a) P := by
  intro b e
  rw [← Option.some.inj e]
  exact h

theorem none : Ensures (Option.none : Option α) P := fun _ e => nomatch e

theorem imp (h : Ensures x P) (hi : ∀ a, P a → Q a) : Ensures x Q := fun a e => hi a (h a e)

theorem bind {f : α → Option β} (h : Ensures x P) (hf : ∀ a, P a → Ensures (f a) R) :
    Ensures (x >>= f) R := by
  intro b e
  obtain ⟨a, e1, e2⟩ := Option.bind_eq_some_iff.mp e
  exact hf a (h a e1) b e2

/-- The result of `x` does not matter. -/
theorem skip {f : α → Option β} (hf : ∀ a, Ensures (f a) R) : Ensures (x >>= f) R := by
  intro b e
  obtain ⟨a, _, e2⟩ := Option.bind_eq_some_iff.mp e
  exact hf a b e2

theorem map {f : α → β} (h : Ensures x fun a => R (f a)) : Ensures (x.map f) R := by
  intro b e
  obtain ⟨a, e1, e2⟩ := Option.map_eq_some_iff.mp e
  rw [← e2]
  exact h a e1

theorem ite {c : Prop} [Decidable c] {y : Option α} (h1 : c → Ensures x P)
    (h2 : ¬ c → Ensures y P) :
    Ensures (if c then x else y) P := by
  split
  · next h => exact h1 h
  · next h => exact h2 h

end Ensures
