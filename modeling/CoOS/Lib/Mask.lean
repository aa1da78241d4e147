/-
  Bit masks as sets of bits. Nothing here is about a kernel.
-/
import Mathlib.Data.BitVec

namespace Mask

variable {w : Nat} {x y z : BitVec w}

/-- The bits of `x` are among those of `y`. -/
def Within (x y : BitVec w) : Prop := x &&& y = x

instance (x y : BitVec w) : Decidable (Within x y) := inferInstanceAs (Decidable (_ = _))

theorem within_iff : Within x y ↔ ∀ i, x.getLsbD i = true → y.getLsbD i = true := by
  refine ⟨fun h i hi => ?_, fun h => ?_⟩
  · have := congrArg (·.getLsbD i) h
    simp only [BitVec.getLsbD_and, hi, Bool.true_and] at this
    exact this
  · refine BitVec.eq_of_getLsbD_eq fun i _ => ?_
    rw [BitVec.getLsbD_and]
    cases hx : x.getLsbD i with
    | false => rfl
    | true => rw [h i hx, Bool.true_and]

theorem Within.refl (x : BitVec w) : Within x x := BitVec.and_self

theorem within_zero (y : BitVec w) : Within 0 y := BitVec.zero_and

theorem Within.trans (h : Within x y) (h' : Within y z) : Within x z :=
  within_iff.mpr fun i hi => within_iff.mp h' i (within_iff.mp h i hi)

theorem Within.or_right (h : Within x y) (z : BitVec w) : Within x (y ||| z) :=
  within_iff.mpr fun i hi => by
    rw [BitVec.getLsbD_or, within_iff.mp h i hi, Bool.true_or]

theorem Within.or (h : Within x z) (h' : Within y z) : Within (x ||| y) z :=
  within_iff.mpr fun i hi => by
    rw [BitVec.getLsbD_or, Bool.or_eq_true] at hi
    exact hi.elim (within_iff.mp h i) (within_iff.mp h' i)

theorem within_or (x y : BitVec w) : Within y (x ||| y) := by
  rw [BitVec.or_comm]
  exact (Within.refl y).or_right x

theorem Within.and_left (h : Within x y) (z : BitVec w) : Within (x &&& z) y :=
  within_iff.mpr fun i hi => by
    rw [BitVec.getLsbD_and, Bool.and_eq_true] at hi
    exact within_iff.mp h i hi.1

theorem Within.and (h : Within x y) (z : BitVec w) : Within (x &&& z) (y &&& z) :=
  within_iff.mpr fun i hi => by
    rw [BitVec.getLsbD_and, Bool.and_eq_true] at hi ⊢
    exact ⟨within_iff.mp h i hi.1, hi.2⟩

theorem and_not_eq (h : x &&& y = 0) : x &&& ~~~ y = x := by
  refine BitVec.eq_of_getLsbD_eq fun i hi => ?_
  have hb : (x.getLsbD i && y.getLsbD i) = false := by
    rw [← BitVec.getLsbD_and, h]
    exact BitVec.getLsbD_zero
  rw [BitVec.getLsbD_and, BitVec.getLsbD_not, decide_eq_true hi, Bool.true_and]
  cases hx : x.getLsbD i with
  | false => rfl
  | true =>
    rw [hx, Bool.true_and] at hb
    rw [hb]
    rfl

/-- The bits are cleared and set again. -/
theorem Within.clear_set (h : Within x y) : (y &&& ~~~ x) ||| x = y := by
  refine BitVec.eq_of_getLsbD_eq fun i hi => ?_
  rw [BitVec.getLsbD_or, BitVec.getLsbD_and, BitVec.getLsbD_not, decide_eq_true hi, Bool.true_and]
  cases hx : x.getLsbD i with
  | false => rw [Bool.not_false, Bool.and_true, Bool.or_false]
  | true => rw [within_iff.mp h i hx, Bool.or_true]

theorem and_not_and_not
    (x y z : BitVec w) : (x &&& ~~~ z) &&& (y &&& ~~~ z) = (x &&& ~~~ z) &&& y := by
  rw [BitVec.and_comm y, ← BitVec.and_assoc, BitVec.and_assoc x, BitVec.and_self]

end Mask
