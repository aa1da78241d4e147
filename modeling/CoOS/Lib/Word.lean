/-
  Arithmetic on 32-bit words held as `Nat`, and words with a tag in the low bit. Nothing
  here is about a kernel.
-/
import Mathlib.Data.Nat.Bitwise

namespace Word32

/-- `a - b` on 32-bit words. -/
def sub32 (a b : Nat) : Nat := (a + (2 ^ 32 - b)) % 2 ^ 32

/-- `a + b` on 32-bit words. -/
def add32 (a b : Nat) : Nat := (a + b) % 2 ^ 32

theorem sub32_of_le {a b : Nat} (ha : a < 2 ^ 32) (h : b ≤ a) : sub32 a b = a - b := by
  unfold sub32
  have : a + (2 ^ 32 - b) = (a - b) + 2 ^ 32 := by omega
  rw [this, Nat.add_mod_right, Nat.mod_eq_of_lt (by omega)]

theorem sub32_of_lt {a b : Nat} (h : a < b) (hb : b < 2 ^ 32) :
    sub32 a b = 2 ^ 32 - (b - a) := by
  unfold sub32
  rw [Nat.mod_eq_of_lt (by omega)]
  omega

theorem add32_of_lt {a b : Nat} (h : a + b < 2 ^ 32) : add32 a b = a + b :=
  Nat.mod_eq_of_lt h

/-! ## Tagged words -/

theorem sub32_tag {a : Nat} (h : a + 1 < 2 ^ 32) : sub32 (a + 1) 1 = a := by
  rw [sub32_of_le h (by omega), Nat.add_sub_cancel]

theorem or_one_of_even {a : Nat} (h : a % 2 = 0) : a ||| 1 = a + 1 := by
  have hd : 2 * (a / 2) = a := by omega
  have key := Nat.two_pow_add_eq_or_of_lt (i := 1) (b := 1) (by decide) (a / 2)
  rw [pow_one, hd] at key
  exact key.symm

theorem and_one (a : Nat) : a &&& 1 = a % 2 := Nat.and_one_is_mod a

end Word32
