/-
# QStack.Lib.Prefix -- prefixes of words, and their masks

A word of `n + k` bits has its first `n` bits in the quotient by `2 ^ k`.  `mask n k` has ones in
just these places, and words with the same bits under it are those with the same prefix
(`and_mask_eq_iff`).
-/
import Mathlib.Data.Nat.Bitwise

namespace QStack.Lib.Prefix

set_option autoImplicit false

/-- The same bits, but for the last `k`. -/
def Agree (k x y : Nat) : Prop := x / 2 ^ k = y / 2 ^ k

instance (k x y : Nat) : Decidable (Agree k x y) := inferInstanceAs (Decidable (_ = _))

/-- `n` ones, and `k` zeros behind them. -/
def mask (n k : Nat) : Nat := (2 ^ n - 1) <<< k

theorem agree_zero {x y : Nat} : Agree 0 x y ↔ x = y := by simp [Agree]

/-- What is left of a word under the mask is its prefix. -/
theorem and_mask {n k x : Nat} (small : x < 2 ^ (n + k)) : x &&& mask n k = (x / 2 ^ k) <<< k := by
  have quotient : x / 2 ^ k < 2 ^ n := by
    rw [Nat.div_lt_iff_lt_mul (Nat.two_pow_pos k), ← Nat.pow_add]
    exact small
  have inside : (x >>> k) &&& (2 ^ n - 1) = x / 2 ^ k := by
    rw [Nat.and_two_pow_sub_one_eq_mod, Nat.shiftRight_eq_div_pow, Nat.mod_eq_of_lt quotient]
  rw [← inside]
  apply Nat.eq_of_testBit_eq
  intro i
  simp only [mask, Nat.testBit_and, Nat.testBit_shiftLeft, Nat.testBit_shiftRight]
  by_cases high : k ≤ i
  · simp [high, Nat.add_sub_cancel' high]
  · simp [high]

theorem and_mask_eq_iff {n k x y : Nat} (small : x < 2 ^ (n + k)) (small' : y < 2 ^ (n + k)) :
    x &&& mask n k = y &&& mask n k ↔ Agree k x y := by
  rw [and_mask small, and_mask small']
  constructor
  · intro same
    have shifted := congrArg (· >>> k) same
    simpa [Nat.shiftLeft_shiftRight, Agree] using shifted
  · intro agree
    rw [show x / 2 ^ k = y / 2 ^ k from agree]

end QStack.Lib.Prefix
