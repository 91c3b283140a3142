/-
# QStack.Lib.Serial -- serial-number comparison on a fixed-width counter

A counter of `w` bits wraps, so two of its values are ordered by the sign of
their difference.  `lt`, `leq`, `gt` and `geq` are these comparisons.  They agree
with the order of the unwrapped positions as long as the two positions are less
than half the range apart (`lt_offset`, `leq_offset`, `gt_offset`); that side condition is the
only thing a user of the comparison ever has to establish.
-/
import Mathlib.Data.BitVec

namespace QStack.Lib.Serial

set_option autoImplicit false

variable {w : Nat}

def lt (a b : BitVec w) : Bool := decide ((a - b).toInt < 0)

def leq (a b : BitVec w) : Bool := decide ((a - b).toInt ≤ 0)

def gt (a b : BitVec w) : Bool := decide (0 < (a - b).toInt)

def geq (a b : BitVec w) : Bool := decide (0 ≤ (a - b).toInt)

theorem gt_eq_not_leq (a b : BitVec w) : gt a b = !leq a b := by
  unfold gt leq
  rw [← decide_not]
  simp only [Int.not_le]

theorem geq_eq_not_lt (a b : BitVec w) : geq a b = !lt a b := by
  unfold geq lt
  rw [← decide_not]
  simp only [Int.not_lt]

/-- The sign of a difference, read off its unsigned value. -/
theorem lt_iff_toNat (a b : BitVec w) : lt a b = true ↔ 2 ^ w ≤ 2 * (a - b).toNat := by
  simp only [lt, decide_eq_true_eq]
  have bound := (a - b).isLt
  rw [BitVec.toInt_eq_toNat_cond]
  split <;> omega

theorem leq_iff_toNat (a b : BitVec w) :
    leq a b = true ↔ a = b ∨ 2 ^ w ≤ 2 * (a - b).toNat := by
  have zero : (a - b).toInt = 0 ↔ a = b := by
    rw [← BitVec.toInt_zero (w := w), BitVec.toInt_inj]
    constructor
    · intro same
      have moved : a - b + b = 0#w + b := by rw [same]
      simpa using moved
    · rintro rfl
      simp
  have sign := lt_iff_toNat a b
  simp only [lt, decide_eq_true_eq] at sign
  simp only [leq, decide_eq_true_eq]
  rw [Int.le_iff_lt_or_eq, sign, zero, or_comm]

@[simp] theorem leq_self (a : BitVec w) : leq a a = true := by
  rw [leq_iff_toNat]; exact Or.inl rfl

@[simp] theorem lt_self (a : BitVec w) : lt a a = false := by
  simp [lt]

/-- What lies before `b` does not end beyond it. -/
theorem leq_succ_of_lt {a b : BitVec w} (before : lt a b = true) : leq (a + 1) b = true := by
  rw [lt_iff_toNat] at before
  have shifted : a + 1 - b = (a - b) + 1 := by rw [add_sub_right_comm]
  have bound := (a - b).isLt
  have value : (a - b + 1).toNat = ((a - b).toNat + 1) % 2 ^ w := by simp [BitVec.toNat_add]
  rw [leq_iff_toNat, shifted, value]
  by_cases last : (a - b).toNat + 1 = 2 ^ w
  · left
    have zero : a - b + 1 = 0#w := by
      apply BitVec.eq_of_toNat_eq
      rw [value, last, Nat.mod_self, BitVec.toNat_zero]
    rw [← shifted] at zero
    have moved : a + 1 - b + b = 0#w + b := by rw [zero]
    simpa using moved
  · right
    rw [Nat.mod_eq_of_lt (by omega)]
    omega

/-! ## Comparison of positions

`base + p` is the counter's value at the unwrapped position `p`. -/

section Offset

variable (base : BitVec w) {p q : Nat}

theorem sub_offset (p q : Nat) :
    ((base + BitVec.ofNat w p) - (base + BitVec.ofNat w q)).toInt =
      ((p : Int) - q).bmod (2 ^ w) := by
  rw [add_sub_add_left_eq_sub, BitVec.toInt_sub, BitVec.toInt_ofNat', BitVec.toInt_ofNat',
    Int.sub_bmod_bmod, Int.bmod_sub_bmod]

theorem toInt_sub_offset (near : 2 * p < 2 * q + 2 ^ w) (far : 2 * q ≤ 2 * p + 2 ^ w) :
    ((base + BitVec.ofNat w p) - (base + BitVec.ofNat w q)).toInt = (p : Int) - q := by
  rw [sub_offset]
  have near' : (2 : Int) * p < 2 * q + (2 ^ w : Nat) := by exact_mod_cast near
  have far' : (2 : Int) * q ≤ 2 * p + (2 ^ w : Nat) := by exact_mod_cast far
  apply Int.bmod_eq_of_le
  · omega
  · omega

theorem lt_offset (near : 2 * p < 2 * q + 2 ^ w) (far : 2 * q ≤ 2 * p + 2 ^ w) :
    lt (base + BitVec.ofNat w p) (base + BitVec.ofNat w q) = decide (p < q) := by
  rw [lt, toInt_sub_offset base near far]
  congr 1
  apply propext
  omega

theorem leq_offset (near : 2 * p < 2 * q + 2 ^ w) (far : 2 * q ≤ 2 * p + 2 ^ w) :
    leq (base + BitVec.ofNat w p) (base + BitVec.ofNat w q) = decide (p ≤ q) := by
  rw [leq, toInt_sub_offset base near far]
  congr 1
  apply propext
  omega

theorem gt_offset (near : 2 * p < 2 * q + 2 ^ w) (far : 2 * q ≤ 2 * p + 2 ^ w) :
    gt (base + BitVec.ofNat w p) (base + BitVec.ofNat w q) = decide (q < p) := by
  rw [gt_eq_not_leq, leq_offset base near far, ← decide_not]
  simp only [not_le]

/-- What is not behind a position lies less than half the range ahead of it. -/
theorem exists_offset_of_geq {a : BitVec w} (ahead : geq a (base + BitVec.ofNat w q) = true) :
    ∃ p, q ≤ p ∧ 2 * p < 2 * q + 2 ^ w ∧ a = base + BitVec.ofNat w p := by
  have near : 2 * (a - (base + BitVec.ofNat w q)).toNat < 2 ^ w := by
    by_contra far
    rw [geq_eq_not_lt, Bool.not_eq_true', Bool.eq_false_iff] at ahead
    exact ahead ((lt_iff_toNat _ _).mpr (Nat.le_of_not_lt far))
  refine ⟨q + (a - (base + BitVec.ofNat w q)).toNat, Nat.le_add_right _ _, by omega, ?_⟩
  rw [BitVec.ofNat_add, BitVec.ofNat_toNat, BitVec.setWidth_eq, ← add_assoc, add_sub_cancel]

/-- A position that is not beyond `base + limit` is within `limit` of `base`. -/
theorem le_of_not_gt (limit : BitVec w) (small : 2 * p < 2 ^ w)
    (inside : gt (base + BitVec.ofNat w p) (base + limit) = false) : p ≤ limit.toNat := by
  by_contra beyond
  rw [gt_eq_not_leq, Bool.not_eq_false', leq_iff_toNat, add_sub_add_left_eq_sub] at inside
  have value : (BitVec.ofNat w p).toNat = p := by
    rw [BitVec.toNat_ofNat, Nat.mod_eq_of_lt (by omega)]
  rcases inside with same | far
  · have := congrArg BitVec.toNat (add_left_cancel same)
    omega
  · rw [BitVec.toNat_sub_of_le (by rw [BitVec.le_def]; omega), value] at far
    omega

end Offset

end QStack.Lib.Serial
