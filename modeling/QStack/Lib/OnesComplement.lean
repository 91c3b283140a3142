/-
# QStack.Lib.OnesComplement -- one's complement sums

Numbers from 0 to `m`, where `m` is all ones.  An addition that passes `m` adds its carry back at
the low end; 0 and `m` stand for the same number, but only a sum of nothing but zeros is 0.

`reduce` is the value of an exact sum in this arithmetic, so a sum may be taken without carries and
folded at the end (`sum_eq_reduce`, `reduce_fold`), and in the other byte order
(`reduce_sum_swap`).  With the complement of a sum added the sum is all ones (`reduce_complement`).
-/
import Mathlib.Data.Nat.ModEq
import Mathlib.Algebra.BigOperators.Group.List.Basic

namespace QStack.Lib.OnesComplement

set_option autoImplicit false

def add (m a b : Nat) : Nat := if a + b ≤ m then a + b else a + b - m

def sum (m : Nat) (xs : List Nat) : Nat := xs.foldl (add m) 0

/-- What an exact sum amounts to. -/
def reduce (m s : Nat) : Nat := if s = 0 then 0 else (s - 1) % m + 1

variable {m : Nat}

@[simp] theorem reduce_zero (m : Nat) : reduce m 0 = 0 := rfl

theorem reduce_eq_zero {s : Nat} : reduce m s = 0 ↔ s = 0 := by
  unfold reduce
  split
  · rename_i zero
    exact iff_of_true rfl zero
  · rename_i positive
    exact iff_of_false (Nat.succ_ne_zero _) positive

theorem reduce_of_le {s : Nat} (le : s ≤ m) : reduce m s = s := by
  unfold reduce
  split
  · rename_i zero
    exact zero.symm
  · rw [Nat.mod_eq_of_lt (by omega)]
    omega

theorem reduce_le (positive : 0 < m) (s : Nat) : reduce m s ≤ m := by
  unfold reduce
  split
  · exact Nat.zero_le m
  · exact Nat.mod_lt _ positive

theorem reduce_modEq (m s : Nat) : reduce m s ≡ s [MOD m] := by
  unfold reduce
  split
  · rename_i zero
    rw [zero]
  · rename_i positive
    have split : s = s - 1 + 1 := by omega
    conv_rhs => rw [split]
    exact (Nat.mod_modEq _ _).add_right 1

/-- Two sums amount to the same when they are congruent, and both 0 or neither. -/
theorem reduce_congr {s t : Nat} (same : s ≡ t [MOD m]) (zero : s = 0 ↔ t = 0) :
    reduce m s = reduce m t := by
  unfold reduce
  by_cases none : s = 0
  · rw [if_pos none, if_pos (zero.mp none)]
  · have positive : t ≠ 0 := fun empty => none (zero.mpr empty)
    rw [if_neg none, if_neg positive]
    have less : s - 1 ≡ t - 1 [MOD m] := by
      refine Nat.ModEq.add_right_cancel' 1 ?_
      rwa [Nat.sub_add_cancel (Nat.pos_of_ne_zero none),
        Nat.sub_add_cancel (Nat.pos_of_ne_zero positive)]
    exact congrArg (· + 1) less

theorem reduce_add_left (s t : Nat) : reduce m (reduce m s + t) = reduce m (s + t) := by
  refine reduce_congr ((reduce_modEq m s).add_right t) ?_
  rw [Nat.add_eq_zero_iff, Nat.add_eq_zero_iff, reduce_eq_zero]

theorem add_eq_reduce {a b : Nat} (first : a ≤ m) (second : b ≤ m) :
    add m a b = reduce m (a + b) := by
  unfold add
  split
  · rename_i le
    exact (reduce_of_le le).symm
  · rename_i carries
    have less : a + b - m ≤ m := by omega
    rw [← reduce_of_le less]
    refine reduce_congr ?_ (by omega)
    have split : a + b = a + b - m + m := by omega
    conv_rhs => rw [split]
    exact Nat.ModEq.symm (Nat.add_mod_right _ _)

/-- **A sum with end-around carries is the exact sum, reduced.** -/
theorem sum_eq_reduce (positive : 0 < m) {xs : List Nat} (small : ∀ x ∈ xs, x ≤ m) :
    sum m xs = reduce m xs.sum := by
  have from_ : ∀ (xs : List Nat) (s : Nat), (∀ x ∈ xs, x ≤ m) →
      xs.foldl (add m) (reduce m s) = reduce m (s + xs.sum) := by
    intro xs
    induction xs with
    | nil => exact fun _ _ => rfl
    | cons x xs ih =>
        intro s small
        obtain ⟨first, rest⟩ := List.forall_mem_cons.mp small
        rw [List.foldl_cons, add_eq_reduce (reduce_le positive s) first, reduce_add_left,
          ih _ rest, List.sum_cons, Nat.add_assoc]
  have whole := from_ xs 0 small
  rwa [reduce_zero, Nat.zero_add] at whole

/-- Adding the high part of a sum to its low part changes nothing. -/
theorem reduce_fold (s : Nat) : reduce m (s / (m + 1) + s % (m + 1)) = reduce m s := by
  refine reduce_congr ?_ ?_
  · have whole := Nat.div_add_mod s (m + 1)
    have high : (m + 1) * (s / (m + 1)) ≡ s / (m + 1) [MOD m] := by
      rw [Nat.add_mul, Nat.one_mul]
      exact Nat.add_comm _ _ ▸ Nat.add_mul_mod_self_left _ _ _
    have sums := high.add_right (s % (m + 1))
    rw [whole] at sums
    exact sums.symm
  · constructor
    · intro none
      obtain ⟨high, low⟩ := Nat.add_eq_zero_iff.mp none
      rw [← Nat.div_add_mod s (m + 1), high, low, Nat.mul_zero]
    · rintro rfl
      rw [Nat.zero_div, Nat.zero_mod]

/-- **A sum and its complement** are all ones. -/
theorem reduce_complement (positive : 0 < m) (s : Nat) :
    reduce m (s + (m - reduce m s)) = m := by
  rw [← reduce_add_left, Nat.add_sub_cancel' (reduce_le positive s), reduce_of_le (Nat.le_refl m)]

/-! ## The order of the digits -/

/-- A number of two digits to the base `b`, in the other order. -/
def swap (b x : Nat) : Nat := x % b * b + x / b

variable {b : Nat}

theorem swap_eq_zero (base : 0 < b) {x : Nat} : swap b x = 0 ↔ x = 0 := by
  unfold swap
  rw [Nat.add_eq_zero_iff, Nat.mul_eq_zero]
  constructor
  · rintro ⟨low | none, high⟩
    · rw [← Nat.div_add_mod x b, high, low, Nat.mul_zero]
    · omega
  · rintro rfl
    exact ⟨.inl (Nat.zero_mod b), Nat.zero_div b⟩

/-- The other order is a multiple, where the two digits are all there is. -/
theorem swap_modEq (all : m + 1 = b * b) (x : Nat) : swap b x ≡ b * x [MOD m] := by
  have digits : b * x = x % b * b + b * b * (x / b) := by
    conv_lhs => rw [← Nat.div_add_mod x b, Nat.mul_add, ← Nat.mul_assoc]
    rw [Nat.add_comm, Nat.mul_comm b (x % b)]
  have high : b * b * (x / b) ≡ x / b [MOD m] := by
    rw [← all, Nat.add_mul, Nat.one_mul]
    exact Nat.add_comm _ _ ▸ Nat.add_mul_mod_self_left _ _ _
  rw [swap, digits]
  exact (high.add_left _).symm

theorem swap_le (base : 0 < b) (all : m + 1 = b * b) {x : Nat} (small : x ≤ m) :
    swap b x ≤ m := by
  have low : x % b + 1 ≤ b := Nat.mod_lt x base
  have high : x / b < b := Nat.div_lt_of_lt_mul (by omega)
  have product := Nat.mul_le_mul_right b low
  rw [Nat.add_mul, Nat.one_mul] at product
  unfold swap
  omega

/-- **A sum does not depend on the order of the digits**, if that of the result is the same. -/
theorem reduce_sum_swap (base : 0 < b) (all : m + 1 = b * b) (positive : 0 < m) (xs : List Nat) :
    reduce m (xs.map (swap b)).sum = swap b (reduce m xs.sum) := by
  have sums : (xs.map (swap b)).sum ≡ b * xs.sum [MOD m] ∧
      ((xs.map (swap b)).sum = 0 ↔ xs.sum = 0) := by
    induction xs with
    | nil => exact ⟨rfl, Iff.rfl⟩
    | cons x xs ih =>
        rw [List.map_cons, List.sum_cons, List.sum_cons, Nat.mul_add]
        refine ⟨(swap_modEq all x).add ih.1, ?_⟩
        rw [Nat.add_eq_zero_iff, Nat.add_eq_zero_iff, swap_eq_zero base, ih.2]
  rw [← reduce_of_le (swap_le base all (reduce_le positive xs.sum))]
  refine reduce_congr (sums.1.trans ?_) ?_
  · exact (((reduce_modEq m xs.sum).mul_left b).symm).trans (swap_modEq all _).symm
  · rw [sums.2, swap_eq_zero base, reduce_eq_zero]

end QStack.Lib.OnesComplement
