/-
# QStack.Lib.Quota -- as much of a list as a quota allows

A consumer that looks at the items of a list one after the other, keeps those it wants and stops
when it has kept as many as it may.  `upTo p n xs` is the part it has looked at and the part it has
not: the two are the list (`upTo_split`), the first holds at most `n` items that are wanted
(`upTo_count`), and with fewer there is nothing left (`upTo_rest`).  A list in two pieces is looked
at piece by piece (`upTo_append`).
-/
import Mathlib.Data.List.Basic

namespace QStack.Lib.Quota

set_option autoImplicit false

variable {α β : Type}

/-- The shortest front part with `n` items that satisfy `p`, or everything, and what is behind it. -/
def upTo (p : α → Bool) : Nat → List α → List α × List α
  | 0, xs => ([], xs)
  | _ + 1, [] => ([], [])
  | n + 1, x :: xs =>
      let rest := upTo p (if p x then n else n + 1) xs
      (x :: rest.1, rest.2)

variable {p : α → Bool}

@[simp] theorem upTo_zero (xs : List α) : upTo p 0 xs = ([], xs) := by
  cases xs <;> rfl

@[simp] theorem upTo_nil (n : Nat) : upTo p n [] = ([], []) := by
  cases n <;> rfl

theorem upTo_split (n : Nat) (xs : List α) : (upTo p n xs).1 ++ (upTo p n xs).2 = xs := by
  induction xs generalizing n with
  | nil => rw [upTo_nil, List.append_nil]
  | cons x xs ih =>
      cases n with
      | zero => rw [upTo_zero, List.nil_append]
      | succ n =>
          rw [upTo, List.cons_append]
          exact congrArg (x :: ·) (ih _)

/-- What is kept are the first items that are wanted. -/
theorem upTo_filter (n : Nat) (xs : List α) : (upTo p n xs).1.filter p = (xs.filter p).take n := by
  induction xs generalizing n with
  | nil => rw [upTo_nil, List.filter_nil, List.take_nil]
  | cons x xs ih =>
      cases n with
      | zero => rw [upTo_zero, List.filter_nil, List.take_zero]
      | succ n =>
          rw [upTo]
          cases wanted : p x with
          | true =>
              rw [List.filter_cons_of_pos wanted, List.filter_cons_of_pos wanted, List.take_succ_cons,
                if_pos rfl]
              exact congrArg (x :: ·) (ih n)
          | false =>
              have unwanted : ¬ p x = true := Bool.eq_false_iff.mp wanted
              rw [List.filter_cons_of_neg unwanted, List.filter_cons_of_neg unwanted]
              exact ih (n + 1)

theorem upTo_count (n : Nat) (xs : List α) : ((upTo p n xs).1.filter p).length ≤ n := by
  rw [upTo_filter]
  exact List.length_take_le n _

/-- Nothing is left when the quota is not used up. -/
theorem upTo_rest (n : Nat) (xs : List α) (less : ((upTo p n xs).1.filter p).length < n) :
    (upTo p n xs).2 = [] := by
  induction xs generalizing n with
  | nil => rw [upTo_nil]
  | cons x xs ih =>
      cases n with
      | zero => exact absurd less (Nat.not_lt_zero _)
      | succ n =>
          rw [upTo] at less ⊢
          cases wanted : p x with
          | true =>
              rw [wanted, if_pos rfl, List.filter_cons_of_pos wanted, List.length_cons] at less
              exact ih n (Nat.lt_of_succ_lt_succ less)
          | false =>
              have unwanted : ¬ p x = true := Bool.eq_false_iff.mp wanted
              rw [List.filter_cons_of_neg unwanted, if_neg unwanted] at less
              exact ih (n + 1) less

/-- The second piece gets what the first one leaves of the quota. -/
theorem upTo_append (n : Nat) (xs ys : List α) :
    upTo p n (xs ++ ys) =
      ((upTo p n xs).1 ++ (upTo p (n - ((upTo p n xs).1.filter p).length) ys).1,
        (upTo p n xs).2 ++ (upTo p (n - ((upTo p n xs).1.filter p).length) ys).2) := by
  induction xs generalizing n with
  | nil => rw [upTo_nil]; rfl
  | cons x xs ih =>
      cases n with
      | zero => simp
      | succ n =>
          rw [List.cons_append, upTo, upTo, ih]
          cases wanted : p x with
          | true =>
              simp only [if_true, List.filter_cons_of_pos wanted, List.length_cons,
                Nat.succ_sub_succ, List.cons_append]
          | false =>
              have unwanted : ¬ p x = true := Bool.eq_false_iff.mp wanted
              rw [List.filter_cons_of_neg unwanted]
              rfl

end QStack.Lib.Quota
