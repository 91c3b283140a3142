/-
# QStack.Lib.Ring -- what a window of a slot array holds

A ring of `size` slots, read from index `tail`, holds the list `xs` when its
`i`-th slot from there holds the `i`-th element (`Holds`).  The producer writes
the slot `at tail xs.length` and the consumer reads the slot `at tail 0`; the
facts a queue needs about that are

* `holds_nil`: the empty window holds nothing, whatever the slots contain;
* `holds_write`: writing the first free slot is not visible in the window;
* `holds_push`: extending the window over a written slot appends;
* `holds_pop`: advancing the start drops the first element;
* `index_succ`: advancing an index by one is advancing its offset by one.

Slots outside the window are never mentioned, so stale contents are allowed.
-/
import Mathlib.Data.Nat.ModEq

namespace QStack.Lib.Ring

set_option autoImplicit false

variable {α : Type} {size : Nat}

/-- The slot `i` places after `start`. -/
def index (size start i : Nat) : Nat := (start + i) % size

theorem index_lt (positive : 0 < size) (start i : Nat) : index size start i < size :=
  Nat.mod_lt _ positive

theorem index_zero {start : Nat} (inside : start < size) : index size start 0 = start :=
  Nat.mod_eq_of_lt inside

theorem index_succ (start i : Nat) : (index size start i + 1) % size = index size start (i + 1) := by
  simp only [index, Nat.mod_add_mod, Nat.add_assoc]

theorem index_shift (start i : Nat) :
    index size ((start + 1) % size) i = index size start (i + 1) := by
  simp only [index, Nat.mod_add_mod]
  congr 1
  omega

/-- Offsets below the size name different slots. -/
theorem index_inj {start i j : Nat} (hi : i < size) (hj : j < size)
    (same : index size start i = index size start j) : i = j := by
  have congruent : start + i ≡ start + j [MOD size] := same
  have offsets : i ≡ j [MOD size] := Nat.ModEq.add_left_cancel' start congruent
  exact Nat.ModEq.eq_of_lt_of_lt offsets hi hj

/-- The slots from `tail` on hold `xs`, in order. -/
def Holds (size : Nat) (slot : Nat → Option α) (tail : Nat) (xs : List α) : Prop :=
  ∀ i (inside : i < xs.length), slot (index size tail i) = some xs[i]

theorem holds_nil (slot : Nat → Option α) (tail : Nat) : Holds size slot tail [] := by
  intro i inside
  exact absurd inside (Nat.not_lt_zero i)

theorem holds_write {slot : Nat → Option α} {tail : Nat} {xs : List α} (a : Option α)
    (room : xs.length < size) (holds : Holds size slot tail xs) :
    Holds size (Function.update slot (index size tail xs.length) a) tail xs := by
  intro i inside
  have other : index size tail i ≠ index size tail xs.length := by
    intro same
    have := index_inj (by omega) room same
    omega
  rw [Function.update_of_ne other, holds i inside]

theorem holds_push {slot : Nat → Option α} {tail : Nat} {xs : List α} {a : α}
    (written : slot (index size tail xs.length) = some a) (holds : Holds size slot tail xs) :
    Holds size slot tail (xs ++ [a]) := by
  intro i inside
  rw [List.length_append, List.length_singleton] at inside
  rcases Nat.lt_succ_iff_lt_or_eq.mp inside with older | newest
  · rw [holds i older, List.getElem_append_left older]
  · subst newest
    rw [written]
    simp

theorem holds_head {slot : Nat → Option α} {tail : Nat} {a : α} {xs : List α}
    (inside : tail < size) (holds : Holds size slot tail (a :: xs)) : slot tail = some a := by
  have first := holds 0 (Nat.zero_lt_succ _)
  rwa [index_zero inside] at first

theorem holds_pop {slot : Nat → Option α} {tail : Nat} {a : α} {xs : List α}
    (holds : Holds size slot tail (a :: xs)) : Holds size slot ((tail + 1) % size) xs := by
  intro i inside
  rw [index_shift]
  exact holds (i + 1) (Nat.succ_lt_succ inside)

end QStack.Lib.Ring
