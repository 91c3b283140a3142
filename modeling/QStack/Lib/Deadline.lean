/-
# QStack.Lib.Deadline -- lists that are scanned from the front until nothing is due

A scan takes the items that are due off the front of a list and stops at the first that is not.  It
takes all that are due exactly when none of them stands behind one that is not
(`takeWhile_eq_filter_iff`); a list in the order of the stamps has this at every time, whatever
delay is added to the stamp (`Ordered.scan`).  `append`, `moveLast` and `restamp_iff` are the ways in
which such a list is changed.

A counter of `w` bits tells whether a deadline has passed as long as the two are less than half its
range apart (`passed_iff`).
-/
import Mathlib.Data.List.Pairwise
import Mathlib.Data.List.Nodup
import QStack.Lib.Serial

namespace QStack.Lib.Deadline

set_option autoImplicit false

/-! ## Scans -/

section Scan

variable {α : Type}

/-- A scan takes all that is due exactly when nothing that is due stands behind what is not. -/
theorem takeWhile_eq_filter_iff (due : α → Bool) (xs : List α) :
    xs.takeWhile due = xs.filter due ↔ xs.Pairwise fun a b => due b = true → due a = true := by
  induction xs with
  | nil => exact iff_of_true rfl .nil
  | cons a xs ih =>
      rw [List.takeWhile_cons, List.filter_cons, List.pairwise_cons, ← ih]
      cases h : due a with
      | true => simp
      | false =>
          simp only [Bool.false_eq_true, if_false]
          constructor
          · intro none
            have none := List.filter_eq_nil_iff.mp none.symm
            refine ⟨fun b mem due => absurd due (none b mem), ?_⟩
            rw [List.filter_eq_nil_iff.mpr none]
            cases xs with
            | nil => rfl
            | cons b xs => exact List.takeWhile_cons_of_neg (none b List.mem_cons_self)
          · intro both
            refine (List.filter_eq_nil_iff.mpr fun b mem due => ?_).symm
            exact both.1 b mem due

theorem takeWhile_congr {due due' : α → Bool} {xs : List α} (same : ∀ a ∈ xs, due a = due' a) :
    xs.takeWhile due = xs.takeWhile due' := by
  induction xs with
  | nil => rfl
  | cons a xs ih =>
      rw [List.takeWhile_cons, List.takeWhile_cons, same a List.mem_cons_self,
        ih fun b mem => same b (List.mem_cons_of_mem a mem)]

/-- The earlier stamp stands in front. -/
def Ordered (stamp : α → Nat) (xs : List α) : Prop := xs.Pairwise fun a b => stamp a ≤ stamp b

variable {stamp stamp' : α → Nat} {xs ys : List α}

theorem Ordered.nil (stamp : α → Nat) : Ordered stamp [] := List.Pairwise.nil

theorem Ordered.sublist (ordered : Ordered stamp ys) (part : xs.Sublist ys) : Ordered stamp xs :=
  List.Pairwise.sublist part ordered

theorem Ordered.congr (ordered : Ordered stamp xs) (same : ∀ a ∈ xs, stamp' a = stamp a) :
    Ordered stamp' xs :=
  List.Pairwise.imp_of_mem (fun {a b} inside inside' le => by
    rw [same a inside, same b inside']
    exact le) ordered

/-- A scan of an ordered list takes all that is due. -/
theorem Ordered.scan (ordered : Ordered stamp xs) (wait now : Nat) :
    xs.takeWhile (fun a => decide (stamp a + wait ≤ now)) =
      xs.filter fun a => decide (stamp a + wait ≤ now) := by
  refine (takeWhile_eq_filter_iff _ xs).mpr (List.Pairwise.imp ?_ ordered)
  intro a b le due
  rw [decide_eq_true_iff] at due ⊢
  omega

/-- The last stamp is the latest. -/
theorem Ordered.append {a : α} (ordered : Ordered stamp xs) (last : ∀ b ∈ xs, stamp b ≤ stamp a) :
    Ordered stamp (xs ++ [a]) := by
  refine List.pairwise_append.mpr ⟨ordered, List.pairwise_singleton _ a, ?_⟩
  intro b mem c single
  rw [List.mem_singleton.mp single]
  exact last b mem

variable [DecidableEq α]

theorem mem_moveLast {a b : α} (other : b ≠ a) : b ∈ xs.erase a ++ [a] ↔ b ∈ xs := by
  rw [List.mem_append, List.mem_singleton, List.mem_erase_of_ne other, or_iff_left other]

theorem nodup_moveLast {a : α} (once : xs.Nodup) : (xs.erase a ++ [a]).Nodup :=
  (once.erase a).append (List.nodup_singleton a) (List.disjoint_singleton.mpr once.not_mem_erase)

theorem erase_moveLast {a : α} (once : xs.Nodup) : (xs.erase a ++ [a]).erase a = xs.erase a := by
  rw [List.erase_append_right _ once.not_mem_erase, List.erase_cons_head, List.append_nil]

/-- An item gets a new stamp, which is the latest, and goes to the end. -/
theorem Ordered.moveLast {a : α} {now : Nat} (ordered : Ordered stamp xs) (once : xs.Nodup)
    (last : ∀ b ∈ xs.erase a, stamp b ≤ now) :
    Ordered (Function.update stamp a now) (xs.erase a ++ [a]) := by
  have away : ∀ b ∈ xs.erase a, Function.update stamp a now b = stamp b := fun b mem =>
    Function.update_of_ne (once.mem_erase_iff.mp mem).1 _ _
  refine ((ordered.sublist List.erase_sublist).congr away).append fun b mem => ?_
  rw [away b mem, Function.update_self]
  exact last b mem

/-- An item gets a new stamp, which is the latest, where it stands: the order is kept exactly if all
behind it have that stamp too. -/
theorem Ordered.restamp_iff {a : α} {now : Nat} (ordered : Ordered stamp (xs ++ a :: ys))
    (once : (xs ++ a :: ys).Nodup) (last : ∀ b ∈ xs ++ a :: ys, stamp b ≤ now) :
    Ordered (Function.update stamp a now) (xs ++ a :: ys) ↔ ∀ b ∈ ys, stamp b = now := by
  have front : ∀ b ∈ xs, Function.update stamp a now b = stamp b := fun b mem =>
    Function.update_of_ne (fun same => (List.nodup_append.mp once).2.2 b mem a
      List.mem_cons_self same) _ _
  have behind : ∀ b ∈ ys, Function.update stamp a now b = stamp b := fun b mem =>
    Function.update_of_ne (fun same : b = a =>
      (List.nodup_cons.mp (List.nodup_append.mp once).2.1).1 (same ▸ mem)) _ _
  obtain ⟨first, second, across⟩ := List.pairwise_append.mp ordered
  constructor
  · intro kept b mem
    have le := (List.pairwise_cons.mp (List.pairwise_append.mp kept).2.1).1 b mem
    rw [Function.update_self, behind b mem] at le
    exact Nat.le_antisymm
      (last b (List.mem_append_right xs (List.mem_cons_of_mem a mem))) le
  · intro late
    refine List.pairwise_append.mpr ⟨Ordered.congr first front, List.pairwise_cons.mpr
      ⟨fun b mem => ?_, Ordered.congr (List.pairwise_cons.mp second).2 behind⟩, ?_⟩
    · rw [Function.update_self, behind b mem, late b mem]
    · intro b front' c back
      rw [front b front']
      rcases List.mem_cons.mp back with rfl | rest
      · rw [Function.update_self]
        exact last b (List.mem_append_left _ front')
      · rw [behind c rest]
        exact across b front' c back

end Scan

/-! ## Counters -/

section Counter

variable {w : Nat} {now then_ : Nat}

/-- The counter tells that `wait` has passed. -/
theorem passed_iff (near : 2 * now < 2 * then_ + 2 ^ w) (far : 2 * then_ ≤ 2 * now + 2 ^ w)
    (wait : BitVec w) :
    (!(BitVec.ofNat w now - BitVec.ofNat w then_).slt wait) = true ↔
      (then_ : Int) + wait.toInt ≤ now := by
  have value := Serial.toInt_sub_offset (0 : BitVec w) near far
  rw [zero_add, zero_add] at value
  rw [BitVec.slt_eq_decide, value, Bool.not_eq_true', decide_eq_false_iff_not, not_lt]
  omega

end Counter

end QStack.Lib.Deadline
