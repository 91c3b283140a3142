/-
# QStack.Universal -- result codes and the TCP sequence comparisons

The result codes of `ps.h` and `universal.h`, as the integers the code tests.
`FAILED` is not zero: a bare `if (call())` takes its true branch on a failure,
and several places of the stack do just that, so the codes stay integers here
and `truthy` is the test C makes.

Sequence numbers are 32-bit words.  The four comparison macros of `protocol.h`
are the serial comparisons of `QStack.Lib.Serial`.
-/
import QStack.Lib.Serial

namespace QStack

set_option autoImplicit false

/-- What `if (r)` tests. -/
def truthy (r : Int) : Bool := decide (r ≠ 0)

def success : Int := 1

def failed : Int := -2

def error : Int := -1

abbrev Seq := BitVec 32

abbrev tcpSeqLt (a b : Seq) : Bool := Lib.Serial.lt a b

abbrev tcpSeqLeq (a b : Seq) : Bool := Lib.Serial.leq a b

abbrev tcpSeqGt (a b : Seq) : Bool := Lib.Serial.gt a b

abbrev tcpSeqGeq (a b : Seq) : Bool := Lib.Serial.geq a b

theorem tcpSeqGt_eq (a b : Seq) : tcpSeqGt a b = !tcpSeqLeq a b := Lib.Serial.gt_eq_not_leq a b

theorem tcpSeqGeq_eq (a b : Seq) : tcpSeqGeq a b = !tcpSeqLt a b := Lib.Serial.geq_eq_not_lt a b

theorem tcpSeqGeq_of_gt {a b : Seq} (after : tcpSeqGt a b = true) : tcpSeqGeq a b = true := by
  simp only [tcpSeqGt, tcpSeqGeq, Lib.Serial.gt, Lib.Serial.geq, decide_eq_true_eq] at after ⊢
  omega

/-- The only number after `b` that is not beyond `b + 1`. -/
theorem tcpSeq_eq_succ {a b : Seq} (above : tcpSeqLeq a b = false)
    (below : tcpSeqGt a (b + 1) = false) : a = b + 1 := by
  rw [tcpSeqGt_eq, Bool.not_eq_false', tcpSeqLeq, Lib.Serial.leq_iff_toNat] at below
  rw [tcpSeqLeq, Bool.eq_false_iff, Ne, Lib.Serial.leq_iff_toNat, not_or] at above
  rcases below with same | far
  · exact same
  · bv_omega

/-! ## Positions

An unwrapped position counts from a base, say the initial sequence number. -/

def tcpSeqAt (base : Seq) (p : Nat) : Seq := base + BitVec.ofNat 32 p

section Positions

variable (base : Seq) {p q : Nat}

@[simp] theorem tcpSeqAt_zero : tcpSeqAt base 0 = base := by
  simp [tcpSeqAt]

theorem tcpSeqAt_add (p k : Nat) : tcpSeqAt base p + BitVec.ofNat 32 k = tcpSeqAt base (p + k) := by
  rw [tcpSeqAt, tcpSeqAt, BitVec.ofNat_add, add_assoc]

theorem tcpSeqAt_succ (p : Nat) : tcpSeqAt base p + 1 = tcpSeqAt base (p + 1) :=
  tcpSeqAt_add base p 1

theorem tcpSeqAt_sub (le : p ≤ q) : tcpSeqAt base q - tcpSeqAt base p = BitVec.ofNat 32 (q - p) := by
  obtain ⟨k, rfl⟩ := Nat.exists_eq_add_of_le le
  rw [← tcpSeqAt_add, add_sub_cancel_left, Nat.add_sub_cancel_left]

variable (near : p < q + 2 ^ 31) (far : q ≤ p + 2 ^ 31)

include near far

theorem tcpSeqLt_at : tcpSeqLt (tcpSeqAt base p) (tcpSeqAt base q) = decide (p < q) :=
  Lib.Serial.lt_offset base (by omega) (by omega)

theorem tcpSeqLeq_at : tcpSeqLeq (tcpSeqAt base p) (tcpSeqAt base q) = decide (p ≤ q) :=
  Lib.Serial.leq_offset base (by omega) (by omega)

theorem tcpSeqGt_at : tcpSeqGt (tcpSeqAt base p) (tcpSeqAt base q) = decide (q < p) :=
  Lib.Serial.gt_offset base (by omega) (by omega)

end Positions

theorem exists_tcpSeqAt {base a : Seq} {q : Nat} (ahead : tcpSeqGeq a (tcpSeqAt base q) = true) :
    ∃ p, q ≤ p ∧ p < q + 2 ^ 31 ∧ a = tcpSeqAt base p := by
  obtain ⟨p, le, near, value⟩ := Lib.Serial.exists_offset_of_geq base ahead
  exact ⟨p, le, by omega, value⟩

def tcpSeqBetween (a b c : Seq) : Bool := tcpSeqGeq a b && tcpSeqLeq a c

end QStack
