/-
# QStack.FastPool -- fast_cirq_mempool

With DPDK_RTE_RING a mbuf queue is a ring from `fast_cirq_mempool`: `mbufq_init` takes one and
`mbufq_destroy` gives it back.  The rings that are free are a stack, `free_queues[0..point]`, and
`fast_cirq_mempool_init` and `fast_cirq_mempool_alloc` have `point` at the ring to be taken next.

`fast_cirq_mempool_free` writes its ring to where `point` is and then moves `point` on, as if it were
behind the last: the ring that was next is lost, and what becomes next is one that may be in use
(`handed_out_twice`).  And the ring at index 0 is never taken, since `point` at 0 counts as empty.
`fast_pool_law` is exact: the rings in use and the free ones partition the pool over just those runs
that free nothing, and no run at all has all rings in use.
-/
import QStack.Lib.Run
import Mathlib.Data.List.Nodup
import Mathlib.Data.List.Perm.Basic
import Mathlib.Data.List.TakeDrop

namespace QStack

set_option autoImplicit false

/-- `struct fast_cirq_mempool` -/
structure FastCirqMempool (ρ : Type) where
  freeQueues : List ρ
  size : Nat
  point : Nat

namespace FastCirqMempool

variable {ρ : Type}

/-- `fast_cirq_mempool_init`, with the rings that `rte_ring_create` has returned. -/
def fastCirqMempoolInit (rings : List ρ) : FastCirqMempool ρ :=
  { freeQueues := rings, size := rings.length, point := rings.length - 1 }

/-- `none` when `TRACE_ERR` ends the program. -/
def fastCirqMempoolAlloc (mp : FastCirqMempool ρ) : Option (ρ × FastCirqMempool ρ) :=
  if mp.point = 0 then none
  else (mp.freeQueues[mp.point]?).map fun ring => (ring, { mp with point := mp.point - 1 })

/-- `none` when `TRACE_ERR` ends the program. -/
def fastCirqMempoolFree (mp : FastCirqMempool ρ) (item : ρ) : Option (FastCirqMempool ρ) :=
  if mp.point = mp.size - 1 then none
  else some { mp with freeQueues := mp.freeQueues.set mp.point item, point := mp.point + 1 }

end FastCirqMempool

/-- The pool, and the rings that have been taken and not been freed. -/
structure FastPool (ρ : Type) where
  mp : FastCirqMempool ρ
  inUse : List ρ := []
  exited : Bool := false

namespace FastPool

open FastCirqMempool

variable {ρ : Type} [DecidableEq ρ]

inductive PoolOp (ρ : Type) where
  | alloc
  | free (item : ρ)
deriving DecidableEq

def init (rings : List ρ) : FastPool ρ := { mp := fastCirqMempoolInit rings }

def step (s : FastPool ρ) : PoolOp ρ → FastPool ρ
  | .alloc =>
      match fastCirqMempoolAlloc s.mp with
      | some (ring, mp) => { s with mp, inUse := ring :: s.inUse }
      | none => { s with exited := true }
  | .free item =>
      match fastCirqMempoolFree s.mp item with
      | some mp => { s with mp, inUse := s.inUse.erase item }
      | none => { s with exited := true }

/-- The program runs, and what is freed is in use. -/
def Admissible (s : FastPool ρ) : PoolOp ρ → Prop
  | .alloc => s.exited = false
  | .free item => s.exited = false ∧ item ∈ s.inUse

instance (s : FastPool ρ) : ∀ op, Decidable (s.Admissible op)
  | .alloc => inferInstanceAs (Decidable (_ = _))
  | .free _ => inferInstanceAs (Decidable (_ ∧ _))

/-- The rings in use and those in `free_queues[0..point]` partition the initial set. -/
def Partition (rings : List ρ) (s : FastPool ρ) : Prop :=
  (s.inUse ++ s.mp.freeQueues.take (s.mp.point + 1)).Perm rings

instance (rings : List ρ) (s : FastPool ρ) : Decidable (s.Partition rings) :=
  inferInstanceAs (Decidable (List.Perm _ _))

/-- The ring that a call hands out is not in use, and the partition is kept. -/
def Sound (rings : List ρ) (s : FastPool ρ) (op : PoolOp ρ) (s' : FastPool ρ) : Prop :=
  (op = .alloc → ∀ ring mp, fastCirqMempoolAlloc s.mp = some (ring, mp) → ring ∉ s.inUse) ∧
    s'.Partition rings

/-- What a pool is for. -/
def Correct (rings : List ρ) : Prop :=
  (∀ ops, Lib.Run.Allowed step Admissible (init rings) ops →
    Lib.Run.Each step (Sound rings) (init rings) ops) ∧
  ∃ ops, Lib.Run.Allowed step Admissible (init rings) ops ∧
    rings ⊆ (Lib.Run.run step (init rings) ops).inUse

/-! ## As long as nothing is freed -/

/-- The array is as it was, and what is behind `point` is in use. -/
structure Untouched (rings : List ρ) (s : FastPool ρ) : Prop where
  queues : s.mp.freeQueues = rings
  size : s.mp.size = rings.length
  inside : s.mp.point < rings.length
  taken : s.inUse = rings.drop (s.mp.point + 1)

namespace Untouched

set_option linter.unusedSectionVars false

variable {rings : List ρ} {s : FastPool ρ}

theorem of_init (some_ : 0 < rings.length) : (init rings).Untouched rings where
  queues := rfl
  size := rfl
  inside := by
    show rings.length - 1 < rings.length
    omega
  taken := by
    show [] = rings.drop (rings.length - 1 + 1)
    rw [Nat.sub_add_cancel some_, List.drop_length]

theorem partition (untouched : s.Untouched rings) : s.Partition rings := by
  unfold Partition
  rw [untouched.taken, untouched.queues]
  apply List.perm_append_comm.trans
  rw [List.take_append_drop]

/-- The ring that is next lies in front of those in use. -/
theorem next (untouched : s.Untouched rings) : ∃ ring, rings[s.mp.point]? = some ring ∧
    rings.drop s.mp.point = ring :: s.inUse := by
  have inside := untouched.inside
  refine ⟨rings[s.mp.point], List.getElem?_eq_getElem inside, ?_⟩
  rw [untouched.taken]
  exact List.drop_eq_getElem_cons inside

theorem next_fresh (distinct : rings.Nodup) {ring : ρ}
    (next : rings.drop s.mp.point = ring :: s.inUse) : ring ∉ s.inUse := by
  have nodup := distinct.sublist (List.drop_sublist s.mp.point rings)
  rw [next] at nodup
  exact (List.nodup_cons.mp nodup).1

/-- What is handed out was not in use. -/
theorem fresh (untouched : s.Untouched rings) (distinct : rings.Nodup) {ring : ρ}
    {mp : FastCirqMempool ρ} (handed : fastCirqMempoolAlloc s.mp = some (ring, mp)) :
    ring ∉ s.inUse := by
  obtain ⟨first, found, next⟩ := untouched.next
  have same : first = ring := by
    by_cases last : s.mp.point = 0
    · simp [fastCirqMempoolAlloc, last] at handed
    · simp [fastCirqMempoolAlloc, last, untouched.queues, found] at handed
      exact handed.1
  subst same
  exact next_fresh distinct next

theorem step_alloc (untouched : s.Untouched rings) : (s.step .alloc).Untouched rings := by
  obtain ⟨ring, found, next⟩ := untouched.next
  by_cases last : s.mp.point = 0
  · have empty : fastCirqMempoolAlloc s.mp = none := by simp [fastCirqMempoolAlloc, last]
    simp only [step, empty]
    exact ⟨untouched.queues, untouched.size, untouched.inside, untouched.taken⟩
  · have handed : fastCirqMempoolAlloc s.mp =
        some (ring, { s.mp with point := s.mp.point - 1 }) := by
      simp [fastCirqMempoolAlloc, last, untouched.queues, found]
    have inside := untouched.inside
    simp only [step, handed]
    refine ⟨untouched.queues, untouched.size, ?_, ?_⟩
    · show s.mp.point - 1 < rings.length
      omega
    · show ring :: s.inUse = rings.drop (s.mp.point - 1 + 1)
      rw [Nat.sub_add_cancel (Nat.pos_of_ne_zero last)]
      exact next.symm

/-- **The first free loses a ring**: the one that was to be taken next. -/
theorem free_lost (untouched : s.Untouched rings) (distinct : rings.Nodup) {item : ρ}
    (used : item ∈ s.inUse) : ¬ (s.step (.free item)).Partition rings := by
  obtain ⟨ring, found, next⟩ := untouched.next
  have fresh := next_fresh distinct next
  have inside := untouched.inside
  have length := congrArg List.length next
  rw [List.length_drop, List.length_cons] at length
  have some_ := List.length_pos_of_mem used
  have notFull : s.mp.point ≠ s.mp.size - 1 := by
    rw [untouched.size]
    omega
  have other : item ≠ ring := by
    rintro rfl
    exact fresh used
  simp only [step, fastCirqMempoolFree, if_neg notFull, untouched.queues]
  intro partition
  have back := partition.mem_iff.mpr (List.mem_of_getElem? found)
  rcases List.mem_append.mp back with inUse | free
  · exact fresh (List.mem_of_mem_erase inUse)
  · obtain ⟨i, bound, same⟩ := List.mem_take_iff_getElem.mp free
    rw [List.getElem_set] at same
    split at same
    · exact other same
    · rename_i off
      have here : rings[s.mp.point] = ring := by
        simpa [List.getElem?_eq_getElem inside] using found
      exact off ((distinct.getElem_inj_iff).mp (here.trans same.symm))

end Untouched

/-! ## The ring at index 0 -/

/-- The first ring is neither in use nor anywhere else in the array. -/
structure FirstUnused (first : ρ) (s : FastPool ρ) : Prop where
  unused : first ∉ s.inUse
  only : first ∉ s.mp.freeQueues.drop 1

theorem FirstUnused.step {first : ρ} {s : FastPool ρ} (unused : s.FirstUnused first)
    (op : PoolOp ρ) (admissible : s.Admissible op) : (s.step op).FirstUnused first := by
  obtain ⟨notUsed, only⟩ := unused
  cases op with
  | alloc =>
      by_cases last : s.mp.point = 0
      · simp only [FastPool.step, fastCirqMempoolAlloc, if_pos last]
        exact ⟨notUsed, only⟩
      · cases found : s.mp.freeQueues[s.mp.point]? with
        | none =>
            simp only [FastPool.step, fastCirqMempoolAlloc, if_neg last, found]
            exact ⟨notUsed, only⟩
        | some ring =>
            simp only [FastPool.step, fastCirqMempoolAlloc, if_neg last, found]
            refine ⟨?_, only⟩
            have behind : ring ∈ s.mp.freeQueues.drop 1 := by
              apply List.mem_of_getElem? (i := s.mp.point - 1)
              rw [List.getElem?_drop, Nat.add_sub_cancel' (Nat.pos_of_ne_zero last)]
              exact found
            show first ∉ ring :: s.inUse
            rw [List.mem_cons, not_or]
            refine ⟨?_, notUsed⟩
            rintro rfl
            exact only behind
  | free item =>
      obtain ⟨-, used⟩ := admissible
      by_cases full : s.mp.point = s.mp.size - 1
      · simp only [FastPool.step, fastCirqMempoolFree, if_pos full]
        exact ⟨notUsed, only⟩
      · simp only [FastPool.step, fastCirqMempoolFree, if_neg full]
        refine ⟨fun within => notUsed (List.mem_of_mem_erase within), fun within => ?_⟩
        have other : first ≠ item := by
          rintro rfl
          exact notUsed used
        obtain ⟨i, bound, same⟩ := List.getElem_of_mem within
        rw [List.getElem_drop, List.getElem_set] at same
        split at same
        · exact other same.symm
        · have bound' : i < (s.mp.freeQueues.drop 1).length := by simpa using bound
          apply only
          rw [← same, ← List.getElem_drop (h := bound')]
          exact List.getElem_mem bound'

/-! ## The law -/

def PoolOp.isAlloc : PoolOp ρ → Bool
  | .alloc => true
  | .free _ => false

open Lib.Run in
/-- **Exactly which runs keep the pool.**  A run in which only rings in use are freed keeps the
partition and hands out no ring twice if and only if it frees nothing.  No run has all rings in
use. -/
theorem fast_pool_law (rings : List ρ) (distinct : rings.Nodup) (two : 2 ≤ rings.length) :
    (∀ ops, Allowed step Admissible (init rings) ops →
      (Each step (Sound rings) (init rings) ops ↔
        Allowed step (fun _ op => op.isAlloc = true) (init rings) ops)) ∧
    ¬ ∃ ops, Allowed step Admissible (init rings) ops ∧
      rings ⊆ (run step (init rings) ops).inUse := by
  constructor
  · intro ops allowed
    apply each_iff_allowed_within (P := Untouched rings) _ _ ops _
      (Untouched.of_init (by omega)) allowed
    · intro s op untouched _ isAlloc
      cases op with
      | alloc => exact untouched.step_alloc
      | free item => cases isAlloc
    · intro s op untouched admissible
      cases op with
      | alloc =>
          refine iff_of_true ⟨fun _ ring mp handed => ?_, untouched.step_alloc.partition⟩ rfl
          exact untouched.fresh distinct handed
      | free item =>
          refine iff_of_false (fun sound => ?_) Bool.false_ne_true
          exact untouched.free_lost distinct admissible.2 sound.2
  · rintro ⟨ops, allowed, all⟩
    cases rings with
    | nil => simp at two
    | cons first rest =>
        have start : (init (first :: rest)).FirstUnused first :=
          ⟨List.not_mem_nil, (List.nodup_cons.mp distinct).1⟩
        have along := along_of_step (P := FirstUnused first) (fun s op unused ok => FirstUnused.step unused op ok)
          ops _ start allowed
        exact (along.last _ _).unused (all List.mem_cons_self)

/-- Three rings, and two of them taken -/
theorem fast_pool_law_two :
    Lib.Run.Each step (Sound [0, 1, 2]) (init [0, 1, 2]) [.alloc, .alloc] :=
  ((fast_pool_law [0, 1, 2] (by decide) (by decide)).1 [.alloc, .alloc] (by decide)).mpr
    (by decide)

/-- **Two owners of one ring.**  A pool of three: one is taken and freed, and then the next two calls
hand out the same. -/
theorem handed_out_twice :
    ¬ Correct [0, 1, 2] ∧
      (Lib.Run.run step (init [0, 1, 2]) [.alloc, .free 2, .alloc, .alloc]).inUse = [2, 2] := by
  refine ⟨fun correct => ?_, by decide⟩
  have each := correct.1 [.alloc, .free 2] (by decide)
  have kept : ((init [0, 1, 2]).step .alloc |>.step (.free 2)).Partition [0, 1, 2] := each.2.1.2
  exact absurd kept (by decide)

end FastPool

end QStack
