/-
# QStack.Lib.LinkedQueue -- singly linked queues that share one `next` field

A queue has a pointer to its first and to its last element and a counter; the elements
carry the link.  An append writes the link of the last element, so the queues that share the
field keep each other only if no element is on two of them: `Holds m lists` says that the
queues are the lists, apart and without repetitions.
-/
import QStack.Lib.Apart

namespace QStack.Lib.LinkedQueue

set_option autoImplicit false

structure Queue (α : Type) where
  head : Option α := none
  tail : Option α := none
  len : Nat := 0

structure Mem (κ α : Type) where
  next : α → Option α
  queue : κ → Queue α

/-- From `r` the links lead through `xs` to a null pointer. -/
def Linked {α : Type} (next : α → Option α) : Option α → List α → Prop
  | r, [] => r = none
  | r, x :: xs => r = some x ∧ Linked next (next x) xs

/-- The first `n` elements, read along the links. -/
def walk {α : Type} (next : α → Option α) : Nat → Option α → List α
  | 0, _ => []
  | _ + 1, none => []
  | n + 1, some x => x :: walk next n (next x)

section Links

variable {α : Type} {next next' : α → Option α}

theorem Linked.frame : ∀ {xs : List α} {r : Option α}, Linked next r xs →
    (∀ x ∈ xs, next' x = next x) → Linked next' r xs
  | [], _, linked, _ => linked
  | x :: xs, r, linked, same => by
      refine ⟨linked.1, ?_⟩
      rw [same x List.mem_cons_self]
      exact linked.2.frame fun y within => same y (List.mem_cons_of_mem _ within)

theorem Linked.walk_eq : ∀ {xs : List α} {r : Option α}, Linked next r xs →
    walk next xs.length r = xs
  | [], _, _ => rfl
  | x :: xs, r, linked => by
      rw [linked.1, List.length_cons, walk, linked.2.walk_eq]

/-- The last element of one list is made to point to the first of another. -/
theorem Linked.append {last : α} {ys : List α} : ∀ {xs : List α} {r : Option α},
    Linked next r xs → xs.getLast? = some last → (∀ y ∈ xs, y ≠ last → next' y = next y) →
      xs.Nodup → Linked next' (next' last) ys → Linked next' r (xs ++ ys)
  | [y], r, linked, here, _, _, follows => by
      obtain rfl : y = last := by simpa using here
      exact ⟨linked.1, follows⟩
  | y :: z :: xs, r, linked, there, same, nodup, follows => by
      have later : (z :: xs).getLast? = some last := by simpa using there
      obtain ⟨fresh, nodup⟩ := List.nodup_cons.mp nodup
      have other : y ≠ last := fun equal => fresh (equal ▸ List.mem_of_getLast? later)
      refine ⟨linked.1, ?_⟩
      rw [same y List.mem_cons_self other]
      exact linked.2.append later (fun w within => same w (List.mem_cons_of_mem _ within)) nodup
        follows

/-- The last element is made to point to a new one. -/
theorem Linked.snoc {last x : α} {xs : List α} {r : Option α} (linked : Linked next r xs)
    (there : xs.getLast? = some last) (same : ∀ y ∈ xs, y ≠ last → next' y = next y)
    (nodup : xs.Nodup) (points : next' last = some x) (ends : next' x = none) :
    Linked next' r (xs ++ [x]) :=
  linked.append there same nodup ⟨points, ends⟩

/-- A new element is put behind `p`. -/
theorem Linked.insert_after [DecidableEq α] {p x : α} {later : List α} :
    ∀ {earlier : List α} {r : Option α}, Linked next r (earlier ++ p :: later) →
      (earlier ++ p :: later).Nodup → x ∉ earlier ++ p :: later →
      Linked (Function.update (Function.update next x (next p)) p (some x)) r
        (earlier ++ p :: x :: later)
  | [], r, linked, nodup, fresh => by
      rw [List.nil_append, List.mem_cons, not_or] at fresh
      rw [List.nil_append, List.nodup_cons] at nodup
      refine ⟨linked.1, Function.update_self _ _ _, ?_⟩
      rw [Function.update_of_ne fresh.1, Function.update_self]
      refine Linked.frame linked.2 fun y within => ?_
      have off : y ≠ p := fun same => nodup.1 (same ▸ within)
      have new : y ≠ x := fun same => fresh.2 (same ▸ within)
      rw [Function.update_of_ne off, Function.update_of_ne new]
  | y :: earlier, r, linked, nodup, fresh => by
      rw [List.cons_append, List.mem_cons, not_or] at fresh
      rw [List.cons_append, List.nodup_cons] at nodup
      have off : y ≠ p := fun same => nodup.1 (same ▸ List.mem_append_right _ List.mem_cons_self)
      refine ⟨linked.1, ?_⟩
      rw [Function.update_of_ne off, Function.update_of_ne (Ne.symm fresh.1)]
      exact linked.2.insert_after nodup.2 fresh.2

end Links

/-- The queues of `m` are the lists. -/
structure Holds {κ α : Type} (m : Mem κ α) (lists : κ → List α) : Prop where
  chain : ∀ h, Linked m.next (m.queue h).head (lists h)
  tail : ∀ h, lists h ≠ [] → (m.queue h).tail = (lists h).getLast?
  len : ∀ h, (m.queue h).len = (lists h).length
  apart : Apart lists

namespace Mem

variable {κ α : Type} [DecidableEq κ] [DecidableEq α]

/-- Append; an append to a queue that is not empty dereferences its tail. -/
def push (m : Mem κ α) (h : κ) (x : α) : Option (Mem κ α) :=
  let q := m.queue h
  if q.len = 0 then
    some { next := Function.update m.next x none
           queue := Function.update m.queue h { head := some x, tail := some x, len := 1 } }
  else
    q.tail.map fun last =>
      { next := Function.update (Function.update m.next last (some x)) x none
        queue := Function.update m.queue h { q with tail := some x, len := q.len + 1 } }

/-- Take the first element `x` off; the tail stays where it is. -/
def pop (m : Mem κ α) (h : κ) (x : α) : Mem κ α :=
  let q := m.queue h
  { m with queue := Function.update m.queue h { q with head := m.next x, len := q.len - 1 } }

def reset (m : Mem κ α) (h : κ) : Mem κ α :=
  { m with queue := Function.update m.queue h {} }

end Mem

namespace Holds

set_option linter.unusedSectionVars false

variable {κ α : Type} [DecidableEq κ] [DecidableEq α] {m : Mem κ α} {lists : κ → List α}
  {h : κ} {x : α}

theorem head_eq (holds : Holds m lists) (h : κ) : (m.queue h).head = (lists h).head? := by
  have chain := holds.chain h
  cases first : lists h with
  | nil =>
      rw [first] at chain
      exact chain
  | cons x xs =>
      rw [first] at chain
      exact chain.1

/-- A queue whose elements and pointers are left alone. -/
theorem frame {m' : Mem κ α} (holds : Holds m lists) (queue : m'.queue h = m.queue h)
    (links : ∀ y ∈ lists h, m'.next y = m.next y) :
    Linked m'.next (m'.queue h).head (lists h) ∧
      (lists h ≠ [] → (m'.queue h).tail = (lists h).getLast?) ∧
      (m'.queue h).len = (lists h).length := by
  rw [queue]
  exact ⟨(holds.chain h).frame links, holds.tail h, holds.len h⟩

/-- It is enough to look at one queue, and at what the change does to the others. -/
theorem of_update {m' : Mem κ α} {xs : List α} (holds : Holds m lists)
    (mine : Linked m'.next (m'.queue h).head xs ∧
      (xs ≠ [] → (m'.queue h).tail = xs.getLast?) ∧ (m'.queue h).len = xs.length)
    (others : ∀ h', h' ≠ h → m'.queue h' = m.queue h' ∧ ∀ y ∈ lists h', m'.next y = m.next y)
    (apart : Apart (Function.update lists h xs)) : Holds m' (Function.update lists h xs) := by
  have all : ∀ h', Linked m'.next (m'.queue h').head (Function.update lists h xs h') ∧
      (Function.update lists h xs h' ≠ [] →
        (m'.queue h').tail = (Function.update lists h xs h').getLast?) ∧
      (m'.queue h').len = (Function.update lists h xs h').length := by
    intro h'
    by_cases same : h' = h
    · subst same
      rw [Function.update_self]
      exact mine
    · rw [Function.update_of_ne same]
      exact holds.frame (others h' same).1 (others h' same).2
  exact ⟨fun h' => (all h').1, fun h' => (all h').2.1, fun h' => (all h').2.2, apart⟩

/-- The element is on none of the queues. -/
theorem push (holds : Holds m lists) (fresh : ∀ h', x ∉ lists h') (h : κ) :
    ∃ m', m.push h x = some m' ∧ Holds m' (Function.update lists h (lists h ++ [x])) := by
  have len := holds.len h
  unfold Mem.push
  dsimp only
  split_ifs with empty
  · rw [empty] at len
    have nil : lists h = [] := List.eq_nil_of_length_eq_zero len.symm
    refine ⟨_, rfl, holds.of_update ?_ ?_ (holds.apart.append fresh h)⟩
    · simp [nil, Linked]
    · intro h' other
      refine ⟨Function.update_of_ne other _ _, fun y within => Function.update_of_ne ?_ _ _⟩
      exact fun same => fresh h' (same ▸ within)
  · have some_ : lists h ≠ [] := by
      intro nil
      rw [nil] at len
      exact empty len
    have tail := holds.tail h some_
    obtain ⟨last, there⟩ : ∃ last, (lists h).getLast? = some last :=
      ⟨_, List.getLast?_eq_some_getLast some_⟩
    have inside : last ∈ lists h := List.mem_of_getLast? there
    have away : last ≠ x := fun same => fresh h (same ▸ inside)
    rw [tail, there, Option.map_some]
    refine ⟨_, rfl, holds.of_update ⟨?_, ?_, ?_⟩ ?_ (holds.apart.append fresh h)⟩
    · dsimp only
      rw [Function.update_self]
      refine (holds.chain h).snoc there ?_ (holds.apart.nodup h) ?_ ?_
      · intro y within other
        have fresh' : y ≠ x := fun same => fresh h (same ▸ within)
        rw [Function.update_of_ne fresh', Function.update_of_ne other]
      · rw [Function.update_of_ne away, Function.update_self]
      · rw [Function.update_self]
    · intro _
      dsimp only
      rw [Function.update_self, List.getLast?_append, List.getLast?_singleton]
      rfl
    · dsimp only
      rw [Function.update_self, List.length_append, holds.len h]
      rfl
    · intro h' other
      refine ⟨Function.update_of_ne other _ _, fun y within => ?_⟩
      have fresh' : y ≠ x := fun same => fresh h' (same ▸ within)
      have apart : y ≠ last := by
        rintro rfl
        exact other (holds.apart.apart h' h y within inside)
      dsimp only
      rw [Function.update_of_ne fresh', Function.update_of_ne apart]

theorem pop {xs : List α} (holds : Holds m lists) (first : lists h = x :: xs) :
    Holds (m.pop h x) (Function.update lists h xs) := by
  have chain := holds.chain h
  have tail := holds.tail h
  have len := holds.len h
  have nodup := holds.apart.nodup h
  rw [first] at chain tail len nodup
  have fewer : xs ⊆ lists h := by
    rw [first]
    exact List.subset_cons_self x xs
  refine holds.of_update ⟨?_, ?_, ?_⟩ ?_ (holds.apart.update (List.nodup_cons.mp nodup).2 fewer)
  · simpa [Mem.pop] using chain.2
  · intro some_
    have last := tail (List.cons_ne_nil _ _)
    rw [List.getLast?_cons_of_ne_nil some_] at last
    simpa [Mem.pop] using last
  · simp [Mem.pop, len]
  · exact fun h' other => ⟨Function.update_of_ne other _ _, fun _ _ => rfl⟩

theorem reset (holds : Holds m lists) (h : κ) : Holds (m.reset h) (Function.update lists h []) := by
  refine holds.of_update ?_ ?_ (holds.apart.update List.nodup_nil (List.nil_subset _))
  · simp [Mem.reset, Linked]
  · exact fun h' other => ⟨Function.update_of_ne other _ _, fun _ _ => rfl⟩

end Holds

end QStack.Lib.LinkedQueue
