/-
# QStack.Lib.Tailq -- intrusive tail queues, with their pointers

The TAILQ of `sys/queue.h`: a head holds the first element and the address of the last
`next` field, an element holds the next element and the address of the field that points
to it.  The elements carry the links, so several lists share one pair of link fields; `κ`
is the type of their heads.

`Chains m lists` says that every head `h` leads through exactly the elements `lists h`, each
once, and that no element is on two lists.  `Chains.insertTail` and `Chains.remove` are the
specifications of the two macros: an append of an element that is on none of the lists that
share the field, and the removal of one that is on the list named.  Without that premise the
links of another list are overwritten.
-/
import QStack.Lib.Apart

namespace QStack.Lib.Tailq

set_option autoImplicit false

/-- The address of a field that points to an element. -/
inductive Ref (κ ι : Type) where
  | head (h : κ)
  | next (x : ι)
deriving DecidableEq

structure Mem (κ ι : Type) where
  first : κ → Option ι
  last : κ → Ref κ ι
  next : ι → Option ι
  prev : ι → Ref κ ι

namespace Mem

variable {κ ι : Type}

def read (m : Mem κ ι) : Ref κ ι → Option ι
  | .head h => m.first h
  | .next x => m.next x

/-- `TAILQ_INIT` of every head. -/
def empty : Mem κ ι :=
  { first := fun _ => none, last := .head, next := fun _ => none, prev := .next }

/-! ## Segments -/

/-- From the field `r` the pointers lead through `xs` to the field `e`. -/
def Seg (m : Mem κ ι) : Ref κ ι → List ι → Ref κ ι → Prop
  | r, [], e => r = e
  | r, x :: xs, e => m.read r = some x ∧ m.prev x = r ∧ Seg m (.next x) xs e

/-- The fields that are read on the way. -/
def visited : Ref κ ι → List ι → List (Ref κ ι)
  | _, [] => []
  | r, x :: xs => r :: visited (.next x) xs

section Segments

variable {m m' : Mem κ ι} {r e : Ref κ ι} {xs ys : List ι}

theorem seg_append : ∀ {xs : List ι} {r : Ref κ ι},
    m.Seg r (xs ++ ys) e ↔ ∃ k, m.Seg r xs k ∧ m.Seg k ys e
  | [], r => by simp [Seg]
  | x :: xs, r => by
      have rest : m.Seg (.next x) (xs ++ ys) e ↔ ∃ k, m.Seg (.next x) xs k ∧ m.Seg k ys e := seg_append
      simp only [List.cons_append, Seg, rest]
      constructor
      · rintro ⟨points, back, k, before, after⟩
        exact ⟨k, ⟨points, back, before⟩, after⟩
      · rintro ⟨k, ⟨points, back, before⟩, after⟩
        exact ⟨points, back, k, before, after⟩

theorem Seg.end_eq : ∀ {xs : List ι} {r : Ref κ ι}, m.Seg r xs e → e = r ∨ ∃ x ∈ xs, e = .next x
  | [], r, seg => .inl seg.symm
  | x :: xs, r, seg => by
      rcases Seg.end_eq seg.2.2 with here | ⟨y, within, there⟩
      · exact .inr ⟨x, List.mem_cons_self, here⟩
      · exact .inr ⟨y, List.mem_cons_of_mem _ within, there⟩

theorem mem_visited : ∀ {xs : List ι} {r r' : Ref κ ι}, r' ∈ visited r xs →
    r' = r ∨ ∃ x ∈ xs, r' = .next x
  | x :: xs, r, r', within => by
      rcases List.mem_cons.mp within with here | later
      · exact .inl here
      · rcases mem_visited later with here | ⟨y, inside, there⟩
        · exact .inr ⟨x, List.mem_cons_self, here⟩
        · exact .inr ⟨y, List.mem_cons_of_mem _ inside, there⟩

/-- The field a segment ends in is not read on the way to it. -/
theorem Seg.end_not_visited : ∀ {xs : List ι} {r : Ref κ ι}, m.Seg r xs e → xs.Nodup →
    (∀ x ∈ xs, r ≠ .next x) → e ∉ visited r xs
  | [], _, _, _, _ => List.not_mem_nil
  | x :: xs, r, seg, nodup, outside => by
      obtain ⟨fresh, nodup⟩ := List.nodup_cons.mp nodup
      have later : e ∉ visited (.next x) xs := by
        refine Seg.end_not_visited seg.2.2 nodup ?_
        rintro y within same
        cases same
        exact fresh within
      intro within
      rcases List.mem_cons.mp within with here | there
      · rcases Seg.end_eq seg.2.2 with last | ⟨y, inside, last⟩
        · exact outside x List.mem_cons_self (here.symm.trans last)
        · exact outside y (List.mem_cons_of_mem _ inside) (here.symm.trans last)
      · exact later there

/-- A segment is kept by whatever leaves the fields it reads. -/
theorem Seg.frame : ∀ {xs : List ι} {r : Ref κ ι}, m.Seg r xs e →
    (∀ r' ∈ visited r xs, m'.read r' = m.read r') → (∀ x ∈ xs, m'.prev x = m.prev x) →
      m'.Seg r xs e
  | [], _, seg, _, _ => seg
  | x :: xs, r, seg, reads, prevs => by
      refine ⟨?_, ?_, Seg.frame seg.2.2 ?_ ?_⟩
      · rw [reads r List.mem_cons_self]
        exact seg.1
      · rw [prevs x List.mem_cons_self]
        exact seg.2.1
      · exact fun r' within => reads r' (List.mem_cons_of_mem _ within)
      · exact fun y within => prevs y (List.mem_cons_of_mem _ within)

end Segments

/-! ## Lists -/

/-- The list of the head `h` is `xs`. -/
structure Chain (m : Mem κ ι) (h : κ) (xs : List ι) : Prop where
  seg : m.Seg (.head h) xs (m.last h)
  ends : m.read (m.last h) = none
  nodup : xs.Nodup

/-- Every list that shares the link fields, and no element is on two of them. -/
structure Chains (m : Mem κ ι) (lists : κ → List ι) : Prop where
  chain : ∀ h, m.Chain h (lists h)
  apart : Apart lists

section Lists

variable {m m' : Mem κ ι} {h : κ} {xs : List ι} {lists : κ → List ι} {x : ι}

theorem empty_chains : (empty : Mem κ ι).Chains fun _ => [] where
  chain := fun _ => ⟨rfl, rfl, List.nodup_nil⟩
  apart := .empty

theorem Chain.first_eq (chain : m.Chain h xs) : m.first h = xs.head? := by
  cases xs with
  | nil =>
      have ends := chain.ends
      rw [← chain.seg] at ends
      exact ends
  | cons x xs => exact chain.seg.1

/-- What follows the first element. -/
theorem Chain.next_eq (chain : m.Chain h (x :: xs)) : m.next x = xs.head? := by
  cases xs with
  | nil =>
      have ends := chain.ends
      rw [← chain.seg.2.2] at ends
      exact ends
  | cons y ys => exact chain.seg.2.2.1

/-- A list is kept by whatever leaves its own fields. -/
theorem Chain.frame (chain : m.Chain h xs) (last : m'.last h = m.last h)
    (first : m'.first h = m.first h)
    (links : ∀ x ∈ xs, m'.next x = m.next x ∧ m'.prev x = m.prev x) : m'.Chain h xs := by
  have reads : ∀ r, (r = .head h ∨ ∃ x ∈ xs, r = .next x) → m'.read r = m.read r := by
    rintro r (rfl | ⟨x, within, rfl⟩)
    · exact first
    · exact (links x within).1
  refine ⟨?_, ?_, chain.nodup⟩
  · rw [last]
    exact chain.seg.frame (fun r within => reads r (mem_visited within))
      (fun x within => (links x within).2)
  · rw [last, reads _ chain.seg.end_eq]
    exact chain.ends

end Lists

/-! ## The two macros -/

section Macros

variable [DecidableEq κ] [DecidableEq ι]

def write (m : Mem κ ι) (r : Ref κ ι) (v : Option ι) : Mem κ ι :=
  match r with
  | .head h => { m with first := Function.update m.first h v }
  | .next x => { m with next := Function.update m.next x v }

/-- `TAILQ_INSERT_TAIL` -/
def insertTail (m : Mem κ ι) (h : κ) (x : ι) : Mem κ ι :=
  let m := m.write (.next x) none
  let m := { m with prev := Function.update m.prev x (m.last h) }
  let m := m.write (m.last h) (some x)
  { m with last := Function.update m.last h (.next x) }

/-- `TAILQ_REMOVE` -/
def remove (m : Mem κ ι) (h : κ) (x : ι) : Mem κ ι :=
  let unlinked :=
    match m.next x with
    | some y => { m with prev := Function.update m.prev y (m.prev x) }
    | none => { m with last := Function.update m.last h (m.prev x) }
  unlinked.write (m.prev x) (m.next x)

@[simp] theorem write_prev (m : Mem κ ι) (r : Ref κ ι) (v : Option ι) :
    (m.write r v).prev = m.prev := by
  cases r <;> rfl

@[simp] theorem write_last (m : Mem κ ι) (r : Ref κ ι) (v : Option ι) :
    (m.write r v).last = m.last := by
  cases r <;> rfl

theorem read_write (m : Mem κ ι) (r r' : Ref κ ι) (v : Option ι) :
    (m.write r v).read r' = if r' = r then v else m.read r' := by
  cases r <;> cases r' <;> simp [write, read, Function.update_apply]

variable {m : Mem κ ι} {h : κ} {xs : List ι} {lists : κ → List ι} {x : ι}

theorem read_insertTail (m : Mem κ ι) (h : κ) (x : ι) (r : Ref κ ι) :
    (m.insertTail h x).read r =
      if r = m.last h then some x else if r = .next x then none else m.read r := by
  cases last : m.last h <;> cases r <;>
    simp [insertTail, write, read, last, Function.update_apply]

theorem Chain.insertTail (chain : m.Chain h xs) (fresh : x ∉ xs) :
    (m.insertTail h x).Chain h (xs ++ [x]) := by
  have other : m.last h ≠ .next x := by
    intro same
    rcases chain.seg.end_eq with first | ⟨y, within, there⟩
    · rw [same] at first
      exact nomatch first
    · rw [same] at there
      cases there
      exact fresh within
  have read := read_insertTail m h x
  have prev : (m.insertTail h x).prev = Function.update m.prev x (m.last h) := by
    simp [Mem.insertTail]
  have last : (m.insertTail h x).last h = .next x := by
    simp [Mem.insertTail]
  have unread := chain.seg.end_not_visited chain.nodup (fun y _ => by simp)
  refine ⟨?_, ?_, ?_⟩
  · rw [last, seg_append]
    refine ⟨m.last h, chain.seg.frame ?_ ?_, ?_, ?_, rfl⟩
    · intro r within
      have away : r ≠ m.last h := fun same => unread (same ▸ within)
      have away' : r ≠ .next x := by
        rcases mem_visited within with rfl | ⟨y, inside, rfl⟩
        · simp
        · rintro same
          cases same
          exact fresh inside
      rw [read, if_neg away, if_neg away']
    · intro y within
      have away : y ≠ x := fun same => fresh (same ▸ within)
      rw [prev, Function.update_of_ne away]
    · rw [read, if_pos rfl]
    · rw [prev, Function.update_self]
  · rw [last, read, if_neg other.symm, if_pos rfl]
  · refine List.nodup_append.mpr ⟨chain.nodup, List.nodup_cons.mpr ⟨List.not_mem_nil, .nil⟩, ?_⟩
    rintro y within z inside rfl
    exact fresh (List.mem_singleton.mp inside ▸ within)

/-- The element is on none of the lists that share the field. -/
theorem Chains.insertTail (chains : m.Chains lists) (fresh : ∀ h', x ∉ lists h') (h : κ) :
    (m.insertTail h x).Chains (Function.update lists h (lists h ++ [x])) := by
  have last := (chains.chain h).seg.end_eq
  constructor
  · intro h'
    by_cases same : h' = h
    · subst same
      rw [Function.update_self]
      exact (chains.chain h').insertTail (fresh h')
    · rw [Function.update_of_ne same]
      refine (chains.chain h').frame ?_ ?_ ?_
      · simp [Mem.insertTail, Function.update_of_ne same]
      · rcases last with here | ⟨y, -, here⟩
        · simp [Mem.insertTail, write, here, Function.update_of_ne same]
        · simp [Mem.insertTail, write, here]
      · intro y within
        have away : y ≠ x := fun same => fresh h' (same ▸ within)
        refine ⟨?_, by simp [Mem.insertTail, Function.update_of_ne away]⟩
        rcases last with here | ⟨z, inside, here⟩
        · simp [Mem.insertTail, write, here, Function.update_of_ne away]
        · have away' : y ≠ z := fun equal => same (chains.apart.apart h' h y within (equal ▸ inside))
          simp [Mem.insertTail, write, here, Function.update_of_ne away,
            Function.update_of_ne away']
  · exact chains.apart.append fresh h

theorem read_remove (m : Mem κ ι) (h : κ) (x : ι) (r : Ref κ ι) :
    (m.remove h x).read r = if r = m.prev x then m.next x else m.read r := by
  unfold remove
  dsimp only
  rw [read_write]
  split
  · rfl
  · split <;> cases r <;> rfl

theorem Chain.remove {before after : List ι} (chain : m.Chain h (before ++ x :: after)) :
    (m.remove h x).Chain h (before ++ after) := by
  have read := read_remove m h x
  obtain ⟨k, front, points, back, behind⟩ := seg_append.mp chain.seg
  obtain ⟨nodup, nodup', apart⟩ := List.nodup_append.mp chain.nodup
  obtain ⟨fresh, nodup'⟩ := List.nodup_cons.mp nodup'
  have unread := front.end_not_visited nodup (fun y _ => by simp)
  -- the field that pointed to `x` belongs to the head or to an element before `x`
  have outside : ∀ y ∈ x :: after, k ≠ .next y := by
    intro y within same
    rcases front.end_eq with first | ⟨z, inside, last⟩
    · exact nomatch first.symm.trans same
    · cases last.symm.trans same
      exact apart y inside y within rfl
  have kept : ∀ r ∈ visited (.head h) before, (m.remove h x).read r = m.read r := by
    intro r within
    have away : r ≠ k := fun same => unread (same ▸ within)
    rw [read, back, if_neg away]
  have all : (before ++ after).Nodup := by
    refine List.nodup_append.mpr ⟨nodup, nodup', ?_⟩
    intro y within z inside
    exact apart y within z (List.mem_cons_of_mem _ inside)
  cases after with
  | nil =>
      have none : m.next x = none := by
        have ends := chain.ends
        rw [← behind] at ends
        exact ends
      have last : (m.remove h x).last h = k := by
        simp [Mem.remove, none, back]
      refine ⟨?_, ?_, all⟩
      · rw [last, List.append_nil]
        refine front.frame kept fun y within => ?_
        simp [Mem.remove, none]
      · rw [last, read, back, if_pos rfl, none]
  | cons y after =>
      have next : m.next x = some y := behind.1
      have prev : (m.remove h x).prev = Function.update m.prev y k := by
        simp [Mem.remove, next, back]
      have last : (m.remove h x).last h = m.last h := by
        simp [Mem.remove, next]
      obtain ⟨freshy, -⟩ := List.nodup_cons.mp nodup'
      refine ⟨?_, ?_, all⟩
      · rw [last, seg_append]
        refine ⟨k, front.frame kept fun z within => ?_, ?_, ?_, behind.2.2.frame ?_ ?_⟩
        · have away : z ≠ y := by
            rintro rfl
            exact apart z within z (by simp) rfl
          rw [prev, Function.update_of_ne away]
        · rw [read, back, if_pos rfl, next]
        · rw [prev, Function.update_self]
        · intro r within
          have away : r ≠ k := by
            rintro rfl
            rcases mem_visited within with here | ⟨z, inside, here⟩
            · exact outside y (by simp) here
            · exact outside z (by simp [inside]) here
          rw [read, back, if_neg away]
        · intro z within
          have away : z ≠ y := by
            rintro rfl
            exact freshy within
          rw [prev, Function.update_of_ne away]
      · have away : m.last h ≠ k := by
          intro same
          rcases behind.2.2.end_eq with here | ⟨z, inside, here⟩
          · exact outside y (by simp) (same.symm.trans here)
          · exact outside z (by simp [inside]) (same.symm.trans here)
        rw [last, read, back, if_neg away]
        exact chain.ends

/-- The element is on the list it is removed from. -/
theorem Chains.remove (chains : m.Chains lists) (linked : x ∈ lists h) :
    (m.remove h x).Chains (Function.update lists h ((lists h).erase x)) := by
  obtain ⟨before, after, split⟩ := List.append_of_mem linked
  have chain : m.Chain h (before ++ x :: after) := split ▸ chains.chain h
  have erased : (lists h).erase x = before ++ after := by
    have fresh : x ∉ before := fun within =>
      (List.nodup_append.mp chain.nodup).2.2 x within x List.mem_cons_self rfl
    rw [split, List.erase_append_right _ fresh, List.erase_cons_head]
  obtain ⟨k, front, -, back, behind⟩ := seg_append.mp chain.seg
  constructor
  · intro h'
    by_cases same : h' = h
    · subst same
      rw [Function.update_self, erased]
      exact chain.remove
    · rw [Function.update_of_ne same]
      have mine : ∀ y ∈ before ++ x :: after, y ∉ lists h' := by
        intro y within inside
        exact same (chains.apart.apart h' h y inside (split ▸ within))
      have field : ∀ r, (r = .head h' ∨ ∃ y ∈ lists h', r = .next y) →
          (m.remove h x).read r = m.read r := by
        intro r other
        have away : r ≠ k := by
          rintro rfl
          rcases front.end_eq with here | ⟨z, inside, here⟩ <;>
            rcases other with there | ⟨y, within, there⟩
          · cases here.symm.trans there
            exact same rfl
          · exact nomatch here.symm.trans there
          · exact nomatch here.symm.trans there
          · cases here.symm.trans there
            exact mine z (by simp [inside]) within
        rw [read_remove, back, if_neg away]
      refine (chains.chain h').frame ?_ (field (.head h') (.inl rfl)) ?_
      · unfold Mem.remove
        dsimp only
        rw [write_last]
        split
        · rfl
        · exact Function.update_of_ne same _ _
      · intro y within
        refine ⟨field (.next y) (.inr ⟨y, within, rfl⟩), ?_⟩
        unfold Mem.remove
        dsimp only
        rw [write_prev]
        split
        · rename_i z next
          have inside : z ∈ after := by
            cases after with
            | nil =>
                have ends := (chains.chain h).ends
                rw [← behind] at ends
                exact nomatch next.symm.trans ends
            | cons w after =>
                cases next.symm.trans behind.1
                exact List.mem_cons_self
          have away : y ≠ z := by
            rintro rfl
            exact mine y (by simp [inside]) within
          exact Function.update_of_ne away _ _
        · rfl
  · exact chains.apart.update ((chains.apart.nodup h).erase x) (List.erase_subset)

end Macros

end Mem

end QStack.Lib.Tailq
