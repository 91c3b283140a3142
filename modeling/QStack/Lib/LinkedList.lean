/-
# QStack.Lib.LinkedList -- singly linked lists with a head and a tail

The links lie in the elements, so that any number of lists share one `next` field; a list is the
pointer to its first element and to its last, both null when it is empty.  `Holds m lists` says that
the pointers lead through exactly the elements `lists h` and end there, and that no element is on
two lists.

Each operation is the operation of the same name on lists: an append, the first element taken off, a
new element behind a member or in front, and one list moved behind another.  `append`, `insert` and
`addHead` ask that the element is on no list; no operation asks what its link was before.
-/
import QStack.Lib.LinkedQueue

namespace QStack.Lib.LinkedList

set_option autoImplicit false

open LinkedQueue

structure Ends (α : Type) where
  head : Option α := none
  tail : Option α := none

structure Mem (κ α : Type) where
  next : α → Option α
  list : κ → Ends α

/-- A new element behind the member `p`. -/
def insertAfter {α : Type} [DecidableEq α] (p x : α) : List α → List α
  | [] => []
  | y :: ys => if y = p then y :: x :: ys else y :: insertAfter p x ys

namespace Mem

variable {κ α : Type} [DecidableEq κ] [DecidableEq α]

def init (m : Mem κ α) (h : κ) : Mem κ α := { m with list := Function.update m.list h {} }

def append (m : Mem κ α) (h : κ) (x : α) : Mem κ α :=
  match (m.list h).tail with
  | none =>
      { next := Function.update m.next x none
        list := Function.update m.list h { head := some x, tail := some x } }
  | some last =>
      { next := Function.update (Function.update m.next last (some x)) x none
        list := Function.update m.list h { m.list h with tail := some x } }

def pop (m : Mem κ α) (h : κ) : Option α × Mem κ α :=
  match (m.list h).head with
  | none => (none, m)
  | some x =>
      (some x,
        { next := Function.update m.next x none
          list := Function.update m.list h
            { head := m.next x, tail := if m.next x = none then none else (m.list h).tail } })

/-- `b2` behind `b1` -/
def insert (m : Mem κ α) (h : κ) (b1 b2 : α) : Mem κ α :=
  let next := Function.update (Function.update m.next b2 (m.next b1)) b1 (some b2)
  { next := next
    list :=
      if next b2 = none then Function.update m.list h { m.list h with tail := some b2 }
      else m.list }

def addHead (m : Mem κ α) (h : κ) (x : α) : Mem κ α :=
  { next := Function.update m.next x (m.list h).head
    list := Function.update m.list h
      { head := some x, tail := if (m.list h).head = none then some x else (m.list h).tail } }

/-- `l2` behind `l1` -/
def merge (m : Mem κ α) (l1 l2 : κ) : Mem κ α :=
  let m' : Mem κ α :=
    match (m.list l1).tail, (m.list l2).head with
    | none, _ => { m with list := Function.update m.list l1 (m.list l2) }
    | some last, some first =>
        { next := Function.update m.next last (some first)
          list := Function.update m.list l1 { m.list l1 with tail := (m.list l2).tail } }
    | some _, none => m
  { m' with list := Function.update m'.list l2 {} }

end Mem

/-- The lists of `m` are the lists. -/
structure Holds {κ α : Type} (m : Mem κ α) (lists : κ → List α) : Prop where
  linked : ∀ h, Linked m.next (m.list h).head (lists h)
  tail : ∀ h, (m.list h).tail = (lists h).getLast?
  apart : Apart lists

/-! ## Lists -/

section Members

variable {α : Type} [DecidableEq α] {p x : α} {xs earlier later : List α}

theorem insertAfter_split (fresh : p ∉ earlier) :
    insertAfter p x (earlier ++ p :: later) = earlier ++ p :: x :: later := by
  induction earlier with
  | nil => simp [insertAfter]
  | cons y earlier ih =>
      rw [List.mem_cons, not_or] at fresh
      simp [insertAfter, Ne.symm fresh.1, ih fresh.2]

theorem insertAfter_perm (member : p ∈ xs) : (insertAfter p x xs).Perm (x :: xs) := by
  induction xs with
  | nil => simp at member
  | cons y ys ih =>
      simp only [insertAfter]
      split
      · exact List.Perm.swap x y ys
      · rename_i other
        have later : p ∈ ys := by simpa [Ne.symm other] using member
        exact ((ih later).cons y).trans (List.Perm.swap x y ys)

end Members

namespace Holds

set_option linter.unusedSectionVars false

variable {κ α : Type} [DecidableEq κ] [DecidableEq α] {m : Mem κ α} {lists : κ → List α}
  {h : κ} {x : α}

theorem head_eq (holds : Holds m lists) (h : κ) : (m.list h).head = (lists h).head? := by
  have linked := holds.linked h
  cases members : lists h with
  | nil => simpa [members, Linked] using linked
  | cons x xs => simpa [members, Linked] using (members ▸ linked : Linked _ _ (x :: xs)).1

/-- **The head is null exactly when the tail is.** -/
theorem null_iff (holds : Holds m lists) (h : κ) :
    (m.list h).head = none ↔ (m.list h).tail = none := by
  rw [holds.head_eq, holds.tail, List.head?_eq_none_iff, List.getLast?_eq_none_iff]

/-- The link of the last member is null. -/
theorem next_tail (holds : Holds m lists) {last : α} (tail : (m.list h).tail = some last) :
    m.next last = none := by
  rw [holds.tail] at tail
  have linked := holds.linked h
  obtain ⟨front, split⟩ := List.getLast?_eq_some_iff.mp tail
  rw [split] at linked
  have ends : ∀ (front : List α) (r : Option α), Linked m.next r (front ++ [last]) →
      m.next last = none := by
    intro front
    induction front with
    | nil => exact fun _ linked => linked.2
    | cons y front ih => exact fun _ linked => ih _ linked.2
  exact ends front _ linked

/-- It is enough to look at one list, and at what the change does to the others. -/
theorem of_update {m' : Mem κ α} {xs : List α} (holds : Holds m lists)
    (linked : Linked m'.next (m'.list h).head xs) (tail : (m'.list h).tail = xs.getLast?)
    (others : ∀ h', h' ≠ h → m'.list h' = m.list h' ∧ ∀ y ∈ lists h', m'.next y = m.next y)
    (apart : Apart (Function.update lists h xs)) : Holds m' (Function.update lists h xs) := by
  have all : ∀ h', Linked m'.next (m'.list h').head (Function.update lists h xs h') ∧
      (m'.list h').tail = (Function.update lists h xs h').getLast? := by
    intro h'
    by_cases same : h' = h
    · subst same
      simpa using ⟨linked, tail⟩
    · obtain ⟨kept, links⟩ := others h' same
      simp only [Function.update_of_ne same, kept]
      exact ⟨(holds.linked h').frame links, holds.tail h'⟩
  exact ⟨fun h' => (all h').1, fun h' => (all h').2, apart⟩

/-! ## The operations -/

theorem init (holds : Holds m lists) (h : κ) : Holds (m.init h) (Function.update lists h []) := by
  apply holds.of_update
  · simp [Mem.init, Linked]
  · simp [Mem.init]
  · exact fun h' other => ⟨Function.update_of_ne other _ _, fun _ _ => rfl⟩
  · exact holds.apart.update List.nodup_nil (List.nil_subset _)

theorem append (holds : Holds m lists) (fresh : ∀ h', x ∉ lists h') (h : κ) :
    Holds (m.append h x) (Function.update lists h (lists h ++ [x])) := by
  have tail := holds.tail h
  unfold Mem.append
  cases isLast : (m.list h).tail with
  | none =>
      have nil : lists h = [] := by simpa [isLast] using tail.symm
      apply holds.of_update _ _ _ (holds.apart.append fresh h)
      · simp [nil, Linked]
      · simp [nil]
      · intro h' other
        refine ⟨Function.update_of_ne other _ _, fun y within => Function.update_of_ne ?_ _ _⟩
        rintro rfl
        exact fresh h' within
  | some last =>
      have there : (lists h).getLast? = some last := tail.symm.trans isLast
      have inside : last ∈ lists h := List.mem_of_getLast? there
      have away : last ≠ x := fun same => fresh h (same ▸ inside)
      have kept : ∀ h', ∀ y ∈ lists h', y ≠ last →
          Function.update (Function.update m.next last (some x)) x none y = m.next y := by
        intro h' y within other
        have new : y ≠ x := fun same => fresh h' (same ▸ within)
        rw [Function.update_of_ne new, Function.update_of_ne other]
      apply holds.of_update _ _ _ (holds.apart.append fresh h)
      · simp only [Function.update_self]
        refine (holds.linked h).snoc there (kept h) (holds.apart.nodup h) ?_ ?_
        · rw [Function.update_of_ne away, Function.update_self]
        · rw [Function.update_self]
      · simp
      · intro h' other
        refine ⟨Function.update_of_ne other _ _, fun y within => kept h' y within ?_⟩
        rintro rfl
        exact other (holds.apart.apart h' h y within inside)

/-- The first element is taken off, and its link is null. -/
theorem pop (holds : Holds m lists) (h : κ) :
    (m.pop h).1 = (lists h).head? ∧ Holds (m.pop h).2 (Function.update lists h (lists h).tail) := by
  have linked := holds.linked h
  have tail := holds.tail h
  have nodup := holds.apart.nodup h
  have head := holds.head_eq h
  cases members : lists h with
  | nil =>
      have nothing : m.pop h = (none, m) := by
        rw [members] at head
        simp [Mem.pop, head]
      rw [nothing, List.tail_nil, ← members, Function.update_eq_self]
      exact ⟨by simp [members], holds⟩
  | cons x xs =>
      rw [members] at linked tail nodup head
      obtain ⟨fresh, nodup⟩ := List.nodup_cons.mp nodup
      have fewer : xs ⊆ lists h := by simp [members]
      have inside : x ∈ lists h := by simp [members]
      have popped : m.pop h = (some x,
          { next := Function.update m.next x none
            list := Function.update m.list h
              { head := m.next x
                tail := if m.next x = none then none else (m.list h).tail } }) := by
        simp [Mem.pop, head]
      rw [popped]
      refine ⟨rfl, ?_⟩
      apply holds.of_update _ _ _ (holds.apart.update nodup fewer)
      · simp only [Function.update_self]
        refine linked.2.frame fun y within => Function.update_of_ne ?_ _ _
        rintro rfl
        exact fresh within
      · simp only [Function.update_self]
        cases xs with
        | nil => simp [show m.next x = none from linked.2]
        | cons y ys => simp [show m.next x = some y from linked.2.1, tail]
      · intro h' other
        refine ⟨Function.update_of_ne other _ _, fun y within => Function.update_of_ne ?_ _ _⟩
        rintro rfl
        exact other (holds.apart.apart h' h y within inside)

/-- A new element behind a member of the list. -/
theorem insert (holds : Holds m lists) {p : α} (member : p ∈ lists h)
    (fresh : ∀ h', x ∉ lists h') :
    Holds (m.insert h p x) (Function.update lists h (insertAfter p x (lists h))) := by
  have apart := holds.apart.enter (h := h) fresh (insertAfter_perm member)
  have nodup := holds.apart.nodup h
  obtain ⟨earlier, later, split⟩ := List.append_of_mem member
  have first : p ∉ earlier := by
    rw [split] at nodup
    exact fun within => (List.nodup_append.mp nodup).2.2 p within p (by simp) rfl
  have new : x ≠ p := by
    rintro rfl
    exact fresh h member
  have result : insertAfter p x (lists h) = earlier ++ p :: x :: later := by
    rw [split, insertAfter_split first]
  have linked := holds.linked h
  have last := holds.tail h
  have fresh' := fresh h
  rw [split] at linked last nodup fresh'
  have link : m.next p = later.head? := by
    have follows : ∀ (earlier : List α) (r : Option α),
        Linked m.next r (earlier ++ p :: later) → Linked m.next (m.next p) later := by
      intro earlier
      induction earlier with
      | nil => exact fun _ linked => linked.2
      | cons y earlier ih => exact fun _ linked => ih _ linked.2
    have rest := follows earlier _ linked
    cases later with
    | nil => exact rest
    | cons y later => exact rest.1
  rw [result] at apart ⊢
  unfold Mem.insert
  simp only [Function.update_of_ne new, Function.update_self]
  apply holds.of_update _ _ _ apart
  · have head : ((if m.next p = none then
        Function.update m.list h { m.list h with tail := some x } else m.list) h).head =
        (m.list h).head := by
      split <;> simp
    rw [head]
    exact linked.insert_after nodup fresh'
  · rw [link]
    cases later with
    | nil => simp
    | cons y later => simp [last]
  · intro h' other
    refine ⟨?_, fun y within => ?_⟩
    · split
      · exact Function.update_of_ne other _ _
      · rfl
    · have old : y ≠ x := fun same => fresh h' (same ▸ within)
      have off : y ≠ p := by
        rintro rfl
        exact other (holds.apart.apart h' h y within member)
      simp only [Function.update_of_ne off, Function.update_of_ne old]

theorem addHead (holds : Holds m lists) (fresh : ∀ h', x ∉ lists h') (h : κ) :
    Holds (m.addHead h x) (Function.update lists h (x :: lists h)) := by
  have linked := holds.linked h
  have tail := holds.tail h
  have head := holds.head_eq h
  have kept : ∀ h', ∀ y ∈ lists h',
      Function.update m.next x (m.list h).head y = m.next y := by
    intro h' y within
    refine Function.update_of_ne ?_ _ _
    rintro rfl
    exact fresh h' within
  apply holds.of_update _ _ _ (holds.apart.enter fresh (List.Perm.refl _))
  · simp only [Mem.addHead, Function.update_self, Linked]
    exact ⟨trivial, linked.frame (kept h)⟩
  · simp only [Mem.addHead, Function.update_self]
    rw [head]
    cases members : lists h with
    | nil => simp
    | cons y ys => simp [tail, members]
  · exact fun h' other => ⟨Function.update_of_ne other _ _, kept h'⟩

/-- A list that ends where it began keeps nothing. -/
theorem merge_self (holds : Holds m lists) (h : κ) :
    Holds (m.merge h h) (Function.update lists h []) := by
  have only : ∀ h', h' ≠ h → (m.merge h h).list h' = m.list h' ∧
      ∀ y ∈ lists h', (m.merge h h).next y = m.next y := by
    intro h' other
    unfold Mem.merge
    cases tail : (m.list h).tail with
    | none => exact ⟨by simp [Function.update_of_ne other], fun _ _ => rfl⟩
    | some last =>
        have inside : last ∈ lists h := List.mem_of_getLast? ((holds.tail h).symm.trans tail)
        cases head : (m.list h).head with
        | none => exact ⟨by simp [Function.update_of_ne other], fun _ _ => rfl⟩
        | some first =>
            refine ⟨by simp [Function.update_of_ne other], fun y within => ?_⟩
            refine Function.update_of_ne ?_ _ _
            rintro rfl
            exact other (holds.apart.apart h' h y within inside)
  apply holds.of_update _ _ only (holds.apart.update List.nodup_nil (List.nil_subset _))
  · simp [Mem.merge, Linked]
  · simp [Mem.merge]

/-- What a merge of two lists leaves in `l1`, and that it writes one link only. -/
theorem merge_first (holds : Holds m lists) {l1 l2 : κ} (other : l1 ≠ l2) :
    (Linked (m.merge l1 l2).next ((m.merge l1 l2).list l1).head (lists l1 ++ lists l2) ∧
      ((m.merge l1 l2).list l1).tail = (lists l1 ++ lists l2).getLast?) ∧
    ∀ y ∉ lists l1, (m.merge l1 l2).next y = m.next y := by
  have linked := holds.linked l1
  have linked' := holds.linked l2
  have tail := holds.tail l1
  have tail' := holds.tail l2
  have head' := holds.head_eq l2
  unfold Mem.merge
  cases isLast : (m.list l1).tail with
  | none =>
      have nil : lists l1 = [] := by simpa [isLast] using tail.symm
      simp [Function.update_of_ne other, nil, linked', tail']
  | some last =>
      cases isFirst : (m.list l2).head with
      | none =>
          have nil : lists l2 = [] := by simpa [isFirst] using head'.symm
          simp [Function.update_of_ne other, nil, linked, tail]
      | some first =>
          have there : (lists l1).getLast? = some last := tail.symm.trans isLast
          have inside : last ∈ lists l1 := List.mem_of_getLast? there
          have kept : ∀ y, y ≠ last → Function.update m.next last (some first) y = m.next y :=
            fun y off => Function.update_of_ne off _ _
          have some_ : lists l2 ≠ [] := by
            intro nil
            simp [isFirst, nil] at head'
          simp only [Function.update_of_ne other, Function.update_self]
          refine ⟨⟨?_, ?_⟩, fun y outside => kept y ?_⟩
          · apply linked.append there (fun y _ => kept y) (holds.apart.nodup l1)
            rw [Function.update_self]
            rw [isFirst] at linked'
            refine linked'.frame fun y within => kept y ?_
            rintro rfl
            exact other (holds.apart.apart l1 l2 y inside within)
          · rw [tail', List.getLast?_append_of_ne_nil _ some_]
          · rintro rfl
            exact outside inside

/-- **The members of the second list follow those of the first**, and the second is empty. -/
theorem merge (holds : Holds m lists) (l1 l2 : κ) : Holds (m.merge l1 l2)
    (Function.update (Function.update lists l1 (lists l1 ++ lists l2)) l2 []) := by
  by_cases same : l1 = l2
  · subst same
    rw [Function.update_idem]
    exact holds.merge_self l1
  · obtain ⟨⟨linked, tail⟩, links⟩ := holds.merge_first same
    have leaves : (lists l2).Perm (lists l2 ++ []) := by simp
    have arrives : (lists l1 ++ lists l2).Perm (lists l2 ++ lists l1) := List.perm_append_comm
    have apart := holds.apart.move (Ne.symm same) leaves arrives
    rw [Function.update_comm (Ne.symm same)] at apart
    have cleared : (m.merge l1 l2).list l2 = {} := by simp [Mem.merge]
    have others : ∀ h', h' ≠ l1 → h' ≠ l2 → (m.merge l1 l2).list h' = m.list h' := by
      intro h' off off'
      simp only [Mem.merge, Function.update_of_ne off']
      split <;> simp [Function.update_of_ne off]
    have all : ∀ h', Linked (m.merge l1 l2).next ((m.merge l1 l2).list h').head
          (Function.update (Function.update lists l1 (lists l1 ++ lists l2)) l2 [] h') ∧
        ((m.merge l1 l2).list h').tail =
          (Function.update (Function.update lists l1 (lists l1 ++ lists l2)) l2 [] h').getLast? := by
      intro h'
      by_cases second : h' = l2
      · subst second
        simp [cleared, Linked]
      · rw [Function.update_of_ne second]
        by_cases first : h' = l1
        · subst first
          rw [Function.update_self]
          exact ⟨linked, tail⟩
        · rw [Function.update_of_ne first, others h' first second]
          refine ⟨(holds.linked h').frame fun y within => links y fun back => ?_, holds.tail h'⟩
          exact first (holds.apart.apart h' l1 y within back)
    exact ⟨fun h' => (all h').1, fun h' => (all h').2, apart⟩

end Holds

end QStack.Lib.LinkedList
