/-
# QStack.Lists -- mbuf_list and event_list

The send and receive buffers keep their mbufs in a `mbuf_list`, a stream its pending events in an
`event_list`.  Both are intrusive: the link is a field of the element (`buf_next`, `next`), and the
list has the pointers to its first and to its last element.  `event_list_append` and
`event_list_pop` are `mbuf_list_append` and `mbuf_list_pop` with the names changed.

`lists_law` says that over every run the lists in memory are lists: each is reached from its head,
ends at its tail with NULL, goes through no element twice and shares none with another, and every
operation does to the members, and returns, what the operation on lists of its name does.  An
element may come from anywhere as long as it is in no list; its old link is never read.  A merge of
a list with itself empties it.

The single lists with which `ooo_insert` is modelled, and the `event_list` that two threads take
apart step by step, are these lists (`ofMem_append`, `ofMem_insert`, `eventListPop_steps`,
`eventListAppend_steps`).
-/
import QStack.Lib.LinkedList
import QStack.OutOfOrder
import QStack.PendingEvent

namespace QStack

set_option autoImplicit false

open Lib.LinkedQueue (Linked)
open Lib.LinkedList (Mem Holds insertAfter)

variable {κ ι : Type} [DecidableEq κ] [DecidableEq ι]

/-! ## The functions -/

def mbufListInit (m : Mem κ ι) (list : κ) : Mem κ ι := m.init list

def mbufListPop (m : Mem κ ι) (list : κ) : Option ι × Mem κ ι := m.pop list

def mbufListAppend (m : Mem κ ι) (list : κ) (mbuf : ι) : Mem κ ι := m.append list mbuf

def mbufListInsert (m : Mem κ ι) (list : κ) (b1 b2 : ι) : Mem κ ι := m.insert list b1 b2

def mbufListAddHead (m : Mem κ ι) (list : κ) (mbuf : ι) : Mem κ ι := m.addHead list mbuf

def mbufListMerge (m : Mem κ ι) (l1 l2 : κ) : Mem κ ι := m.merge l1 l2

def eventListInit (m : Mem κ ι) (list : κ) : Mem κ ι := m.init list

def eventListPop (m : Mem κ ι) (list : κ) : Option ι × Mem κ ι := m.pop list

def eventListAppend (m : Mem κ ι) (list : κ) (event : ι) : Mem κ ι := m.append list event

/-! ## Calls -/

inductive MbufListOp (κ ι : Type) where
  | init (list : κ)
  | pop (list : κ)
  | append (list : κ) (mbuf : ι)
  | insert (list : κ) (b1 b2 : ι)
  | addHead (list : κ) (mbuf : ι)
  | merge (l1 l2 : κ)

inductive EventListOp (κ ι : Type) where
  | init (list : κ)
  | pop (list : κ)
  | append (list : κ) (event : ι)

/-- What a call returns and leaves in memory. -/
def MbufListOp.call (m : Mem κ ι) : MbufListOp κ ι → Option ι × Mem κ ι
  | .init list => (none, mbufListInit m list)
  | .pop list => mbufListPop m list
  | .append list mbuf => (none, mbufListAppend m list mbuf)
  | .insert list b1 b2 => (none, mbufListInsert m list b1 b2)
  | .addHead list mbuf => (none, mbufListAddHead m list mbuf)
  | .merge l1 l2 => (none, mbufListMerge m l1 l2)

/-- The same for lists. -/
def MbufListOp.spec (lists : κ → List ι) : MbufListOp κ ι → Option ι × (κ → List ι)
  | .init list => (none, Function.update lists list [])
  | .pop list => ((lists list).head?, Function.update lists list (lists list).tail)
  | .append list mbuf => (none, Function.update lists list (lists list ++ [mbuf]))
  | .insert list b1 b2 => (none, Function.update lists list (insertAfter b1 b2 (lists list)))
  | .addHead list mbuf => (none, Function.update lists list (mbuf :: lists list))
  | .merge l1 l2 =>
      (none, Function.update (Function.update lists l1 (lists l1 ++ lists l2)) l2 [])

/-- What is added is in no list, and what it is put behind is in this one. -/
def MbufListOp.Admissible (lists : κ → List ι) : MbufListOp κ ι → Prop
  | .append _ mbuf | .addHead _ mbuf => ∀ l, mbuf ∉ lists l
  | .insert list b1 b2 => b1 ∈ lists list ∧ ∀ l, b2 ∉ lists l
  | .init _ | .pop _ | .merge _ _ => True

def EventListOp.call (m : Mem κ ι) : EventListOp κ ι → Option ι × Mem κ ι
  | .init list => (none, eventListInit m list)
  | .pop list => eventListPop m list
  | .append list event => (none, eventListAppend m list event)

def EventListOp.spec (lists : κ → List ι) : EventListOp κ ι → Option ι × (κ → List ι)
  | .init list => (none, Function.update lists list [])
  | .pop list => ((lists list).head?, Function.update lists list (lists list).tail)
  | .append list event => (none, Function.update lists list (lists list ++ [event]))

def EventListOp.Admissible (lists : κ → List ι) : EventListOp κ ι → Prop
  | .append _ event => ∀ l, event ∉ lists l
  | .init _ | .pop _ => True

/-! ## Memory and lists side by side -/

/-- Memory, and the lists it should hold. -/
abbrev Lists (κ ι : Type) := Mem κ ι × (κ → List ι)

namespace Lists

def mbufStep (s : Lists κ ι) (op : MbufListOp κ ι) : Lists κ ι := ((op.call s.1).2, (op.spec s.2).2)

def eventStep (s : Lists κ ι) (op : EventListOp κ ι) : Lists κ ι :=
  ((op.call s.1).2, (op.spec s.2).2)

/-- Every list is initialized, whatever the links of the elements are. -/
def start (next : ι → Option ι) : Lists κ ι := ({ next, list := fun _ => {} }, fun _ => [])

/-- The lists in memory are the lists. -/
structure Represented (s : Lists κ ι) : Prop where
  null : ∀ l, (s.1.list l).head = none ↔ (s.1.list l).tail = none
  linked : ∀ l, Linked s.1.next (s.1.list l).head (s.2 l)
  tail : ∀ l, (s.1.list l).tail = (s.2 l).getLast?
  terminated : ∀ l last, (s.1.list l).tail = some last → s.1.next last = none
  acyclic : ∀ l, (s.2 l).Nodup
  disjoint : ∀ l l', l ≠ l' → (s.2 l).Disjoint (s.2 l')

/-- A call returns what the operation on lists does, and so do the lists it leaves. -/
def MbufAgrees (s : Lists κ ι) (op : MbufListOp κ ι) (s' : Lists κ ι) : Prop :=
  (op.call s.1).1 = (op.spec s.2).1 ∧ s'.Represented

def EventAgrees (s : Lists κ ι) (op : EventListOp κ ι) (s' : Lists κ ι) : Prop :=
  (op.call s.1).1 = (op.spec s.2).1 ∧ s'.Represented

theorem represented {s : Lists κ ι} (holds : Holds s.1 s.2) : s.Represented where
  null := holds.null_iff
  linked := holds.linked
  tail := holds.tail
  terminated _ _ := holds.next_tail
  acyclic := holds.apart.nodup
  disjoint l l' other x within within' := other (holds.apart.apart l l' x within within')

omit [DecidableEq κ] [DecidableEq ι] in
theorem start_holds (next : ι → Option ι) :
    Holds (start next : Lists κ ι).1 (start next : Lists κ ι).2 where
  linked _ := rfl
  tail _ := rfl
  apart := Lib.Apart.empty

/-- **One call.** -/
theorem mbuf_call {m : Mem κ ι} {lists : κ → List ι} (holds : Holds m lists)
    (op : MbufListOp κ ι) (admissible : op.Admissible lists) :
    (op.call m).1 = (op.spec lists).1 ∧ Holds (op.call m).2 (op.spec lists).2 := by
  cases op with
  | init list => exact ⟨rfl, holds.init list⟩
  | pop list => exact holds.pop list
  | append list mbuf => exact ⟨rfl, holds.append admissible list⟩
  | insert list b1 b2 => exact ⟨rfl, holds.insert admissible.1 admissible.2⟩
  | addHead list mbuf => exact ⟨rfl, holds.addHead admissible list⟩
  | merge l1 l2 => exact ⟨rfl, holds.merge l1 l2⟩

theorem event_call {m : Mem κ ι} {lists : κ → List ι} (holds : Holds m lists)
    (op : EventListOp κ ι) (admissible : op.Admissible lists) :
    (op.call m).1 = (op.spec lists).1 ∧ Holds (op.call m).2 (op.spec lists).2 := by
  cases op with
  | init list => exact ⟨rfl, holds.init list⟩
  | pop list => exact holds.pop list
  | append list event => exact ⟨rfl, holds.append admissible list⟩

open Lib.Run in
/-- **The intrusive lists are lists.**  Over every run of calls on any number of lists and elements,
whatever the links were at the start, every call agrees with the operation on lists, and leaves
lists that memory represents. -/
theorem lists_law (next : ι → Option ι) :
    (start next : Lists κ ι).Represented ∧
    (∀ ops : List (MbufListOp κ ι),
      Allowed mbufStep (fun s op => op.Admissible s.2) (start next) ops →
        Each mbufStep MbufAgrees (start next) ops) ∧
    ∀ ops : List (EventListOp κ ι),
      Allowed eventStep (fun s op => op.Admissible s.2) (start next) ops →
        Each eventStep EventAgrees (start next) ops := by
  refine ⟨represented (start_holds next), ?_, ?_⟩
  · intro ops allowed
    apply each_of_step (P := fun s : Lists κ ι => Holds s.1 s.2) _ ops _ (start_holds next) allowed
    intro s op holds admissible
    obtain ⟨returned, kept⟩ := mbuf_call holds op admissible
    exact ⟨kept, returned, represented kept⟩
  · intro ops allowed
    apply each_of_step (P := fun s : Lists κ ι => Holds s.1 s.2) _ ops _ (start_holds next) allowed
    intro s op holds admissible
    obtain ⟨returned, kept⟩ := event_call holds op admissible
    exact ⟨kept, returned, represented kept⟩

/-- Two lists of mbufs, whose links point to themselves at first: an append to each, one in front,
one behind a member, the second list merged behind the first, and the first mbuf taken out. -/
theorem lists_law_merge :
    Lib.Run.Each mbufStep MbufAgrees (start some : Lists Bool Nat)
      [.append false 1, .append true 2, .addHead true 3, .insert true 3 4, .merge false true,
        .pop false] := by
  apply (lists_law some).2.1
  simp [Lib.Run.Allowed, MbufListOp.Admissible, mbufStep, MbufListOp.spec, start]

end Lists

/-! ## The other models of these functions -/

/-- One list of them, as `ooo_insert` sees it. -/
def MbufList.ofMem (m : Mem κ MbufId) (list : κ) : MbufList :=
  { head := (m.list list).head, tail := (m.list list).tail, bufNext := m.next }

theorem MbufList.ofMem_append (m : Mem κ MbufId) (list : κ) (mbuf : MbufId) :
    ofMem (QStack.mbufListAppend m list mbuf) list = (ofMem m list).mbufListAppend mbuf := by
  unfold QStack.mbufListAppend Mem.append MbufList.mbufListAppend ofMem
  cases tail : (m.list list).tail with
  | none => simp
  | some last => simp

theorem MbufList.ofMem_insert (m : Mem κ MbufId) (list : κ) {b1 b2 : MbufId} (other : b1 ≠ b2) :
    ofMem (QStack.mbufListInsert m list b1 b2) list = (ofMem m list).mbufListInsert b1 b2 := by
  simp only [QStack.mbufListInsert, Mem.insert, MbufList.mbufListInsert, ofMem,
    Function.update_of_ne (Ne.symm other), Function.update_self]
  by_cases last : m.next b1 = none
  · simp [last]
  · simp [last]

/-- One list, as the stack and the application see it. -/
def EventList.ofMem (m : Mem κ Nat) (list : κ) : EventList :=
  { head := (m.list list).head, tail := (m.list list).tail, next := m.next }

/-- `event_list_pop` when nobody else takes a step in between. -/
theorem eventListPop_steps (m : Mem κ Nat) (list : κ) :
    (fun s : EventList × PopAt => s.1.pop s.2)^[6] (.ofMem m list, .head) =
      (.ofMem (eventListPop m list).2 list, .done (eventListPop m list).1) := by
  unfold eventListPop Mem.pop
  cases head : (m.list list).head with
  | none => simp [EventList.ofMem, EventList.pop, head]
  | some ret =>
      by_cases last : m.next ret = none
      · simp [EventList.ofMem, EventList.pop, head, last]
      · simp [EventList.ofMem, EventList.pop, head, last]

/-- `event_list_append` when nobody else takes a step in between. -/
theorem eventListAppend_steps (m : Mem κ Nat) (list : κ) (event : Nat) :
    (fun s : Option (EventList × AppendAt) => s.bind fun s => s.1.append event s.2)^[5]
        (some (.ofMem m list, .tail)) =
      some (.ofMem (eventListAppend m list event) list, .done) := by
  unfold eventListAppend Mem.append
  cases tail : (m.list list).tail with
  | none => simp [EventList.ofMem, EventList.append, tail]
  | some last => simp [EventList.ofMem, EventList.append, tail]

end QStack
