/-
# QStack.CircularQueue -- the circular queues of circular_queue.h

One structure serves two kinds of queue.  An ordinary queue reaches its slots
through the pointer `queue`; a direct queue keeps `STATIC_BUFF_SIZE` slots in the
structure itself, and the two share memory (`union { void **queue; void
*d_queue[STATIC_BUFF_SIZE]; }`).  Only the direct queue is modelled with its
slots here, since the shipped build uses it for every mbuf queue.

`dir_cirq_add` and `dir_cirq_get` treat a direct queue as the bounded FIFO it
is meant to be: `Represents` says which list it holds, and `dirCirqAdd_success`,
`dirCirqAdd_full`, `dirCirqGet_cons` and `dirCirqGet_nil` are their contracts.
`cirq_add` on a direct queue is another matter (`cirqAddDirect`): it stores
through whatever `d_queue[0]` points to and advances `head` all the same, so a
slot nobody wrote enters the window.
-/
import QStack.Lib.Ring
import QStack.Universal

namespace QStack

set_option autoImplicit false

/-- `STATIC_BUFF_SIZE` -/
def staticBuffSize : Nat := 8

theorem staticBuffSize_pos : 0 < staticBuffSize := by decide

structure CircularQueue (α : Type) where
  /-- index ready to insert -/
  head : Nat
  dQueue : Nat → Option α
  size : Nat
  /-- index ready to get -/
  tail : Nat

namespace CircularQueue

variable {α : Type}

def cirqSucc (q : CircularQueue α) (p : Nat) : Nat := (p + 1) % q.size

def cirqFull (q : CircularQueue α) : Bool := q.cirqSucc q.head == q.tail

def cirqEmpty (q : CircularQueue α) : Bool := q.head == q.tail

def cirqCount (q : CircularQueue α) : Nat :=
  if q.head ≥ q.tail then q.head - q.tail else q.head + q.size - q.tail

/-- The slots keep their contents: the stream they live in was zeroed on creation. -/
def dirCirqInit (q : CircularQueue α) : CircularQueue α :=
  { q with head := 0, tail := 0, size := staticBuffSize }

def dirCirqAdd (q : CircularQueue α) (item : α) : Int × CircularQueue α :=
  if q.cirqFull then (failed, q)
  else
    (success,
      { q with
        dQueue := Function.update q.dQueue q.head (some item)
        head := q.cirqSucc q.head })

def dirCirqGet (q : CircularQueue α) : Option α × CircularQueue α :=
  if q.cirqEmpty then (none, q)
  else (q.dQueue q.tail, { q with tail := q.cirqSucc q.tail })

/-- Where a store through the pointer of a direct queue lands: at a small address
when slot 0 is null, else in the object slot 0 points to, `word` words in. -/
inductive StrayStore (α : Type) where
  | null (word : Nat)
  | into (owner : α) (word : Nat)
deriving DecidableEq, Repr

/-- `cirq_add` applied to a direct queue. -/
def cirqAddDirect (q : CircularQueue α) (_item : α) :
    Int × CircularQueue α × Option (StrayStore α) :=
  if q.cirqFull then (failed, q, none)
  else
    let stray :=
      match q.dQueue 0 with
      | none => StrayStore.null q.head
      | some owner => StrayStore.into owner q.head
    (success, { q with head := q.cirqSucc q.head }, some stray)

/-! ## The list a queue holds -/

/-- The window of `q`, from `tail` up to `head`, holds exactly `xs`. -/
structure Window (q : CircularQueue α) (xs : List α) : Prop where
  tail_lt : q.tail < q.size
  room : xs.length < q.size
  head_eq : q.head = Lib.Ring.index q.size q.tail xs.length
  holds : Lib.Ring.Holds q.size q.dQueue q.tail xs

/-- `q` is a direct queue whose window holds exactly `xs`. -/
structure Represents (q : CircularQueue α) (xs : List α) : Prop where
  size_eq : q.size = staticBuffSize
  tail_lt : q.tail < staticBuffSize
  room : xs.length < staticBuffSize
  head_eq : q.head = Lib.Ring.index staticBuffSize q.tail xs.length
  holds : Lib.Ring.Holds staticBuffSize q.dQueue q.tail xs

/-- What the window of a queue holds; empty slots in it do not count. -/
def contents (q : CircularQueue α) : List α :=
  (List.range q.cirqCount).filterMap fun i => q.dQueue (Lib.Ring.index q.size q.tail i)

namespace Window

variable {q : CircularQueue α} {xs : List α}

theorem head_lt (window : q.Window xs) : q.head < q.size := by
  rw [window.head_eq]
  exact Lib.Ring.index_lt (Nat.zero_lt_of_lt window.tail_lt) _ _

theorem full_iff (window : q.Window xs) : q.cirqFull = true ↔ xs.length + 1 = q.size := by
  simp only [cirqFull, cirqSucc, beq_iff_eq, window.head_eq, Lib.Ring.index_succ]
  have room := window.room
  have tail := Lib.Ring.index_zero window.tail_lt
  constructor
  · intro wrapped
    by_contra short
    have := Lib.Ring.index_inj (by omega) (by omega) (wrapped.trans tail.symm)
    omega
  · intro last
    rw [last, Lib.Ring.index, Nat.add_mod_right, Nat.mod_eq_of_lt window.tail_lt]

theorem empty_iff (window : q.Window xs) : q.cirqEmpty = true ↔ xs = [] := by
  simp only [cirqEmpty, beq_iff_eq, window.head_eq]
  have room := window.room
  have tail := Lib.Ring.index_zero window.tail_lt
  constructor
  · intro same
    exact List.length_eq_zero_iff.mp
      (Lib.Ring.index_inj window.room (by omega) (same.trans tail.symm))
  · rintro rfl
    exact tail

theorem count_eq (window : q.Window xs) : q.cirqCount = xs.length := by
  have bound := window.room
  have tail := window.tail_lt
  simp only [cirqCount, window.head_eq, Lib.Ring.index]
  by_cases wraps : q.tail + xs.length < q.size
  · rw [Nat.mod_eq_of_lt wraps, if_pos (by omega)]
    omega
  · rw [Nat.mod_eq_sub_mod (by omega), Nat.mod_eq_of_lt (by omega), if_neg (by omega)]
    omega

theorem contents (window : q.Window xs) : q.contents = xs := by
  have slots : ∀ i ∈ List.range xs.length,
      q.dQueue (Lib.Ring.index q.size q.tail i) = xs[i]? := by
    intro i inside
    rw [List.mem_range] at inside
    rw [window.holds i inside, List.getElem?_eq_getElem inside]
  rw [CircularQueue.contents, window.count_eq, List.filterMap_congr slots]
  calc (List.range xs.length).filterMap (fun i => xs[i]?)
      = ((List.range xs.length).map (fun i => xs[i]?)).filterMap id := by
        rw [List.filterMap_map, Function.id_comp]
    _ = (xs.map some).filterMap id := by
        congr 1
        apply List.ext_getElem
        · simp
        · intro i short _
          simp only [List.length_map, List.length_range] at short
          simp [List.getElem?_eq_getElem short]
    _ = xs := by simp

/-- The slot at `head` is outside the window. -/
theorem store (window : q.Window xs) (a : Option α) :
    Window { q with dQueue := Function.update q.dQueue q.head a } xs where
  tail_lt := window.tail_lt
  room := window.room
  head_eq := window.head_eq
  holds := by
    rw [window.head_eq]
    exact Lib.Ring.holds_write a window.room window.holds

/-- Moving `head` takes the slot in. -/
theorem push (window : q.Window xs) (room : xs.length + 1 < q.size) {a : α}
    (written : q.dQueue q.head = some a) :
    Window { q with head := q.cirqSucc q.head } (xs ++ [a]) where
  tail_lt := window.tail_lt
  room := by
    rw [List.length_append, List.length_singleton]
    exact room
  head_eq := by
    rw [List.length_append, List.length_singleton]
    exact (congrArg q.cirqSucc window.head_eq).trans (Lib.Ring.index_succ _ _)
  holds := by
    rw [window.head_eq] at written
    exact Lib.Ring.holds_push written window.holds

theorem first {a : α} (window : q.Window (a :: xs)) : q.dQueue q.tail = some a :=
  Lib.Ring.holds_head window.tail_lt window.holds

/-- Moving `tail` drops the first item. -/
theorem pop {a : α} (window : q.Window (a :: xs)) :
    Window { q with tail := q.cirqSucc q.tail } xs where
  tail_lt := Nat.mod_lt _ (Nat.zero_lt_of_lt window.tail_lt)
  room := by
    have room := window.room
    rw [List.length_cons] at room
    exact Nat.lt_of_succ_lt room
  head_eq := window.head_eq.trans (Lib.Ring.index_shift _ _).symm
  holds := Lib.Ring.holds_pop window.holds

end Window

/-! ## Direct queues -/

theorem dirCirqInit_represents (q : CircularQueue α) : (dirCirqInit q).Represents [] where
  size_eq := rfl
  tail_lt := staticBuffSize_pos
  room := staticBuffSize_pos
  head_eq := rfl
  holds := Lib.Ring.holds_nil _ _

section Represents

variable {q : CircularQueue α} {xs : List α}

theorem Represents.window (rep : q.Represents xs) : q.Window xs where
  tail_lt := rep.size_eq ▸ rep.tail_lt
  room := rep.size_eq ▸ rep.room
  head_eq := rep.size_eq ▸ rep.head_eq
  holds := rep.size_eq ▸ rep.holds

theorem Window.represents (window : q.Window xs) (size_eq : q.size = staticBuffSize) :
    q.Represents xs where
  size_eq := size_eq
  tail_lt := size_eq ▸ window.tail_lt
  room := size_eq ▸ window.room
  head_eq := size_eq ▸ window.head_eq
  holds := size_eq ▸ window.holds

theorem cirqFull_iff (rep : q.Represents xs) :
    q.cirqFull = true ↔ xs.length + 1 = staticBuffSize := by
  rw [← rep.size_eq]
  exact rep.window.full_iff

theorem cirqEmpty_iff (rep : q.Represents xs) : q.cirqEmpty = true ↔ xs = [] :=
  rep.window.empty_iff

theorem cirqCount_eq (rep : q.Represents xs) : q.cirqCount = xs.length := rep.window.count_eq

theorem contents_eq (rep : q.Represents xs) : q.contents = xs := rep.window.contents

theorem dirCirqAdd_full (full : q.cirqFull = true) (a : α) :
    q.dirCirqAdd a = (failed, q) := by
  simp [dirCirqAdd, full]

theorem dirCirqAdd_success (rep : q.Represents xs) (room : q.cirqFull = false) (a : α) :
    (q.dirCirqAdd a).1 = success ∧ (q.dirCirqAdd a).2.Represents (xs ++ [a]) := by
  have notLast : xs.length + 1 ≠ q.size := fun last => by
    simp [rep.window.full_iff.mpr last] at room
  have bound := rep.window.room
  have pushed := (rep.window.store (some a)).push (by change xs.length + 1 < q.size; omega)
    (Function.update_self _ _ _)
  simp only [dirCirqAdd, room, Bool.false_eq_true, if_false, true_and]
  exact pushed.represents rep.size_eq

theorem dirCirqGet_nil (rep : q.Represents []) : q.dirCirqGet = (none, q) := by
  simp [dirCirqGet, (cirqEmpty_iff rep).mpr rfl]

theorem dirCirqGet_cons {a : α} (rep : q.Represents (a :: xs)) :
    q.dirCirqGet.1 = some a ∧ q.dirCirqGet.2.Represents xs := by
  have occupied : q.cirqEmpty = false := by
    cases empty : q.cirqEmpty with
    | false => rfl
    | true => exact absurd ((cirqEmpty_iff rep).mp empty) (List.cons_ne_nil a xs)
  simp only [dirCirqGet, occupied, Bool.false_eq_true, if_false]
  exact ⟨rep.window.first, rep.window.pop.represents rep.size_eq⟩

end Represents

end CircularQueue

end QStack
