/-
# QStack.SpscRing -- one producer and one consumer on a circular queue

The two threads never synchronise: the producer owns `head`, the consumer owns `tail`,
and each only reads the index of the other.  A thread takes its memory steps one at a
time, in program order: the full or empty test, the slot, the index.  `SpscEvent` says
which thread moves next, so a list of events is an interleaving; an event that is not
the next step of its thread does nothing.

`cirq_add` and `dir_cirq_add` test, store and publish; `cirq_get_wslot` followed by
`cirq_writen` stores first.  Either way the slot at `head` lies outside what the consumer
may read until `head` moves, and the slot at `tail` inside of what the producer may not
write until `tail` moves.  That is the invariant (`Shared`), and it makes the queue a FIFO
of capacity `size - 1` at every single step (`spsc_refines`).
-/
import QStack.CircularQueue
import QStack.Lib.Fifo

namespace QStack

set_option autoImplicit false

namespace CircularQueue

/-- `cirq_init`, with the slots cleared by `calloc`. -/
def cirqInit {α : Type} (size : Nat) : CircularQueue α :=
  { head := 0, dQueue := fun _ => none, size := size, tail := 0 }

end CircularQueue

/-- Where the producer stands. -/
inductive ProducerAt (α : Type) where
  | idle
  /-- `cirq_add` found room, the slot is not written -/
  | admitted (item : α)
  /-- the slot of `cirq_get_wslot` is written, `cirq_writen` has not looked at the queue -/
  | slotted (item : α)
  /-- there is room and the slot is written, `head` is to move -/
  | stored (item : α)
deriving DecidableEq, Repr

/-- Where the consumer stands. -/
inductive ConsumerAt (α : Type) where
  | idle
  /-- `cirq_get` found an item -/
  | admitted
  /-- the slot is read, `tail` is to move -/
  | loaded (item : Option α)
deriving DecidableEq, Repr

structure Spsc (α : Type) where
  q : CircularQueue α
  producer : ProducerAt α := .idle
  consumer : ConsumerAt α := .idle

inductive SpscEvent (α : Type) where
  /-- `cirq_add` or `dir_cirq_add` makes its full test -/
  | add (item : α)
  /-- the slot of `cirq_get_wslot` is written -/
  | wslot (item : α)
  /-- the next step of the producer -/
  | produce
  /-- `cirq_get` or `dir_cirq_get` makes its empty test -/
  | get
  /-- the next step of the consumer -/
  | consume
deriving DecidableEq, Repr

namespace Spsc

variable {α : Type}

/-- The store into the slot at `head`. -/
def store (s : Spsc α) (item : α) (next : ProducerAt α) : Spsc α :=
  { s with q := { s.q with dQueue := Function.update s.q.dQueue s.q.head (some item) }, producer := next }

def step (s : Spsc α) : SpscEvent α → Spsc α
  | .add item =>
      match s.producer with
      | .idle => if s.q.cirqFull then s else { s with producer := .admitted item }
      | _ => s
  | .wslot item =>
      match s.producer with
      | .idle => s.store item (.slotted item)
      | _ => s
  | .produce =>
      match s.producer with
      | .idle => s
      | .admitted item => s.store item (.stored item)
      | .slotted item =>
          if s.q.cirqFull then { s with producer := .idle } else { s with producer := .stored item }
      | .stored _ => { s with q := { s.q with head := s.q.cirqSucc s.q.head }, producer := .idle }
  | .get =>
      match s.consumer with
      | .idle => if s.q.cirqEmpty then s else { s with consumer := .admitted }
      | _ => s
  | .consume =>
      match s.consumer with
      | .idle => s
      | .admitted => { s with consumer := .loaded (s.q.dQueue s.q.tail) }
      | .loaded _ => { s with q := { s.q with tail := s.q.cirqSucc s.q.tail }, consumer := .idle }

/-- The result of the call that the step ends, if it ends one. -/
def observe (s : Spsc α) : SpscEvent α → Lib.Fifo.Label α
  | .add _ =>
      match s.producer with
      | .idle => if s.q.cirqFull then .refused else .internal
      | _ => .internal
  | .wslot _ => .internal
  | .produce =>
      match s.producer with
      | .idle | .admitted _ => .internal
      | .slotted _ => if s.q.cirqFull then .refused else .internal
      | .stored item => .added item
  | .get =>
      match s.consumer with
      | .idle => if s.q.cirqEmpty then .nothing else .internal
      | _ => .internal
  | .consume =>
      match s.consumer with
      | .idle | .admitted => .internal
      | .loaded item => .got item

def init (size : Nat) : Spsc α := { q := CircularQueue.cirqInit size }

/-- What is queued: the window between the two indices. -/
def queued (s : Spsc α) : List α := s.q.contents

/-! ## The invariant -/

/-- What the producer knows, wherever the consumer is. -/
def ProducerKnows (q : CircularQueue α) (xs : List α) : ProducerAt α → Prop
  | .idle => True
  | .admitted _ => xs.length + 1 < q.size
  | .slotted item => q.dQueue q.head = some item
  | .stored item => xs.length + 1 < q.size ∧ q.dQueue q.head = some item

/-- What the consumer knows, wherever the producer is. -/
def ConsumerKnows (xs : List α) : ConsumerAt α → Prop
  | .idle => True
  | .admitted => xs ≠ []
  | .loaded item => ∃ x rest, xs = x :: rest ∧ item = some x

structure Shared (s : Spsc α) (xs : List α) : Prop where
  window : s.q.Window xs
  producer : ProducerKnows s.q xs s.producer
  consumer : ConsumerKnows xs s.consumer

section Step

variable {s : Spsc α} {xs : List α}

/-- A test that does not find the queue full finds a free slot. -/
theorem Shared.room (shared : s.Shared xs) (notFull : s.q.cirqFull = false) :
    xs.length + 1 < s.q.size := by
  have bound := shared.window.room
  have notLast : xs.length + 1 ≠ s.q.size := fun last => by
    rw [shared.window.full_iff.mpr last] at notFull
    cases notFull
  omega

/-- The slot at `head` may be written: the consumer does not look at it. -/
theorem Shared.store (shared : s.Shared xs) (item : α) {next : ProducerAt α}
    (knows : xs.length + 1 < s.q.size ∧ next = .stored item ∨ next = .slotted item) :
    (s.store item next).Shared xs where
  window := shared.window.store (some item)
  producer := by
    have written : (s.store item next).q.dQueue (s.store item next).q.head = some item :=
      Function.update_self _ _ _
    rcases knows with ⟨room, rfl⟩ | rfl
    · exact ⟨room, written⟩
    · exact written
  consumer := shared.consumer

/-- Moving `head` shows the item to the consumer, who keeps what it knew. -/
theorem Shared.publish (shared : s.Shared xs) {item : α} (stored : s.producer = .stored item) :
    Shared { s with q := { s.q with head := s.q.cirqSucc s.q.head }, producer := .idle }
      (xs ++ [item]) := by
  have knows := shared.producer
  rw [stored] at knows
  refine ⟨shared.window.push knows.1 knows.2, trivial, ?_⟩
  have consumer := shared.consumer
  change ConsumerKnows (xs ++ [item]) s.consumer
  cases at_ : s.consumer with
  | idle => trivial
  | admitted => exact List.append_ne_nil_of_right_ne_nil _ (List.cons_ne_nil _ _)
  | loaded loaded =>
      rw [at_] at consumer
      obtain ⟨x, rest, rfl, value⟩ := consumer
      exact ⟨x, rest ++ [item], rfl, value⟩

/-- Moving `tail` frees the slot, and the producer keeps what it knew. -/
theorem Shared.release {x : α} (shared : s.Shared (x :: xs)) :
    Shared { s with q := { s.q with tail := s.q.cirqSucc s.q.tail }, consumer := .idle } xs := by
  refine ⟨shared.window.pop, ?_, trivial⟩
  have producer := shared.producer
  change ProducerKnows { s.q with tail := s.q.cirqSucc s.q.tail } xs s.producer
  cases at_ : s.producer with
  | idle => trivial
  | admitted item =>
      rw [at_] at producer
      exact Nat.lt_of_succ_lt producer
  | slotted item =>
      rw [at_] at producer
      exact producer
  | stored item =>
      rw [at_] at producer
      exact ⟨Nat.lt_of_succ_lt producer.1, producer.2⟩

/-- **One step of either thread is a step of the FIFO.** -/
theorem Shared.step (shared : s.Shared xs) (e : SpscEvent α) :
    ∃ xs', (s.step e).Shared xs' ∧ Lib.Fifo.Step (s.q.size - 1) xs (s.observe e) xs' ∧
      (s.step e).q.size = s.q.size := by
  have stays : ∃ xs', s.Shared xs' ∧ Lib.Fifo.Step (s.q.size - 1) xs .internal xs' ∧
    s.q.size = s.q.size := ⟨xs, shared, .internal xs, rfl⟩
  have refused : s.q.cirqFull = true → Lib.Fifo.Step (s.q.size - 1) xs .refused xs := by
    intro full
    have last := shared.window.full_iff.mp full
    exact .refused (by omega)
  cases e with
  | add item =>
      unfold Spsc.step observe
      cases at_ : s.producer with
      | admitted | slotted | stored => exact stays
      | idle =>
          dsimp only
          cases full : s.q.cirqFull with
          | true => exact ⟨xs, shared, refused full, rfl⟩
          | false => exact ⟨xs, ⟨shared.window, shared.room full, shared.consumer⟩, .internal xs, rfl⟩
  | wslot item =>
      unfold Spsc.step observe
      cases at_ : s.producer with
      | admitted | slotted | stored => exact stays
      | idle => exact ⟨xs, shared.store item (.inr rfl), .internal xs, rfl⟩
  | produce =>
      have knows := shared.producer
      unfold Spsc.step observe
      cases at_ : s.producer with
      | idle => exact stays
      | admitted item =>
          rw [at_] at knows
          exact ⟨xs, shared.store item (.inl ⟨knows, rfl⟩), .internal xs, rfl⟩
      | slotted item =>
          rw [at_] at knows
          dsimp only
          cases full : s.q.cirqFull with
          | true => exact ⟨xs, ⟨shared.window, trivial, shared.consumer⟩, refused full, rfl⟩
          | false =>
              exact ⟨xs, ⟨shared.window, ⟨shared.room full, knows⟩, shared.consumer⟩, .internal xs, rfl⟩
      | stored item =>
          rw [at_] at knows
          have room := knows.1
          exact ⟨xs ++ [item], shared.publish at_, .added (by omega), rfl⟩
  | get =>
      unfold Spsc.step observe
      cases at_ : s.consumer with
      | admitted | loaded => exact stays
      | idle =>
          dsimp only
          cases empty : s.q.cirqEmpty with
          | true =>
              obtain rfl := shared.window.empty_iff.mp empty
              exact ⟨[], shared, .nothing, rfl⟩
          | false =>
              refine ⟨xs, ⟨shared.window, shared.producer, ?_⟩, .internal xs, rfl⟩
              intro none
              rw [shared.window.empty_iff.mpr none] at empty
              cases empty
  | consume =>
      have knows := shared.consumer
      unfold Spsc.step observe
      cases at_ : s.consumer with
      | idle => exact stays
      | admitted =>
          rw [at_] at knows
          obtain ⟨x, rest, rfl⟩ := List.exists_cons_of_ne_nil knows
          exact ⟨x :: rest, ⟨shared.window, shared.producer, x, rest, rfl, shared.window.first⟩,
            .internal _, rfl⟩
      | loaded item =>
          rw [at_] at knows
          obtain ⟨x, rest, rfl, rfl⟩ := knows
          exact ⟨rest, shared.release, .got, rfl⟩

theorem Shared.queued_eq (shared : s.Shared xs) : s.queued = xs := shared.window.contents

/-- The same, said of what is queued. -/
theorem Shared.next (shared : s.Shared s.queued) (e : SpscEvent α) :
    (s.step e).Shared (s.step e).queued ∧
      Lib.Fifo.Step (s.q.size - 1) s.queued (s.observe e) (s.step e).queued ∧
      (s.step e).q.size = s.q.size := by
  obtain ⟨xs, shared', fifo, size⟩ := shared.step e
  rw [shared'.queued_eq]
  exact ⟨shared', fifo, size⟩

end Step

/-! ## Where a ring stands -/

/-- The place of each thread on a ring, with what is queued. -/
structure Stands (s : Spsc α) (producer : ProducerAt α) (consumer : ConsumerAt α) (xs : List α) :
    Prop where
  shared : s.Shared xs
  producer : s.producer = producer
  consumer : s.consumer = consumer

section Stands

variable {s : Spsc α} {xs : List α} {x : α} {producer : ProducerAt α} {consumer : ConsumerAt α}

theorem Stands.queued_eq (stands : s.Stands producer consumer xs) : s.queued = xs :=
  stands.shared.queued_eq

theorem Stands.add (stands : s.Stands .idle consumer xs) (room : s.q.cirqFull = false) (x : α) :
    (s.step (.add x)).Stands (.admitted x) consumer xs := by
  have went : s.step (.add x) = { s with producer := .admitted x } := by
    simp [step, stands.producer, room]
  rw [went]
  exact ⟨⟨stands.shared.window, stands.shared.room room, stands.shared.consumer⟩, rfl,
    stands.consumer⟩

theorem Stands.slot (stands : s.Stands (.admitted x) consumer xs) :
    (s.step .produce).Stands (.stored x) consumer xs := by
  have knows := stands.shared.producer
  rw [stands.producer] at knows
  have went : s.step .produce = s.store x (.stored x) := by simp [step, stands.producer]
  rw [went]
  exact ⟨stands.shared.store x (.inl ⟨knows, rfl⟩), rfl, stands.consumer⟩

theorem Stands.publish (stands : s.Stands (.stored x) consumer xs) :
    (s.step .produce).Stands .idle consumer (xs ++ [x]) := by
  have went : s.step .produce =
      { s with q := { s.q with head := s.q.cirqSucc s.q.head }, producer := .idle } := by
    simp [step, stands.producer]
  rw [went]
  exact ⟨stands.shared.publish stands.producer, rfl, stands.consumer⟩

theorem Stands.empty_iff (stands : s.Stands producer consumer xs) :
    s.q.cirqEmpty = true ↔ xs = [] := stands.shared.window.empty_iff

theorem Stands.admit (stands : s.Stands producer .idle xs) (occupied : s.q.cirqEmpty = false) :
    (s.step .get).Stands producer .admitted xs := by
  have went : s.step .get = { s with consumer := .admitted } := by
    simp [step, stands.consumer, occupied]
  rw [went]
  refine ⟨⟨stands.shared.window, stands.shared.producer, ?_⟩, stands.producer, rfl⟩
  intro none
  rw [stands.empty_iff.mpr none] at occupied
  cases occupied

theorem Stands.load (stands : s.Stands producer .admitted xs) :
    ∃ x rest, xs = x :: rest ∧ (s.step .consume).Stands producer (.loaded (some x)) xs := by
  have knows := stands.shared.consumer
  rw [stands.consumer] at knows
  obtain ⟨x, rest, rfl⟩ := List.exists_cons_of_ne_nil knows
  have went : s.step .consume = { s with consumer := .loaded (s.q.dQueue s.q.tail) } := by
    simp [step, stands.consumer]
  rw [went, stands.shared.window.first]
  exact ⟨x, rest, rfl, ⟨stands.shared.window, stands.shared.producer, x, rest, rfl, rfl⟩,
    stands.producer, rfl⟩

theorem Stands.release (stands : s.Stands producer (.loaded (some x)) xs) :
    ∃ rest, xs = x :: rest ∧ (s.step .consume).Stands producer .idle rest := by
  have knows := stands.shared.consumer
  rw [stands.consumer] at knows
  obtain ⟨y, rest, rfl, same⟩ := knows
  obtain rfl := Option.some.inj same
  have went : s.step .consume =
      { s with q := { s.q with tail := s.q.cirqSucc s.q.tail }, consumer := .idle } := by
    simp [step, stands.consumer]
  rw [went]
  exact ⟨rest, rfl, stands.shared.release, stands.producer, rfl⟩

end Stands

/-! ## Runs -/

theorem init_shared {size : Nat} (two : 2 ≤ size) : (init size : Spsc α).Shared [] where
  window :=
    { tail_lt := Nat.lt_of_lt_of_le Nat.zero_lt_two two
      room := Nat.lt_of_lt_of_le Nat.zero_lt_two two
      head_eq := (Nat.zero_mod size).symm
      holds := Lib.Ring.holds_nil _ _ }
  producer := trivial
  consumer := trivial

/-- The indices are in range, and `cirq_count` is right at every step. -/
structure Sound (size : Nat) (s : Spsc α) : Prop where
  head : s.q.head < size
  tail : s.q.tail < size
  count : s.q.cirqCount = s.queued.length

/-- **The ring refines a bounded FIFO.**  Whatever the interleaving of the memory steps of one
producer and one consumer, each step is a step of a FIFO of capacity `size - 1` holding what lies
between the two indices; so what was added is what was got, in order, followed by what is held. -/
theorem spsc_refines {size : Nat} (two : 2 ≤ size) (es : List (SpscEvent α)) :
    Lib.Run.Along step (Sound size) (init size) es ∧
      Lib.Run.Each step (fun s e s' => Lib.Fifo.Step (size - 1) s.queued (s.observe e) s'.queued)
        (init size) es ∧
      Lib.Fifo.inputs (Lib.Run.labels step observe (init size) es) =
        Lib.Fifo.outputs (Lib.Run.labels step observe (init size) es) ++
          (Lib.Run.run step (init size) es).queued := by
  let Inv : Spsc α → Prop := fun s => s.q.size = size ∧ s.Shared s.queued
  have kept : ∀ (s : Spsc α) (e : SpscEvent α), Inv s → True → Inv (s.step e) ∧
      Lib.Fifo.Step (size - 1) s.queued (s.observe e) (s.step e).queued := by
    rintro s e ⟨sized, shared⟩ -
    obtain ⟨shared', fifo, same⟩ := shared.next e
    refine ⟨⟨same.trans sized, shared'⟩, ?_⟩
    rw [← sized]
    exact fifo
  have empty : (init size : Spsc α).queued = [] := (init_shared two).queued_eq
  have first : Inv (init size) := ⟨rfl, empty ▸ init_shared two⟩
  have each : Lib.Run.Each step
      (fun s e s' => Lib.Fifo.Step (size - 1) s.queued (s.observe e) s'.queued) (init size) es :=
    Lib.Run.each_of_step (P := Inv) kept es _ first (Lib.Run.allowed_always es _)
  refine ⟨?_, each, ?_⟩
  · have along : Lib.Run.Along step Inv (init size) es := Lib.Run.along_of_step
      (fun s e inv ok => (kept s e inv ok).1) es _ first (Lib.Run.allowed_always es _)
    refine Lib.Run.Along.mono ?_ es _ along
    rintro s ⟨sized, shared⟩
    exact ⟨sized ▸ shared.window.head_lt, sized ▸ shared.window.tail_lt, shared.window.count_eq⟩
  · have trace := Lib.Fifo.trace es _ each
    rw [empty, List.nil_append] at trace
    exact trace

/-- A ring of two slots: an item is added and got while a second add is refused. -/
theorem spsc_refines_two :
    Lib.Fifo.outputs (Lib.Run.labels step observe (init 2)
      [.add 7, .produce, .produce, .get, .consume, .add 8, .consume]) = [7] ∧
    Lib.Run.Along step (Sound 2) (init 2)
      [.add 7, .produce, .produce, .get, .consume, .add 8, .consume] :=
  ⟨by decide, (spsc_refines (by decide) _).1⟩

end Spsc

end QStack
