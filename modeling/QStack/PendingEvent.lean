/-
# QStack.PendingEvent -- read events that come before the socket is registered

The stack raises a read event while the application may not have registered the socket yet.
`check_stream_event_validation` then puts the event on the pending list of the stream and looks
again whether the socket has been bound; `qepoll_ctl` binds the socket and takes an event from
the list.  `pdev_st` is to tell who has the event.  The two threads are interleaved at every
single read and write of `pdev_st`, `socket->qe` and the list.

The hand-off fails in two ways.  The application takes one event only, so a second one that was
put on the list stays there.  And both threads look at `pdev_st` before they act, so both may
take the same event.  `pending_once` says that nothing else goes wrong: if the stack puts an event
on an empty list only, and not while the application is reading, and the application does not find
an event that the stack is taking back, then every event is delivered exactly once.
-/
import QStack.Lib.Run
import Mathlib.Data.List.Nodup
import Mathlib.Logic.Function.Basic

namespace QStack

set_option autoImplicit false

/-- `enum event_list_state` -/
inductive PdevSt where
  | empty | writing | writen | reading | read
deriving DecidableEq, Repr

/-- `struct event_list`, and the `next` field of the events. -/
structure EventList where
  head : Option Nat := none
  tail : Option Nat := none
  next : Nat → Option Nat := fun _ => none

/-- What `event_list_pop` does next. -/
inductive PopAt where
  | head
  | next (ret : Nat)
  | store (ret : Nat) (next : Option Nat)
  | clear (ret : Nat)
  | recheck (ret : Nat)
  | tail (ret : Nat)
  | done (ret : Option Nat)
deriving DecidableEq, Repr

/-- The event has left the list. -/
def PopAt.isHeld : PopAt → Bool
  | .clear _ | .recheck _ | .tail _ | .done _ => true
  | .head | .next _ | .store _ _ => false

def EventList.pop (l : EventList) : PopAt → EventList × PopAt
  | .head =>
      match l.head with
      | none => (l, .done none)
      | some ret => (l, .next ret)
  | .next ret => (l, .store ret (l.next ret))
  | .store ret next => ({ l with head := next }, .clear ret)
  | .clear ret => ({ l with next := Function.update l.next ret none }, .recheck ret)
  | .recheck ret => (l, if l.head = none then .tail ret else .done (some ret))
  | .tail ret => ({ l with tail := none }, .done (some ret))
  | .done ret => (l, .done ret)

/-- What `event_list_append` does next. -/
inductive AppendAt where
  | tail
  | first | firstTail | firstNext
  | again | link (last : Nat) | clear | last
  | done
deriving DecidableEq, Repr

/-- `none` when the tail has become NULL between its two reads. -/
def EventList.append (l : EventList) (event : Nat) : AppendAt → Option (EventList × AppendAt)
  | .tail => some (l, if l.tail = none then .first else .again)
  | .first => some ({ l with head := some event }, .firstTail)
  | .firstTail => some ({ l with tail := some event }, .firstNext)
  | .firstNext => some ({ l with next := Function.update l.next event none }, .done)
  | .again => l.tail.map fun last => (l, .link last)
  | .link last => some ({ l with next := Function.update l.next last (some event) }, .clear)
  | .clear => some ({ l with next := Function.update l.next event none }, .last)
  | .last => some ({ l with tail := some event }, .done)
  | .done => some (l, .done)

/-- What the stack does next for the event at hand. -/
inductive StackAt where
  | idle
  | checkQe (event : Nat)
  | setWriting (event : Nat)
  | append (event : Nat) (at_ : AppendAt)
  | recheckQe (event : Nat)
  | check1 (event : Nat)
  | check2 (event : Nat)
  | pop (event : Nat) (at_ : PopAt)
  | addTimeEvent (event : Nat)
deriving DecidableEq, Repr

/-- What the application does next in `qepoll_ctl`. -/
inductive AppAt where
  | idle
  | bindRead | bindWrite
  | check
  | setReading
  | pop (at_ : PopAt)
  | addTimeEvent (event : Option Nat)
  | done
deriving DecidableEq, Repr

/-- The application has found `pdev_st_WRITEN` and not stored `pdev_st_READ` yet. -/
def AppAt.isReading : AppAt → Bool
  | .setReading | .pop _ => true
  | _ => false

/-- The stack is about to put an event on the list. -/
def StackAt.isStarting : StackAt → Bool
  | .setWriting _ => true
  | _ => false

/-- The stack has decided to take its event back. -/
def StackAt.isTaking : StackAt → Bool
  | .pop _ _ => true
  | _ => false

structure Pending where
  pdevSt : PdevSt := .empty
  /-- `socket->qe` is set -/
  qe : Bool := false
  list : EventList := {}
  stack : StackAt := .idle
  app : AppAt := .idle
  crashed : Bool := false
  /-- history: the events raised so far are those below -/
  raised : Nat := 0
  /-- history: the events given to `AddTimeEvent`, by either thread -/
  delivered : List Nat := []

inductive PendingEvent where
  /-- the next read event of the stream -/
  | raise
  | stack
  /-- `qepoll_ctl` with `Q_EPOLL_CTL_ADD` -/
  | register
  | app
deriving DecidableEq, Repr

namespace Pending

def stackStep (s : Pending) : Pending :=
  match s.stack with
  | .idle => s
  | .checkQe event => { s with stack := if s.qe then .addTimeEvent event else .setWriting event }
  | .setWriting event => { s with pdevSt := .writing, stack := .append event .tail }
  | .append event .done => { s with pdevSt := .writen, stack := .recheckQe event }
  | .append event at_ =>
      match s.list.append event at_ with
      | some (list, at_) => { s with list := list, stack := .append event at_ }
      | none => { s with crashed := true }
  | .recheckQe event => { s with stack := if s.qe then .check1 event else .idle }
  | .check1 event => { s with stack := if s.pdevSt = .writen then .check2 event else .idle }
  | .check2 event => { s with stack := if s.pdevSt = .writen then .pop event .head else .idle }
  -- whatever was popped, the event at hand is passed on
  | .pop event (.done _) | .addTimeEvent event =>
      { s with delivered := s.delivered ++ [event], stack := .idle }
  | .pop event at_ =>
      let popped := s.list.pop at_
      { s with list := popped.1, stack := .pop event popped.2 }

def appStep (s : Pending) : Pending :=
  match s.app with
  | .idle | .done => s
  | .bindRead => { s with app := if s.qe then .check else .bindWrite }
  | .bindWrite => { s with qe := true, app := .check }
  | .check => { s with app := if s.pdevSt = .writen then .setReading else .done }
  | .setReading => { s with pdevSt := .reading, app := .pop .head }
  | .pop (.done ret) => { s with pdevSt := .read, app := .addTimeEvent ret }
  | .pop at_ =>
      let popped := s.list.pop at_
      { s with list := popped.1, app := .pop popped.2 }
  | .addTimeEvent event => { s with delivered := s.delivered ++ event.toList, app := .done }

def step (s : Pending) (e : PendingEvent) : Pending :=
  if s.crashed then s
  else
    match e with
    | .raise =>
        if s.stack = .idle then { s with raised := s.raised + 1, stack := .checkQe s.raised } else s
    | .stack => s.stackStep
    | .register => if s.app = .idle then { s with app := .bindRead } else s
    | .app => s.appStep

/-! ## What is promised, and when -/

/-- No event is delivered twice, and when both threads are through none is left behind. -/
structure ExactlyOnce (s : Pending) : Prop where
  once : s.delivered.Nodup
  raised : ∀ event ∈ s.delivered, event < s.raised
  all : s.stack = .idle → s.app = .done → ∀ event < s.raised, event ∈ s.delivered
  runs : s.crashed = false

/-- The stack puts an event on an empty list only, and not while the application is reading; the
application does not find an event that the stack is taking back. -/
def Calm (s : Pending) (e : PendingEvent) : Prop :=
  (e = .stack → s.stack.isStarting = true → s.list.head = none ∧ s.app.isReading = false) ∧
  (e = .app → s.app = .pop .head → s.stack.isTaking = true → s.list.head = none)

instance (s : Pending) (e : PendingEvent) : Decidable (s.Calm e) :=
  inferInstanceAs (Decidable (_ ∧ _))

/-! ## The invariant -/

end Pending

namespace EventList

def Empty (l : EventList) : Prop := l.head = none ∧ l.tail = none

/-- Only `event` is on the list. -/
def Single (l : EventList) (event : Nat) : Prop :=
  l.head = some event ∧ l.tail = some event ∧ l.next event = none

/-- `event` is being put on a list that was empty. -/
def Appending (l : EventList) (event : Nat) : AppendAt → Prop
  | .tail | .first => l.Empty
  | .firstTail => l.head = some event ∧ l.tail = none
  | .firstNext => l.head = some event ∧ l.tail = some event
  | .done => l.Single event
  | .again | .link _ | .clear | .last => False

/-- `event` is being taken off a list where it was alone. -/
def Popping (l : EventList) (event : Nat) : PopAt → Prop
  | .head => l.Single event
  | .next ret => ret = event ∧ l.Single event
  | .store ret next => ret = event ∧ next = none ∧ l.Single event
  | .clear ret | .recheck ret | .tail ret => ret = event ∧ l.head = none
  | .done ret => ret = some event ∧ l.Empty

theorem Popping.step {l : EventList} {event : Nat} {at_ : PopAt} (popping : l.Popping event at_) :
    (l.pop at_).1.Popping event (l.pop at_).2 := by
  cases at_ with
  | head =>
      have head : l.head = some event := popping.1
      simp only [pop, head]
      exact ⟨rfl, popping⟩
  | next ret =>
      obtain ⟨rfl, single⟩ := popping
      exact ⟨rfl, single.2.2, single⟩
  | store ret next =>
      obtain ⟨rfl, rfl, -⟩ := popping
      exact ⟨rfl, rfl⟩
  | clear ret => exact popping
  | recheck ret =>
      simp only [pop, popping.2, if_true]
      exact popping
  | tail ret => exact ⟨congrArg some popping.1, popping.2, rfl⟩
  | done ret => exact popping

/-- The event is on the list or in the hand of the thread that pops it. -/
theorem Popping.count {l : EventList} {event : Nat} {at_ : PopAt} (popping : l.Popping event at_)
    (e : Nat) :
    (l.pop at_).1.head.toList.count e + (if (l.pop at_).2.isHeld then [event].count e else 0) =
      l.head.toList.count e + (if at_.isHeld then [event].count e else 0) := by
  cases at_ with
  | head =>
      have head : l.head = some event := popping.1
      simp [pop, head, PopAt.isHeld]
  | next ret => simp [pop, PopAt.isHeld]
  | store ret next =>
      obtain ⟨rfl, rfl, single⟩ := popping
      simp [pop, PopAt.isHeld, single.1]
  | clear ret => rfl
  | recheck ret =>
      simp [pop, popping.2, PopAt.isHeld]
  | tail ret => rfl
  | done ret => rfl

theorem Appending.step {l : EventList} {event : Nat} {at_ : AppendAt}
    (appending : l.Appending event at_) :
    ∃ l' at_', l.append event at_ = some (l', at_') ∧ l'.Appending event at_' := by
  cases at_ with
  | tail =>
      refine ⟨l, .first, ?_, appending⟩
      simp only [append, appending.2, if_true]
  | first => exact ⟨_, _, rfl, rfl, appending.2⟩
  | firstTail => exact ⟨_, _, rfl, appending.1, rfl⟩
  | firstNext => exact ⟨_, _, rfl, appending.1, appending.2, Function.update_self _ _ _⟩
  | done => exact ⟨_, _, rfl, appending⟩
  | again | link | clear | last => exact appending.elim

end EventList

namespace Pending

/-- The list while the stack is not at it. -/
def Resting (s : Pending) : AppAt → Prop
  | .idle | .bindRead | .bindWrite | .check =>
      s.list.Empty ∨ s.pdevSt = .writen ∧ ∃ event, s.list.Single event
  | .setReading => s.list.Empty ∨ ∃ event, s.list.Single event
  | .pop at_ => (∃ event, s.list.Popping event at_) ∨ s.list.Empty ∧ (at_ = .head ∨ at_ = .done none)
  | .addTimeEvent _ | .done => s.list.Empty

/-- The list while the stack waits for what becomes of `event`. -/
def Offered (s : Pending) (event : Nat) : AppAt → Prop
  | .idle | .bindRead | .bindWrite | .check | .setReading =>
      s.pdevSt = .writen ∧ s.list.Single event
  | .pop at_ => s.pdevSt = .reading ∧ s.list.Popping event at_
  | .addTimeEvent _ | .done =>
      s.pdevSt = .writen ∧ s.list.Single event ∨ s.pdevSt ≠ .writen ∧ s.list.Empty

/-- The application while the stack takes its event back. -/
def Waiting : AppAt → Prop
  | .idle | .bindRead | .bindWrite => False
  | .pop at_ => at_ = .head ∨ at_ = .done none
  | .check | .setReading | .addTimeEvent _ | .done => True

/-- What holds at a program point of the stack, the application being at `a`. -/
def StackInv (s : Pending) (a : AppAt) : StackAt → Prop
  | .idle | .checkQe _ | .setWriting _ | .addTimeEvent _ => s.Resting a
  | .append event at_ => s.pdevSt = .writing ∧ a.isReading = false ∧ s.list.Appending event at_
  | .recheckQe event => s.Offered event a
  | .check1 event | .check2 event => s.qe = true ∧ s.Offered event a
  | .pop event at_ => s.list.Popping event at_ ∧ Waiting a

/-- The event that the stack holds and that is not on the list. -/
def stackHand : StackAt → Option Nat
  | .checkQe event | .setWriting event | .addTimeEvent event => some event
  | .append event .tail | .append event .first => some event
  | .pop event (.clear _) | .pop event (.recheck _) | .pop event (.tail _) | .pop event (.done _) =>
      some event
  | _ => none

def appHand : AppAt → Option Nat
  | .pop (.clear ret) | .pop (.recheck ret) | .pop (.tail ret) => some ret
  | .pop (.done ret) | .addTimeEvent ret => ret
  | _ => none

/-- How often an event is to be found. -/
def copies (s : Pending) (event : Nat) : Nat :=
  s.delivered.count event + s.list.head.toList.count event +
    (stackHand s.stack).toList.count event + (appHand s.app).toList.count event

theorem stackHand_pop (event : Nat) (at_ : PopAt) (e : Nat) :
    (stackHand (.pop event at_)).toList.count e =
      if at_.isHeld then [event].count e else 0 := by
  cases at_ <;> rfl

theorem appHand_pop {l : EventList} {event : Nat} {at_ : PopAt} (popping : l.Popping event at_)
    (e : Nat) :
    (appHand (.pop at_)).toList.count e = if at_.isHeld then [event].count e else 0 := by
  cases at_ with
  | head | next | store => rfl
  | clear | recheck | tail | done =>
      obtain ⟨rfl, -⟩ := popping
      rfl

structure Inv (s : Pending) : Prop where
  bound : s.qe = false ↔ s.app = .idle ∨ s.app = .bindRead ∨ s.app = .bindWrite
  stack : s.StackInv s.app s.stack
  conserved : ∀ event, s.copies event = if event < s.raised then 1 else 0
  runs : s.crashed = false

theorem init_inv : ({} : Pending).Inv where
  bound := by simp
  stack := .inl ⟨rfl, rfl⟩
  conserved := fun event => by simp [copies, stackHand, appHand]
  runs := rfl

theorem Inv.exactlyOnce {s : Pending} (inv : s.Inv) : s.ExactlyOnce where
  once := by
    rw [List.nodup_iff_count_le_one]
    intro event
    have conserved := inv.conserved event
    unfold copies at conserved
    split at conserved <;> omega
  raised := by
    intro event within
    have conserved := inv.conserved event
    have some_ := List.count_pos_iff.mpr within
    unfold copies at conserved
    split at conserved <;> omega
  all := by
    intro idle done event below
    have conserved := inv.conserved event
    have empty : s.list.Empty := by
      have rest := inv.stack
      rw [idle] at rest
      unfold StackInv Resting at rest
      rw [done] at rest
      exact rest
    rw [if_pos below, copies, idle, done, empty.1] at conserved
    rw [← List.count_pos_iff]
    simp only [stackHand, appHand, Option.toList, List.count_nil] at conserved
    omega
  runs := inv.runs

/-! ## Steps of the stack -/

section Stack

variable {s : Pending}

/-- Nothing but the program point of the stack changes. -/
theorem Inv.goto (inv : s.Inv) {at_ : StackAt} (hand : stackHand at_ = stackHand s.stack)
    (next : s.StackInv s.app at_) : { s with stack := at_ }.Inv where
  bound := inv.bound
  stack := by
    cases at_ <;> exact next
  conserved := by
    intro event
    rw [← inv.conserved event]
    simp only [copies, hand]
  runs := inv.runs

theorem Resting.empty {a : AppAt} (rest : s.Resting a) (head : s.list.head = none)
    (quiet : a.isReading = false) : s.list.Empty := by
  cases a with
  | idle | bindRead | bindWrite | check =>
      rcases rest with empty | ⟨-, event, single⟩
      · exact empty
      · exact nomatch head.symm.trans single.1
  | setReading | pop => exact nomatch quiet
  | addTimeEvent | done => exact rest

/-- The event was read, or is being read. -/
theorem Offered.unread {a : AppAt} {event : Nat} (offered : s.Offered event a)
    (read : s.pdevSt ≠ .writen) : s.Resting a := by
  cases a with
  | idle | bindRead | bindWrite | check | setReading => exact absurd offered.1 read
  | pop at_ => exact .inl ⟨event, offered.2⟩
  | addTimeEvent | done =>
      rcases offered with ⟨unread, -⟩ | ⟨-, empty⟩
      · exact absurd unread read
      · exact empty

/-- The socket is not bound yet: the event stays on the list. -/
theorem Offered.unbound {a : AppAt} {event : Nat} (offered : s.Offered event a)
    (before : a = .idle ∨ a = .bindRead ∨ a = .bindWrite) : s.Resting a := by
  rcases before with rfl | rfl | rfl <;> exact .inr ⟨offered.1, event, offered.2⟩

/-- The event is still there. -/
theorem Offered.missed {a : AppAt} {event : Nat} (offered : s.Offered event a)
    (unread : s.pdevSt = .writen) (bound : ¬ (a = .idle ∨ a = .bindRead ∨ a = .bindWrite)) :
    s.list.Single event ∧ Waiting a := by
  cases a with
  | idle | bindRead | bindWrite => simp at bound
  | check | setReading => exact ⟨offered.2, trivial⟩
  | pop at_ => exact nomatch offered.1.symm.trans unread
  | addTimeEvent | done =>
      rcases offered with ⟨-, single⟩ | ⟨read, -⟩
      · exact ⟨single, trivial⟩
      · exact absurd unread read

theorem Waiting.resting {a : AppAt} (waiting : Waiting a) (empty : s.list.Empty) : s.Resting a := by
  cases a with
  | idle | bindRead | bindWrite => exact waiting.elim
  | check => exact .inl empty
  | setReading => exact .inl empty
  | pop at_ => exact .inr ⟨empty, waiting⟩
  | addTimeEvent | done => exact empty

/-- An append only touches the list, and moves the event from the hand to the list. -/
theorem Inv.append (inv : s.Inv) {event : Nat} {at_ : AppendAt} (here : s.stack = .append event at_)
    {l : EventList} {at' : AppendAt} (stepped : s.list.append event at_ = some (l, at'))
    (appending : l.Appending event at') :
    { s with list := l, stack := .append event at' }.Inv := by
  have stack := inv.stack
  rw [here] at stack
  obtain ⟨writing, quiet, before⟩ := stack
  refine ⟨inv.bound, ⟨writing, quiet, appending⟩, fun e => ?_, inv.runs⟩
  have conserved := inv.conserved e
  unfold copies at conserved ⊢
  rw [here] at conserved
  cases at_ with
  | tail =>
      have empty : s.list.tail = none := before.2
      simp only [EventList.append, empty, if_true, Option.some.injEq, Prod.mk.injEq] at stepped
      obtain ⟨rfl, rfl⟩ := stepped
      exact conserved
  | first =>
      obtain ⟨rfl, rfl⟩ := Prod.mk.inj (Option.some.inj stepped)
      have empty : s.list.head = none := before.1
      simp only [empty, stackHand, Option.toList, List.count_nil] at conserved ⊢
      omega
  | firstTail | firstNext | done =>
      obtain ⟨rfl, rfl⟩ := Prod.mk.inj (Option.some.inj stepped)
      exact conserved
  | again | link | clear | last => exact before.elim

theorem Inv.stackStep (inv : s.Inv)
    (calm : s.stack.isStarting = true → s.list.head = none ∧ s.app.isReading = false) :
    s.stackStep.Inv := by
  have stack := inv.stack
  unfold Pending.stackStep
  cases at_ : s.stack with
  | idle => exact inv
  | checkQe event =>
      rw [at_] at stack
      dsimp only
      split_ifs
      · exact inv.goto (by rw [at_]; rfl) stack
      · exact inv.goto (by rw [at_]; rfl) stack
  | setWriting event =>
      rw [at_] at stack
      obtain ⟨head, quiet⟩ := calm (by rw [at_]; rfl)
      have empty : s.list.Empty := Resting.empty stack head quiet
      refine ⟨inv.bound, ⟨rfl, quiet, empty⟩, fun e => ?_, inv.runs⟩
      rw [← inv.conserved e]
      simp only [copies, at_, stackHand]
  | append event at' =>
      rw [at_] at stack
      obtain ⟨writing, quiet, appending⟩ := stack
      cases at' with
      | done =>
          refine ⟨inv.bound, ?_, fun e => ?_, inv.runs⟩
          · have single : s.list.Single event := appending
            revert quiet
            change s.app.isReading = false → Offered _ event s.app
            cases s.app <;> intro quiet
            case setReading | pop => exact nomatch quiet
            case addTimeEvent | done => exact .inl ⟨rfl, single⟩
            all_goals exact ⟨rfl, single⟩
          · rw [← inv.conserved e]
            simp only [copies, at_, stackHand]
      | tail | first | firstTail | firstNext | again | link | clear | last =>
          obtain ⟨l, at₂, stepped, appending'⟩ := appending.step
          dsimp only
          rw [stepped]
          exact inv.append at_ stepped appending'
  | recheckQe event =>
      rw [at_] at stack
      dsimp only
      split_ifs with bound
      · exact inv.goto (by rw [at_]; rfl) ⟨bound, stack⟩
      · have unbound := inv.bound.mp (by simpa using bound)
        exact inv.goto (by rw [at_]; rfl) (Offered.unbound stack unbound)
  | check1 event =>
      rw [at_] at stack
      dsimp only
      split_ifs with unread
      · exact inv.goto (by rw [at_]; rfl) stack
      · exact inv.goto (by rw [at_]; rfl) (Offered.unread stack.2 unread)
  | check2 event =>
      rw [at_] at stack
      dsimp only
      split_ifs with unread
      · have bound : ¬ (s.app = .idle ∨ s.app = .bindRead ∨ s.app = .bindWrite) := by
          rw [← inv.bound, stack.1]
          exact nofun
        exact inv.goto (by rw [at_]; rfl) (Offered.missed stack.2 unread bound)
      · exact inv.goto (by rw [at_]; rfl) (Offered.unread stack.2 unread)
  | pop event at' =>
      rw [at_] at stack
      obtain ⟨popping, waiting⟩ := stack
      cases at' with
      | done ret =>
          refine ⟨inv.bound, Waiting.resting waiting popping.2, fun e => ?_, inv.runs⟩
          rw [← inv.conserved e]
          simp only [copies, at_, stackHand, List.count_append, Option.toList, List.count_nil]
          omega
      | head | next | store | clear | recheck | tail =>
          refine ⟨inv.bound, ⟨popping.step, waiting⟩, fun e => ?_, inv.runs⟩
          have moved := popping.count e
          have conserved := inv.conserved e
          unfold copies at conserved ⊢
          dsimp only
          rw [at_, stackHand_pop] at conserved
          rw [stackHand_pop]
          omega
  | addTimeEvent event =>
      rw [at_] at stack
      refine ⟨inv.bound, stack, fun e => ?_, inv.runs⟩
      rw [← inv.conserved e]
      simp only [copies, at_, stackHand, List.count_append, Option.toList, List.count_nil]
      omega

end Stack

/-! ## Steps of the application -/

section App

variable {s : Pending}

/-- Nothing but the program point of the application, `pdev_st` and `socket->qe` change. -/
theorem Inv.appGoto (inv : s.Inv) {a : AppAt} {pdevSt : PdevSt} {qe : Bool}
    (bound : qe = false ↔ a = .idle ∨ a = .bindRead ∨ a = .bindWrite)
    (hand : appHand a = appHand s.app)
    (stack : { s with pdevSt := pdevSt, qe := qe }.StackInv a s.stack) :
    { s with app := a, pdevSt := pdevSt, qe := qe }.Inv where
  bound := bound
  stack := by
    revert stack
    cases s.stack <;> exact id
  conserved := by
    intro event
    rw [← inv.conserved event]
    simp only [copies, hand]
  runs := inv.runs

/-- The binding changes nothing for the stack. -/
theorem StackInv.bind {a : AppAt} (before : a = .idle ∨ a = .bindRead) (st : StackAt)
    (stack : s.StackInv a st) : s.StackInv .bindWrite st := by
  rcases before with rfl | rfl <;> cases st <;> exact stack

theorem StackInv.bound (st : StackAt) (stack : s.StackInv .bindWrite st) :
    { s with qe := true }.StackInv .check st := by
  cases st with
  | check1 | check2 => exact ⟨rfl, stack.2⟩
  | pop => exact stack.2.elim
  | _ => exact stack

theorem StackInv.found (st : StackAt) (stack : s.StackInv .check st) (writen : s.pdevSt = .writen) :
    s.StackInv .setReading st := by
  cases st with
  | idle | checkQe | setWriting | addTimeEvent => exact stack.imp_right And.right
  | append => exact nomatch stack.1.symm.trans writen
  | recheckQe | check1 | check2 | pop => exact stack

theorem StackInv.missed (st : StackAt) (stack : s.StackInv .check st) (other : s.pdevSt ≠ .writen) :
    s.StackInv .done st := by
  cases st with
  | idle | checkQe | setWriting | addTimeEvent =>
      exact stack.resolve_right fun single => other single.1
  | append => exact stack
  | recheckQe => exact absurd stack.1 other
  | check1 | check2 => exact absurd stack.2.1 other
  | pop => exact stack

theorem StackInv.reading (st : StackAt) (stack : s.StackInv .setReading st) :
    { s with pdevSt := .reading }.StackInv (.pop .head) st := by
  cases st with
  | idle | checkQe | setWriting | addTimeEvent =>
      rcases stack with empty | single
      · exact .inr ⟨empty, .inl rfl⟩
      · exact .inl single
  | append => exact nomatch stack.2.1
  | recheckQe => exact ⟨rfl, stack.2⟩
  | check1 | check2 => exact ⟨stack.1, rfl, stack.2.2⟩
  | pop => exact ⟨stack.1, .inl rfl⟩

theorem StackInv.read {ret : Option Nat} (st : StackAt) (stack : s.StackInv (.pop (.done ret)) st) :
    { s with pdevSt := .read }.StackInv (.addTimeEvent ret) st := by
  cases st with
  | idle | checkQe | setWriting | addTimeEvent =>
      rcases stack with ⟨event, -, empty⟩ | ⟨empty, -⟩
      · exact empty
      · exact empty
  | append => exact nomatch stack.2.1
  | recheckQe => exact .inr ⟨nofun, stack.2.2⟩
  | check1 | check2 => exact ⟨stack.1, .inr ⟨nofun, stack.2.2.2⟩⟩
  | pop => exact ⟨stack.1, trivial⟩

theorem StackInv.delivered {event : Option Nat} (st : StackAt)
    (stack : s.StackInv (.addTimeEvent event) st) : s.StackInv .done st := by
  cases st <;> exact stack

/-- One step of a pop that takes an event. -/
theorem Inv.appTake (inv : s.Inv) {at_ : PopAt} (here : s.app = .pop at_) {event : Nat}
    (popping : s.list.Popping event at_)
    (stack : { s with list := (s.list.pop at_).1 }.StackInv (.pop (s.list.pop at_).2) s.stack) :
    { s with list := (s.list.pop at_).1, app := .pop (s.list.pop at_).2 }.Inv := by
  have bound := inv.bound
  rw [here] at bound
  refine ⟨by simpa using bound, ?_, fun e => ?_, inv.runs⟩
  · revert stack
    cases s.stack <;> exact id
  · have moved := popping.count e
    have conserved := inv.conserved e
    unfold copies at conserved ⊢
    dsimp only
    rw [here, appHand_pop popping] at conserved
    rw [appHand_pop popping.step]
    omega

/-- A pop that finds nothing. -/
theorem Inv.appNothing (inv : s.Inv) (here : s.app = .pop .head) (head : s.list.head = none)
    (stack : s.StackInv (.pop (.done none)) s.stack) :
    { s with list := (s.list.pop .head).1, app := .pop (s.list.pop .head).2 }.Inv := by
  have bound := inv.bound
  have nothing : s.list.pop .head = (s.list, .done none) := by
    simp only [EventList.pop, head]
  rw [here] at bound
  rw [nothing]
  exact inv.appGoto (by simpa using bound) (by rw [here]; rfl) stack

/-- The application takes the event, or there is none to take. -/
theorem StackInv.pop {at_ : PopAt} (st : StackAt) (stack : s.StackInv (.pop at_) st)
    (calm : at_ = .head → st.isTaking = true → s.list.head = none)
    (more : ∀ ret, at_ ≠ .done ret) :
    (∃ event, s.list.Popping event at_ ∧
      { s with list := (s.list.pop at_).1 }.StackInv (.pop (s.list.pop at_).2) st) ∨
    at_ = .head ∧ s.list.head = none ∧ s.StackInv (.pop (.done none)) st := by
  cases st with
  | idle | checkQe | setWriting | addTimeEvent =>
      rcases stack with ⟨event, popping⟩ | ⟨empty, rfl | rfl⟩
      · exact .inl ⟨event, popping, .inl ⟨event, popping.step⟩⟩
      · exact .inr ⟨rfl, empty.1, .inr ⟨empty, .inr rfl⟩⟩
      · exact absurd rfl (more none)
  | append => exact nomatch stack.2.1
  | recheckQe event => exact .inl ⟨event, stack.2, stack.1, stack.2.step⟩
  | check1 event | check2 event =>
      exact .inl ⟨event, stack.2.2, stack.1, stack.2.1, stack.2.2.step⟩
  | pop event at' =>
      rcases stack.2 with rfl | rfl
      · exact .inr ⟨rfl, calm rfl rfl, stack.1, .inr rfl⟩
      · exact absurd rfl (more none)

theorem Inv.appPop (inv : s.Inv) {at_ : PopAt} (here : s.app = .pop at_)
    (calm : at_ = .head → s.stack.isTaking = true → s.list.head = none)
    (more : ∀ ret, at_ ≠ .done ret) :
    { s with list := (s.list.pop at_).1, app := .pop (s.list.pop at_).2 }.Inv := by
  have stack := inv.stack
  rw [here] at stack
  rcases StackInv.pop _ stack calm more with ⟨event, popping, next⟩ | ⟨rfl, head, next⟩
  · exact inv.appTake here popping next
  · exact inv.appNothing here head next

theorem Inv.appStep (inv : s.Inv)
    (calm : s.app = .pop .head → s.stack.isTaking = true → s.list.head = none) :
    s.appStep.Inv := by
  have stack := inv.stack
  have bound := inv.bound
  unfold Pending.appStep
  cases at_ : s.app with
  | idle => exact inv
  | done => exact inv
  | bindRead =>
      rw [at_] at bound stack
      have unbound : s.qe = false := bound.mpr (.inr (.inl rfl))
      dsimp only
      rw [if_neg (by simp [unbound])]
      exact inv.appGoto (by simp [unbound]) (by rw [at_]; rfl) (StackInv.bind (.inr rfl) _ stack)
  | bindWrite =>
      rw [at_] at stack
      exact inv.appGoto (by simp) (by rw [at_]; rfl) (StackInv.bound _ stack)
  | check =>
      rw [at_] at bound stack
      dsimp only
      split_ifs with writen
      · exact inv.appGoto (by simpa using bound) (by rw [at_]; rfl) (StackInv.found _ stack writen)
      · exact inv.appGoto (by simpa using bound) (by rw [at_]; rfl) (StackInv.missed _ stack writen)
  | setReading =>
      rw [at_] at bound stack
      exact inv.appGoto (by simpa using bound) (by rw [at_]; rfl) (StackInv.reading _ stack)
  | pop at' =>
      rw [at_] at bound stack
      cases at' with
      | done ret =>
          exact inv.appGoto (by simpa using bound) (by rw [at_]; rfl) (StackInv.read _ stack)
      | head => exact inv.appPop at_ (fun _ => calm at_) nofun
      | next | store | clear | recheck | tail => exact inv.appPop at_ nofun nofun
  | addTimeEvent event =>
      rw [at_] at bound stack
      refine ⟨by simpa using bound, ?_, fun e => ?_, inv.runs⟩
      · have rest := StackInv.delivered _ stack
        revert rest
        cases s.stack <;> exact id
      · rw [← inv.conserved e]
        simp only [copies, at_, appHand, List.count_append, Option.toList, List.count_nil]
        omega

end App

/-! ## Runs -/

theorem Inv.step {s : Pending} (inv : s.Inv) (e : PendingEvent) (calm : s.Calm e) :
    (s.step e).Inv := by
  unfold Pending.step
  rw [if_neg (by simp [inv.runs])]
  cases e with
  | raise =>
      dsimp only
      split_ifs with idle
      · have stack := inv.stack
        rw [idle] at stack
        refine ⟨inv.bound, stack, fun event => ?_, inv.runs⟩
        have conserved := inv.conserved event
        unfold copies at conserved ⊢
        rw [idle] at conserved
        simp only [stackHand, Option.toList, List.count_nil, List.count_singleton] at conserved ⊢
        by_cases here : s.raised = event
        · subst here
          rw [if_neg (Nat.lt_irrefl _)] at conserved
          rw [beq_self_eq_true, if_pos rfl, if_pos (Nat.lt_succ_self _)]
          omega
        · rw [if_neg (by simpa using here)]
          split_ifs at conserved ⊢ <;> omega
      · exact inv
  | stack => exact inv.stackStep (calm.1 rfl)
  | register =>
      dsimp only
      split_ifs with idle
      · have stack := inv.stack
        have bound := inv.bound
        rw [idle] at stack bound
        refine inv.appGoto (by simpa using bound) (by rw [idle]; rfl) ?_
        revert stack
        cases s.stack <;> exact id
      · exact inv
  | app => exact inv.appStep (calm.2 rfl)

/-- **Every event is delivered exactly once** in every calm interleaving of the two threads. -/
theorem pending_once (es : List PendingEvent) (calm : Lib.Run.Allowed step Calm {} es) :
    Lib.Run.Along step ExactlyOnce {} es := by
  have along : Lib.Run.Along step Inv {} es :=
    Lib.Run.along_of_step (fun _ e inv calm => inv.step e calm) es _ init_inv calm
  exact Lib.Run.Along.mono (fun _ inv => inv.exactlyOnce) es _ along

/-- The event comes before the registration, which takes it from the list; the next one goes to
`AddTimeEvent` at once. -/
def calmRun : List PendingEvent :=
  [.raise] ++ List.replicate 8 .stack ++ [.register] ++ List.replicate 12 .app ++
    [.raise, .stack, .stack]

theorem pending_once_calmRun :
    (Lib.Run.run step {} calmRun).delivered = [0, 1] ∧ Lib.Run.Along step ExactlyOnce {} calmRun :=
  ⟨by decide, pending_once calmRun (by decide)⟩

/-- Two events come before the registration. -/
def stuckRun : List PendingEvent :=
  [.raise] ++ List.replicate 8 .stack ++ [.raise] ++ List.replicate 9 .stack ++ [.register] ++
    List.replicate 11 .app

/-- The application finds `pdev_st_WRITEN`, then the stack finds it too, before the application
has stored `pdev_st_READING`. -/
def raceRun : List PendingEvent :=
  [.raise] ++ List.replicate 7 .stack ++ [.register, .app, .app, .stack, .app, .stack, .stack] ++
    List.replicate 9 .app ++ [.stack, .stack]

/-- The second event stays on the list for ever, and the event of the race is delivered twice. -/
theorem pending_stuck_and_doubled :
    ¬ Lib.Run.Along step ExactlyOnce {} stuckRun ∧ ¬ Lib.Run.Along step ExactlyOnce {} raceRun := by
  constructor
  · intro along
    have last := Lib.Run.Along.last stuckRun _ along
    have delivered := last.all (by decide) (by decide) 1 (by decide)
    revert delivered
    decide
  · intro along
    have last := Lib.Run.Along.last raceRun _ along
    have once := last.once
    revert once
    decide

end Pending

end QStack
