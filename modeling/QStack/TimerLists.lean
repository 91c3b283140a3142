/-
# QStack.TimerLists -- rto_list, timewait_list and timeout_list of a stack

The three lists of `timer.h` with their pointers, over the streams of one stack.  rto_list
and timewait_list share the link field `timer_link`; timeout_list has its own.  The functions
are those of `QStack.Stream` and `QStack.TcpOut`, run on the stream they are called with; what
they do to the lists is replayed on the pointers (`serve`).  The check loops walk the pointers
as the source does: the successor is read before the stream is unlinked and handled, and the
handling may destroy the stream.

`Threaded` is the invariant: the lists are well formed and a flag of a stream is set exactly
if the stream is linked.  `timer_membership` says that it survives every sequence of calls.
-/
import QStack.Lib.Tailq
import QStack.Lib.Run
import QStack.StreamView
import QStack.TcpOut

namespace QStack

set_option autoImplicit false

/-- The heads that share `timer_link`. -/
inductive TimerHead where
  | rto | timewait
deriving DecidableEq, Repr

/-- The timer lists of a stack with `n` streams. -/
structure TimerLists (n : Nat) where
  /-- `timer_link`, with the heads of rto_list and timewait_list -/
  timer : Lib.Tailq.Mem TimerHead (Fin n)
  /-- `timeout_link`, with the head of timeout_list -/
  timeout : Lib.Tailq.Mem Unit (Fin n)

structure Timers (n : Nat) where
  streams : Fin n → TcpStream
  lists : TimerLists n
  /-- how the process has ended -/
  halt : Option Halt := none
  /-- history: the streams `tcp_stream_destroy` was called for, the last one first -/
  destroyed : List (Fin n) := []

/-- A list macro that a function ran on stream `id`. -/
def TimerLists.perform {n : Nat} (id : Fin n) (e : Effect) (l : TimerLists n) : TimerLists n :=
  match e with
  | .rtoInsert => { l with timer := l.timer.insertTail .rto id }
  | .rtoRemove => { l with timer := l.timer.remove .rto id }
  | .timewaitInsert => { l with timer := l.timer.insertTail .timewait id }
  | .timewaitRemove => { l with timer := l.timer.remove .timewait id }
  | .timeoutInsert => { l with timeout := l.timeout.insertTail () id }
  | .timeoutRemove => { l with timeout := l.timeout.remove () id }
  | _ => l

/-- The part of `tcp_stream_destroy` that unlinks the stream. -/
def Cx.unlinkTimers (c : Cx) : Cx := c.timeoutListRemove.timewaitListRemove.rtoListRemove

namespace Timers

variable {n : Nat}

def init (n : Nat) : Timers n :=
  { streams := fun _ => {}, lists := { timer := .empty, timeout := .empty } }

def haltOf (out : List Effect) : Option Halt :=
  out.findSome? fun e => match e with
    | .halt why => some why
    | _ => none

/-- A function of one stream: the stream, the lists in the order of its effects. -/
def on (s : Timers n) (id : Fin n) (f : Cx → Cx) : Timers n :=
  let c := f { st := s.streams id }
  { s with
    streams := Function.update s.streams id c.st
    lists := c.out.foldr (TimerLists.perform id) s.lists
    halt := s.halt.or (haltOf c.out) }

theorem on_self (s : Timers n) (id : Fin n) (f : Cx → Cx) :
    (s.on id f).streams id = (f { st := s.streams id }).st := Function.update_self _ _ _

theorem on_other (s : Timers n) {id j : Fin n} (f : Cx → Cx) (other : j ≠ id) :
    (s.on id f).streams j = s.streams j := Function.update_of_ne other _ _

def tcpStreamDestroy (s : Timers n) (id : Fin n) : Timers n :=
  { s.on id Cx.unlinkTimers with destroyed := id :: s.destroyed }

/-- A function of one stream that may end in `tcp_stream_destroy`. -/
def serve (s : Timers n) (id : Fin n) (f : Cx → Cx) : Timers n :=
  if (f { st := s.streams id }).out.any Effect.isDestroy then (s.on id f).tcpStreamDestroy id
  else s.on id f

/-! ## The check loops -/

def maxRtoBatch : Nat := 5

def tcpTimeout : U32 := 300000

/-- `room` answers for the queues `handle_rto` adds the stream to. -/
def rtoLoop (curTs : U32) (room : Fin n → Env) : Nat → Option (Fin n) → Timers n → Timers n
  | 0, _, s => s
  | _ + 1, none, s => s
  | cnt + 1, some walk, s =>
      if s.halt.isSome then s
      else if (curTs - (s.streams walk).tsRto).slt 0 then s
      else
        let next := s.lists.timer.next walk
        rtoLoop curTs room cnt next
          (s.serve walk (Cx.rtoListCheck { room walk with curTs := curTs }))

def rtoListCheck (s : Timers n) (curTs : U32) (room : Fin n → Env) : Timers n :=
  rtoLoop curTs room maxRtoBatch (s.lists.timer.first .rto) s

/-- A walk that is not over after `fuel` streams never ends. -/
def timewaitLoop (curTs : U32) : Nat → Option (Fin n) → Timers n → Timers n
  | _, none, s => s
  | 0, some _, s => { s with halt := some .hang }
  | fuel + 1, some walk, s =>
      let next := s.lists.timer.next walk
      if (s.streams walk).onTimewaitList then
        if (curTs - (s.streams walk).tsTwExpire).slt 0 then s
        else timewaitLoop curTs fuel next (s.serve walk Cx.timewaitListCheck)
      else
        timewaitLoop curTs fuel next
          { s with lists := s.lists.perform walk .timewaitRemove }

def timewaitListCheck (s : Timers n) (curTs : U32) : Timers n :=
  timewaitLoop curTs n (s.lists.timer.first .timewait) s

def timeoutLoop (curTs : U32) : Nat → Option (Fin n) → Timers n → Timers n
  | _, none, s => s
  | 0, some _, s => { s with halt := some .hang }
  | fuel + 1, some walk, s =>
      if (curTs - (s.streams walk).lastActiveTs).slt tcpTimeout then s
      else
        let next := s.lists.timeout.next walk
        timeoutLoop curTs fuel next (s.serve walk Cx.timeoutListCheck)

def timeoutListCheck (s : Timers n) (curTs : U32) : Timers n :=
  timeoutLoop curTs n (s.lists.timeout.first ()) s

/-! ## Calls -/

inductive Call (n : Nat) where
  | rtoListAdd (id : Fin n) (curTs : U32)
  | rtoListRemove (id : Fin n)
  | rtoListUpdate (id : Fin n) (curTs : U32)
  | rtoListCheck (curTs : U32) (room : Fin n → Env)
  | timewaitListAdd (id : Fin n) (curTs : U32)
  | timewaitListRemove (id : Fin n)
  | timewaitListCheck (curTs : U32)
  | timeoutListAdd (id : Fin n) (curTs : U32)
  | timeoutListRemove (id : Fin n)
  | timeoutListUpdate (id : Fin n) (curTs : U32)
  | timeoutListCheck (curTs : U32)
  | tcpStreamDestroy (id : Fin n)
  /-- the rest of the stack works on the stream, and leaves the three flags alone -/
  | other (id : Fin n) (st : TcpStream)

/-- What the rest of the stack makes of a stream. -/
def rest (st st' : TcpStream) : TcpStream :=
  { st' with
    onRto := st.onRto, onTimewaitList := st.onTimewaitList, onTimeoutList := st.onTimeoutList }

def call (s : Timers n) : Call n → Timers n
  | .rtoListAdd id curTs => s.on id (Cx.rtoListAdd { curTs := curTs })
  | .rtoListRemove id => s.on id Cx.rtoListRemove
  | .rtoListUpdate id curTs => s.on id (Cx.rtoListUpdate { curTs := curTs })
  | .rtoListCheck curTs room => s.rtoListCheck curTs room
  | .timewaitListAdd id curTs => s.on id (Cx.timewaitListAdd { curTs := curTs })
  | .timewaitListRemove id => s.on id Cx.timewaitListRemove
  | .timewaitListCheck curTs => s.timewaitListCheck curTs
  | .timeoutListAdd id curTs => s.on id (Cx.timeoutListAdd { curTs := curTs })
  | .timeoutListRemove id => s.on id Cx.timeoutListRemove
  | .timeoutListUpdate id curTs => s.on id (Cx.timeoutListUpdate { curTs := curTs })
  | .timeoutListCheck curTs => s.timeoutListCheck curTs
  | .tcpStreamDestroy id => s.tcpStreamDestroy id
  | .other id st => { s with streams := Function.update s.streams id (rest (s.streams id) st) }

def step (s : Timers n) (c : Call n) : Timers n := if s.halt.isSome then s else s.call c

end Timers

/-! ## The lists as lists -/

/-- What the three heads lead to. -/
structure Linked (n : Nat) where
  rto : List (Fin n) := []
  timewait : List (Fin n) := []
  timeout : List (Fin n) := []

namespace Linked

variable {n : Nat}

def heads (l : Linked n) : TimerHead → List (Fin n)
  | .rto => l.rto
  | .timewait => l.timewait

def perform (id : Fin n) (e : Effect) (l : Linked n) : Linked n :=
  match e with
  | .rtoInsert => { l with rto := l.rto ++ [id] }
  | .rtoRemove => { l with rto := l.rto.erase id }
  | .timewaitInsert => { l with timewait := l.timewait ++ [id] }
  | .timewaitRemove => { l with timewait := l.timewait.erase id }
  | .timeoutInsert => { l with timeout := l.timeout ++ [id] }
  | .timeoutRemove => { l with timeout := l.timeout.erase id }
  | _ => l

theorem heads_rto (l : Linked n) (xs : List (Fin n)) :
    Function.update l.heads .rto xs = { l with rto := xs }.heads := by
  funext h
  cases h <;> rfl

theorem heads_timewait (l : Linked n) (xs : List (Fin n)) :
    Function.update l.heads .timewait xs = { l with timewait := xs }.heads := by
  funext h
  cases h <;> rfl

theorem heads_timeout (xs ys : List (Fin n)) :
    Function.update (fun _ : Unit => xs) () ys = fun _ => ys := by
  funext h
  cases h
  rfl

end Linked

/-- The three flags of a stream. -/
structure TimerFlags where
  rto : Bool
  timewait : Bool
  timeout : Bool
deriving DecidableEq

def TcpStream.timerFlags (s : TcpStream) : TimerFlags :=
  ⟨s.onRto, s.onTimewaitList, s.onTimeoutList⟩

namespace TimerFlags

/-- The flags a macro call leaves, if it may be made: nothing is inserted that is linked through
the same field, nothing is removed that is not linked. -/
def after (e : Effect) (f : TimerFlags) : Option TimerFlags :=
  match e with
  | .rtoInsert => if f.rto || f.timewait then none else some { f with rto := true }
  | .rtoRemove => if f.rto then some { f with rto := false } else none
  | .timewaitInsert => if f.rto || f.timewait then none else some { f with timewait := true }
  | .timewaitRemove => if f.timewait then some { f with timewait := false } else none
  | .timeoutInsert => if f.timeout then none else some { f with timeout := true }
  | .timeoutRemove => if f.timeout then some { f with timeout := false } else none
  | _ => some f

def replay : List Effect → TimerFlags → Option TimerFlags
  | [], f => some f
  | e :: es, f => (replay es f).bind (after e)

theorem replay_append (es es' : List Effect) (f : TimerFlags) :
    replay (es ++ es') f = (replay es' f).bind (replay es) := by
  induction es with
  | nil => cases h : replay es' f <;> simp [replay, h]
  | cons e es ih =>
      rw [List.cons_append, replay, ih]
      cases replay es' f <;> rfl

/-- A stream is not on both lists that share `timer_link`. -/
def Apart (f : TimerFlags) : Prop := (f.rto && f.timewait) = false

theorem Apart.after {e : Effect} {f f' : TimerFlags} (apart : f.Apart)
    (allowed : f.after e = some f') : f'.Apart := by
  unfold Apart at *
  cases e <;> grind [TimerFlags.after]

theorem Apart.replay {es : List Effect} : ∀ {f f' : TimerFlags}, f.Apart →
    f.replay es = some f' → f'.Apart := by
  induction es with
  | nil =>
      intro f f' apart allowed
      obtain rfl := Option.some.inj allowed
      exact apart
  | cons e es ih =>
      intro f f' apart allowed
      rw [TimerFlags.replay] at allowed
      obtain ⟨f₁, earlier, last⟩ := Option.bind_eq_some_iff.mp allowed
      exact (ih apart earlier).after last

end TimerFlags

/-! ## One macro call -/

/-- The pointers lead to the lists. -/
structure TimerLists.Chained {n : Nat} (p : TimerLists n) (l : Linked n) : Prop where
  timer : p.timer.Chains l.heads
  timeout : p.timeout.Chains fun _ => l.timeout

/-- The flags of a stream say which lists it is on. -/
structure Linked.Member {n : Nat} (l : Linked n) (id : Fin n) (f : TimerFlags) : Prop where
  rto : f.rto = true ↔ id ∈ l.rto
  timewait : f.timewait = true ↔ id ∈ l.timewait
  timeout : f.timeout = true ↔ id ∈ l.timeout

namespace TimerLists.Chained

variable {n : Nat} {p : TimerLists n} {l : Linked n} {id : Fin n}

theorem rto_nodup (chained : p.Chained l) : l.rto.Nodup := (chained.timer.chain .rto).nodup

theorem timewait_nodup (chained : p.Chained l) : l.timewait.Nodup :=
  (chained.timer.chain .timewait).nodup

theorem timeout_nodup (chained : p.Chained l) : l.timeout.Nodup := (chained.timeout.chain ()).nodup

theorem perform (chained : p.Chained l) {e : Effect} {f f' : TimerFlags} (member : l.Member id f)
    (allowed : f.after e = some f') :
    (p.perform id e).Chained (l.perform id e) ∧ (l.perform id e).Member id f' := by
  have fresh : (f.rto || f.timewait) = false → ∀ h, id ∉ l.heads h := by
    intro neither h
    rw [Bool.or_eq_false_iff] at neither
    cases h with
    | rto => exact fun on => by simp [member.rto.mpr on] at neither
    | timewait => exact fun on => by simp [member.timewait.mpr on] at neither
  cases e with
  | rtoInsert =>
      obtain ⟨neither, rfl⟩ : (f.rto || f.timewait) = false ∧ { f with rto := true } = f' := by
        simpa [TimerFlags.after] using allowed
      refine ⟨⟨?_, chained.timeout⟩, ⟨by simp [Linked.perform], member.timewait, member.timeout⟩⟩
      rw [TimerLists.perform, Linked.perform, ← Linked.heads_rto]
      exact chained.timer.insertTail (fresh neither) .rto
  | timewaitInsert =>
      obtain ⟨neither, rfl⟩ : (f.rto || f.timewait) = false ∧ { f with timewait := true } = f' := by
        simpa [TimerFlags.after] using allowed
      refine ⟨⟨?_, chained.timeout⟩, ⟨member.rto, by simp [Linked.perform], member.timeout⟩⟩
      rw [TimerLists.perform, Linked.perform, ← Linked.heads_timewait]
      exact chained.timer.insertTail (fresh neither) .timewait
  | timeoutInsert =>
      obtain ⟨off, rfl⟩ : f.timeout = false ∧ { f with timeout := true } = f' := by
        simpa [TimerFlags.after] using allowed
      refine ⟨⟨chained.timer, ?_⟩, ⟨member.rto, member.timewait, by simp [Linked.perform]⟩⟩
      have away : id ∉ l.timeout := fun on => by simp [member.timeout.mpr on] at off
      rw [TimerLists.perform, Linked.perform, ← Linked.heads_timeout]
      exact chained.timeout.insertTail (fun _ => away) ()
  | rtoRemove =>
      obtain ⟨on, rfl⟩ : f.rto = true ∧ { f with rto := false } = f' := by
        simpa [TimerFlags.after] using allowed
      refine ⟨⟨?_, chained.timeout⟩, ⟨?_, member.timewait, member.timeout⟩⟩
      · rw [TimerLists.perform, Linked.perform, ← Linked.heads_rto]
        exact chained.timer.remove (h := .rto) (member.rto.mp on)
      · simp [Linked.perform, chained.rto_nodup.not_mem_erase]
  | timewaitRemove =>
      obtain ⟨on, rfl⟩ : f.timewait = true ∧ { f with timewait := false } = f' := by
        simpa [TimerFlags.after] using allowed
      refine ⟨⟨?_, chained.timeout⟩, ⟨member.rto, ?_, member.timeout⟩⟩
      · rw [TimerLists.perform, Linked.perform, ← Linked.heads_timewait]
        exact chained.timer.remove (h := .timewait) (member.timewait.mp on)
      · simp [Linked.perform, chained.timewait_nodup.not_mem_erase]
  | timeoutRemove =>
      obtain ⟨on, rfl⟩ : f.timeout = true ∧ { f with timeout := false } = f' := by
        simpa [TimerFlags.after] using allowed
      refine ⟨⟨chained.timer, ?_⟩, ⟨member.rto, member.timewait, ?_⟩⟩
      · rw [TimerLists.perform, Linked.perform, ← Linked.heads_timeout]
        exact chained.timeout.remove (h := ()) (member.timeout.mp on)
      · simp [Linked.perform, chained.timeout_nodup.not_mem_erase]
  | transmit | controlEnqueue | ackEnqueue | sendEvent | acceptEnqueue | raise | destroy | halt
  | established =>
      obtain rfl := Option.some.inj allowed
      exact ⟨chained, member⟩

/-- The calls of one function, in order. -/
theorem replay (chained : p.Chained l) {es : List Effect} : ∀ {f f' : TimerFlags},
    l.Member id f → f.replay es = some f' →
      (es.foldr (TimerLists.perform id) p).Chained (es.foldr (Linked.perform id) l) ∧
        (es.foldr (Linked.perform id) l).Member id f' := by
  induction es with
  | nil =>
      rintro f f' member allowed
      obtain rfl := Option.some.inj allowed
      exact ⟨chained, member⟩
  | cons e es ih =>
      intro f f' member allowed
      rw [TimerFlags.replay] at allowed
      obtain ⟨f₁, earlier, last⟩ := Option.bind_eq_some_iff.mp allowed
      obtain ⟨chained', member'⟩ := ih member earlier
      exact chained'.perform member' last

end TimerLists.Chained

/-! ## The functions of one stream -/

/-- The macro calls made between `c` and `c'` are allowed, the flags follow them, and no loop
of the code hangs. -/
def Cx.Follows (c c' : Cx) : Prop :=
  ∃ es, c'.out = es ++ c.out ∧ c.st.timerFlags.replay es = some c'.st.timerFlags ∧
    Effect.halt .hang ∉ es

def Cx.KeepsTimers (f : Cx → Cx) : Prop := ∀ c : Cx, c.st.timerFlags.Apart → c.Follows (f c)

theorem Cx.Follows.refl (c : Cx) : c.Follows c := ⟨[], rfl, rfl, List.not_mem_nil⟩

theorem Cx.Follows.trans {c c' c'' : Cx} (first : c.Follows c') (second : c'.Follows c'') :
    c.Follows c'' := by
  obtain ⟨es, out, flags, ends⟩ := first
  obtain ⟨es', out', flags', ends'⟩ := second
  refine ⟨es' ++ es, by rw [out', out, List.append_assoc], ?_, ?_⟩
  · rw [TimerFlags.replay_append, flags]
    exact flags'
  · rw [List.mem_append, not_or]
    exact ⟨ends', ends⟩

namespace Cx.KeepsTimers

variable {f g : Cx → Cx} {env : Env}

theorem comp (first : KeepsTimers f) (second : KeepsTimers g) : KeepsTimers fun c => g (f c) := by
  intro c apart
  have here := first c apart
  obtain ⟨es, -, flags, -⟩ := id here
  exact here.trans (second (f c) (apart.replay flags))

theorem rtoListAdd : KeepsTimers (Cx.rtoListAdd env) := by
  intro c _
  unfold Cx.rtoListAdd
  dsimp only
  split_ifs with on waiting
  · exact Follows.refl c
  · exact Follows.refl c
  · refine ⟨[.rtoInsert], rfl, ?_, by simp⟩
    have off : c.st.onTimewaitList = false := by simpa using waiting
    simp [TimerFlags.replay, TimerFlags.after, TcpStream.timerFlags, on, off]

theorem rtoListRemove : KeepsTimers Cx.rtoListRemove := by
  intro c _
  unfold Cx.rtoListRemove
  split_ifs with on
  · refine ⟨[.rtoRemove], rfl, ?_, by simp⟩
    simp [TimerFlags.replay, TimerFlags.after, TcpStream.timerFlags, on]
  · exact Follows.refl c

theorem rtoListUpdate : KeepsTimers (Cx.rtoListUpdate env) := rtoListRemove.comp rtoListAdd

theorem timewaitListAdd : KeepsTimers (Cx.timewaitListAdd env) := by
  intro c apart
  unfold Cx.timewaitListAdd
  generalize env.curTs + tcpTimewait = expire
  dsimp only
  split_ifs with on
  · have off : c.st.onRto = false := by
      have on' : c.st.onTimewaitList = true := on
      simpa [TimerFlags.Apart, TcpStream.timerFlags, on'] using apart
    refine ⟨[.timewaitInsert, .timewaitRemove], rfl, ?_, by simp⟩
    have on' : c.st.onTimewaitList = true := on
    simp [TimerFlags.replay, TimerFlags.after, TcpStream.timerFlags, on', off]
  · have off : c.st.onTimewaitList = false := by simpa using on
    unfold Cx.rtoListRemove
    split_ifs with linked
    · have linked' : c.st.onRto = true := linked
      refine ⟨[.timewaitInsert, .rtoRemove], rfl, ?_, by simp⟩
      simp [TimerFlags.replay, TimerFlags.after, TcpStream.timerFlags, off, linked']
    · have free : c.st.onRto = false := by simpa using linked
      refine ⟨[.timewaitInsert], rfl, ?_, by simp⟩
      simp [TimerFlags.replay, TimerFlags.after, TcpStream.timerFlags, off, free]

theorem timewaitListRemove : KeepsTimers Cx.timewaitListRemove := by
  intro c _
  unfold Cx.timewaitListRemove
  split_ifs with on
  · refine ⟨[.timewaitRemove], rfl, ?_, by simp⟩
    simp [TimerFlags.replay, TimerFlags.after, TcpStream.timerFlags, on]
  · exact Follows.refl c

theorem timeoutListAdd : KeepsTimers (Cx.timeoutListAdd env) := by
  intro c _
  unfold Cx.timeoutListAdd
  dsimp only
  split_ifs with on
  · exact Follows.refl c
  · have off : c.st.onTimeoutList = false := by simpa using on
    refine ⟨[.timeoutInsert], rfl, ?_, by simp⟩
    simp [TimerFlags.replay, TimerFlags.after, TcpStream.timerFlags, off]

theorem timeoutListRemove : KeepsTimers Cx.timeoutListRemove := by
  intro c _
  unfold Cx.timeoutListRemove
  split_ifs with on
  · refine ⟨[.timeoutRemove], rfl, ?_, by simp⟩
    simp [TimerFlags.replay, TimerFlags.after, TcpStream.timerFlags, on]
  · exact Follows.refl c

theorem timeoutListUpdate : KeepsTimers (Cx.timeoutListUpdate env) := by
  intro c _
  unfold Cx.timeoutListUpdate
  dsimp only
  split_ifs with on
  · have on' : c.st.onTimeoutList = true := on
    refine ⟨[.timeoutInsert, .timeoutRemove], rfl, ?_, by simp⟩
    simp [TimerFlags.replay, TimerFlags.after, TcpStream.timerFlags, on']
  · exact Follows.refl c

theorem unlinkTimers : KeepsTimers Cx.unlinkTimers :=
  (timeoutListRemove.comp timewaitListRemove).comp rtoListRemove

end Cx.KeepsTimers

/-! ## What a check does to one stream -/

/-- Effects that are not on the timer lists. -/
def Effect.isQuiet : Effect → Bool
  | .rtoInsert | .rtoRemove | .timewaitInsert | .timewaitRemove | .timeoutInsert
  | .timeoutRemove | .halt .hang => false
  | _ => true

/-- From `c` to `c'` nothing is done to the timer lists. -/
def Cx.Quiet (c c' : Cx) : Prop :=
  ∃ es, c'.out = es ++ c.out ∧ c'.st.timerFlags = c.st.timerFlags ∧
    ∀ e ∈ es, e.isQuiet = true

theorem TimerFlags.replay_quiet {es : List Effect} (quiet : ∀ e ∈ es, e.isQuiet = true)
    (f : TimerFlags) : f.replay es = some f := by
  induction es with
  | nil => rfl
  | cons e es ih =>
      rw [replay, ih fun e within => quiet e (List.mem_cons_of_mem _ within)]
      have here := quiet e List.mem_cons_self
      cases e <;> first | rfl | exact absurd here (by decide)

theorem Linked.perform_quiet {n : Nat} {es : List Effect} (quiet : ∀ e ∈ es, e.isQuiet = true)
    (id : Fin n) (l : Linked n) : es.foldr (Linked.perform id) l = l := by
  induction es with
  | nil => rfl
  | cons e es ih =>
      rw [List.foldr_cons, ih fun e within => quiet e (List.mem_cons_of_mem _ within)]
      have here := quiet e List.mem_cons_self
      cases e <;> first | rfl | exact absurd here (by decide)

namespace Cx

variable {env : Env} {c : Cx}

theorem Quiet.emit {c' : Cx} (quiet : c.Quiet c') {e : Effect} (e_quiet : e.isQuiet = true) :
    c.Quiet (c'.emit e) := by
  obtain ⟨es, out, flags, all⟩ := quiet
  refine ⟨e :: es, by rw [Cx.emit, out, List.cons_append], flags, ?_⟩
  intro e' within
  rcases List.mem_cons.mp within with rfl | later
  · exact e_quiet
  · exact all e' later

theorem Quiet.modify {c' : Cx} (quiet : c.Quiet c') {g : TcpStream → TcpStream}
    (same : (g c'.st).timerFlags = c'.st.timerFlags) : c.Quiet (c'.modify g) := by
  obtain ⟨es, out, flags, all⟩ := quiet
  exact ⟨es, out, same.trans flags, all⟩

theorem Quiet.refl (c : Cx) : c.Quiet c := ⟨[], rfl, rfl, fun _ within => absurd within List.not_mem_nil⟩

theorem Quiet.controlQueueAdd {c' : Cx} (quiet : c.Quiet c') : c.Quiet (c'.controlQueueAdd env) := by
  unfold Cx.controlQueueAdd
  split_ifs
  · exact quiet
  · exact (quiet.modify rfl).emit rfl
  · exact quiet

theorem Quiet.sendEventAdd {c' : Cx} (quiet : c.Quiet c') (pri : Bool) :
    c.Quiet (c'.sendEventAdd env pri) := by
  unfold Cx.sendEventAdd
  split_ifs
  · exact quiet.emit rfl
  · exact quiet

theorem handleRto_quiet : c.Quiet (c.handleRto env) := by
  unfold handleRto
  split_ifs
  · dsimp only
    generalize expired : (c.modify _).modify _ = c₁
    have base : c.Quiet c₁ := by
      rw [← expired]
      exact ((Quiet.refl c).modify rfl).modify rfl
    have resent : c.Quiet ((c₁.setSndbuf c₁.st.sndbuf.sbResetRetrans.2).sendEventAdd env false) :=
      (base.modify rfl).sendEventAdd false
    cases c₁.st.state with
    | established => exact resent
    | finWait1 | closing | lastAck =>
        dsimp only
        split_ifs
        · exact base.emit rfl
        · exact resent
        · exact base.controlQueueAdd
    | closed | listen | synSent | synRcvd | finWait2 | closeWait | timeWait =>
        exact base.controlQueueAdd
  · exact ((Quiet.refl c).modify rfl).emit rfl

end Cx

namespace Timers

variable {n : Nat}

/-! ## The invariant -/

/-- The pointers are the three lists, and the flags of every stream say which it is on. -/
structure Threaded (s : Timers n) (l : Linked n) : Prop where
  chained : s.lists.Chained l
  member : ∀ id, l.Member id (s.streams id).timerFlags
  runs : s.halt ≠ some .hang

section Step

variable {s : Timers n} {l : Linked n} {id : Fin n} {f : Cx → Cx}

theorem Threaded.apart (threaded : s.Threaded l) (id : Fin n) :
    (s.streams id).timerFlags.Apart := by
  have member := threaded.member id
  unfold TimerFlags.Apart
  by_contra both
  rw [Bool.not_eq_false, Bool.and_eq_true] at both
  have same := threaded.chained.timer.apart.apart .rto .timewait id (member.rto.mp both.1)
    (member.timewait.mp both.2)
  exact nomatch same

theorem perform_other {e : Effect} {j : Fin n} (other : j ≠ id) {fl : TimerFlags}
    (member : l.Member j fl) : (l.perform id e).Member j fl := by
  obtain ⟨rto, timewait, timeout⟩ := member
  cases e <;>
    refine ⟨rto.trans ?_, timewait.trans ?_, timeout.trans ?_⟩ <;>
    simp [Linked.perform, List.mem_erase_of_ne other, other]

theorem replay_other {es : List Effect} {j : Fin n} (other : j ≠ id) {fl : TimerFlags}
    (member : l.Member j fl) : (es.foldr (Linked.perform id) l).Member j fl := by
  induction es with
  | nil => exact member
  | cons e es ih => exact perform_other other ih

theorem haltOf_hang : ∀ {out : List Effect}, Effect.halt .hang ∉ out → haltOf out ≠ some .hang
  | [], _ => nofun
  | e :: es, ends => by
      have later := haltOf_hang fun within => ends (List.mem_cons_of_mem e within)
      unfold haltOf at later ⊢
      rw [List.findSome?_cons]
      cases e with
      | halt why =>
          rintro here
          obtain rfl := Option.some.inj here
          exact ends List.mem_cons_self
      | _ => exact later

theorem Threaded.on (threaded : s.Threaded l)
    (follows : Cx.Follows { st := s.streams id } (f { st := s.streams id })) :
    (s.on id f).Threaded ((f { st := s.streams id }).out.foldr (Linked.perform id) l) := by
  obtain ⟨es, out, flags, ends⟩ := follows
  rw [List.append_nil] at out
  rw [← out] at flags ends
  obtain ⟨chained, member⟩ := threaded.chained.replay (threaded.member id) flags
  refine ⟨chained, fun j => ?_, ?_⟩
  · by_cases same : j = id
    · subst same
      rw [on_self]
      exact member
    · rw [on_other _ _ same]
      exact replay_other same (threaded.member j)
  · intro hang
    change s.halt.or (haltOf _) = some .hang at hang
    rcases Option.or_eq_some_iff.mp hang with before | ⟨-, now⟩
    · exact threaded.runs before
    · exact haltOf_hang ends now

theorem Threaded.keeps (threaded : s.Threaded l) (keeps : Cx.KeepsTimers f) :
    ∃ l', (s.on id f).Threaded l' :=
  ⟨_, threaded.on (keeps _ (threaded.apart id))⟩

/-- `tcp_stream_destroy` takes the stream off every list. -/
theorem Threaded.tcpStreamDestroy (threaded : s.Threaded l) :
    (s.tcpStreamDestroy id).Threaded
      ⟨l.rto.erase id, l.timewait.erase id, l.timeout.erase id⟩ := by
  have done := threaded.on (f := Cx.unlinkTimers)
    (Cx.KeepsTimers.unlinkTimers _ (threaded.apart id))
  have member := threaded.member id
  have erased : (Cx.unlinkTimers { st := s.streams id }).out.foldr (Linked.perform id) l =
      ⟨l.rto.erase id, l.timewait.erase id, l.timeout.erase id⟩ := by
    have rto : ¬ (s.streams id).onRto = true → l.rto.erase id = l.rto := fun off =>
      List.erase_of_not_mem fun on => off (member.rto.mpr on)
    have timewait : ¬ (s.streams id).onTimewaitList = true →
        l.timewait.erase id = l.timewait := fun off =>
      List.erase_of_not_mem fun on => off (member.timewait.mpr on)
    have timeout : ¬ (s.streams id).onTimeoutList = true → l.timeout.erase id = l.timeout :=
      fun off => List.erase_of_not_mem fun on => off (member.timeout.mpr on)
    unfold Cx.unlinkTimers Cx.rtoListRemove Cx.timewaitListRemove Cx.timeoutListRemove
    by_cases first : (s.streams id).onTimeoutList = true <;>
      by_cases second : (s.streams id).onTimewaitList = true <;>
      by_cases third : (s.streams id).onRto = true <;>
      simp [first, second, third, rto, timewait, timeout, Cx.emit, Cx.modify, Linked.perform]
  rw [erased] at done
  exact ⟨done.chained, done.member, done.runs⟩

/-- A check unlinks the expired stream by `e` and then leaves the lists alone, apart from a
`tcp_stream_destroy`. -/
theorem Threaded.serve (threaded : s.Threaded l) (id : Fin n) (f : Cx → Cx) {e : Effect}
    {fl : TimerFlags} (allowed : (s.streams id).timerFlags.after e = some fl) (runs : e ≠ .halt .hang) {c : Cx}
    (unlinked : c.out = [e] ∧ c.st.timerFlags = fl) (rest : c.Quiet (f { st := s.streams id })) :
    (s.serve id f).Threaded (l.perform id e) ∨
      (s.serve id f).Threaded
        ⟨(l.perform id e).rto.erase id, (l.perform id e).timewait.erase id,
          (l.perform id e).timeout.erase id⟩ := by
  obtain ⟨es, out, flags, quiet⟩ := rest
  rw [unlinked.1] at out
  rw [unlinked.2] at flags
  have follows : Cx.Follows { st := s.streams id } (f { st := s.streams id }) := by
    refine ⟨es ++ [e], by rw [out, List.append_nil], ?_, ?_⟩
    · rw [TimerFlags.replay_append, TimerFlags.replay, TimerFlags.replay, Option.bind_some,
        allowed, Option.bind_some, flags]
      exact TimerFlags.replay_quiet quiet fl
    · rw [List.mem_append, List.mem_singleton, not_or]
      exact ⟨fun within => absurd (quiet _ within) (by decide), fun same => runs same.symm⟩
  have done := threaded.on follows
  rw [out, List.foldr_append, List.foldr_cons, List.foldr_nil, Linked.perform_quiet quiet] at done
  unfold Timers.serve
  split_ifs
  · exact .inr done.tcpStreamDestroy
  · exact .inl done

theorem Threaded.rtoExpired (threaded : s.Threaded l) {xs : List (Fin n)} (env : Env)
    (first : l.rto = id :: xs) :
    ∃ l', (s.serve id (Cx.rtoListCheck env)).Threaded l' ∧ l'.rto = xs := by
  have on : (s.streams id).onRto = true := by
    refine (threaded.member id).rto.mpr ?_
    rw [first]
    exact List.mem_cons_self
  have fresh : id ∉ xs := (List.nodup_cons.mp (first ▸ threaded.chained.rto_nodup)).1
  have served := threaded.serve id (Cx.rtoListCheck env) (e := .rtoRemove)
    (by simp [TimerFlags.after, TcpStream.timerFlags, on]) nofun ⟨rfl, rfl⟩ Cx.handleRto_quiet
  have rest : (l.perform id .rtoRemove).rto = xs := by
    simp [Linked.perform, first]
  rcases served with done | done
  · exact ⟨_, done, rest⟩
  · refine ⟨_, done, ?_⟩
    rw [rest]
    exact List.erase_of_not_mem fresh

theorem Threaded.timewaitExpired (threaded : s.Threaded l) {xs : List (Fin n)}
    (first : l.timewait = id :: xs) :
    ∃ l', (s.serve id Cx.timewaitListCheck).Threaded l' ∧ l'.timewait = xs := by
  have on : (s.streams id).onTimewaitList = true := by
    refine (threaded.member id).timewait.mpr ?_
    rw [first]
    exact List.mem_cons_self
  have fresh : id ∉ xs := (List.nodup_cons.mp (first ▸ threaded.chained.timewait_nodup)).1
  have served := threaded.serve id Cx.timewaitListCheck (e := .timewaitRemove)
    (by simp [TimerFlags.after, TcpStream.timerFlags, on]) nofun ⟨rfl, rfl⟩
    ((Cx.Quiet.refl _).emit rfl)
  have rest : (l.perform id .timewaitRemove).timewait = xs := by
    simp [Linked.perform, first]
  rcases served with done | done
  · exact ⟨_, done, rest⟩
  · refine ⟨_, done, ?_⟩
    rw [rest]
    exact List.erase_of_not_mem fresh

theorem Threaded.timeoutExpired (threaded : s.Threaded l) {xs : List (Fin n)}
    (first : l.timeout = id :: xs) :
    ∃ l', (s.serve id Cx.timeoutListCheck).Threaded l' ∧ l'.timeout = xs := by
  have on : (s.streams id).onTimeoutList = true := by
    refine (threaded.member id).timeout.mpr ?_
    rw [first]
    exact List.mem_cons_self
  have fresh : id ∉ xs := (List.nodup_cons.mp (first ▸ threaded.chained.timeout_nodup)).1
  have served := threaded.serve id Cx.timeoutListCheck (e := .timeoutRemove)
    (by simp [TimerFlags.after, TcpStream.timerFlags, on]) nofun ⟨rfl, rfl⟩
    ((Cx.Quiet.refl _).emit rfl)
  have rest : (l.perform id .timeoutRemove).timeout = xs := by
    simp [Linked.perform, first]
  rcases served with done | done
  · exact ⟨_, done, rest⟩
  · refine ⟨_, done, ?_⟩
    rw [rest]
    exact List.erase_of_not_mem fresh

end Step

/-! ## The check loops -/

section Loops

variable {curTs : U32}

/-- The walk stands at the first stream that is still linked. -/
theorem Threaded.rtoLoop {room : Fin n → Env} : ∀ (cnt : Nat) {s : Timers n} {l : Linked n},
    s.Threaded l → ∃ l', (rtoLoop curTs room cnt l.rto.head? s).Threaded l'
  | 0, s, l, threaded => ⟨l, by rw [Timers.rtoLoop]; exact threaded⟩
  | cnt + 1, s, l, threaded => by
      cases first : l.rto with
      | nil => exact ⟨l, threaded⟩
      | cons walk xs =>
          rw [List.head?_cons, Timers.rtoLoop]
          split_ifs
          · exact ⟨l, threaded⟩
          · exact ⟨l, threaded⟩
          · have next : s.lists.timer.next walk = xs.head? := by
              have chain := threaded.chained.timer.chain .rto
              rw [show l.heads .rto = walk :: xs from first] at chain
              exact chain.next_eq
            obtain ⟨l', threaded', rfl⟩ :=
              threaded.rtoExpired { room walk with curTs := curTs } first
            dsimp only
            rw [next]
            exact Threaded.rtoLoop cnt threaded'

theorem Threaded.timewaitLoop : ∀ (fuel : Nat) {s : Timers n} {l : Linked n}, s.Threaded l →
    l.timewait.length ≤ fuel → ∃ l', (timewaitLoop curTs fuel l.timewait.head? s).Threaded l' := by
  intro fuel
  induction fuel with
  | zero =>
      intro s l threaded enough
      rw [List.eq_nil_of_length_eq_zero (Nat.le_zero.mp enough)]
      exact ⟨l, threaded⟩
  | succ fuel ih =>
      intro s l threaded enough
      cases first : l.timewait with
      | nil => exact ⟨l, threaded⟩
      | cons walk xs =>
          have on : (s.streams walk).onTimewaitList = true := by
            refine (threaded.member walk).timewait.mpr ?_
            rw [first]
            exact List.mem_cons_self
          have next : s.lists.timer.next walk = xs.head? := by
            have chain := threaded.chained.timer.chain .timewait
            rw [show l.heads .timewait = walk :: xs from first] at chain
            exact chain.next_eq
          rw [List.head?_cons, Timers.timewaitLoop]
          rw [if_pos on]
          split_ifs
          · exact ⟨l, threaded⟩
          · obtain ⟨l', threaded', rfl⟩ := threaded.timewaitExpired first
            rw [next]
            refine ih threaded' ?_
            rw [first, List.length_cons] at enough
            omega

theorem Threaded.timeoutLoop : ∀ (fuel : Nat) {s : Timers n} {l : Linked n}, s.Threaded l →
    l.timeout.length ≤ fuel → ∃ l', (timeoutLoop curTs fuel l.timeout.head? s).Threaded l' := by
  intro fuel
  induction fuel with
  | zero =>
      intro s l threaded enough
      rw [List.eq_nil_of_length_eq_zero (Nat.le_zero.mp enough)]
      exact ⟨l, threaded⟩
  | succ fuel ih =>
      intro s l threaded enough
      cases first : l.timeout with
      | nil => exact ⟨l, threaded⟩
      | cons walk xs =>
          have next : s.lists.timeout.next walk = xs.head? := by
            have chain := threaded.chained.timeout.chain ()
            rw [first] at chain
            exact chain.next_eq
          rw [List.head?_cons, Timers.timeoutLoop]
          split_ifs
          · exact ⟨l, threaded⟩
          · obtain ⟨l', threaded', rfl⟩ := threaded.timeoutExpired first
            dsimp only
            rw [next]
            refine ih threaded' ?_
            rw [first, List.length_cons] at enough
            omega

end Loops

/-! ## Runs -/

/-- What holds between two calls: the lists are well formed and the flags exact. -/
def Sound (s : Timers n) : Prop := ∃ l, s.Threaded l

theorem init_sound (n : Nat) : (init n).Sound := by
  refine ⟨{}, ⟨?_, Lib.Tailq.Mem.empty_chains⟩, fun id => ?_, nofun⟩
  · have heads : ({} : Linked n).heads = fun _ => [] := by
      funext h
      cases h <;> rfl
    rw [heads]
    exact Lib.Tailq.Mem.empty_chains
  · exact ⟨by simp [init, TcpStream.timerFlags], by simp [init, TcpStream.timerFlags],
      by simp [init, TcpStream.timerFlags]⟩

theorem Sound.step {s : Timers n} (sound : s.Sound) (c : Call n) : (s.step c).Sound := by
  obtain ⟨l, threaded⟩ := sound
  have bound : ∀ {xs : List (Fin n)}, xs.Nodup → xs.length ≤ n := fun nodup => by
    simpa using nodup.length_le_card
  unfold Timers.step
  split_ifs
  · exact ⟨l, threaded⟩
  · cases c with
    | rtoListAdd id curTs => exact threaded.keeps Cx.KeepsTimers.rtoListAdd
    | rtoListRemove id => exact threaded.keeps Cx.KeepsTimers.rtoListRemove
    | rtoListUpdate id curTs => exact threaded.keeps Cx.KeepsTimers.rtoListUpdate
    | rtoListCheck curTs room =>
        have first : s.lists.timer.first .rto = l.rto.head? :=
          (threaded.chained.timer.chain .rto).first_eq
        rw [call, rtoListCheck, first]
        exact threaded.rtoLoop _
    | timewaitListAdd id curTs => exact threaded.keeps Cx.KeepsTimers.timewaitListAdd
    | timewaitListRemove id => exact threaded.keeps Cx.KeepsTimers.timewaitListRemove
    | timewaitListCheck curTs =>
        have first : s.lists.timer.first .timewait = l.timewait.head? :=
          (threaded.chained.timer.chain .timewait).first_eq
        rw [call, timewaitListCheck, first]
        exact threaded.timewaitLoop _ (bound threaded.chained.timewait_nodup)
    | timeoutListAdd id curTs => exact threaded.keeps Cx.KeepsTimers.timeoutListAdd
    | timeoutListRemove id => exact threaded.keeps Cx.KeepsTimers.timeoutListRemove
    | timeoutListUpdate id curTs => exact threaded.keeps Cx.KeepsTimers.timeoutListUpdate
    | timeoutListCheck curTs =>
        have first : s.lists.timeout.first () = l.timeout.head? :=
          (threaded.chained.timeout.chain ()).first_eq
        rw [call, timeoutListCheck, first]
        exact threaded.timeoutLoop _ (bound threaded.chained.timeout_nodup)
    | tcpStreamDestroy id => exact ⟨_, threaded.tcpStreamDestroy⟩
    | other id st =>
        refine ⟨l, threaded.chained, fun j => ?_, threaded.runs⟩
        by_cases same : j = id
        · subst same
          simpa [call, rest, TcpStream.timerFlags] using threaded.member j
        · simpa [call, Function.update_of_ne same] using threaded.member j

/-- **Flags and timer lists agree** after every sequence of calls, over any set of streams and
any timestamps: the three lists are well-formed, every stream is on each at most once, exactly if
its flag says so, and never on two lists that share a link. -/
theorem timer_membership (n : Nat) (cs : List (Call n)) : Lib.Run.Along step Sound (init n) cs :=
  Lib.Run.along_of_step (fun _ c sound _ => sound.step c) cs _ (init_sound n)
    (Lib.Run.allowed_always cs _)

end Timers

end QStack
