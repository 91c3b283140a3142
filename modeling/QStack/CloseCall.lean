/-
# QStack.CloseCall -- q_close, and the request that is or is not queued

`q_close` looks at the state of the stream of a socket before anyone has checked that there is one.
`close_stream_socket` then marks the stream as closed, and only afterwards refuses a state in which
a stream cannot be closed, and does not look whether the close queue took the request.  A stream
that was marked without a request is never closed: every later call returns 0 at once.

`close_reliable` says exactly which calls can be relied on.  Over a run in which every call finds a
stream that is closed already or can be closed, with room for the request, all of them can
(`calls_reliable`): then a stream is marked only with its request.
-/
import QStack.SocketTable
import QStack.TxRing
import QStack.TcpOut
import QStack.Lib.Run

namespace QStack

set_option autoImplicit false

structure CloseSocket where
  socktype : SockType := .unused
  stream : Option Nat := none
deriving DecidableEq, Repr

/-- What `q_close` reaches from the global context. -/
structure CloseCtx where
  maxConcurrency : Nat
  sockets : Nat → CloseSocket
  streams : Nat → TcpStream
  /-- `qstack` of a stream -/
  qstack : Nat → Nat
  /-- `close_queue` of every stack, with a queue for every core -/
  closeQueue : Nat → Nat → CircularQueue Nat
  /-- history: the streams that a close request was queued for since they were created -/
  requested : List Nat := []

namespace CloseCtx

/-! ## The calls -/

/-- `streamq_enqueue` on the close queue of the stack of a stream; nobody looks at its result. -/
def enqueueClose (coreId stream : Nat) (s : CloseCtx) : CloseCtx :=
  let stack := s.qstack stream
  match (s.closeQueue stack coreId).cirqAdd stream with
  | (ret, q) =>
      { s with
        closeQueue := Function.update s.closeQueue stack
          (Function.update (s.closeQueue stack) coreId q)
        requested := if ret = success then stream :: s.requested else s.requested }

def modifyStream (stream : Nat) (f : TcpStream → TcpStream) (s : CloseCtx) : CloseCtx :=
  { s with streams := Function.update s.streams stream (f (s.streams stream)) }

/-- `tcp_stream_close` -/
def tcpStreamClose (coreId stream : Nat) (s : CloseCtx) : Int × CloseCtx :=
  if (s.streams stream).closed then (0, s)
  else
    let s := s.modifyStream stream fun st => { st with closed := true }
    if (s.streams stream).state ≠ .established ∧ (s.streams stream).state ≠ .closeWait then (-1, s)
    else
      (0, (s.enqueueClose coreId stream).modifyStream stream fun st => { st with onCloseq := true })

/-- `close_stream_socket`, which does the same for the stream of a socket. -/
def closeStreamSocket (coreId sockid : Nat) (s : CloseCtx) : Int × CloseCtx :=
  match (s.sockets sockid).stream with
  | none => (-1, s)
  | some stream => s.tcpStreamClose coreId stream

/-- `q_close`; no result when it follows the null pointer of a socket without a stream. -/
def qClose (coreId : Nat) (sockid : Int) (s : CloseCtx) : Option Int × CloseCtx :=
  if sockid < 0 ∨ s.maxConcurrency ≤ sockid then (some (-1), s)
  else if (s.sockets sockid.toNat).socktype ≠ .stream then (some (-1), s)
  else
    match (s.sockets sockid.toNat).stream with
    | none => (none, s)
    | some _ =>
        match s.closeStreamSocket coreId sockid.toNat with
        | (ret, s) => (some ret, s)

/-! ## The law of a call -/

/-- The stream a call is about, if there is one. -/
def target (s : CloseCtx) (sockid : Int) : Option Nat :=
  if sockid < 0 ∨ s.maxConcurrency ≤ sockid then none
  else if (s.sockets sockid.toNat).socktype ≠ .stream then none
  else (s.sockets sockid.toNat).stream

structure Reliable (s : CloseCtx) (coreId : Nat) (sockid : Int) : Prop where
  /-- it returns -/
  returns : (s.qClose coreId sockid).1 ≠ none
  /-- 0 with a request in the close queue, by this call or an earlier one -/
  requested : (s.qClose coreId sockid).1 = some 0 →
    ∃ stream, s.target sockid = some stream ∧ stream ∈ (s.qClose coreId sockid).2.requested
  /-- an error leaves everything as it was -/
  unchanged : ∀ ret, (s.qClose coreId sockid).1 = some ret → ret ≠ 0 →
    (s.qClose coreId sockid).2 = s

/-- The stream can be closed now. -/
structure Closable (s : CloseCtx) (coreId stream : Nat) : Prop where
  state : (s.streams stream).state = .established ∨ (s.streams stream).state = .closeWait
  room : (s.closeQueue (s.qstack stream) coreId).cirqFull = false

/-- The call is for a stream socket that exists. -/
def OfStream (s : CloseCtx) (sockid : Int) : Prop :=
  0 ≤ sockid ∧ sockid < s.maxConcurrency ∧ (s.sockets sockid.toNat).socktype = .stream

/-- There is a stream, and it has its request, or can be closed, or is not marked and needs no
other request. -/
def CloseOk (s : CloseCtx) (coreId : Nat) (sockid : Int) : Prop :=
  s.OfStream sockid → ∃ stream, (s.sockets sockid.toNat).stream = some stream ∧
    if (s.streams stream).closed = true then stream ∈ s.requested
    else s.Closable coreId stream ∨
      (stream ∈ s.requested ∧
        ((s.streams stream).state = .established ∨ (s.streams stream).state = .closeWait))

/-! ## One call -/

variable {s : CloseCtx} {coreId stream : Nat}

theorem enqueueClose_streams : (s.enqueueClose coreId stream).streams = s.streams := rfl

theorem enqueueClose_requested (coreId stream : Nat) (s : CloseCtx) :
    (s.enqueueClose coreId stream).requested =
      if (s.closeQueue (s.qstack stream) coreId).cirqFull then s.requested
      else stream :: s.requested := by
  unfold enqueueClose
  dsimp only
  cases full : (s.closeQueue (s.qstack stream) coreId).cirqFull with
  | false =>
      rw [CircularQueue.cirqAdd_room full]
      rfl
  | true =>
      rw [CircularQueue.cirqAdd_full full]
      rfl

/-- A second call does nothing. -/
theorem tcpStreamClose_closed (closed : (s.streams stream).closed = true) (coreId : Nat) :
    s.tcpStreamClose coreId stream = (0, s) := if_pos closed

/-- The state is refused after the stream has been marked. -/
theorem tcpStreamClose_refused (open_ : (s.streams stream).closed = false)
    (state : ¬ ((s.streams stream).state = .established ∨
      (s.streams stream).state = .closeWait)) (coreId : Nat) :
    s.tcpStreamClose coreId stream =
      (-1, s.modifyStream stream fun st => { st with closed := true }) := by
  have other : (s.streams stream).state ≠ .established ∧ (s.streams stream).state ≠ .closeWait :=
    not_or.mp state
  unfold tcpStreamClose
  rw [open_, if_neg Bool.false_ne_true]
  dsimp only
  rw [if_pos]
  simpa [modifyStream] using other

theorem tcpStreamClose_requests (open_ : (s.streams stream).closed = false)
    (state : (s.streams stream).state = .established ∨ (s.streams stream).state = .closeWait)
    (coreId : Nat) :
    (s.tcpStreamClose coreId stream).1 = 0 ∧
      (s.tcpStreamClose coreId stream).2.requested =
        if (s.closeQueue (s.qstack stream) coreId).cirqFull then s.requested
        else stream :: s.requested := by
  have pass : ¬ ((s.streams stream).state ≠ .established ∧
      (s.streams stream).state ≠ .closeWait) := by
    rintro ⟨notEstablished, notCloseWait⟩
    exact state.elim notEstablished notCloseWait
  unfold tcpStreamClose
  rw [open_, if_neg Bool.false_ne_true]
  dsimp only
  rw [if_neg (by simpa [modifyStream] using pass)]
  exact ⟨rfl, enqueueClose_requested coreId stream _⟩

/-- The stream changes as in the model of one connection. -/
theorem tcpStreamClose_stream (c : Cx) (same : c.st = s.streams stream) (coreId : Nat) :
    (s.tcpStreamClose coreId stream).2.streams stream = c.tcpStreamClose.2.st := by
  unfold Cx.tcpStreamClose
  rw [same]
  cases closed : (s.streams stream).closed with
  | true =>
      rw [tcpStreamClose_closed closed, if_pos rfl]
      exact same.symm
  | false =>
      rw [if_neg Bool.false_ne_true]
      by_cases state : (s.streams stream).state = .established ∨
          (s.streams stream).state = .closeWait
      · unfold tcpStreamClose
        rw [closed, if_neg Bool.false_ne_true]
        rcases state with state | state <;>
          simp [modifyStream, enqueueClose_streams, Cx.modify, same, state]
      · rw [tcpStreamClose_refused closed state]
        cases h : (s.streams stream).state <;>
          simp_all [modifyStream, Cx.modify]

/-! ## When a call can be relied on -/

/-- Outside of the stream sockets nothing happens. -/
theorem qClose_other {sockid : Int} (other : ¬ s.OfStream sockid) (coreId : Nat) :
    s.qClose coreId sockid = (some (-1), s) := by
  unfold qClose
  by_cases inside : sockid < 0 ∨ s.maxConcurrency ≤ sockid
  · exact if_pos inside
  · rw [if_neg inside]
    refine if_pos fun type => other ⟨?_, ?_, type⟩ <;> omega

theorem OfStream.inside {sockid : Int} (ofStream : s.OfStream sockid) :
    ¬ (sockid < 0 ∨ s.maxConcurrency ≤ sockid) := by
  have := ofStream.1
  have := ofStream.2.1
  omega

/-- A stream socket passes its stream on, if it has one. -/
theorem OfStream.qClose {sockid : Int} (ofStream : s.OfStream sockid) (coreId : Nat) :
    s.qClose coreId sockid =
      match (s.sockets sockid.toNat).stream with
      | none => (none, s)
      | some stream =>
          (some (s.tcpStreamClose coreId stream).1, (s.tcpStreamClose coreId stream).2) := by
  unfold CloseCtx.qClose closeStreamSocket
  rw [if_neg ofStream.inside, if_neg (not_not_intro ofStream.2.2)]
  cases (s.sockets sockid.toNat).stream with
  | none => rfl
  | some stream => rfl

theorem OfStream.target {sockid : Int} (ofStream : s.OfStream sockid) :
    s.target sockid = (s.sockets sockid.toNat).stream := by
  unfold CloseCtx.target
  rw [if_neg ofStream.inside, if_neg (not_not_intro ofStream.2.2)]

/-- What a call for a stream that exists has to do. -/
theorem OfStream.reliable_iff {sockid : Int} (ofStream : s.OfStream sockid)
    (here : (s.sockets sockid.toNat).stream = some stream) :
    s.Reliable coreId sockid ↔
      ((s.tcpStreamClose coreId stream).1 = 0 →
        stream ∈ (s.tcpStreamClose coreId stream).2.requested) ∧
      ((s.tcpStreamClose coreId stream).1 ≠ 0 → (s.tcpStreamClose coreId stream).2 = s) := by
  have went := ofStream.qClose coreId
  have target := ofStream.target
  rw [here] at went target
  dsimp only at went
  constructor
  · intro reliable
    refine ⟨fun zero => ?_, fun failed => ?_⟩
    · obtain ⟨stream', found, requested⟩ :=
        reliable.requested (by rw [went]; exact congrArg some zero)
      obtain rfl : stream = stream' := Option.some.inj (target.symm.trans found)
      rwa [went] at requested
    · have same := reliable.unchanged _ (by rw [went]) failed
      rwa [went] at same
  · rintro ⟨requested, unchanged⟩
    refine ⟨?_, fun zero => ⟨stream, target, ?_⟩, fun ret returned failed => ?_⟩
    · rw [went]
      exact Option.some_ne_none _
    · rw [went] at zero ⊢
      exact requested (Option.some.inj zero)
    · rw [went] at returned ⊢
      obtain rfl := Option.some.inj returned
      exact unchanged failed

/-- The mark alone is a change. -/
theorem marked_changed (open_ : (s.streams stream).closed = false) :
    (s.modifyStream stream fun st => { st with closed := true }) ≠ s := by
  intro same
  have marked := congrArg (fun s : CloseCtx => (s.streams stream).closed) same
  simp only [modifyStream, Function.update_self, open_] at marked
  cases marked

/-- **`q_close` is reliable** exactly when the socket has a stream that got its request, or that is
not marked, can be closed and finds room. -/
theorem close_reliable (s : CloseCtx) (coreId : Nat) (sockid : Int) :
    s.Reliable coreId sockid ↔ s.CloseOk coreId sockid := by
  by_cases ofStream : s.OfStream sockid
  swap
  · have went := qClose_other ofStream coreId
    refine iff_of_true ⟨?_, ?_, ?_⟩ fun h => absurd h ofStream <;> rw [went]
    · exact Option.some_ne_none _
    · intro zero
      cases zero
    · exact fun _ _ _ => rfl
  cases here : (s.sockets sockid.toNat).stream with
  | none =>
      refine iff_of_false (fun reliable => reliable.returns ?_) fun ok => ?_
      · rw [ofStream.qClose, here]
      · obtain ⟨stream, found, -⟩ := ok ofStream
        rw [here] at found
        cases found
  | some stream =>
      rw [ofStream.reliable_iff here]
      have ok : s.CloseOk coreId sockid ↔
          if (s.streams stream).closed = true then stream ∈ s.requested
          else s.Closable coreId stream ∨ (stream ∈ s.requested ∧
            ((s.streams stream).state = .established ∨
              (s.streams stream).state = .closeWait)) := by
        refine ⟨fun ok => ?_, fun ok _ => ⟨stream, here, ok⟩⟩
        obtain ⟨stream', found, ok⟩ := ok ofStream
        obtain rfl : stream = stream' := Option.some.inj (here.symm.trans found)
        exact ok
      rw [ok]
      cases closed : (s.streams stream).closed with
      | true =>
          rw [tcpStreamClose_closed closed, if_pos rfl]
          exact ⟨fun law => law.1 rfl, fun requested => ⟨fun _ => requested, fun _ => rfl⟩⟩
      | false =>
          rw [if_neg Bool.false_ne_true]
          by_cases state : (s.streams stream).state = .established ∨
              (s.streams stream).state = .closeWait
          · -- the call returns 0, whether the queue took the request or not
            obtain ⟨zero, requested⟩ := tcpStreamClose_requests closed state coreId
            rw [zero, requested]
            cases full : (s.closeQueue (s.qstack stream) coreId).cirqFull with
            | false =>
                exact iff_of_true ⟨fun _ => List.mem_cons_self, fun no => absurd rfl no⟩
                  (.inl ⟨state, full⟩)
            | true =>
                rw [if_pos rfl]
                constructor
                · exact fun law => .inr ⟨law.1 rfl, state⟩
                · rintro (closable | ⟨earlier, -⟩)
                  · have room := closable.room
                    rw [full] at room
                    cases room
                  · exact ⟨fun _ => earlier, fun no => absurd rfl no⟩
          · rw [tcpStreamClose_refused closed state]
            have failed : (-1 : Int) ≠ 0 := by decide
            refine iff_of_false (fun law => marked_changed closed (law.2 failed)) ?_
            rintro (closable | ⟨-, other⟩)
            · exact state closable.state
            · exact state other

/-- A full close queue: the application is told 0, the stream is marked, and no request exists;
the next call returns 0 at once. -/
def fullQueue : CloseCtx :=
  { maxConcurrency := 4
    sockets := fun _ => { socktype := .stream, stream := some 0 }
    streams := fun _ => { state := .established }
    qstack := fun _ => 0
    closeQueue := fun _ _ => (CircularQueue.cirqInit 2).cirqAdd 7 |>.2 }

theorem full_queue_forgets :
    (fullQueue.qClose 0 1).1 = some 0 ∧ (fullQueue.qClose 0 1).2.requested = [] ∧
      ((fullQueue.qClose 0 1).2.qClose 0 1).1 = some 0 ∧
      ¬ fullQueue.Reliable 0 1 := by
  refine ⟨by decide, by decide, by decide, fun reliable => ?_⟩
  obtain ⟨stream, -, requested⟩ := reliable.requested (by decide)
  have none : (fullQueue.qClose 0 1).2.requested = [] := by decide
  rw [none] at requested
  cases requested

/-! ## Runs -/

inductive CloseEvent where
  | qClose (coreId : Nat) (sockid : Int)
  | tcpStreamClose (coreId stream : Nat)
  /-- the stack takes a request -/
  | dequeue (stack coreId : Nat)
  /-- the stack works on a stream; only the calls above write `closed` -/
  | work (stream : Nat) (st : TcpStream)
  | create (stream : Nat) (st : TcpStream)
  | socket (sockid : Nat) (socket : CloseSocket)

def step (s : CloseCtx) : CloseEvent → CloseCtx
  | .qClose coreId sockid => (s.qClose coreId sockid).2
  | .tcpStreamClose coreId stream => (s.tcpStreamClose coreId stream).2
  | .dequeue stack coreId =>
      { s with
        closeQueue := Function.update s.closeQueue stack
          (Function.update (s.closeQueue stack) coreId (s.closeQueue stack coreId).cirqGet.2) }
  | .work stream st => s.modifyStream stream fun old => { st with closed := old.closed }
  | .create stream st =>
      { s.modifyStream stream fun _ => { st with closed := false } with
        requested := s.requested.filter (· ≠ stream) }
  | .socket sockid socket => { s with sockets := Function.update s.sockets sockid socket }

/-- The stream is closed already, or can be closed now. -/
def Closes (s : CloseCtx) (coreId stream : Nat) : Prop :=
  (s.streams stream).closed = true ∨ s.Closable coreId stream

def EventOk (s : CloseCtx) : CloseEvent → Prop
  | .qClose coreId sockid =>
      s.OfStream sockid → ∃ stream, (s.sockets sockid.toNat).stream = some stream ∧
        s.Closes coreId stream
  | .tcpStreamClose coreId stream => s.Closes coreId stream
  | _ => True

/-- A stream is marked only with its request. -/
def Marked (s : CloseCtx) : Prop :=
  ∀ stream, (s.streams stream).closed = true → stream ∈ s.requested

theorem Marked.tcpStreamClose (marked : s.Marked) (closes : s.Closes coreId stream) :
    (s.tcpStreamClose coreId stream).2.Marked := by
  cases closed : (s.streams stream).closed with
  | true =>
      rw [tcpStreamClose_closed closed]
      exact marked
  | false =>
      have closable : s.Closable coreId stream := closes.resolve_left (by rw [closed]; decide)
      have requested := (tcpStreamClose_requests closed closable.state coreId).2
      rw [closable.room, if_neg Bool.false_ne_true] at requested
      intro other marked'
      rw [requested]
      by_cases same : other = stream
      · exact same ▸ List.mem_cons_self
      · refine List.mem_cons_of_mem _ (marked other ?_)
        rcases closable.state with state | state <;>
          simpa [CloseCtx.tcpStreamClose, closed, state, modifyStream, enqueueClose_streams,
            Function.update_of_ne same] using marked'

/-- **One step keeps the marks and the requests together.** -/
theorem Marked.step (marked : s.Marked) (e : CloseEvent) (ok : s.EventOk e) :
    (s.step e).Marked := by
  cases e with
  | qClose coreId sockid =>
      by_cases ofStream : s.OfStream sockid
      · obtain ⟨stream, here, closes⟩ := ok ofStream
        have went := ofStream.qClose coreId
        rw [here] at went
        rw [CloseCtx.step, went]
        exact marked.tcpStreamClose closes
      · rw [CloseCtx.step, qClose_other ofStream]
        exact marked
  | tcpStreamClose coreId stream => exact marked.tcpStreamClose ok
  | dequeue stack coreId => exact marked
  | work stream st =>
      intro other closed
      by_cases same : other = stream
      · subst same
        exact marked other (by simpa [CloseCtx.step, modifyStream] using closed)
      · exact marked other
          (by simpa [CloseCtx.step, modifyStream, Function.update_of_ne same] using closed)
  | create stream st =>
      intro other closed
      by_cases same : other = stream
      · subst same
        simp [CloseCtx.step, modifyStream] at closed
      · have before : (s.streams other).closed = true := by
          simpa [CloseCtx.step, modifyStream, Function.update_of_ne same] using closed
        exact List.mem_filter.mpr ⟨marked other before, by simpa using same⟩
  | socket sockid socket => exact marked

/-- **Every `q_close` of a run can be relied on**, when each finds a stream that is closed already
or can be closed, with room for the request. -/
theorem calls_reliable (es : List CloseEvent) (s : CloseCtx) (marked : s.Marked)
    (allowed : Lib.Run.Allowed step EventOk s es) :
    Lib.Run.Each step
      (fun s e _ => ∀ coreId sockid, e = .qClose coreId sockid → s.Reliable coreId sockid) s es := by
  refine Lib.Run.each_of_step (P := Marked) (fun s e marked ok => ⟨marked.step e ok, ?_⟩) es s
    marked allowed
  rintro coreId sockid rfl
  refine (close_reliable s coreId sockid).mpr fun ofStream => ?_
  obtain ⟨stream, here, closes⟩ := ok ofStream
  refine ⟨stream, here, ?_⟩
  split_ifs with closed
  · exact marked stream closed
  · exact .inl (closes.resolve_left closed)

end CloseCtx

end QStack
