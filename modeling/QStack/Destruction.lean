/-
# QStack.Destruction -- what a destroyed stream is still linked from

A stream of a stack can be linked from nine queues and lists and from the flow hash table.  The
functions of a stream record in their effects where they link and unlink it; here the effects are
replayed on the containers.  `tcp_stream_destroy` takes the stream off the three timer lists and
out of the table, and off no queue.

An event of a queue or a timer list names its stream: the queues have several producers and the
lists are walked, so any stream of the container may be the one.

* `Parting`: nothing is destroyed that is on a queue, or that is put on one by the same call;
* `destroyed_unlinked`: then no container ever holds a destroyed stream, and none is ever taken
  from one;
* `accepted_destroyed`: a connection that the application accepts too late.
-/
import QStack.Ending
import QStack.FlowTable

namespace QStack

set_option autoImplicit false

/-- What a stream can be linked from, but the flow hash table. -/
inductive Container where
  | controlQueue | ackQueue | sendEventQueue | sendHeventQueue | closeQueue | acceptq
  | rtoList | timewaitList | timeoutList
deriving DecidableEq, Repr

/-- `tcp_stream_destroy` takes the stream off it. -/
def Container.isTimer : Container → Bool
  | .rtoList | .timewaitList | .timeoutList => true
  | _ => false

inductive Link where
  | insert (q : Container)
  | remove (q : Container)

def Effect.link? : Effect → Option Link
  | .controlEnqueue => some (.insert .controlQueue)
  | .ackEnqueue => some (.insert .ackQueue)
  | .sendEvent pri => some (.insert (if pri then .sendHeventQueue else .sendEventQueue))
  | .acceptEnqueue => some (.insert .acceptq)
  | .rtoInsert => some (.insert .rtoList)
  | .rtoRemove => some (.remove .rtoList)
  | .timewaitInsert => some (.insert .timewaitList)
  | .timewaitRemove => some (.remove .timewaitList)
  | .timeoutInsert => some (.insert .timeoutList)
  | .timeoutRemove => some (.remove .timeoutList)
  | .transmit _ | .raise _ | .destroy | .halt _ | .established _ => none

abbrev Containers := Container → List Nat

/-- What a function did to the containers with stream `id`. -/
def Containers.perform (id : Nat) (e : Effect) (on : Containers) : Containers :=
  match e.link? with
  | some (.insert q) => Function.update on q (on q ++ [id])
  | some (.remove q) => Function.update on q ((on q).erase id)
  | none => on

structure Stack where
  streams : Nat → TcpStream := fun _ => {}
  mem : MbufMem := { mbuf := fun _ => {} }
  /-- the chunks of `mp_stream` that are in use -/
  allocated : Nat → Bool := fun _ => false
  on : Containers := fun _ => []
  /-- the four-tuple of a stream -/
  flow : Nat → Flow := fun _ => ⟨{}, {}⟩
  streamHt : FlowHash := ∅
  /-- the entries `stream_ht` was created with -/
  entries : Nat
  /-- the process has ended -/
  halted : Bool := false

/-- What `tcp_stream_create` finds: a chunk, the configured sizes, and what `rand()` returns. -/
structure Birth where
  chunk : Nat
  rcvbufSize : Nat
  sndbufSize : Nat
  iss : Seq

inductive StackEvent where
  /-- `birth` is used when the segment opens a connection -/
  | packet (flow : Flow) (env : Env) (avail : Nat) (seg : Segment) (birth : Birth)
  | connectCall (flow : Flow) (env : Env) (birth : Birth)
  | accept (id : Nat)
  | send (id : Nat) (env : Env) (m : SndMbuf) (len : U32) (highPri : Bool)
  | recv (id : Nat)
  /-- `room` in the close queue -/
  | close (id : Nat) (room : Bool)
  | handleClose (id : Nat) (env : Env)
  | serveControl (id : Nat) (env : Env) (avail : Nat)
  | serveSend (id : Nat) (high : Bool) (env : Env)
  | serveAck (id : Nat) (env : Env) (avail : Nat)
  | rto (id : Nat) (env : Env)
  | timewait (id : Nat) (curTs : U32)
  | timeout (id : Nat) (curTs : U32)

namespace Stack

def init (entries : Nat) : Stack := { entries := entries }

/-! ## Creation and destruction -/

def tcpStreamCreate (s : Stack) (flow : Flow) (birth : Birth) (seq : Seq) : Stack :=
  { s with
    streams := Function.update s.streams birth.chunk
      (QStack.tcpStreamCreate birth.rcvbufSize birth.sndbufSize seq birth.iss)
    allocated := Function.update s.allocated birth.chunk true
    flow := Function.update s.flow birth.chunk flow
    streamHt := Flows.htInsert s.entries s.streamHt flow birth.chunk }

/-- `tcp_stream_destroy`: the timer lists, the table, the chunk. -/
def tcpStreamDestroy (s : Stack) (id : Nat) : Stack :=
  let c := Cx.unlinkTimers { st := s.streams id }
  { s with
    streams := Function.update s.streams id c.st
    on := c.out.foldr (Containers.perform id) s.on
    streamHt := Flows.htDelete s.streamHt (s.flow id)
    allocated := Function.update s.allocated id false }

/-- A function of a stream as it is called. -/
def entry (s : Stack) (id avail : Nat) : Cx := { st := s.streams id, mem := s.mem, avail := avail }

/-- A function of one stream; `tcp_stream_destroy` is the last thing that one calls. -/
def run (s : Stack) (id avail : Nat) (f : Cx → Cx) : Stack :=
  let c := f (s.entry id avail)
  if c.halted then { s with halted := true }
  else
    let s' := { s with
      streams := Function.update s.streams id c.st
      mem := c.mem
      on := c.out.foldr (Containers.perform id) s.on }
    if c.out.any Effect.isDestroy then s'.tcpStreamDestroy id else s'

/-! ## Steps -/

def sendQueue (high : Bool) : Container := if high then .sendHeventQueue else .sendEventQueue

/-- The stream that an event takes out of a queue or meets on a list, whose time has come. -/
def links : StackEvent → Option (Container × Nat)
  | .accept id => some (.acceptq, id)
  | .handleClose id _ => some (.closeQueue, id)
  | .serveControl id _ _ => some (.controlQueue, id)
  | .serveSend id high _ => some (sendQueue high, id)
  | .serveAck id _ _ => some (.ackQueue, id)
  | .rto id _ => some (.rtoList, id)
  | .timewait id _ => some (.timewaitList, id)
  | .timeout id _ => some (.timeoutList, id)
  | .packet .. | .connectCall .. | .send .. | .recv .. | .close .. => none

/-- A check of a timer list finds the time of the stream come. -/
def due (s : Stack) : StackEvent → Bool
  | .rto id env => !(env.curTs - (s.streams id).tsRto).slt 0
  | .timewait id curTs => !(curTs - (s.streams id).tsTwExpire).slt 0
  | .timeout id curTs => !(curTs - (s.streams id).lastActiveTs).slt Timers.tcpTimeout
  | _ => true

/-- The stream that an event takes out of a container, or that the look-up of a packet finds. -/
def yields (s : Stack) (e : StackEvent) : Option Nat :=
  match e with
  | .packet flow _ _ _ _ => Flows.streamHTSearch s.streamHt flow
  | _ =>
      match links e with
      | some (q, id) => if id ∈ s.on q ∧ s.due e then some id else none
      | none => none

/-- The containers once the event has taken its stream out of a queue. -/
def dequeued (s : Stack) (e : StackEvent) : Containers :=
  match links e with
  | some (q, id) => if q.isTimer then s.on else Function.update s.on q ((s.on q).erase id)
  | none => s.on

/-- What is done with the stream that the event yields. -/
def serve (s : Stack) (id : Nat) : StackEvent → Stack
  | .packet _ env avail seg _ => s.run id avail (Cx.processSegment env seg)
  | .handleClose _ env => s.run id 0 (Cx.handleCloseCall env)
  | .serveControl _ env avail => s.run id avail (Cx.writeTcpControlQueue env)
  | .serveSend _ _ env => s.run id 0 (Cx.writeTcpSendQueue env)
  | .serveAck _ env avail => s.run id avail (Cx.writeTcpAckQueue env)
  | .rto _ env => s.run id 0 (Cx.rtoListCheck env)
  | .timewait _ _ => s.run id 0 Cx.timewaitListCheck
  | .timeout _ _ => s.run id 0 Cx.timeoutListCheck
  | .accept _ | .connectCall .. | .send .. | .recv .. | .close .. => s

def enqueue (s : Stack) (q : Container) (id : Nat) : Stack :=
  { s with on := Function.update s.on q (s.on q ++ [id]) }

/-- An event that finds no stream: a connection is opened, or the application calls through its
socket, which a stream has until it is destroyed. -/
def other (s : Stack) : StackEvent → Stack
  | .packet flow env avail seg birth =>
      if seg.syn ∧ seg.ack = false ∧ s.allocated birth.chunk = false then
        (s.tcpStreamCreate flow birth seg.seq).run birth.chunk avail (Cx.passiveOpen env seg)
      else s
  | .connectCall flow env birth =>
      if s.allocated birth.chunk = false then
        (s.tcpStreamCreate flow birth 0).run birth.chunk 0 (Cx.handleConnectCall env)
      else s
  | .send id env m len highPri =>
      if s.allocated id then s.run id 0 fun c => (c.qTcpSend env m len highPri).2 else s
  | .recv id => if s.allocated id then s.run id 0 Cx.qRecv else s
  | .close id room =>
      if s.allocated id then
        let queued := (s.entry id 0).tcpStreamClose.1 && room
        (if queued then s.enqueue .closeQueue id else s).run id 0 fun c => c.tcpStreamClose.2
      else s
  | _ => s

def step (s : Stack) (e : StackEvent) : Stack :=
  if s.halted then s
  else
    match s.yields e with
    | some id => { s with on := s.dequeued e }.serve id e
    | none => s.other e

end Stack

/-! ## The law -/

/-- The stream is on none of the queues. -/
def Containers.Loose (on : Containers) (id : Nat) : Prop :=
  ∀ q : Container, q.isTimer = false → id ∉ on q

namespace Stack

/-- The stream is linked from nowhere. -/
structure Unlinked (s : Stack) (id : Nat) : Prop where
  containers : ∀ q, id ∉ s.on q
  table : ∀ flow, Flows.streamHTSearch s.streamHt flow ≠ some id

/-- **No destroyed stream stays reachable.** -/
structure Law (s : Stack) : Prop where
  unlinked : ∀ id, s.allocated id = false → s.Unlinked id
  live : ∀ e id, s.yields e = some id → s.allocated id = true

/-- The event destroys the stream that it yields. -/
def dooms (s : Stack) (id : Nat) : StackEvent → Bool
  | .packet _ _ _ seg _ => (s.streams id).endedBy seg
  | .handleClose _ _ => (s.streams id).haveReset && (s.streams id).state != .closed
  | .rto _ _ => decide (tcpMaxRtx ≤ (s.streams id).nrtx)
  | .timewait _ _ | .timeout _ _ => true
  | _ => false

/-- The acknowledgement of our FIN starts a fast retransmission first, and its send event is
posted. -/
def posts (s : Stack) (id : Nat) : StackEvent → Bool
  | .packet _ env _ seg _ =>
      (s.streams id).lastAckedBy seg && ((s.streams id).resends seg && env.sendRoom)
  | _ => false

/-- A stream that is destroyed is on no queue and posts no send event. -/
def Parting (s : Stack) (e : StackEvent) : Prop :=
  ∀ id, s.yields e = some id → s.dooms id e = true →
    (s.dequeued e).Loose id ∧ s.posts id e = false

end Stack

/-! The law's condition can be computed. -/

theorem Containers.loose_iff (on : Containers) (id : Nat) :
    (id ∉ on .controlQueue ∧ id ∉ on .ackQueue ∧ id ∉ on .sendEventQueue ∧
      id ∉ on .sendHeventQueue ∧ id ∉ on .closeQueue ∧ id ∉ on .acceptq) ↔ on.Loose id := by
  constructor
  · rintro ⟨control, ack, send, hsend, close, accept⟩ q queue
    cases q with
    | rtoList | timewaitList | timeoutList => cases queue
    | _ => assumption
  · exact fun loose =>
      ⟨loose _ rfl, loose _ rfl, loose _ rfl, loose _ rfl, loose _ rfl, loose _ rfl⟩

instance Containers.Loose.decidable (on : Containers) (id : Nat) : Decidable (on.Loose id) :=
  decidable_of_iff _ (on.loose_iff id)

instance Stack.Parting.decidable (s : Stack) (e : StackEvent) : Decidable (s.Parting e) :=
  decidable_of_iff (∀ id ∈ s.yields e, s.dooms id e = true →
    (s.dequeued e).Loose id ∧ s.posts id e = false) Iff.rfl

/-! ## The effects on the containers -/

/-- The flag of a timer list. -/
def TimerFlags.flag (f : TimerFlags) : Container → Bool
  | .rtoList => f.rto
  | .timewaitList => f.timewait
  | .timeoutList => f.timeout
  | _ => false

/-- What an allowed macro call does to the flags. -/
theorem TimerFlags.after_flag {f f' : TimerFlags} {e : Effect} (allowed : f.after e = some f') :
    match e.link? with
    | some (.insert q) =>
        if q.isTimer then f.flag q = false ∧ f'.flag = Function.update f.flag q true else f' = f
    | some (.remove q) => q.isTimer = true ∧ f'.flag = Function.update f.flag q false
    | none => f' = f := by
  cases e with
  | rtoInsert =>
      obtain ⟨⟨off, -⟩, rfl⟩ : (f.rto = false ∧ f.timewait = false) ∧ { f with rto := true } = f' := by
        simpa [TimerFlags.after] using allowed
      exact ⟨off, by funext q; cases q <;> rfl⟩
  | timewaitInsert =>
      obtain ⟨⟨-, off⟩, rfl⟩ :
          (f.rto = false ∧ f.timewait = false) ∧ { f with timewait := true } = f' := by
        simpa [TimerFlags.after] using allowed
      exact ⟨off, by funext q; cases q <;> rfl⟩
  | timeoutInsert =>
      obtain ⟨off, rfl⟩ : f.timeout = false ∧ { f with timeout := true } = f' := by
        simpa [TimerFlags.after] using allowed
      exact ⟨off, by funext q; cases q <;> rfl⟩
  | rtoRemove =>
      obtain ⟨-, rfl⟩ : f.rto = true ∧ { f with rto := false } = f' := by
        simpa [TimerFlags.after] using allowed
      exact ⟨rfl, by funext q; cases q <;> rfl⟩
  | timewaitRemove =>
      obtain ⟨-, rfl⟩ : f.timewait = true ∧ { f with timewait := false } = f' := by
        simpa [TimerFlags.after] using allowed
      exact ⟨rfl, by funext q; cases q <;> rfl⟩
  | timeoutRemove =>
      obtain ⟨-, rfl⟩ : f.timeout = true ∧ { f with timeout := false } = f' := by
        simpa [TimerFlags.after] using allowed
      exact ⟨rfl, by funext q; cases q <;> rfl⟩
  | sendEvent pri => cases pri <;> exact (Option.some.inj allowed).symm
  | transmit | controlEnqueue | ackEnqueue | acceptEnqueue | raise | destroy | halt | established =>
      exact (Option.some.inj allowed).symm

namespace Containers

/-- The flags of a stream say which timer lists it is on. -/
def Member (on : Containers) (id : Nat) (f : TimerFlags) : Prop :=
  ∀ q : Container, q.isTimer = true → (f.flag q = true ↔ id ∈ on q)

/-- No stream is on a timer list twice. -/
def Nodup (on : Containers) : Prop := ∀ q : Container, q.isTimer = true → (on q).Nodup

section Perform

variable {on : Containers} {id : Nat}

/-- A macro call that the flags allow. -/
theorem Member.perform {f f' : TimerFlags} {e : Effect} (member : on.Member id f)
    (nodup : on.Nodup) (allowed : f.after e = some f') :
    (on.perform id e).Member id f' ∧ (on.perform id e).Nodup := by
  have after := TimerFlags.after_flag allowed
  unfold Containers.perform
  cases link : e.link? with
  | none =>
      rw [link] at after
      subst after
      exact ⟨member, nodup⟩
  | some link' =>
      rw [link] at after
      cases link' with
      | insert q =>
          dsimp only at after ⊢
          by_cases timer : q.isTimer = true
          · rw [if_pos timer] at after
            have away : id ∉ on q := fun here => by
              rw [(member q timer).mpr here] at after
              exact Bool.noConfusion after.1
            constructor
            · intro q' timer'
              by_cases same : q' = q
              · subst same
                simp [after.2]
              · rw [after.2, Function.update_of_ne same, Function.update_of_ne same]
                exact member q' timer'
            · intro q' timer'
              by_cases same : q' = q
              · subst same
                rw [Function.update_self]
                exact (nodup q' timer').append (List.nodup_singleton id)
                  (List.disjoint_singleton.mpr away)
              · rw [Function.update_of_ne same]
                exact nodup q' timer'
          · rw [if_neg timer] at after
            subst after
            have other : ∀ q' : Container, q'.isTimer = true → q' ≠ q :=
              fun q' timer' same => timer (same ▸ timer')
            constructor
            · intro q' timer'
              rw [Function.update_of_ne (other q' timer')]
              exact member q' timer'
            · intro q' timer'
              rw [Function.update_of_ne (other q' timer')]
              exact nodup q' timer'
      | remove q =>
          dsimp only at after ⊢
          constructor
          · intro q' timer'
            by_cases same : q' = q
            · subst same
              simp [after.2, (nodup q' timer').not_mem_erase]
            · rw [after.2, Function.update_of_ne same, Function.update_of_ne same]
              exact member q' timer'
          · intro q' timer'
            by_cases same : q' = q
            · subst same
              rw [Function.update_self]
              exact (nodup q' timer').erase id
            · rw [Function.update_of_ne same]
              exact nodup q' timer'

theorem Member.replay {es : List Effect} : ∀ {f f' : TimerFlags}, on.Member id f → on.Nodup →
    f.replay es = some f' →
      Member (es.foldr (Containers.perform id) on) id f' ∧
        Nodup (es.foldr (Containers.perform id) on) := by
  induction es with
  | nil =>
      intro f f' member nodup allowed
      obtain rfl := Option.some.inj allowed
      exact ⟨member, nodup⟩
  | cons e es ih =>
      intro f f' member nodup allowed
      rw [TimerFlags.replay] at allowed
      obtain ⟨f₁, earlier, last⟩ := Option.bind_eq_some_iff.mp allowed
      obtain ⟨member', nodup'⟩ := ih member nodup earlier
      exact member'.perform nodup' last

/-- A function of one stream leaves the others where they are. -/
theorem mem_perform_other (e : Effect) {j : Nat} (other : j ≠ id) (q : Container) :
    j ∈ on.perform id e q ↔ j ∈ on q := by
  unfold Containers.perform
  cases e.link? with
  | none => exact .rfl
  | some link =>
      cases link with
      | insert q' | remove q' =>
          dsimp only
          by_cases same : q = q'
          · subst same
            simp [List.mem_erase_of_ne other, other]
          · rw [Function.update_of_ne same]

theorem mem_replay_other (es : List Effect) {j : Nat} (other : j ≠ id) (q : Container) :
    j ∈ es.foldr (Containers.perform id) on q ↔ j ∈ on q := by
  induction es with
  | nil => exact .rfl
  | cons e es ih => exact (mem_perform_other e other q).trans ih

/-- Only an effect that enqueues the stream changes a queue. -/
theorem replay_queue {q : Container} (queue : q.isTimer = false) {es : List Effect}
    (none_ : es.filter Effect.isEnqueue = []) : es.foldr (Containers.perform id) on q = on q := by
  induction es with
  | nil => rfl
  | cons e es ih =>
      rw [List.filter_eq_nil_iff] at none_ ih
      have later := ih fun e within => none_ e (List.mem_cons_of_mem _ within)
      have here := none_ e List.mem_cons_self
      rw [List.foldr_cons, ← later]
      generalize es.foldr (Containers.perform id) on = on'
      have timer : ∀ q' : Container, q'.isTimer = true → q ≠ q' := by
        intro q' timer same
        rw [same, timer] at queue
        cases queue
      cases e with
      | rtoInsert | rtoRemove | timewaitInsert | timewaitRemove | timeoutInsert
      | timeoutRemove => exact Function.update_of_ne (timer _ rfl) _ _
      | controlEnqueue | ackEnqueue | sendEvent | acceptEnqueue => exact absurd rfl here
      | transmit | raise | destroy | halt | established => rfl

end Perform

end Containers

/-! ## The invariant -/

namespace Stack

structure Inv (s : Stack) : Prop where
  gone : ∀ id, s.allocated id = false → s.Unlinked id
  member : ∀ id, s.on.Member id (s.streams id).timerFlags
  apart : ∀ id, (s.streams id).timerFlags.Apart
  nodup : s.on.Nodup
  keyed : ∀ flow id, Flows.streamHTSearch s.streamHt flow = some id → s.flow id = flow

section Table

variable {ht : FlowHash} {flow flow' : Flow} {id id' : Nat}

theorem search_insert {entries : Nat}
    (found : Flows.streamHTSearch (Flows.htInsert entries ht flow id) flow' = some id') :
    flow' = flow ∧ id' = id ∨ Flows.streamHTSearch ht flow' = some id' := by
  unfold Flows.htInsert at found
  split at found
  · by_cases same : flow' = flow
    · subst same
      rw [Flows.streamHTSearch, AList.lookup_insert] at found
      exact .inl ⟨rfl, (Option.some.inj found).symm⟩
    · rw [Flows.streamHTSearch, AList.lookup_insert_ne same] at found
      exact .inr found
  · exact .inr found

theorem search_delete (found : Flows.streamHTSearch (Flows.htDelete ht flow) flow' = some id') :
    flow' ≠ flow ∧ Flows.streamHTSearch ht flow' = some id' := by
  unfold Flows.htDelete Flows.streamHTSearch at found
  by_cases same : flow' = flow
  · subst same
    rw [AList.lookup_erase] at found
    cases found
  · rw [AList.lookup_erase_ne same] at found
    exact ⟨same, found⟩

end Table

section Step

variable {s : Stack}

theorem Inv.init (entries : Nat) : (init entries).Inv := by
  refine ⟨fun id _ => ⟨fun q => List.not_mem_nil, fun flow found => ?_⟩, fun id q timer => ?_,
    fun id => rfl, fun q _ => List.nodup_nil, fun flow id found => ?_⟩
  · cases found
  · cases q <;> simp [Stack.init, TimerFlags.flag, TcpStream.timerFlags]
  · cases found

theorem dequeued_cases (s : Stack) (e : StackEvent) :
    s.dequeued e = s.on ∨ ∃ q id, q.isTimer = false ∧
      s.dequeued e = Function.update s.on q ((s.on q).erase id) := by
  unfold Stack.dequeued
  cases links e with
  | none => exact .inl rfl
  | some link =>
      obtain ⟨q, id⟩ := link
      dsimp only
      split
      · exact .inl rfl
      · exact .inr ⟨q, id, Bool.not_eq_true _ ▸ ‹_›, rfl⟩

/-- A stream is taken out of a queue. -/
theorem Inv.dequeued (inv : s.Inv) (e : StackEvent) : Inv { s with on := s.dequeued e } := by
  rcases dequeued_cases s e with same | ⟨q', id', queue, erased⟩
  · rw [same]
    exact inv
  rw [erased]
  have timers : ∀ q : Container, q.isTimer = true →
      Function.update s.on q' ((s.on q').erase id') q = s.on q := by
    intro q timer
    refine Function.update_of_ne ?_ _ _
    rintro rfl
    rw [timer] at queue
    cases queue
  refine ⟨fun id dead => ⟨fun q within => ?_, (inv.gone id dead).table⟩, fun id q timer => ?_,
    inv.apart, fun q timer => ?_, inv.keyed⟩
  · refine (inv.gone id dead).containers q ?_
    change id ∈ Function.update s.on q' ((s.on q').erase id') q at within
    by_cases same : q = q'
    · subst same
      rw [Function.update_self] at within
      exact List.mem_of_mem_erase within
    · rwa [Function.update_of_ne same] at within
  · have member := inv.member id q timer
    rw [← timers q timer] at member
    exact member
  · have nodup := inv.nodup q timer
    rw [← timers q timer] at nodup
    exact nodup

/-- `tcp_stream_create` in a chunk that is free. -/
theorem Inv.create (inv : s.Inv) (flow : Flow) (birth : Birth) (seq : Seq)
    (free : s.allocated birth.chunk = false) : (s.tcpStreamCreate flow birth seq).Inv := by
  have unlinked := inv.gone birth.chunk free
  have flags : ∀ id, id ≠ birth.chunk →
      (s.tcpStreamCreate flow birth seq).streams id = s.streams id := fun id other =>
    Function.update_of_ne other _ _
  have fresh : ((s.tcpStreamCreate flow birth seq).streams birth.chunk).timerFlags =
      ⟨false, false, false⟩ :=
    congrArg TcpStream.timerFlags (Function.update_self birth.chunk _ s.streams)
  have kept : ∀ id, (s.tcpStreamCreate flow birth seq).allocated id = false →
      id ≠ birth.chunk ∧ s.allocated id = false := by
    intro id dead
    change Function.update s.allocated birth.chunk true id = false at dead
    by_cases same : id = birth.chunk
    · rw [same, Function.update_self] at dead
      cases dead
    · rw [Function.update_of_ne same] at dead
      exact ⟨same, dead⟩
  refine ⟨fun id dead => ⟨?_, fun flow' found => ?_⟩, fun id => ?_, fun id => ?_, inv.nodup,
    fun flow' id found => ?_⟩
  · exact (inv.gone id (kept id dead).2).containers
  · rcases search_insert found with ⟨-, same⟩ | before
    · exact (kept id dead).1 same
    · exact (inv.gone id (kept id dead).2).table flow' before
  · by_cases same : id = birth.chunk
    · subst same
      rw [fresh]
      intro q timer
      have away := unlinked.containers q
      cases q <;> simp [TimerFlags.flag, tcpStreamCreate, away]
    · rw [flags id same]
      exact inv.member id
  · by_cases same : id = birth.chunk
    · subst same
      rw [fresh]
      rfl
    · rw [flags id same]
      exact inv.apart id
  · rcases search_insert found with ⟨rfl, rfl⟩ | before
    · exact Function.update_self _ _ _
    · have other : id ≠ birth.chunk := fun same => unlinked.table flow' (same ▸ before)
      exact (Function.update_of_ne other _ _).trans (inv.keyed flow' id before)

/-- A live stream is put on a queue. -/
theorem Inv.enqueue (inv : s.Inv) {id : Nat} (live : s.allocated id = true) (q : Container)
    (queue : q.isTimer = false) : (s.enqueue q id).Inv := by
  have timers : ∀ q' : Container, q'.isTimer = true → (s.enqueue q id).on q' = s.on q' := by
    intro q' timer
    refine Function.update_of_ne ?_ _ _
    rintro rfl
    rw [timer] at queue
    cases queue
  refine ⟨fun j dead => ⟨fun q' within => ?_, (inv.gone j dead).table⟩, fun j q' timer => ?_,
    inv.apart, fun q' timer => ?_, inv.keyed⟩
  · refine (inv.gone j dead).containers q' ?_
    change j ∈ Function.update s.on q (s.on q ++ [id]) q' at within
    by_cases same : q' = q
    · subst same
      rw [Function.update_self, List.mem_append, List.mem_singleton] at within
      refine within.resolve_right ?_
      rintro rfl
      have dead' : s.allocated j = false := dead
      rw [live] at dead'
      cases dead'
    · rwa [Function.update_of_ne same] at within
  · rw [timers q' timer]
    exact inv.member j q' timer
  · rw [timers q' timer]
    exact inv.nodup q' timer

/-- `tcp_stream_destroy` clears the flags, and puts the stream on no queue. -/
theorem unlinkTimers_done (c : Cx) :
    c.unlinkTimers.st.timerFlags = ⟨false, false, false⟩ ∧
      c.unlinkTimers.enqueued = c.enqueued := by
  unfold Cx.unlinkTimers Cx.rtoListRemove Cx.timewaitListRemove Cx.timeoutListRemove
  by_cases first : c.st.onTimeoutList = true <;>
    by_cases second : c.st.onTimewaitList = true <;>
    by_cases third : c.st.onRto = true <;>
    simp [first, second, third, Cx.emit, Cx.modify, TcpStream.timerFlags, Cx.enqueued,
      Effect.isEnqueue]

/-- A function of a live stream, with effects that its flags allow. -/
theorem Inv.perform (inv : s.Inv) {id : Nat} (live : s.allocated id = true) {st : TcpStream}
    (mem : MbufMem) {es : List Effect}
    (flags : (s.streams id).timerFlags.replay es = some st.timerFlags) :
    Inv { s with
      streams := Function.update s.streams id st
      mem := mem
      on := es.foldr (Containers.perform id) s.on } := by
  obtain ⟨member, nodup⟩ := (inv.member id).replay inv.nodup flags
  refine ⟨fun j dead => ⟨fun q within => ?_, (inv.gone j dead).table⟩, fun j q timer => ?_,
    fun j => ?_, nodup, inv.keyed⟩
  · have other : j ≠ id := by
      rintro rfl
      rw [live] at dead
      cases dead
    exact (inv.gone j dead).containers q ((Containers.mem_replay_other es other q).mp within)
  · dsimp only
    by_cases same : j = id
    · subst same
      rw [Function.update_self]
      exact member q timer
    · rw [Function.update_of_ne same]
      exact (inv.member j q timer).trans (Containers.mem_replay_other es same q).symm
  · dsimp only
    by_cases same : j = id
    · subst same
      rw [Function.update_self]
      exact (inv.apart j).replay flags
    · rw [Function.update_of_ne same]
      exact inv.apart j

/-- A stream that is on no queue is destroyed. -/
theorem Inv.destroy (inv : s.Inv) {id : Nat} (live : s.allocated id = true)
    (loose : s.on.Loose id) : (s.tcpStreamDestroy id).Inv := by
  obtain ⟨cleared, quiet⟩ := unlinkTimers_done { st := s.streams id }
  obtain ⟨es, out, flags, -⟩ :=
    Cx.KeepsTimers.unlinkTimers { st := s.streams id } (inv.apart id)
  rw [List.append_nil] at out
  rw [← out] at flags
  have unlinked := inv.perform live s.mem flags
  unfold tcpStreamDestroy
  dsimp only
  generalize Cx.unlinkTimers { st := s.streams id } = c at cleared quiet unlinked ⊢
  have away : ∀ q, id ∉ c.out.foldr (Containers.perform id) s.on q := by
    intro q
    cases timer : q.isTimer with
    | false =>
        rw [Containers.replay_queue timer quiet]
        exact loose q timer
    | true =>
        intro within
        have set := (unlinked.member id q timer).mpr within
        dsimp only at set
        rw [Function.update_self, cleared] at set
        cases q <;> cases set
  refine ⟨fun j dead => ⟨fun q => ?_, fun flow found => ?_⟩, unlinked.member, unlinked.apart,
    unlinked.nodup, fun flow j found => inv.keyed flow j (search_delete found).2⟩
  · dsimp only at dead
    by_cases same : j = id
    · exact same ▸ away q
    · rw [Function.update_of_ne same] at dead
      exact (unlinked.gone j dead).containers q
  · obtain ⟨other, before⟩ := search_delete found
    dsimp only at dead
    by_cases same : j = id
    · subst same
      exact other (inv.keyed flow j before).symm
    · rw [Function.update_of_ne same] at dead
      exact (inv.gone j dead).table flow before

/-- **A function of a live stream**, which destroys it only if the stream is on no queue, and
puts it on none. -/
theorem Inv.run (inv : s.Inv) {id avail : Nat} {f : Cx → Cx} (live : s.allocated id = true)
    (tracks : (s.entry id avail).Tracks (f (s.entry id avail)))
    (parting : (f (s.entry id avail)).view.halted = false →
      (f (s.entry id avail)).view.destroyed = true →
        s.on.Loose id ∧ (f (s.entry id avail)).enqueued = []) :
    (s.run id avail f).Inv := by
  obtain ⟨es, out, flags⟩ := tracks (inv.apart id)
  change (f (s.entry id avail)).out = es ++ [] at out
  rw [List.append_nil] at out
  rw [← out] at flags
  unfold Stack.run
  dsimp only
  generalize f (s.entry id avail) = c at flags parting ⊢
  have performed := inv.perform live c.mem flags
  split
  · exact ⟨fun j dead => ⟨(inv.gone j dead).containers, (inv.gone j dead).table⟩, inv.member,
      inv.apart, inv.nodup, inv.keyed⟩
  rename_i running
  split
  · rename_i destroyed
    obtain ⟨loose, quiet⟩ := parting (Bool.not_eq_true _ ▸ running) destroyed
    refine performed.destroy live fun q queue => ?_
    dsimp only
    rw [Containers.replay_queue queue quiet]
    exact loose q queue
  · exact performed

/-- A function that never destroys. -/
theorem Inv.spares (inv : s.Inv) {id avail : Nat} {f : Cx → Cx} (live : s.allocated id = true)
    (spares : (s.entry id avail).Spares (f (s.entry id avail))) : (s.run id avail f).Inv := by
  refine inv.run live spares.tracks fun _ destroyed => ?_
  rw [spares.spared] at destroyed
  cases destroyed

/-- A function that ends in the destruction of the stream for a reason. -/
theorem Inv.ends (inv : s.Inv) {id avail : Nat} {f : Cx → Cx} {why : Prop}
    (live : s.allocated id = true)
    (ends : Cx.Ends why True (s.entry id avail) (f (s.entry id avail)))
    (loose : why → s.on.Loose id) : (s.run id avail f).Inv := by
  refine inv.run live ends.tracks fun _ destroyed => ?_
  obtain ⟨holds, quiet⟩ := ends.gone rfl destroyed
  exact ⟨loose holds, quiet trivial⟩

/-- What an event yields is linked, so it is alive. -/
theorem Inv.yields_live (inv : s.Inv) {e : StackEvent} {id : Nat} (yields : s.yields e = some id) :
    s.allocated id = true := by
  by_contra dead
  have unlinked := inv.gone id (Bool.not_eq_true _ ▸ dead)
  unfold Stack.yields at yields
  cases e with
  | packet flow => exact unlinked.table flow yields
  | connectCall | send | recv | close => cases yields
  | accept | handleClose | serveControl | serveSend | serveAck | rto | timewait | timeout =>
      dsimp only [links] at yields
      split at yields
      · rename_i linked
        obtain rfl := Option.some.inj yields
        exact unlinked.containers _ linked.1
      · cases yields

/-- One event. -/
theorem Inv.serve (inv : s.Inv) {e : StackEvent} {id : Nat} (yields : s.yields e = some id)
    (parting : s.Parting e) : (Stack.serve { s with on := s.dequeued e } id e).Inv := by
  have live := inv.yields_live yields
  have inv' := inv.dequeued e
  have on : ∀ q : Container, q.isTimer = true → id ∈ s.on q →
      (s.streams id).timerFlags.flag q = true := fun q timer within =>
    (inv.member id q timer).mpr within
  have loose : ∀ {why : Prop}, (why → s.dooms id e = true) → why → (s.dequeued e).Loose id :=
    fun dooms holds => (parting id yields (dooms holds)).1
  cases e with
  | packet flow env avail seg birth =>
      refine inv'.run live (Cx.processSegment_tracks env seg _) fun running destroyed => ?_
      obtain ⟨ended, quiet⟩ := Cx.processSegment_ends env seg _ rfl running destroyed
      obtain ⟨loose, posts⟩ := parting id yields ended
      refine ⟨loose, quiet fun lastAcked => ?_⟩
      have posts' : ((s.streams id).lastAckedBy seg &&
        ((s.streams id).resends seg && env.sendRoom)) = false := posts
      rwa [show (s.streams id).lastAckedBy seg = true from lastAcked, Bool.true_and] at posts'
  | accept => exact inv'
  | handleClose id' env =>
      refine inv'.ends live (Cx.handleCloseCall_ends env _) (loose fun why => ?_)
      have opened : (s.streams id).state ≠ .closed := why.2
      simp [Stack.dooms, show (s.streams id).haveReset = true from why.1, opened]
  | serveControl id' env avail =>
      exact inv'.spares live (Cx.writeTcpControlQueue_walks .sparing env _).spares
  | serveSend id' high env =>
      exact inv'.spares live (Cx.writeTcpSendQueue_walks .sparing env _).spares
  | serveAck id' env avail =>
      exact inv'.spares live (Cx.writeTcpAckQueue_walks .sparing env _).spares
  | rto id' env =>
      obtain ⟨⟨within, -⟩, rfl⟩ : (id' ∈ s.on .rtoList ∧ s.due (.rto id' env) = true) ∧ id' = id := by
        simpa [Stack.yields, links] using yields
      exact inv'.ends live (Cx.rtoListCheck_ends env _ (on .rtoList rfl within))
        (loose fun tries => decide_eq_true tries)
  | timewait id' curTs =>
      obtain ⟨⟨within, -⟩, rfl⟩ :
          (id' ∈ s.on .timewaitList ∧ s.due (.timewait id' curTs) = true) ∧ id' = id := by
        simpa [Stack.yields, links] using yields
      exact inv'.ends live (Cx.timewaitListCheck_ends _ (on .timewaitList rfl within))
        (loose fun _ => rfl)
  | timeout id' curTs =>
      obtain ⟨⟨within, -⟩, rfl⟩ :
          (id' ∈ s.on .timeoutList ∧ s.due (.timeout id' curTs) = true) ∧ id' = id := by
        simpa [Stack.yields, links] using yields
      exact inv'.ends live (Cx.timeoutListCheck_ends _ (on .timeoutList rfl within))
        (loose fun _ => rfl)
  | connectCall | send | recv | close => cases yields

/-- A call that finds no stream in a container. -/
theorem Inv.other (inv : s.Inv) (e : StackEvent) : (s.other e).Inv := by
  cases e with
  | packet flow env avail seg birth =>
      unfold Stack.other
      dsimp only
      split
      · rename_i opens
        have created := inv.create flow birth seg.seq opens.2.2
        have live : (s.tcpStreamCreate flow birth seg.seq).allocated birth.chunk = true :=
          Function.update_self _ _ _
        refine created.run live (Cx.passiveOpen_tracks env seg _) fun running destroyed => ?_
        have listen : ((s.tcpStreamCreate flow birth seg.seq).entry birth.chunk avail).st.state =
            .listen := by
          change (Function.update s.streams birth.chunk _ birth.chunk).state = _
          rw [Function.update_self]
          rfl
        rcases Cx.passiveOpen_view env seg _ listen opens.1 with halted | view
        · rw [running] at halted
          cases halted
        · rw [view] at destroyed
          cases destroyed
      · exact inv
  | connectCall flow env birth =>
      unfold Stack.other
      dsimp only
      split
      · rename_i free
        exact (inv.create flow birth 0 free).spares (Function.update_self _ _ _)
          (Cx.handleConnectCall_walks .sparing env _).spares
      · exact inv
  | send id env m len highPri =>
      unfold Stack.other
      dsimp only
      split
      · exact inv.spares ‹_› (Cx.qTcpSend_walks .sparing env _ m len highPri).spares
      · exact inv
  | recv id =>
      unfold Stack.other
      dsimp only
      split
      · exact inv.spares ‹_› (Cx.qRecv_walks .sparing {} _).spares
      · exact inv
  | close id room =>
      unfold Stack.other
      dsimp only
      split
      · rename_i live
        split
        · exact (inv.enqueue live .closeQueue rfl).spares live
            (Cx.tcpStreamClose_walks .sparing {} _).spares
        · exact inv.spares live (Cx.tcpStreamClose_walks .sparing {} _).spares
      · exact inv
  | accept | handleClose | serveControl | serveSend | serveAck | rto | timewait | timeout =>
      exact inv

theorem Inv.step (inv : s.Inv) {e : StackEvent} (parting : s.Parting e) : (s.step e).Inv := by
  unfold Stack.step
  split
  · exact inv
  · cases yields : s.yields e with
    | none => exact inv.other e
    | some id => exact inv.serve yields parting

theorem Inv.law (inv : s.Inv) : s.Law := ⟨inv.gone, fun _ _ yields => inv.yields_live yields⟩

end Step

/-- **No destroyed stream stays reachable**: over every run in which nothing is destroyed that is
on a queue, or put on one by the call that destroys it, a destroyed stream is in no container, and
none is ever taken from one. -/
theorem destroyed_unlinked (entries : Nat) (es : List StackEvent)
    (parting : Lib.Run.Allowed step Parting (init entries) es) :
    Lib.Run.Along step Law (init entries) es := by
  have along : Lib.Run.Along step Inv (init entries) es :=
    Lib.Run.along_of_step (fun _ _ inv parting => Inv.step inv parting) es _ (Inv.init entries)
      parting
  exact along.mono (fun _ inv => inv.law) es _

/-- A client connects; the application accepts in time, and the idle connection expires. -/
def acceptedRun : List StackEvent :=
  let flow : Flow := ⟨{ addr := 10, port := 80 }, { addr := 20, port := 4000 }⟩
  let birth : Birth := { chunk := 0, rcvbufSize := 4, sndbufSize := 4, iss := 100 }
  [.packet flow {} 0 { seq := 7000, syn := true, window := 65535 } birth,
   .serveControl 0 {} 1,
   .packet flow {} 0 { seq := 7001, ackSeq := 101, ack := true, window := 65535 } birth,
   .accept 0,
   .timeout 0 300000]

theorem destroyed_unlinked_accepted : Lib.Run.Along step Law (init 8) acceptedRun :=
  destroyed_unlinked 8 acceptedRun (by decide +kernel)

/-- The same connection, with an application that is busy for five minutes. -/
def lateRun : List StackEvent := acceptedRun.filter fun e => match e with
  | .accept _ => false
  | _ => true

/-- **The application accepts a destroyed stream.** -/
theorem accepted_destroyed :
    (Lib.Run.run step (init 8) lateRun).allocated 0 = false ∧
      (Lib.Run.run step (init 8) lateRun).yields (.accept 0) = some 0 ∧
      ¬ Law (Lib.Run.run step (init 8) lateRun) := by
  have destroyed : (Lib.Run.run step (init 8) lateRun).allocated 0 = false := by decide +kernel
  have yields : (Lib.Run.run step (init 8) lateRun).yields (.accept 0) = some 0 := by decide +kernel
  refine ⟨destroyed, yields, fun law => ?_⟩
  have live := law.live (.accept 0) 0 yields
  rw [destroyed] at live
  cases live

end Stack

end QStack
