/-
# QStack.TwoHosts -- the handshake of two hosts, whatever the wire does

One host connects to another that listens, and both run this stack.  The wire never forgets a
packet: it may deliver it late, out of order, any number of times, or not at all.  Everything else
that can happen to the streams happens in any order too: the application calls, the queues are
served, the timers expire.

A SYN that arrives when the listener has no stream of the connection makes a new one, so an old SYN
may make a second stream once the first is gone.  `TwoHosts` keeps them all.

The result is that the handshake agrees (`handshake_agrees`).  The side conditions that one side
alone needs (no bare ACK in SYN_SENT, no SYN without ACK there) follow from what the other side can
have sent.
-/
import QStack.Establish
import QStack.Emission

namespace QStack

set_option autoImplicit false

/-! ## One side -/

namespace Conn

/-- How far one side has come: it waits in `early`, it has given up, or it was opened once, with a
peer that is known to `peers`.  `ready` is what the receiving side is while it waits. -/
inductive Phase (n : Nat) (iss : Seq) (early : TcpState) (ready : RcvCore → Prop)
    (peers : Seq → Prop) (s : Conn) : Prop
  | halted (halted : s.view.halted = true)
  | waiting (handshaking : s.Handshaking n) (own : s.view.iss = iss)
      (state : s.view.state = early) (rcv : ready s.view.rcv) (opened : s.view.opened = [])
  | gone (state : s.view.state = .closed) (opened : s.view.opened = [])
  | once (late : s.Late) (st : TcpStream) (opened : s.view.opened = [st]) (own : st.iss = iss)
      (peer : Seq) (known : peers peer) (synchronized : Synchronized peer st)

section Phases

variable {n : Nat} {iss : Seq} {early : TcpState} {ready : RcvCore → Prop} {peers : Seq → Prop}
  {s : Conn} {e : ConnEvent}

theorem alive_of_running (running : ¬ s.ended = true) : s.view.halted = false := by
  cases halted : s.view.halted with
  | true => exact absurd (ended_of_halted halted) running
  | false => rfl

theorem Phase.mono {peers' : Seq → Prop} (phase : Phase n iss early ready peers s)
    (more : ∀ peer, peers peer → peers' peer) : Phase n iss early ready peers' s := by
  cases phase with
  | halted halted => exact .halted halted
  | waiting handshaking own state rcv opened => exact .waiting handshaking own state rcv opened
  | gone state opened => exact .gone state opened
  | once late st opened own peer known synchronized =>
      exact .once late st opened own peer (more peer known) synchronized

/-- Once the handshake is over, no call opens the stream again. -/
theorem gone_serve (state : s.view.state = .closed) (opened : s.view.opened = []) :
    Phase n iss early ready peers (s.serve e) := by
  rcases serve_move s e with halted | move
  · exact .halted halted
  · obtain ⟨same, -, -⟩ := Late.move (.inr (.inr state)) move
    refine .gone ?_ (same.trans opened)
    have closed : s.st.state = .closed := state
    rcases move.goes with stays | edge
    · exact stays.trans closed
    · generalize (s.serve e).view.state = now at edge ⊢
      generalize e.call = call at edge
      cases edge with
      | ends => rfl
      | listened from_ | simultaneous from_ | answered from_ | rstAnswered from_ | opened from_
      | peerCloses from_ | bothClose from_ | finAcked from_ | peerFollows from_
      | closingAcked from_ | closes from_ | closesLast from_ =>
          rw [closed] at from_
          cases from_

theorem once_serve (late : s.Late) {st : TcpStream} (opened : s.view.opened = [st])
    (own : st.iss = iss) {peer : Seq} (known : peers peer) (synchronized : Synchronized peer st) :
    Phase n iss early ready peers (s.serve e) := by
  rcases serve_move s e with halted | move
  · exact .halted halted
  · obtain ⟨same, -, group⟩ := late.move move
    exact .once group st (same.trans opened) own peer known synchronized

/-- A stream that is still in a state of the handshake waits as before. -/
theorem Handshaking.stays (inv : s.Handshaking n) (full : s.NoBareAck e)
    (now : (s.serve e).view.state = .synSent ∨ (s.serve e).view.state = .synRcvd) :
    (s.serve e).view.halted = true ∨ (s.serve e).Handshaking n := by
  have open_ : ¬ ((s.serve e).view.state.isOpen = true ∨ (s.serve e).view.state = .closed) := by
    rcases now with now | now
    · rw [now]
      decide
    · rw [now]
      decide
  rcases inv.serve full with halted | handshaking | ⟨-, closed, -⟩ | ⟨-, opened, -⟩
  · exact .inl halted
  · exact .inr handshaking
  · exact absurd (.inr closed) open_
  · exact absurd opened.state open_

/-- A stream that stays where it is in the handshake. -/
theorem Phase.of_stays (inv : s.Handshaking n) (full : s.NoBareAck e)
    (move : Move s e.call (s.serve e).view) (own : s.view.iss = iss)
    (hand : early = .synSent ∨ early = .synRcvd) (state : (s.serve e).view.state = early)
    (rcv : ready (s.serve e).view.rcv) (opened : (s.serve e).view.opened = []) :
    Phase n iss early ready peers (s.serve e) := by
  rcases inv.stays full (by rw [state]; exact hand) with halted | handshaking
  · exact .halted halted
  · exact .waiting handshaking (move.iss.trans own) state rcv opened

/-- A segment that opens the stream does so once, for the peer that the stream is ready for. -/
theorem syn_opens (inv : s.view.Handshaking n) (opened : s.view.opened = []) {seg : Segment}
    {v : View} (peer : Seq) (move : SynMove s.st seg s.view v) (enters : v.opened ≠ s.view.opened)
    (fromSent : s.st.state = .synSent → seg.syn = true → peer = seg.seq)
    (fromRcvd : s.st.state = .synRcvd → peer = s.view.rcv.irs) :
    ∃ st, v.opened = [st] ∧ st.iss = s.view.iss ∧ Synchronized peer st ∧
      (v.state.isOpen = true ∨ v.state = .closed) := by
  obtain ⟨st, -, -, -, log, synchronized⟩ :=
    syn_synchronizes inv peer move (.inl enters) fromSent fromRcvd
  have one : v.opened = [st] := by rw [log, opened]
  cases move with
  | same | listened | refused | rstAcked | bareAcked | simultaneous | noAck =>
      exact absurd rfl enters
  | synAcked st' from_ accepts kept syn core =>
      obtain rfl : st' = st := (List.cons.inj log).1
      exact ⟨st', one, congrArg Core.iss core, synchronized, .inl rfl⟩
  | acked st' k r from_ ack exact_ core rcv after =>
      obtain rfl : st' = st := (List.cons.inj log).1
      obtain ⟨state, group, same⟩ := after
      have now : k.state = state := by
        rcases same with rfl | ⟨fast, rfl⟩ <;> rfl
      refine ⟨st', one, congrArg Core.iss core, synchronized, ?_⟩
      show k.state.isOpen = true ∨ k.state = .closed
      rwa [now]

theorem Phase.of_opens (own : s.view.iss = iss) {peer : Seq} (known : peers peer)
    (opens : ∃ st, (s.serve e).view.opened = [st] ∧ st.iss = s.view.iss ∧ Synchronized peer st ∧
      ((s.serve e).view.state.isOpen = true ∨ (s.serve e).view.state = .closed)) :
    Phase n iss early ready peers (s.serve e) := by
  obtain ⟨st, opened, stIss, synchronized, state⟩ := opens
  exact .once (state.imp_right .inr) st opened (stIss.trans own) peer known synchronized

/-- The rule for a run: what remains is a stream that waits. -/
theorem Phase.step (phase : Phase n iss early ready peers s)
    (waits : s.view.halted = false → s.Handshaking n → s.view.iss = iss → s.view.state = early →
      ready s.view.rcv → s.view.opened = [] → Move s e.call (s.serve e).view →
      Phase n iss early ready peers (s.serve e)) :
    Phase n iss early ready peers (s.step e) := by
  unfold Conn.step
  split
  · exact phase
  · rename_i running
    have alive := alive_of_running running
    cases phase with
    | halted halted =>
        rw [alive] at halted
        cases halted
    | gone state opened => exact gone_serve state opened
    | once late st opened own peer known synchronized =>
        exact once_serve late opened own known synchronized
    | waiting handshaking own state rcv opened =>
        rcases serve_move s e with halted | move
        · exact .halted halted
        · exact waits alive handshaking own state rcv opened move

/-! ### Packets -/

theorem step_packets {p : Packet} (inside : p ∈ (s.step e).cx.packets) :
    p ∈ s.cx.packets ∨ (s.view.halted = false ∧ s.st.Sends p) := by
  unfold Conn.step at inside
  split at inside
  · exact .inl inside
  · rename_i running
    obtain ⟨new, packets, sends⟩ := serve_sends s e
    rw [packets] at inside
    rcases List.mem_append.mp inside with now | before
    · exact .inr ⟨alive_of_running running, sends p now⟩
    · exact .inl before

theorem not_sends_closed {p : Packet} (state : s.view.state = .closed) : ¬ s.st.Sends p := by
  rw [TcpStream.Sends, show s.st.state = .closed from state]
  exact id

theorem late_sends (late : s.Late) {p : Packet} (sends : s.st.Sends p) : s.st.Acks p := by
  unfold TcpStream.Sends at sends
  have group : s.st.state.isOpen = true ∨ s.st.state.isFin = true ∨ s.st.state = .closed := late
  cases state : s.st.state with
  | established | closeWait | finWait1 | finWait2 | closing | lastAck | timeWait =>
      rw [state] at sends
      exact sends
  | closed =>
      rw [state] at sends
      exact sends.elim
  | synSent | synRcvd | listen =>
      rw [state] at group
      rcases group with now | now | now <;> cases now

/-- A stream that was opened stays so, unless its process ends. -/
theorem Phase.stays_open (phase : Phase n iss early ready peers s)
    (opened : s.view.halted = true ∨ s.view.opened ≠ []) :
    (s.step e).view.halted = true ∨ (s.step e).view.opened ≠ [] := by
  unfold Conn.step
  split
  · exact opened
  · rename_i running
    cases phase with
    | halted halted => exact absurd (ended_of_halted halted) running
    | waiting _ _ _ _ none =>
        rcases opened with halted | some
        · exact absurd (ended_of_halted halted) running
        · exact absurd none some
    | gone _ none =>
        rcases opened with halted | some
        · exact absurd (ended_of_halted halted) running
        · exact absurd none some
    | once late st one =>
        refine (serve_move s e).imp_right fun move => ?_
        rw [(late.move move).1, one]
        exact List.cons_ne_nil st []

end Phases

/-! ### The client -/

/-- The client waits in SYN_SENT, for any of the servers. -/
abbrev Asking (n : Nat) (iss : Seq) (peers : Seq → Prop) (s : Conn) : Prop :=
  Phase n iss .synSent (fun _ => True) peers s

/-- An answer to a SYN, from one of the servers. -/
structure Answer (peers : Seq → Prop) (seg : Segment) : Prop where
  syn : seg.syn = true
  ack : seg.ack = true
  rst : seg.rst = false
  known : peers seg.seq

theorem Asking.step {n : Nat} {iss : Seq} {peers : Seq → Prop} {s : Conn} {e : ConnEvent}
    (phase : s.Asking n iss peers)
    (answers : s.view.halted = false → s.view.opened = [] → ∀ seg, e.call = .packet seg →
      Answer peers seg) :
    (s.step e).Asking n iss peers := by
  refine Phase.step phase fun alive inv own state _ opened move => ?_
  have full : s.NoBareAck e := by
    rintro seg call ⟨-, -, bare, -⟩
    rw [(answers alive opened seg call).syn] at bare
    cases bare
  have other : ∀ {state' : TcpState}, s.st.state = state' → state' = .synSent :=
    fun from_ => from_.symm.trans state
  rcases handshake_moves inv move with ⟨seg, call, synMove⟩ | ⟨same, -, stays | closed⟩
  · obtain ⟨syn, ack, rst, known⟩ := answers alive opened seg call
    by_cases enters : (s.serve e).view.opened = s.view.opened
    · generalize view : (s.serve e).view = v at synMove enters
      cases synMove with
      | same =>
          refine Phase.of_stays inv full move own (.inl rfl) ?_ trivial ?_
          · rw [view]
            exact state
          · rw [view]
            exact opened
      | listened _ from_ =>
          rcases from_ with from_ | from_ <;> cases other from_
      | refused from_ | noAck from_ | acked _ _ _ from_ => cases other from_
      | rstAcked _ _ _ reset =>
          rw [rst] at reset
          cases reset
      | bareAcked _ _ _ bare =>
          rw [syn] at bare
          cases bare
      | simultaneous _ _ noAck =>
          rw [ack] at noAck
          cases noAck
      | synAcked st => exact absurd enters (List.cons_ne_self st _)
    · exact .of_opens own known (syn_opens inv.view opened seg.seq synMove enters
        (fun _ _ => rfl) fun from_ => absurd (other from_) (by decide))
  · exact Phase.of_stays inv full move own (.inl rfl) (stays.trans state) trivial
      (same.trans opened)
  · exact .gone closed (same.trans opened)

/-- What the client sends: its SYN until it is opened, and acknowledgements from then on. -/
theorem Asking.sends {n : Nat} {iss : Seq} {peers : Seq → Prop} {s : Conn} {p : Packet}
    (phase : s.Asking n iss peers) (alive : s.view.halted = false) (sends : s.st.Sends p) :
    p.rst = false ∧ ((p.syn = true ∧ p.ack = false ∧ p.seq = iss) ∨
      (p.syn = false ∧ s.view.opened ≠ [])) := by
  cases phase with
  | halted halted =>
      rw [alive] at halted
      cases halted
  | gone state => exact (not_sends_closed state sends).elim
  | once late st opened =>
      obtain ⟨rst, plain, -⟩ := late_sends late sends
      exact ⟨rst, .inr ⟨plain, by rw [opened]; exact List.cons_ne_nil st []⟩⟩
  | waiting inv own state =>
      rw [TcpStream.Sends, show s.st.state = .synSent from state] at sends
      obtain ⟨queued, rst, syn, noAck, seq⟩ := sends
      exact ⟨rst, .inl ⟨syn, noAck, (seq.trans ((inv.idle state).2.2 queued)).trans own⟩⟩

/-! ### A server -/

/-- The server waits in SYN_RCVD, for the client that starts at `peer`. -/
abbrev Answering (n : Nat) (iss peer : Seq) (s : Conn) : Prop :=
  Phase n iss .synRcvd (fun r => r.irs = peer ∧ r.rcvNxt = peer + 1) (· = peer) s

theorem Answering.step {n : Nat} {iss peer : Seq} {s : Conn} {e : ConnEvent}
    (phase : s.Answering n iss peer) : (s.step e).Answering n iss peer := by
  refine Phase.step phase fun _ inv own state rcv opened move => ?_
  have other : ∀ {state' : TcpState}, s.st.state = state' → state' = .synRcvd :=
    fun from_ => from_.symm.trans state
  have full : s.NoBareAck e := by
    rintro seg call ⟨from_, -⟩
    cases other from_
  have stays : (s.serve e).view.state = .synRcvd → (s.serve e).view.rcv = s.view.rcv →
      (s.serve e).view.opened = s.view.opened → (s.serve e).Answering n iss peer := by
    intro now same log
    exact Phase.of_stays inv full move own (.inr rfl) now (by rw [same]; exact rcv)
      (log.trans opened)
  rcases handshake_moves inv move with ⟨seg, call, synMove⟩ | ⟨log, same, still | closed⟩
  · by_cases enters : (s.serve e).view.opened = s.view.opened
    · generalize view : (s.serve e).view = v at synMove enters stays
      cases synMove with
      | same => exact stays state rfl rfl
      | listened =>
          refine stays rfl ?_ rfl
          show ({ s.st.rcvCore with rcvNxt := _ } : RcvCore) = s.st.rcvCore
          rw [if_neg (by rw [show s.st.state = .synRcvd from state]; decide)]
          rfl
      | noAck => exact stays state rfl rfl
      | refused => exact .gone (by rw [view]; rfl) (by rw [view]; exact opened)
      | rstAcked _ from_ | bareAcked from_ | synAcked _ from_ | simultaneous from_ =>
          cases other from_
      | acked st => exact absurd enters (List.cons_ne_self st _)
    · exact .of_opens own rfl (syn_opens inv.view opened peer synMove enters
        (fun from_ => absurd (other from_) (by decide)) fun _ => rcv.1.symm)
  · exact stays (still.trans state) same log
  · exact .gone closed (log.trans opened)

/-- What a server sends: the answer to the SYN until it is opened, and acknowledgements from then
on. -/
theorem Answering.sends {n : Nat} {iss peer : Seq} {s : Conn} {p : Packet}
    (phase : s.Answering n iss peer) (alive : s.view.halted = false) (sends : s.st.Sends p) :
    p.rst = false ∧ ((p.syn = true ∧ p.ack = true ∧ p.seq = iss ∧ p.ackSeq = peer + 1) ∨
      (p.syn = false ∧ s.view.opened ≠ [])) := by
  cases phase with
  | halted halted =>
      rw [alive] at halted
      cases halted
  | gone state => exact (not_sends_closed state sends).elim
  | once late st opened =>
      obtain ⟨rst, plain, -⟩ := late_sends late sends
      exact ⟨rst, .inr ⟨plain, by rw [opened]; exact List.cons_ne_nil st []⟩⟩
  | waiting inv own state rcv =>
      rw [TcpStream.Sends, show s.st.state = .synRcvd from state] at sends
      obtain ⟨rst, syn, ack, seq, acked⟩ := sends
      exact ⟨rst, .inl ⟨syn, ack, seq.trans own, acked.trans rcv.2⟩⟩

/-- Only an acknowledgement opens a server. -/
theorem Answering.opens {n : Nat} {iss peer : Seq} {s : Conn} {e : ConnEvent}
    (phase : s.Answering n iss peer) (alive : (s.step e).view.halted = false)
    (opened : (s.step e).view.opened ≠ []) :
    (s.view.halted = false ∧ s.view.opened ≠ []) ∨
      ∃ seg, e.call = .packet seg ∧ seg.ack = true := by
  unfold Conn.step at alive opened
  split at opened
  · rename_i stopped
    rw [if_pos stopped] at alive
    exact .inl ⟨alive, opened⟩
  · rename_i running
    rw [if_neg running] at alive
    have before := alive_of_running running
    have move := (serve_move s e).resolve_left (by rw [alive]; decide)
    cases phase with
    | halted halted =>
        rw [before] at halted
        cases halted
    | gone state =>
        rw [(Late.move (.inr (.inr state)) move).1] at opened
        exact .inl ⟨before, opened⟩
    | once late =>
        rw [(late.move move).1] at opened
        exact .inl ⟨before, opened⟩
    | waiting inv own state rcv none =>
        rcases handshake_moves inv move with ⟨seg, call, synMove⟩ | ⟨same, -⟩
        · refine .inr ⟨seg, call, ?_⟩
          generalize (s.serve e).view = v at synMove opened
          cases synMove with
          | same | listened | refused | rstAcked | bareAcked | simultaneous | noAck =>
              exact absurd none opened
          | synAcked _ from_ =>
              rw [show s.st.state = .synRcvd from state] at from_
              cases from_
          | acked _ _ _ _ ack => exact ack
        · rw [same] at opened
          exact .inl ⟨before, opened⟩

end Conn

/-! ## The system -/

/-- A stream that the listener created, and its own initial sequence number. -/
structure Incarnation where
  iss : Seq
  conn : Conn

structure TwoHosts where
  client : Conn
  /-- the streams of the listener, the latest first -/
  servers : List Incarnation := []
  /-- the process has ended over a segment without a stream -/
  clientDown : Bool := false
  serverDown : Bool := false

/-- What `process_tcp_packet` does with a segment that finds no stream; an RST is not sent, since
`send_tcp_packet_standalone` exits. -/
inductive Stray where
  | dropped | opens | exits

def stray (listens : Bool) (seg : Segment) : Stray :=
  if !seg.syn then .dropped
  else if !seg.ack then if listens then .opens else .exits
  else if seg.rst then .dropped
  else .exits

def ConnCall.isPacket : ConnCall → Bool
  | .packet _ => true
  | _ => false

/-- The segment that the peer's driver makes of a packet; the options, the mbuf and its number are
its own. -/
def Packet.carried (p : Packet) (rest : Segment) : Segment :=
  { rest with
    seq := p.seq, ackSeq := p.ackSeq, syn := p.syn, fin := p.fin, rst := p.rst, ack := p.ack
    window := p.window, payloadLen := p.payloadLen }

namespace TwoHosts

inductive Event where
  /-- anything that can happen to the client but a segment -/
  | client (e : ConnEvent)
  /-- anything that can happen to the latest server stream but a segment -/
  | server (e : ConnEvent)
  /-- packet `k` of those sent to the client arrives -/
  | toClient (k : Nat) (rest : Segment) (env : Env) (avail : Nat)
  /-- packet `k` of those sent to the server arrives; `rand()` would return `iss` -/
  | toServer (k : Nat) (rest : Segment) (env : Env) (avail : Nat) (iss : Seq)

section Steps

variable (rcvbufSize sndbufSize : Nat)

/-- The packets that were sent to the client, by any server stream. -/
def answers (t : TwoHosts) : List Packet := t.servers.flatMap fun i => i.conn.cx.packets

def clientRuns (t : TwoHosts) : Bool := !t.clientDown && !t.client.view.halted

def serverRuns (t : TwoHosts) : Bool :=
  !t.serverDown && t.servers.all fun i => !i.conn.view.halted

/-- Something happens to the latest stream of the server. -/
def serve (t : TwoHosts) (e : ConnEvent) : TwoHosts :=
  match t.servers with
  | [] => t
  | i :: older => { t with servers := { i with conn := i.conn.step e } :: older }

/-- The latest stream of the server is in the flow table. -/
def found (t : TwoHosts) : Bool :=
  match t.servers with
  | [] => false
  | i :: _ => !i.conn.view.destroyed

/-- A segment that finds no stream arrives at the server. -/
def arrive (t : TwoHosts) (env : Env) (seg : Segment) (iss : Seq) : TwoHosts :=
  match stray true seg with
  | .dropped => t
  | .opens =>
      { t with servers := ⟨iss, Conn.passive rcvbufSize sndbufSize iss env seg⟩ :: t.servers }
  | .exits => { t with serverDown := true }

def step (t : TwoHosts) : Event → TwoHosts
  | .client e =>
      if t.clientRuns && !e.call.isPacket then { t with client := t.client.step e } else t
  | .server e => if t.serverRuns && !e.call.isPacket then t.serve e else t
  | .toClient k rest env avail =>
      match t.answers[k]? with
      | some p =>
          let seg := p.carried rest
          if !t.clientRuns then t
          else if t.client.view.destroyed then
            match stray false seg with
            | .dropped => t
            | _ => { t with clientDown := true }
          else { t with client := t.client.step ⟨.packet seg, env, avail⟩ }
      | none => t
  | .toServer k rest env avail iss =>
      match t.client.cx.packets[k]? with
      | some p =>
          let seg := p.carried rest
          if !t.serverRuns then t
          else if t.found then t.serve ⟨.packet seg, env, avail⟩
          else t.arrive rcvbufSize sndbufSize env seg iss
      | none => t

end Steps

/-- The client has been opened, or its process is gone. -/
def Opened (t : TwoHosts) : Prop := t.client.view.halted = true ∨ t.client.view.opened ≠ []

/-- The initial sequence numbers of the servers. -/
def Serves (t : TwoHosts) (peer : Seq) : Prop := ∃ i ∈ t.servers, i.iss = peer

/-- What is known of a server stream: it answers the client, and it is opened only after it. -/
structure Answered (n : Nat) (iss : Seq) (opened : Prop) (i : Incarnation) : Prop where
  phase : i.conn.Answering n i.iss iss
  sent : ∀ p ∈ i.conn.cx.packets, p.rst = false ∧
    (p.syn = true → p.ack = true ∧ p.seq = i.iss ∧ p.ackSeq = iss + 1) ∧
    (p.syn = false → opened)
  after : i.conn.view.halted = false → i.conn.view.opened ≠ [] → opened

/-- The invariant of a run of a client that starts at `iss`. -/
structure Inv (n : Nat) (iss : Seq) (t : TwoHosts) : Prop where
  client : t.client.Asking n iss t.Serves
  asked : ∀ p ∈ t.client.cx.packets, p.rst = false ∧
    (p.syn = true → p.ack = false ∧ p.seq = iss) ∧ (p.syn = false → t.Opened)
  servers : ∀ i ∈ t.servers, Answered n iss t.Opened i

section Invariant

variable {n : Nat} {iss : Seq} {t : TwoHosts}

theorem Answered.mono {opened opened' : Prop} {i : Incarnation} (answered : Answered n iss opened i)
    (later : opened → opened') : Answered n iss opened' i where
  phase := answered.phase
  sent := fun p inside => by
    obtain ⟨rst, syn, plain⟩ := answered.sent p inside
    exact ⟨rst, syn, fun ack => later (plain ack)⟩
  after := fun alive opened => later (answered.after alive opened)

/-- A segment that carries a packet of a server answers a client that waits. -/
theorem Inv.answer (inv : Inv n iss t) {p : Packet} (sent : p ∈ t.answers) (rest : Segment)
    (closed : ¬ t.Opened) : Conn.Answer t.Serves (p.carried rest) := by
  obtain ⟨i, inside, from_⟩ := List.mem_flatMap.mp sent
  obtain ⟨rst, syn, plain⟩ := (inv.servers i inside).sent p from_
  cases isSyn : p.syn with
  | false => exact absurd (plain isSyn) closed
  | true =>
      obtain ⟨ack, seq, -⟩ := syn isSyn
      exact ⟨isSyn, ack, rst, i, inside, seq.symm⟩

/-- The client takes a step. -/
theorem Inv.client_step (inv : Inv n iss t) {e : ConnEvent}
    (answers : ¬ t.Opened → ∀ seg, e.call = .packet seg → Conn.Answer t.Serves seg) :
    Inv n iss { t with client := t.client.step e } := by
  have phase : (t.client.step e).Asking n iss t.Serves := by
    refine inv.client.step fun alive opened => answers ?_
    rintro (halted | some)
    · rw [alive] at halted
      cases halted
    · exact some opened
  have later : t.Opened → TwoHosts.Opened { t with client := t.client.step e } :=
    inv.client.stays_open
  refine ⟨phase, fun p inside => ?_, fun i inside => (inv.servers i inside).mono later⟩
  rcases Conn.step_packets inside with before | ⟨alive, sends⟩
  · obtain ⟨rst, syn, plain⟩ := inv.asked p before
    exact ⟨rst, syn, fun ack => later (plain ack)⟩
  · obtain ⟨rst, ⟨syn, noAck, seq⟩ | ⟨plain, opened⟩⟩ := inv.client.sends alive sends
    · refine ⟨rst, fun _ => ⟨noAck, seq⟩, fun plain => ?_⟩
      rw [syn] at plain
      cases plain
    · refine ⟨rst, fun syn => ?_, fun _ => later (.inr opened)⟩
      rw [plain] at syn
      cases syn

/-- The latest server stream takes a step; a segment that acknowledges was sent by a client that
has been opened. -/
theorem Inv.serve (inv : Inv n iss t) {e : ConnEvent}
    (acked : ∀ seg, e.call = .packet seg → seg.ack = true → t.Opened) :
    Inv n iss (t.serve e) := by
  unfold TwoHosts.serve
  split
  · exact inv
  · rename_i i older servers
    have known : ∀ peer, t.Serves peer →
        TwoHosts.Serves { t with servers := { i with conn := i.conn.step e } :: older } peer := by
      rintro peer ⟨j, inside, rfl⟩
      rw [servers] at inside
      rcases List.mem_cons.mp inside with rfl | old
      · exact ⟨_, List.mem_cons_self, rfl⟩
      · exact ⟨j, .tail _ old, rfl⟩
    refine ⟨inv.client.mono known, inv.asked, fun j inside => ?_⟩
    rcases List.mem_cons.mp inside with rfl | old
    · have answered := inv.servers i (by rw [servers]; exact List.mem_cons_self)
      refine ⟨answered.phase.step, fun p inside => ?_, fun alive opened => ?_⟩
      · rcases Conn.step_packets inside with before | ⟨alive, sends⟩
        · exact answered.sent p before
        · obtain ⟨rst, ⟨syn, own⟩ | ⟨plain, opened⟩⟩ := answered.phase.sends alive sends
          · refine ⟨rst, fun _ => own, fun plain => ?_⟩
            rw [syn] at plain
            cases plain
          · refine ⟨rst, fun syn => ?_, fun _ => answered.after alive opened⟩
            rw [plain] at syn
            cases syn
      · rcases answered.phase.opens alive opened with ⟨before, some⟩ | ⟨seg, call, ack⟩
        · exact answered.after before some
        · exact acked seg call ack
    · exact inv.servers j (by rw [servers]; exact .tail _ old)

/-- A stream that a SYN of the client has just created. -/
theorem passive_answered (rcvbufSize : Nat) (peer : Seq) (env : Env) {seg : Segment}
    (syn : seg.syn = true) (noAck : seg.ack = false) (seq : seg.seq = iss) (opened : Prop) :
    Answered n iss opened ⟨peer, Conn.passive rcvbufSize n peer env seg⟩ := by
  have silent : (Conn.passive rcvbufSize n peer env seg).cx.packets = [] :=
    Cx.packets_passiveOpen env seg _
  have born := (Conn.Start.passive rcvbufSize peer env seg syn noAck).handshaking (n := n)
  have created :=
    Cx.passiveOpen_view env seg { st := tcpStreamCreate rcvbufSize n seg.seq peer } rfl syn
  change (Conn.passive rcvbufSize n peer env seg).view.halted = true ∨
    (Conn.passive rcvbufSize n peer env seg).view = _ at created
  have none : (Conn.passive rcvbufSize n peer env seg).view.halted = true ∨
      (Conn.passive rcvbufSize n peer env seg).view.opened = [] :=
    created.imp_right fun view => by rw [view]; rfl
  refine ⟨?_, fun p inside => ?_, fun alive some => ?_⟩
  · rcases created with halted | view
    · exact .halted halted
    · rcases born with halted | handshaking
      · exact .halted halted
      · refine .waiting handshaking ?_ ?_ ⟨?_, ?_⟩ ?_
        · rw [view]
          rfl
        · rw [view]
          rfl
        · rw [view]
          exact seq
        · rw [view]
          exact congrArg (· + 1) seq
        · rw [view]
          rfl
  · rw [silent] at inside
    cases inside
  · rcases none with halted | none
    · rw [alive] at halted
      cases halted
    · exact absurd none some

theorem Inv.arrive (inv : Inv n iss t) (rcvbufSize : Nat) {p : Packet}
    (sent : p ∈ t.client.cx.packets) (rest : Segment) (env : Env) (peer : Seq) :
    Inv n iss (t.arrive rcvbufSize n env (p.carried rest) peer) := by
  unfold TwoHosts.arrive stray
  split
  · exact inv
  · rename_i opens
    have syn : p.syn = true := by
      cases isSyn : p.syn with
      | true => rfl
      | false => simp [Packet.carried, isSyn] at opens
    obtain ⟨noAck, seq⟩ := (inv.asked p sent).2.1 syn
    have known : ∀ peer', t.Serves peer' → TwoHosts.Serves { t with servers :=
        ⟨peer, Conn.passive rcvbufSize n peer env (p.carried rest)⟩ :: t.servers } peer' :=
      fun _ ⟨i, inside, same⟩ => ⟨i, .tail _ inside, same⟩
    refine ⟨inv.client.mono known, inv.asked, fun i inside => ?_⟩
    rcases List.mem_cons.mp inside with rfl | old
    · exact passive_answered rcvbufSize peer env syn noAck seq _
    · exact inv.servers i old
  · exact ⟨inv.client, inv.asked, inv.servers⟩

theorem Inv.step (rcvbufSize : Nat) (t : TwoHosts) (e : Event) (inv : Inv n iss t) :
    Inv n iss (t.step rcvbufSize n e) := by
  cases e with
  | client e =>
      rw [TwoHosts.step]
      split
      · rename_i other
        refine inv.client_step fun _ seg call => ?_
        rw [call] at other
        simp [ConnCall.isPacket] at other
      · exact inv
  | server e =>
      rw [TwoHosts.step]
      split
      · rename_i other
        refine inv.serve fun seg call => ?_
        rw [call] at other
        simp [ConnCall.isPacket] at other
      · exact inv
  | toClient k rest env avail =>
      rw [TwoHosts.step]
      split
      · rename_i p found
        dsimp only
        split
        · exact inv
        · split
          · split
            · exact inv
            · exact ⟨inv.client, inv.asked, inv.servers⟩
          · refine inv.client_step fun closed seg call => ?_
            cases call
            exact inv.answer (List.mem_of_getElem? found) rest closed
      · exact inv
  | toServer k rest env avail peer =>
      rw [TwoHosts.step]
      split
      · rename_i p found
        have sent := List.mem_of_getElem? found
        dsimp only
        split
        · exact inv
        · split
          · refine inv.serve fun seg call ack => ?_
            cases call
            obtain ⟨-, syn, plain⟩ := inv.asked p sent
            cases isSyn : p.syn with
            | false => exact plain isSyn
            | true =>
                rw [show p.ack = true from ack] at syn
                cases (syn isSyn).1
          · exact inv.arrive rcvbufSize sent rest env peer
      · exact inv

/-- A client after the connect call, and a listener. -/
def start (rcvbufSize sndbufSize : Nat) (iss : Seq) (env : Env) : TwoHosts :=
  { client := Conn.active rcvbufSize sndbufSize iss env }

theorem Inv.start (rcvbufSize n : Nat) (iss : Seq) (env : Env) :
    Inv n iss (start rcvbufSize n iss env) := by
  have view : (Conn.active rcvbufSize n iss env).view =
      (Cx.modify { st := tcpStreamCreate rcvbufSize n 0 iss } fun s => { s with
        cwnd := 1, ssthresh := BitVec.ofNat 32 (s.mss * 10), state := .synSent }).view :=
    Cx.view_controlQueueAdd env _
  have silent : (Conn.active rcvbufSize n iss env).cx.packets = [] :=
    Cx.packets_handleConnectCall env _
  refine ⟨?_, fun p inside => ?_, fun i inside => absurd inside List.not_mem_nil⟩
  · have begins : Conn.Start n (Conn.active rcvbufSize n iss env) := .active rcvbufSize iss env
    rcases begins.handshaking with halted | handshaking
    · exact .halted halted
    · refine .waiting handshaking ?_ ?_ trivial ?_
      · change (Conn.active rcvbufSize n iss env).view.iss = iss
        rw [view]
        rfl
      · change (Conn.active rcvbufSize n iss env).view.state = .synSent
        rw [view]
        rfl
      · change (Conn.active rcvbufSize n iss env).view.opened = []
        rw [view]
        rfl
  · rw [TwoHosts.start, silent] at inside
    cases inside

end Invariant

/-- What the two hosts know of each other: each side is opened at most once, the client with the
initial sequence numbers of itself and of one of the servers, a server with its own and the
client's, and not before the client. -/
structure Agree (iss : Seq) (t : TwoHosts) : Prop where
  client : t.client.view.halted = true ∨ t.client.view.opened = [] ∨
    ∃ st, t.client.view.opened = [st] ∧ st.iss = iss ∧ ∃ i ∈ t.servers, Conn.Synchronized i.iss st
  servers : ∀ i ∈ t.servers, i.conn.view.halted = true ∨ i.conn.view.opened = [] ∨
    ∃ st, i.conn.view.opened = [st] ∧ st.iss = i.iss ∧ Conn.Synchronized iss st ∧ t.Opened

theorem Inv.agree {n : Nat} {iss : Seq} (t : TwoHosts) (inv : Inv n iss t) : Agree iss t := by
  refine ⟨?_, fun i inside => ?_⟩
  · cases inv.client with
    | halted halted => exact .inl halted
    | waiting _ _ _ _ opened => exact .inr (.inl opened)
    | gone _ opened => exact .inr (.inl opened)
    | once _ st opened own peer known synchronized =>
        obtain ⟨i, inside, rfl⟩ := known
        exact .inr (.inr ⟨st, opened, own, i, inside, synchronized⟩)
  · obtain ⟨phase, -, after⟩ := inv.servers i inside
    cases phase with
    | halted halted => exact .inl halted
    | waiting _ _ _ _ opened => exact .inr (.inl opened)
    | gone _ opened => exact .inr (.inl opened)
    | once _ st opened own peer known synchronized =>
        subst known
        cases alive : i.conn.view.halted with
        | true => exact .inl rfl
        | false =>
            refine .inr (.inr ⟨st, opened, own, synchronized, after alive ?_⟩)
            rw [opened]
            exact List.cons_ne_nil st []

/-- **The handshake agrees.**  In every run of the two hosts, whatever the wire loses, repeats,
delays or reorders and however many streams the listener creates, whoever is opened is opened once
and knows the initial sequence number of the other side, and a server is opened only after the
client. -/
theorem handshake_agrees (rcvbufSize sndbufSize : Nat) (iss : Seq) (env : Env)
    (events : List Event) :
    Lib.Run.Along (step rcvbufSize sndbufSize) (Agree iss)
      (start rcvbufSize sndbufSize iss env) events := by
  have kept : ∀ t e, Inv sndbufSize iss t → True →
      Inv sndbufSize iss (step rcvbufSize sndbufSize t e) :=
    fun t e inv _ => inv.step rcvbufSize t e
  have along := Lib.Run.along_of_step kept events _ (Inv.start rcvbufSize sndbufSize iss env)
    (Lib.Run.allowed_always events _)
  exact Lib.Run.Along.mono Inv.agree events _ along

/-- The SYN arrives twice, and everybody is opened. -/
def threeWay : List Event :=
  [.client { call := .serveControl, avail := 1 }, .toServer 0 { seq := 0 } {} 0 7000,
   .toServer 0 { seq := 0 } {} 0 8000, .server { call := .serveControl, avail := 1 },
   .toClient 0 { seq := 0 } {} 0, .client { call := .serveControl, avail := 1 },
   .toServer 0 { seq := 0 } {} 0 9000]

example :
    let t := Lib.Run.run (step 4 4) (start 4 4 100 {}) threeWay
    (t.client.view.opened.map TcpStream.rcvNxt, t.servers.map fun i =>
      i.conn.view.opened.map TcpStream.rcvNxt) = ([7001], [[101]]) := by
  decide +kernel

end TwoHosts

end QStack
