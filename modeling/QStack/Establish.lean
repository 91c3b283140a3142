/-
# QStack.Establish -- how a connection becomes ESTABLISHED

A stream should enter ESTABLISHED from SYN_RCVD on the ACK of its SYN, or from SYN_SENT
on a SYN+ACK for it, with both directions set up from the two initial sequence numbers
(`Synchronized`).  The log `opened` keeps the stream as it was at that moment, so the
result is about the moment itself and not about what the same segment did afterwards.

Two segments spoil it, both in SYN_SENT.  A bare ACK is counted as the acknowledgement
of the SYN and the SYN+ACK that follows is counted again (`bareAck_counts_twice`).  And
a SYN without ACK opens SYN_RCVD without `irs` being set, so that the receive side is
opened for a peer that starts at 0.
-/
import QStack.Opening

namespace QStack

set_option autoImplicit false

namespace Conn

/-- Both directions are set up: the peer starts at `peer`, the stream at its own `iss`. -/
structure Synchronized (peer : Seq) (st : TcpStream) : Prop where
  rcvNxt : st.rcvNxt = peer + 1
  mergedNext : st.rcvbuf.mergedNext = peer + 1
  rcvHead : st.rcvbuf.headSeq = peer + 1
  sndUna : st.sndUna = st.iss + 1
  sndNxt : st.sndNxt = st.iss + 1
  sndHead : st.sndbuf.headSeq = st.iss + 1

/-- The stream becomes ESTABLISHED, whatever happens to it later in the same call. -/
def Enters (s s' : Conn) : Prop :=
  s'.view.opened ≠ s.view.opened ∨
    (s.view.state ≠ .established ∧ s'.view.state = .established)

/-- It does so rightly. -/
def Establishes (s : Conn) (e : ConnEvent) (s' : Conn) : Prop :=
  Enters s s' → ∃ seg st, e.call = .packet seg ∧ seg.ack = true ∧ seg.ackSeq = s.st.iss + 1 ∧
    (s.st.state = .synRcvd ∨ (s.st.state = .synSent ∧ seg.syn = true)) ∧
    s'.view.opened = st :: s.view.opened ∧ Synchronized s'.peerIss st

/-- No bare ACK in SYN_SENT, and no SYN without ACK there, unless the peer starts at the
`irs` the stream was created with. -/
def EstablishOk (s : Conn) (e : ConnEvent) : Prop :=
  ∀ seg, e.call = .packet seg → ¬ s.BareAck seg ∧
    (s.st.state = .synSent → seg.syn = true → seg.ack = false → seg.rst = false →
      seg.seq = s.st.irs)

/-- In SYN_RCVD `irs` is the peer's initial sequence number. -/
structure Opens (n : Nat) (s : Conn) : Prop where
  handshaking : s.Handshaking n
  peer : s.view.state = .synRcvd → s.peerIss = s.view.rcv.irs

section Step

variable {n : Nat} {s : Conn} {e : ConnEvent}

theorem not_enters_of_eq {s' : Conn} (opened : s'.view.opened = s.view.opened)
    (state : s'.view.state = .established → s.view.state = .established) : ¬ Enters s s' := by
  rintro (grew | ⟨before, after⟩)
  · exact grew opened
  · exact before (state after)

/-- The SYN of the peer, as the history has it after a call. -/
def peerAfter (s : Conn) : ConnCall → Seq
  | .packet seg => if s.st.state = .synSent ∧ seg.syn = true then seg.seq else s.peerIss
  | _ => s.peerIss

theorem peerAfter_of_ne (call : ConnCall) (other : s.st.state ≠ .synSent) :
    s.peerAfter call = s.peerIss := by
  cases call with
  | packet seg =>
      rw [peerAfter, if_neg]
      rintro ⟨now, -⟩
      exact other now
  | _ => rfl

theorem serve_peerIss : (s.serve e).peerIss = s.peerAfter e.call := by
  unfold serve
  dsimp only
  cases e.call with
  | packet seg => rfl
  | send len highPri =>
      dsimp only
      generalize Cx.qTcpSend _ _ _ _ _ = result
      rfl
  | close =>
      dsimp only
      generalize Cx.tcpStreamClose _ = result
      rfl
  | recv | serveControl | serveAck => rfl
  | handleClose | serveSend | rto | timewait | timeout =>
      dsimp only
      split <;> rfl

/-- What a segment leaves in the log when it opens the connection. -/
theorem syn_synchronizes (inv : s.view.Handshaking n) {seg : Segment} {v : View} (peer : Seq)
    (move : SynMove s.st seg s.view v) (enters : v.opened ≠ s.view.opened ∨ v.state = .established)
    (fromSent : s.st.state = .synSent → seg.syn = true → peer = seg.seq)
    (fromRcvd : s.st.state = .synRcvd → peer = s.view.rcv.irs) :
    ∃ st, seg.ack = true ∧ seg.ackSeq = s.st.iss + 1 ∧
      (s.st.state = .synRcvd ∨ (s.st.state = .synSent ∧ seg.syn = true)) ∧
      v.opened = st :: s.view.opened ∧ Synchronized peer st := by
  have early : s.view.state ≠ .established := by
    rcases inv.early with now | now
    · rw [now]
      decide
    · rw [now]
      decide
  have stays : ∀ {v : View}, v.opened = s.view.opened → v.state ≠ .established →
      ¬ (v.opened ≠ s.view.opened ∨ v.state = .established) := by
    rintro v opened state (grew | now)
    · exact grew opened
    · exact state now
  cases move with
  | same => exact absurd enters (stays rfl early)
  | listened | refused | rstAcked | simultaneous => exact absurd enters (stays rfl nofun)
  | bareAcked | noAck => exact absurd enters (stays rfl early)
  | synAcked st from_ accepts kept syn core rcv =>
      obtain ⟨ack, acked, -⟩ := acceptsSynAck_eq inv accepts
      refine ⟨st, ack, acked, .inr ⟨from_, syn⟩, rfl, ?_⟩
      rw [fromSent from_ syn]
      have iss : st.iss = s.view.iss := congrArg Core.iss core
      refine ⟨congrArg RcvCore.rcvNxt rcv, ?_, ?_, ?_, ?_, ?_⟩
      · exact congrArg (fun r : RcvCore => r.rcvbuf.mergedNext) rcv
      · exact congrArg (fun r : RcvCore => r.rcvbuf.headSeq) rcv
      · rw [iss, ← inv.una]
        exact congrArg Core.sndUna core
      · rw [iss, ← acked]
        exact congrArg Core.sndNxt core
      · rw [iss, show st.sndbuf = s.view.sndbuf from congrArg Core.sndbuf core, inv.buff]
        rfl
  | acked st k r from_ ack exact_ core rcv after =>
      refine ⟨st, ack, exact_, .inl from_, rfl, ?_⟩
      rw [fromRcvd from_]
      have iss : st.iss = s.view.iss := congrArg Core.iss core
      have rcvbuf : st.rcvbuf = s.view.rcv.rcvbuf := congrArg RcvCore.rcvbuf rcv
      refine ⟨congrArg RcvCore.rcvNxt rcv, ?_, ?_, ?_, ?_, ?_⟩
      · rw [rcvbuf]
        exact inv.rcvbuf.2
      · rw [rcvbuf]
        exact inv.rcvbuf.1
      · rw [iss, ← inv.una]
        exact congrArg Core.sndUna core
      · rw [iss]
        exact (congrArg Core.sndNxt core).trans exact_
      · rw [iss, show st.sndbuf = s.view.sndbuf from congrArg Core.sndbuf core, inv.buff]
        rfl

/-- Where the handshake can lead; only a segment changes more than `snd_nxt` and the log. -/
theorem handshake_moves (inv : s.Handshaking n) {call : ConnCall} {v : View}
    (move : Move s call v) :
    (∃ seg, call = .packet seg ∧ SynMove s.st seg s.view v) ∨
      (v.opened = s.view.opened ∧ v.rcv = s.view.rcv ∧
        (v.state = s.view.state ∨ v.state = .closed)) := by
  have early : s.st.state.isOpen = false ∧ s.st.state.isFin = false ∧ s.st.state.flushes = false := by
    rcases inv.view.early with now | now
    · rw [show s.st.state = _ from now]
      decide
    · rw [show s.st.state = _ from now]
      decide
  have notLate : ¬ (s.st.state.isOpen = true ∨ s.st.state.isFin = true) := by
    rw [early.1, early.2.1]
    decide
  cases move with
  | same => exact .inr ⟨rfl, rfl, .inl rfl⟩
  | syn _ move => exact .inl ⟨_, rfl, move⟩
  | data late _ => exact absurd late notLate
  | received late => exact absurd late notLate
  | put opened =>
      rw [early.1] at opened
      cases opened
  | closed queued _ =>
      rw [inv.unused.2] at queued
      cases queued
  | flushed _ state _ _ _ =>
      rw [early.2.2] at state
      cases state
  | control _ move =>
      cases move with
      | same | rewound | synAck | syn | fin => exact .inr ⟨rfl, rfl, .inl rfl⟩
  | rto _ move =>
      cases move with
      | lost => exact .inr ⟨rfl, rfl, .inr rfl⟩
      | retransmit | control => exact .inr ⟨rfl, rfl, .inl rfl⟩
  | expired _ => exact .inr ⟨rfl, rfl, .inr rfl⟩

theorem Opens.establishes (inv : s.Opens n) (move : Move s e.call (s.serve e).view) :
    Establishes s e (s.serve e) := by
  intro enters
  have early : s.view.state ≠ .established := by
    rcases inv.handshaking.view.early with now | now
    · rw [now]
      decide
    · rw [now]
      decide
  rcases handshake_moves inv.handshaking move with ⟨seg, call, synMove⟩ | ⟨opened, -, state⟩
  · have peer : (s.serve e).peerIss =
        if s.st.state = .synSent ∧ seg.syn = true then seg.seq else s.peerIss := by
      rw [serve_peerIss, call]
      rfl
    obtain ⟨st, ack, acked, from_, log, synced⟩ :=
      syn_synchronizes inv.handshaking.view (s.serve e).peerIss synMove
        (enters.imp_right And.right)
        (fun now syn => by rw [peer, if_pos ⟨now, syn⟩])
        (fun now => by
          rw [serve_peerIss, peerAfter_of_ne _ (by rw [now]; decide)]
          exact inv.peer now)
    exact ⟨seg, st, call, ack, acked, from_, log, synced⟩
  · refine absurd enters (not_enters_of_eq opened fun now => ?_)
    rcases state with same | closed
    · rw [← same]
      exact now
    · rw [closed] at now
      cases now

/-- A stream that is in SYN_RCVD after a call knows the peer's initial sequence number. -/
theorem Opens.peer_kept (inv : s.Opens n) (ok : s.EstablishOk e)
    (move : Move s e.call (s.serve e).view) (now : (s.serve e).view.state = .synRcvd) :
    (s.serve e).peerIss = (s.serve e).view.rcv.irs := by
  have stay : s.st.state = .synRcvd → s.peerAfter e.call = s.view.rcv.irs := by
    intro before
    rw [peerAfter_of_ne _ (by rw [before]; decide)]
    exact inv.peer before
  rw [serve_peerIss]
  rcases handshake_moves inv.handshaking move with ⟨seg, call, synMove⟩ | ⟨-, rcv, state⟩
  · generalize (s.serve e).view = v at synMove now
    cases synMove with
    | same => exact stay now
    | listened _ from_ =>
        refine stay (from_.resolve_left fun listen => ?_)
        rcases inv.handshaking.view.early with early | early
        · rw [show s.st.state = _ from early] at listen
          cases listen
        · rw [show s.st.state = _ from early] at listen
          cases listen
    | simultaneous from_ syn ack kept =>
        rw [call, peerAfter, if_pos ⟨from_, syn⟩]
        exact (ok seg call).2 from_ syn ack kept
    | noAck from_ => exact stay from_
    | bareAcked from_ =>
        rw [show s.st.state = _ from now] at from_
        cases from_
    | acked st k r from_ _ _ _ _ after =>
        obtain ⟨state, group, same | ⟨fast, processed⟩⟩ := after
        · subst same
          change state = .synRcvd at now
          rw [now] at group
          rcases group with group | group <;> cases group
        · subst processed
          change state = .synRcvd at now
          rw [now] at group
          rcases group with group | group <;> cases group
    | refused | rstAcked | synAcked => cases now
  · rcases state with same | closed
    · rw [same] at now
      rw [rcv]
      exact stay now
    · rw [closed] at now
      cases now

end Step

/-! ## Runs -/

/-- The invariant of a run. -/
def EstablishInv (n : Nat) (s : Conn) : Prop :=
  s.view.halted = true ∨ s.Opens n ∨ s.Late

theorem Start.establishInv {n : Nat} {s : Conn} (start : Start n s) : s.EstablishInv n := by
  rcases start.handshaking with halted | handshaking
  · exact .inl halted
  cases start with
  | passive rcvbufSize iss env seg syn noAck =>
      rcases Cx.passiveOpen_view env seg { st := tcpStreamCreate rcvbufSize n seg.seq iss } rfl syn
        with halted | view
      · exact .inl halted
      · refine .inr (.inl ⟨handshaking, fun _ => ?_⟩)
        rw [Conn.view, show (Conn.passive rcvbufSize n iss env seg).cx.view = _ from view]
        rfl
  | active rcvbufSize iss env =>
      refine .inr (.inl ⟨handshaking, fun now => ?_⟩)
      rw [Conn.view, show (Conn.active rcvbufSize n iss env).cx.view = _ from
        Cx.view_controlQueueAdd env _] at now
      cases now

theorem step_establishes {n : Nat} (s : Conn) (e : ConnEvent) (inv : s.EstablishInv n)
    (ok : s.EstablishOk e) :
    (s.step e).EstablishInv n ∧ ((s.step e).view.halted = true ∨ Establishes s e (s.step e)) := by
  unfold step
  split
  · exact ⟨inv, .inr fun enters => absurd enters (not_enters_of_eq rfl id)⟩
  · rename_i running
    rcases serve_move s e with halted | move
    · exact ⟨.inl halted, .inl halted⟩
    rcases inv with halted | opens | late
    · rw [ended, halted] at running
      exact absurd rfl running
    · refine ⟨?_, .inr (opens.establishes move)⟩
      rcases opens.handshaking.serve (fun seg call => (ok seg call).1) with
        halted | handshaking | ⟨-, closed, -⟩ | ⟨-, opened, -⟩
      · exact .inl halted
      · exact .inr (.inl ⟨handshaking, opens.peer_kept ok move⟩)
      · exact .inr (.inr (.inr (.inr closed)))
      · exact .inr (.inr (opened.state.imp_right .inr))
    · obtain ⟨opened, state, group⟩ := late.move move
      exact ⟨.inr (.inr group), .inr fun enters => absurd enters (not_enters_of_eq opened state)⟩

/-- **Establishment.**  In a run without bare ACKs in SYN_SENT and without a SYN there that
lacks the ACK (for a peer that does not start at `irs`), a stream enters ESTABLISHED only on the
ACK of its SYN, and then both directions are set up from the two initial sequence numbers. -/
theorem establishment {n : Nat} {s : Conn} (start : Start n s) (es : List ConnEvent)
    (ok : Lib.Run.Allowed step EstablishOk s es) :
    Lib.Run.Each step (fun s e s' => s'.view.halted = true ∨ Establishes s e s') s es :=
  Lib.Run.each_of_step (P := EstablishInv n) step_establishes es s start.establishInv ok

/-- A connect call, its SYN, and the SYN+ACK of a peer that starts at 7000. -/
def activeRun : List ConnEvent :=
  [{ call := .serveControl, avail := 1 },
   { call := .packet { seq := 7000, ackSeq := 101, syn := true, ack := true } }]

theorem establishment_activeRun :
    Lib.Run.Each step (fun s e s' => s'.view.halted = true ∨ Establishes s e s')
      (active 4 4 100 {}) activeRun := by
  refine establishment (.active 4 100 {}) activeRun ⟨?_, ?_, trivial⟩
  · rintro seg call
    cases call
  · rintro seg call
    cases call
    refine ⟨?_, nofun⟩
    rintro ⟨-, -, bare, -⟩
    cases bare

/-- A bare ACK comes before the SYN+ACK. -/
def bareAckRun : List ConnEvent :=
  [{ call := .serveControl, avail := 1 },
   { call := .packet { seq := 7000, ackSeq := 101, ack := true } },
   { call := .packet { seq := 7000, ackSeq := 101, syn := true, ack := true } }]

/-- The SYN is counted as acknowledged twice: the stream opens with `snd_una = iss + 2`. -/
theorem bareAck_counts_twice :
    ¬ Lib.Run.Each step (fun s e s' => s'.view.halted = true ∨ Establishes s e s')
      (active 4 4 100 {}) bareAckRun := by
  rintro ⟨-, -, halted | establishes, -⟩
  · revert halted
    decide +kernel
  · obtain ⟨seg, st, -, -, -, -, log, synced⟩ := establishes (.inr (by decide +kernel))
    have una := congrArg (List.map fun st : TcpStream => st.sndUna - st.iss) log
    rw [List.map_cons, synced.sndUna] at una
    revert una
    rw [add_sub_cancel_left]
    decide +kernel

end Conn

end QStack
