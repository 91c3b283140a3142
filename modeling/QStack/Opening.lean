/-
# QStack.Opening -- the handshake, over whole runs

Until a connection is open its send buffer is the one it was created with, only SYNs
have been sent, and nothing but the SYN is outstanding (`Syn`).  `Handshaking` adds what
keeps it so: in particular a stream in SYN_SENT that has sent its SYN is on no queue, so
that a second SYN only follows a timeout that has rolled `snd_nxt` back.

An ACK without SYN breaks this: SYN_SENT takes any acceptable ACK for the
acknowledgement of the SYN, and stays where it is (`BareAck`).
-/
import QStack.Connection

namespace QStack

set_option autoImplicit false

/-! ## Frames of the queues -/

namespace Cx

section Queues

variable (env : Env) (c : Cx)

theorem queues_sendTcpPacket (flags : SendFlags) (mbuf : Option MbufId) (payloadlen : Nat) :
    (c.sendTcpPacket env flags mbuf payloadlen).2.queues = c.queues := by
  have update : ∀ b : Cx, (b.timeoutListUpdate env).queues = b.queues := by
    intro b
    unfold timeoutListUpdate
    dsimp only
    split <;> rfl
  have timer : ∀ b : Cx, (b.rtoListAdd env).queues = b.queues := by
    intro b
    unfold rtoListAdd
    dsimp only
    split
    · rfl
    · split <;> rfl
  have acked : ∀ b : Cx, (if flags.ack = true then
      (b.modify fun s => { s with tsLastackSent := env.curTs }).timeoutListUpdate env
      else b).queues = b.queues := by
    intro b
    split
    · rw [update]
      rfl
    · rfl
  have timed : ∀ b : Cx, (if payloadlen + flags.phantom ≠ 0 then b.rtoListAdd env
      else b).queues = b.queues := by
    intro b
    split
    · exact timer b
    · rfl
  have allocated : ∀ b : Cx,
      (if mbuf = none then { b with avail := b.avail - 1 } else b).queues = b.queues := by
    intro b
    split <;> rfl
  have moved : ∀ (b : Cx) (n : Nat), (b.modify fun s =>
      { s with sndNxt := s.sndNxt + BitVec.ofNat 32 n }).queues = b.queues := fun _ _ => rfl
  have finished : ∀ (b : Cx) (fin : Bool), (b.modify fun s =>
      { s with isFinSent := s.isFinSent || fin }).queues = b.queues := fun _ _ => rfl
  have logged : ∀ (b : Cx) (p : Packet), (b.emit (.transmit p)).queues = b.queues :=
    fun _ _ => rfl
  rw [sendTcpPacket]
  split
  · rfl
  · split
    · rfl
    · dsimp only
      rw [logged, timed, moved, acked, finished, allocated]

/-- A stream that is served leaves the control queue. -/
theorem queues_writeTcpControlQueue :
    (c.writeTcpControlQueue env).queues = (false, c.queues.2) := by
  have packet : ∀ (b : Cx), (b.sendTcpControlPacket env).2.queues = b.queues := by
    intro b
    unfold sendTcpControlPacket
    split
    · exact queues_sendTcpPacket ..
    · exact queues_sendTcpPacket ..
    · exact queues_sendTcpPacket ..
    · exact queues_sendTcpPacket ..
    · exact queues_sendTcpPacket ..
    · exact queues_sendTcpPacket ..
    · exact queues_sendTcpPacket ..
    · exact queues_sendTcpPacket ..
    · split <;> exact queues_sendTcpPacket ..
    · rfl
    · rfl
  unfold writeTcpControlQueue
  split
  · rw [packet]
    rfl
  · rename_i off
    rw [Bool.not_eq_true] at off
    rw [queues, off]

end Queues

end Cx

/-! ## Before the connection is open -/

/-- The packet that carries a SYN. -/
def synPacket (iss : Seq) : Sent := { seq := iss, len := 0, syn := true }

namespace View

/-- Nothing but SYNs has been sent, and the send buffer has not been used. -/
structure Syn (n : Nat) (v : View) : Prop where
  buff : v.sndbuf = SndBuff.zero.sbInit n (v.iss + 1)
  finSent : v.isFinSent = false
  sent : ∀ p ∈ v.sent, p = synPacket v.iss

/-- Only the SYN can be outstanding. -/
structure Unacked (n : Nat) (v : View) : Prop extends Syn n v where
  una : v.sndUna = v.iss
  nxt : v.sndNxt = v.iss ∨ (v.sndNxt = v.iss + 1 ∧ v.sent ≠ [])

/-- The connection is in one of the two handshake states. -/
structure Handshaking (n : Nat) (v : View) : Prop extends Unacked n v where
  early : v.state = .synSent ∨ v.state = .synRcvd
  rcvbuf : v.rcv.rcvbuf.headSeq = v.rcv.irs + 1 ∧ v.rcv.rcvbuf.mergedNext = v.rcv.irs + 1

/-- The connection has just been opened (or refused by the accept queue). -/
structure Opened (n : Nat) (v : View) : Prop extends Syn n v where
  state : v.state.isOpen = true ∨ v.state = .closed
  una : v.sndUna = v.iss + 1
  nxt : v.sndNxt = v.iss + 1

end View

/-- The acknowledgement of the SYN leaves an unused buffer alone. -/
theorem Core.onAck_unused (fast : Bool) {k : Core} {a : Seq} (head : k.sndbuf.headSeq = a)
    (nxt : k.sndNxt = a) : k.onAck fast a = k := by
  have rolls : k.rollback a = k := by
    rw [Core.rollback, if_neg (by rw [nxt]; simp)]
  have recovers : k.recover a = k := by
    rw [Core.recover, if_neg (by rw [nxt]; simp [Lib.Serial.gt])]
  have retires : k.retire a = k := by
    rw [Core.retire, if_pos (by rw [head]; simp [Lib.Serial.geq])]
  unfold Core.onAck
  split
  · rfl
  · cases fast with
    | false =>
        simp only [Bool.false_eq_true, if_false]
        rw [recovers, retires]
    | true =>
        simp only [if_true]
        rw [rolls, recovers, retires]

namespace Conn

/-- A segment that SYN_SENT counts as an acknowledgement of the SYN although it is neither a
SYN+ACK nor a reset. -/
def BareAck (s : Conn) (seg : Segment) : Prop :=
  s.st.state = .synSent ∧ s.st.acceptsSynAck seg = true ∧ seg.syn = false ∧ seg.rst = false

instance BareAck.decidable (s : Conn) (seg : Segment) : Decidable (s.BareAck seg) :=
  inferInstanceAs (Decidable (_ ∧ _))

/-- The segment that opens the connection answers a SYN, or claims to. -/
def Answered (s : Conn) (call : ConnCall) : Prop :=
  s.view.sent ≠ [] ∨ ∃ seg, call = .packet seg ∧ s.st.state = .synRcvd ∧ seg.ack = true ∧
    seg.ackSeq = s.st.iss + 1

/-- Where a call leads from the handshake. -/
inductive Progress (n : Nat) (s : Conn) (call : ConnCall) (v : View) : Prop
  | handshaking (h : v.Handshaking n)
  | abandoned (h : v.Unacked n) (state : v.state = .closed) (gone : v.destroyed = true)
  | opened (h : v.Opened n) (sent : v.sent = s.view.sent) (answered : s.Answered call)

section Handshake

variable {n : Nat} {s : Conn}

/-- The only acknowledgement SYN_SENT accepts is that of the SYN. -/
theorem acceptsSynAck_eq (inv : s.view.Handshaking n) {seg : Segment}
    (accepts : s.st.acceptsSynAck seg = true) :
    seg.ack = true ∧ seg.ackSeq = s.view.iss + 1 ∧ s.view.sndNxt = s.view.iss + 1 ∧
      s.view.sent ≠ [] := by
  have iss : s.st.iss = s.view.iss := rfl
  have snd : s.st.sndNxt = s.view.sndNxt := rfl
  unfold TcpStream.acceptsSynAck at accepts
  simp only [Bool.and_eq_true, Bool.not_eq_true'] at accepts
  obtain ⟨⟨ack, above⟩, below⟩ := accepts
  rw [iss] at above
  rw [snd] at below
  rcases inv.nxt with nxt | ⟨nxt, some⟩
  · rw [nxt, tcpSeqGt_eq, above] at below
    cases below
  · rw [nxt] at below
    exact ⟨ack, tcpSeq_eq_succ above below, nxt, some⟩

theorem syn_progress (inv : s.view.Handshaking n) {seg : Segment} {v : View}
    (move : SynMove s.st seg s.view v) (full : ¬ s.BareAck seg) :
    Progress n s (.packet seg) v := by
  cases move with
  | same => exact .handshaking inv
  | listened syn from_ =>
      exact .handshaking ⟨⟨⟨inv.buff, inv.finSent, inv.sent⟩, inv.una, inv.nxt⟩, .inr rfl, inv.rcvbuf⟩
  | refused from_ =>
      exact .abandoned ⟨⟨inv.buff, inv.finSent, inv.sent⟩, inv.una, inv.nxt⟩ rfl rfl
  | rstAcked d from_ accepts rst =>
      obtain ⟨-, -, nxt, some⟩ := acceptsSynAck_eq inv accepts
      refine .opened ⟨⟨inv.buff, inv.finSent, inv.sent⟩, .inl rfl, ?_, nxt⟩ rfl (.inl some)
      exact congrArg (· + 1) inv.una
  | bareAcked from_ accepts kept bare => exact absurd ⟨from_, accepts, bare, kept⟩ full
  | synAcked st from_ accepts kept syn core rcv =>
      obtain ⟨-, acked, -, some⟩ := acceptsSynAck_eq inv accepts
      have una : st.sndUna = s.view.sndUna + 1 := congrArg Core.sndUna core
      have nxt : st.sndNxt = seg.ackSeq := congrArg Core.sndNxt core
      refine .opened ⟨⟨inv.buff, inv.finSent, inv.sent⟩, .inl rfl, ?_, nxt.trans acked⟩ rfl
        (.inl some)
      exact una.trans (congrArg (· + 1) inv.una)
  | simultaneous from_ syn ack kept =>
      exact .handshaking ⟨⟨⟨inv.buff, inv.finSent, inv.sent⟩, inv.una, .inl rfl⟩, .inr rfl, inv.rcvbuf⟩
  | noAck from_ ack =>
      exact .handshaking ⟨⟨⟨inv.buff, inv.finSent, inv.sent⟩, inv.una, .inl rfl⟩, inv.early, inv.rcvbuf⟩
  | acked st k r from_ ack exact_ core rcv after =>
      have una : st.core.sndUna = s.view.iss + 1 := by
        rw [core]
        exact congrArg (· + 1) inv.una
      have nxt : st.core.sndNxt = seg.ackSeq := by rw [core]
      have buff : st.core.sndbuf = s.view.sndbuf := by
        rw [core]
        rfl
      have head : st.core.sndbuf.headSeq = seg.ackSeq := by
        rw [buff, inv.buff, exact_]
        rfl
      have settled : ∃ state : TcpState, (state.isOpen = true ∨ state = .closed) ∧
          k = { st.core with state := state } := by
        obtain ⟨state, group, same | ⟨fast, processed⟩⟩ := after
        · exact ⟨state, group, same⟩
        · rw [Core.onAck_unused fast head nxt] at processed
          exact ⟨state, group, processed⟩
      obtain ⟨state, group, rfl⟩ := settled
      have finSent : st.core.isFinSent = false := by
        rw [core]
        exact inv.finSent
      have iss : st.core.iss = s.view.iss := by
        rw [core]
        rfl
      refine .opened ⟨⟨?_, finSent, ?_⟩, group, ?_, ?_⟩ rfl
        (.inr ⟨seg, rfl, from_, ack, exact_⟩)
      · change st.core.sndbuf = SndBuff.zero.sbInit n (st.core.iss + 1)
        rw [buff, iss]
        exact inv.buff
      · intro p inside
        change p = synPacket st.core.iss
        rw [iss]
        exact inv.sent p inside
      · change st.core.sndUna = st.core.iss + 1
        rw [una, iss]
      · change st.core.sndNxt = st.core.iss + 1
        rw [nxt, iss]
        exact exact_

theorem control_progress (inv : s.view.Handshaking n) {v : View} (move : ControlMove s.view v)
    (idle : s.view.state = .synSent → s.view.sndNxt = s.view.iss) :
    Progress n s .serveControl v := by
  have logged : ∀ p ∈ synPacket s.view.iss :: s.view.sent, p = synPacket s.view.iss := by
    intro p inside
    rcases List.mem_cons.mp inside with rfl | older
    · rfl
    · exact inv.sent p older
  cases move with
  | same => exact .handshaking inv
  | syn from_ =>
      have nxt := idle from_
      refine .handshaking ⟨⟨⟨inv.buff, ?_, ?_⟩, inv.una, .inr ⟨?_, ?_⟩⟩, inv.early, inv.rcvbuf⟩
      · exact (Bool.or_false _).trans inv.finSent
      · intro p inside
        refine logged p ?_
        rw [← nxt]
        exact inside
      · exact congrArg (· + 1) nxt
      · exact List.cons_ne_nil _ _
  | rewound from_ =>
      exact .handshaking ⟨⟨⟨inv.buff, inv.finSent, inv.sent⟩, inv.una, .inl rfl⟩, inv.early, inv.rcvbuf⟩
  | synAck from_ =>
      refine .handshaking ⟨⟨⟨inv.buff, ?_, logged⟩, inv.una, .inr ⟨rfl, ?_⟩⟩, inv.early, inv.rcvbuf⟩
      · exact (Bool.or_false _).trans inv.finSent
      · exact List.cons_ne_nil _ _
  | fin sends =>
      unfold Core.sendsFin at sends
      rcases inv.early with early | early
      · rw [early] at sends
        cases sends
      · rw [early] at sends
        cases sends

end Handshake

/-! ## Calls before the connection is open -/

/-- What the application did so far. -/
def unused (s : Conn) : Prop := s.accepted = [] ∧ s.closeQueued = false

/-- A stream in SYN_SENT that has sent its SYN is on no queue. -/
def Idle (s : Conn) : Prop :=
  s.st.onAckQueue = false ∧ s.cx.posted = 0 ∧ (s.st.onControlQueue = true → s.st.sndNxt = s.st.iss)

section Calls

variable {n : Nat} {s : Conn} {e : ConnEvent}

theorem serve_unused (unused : s.unused) (early : s.st.state.isOpen = false) :
    (s.serve e).unused := by
  unfold serve
  dsimp only
  cases call : e.call with
  | packet seg => exact unused
  | send len highPri =>
      rcases sendCall_cases s e len highPri with ⟨ret, refused, same⟩ | ⟨opened, -⟩
      · unfold sendCall at same
        dsimp only
        rw [same]
        dsimp only
        rw [if_neg (by omega)]
        exact unused
      · rw [early] at opened
        cases opened
  | recv => exact unused
  | close =>
      have open_ := Cx.tcpStreamClose_queued (s.entry e)
      dsimp only
      generalize (s.entry e).tcpStreamClose = result at open_
      obtain ⟨queued, c'⟩ := result
      dsimp only at open_ ⊢
      refine ⟨unused.1, ?_⟩
      cases queued with
      | false => exact (Bool.or_false _).trans unused.2
      | true =>
          have opened : s.st.state = .established ∨ s.st.state = .closeWait := open_ rfl
          rcases opened with now | now
          · rw [now] at early
            cases early
          · rw [now] at early
            cases early
  | handleClose =>
      dsimp only
      rw [if_neg (by rw [unused.2]; decide)]
      exact unused
  | serveControl => exact unused
  | serveSend =>
      dsimp only
      split <;> exact unused
  | serveAck => exact unused
  | rto =>
      dsimp only
      split <;> exact unused
  | timewait =>
      dsimp only
      split <;> exact unused
  | timeout =>
      dsimp only
      split <;> exact unused

/-- A timeout in SYN_SENT asks for another SYN, and rolls `snd_nxt` back for it. -/
theorem rto_idle (c : Cx) (env : Env) (now : c.st.state = .synSent)
    (stays : (c.rtoListCheck env).st.state = .synSent) (una : c.st.sndUna = c.st.iss)
    (off : c.st.onAckQueue = false) (none : c.posted = 0) :
    (c.rtoListCheck env).st.onAckQueue = false ∧ (c.rtoListCheck env).posted = 0 ∧
      (c.rtoListCheck env).st.sndNxt = (c.rtoListCheck env).st.iss := by
  have queue : ∀ b : Cx, (b.controlQueueAdd env).st.onAckQueue = b.st.onAckQueue ∧
      (b.controlQueueAdd env).posted = b.posted ∧
      (b.controlQueueAdd env).st.sndNxt = b.st.sndNxt ∧
      (b.controlQueueAdd env).st.iss = b.st.iss := by
    intro b
    unfold Cx.controlQueueAdd
    split
    · exact ⟨rfl, rfl, rfl, rfl⟩
    · split <;> exact ⟨rfl, rfl, rfl, rfl⟩
  unfold Cx.rtoListCheck Cx.handleRto at stays ⊢
  split at stays
  · rename_i tries
    rw [if_pos tries]
    dsimp only
    generalize rolled : Cx.modify (Cx.modify _ _) _ = c₁
    have now₁ : c₁.st.state = .synSent := by
      rw [← rolled]
      exact now
    rw [now₁]
    dsimp only
    obtain ⟨ack, posted, nxt, iss⟩ := queue c₁
    rw [ack, posted, nxt, iss, ← rolled]
    exact ⟨off, none, una⟩
  · cases stays

theorem serve_idle (inv : s.view.Handshaking n) (unused : s.unused) (idle : s.Idle)
    (now : s.st.state = .synSent) (stays : (s.serve e).st.state = .synSent) :
    (s.serve e).view.halted = true ∨ (s.serve e).Idle := by
  have same : Idle { s with cx := s.entry e } := idle
  unfold serve at stays ⊢
  dsimp only at stays ⊢
  cases call : e.call with
  | packet seg =>
      rw [call] at stays
      rcases Cx.processSegment_queue e.env seg (s.entry e) now stays with queues | halted
      · rcases packet_move s e seg with halted | move
        · exact .inl halted
        · refine .inr ?_
          have ack : ((s.entry e).processSegment e.env seg).st.onAckQueue = s.st.onAckQueue :=
            congrArg (fun q : Bool × Bool × Nat => q.2.1) queues
          have control : ((s.entry e).processSegment e.env seg).st.onControlQueue =
            s.st.onControlQueue := congrArg Prod.fst queues
          have posted : ((s.entry e).processSegment e.env seg).posted = s.cx.posted :=
            congrArg (fun q : Bool × Bool × Nat => q.2.2) queues
          have kept : ((s.entry e).processSegment e.env seg).st.sndNxt = s.st.sndNxt ∧
              ((s.entry e).processSegment e.env seg).st.iss = s.st.iss := by
            change ((s.entry e).processSegment e.env seg).view.state = .synSent at stays
            change ((s.entry e).processSegment e.env seg).view.sndNxt = s.view.sndNxt ∧
              ((s.entry e).processSegment e.env seg).view.iss = s.view.iss
            generalize ((s.entry e).processSegment e.env seg).view = v at move stays
            cases move with
            | same => exact ⟨rfl, rfl⟩
            | syn _ move =>
                cases move with
                | same => exact ⟨rfl, rfl⟩
                | bareAcked => exact ⟨rfl, rfl⟩
                | noAck from_ _ =>
                    rw [now] at from_
                    cases from_
                | acked st k r from_ =>
                    rw [now] at from_
                    cases from_
                | listened | refused | rstAcked | synAcked | simultaneous => cases stays
            | data late _ =>
                rw [now] at late
                rcases late with late | late <;> cases late
            | expired timer => rcases timer with timer | timer <;> cases timer
          refine ⟨ack.trans idle.1, posted.trans idle.2.1, fun on => ?_⟩
          refine kept.1.trans ((idle.2.2 (control.symm.trans on)).trans kept.2.symm)
      · exact .inl halted
  | send len highPri =>
      rcases sendCall_cases s e len highPri with ⟨ret, refused, unchanged⟩ | ⟨opened, -⟩
      · unfold sendCall at unchanged
        dsimp only
        rw [unchanged]
        exact .inr same
      · rw [now] at opened
        cases opened
  | recv =>
      have closed : (s.entry e).qRecv = s.entry e := by
        unfold Cx.qRecv
        rw [if_pos (.inl (by rw [show (s.entry e).st.state = .synSent from now]; decide))]
      dsimp only
      rw [closed]
      exact .inr same
  | close =>
      dsimp only
      unfold Cx.tcpStreamClose
      split
      · exact .inr same
      · dsimp only [Cx.modify_st]
        rw [show (s.entry e).st.state = .synSent from now]
        exact .inr same
  | handleClose =>
      dsimp only
      rw [if_neg (by rw [unused.2]; decide)]
      exact .inr idle
  | serveControl =>
      have queues := Cx.queues_writeTcpControlQueue e.env (s.entry e)
      refine .inr ⟨?_, ?_, fun on => ?_⟩
      · exact (congrArg (fun q : Bool × Bool × Nat => q.2.1) queues).trans idle.1
      · exact (congrArg (fun q : Bool × Bool × Nat => q.2.2) queues).trans idle.2.1
      · have off : ((s.entry e).writeTcpControlQueue e.env).st.onControlQueue = false :=
          congrArg Prod.fst queues
        dsimp only at on
        rw [off] at on
        cases on
  | serveSend =>
      dsimp only
      rw [if_neg (by rw [show (s.entry e).posted = 0 from idle.2.1]; omega)]
      exact .inr idle
  | serveAck =>
      dsimp only
      unfold Cx.writeTcpAckQueue
      rw [if_neg (by rw [show (s.entry e).st.onAckQueue = false from idle.1]; decide)]
      exact .inr same
  | rto =>
      rw [call] at stays
      dsimp only at stays ⊢
      split at stays
      · rename_i on
        rw [if_pos on]
        obtain ⟨ack, posted, nxt⟩ := rto_idle (s.entry e) e.env now stays inv.una idle.1 idle.2.1
        exact .inr ⟨ack, posted, fun _ => nxt⟩
      · rename_i off
        rw [if_neg off]
        exact .inr idle
  | timewait =>
      rw [call] at stays
      dsimp only at stays ⊢
      split at stays
      · cases stays
      · rename_i off
        rw [if_neg off]
        exact .inr idle
  | timeout =>
      rw [call] at stays
      dsimp only at stays ⊢
      split at stays
      · cases stays
      · rename_i off
        rw [if_neg off]
        exact .inr idle

/-- No call leads back to SYN_SENT. -/
theorem synSent_from (from_ : s.view.state = .synRcvd) {call : ConnCall} {v : View}
    (move : Move s call v) : v.state ≠ .synSent := by
  have now : s.st.state = .synRcvd := from_
  intro back
  cases move with
  | same =>
      rw [from_] at back
      cases back
  | syn _ move =>
      cases move with
      | same =>
          rw [from_] at back
          cases back
      | noAck =>
          rw [show s.st.state = _ from back] at now
          cases now
      | bareAcked other =>
          rw [now] at other
          cases other
      | acked st k r _ _ _ _ _ after =>
          obtain ⟨state, group, same | ⟨fast, processed⟩⟩ := after
          · subst same
            change state = .synSent at back
            rw [back] at group
            rcases group with group | group <;> cases group
          · subst processed
            change state = .synSent at back
            rw [back] at group
            rcases group with group | group <;> cases group
      | listened | refused | rstAcked | synAcked | simultaneous => cases back
  | data late _ =>
      rw [now] at late
      rcases late with late | late <;> cases late
  | put opened =>
      rw [now] at opened
      cases opened
  | received late =>
      rw [now] at late
      rcases late with late | late <;> cases late
  | closed _ move =>
      cases move with
      | same other =>
          rw [from_] at other
          cases other
      | reset => cases back
      | closing =>
          change s.view.state.afterClose = .synSent at back
          rw [from_] at back
          cases back
  | control _ move =>
      cases move with
      | same | rewound | synAck | fin =>
          rw [show s.view.state = _ from back] at from_
          cases from_
      | syn other =>
          rw [from_] at other
          cases other
  | flushed _ state _ _ _ =>
      rw [now] at state
      cases state
  | rto _ move =>
      cases move with
      | lost => cases back
      | retransmit | control =>
          rw [show s.view.state = _ from back] at from_
          cases from_
  | expired _ => cases back

/-- The state of a connection that is being opened. -/
structure Handshaking (n : Nat) (s : Conn) : Prop where
  view : s.view.Handshaking n
  unused : s.unused
  idle : s.view.state = .synSent → s.Idle

/-- No segment of the event is a bare ACK in SYN_SENT. -/
def NoBareAck (s : Conn) (e : ConnEvent) : Prop := ∀ seg, e.call = .packet seg → ¬ s.BareAck seg

theorem move_progress (inv : s.Handshaking n) (full : s.NoBareAck e) {v : View}
    (move : Move s e.call v) : Progress n s e.call v := by
  have early : s.st.state.isOpen = false ∧ s.st.state.isFin = false ∧ s.st.state.flushes = false := by
    rcases inv.view.early with now | now
    · rw [show s.st.state = _ from now]
      decide
    · rw [show s.st.state = _ from now]
      decide
  have notLate : ¬ (s.st.state.isOpen = true ∨ s.st.state.isFin = true) := by
    rw [early.1, early.2.1]
    decide
  generalize called : e.call = call at move
  cases move with
  | same => exact .handshaking inv.view
  | syn _ move => exact syn_progress inv.view move (full _ called)
  | data late _ => exact absurd late notLate
  | received late => exact absurd late notLate
  | put opened =>
      rw [early.1] at opened
      cases opened
  | closed queued _ =>
      rw [inv.unused.2] at queued
      cases queued
  | flushed _ state _ _ _ =>
      rw [early.2.2] at state
      cases state
  | control queued move =>
      exact control_progress inv.view move fun now => (inv.idle now).2.2 queued
  | rto _ move =>
      have v := inv.view
      cases move with
      | lost tries => exact .abandoned ⟨⟨v.buff, v.finSent, v.sent⟩, v.una, v.nxt⟩ rfl rfl
      | retransmit tries data =>
          rcases data with now | ⟨now, -⟩
          · rw [now] at early
            cases early.1
          · rcases v.early with other | other
            · rw [show s.st.state = _ from other] at now
              cases now
            · rw [show s.st.state = _ from other] at now
              cases now
      | control tries _ _ =>
          exact .handshaking
            ⟨⟨⟨v.buff, v.finSent, v.sent⟩, v.una, .inl v.una⟩, v.early, v.rcvbuf⟩
  | expired _ =>
      have v := inv.view
      exact .abandoned ⟨⟨v.buff, v.finSent, v.sent⟩, v.una, v.nxt⟩ rfl rfl

/-- **One call during the handshake.** -/
theorem Handshaking.serve (inv : s.Handshaking n) (full : s.NoBareAck e) :
    (s.serve e).view.halted = true ∨ (s.serve e).Handshaking n ∨
      ((s.serve e).unused ∧ (s.serve e).view.state = .closed ∧ (s.serve e).view.destroyed = true ∧
        (s.serve e).view.Unacked n) ∨
      ((s.serve e).unused ∧ (s.serve e).view.Opened n ∧ (s.serve e).view.sent = s.view.sent ∧
        s.Answered e.call) := by
  have unused : (s.serve e).unused := by
    refine serve_unused inv.unused ?_
    rcases inv.view.early with now | now
    · rw [show s.st.state = _ from now]
      rfl
    · rw [show s.st.state = _ from now]
      rfl
  rcases serve_move s e with halted | move
  · exact .inl halted
  cases move_progress inv full move with
  | abandoned h state gone => exact .inr (.inr (.inl ⟨unused, state, gone, h⟩))
  | opened h sent answered => exact .inr (.inr (.inr ⟨unused, h, sent, answered⟩))
  | handshaking h =>
      by_cases stays : (s.serve e).view.state = .synSent
      · -- a stream that is in SYN_SENT now was there before
        by_cases before : s.view.state = .synSent
        · refine (serve_idle inv.view inv.unused (inv.idle before) before stays).imp_right ?_
          intro idle
          exact .inl ⟨h, unused, fun _ => idle⟩
        · exfalso
          have from_ : s.view.state = .synRcvd := inv.view.early.resolve_left before
          exact synSent_from from_ move stays
      · exact .inr (.inl ⟨h, unused, fun now => absurd now stays⟩)

/-- A connection begins with its handshake. -/
theorem Start.handshaking (start : Start n s) : s.view.halted = true ∨ s.Handshaking n := by
  cases start with
  | passive rcvbufSize iss env seg syn noAck =>
      rcases Cx.passiveOpen_view env seg { st := tcpStreamCreate rcvbufSize n seg.seq iss } rfl syn
        with halted | view
      · exact .inl halted
      · refine .inr ⟨?_, ⟨rfl, rfl⟩, fun now => ?_⟩
        · rw [Conn.view, show (Conn.passive rcvbufSize n iss env seg).cx.view = _ from view]
          exact ⟨⟨⟨rfl, rfl, fun p inside => absurd inside List.not_mem_nil⟩, rfl, .inl rfl⟩,
            .inr rfl, rfl, rfl⟩
        · rw [Conn.view, show (Conn.passive rcvbufSize n iss env seg).cx.view = _ from view] at now
          cases now
  | active rcvbufSize iss env =>
      have view : (Conn.active rcvbufSize n iss env).cx.view =
          (Cx.modify { st := tcpStreamCreate rcvbufSize n 0 iss } fun s => { s with
            cwnd := 1, ssthresh := BitVec.ofNat 32 (s.mss * 10), state := .synSent }).view :=
        Cx.view_controlQueueAdd env _
      refine .inr ⟨?_, ⟨rfl, rfl⟩, fun _ => ?_⟩
      · rw [Conn.view, view]
        exact ⟨⟨⟨rfl, rfl, fun p inside => absurd inside List.not_mem_nil⟩, rfl, .inl rfl⟩,
          .inl rfl, rfl, rfl⟩
      · have nxt : (Conn.active rcvbufSize n iss env).st.sndNxt =
            (Conn.active rcvbufSize n iss env).st.iss :=
          (congrArg (fun v : View => v.sndNxt) view).trans
            (congrArg (fun v : View => v.iss) view).symm
        refine ⟨?_, ?_, fun _ => nxt⟩
        · change (Cx.controlQueueAdd env _).st.onAckQueue = false
          unfold Cx.controlQueueAdd
          cases env.controlRoom <;> rfl
        · change (Cx.controlQueueAdd env _).posted = 0
          unfold Cx.controlQueueAdd
          cases env.controlRoom <;> rfl

end Calls

/-! ## After the handshake -/

/-- The handshake is over. -/
def Late (s : Conn) : Prop :=
  s.view.state.isOpen = true ∨ s.view.state.isFin = true ∨ s.view.state = .closed

/-- After the handshake no call opens the connection again. -/
theorem Late.move {s : Conn} (late : s.Late) {call : ConnCall} {v : View} (move : Move s call v) :
    v.opened = s.view.opened ∧ (v.state = .established → s.view.state = .established) ∧
      (v.state.isOpen = true ∨ v.state.isFin = true ∨ v.state = .closed) := by
  have group : s.st.state.isOpen = true ∨ s.st.state.isFin = true ∨ s.st.state = .closed := late
  cases move with
  | same => exact ⟨rfl, id, late⟩
  | syn early _ =>
      exfalso
      revert group early
      cases s.st.state <;> decide
  | data _ move =>
      have follows : ∀ state : TcpState, s.st.state.follows state = true →
          (state = .established → s.st.state = .established) ∧
            (state.isOpen = true ∨ state.isFin = true ∨ state = .closed) := by
        intro state legal
        revert group legal
        cases s.st.state <;> cases state <;> decide
      refine ⟨rfl, ?_⟩
      cases move with
      | same => exact ⟨id, late⟩
      | moved state legal => exact follows state legal
      | reset => exact ⟨nofun, .inr (.inr rfl)⟩
      | acked state reach legal => exact follows state legal
      | finWait1 state _ _ _ _ legal =>
          change (state = .established → _) ∧
            (state.isOpen = true ∨ state.isFin = true ∨ state = .closed)
          refine ⟨fun back => ?_, ?_⟩
          · rw [back] at legal
            cases legal
          · revert legal
            cases state <;> decide
      | closing => exact ⟨nofun, .inr (.inl rfl)⟩
      | lastAck => exact ⟨nofun, .inr (.inr rfl)⟩
  | put => exact ⟨rfl, id, late⟩
  | received => exact ⟨rfl, id, late⟩
  | closed _ move =>
      cases move with
      | same => exact ⟨rfl, id, late⟩
      | reset => exact ⟨rfl, nofun, .inr (.inr rfl)⟩
      | closing =>
          refine ⟨rfl, ?_⟩
          change (s.st.state.afterClose = .established → s.st.state = .established) ∧
            (s.st.state.afterClose.isOpen = true ∨ s.st.state.afterClose.isFin = true ∨
              s.st.state.afterClose = .closed)
          revert group
          cases s.st.state <;> decide
  | control _ move =>
      cases move with
      | same | rewound | synAck | syn | fin => exact ⟨rfl, id, late⟩
  | flushed _ _ _ _ flushed =>
      rw [flushed.frame]
      exact ⟨rfl, id, late⟩
  | rto _ move =>
      cases move with
      | lost => exact ⟨rfl, nofun, .inr (.inr rfl)⟩
      | retransmit | control => exact ⟨rfl, id, late⟩
  | expired _ => exact ⟨rfl, nofun, .inr (.inr rfl)⟩

end Conn

end QStack
