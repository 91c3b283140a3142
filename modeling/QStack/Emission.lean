/-
# QStack.Emission -- which packets a connection puts on the wire

The logs of `View` keep what a packet occupies in sequence space, and forget its flags and what it
acknowledges.  Here `packets` is the whole log of the wire.

Nothing but the three queues sends: a segment, a timer or a call of the application only queues.
What the queues send follows from the state the stream is in when it is served (`Sendable`).
-/
import QStack.Connection
import QStack.StateGraph

namespace QStack

set_option autoImplicit false

def Effect.packet? : Effect → Option Packet
  | .transmit p => some p
  | _ => none

namespace Cx

/-- The packets sent so far, the latest first. -/
def packets (c : Cx) : List Packet := c.out.filterMap Effect.packet?

section Frames

variable (env : Env) (seg : Segment) (c : Cx)

@[simp] theorem packets_modify (f : TcpStream → TcpStream) : (c.modify f).packets = c.packets := rfl

@[simp] theorem packets_setSndbuf (b : SndBuff) : (c.setSndbuf b).packets = c.packets := rfl

@[simp] theorem packets_setRcv (w : RcvMem) : (c.setRcv w).packets = c.packets := rfl

@[simp] theorem packets_receive : (c.receive seg).packets = c.packets := rfl

theorem packets_emit {e : Effect} (plain : e.packet? = none) : (c.emit e).packets = c.packets := by
  simp [packets, emit, plain]

@[simp] theorem packets_transmit (p : Packet) : (c.emit (.transmit p)).packets = p :: c.packets :=
  rfl

@[simp] theorem packets_exit : c.exit.packets = c.packets := packets_emit c rfl

theorem packets_andThen {f : Cx → Cx} (same : (f c).packets = c.packets) :
    (c.andThen f).packets = c.packets := by
  unfold andThen
  split
  · rfl
  · exact same

/-! ### Timer lists and queues -/

@[simp] theorem packets_rtoListAdd : (c.rtoListAdd env).packets = c.packets := by
  unfold rtoListAdd
  split
  · rfl
  · dsimp only
    split <;> rfl

@[simp] theorem packets_rtoListRemove : c.rtoListRemove.packets = c.packets := by
  unfold rtoListRemove
  split <;> rfl

@[simp] theorem packets_rtoListUpdate : (c.rtoListUpdate env).packets = c.packets := by
  simp [rtoListUpdate]

@[simp] theorem packets_timewaitListAdd : (c.timewaitListAdd env).packets = c.packets := by
  unfold timewaitListAdd
  dsimp only
  split
  · rw [packets_emit _ rfl, packets_emit _ rfl, packets_modify]
  · rw [packets_emit _ rfl]
    simp

@[simp] theorem packets_timewaitListRemove : c.timewaitListRemove.packets = c.packets := by
  unfold timewaitListRemove
  split <;> rfl

@[simp] theorem packets_timeoutListAdd : (c.timeoutListAdd env).packets = c.packets := by
  unfold timeoutListAdd
  dsimp only
  split <;> rfl

@[simp] theorem packets_timeoutListUpdate : (c.timeoutListUpdate env).packets = c.packets := by
  unfold timeoutListUpdate
  dsimp only
  split <;> rfl

@[simp] theorem packets_controlQueueAdd : (c.controlQueueAdd env).packets = c.packets := by
  unfold controlQueueAdd
  split
  · rfl
  · split <;> rfl

@[simp] theorem packets_ackQueueAdd : (c.ackQueueAdd env).packets = c.packets := by
  unfold ackQueueAdd
  split <;> rfl

@[simp] theorem packets_enqueueAck (opt : AckOpt) : (c.enqueueAck env opt).packets = c.packets := by
  cases opt <;> simp [enqueueAck, apply_ite packets]

@[simp] theorem packets_sendEventAdd (pri : Bool) :
    (c.sendEventAdd env pri).packets = c.packets := by
  unfold sendEventAdd
  split <;> rfl

@[simp] theorem packets_raiseEvent (ev : EventKind) : (c.raiseEvent ev).packets = c.packets := by
  unfold raiseEvent
  split <;> rfl

@[simp] theorem packets_tcpStreamDestroy : c.tcpStreamDestroy.packets = c.packets := rfl

@[simp] theorem packets_releaseControlWaiting (busy : Bool) :
    (c.releaseControlWaiting env busy).packets = c.packets := by
  unfold releaseControlWaiting
  split <;> simp

/-! ### Segments -/

@[simp] theorem packets_parseOptions : (c.parseOptions env seg).packets = c.packets := by
  unfold parseOptions
  dsimp only
  split <;> rfl

@[simp] theorem packets_fastRetransmit (a : Seq) :
    (c.fastRetransmit env a).packets = c.packets := by
  unfold fastRetransmit
  dsimp only
  split <;> simp

@[simp] theorem packets_inflateWindow : c.inflateWindow.packets = c.packets := rfl

@[simp] theorem packets_acceptAck (a : Seq) : (c.acceptAck env a).packets = c.packets := by
  unfold acceptAck
  dsimp only
  split
  · rfl
  · split
    · rfl
    · split
      · rw [packets_rtoListRemove]
        rfl
      · rw [packets_rtoListUpdate]
        rfl

@[simp] theorem packets_processTcpAck : (c.processTcpAck env seg).packets = c.packets := by
  have counted : ∀ (b : Cx) (dup : Bool) (a : Seq),
      (if dup && b.st.dupAcks == 3 then b.fastRetransmit env a
        else if 3 < b.st.dupAcks then b.inflateWindow else b).packets = b.packets := by
    intro b dup a
    split
    · simp
    · split <;> simp
  have recovered : ∀ (b : Cx) (a : Seq),
      (if tcpSeqGt a b.st.sndNxt then b.modify fun s => { s with sndNxt := a } else b).packets =
        b.packets := by
    intro b a
    split <;> simp
  have retired : ∀ (b : Cx) (a : Seq),
      (if tcpSeqGeq b.st.sndbuf.headSeq a then b else b.acceptAck env a).packets = b.packets := by
    intro b a
    split <;> simp
  unfold processTcpAck
  dsimp only
  split
  · rfl
  · rw [retired, recovered, counted]
    simp

@[simp] theorem packets_payloadStored (prev : Seq) (priority : Bool) (ret : Int) :
    (c.payloadStored prev priority ret).2.packets = c.packets := by
  unfold payloadStored
  dsimp only
  split
  · rfl
  · split
    · simp [apply_ite packets]
    · rfl

@[simp] theorem packets_processTcpPayload : (c.processTcpPayload seg).2.packets = c.packets := by
  unfold processTcpPayload
  dsimp only
  split
  · rfl
  · split
    · rfl
    · generalize RcvMem.rbPut _ _ = result
      obtain ⟨ret, w⟩ := result
      dsimp only
      split
      · exact packets_emit c rfl
      · obtain ⟨wnd, irs, swapped⟩ := addHeadSwapped_eq seg.bufAddr w c
        rw [swapped]
        simp

@[simp] theorem packets_establishedPayload :
    (c.establishedPayload env seg).packets = c.packets := by
  have stored := packets_processTcpPayload seg c
  unfold establishedPayload
  split
  · generalize c.processTcpPayload seg = result at stored
    rw [packets_andThen] <;> simp [apply_ite packets, stored]
  · rfl

@[simp] theorem packets_closingPayload : (c.closingPayload env seg).packets = c.packets := by
  have stored := packets_processTcpPayload seg c
  unfold closingPayload
  split
  · generalize c.processTcpPayload seg = result at stored
    rw [packets_andThen] <;> simp [apply_ite packets, stored]
  · rfl

@[simp] theorem packets_handleListen : (c.handleListen env seg).packets = c.packets := by
  unfold handleListen
  split <;> simp

@[simp] theorem packets_handleActiveOpen : (c.handleActiveOpen env seg).packets = c.packets := by
  unfold handleActiveOpen
  dsimp only
  rw [packets_andThen]
  · simp
  · rw [packets_emit _ rfl]
    simp

@[simp] theorem packets_handleSynSent : (c.handleSynSent env seg).packets = c.packets := by
  unfold handleSynSent
  dsimp only
  split
  · split <;> simp [sendStandalone]
  · split
    · split
      · split <;> simp
      · simp
    · split
      · split
        · rw [packets_andThen]
          · simp
          · split <;> simp [sendStandalone]
        · simp
      · simp [apply_ite packets]

@[simp] theorem packets_raiseAcceptEvent : (c.raiseAcceptEvent env).packets = c.packets := by
  unfold raiseAcceptEvent
  split
  · rfl
  · dsimp only
    split <;> split <;> rfl

@[simp] theorem packets_handleSynRcvd : (c.handleSynRcvd env seg).packets = c.packets := by
  unfold handleSynRcvd
  split
  · split
    · rfl
    · dsimp only
      rw [packets_raiseAcceptEvent, packets_emit _ rfl]
      simp
  · simp

@[simp] theorem packets_handleCloseWait : (c.handleCloseWait env seg).packets = c.packets := by
  unfold handleCloseWait
  split <;> simp

@[simp] theorem packets_handleLastAck : (c.handleLastAck env seg).packets = c.packets := by
  unfold handleLastAck
  split
  · rfl
  · split
    · rw [packets_andThen]
      · simp
      · simp [apply_ite packets]
    · simp

@[simp] theorem packets_finInFinWait1 : (finInFinWait1 env seg c).packets = c.packets := by
  unfold finInFinWait1
  split
  · dsimp only
    split <;> simp
  · rfl

@[simp] theorem packets_handleFinWait1 : (c.handleFinWait1 env seg).packets = c.packets := by
  unfold handleFinWait1
  split
  · simp
  · split
    · rw [packets_andThen]
      · simp
      · dsimp only
        rw [packets_andThen]
        · simp [apply_ite packets]
        · simp
    · rfl

@[simp] theorem packets_finInFinWait2 : (finInFinWait2 env seg c).packets = c.packets := by
  unfold finInFinWait2
  split <;> simp

@[simp] theorem packets_handleFinWait2 : (c.handleFinWait2 env seg).packets = c.packets := by
  unfold handleFinWait2
  split
  · rw [packets_andThen]
    · simp
    · rw [packets_andThen] <;> simp
  · rfl

@[simp] theorem packets_handleClosing : (c.handleClosing env seg).packets = c.packets := by
  unfold handleClosing
  split
  · rw [packets_andThen]
    · simp
    · simp [apply_ite packets]
  · rfl

@[simp] theorem packets_finInEstablished : (finInEstablished env seg c).packets = c.packets := by
  unfold finInEstablished
  split
  · split <;> simp
  · rfl

@[simp] theorem packets_handleEstablished : (c.handleEstablished env seg).packets = c.packets := by
  unfold handleEstablished
  split
  · simp
  · rw [packets_andThen]
    · simp
    · rw [packets_andThen] <;> simp [apply_ite packets]

@[simp] theorem packets_handleTimeWait : (c.handleTimeWait env).packets = c.packets := by
  simp [handleTimeWait, apply_ite packets]

@[simp] theorem packets_checkSequenceValidation :
    (c.checkSequenceValidation env seg).2.packets = c.packets := by
  unfold checkSequenceValidation
  dsimp only
  split
  · rfl
  · split
    · rfl
    · split
      · split
        · simp
        · split <;> simp
      · simp [apply_ite packets]

@[simp] theorem packets_handleRst : (c.handleRst seg).packets = c.packets := by
  unfold handleRst
  split
  · split <;> simp
  · simp
  · simp
  · simp
  · simp
  · simp
  · split <;> simp

@[simp] theorem packets_handleSegment : (c.handleSegment env seg).packets = c.packets := by
  unfold handleSegment
  split
  · simp
  · simp
  · split
    · simp
    · rw [packets_andThen]
      · simp
      · split <;> simp
  all_goals simp

@[simp] theorem packets_acceptSegment : (c.acceptSegment env seg).packets = c.packets := by
  unfold acceptSegment
  dsimp only
  split <;> simp [apply_ite packets]

@[simp] theorem packets_validateSegment : (c.validateSegment env seg).packets = c.packets := by
  have checked := packets_checkSequenceValidation env seg c
  unfold validateSegment
  split
  · generalize c.checkSequenceValidation env seg = result at checked
    obtain ⟨valid, c'⟩ := result
    cases valid <;> simpa using checked
  · simp

@[simp] theorem packets_processSegment : (c.processSegment env seg).packets = c.packets := by
  unfold processSegment
  dsimp only
  rw [packets_andThen] <;> simp [apply_ite packets]

@[simp] theorem packets_passiveOpen : (c.passiveOpen env seg).packets = c.packets := by
  unfold passiveOpen
  dsimp only
  rw [packets_andThen] <;> simp

/-! ### Timers and calls of the application -/

@[simp] theorem packets_handleRto : (c.handleRto env).packets = c.packets := by
  unfold handleRto
  split
  · dsimp only
    split
    · simp
    · split
      · simp
      · split <;> simp
    · split
      · simp
      · split <;> simp
    · split
      · simp
      · split <;> simp
    · simp
  · simp

@[simp] theorem packets_rtoListCheck : (c.rtoListCheck env).packets = c.packets := by
  unfold rtoListCheck
  rw [packets_handleRto, packets_emit _ rfl, packets_modify]

@[simp] theorem packets_timewaitListCheck : c.timewaitListCheck.packets = c.packets := rfl

@[simp] theorem packets_timeoutListCheck : c.timeoutListCheck.packets = c.packets := rfl

@[simp] theorem packets_handleCloseCall : (c.handleCloseCall env).packets = c.packets := by
  unfold handleCloseCall
  dsimp only
  split
  · split <;> simp
  · split <;> simp

@[simp] theorem packets_handleConnectCall : (c.handleConnectCall env).packets = c.packets := by
  simp [handleConnectCall]

@[simp] theorem packets_tcpStreamClose : c.tcpStreamClose.2.packets = c.packets := by
  unfold tcpStreamClose
  split
  · rfl
  · dsimp only
    split <;> rfl

theorem packets_sendFromUser (m : SndMbuf) : (c.sendFromUser m).2.packets = c.packets := by
  unfold sendFromUser
  split
  · rfl
  · dsimp only
    split <;> rfl

@[simp] theorem packets_qTcpSend (m : SndMbuf) (len : U32) (highPri : Bool) :
    (c.qTcpSend env m len highPri).2.packets = c.packets := by
  unfold qTcpSend
  split
  · simp
  · dsimp only
    split
    · rfl
    · split
      · rfl
      · rw [apply_ite packets, packets_sendEventAdd, packets_sendFromUser, ite_self]

@[simp] theorem packets_qRecv : c.qRecv.packets = c.packets := by
  unfold qRecv
  split
  · rfl
  · split
    · rfl
    · generalize RcvMem.qRecv _ = result
      obtain ⟨id, w⟩ := result
      dsimp only
      split <;> simp

end Frames

end Cx

/-! ## What the queues send -/

/-- A packet of an open connection: it acknowledges all that has been merged. -/
def TcpStream.Acks (s : TcpStream) (p : Packet) : Prop :=
  p.rst = false ∧ p.syn = false ∧ p.ack = true ∧ p.ackSeq = s.rcvNxt

/-- A packet that a stream sends from its state. -/
def TcpStream.Sends (s : TcpStream) (p : Packet) : Prop :=
  match s.state with
  | .synSent =>
      s.onControlQueue = true ∧ p.rst = false ∧ p.syn = true ∧ p.ack = false ∧ p.seq = s.sndNxt
  | .synRcvd => p.rst = false ∧ p.syn = true ∧ p.ack = true ∧ p.seq = s.iss ∧ p.ackSeq = s.rcvNxt
  | .listen | .closed => False
  | _ => s.Acks p

namespace Cx

/-- The state and what is acknowledged stay, and every new packet is one of an open connection. -/
structure Acking (c c' : Cx) : Prop where
  state : c'.st.state = c.st.state
  rcvNxt : c'.st.rcvNxt = c.st.rcvNxt
  packets : ∃ new, c'.packets = new ++ c.packets ∧ ∀ p ∈ new, c.st.Acks p

section Services

variable {env : Env} {c c' c'' : Cx}

theorem Acking.refl (c : Cx) : Acking c c := ⟨rfl, rfl, [], rfl, nofun⟩

theorem Acking.trans (first : Acking c c') (second : Acking c' c'') : Acking c c'' := by
  obtain ⟨new, packets, acks⟩ := first.packets
  obtain ⟨new', packets', acks'⟩ := second.packets
  refine ⟨second.state.trans first.state, second.rcvNxt.trans first.rcvNxt, new' ++ new, ?_, ?_⟩
  · rw [packets', packets, List.append_assoc]
  · intro p inside
    rcases List.mem_append.mp inside with later | now
    · obtain ⟨kept, plain, ack, acked⟩ := acks' p later
      exact ⟨kept, plain, ack, acked.trans first.rcvNxt⟩
    · exact acks p now

/-- Nothing is sent, and the view stays. -/
theorem Acking.of_view (view : c'.view = c.view) (packets : c'.packets = c.packets) :
    Acking c c' :=
  ⟨congrArg (fun v : View => v.state) view, congrArg (fun v : View => v.rcv.rcvNxt) view, [],
    packets, nofun⟩

/-- What `send_tcp_packet` sends. -/
theorem sendTcpPacket_packet (env : Env) (flags : SendFlags) (mbuf : Option MbufId)
    (payloadlen : Nat) (c : Cx) :
    (c.sendTcpPacket env flags mbuf payloadlen).2.packets = c.packets ∨
      ∃ p : Packet, (c.sendTcpPacket env flags mbuf payloadlen).2.packets = p :: c.packets ∧
        p.rst = false ∧ p.syn = flags.syn ∧ p.ack = flags.ack ∧ p.seq = packetSeq flags c.st ∧
        (flags.ack = true → p.ackSeq = c.st.rcvNxt) := by
  rw [sendTcpPacket]
  split
  · exact .inl rfl
  · split
    · exact .inl rfl
    · dsimp only
      generalize allocated : (if mbuf = none then { c with avail := c.avail - 1 } else c) = c₁
      have st : c₁.st = c.st := by
        rw [← allocated]
        split <;> rfl
      have packets : c₁.packets = c.packets := by
        rw [← allocated]
        split <;> rfl
      refine .inr ⟨_, (packets_transmit _ _).trans (congrArg _ ?_), rfl, rfl, rfl, ?_, ?_⟩
      · simp [apply_ite Cx.packets, packets]
      · dsimp only
        rw [st]
      · intro ack
        dsimp only
        rw [if_pos ack, st]

/-- A packet with ACK and without SYN. -/
theorem sendTcpPacket_acking (env : Env) (flags : SendFlags) (plain : flags.syn = false)
    (ack : flags.ack = true) (mbuf : Option MbufId) (payloadlen : Nat) (c : Cx) :
    Acking c (c.sendTcpPacket env flags mbuf payloadlen).2 := by
  have stays : (c.sendTcpPacket env flags mbuf payloadlen).2.view.state = c.view.state ∧
      (c.sendTcpPacket env flags mbuf payloadlen).2.view.rcv = c.view.rcv := by
    rcases sendTcpPacket_cases env flags mbuf payloadlen c with
      ⟨same, -⟩ | ⟨same, -⟩ | ⟨-, sent⟩
    · rw [same]
      exact ⟨rfl, rfl⟩
    · rw [same]
      exact ⟨rfl, rfl⟩
    · rw [sent]
      exact ⟨rfl, rfl⟩
  refine ⟨stays.1, congrArg RcvCore.rcvNxt stays.2, ?_⟩
  rcases sendTcpPacket_packet env flags mbuf payloadlen c with
    same | ⟨p, one, kept, syn, acks, -, to_⟩
  · exact ⟨[], same, nofun⟩
  · refine ⟨[p], one, fun q inside => ?_⟩
    rw [List.mem_singleton.mp inside]
    exact ⟨kept, syn.trans plain, acks.trans ack, to_ ack⟩

theorem sendAcks_acking : ∀ (pending : Nat) (c : Cx), Acking c (c.sendAcks env pending)
  | 0, c => .refl c
  | pending + 1, c => by
      have sent := sendTcpPacket_acking env { ack := true } rfl rfl none 0 c
      rw [sendAcks]
      generalize c.sendTcpPacket env { ack := true } none 0 = result at sent
      obtain ⟨ret, c'⟩ := result
      dsimp only at sent ⊢
      split
      · exact sent
      · have counted : Acking c' (c'.modify fun s => { s with ackCnt := s.ackCnt - 1 }) :=
          .of_view (view_modify _ ⟨rfl, rfl⟩) rfl
        exact sent.trans (counted.trans (sendAcks_acking pending _))

theorem sendWack_acking (env : Env) (c : Cx) : Acking c (c.sendWack env) := by
  unfold sendWack
  split
  · have cleared : Acking c (c.modify fun s => { s with isWack := false }) :=
      .of_view (view_modify _ ⟨rfl, rfl⟩) rfl
    have sent := sendTcpPacket_acking env { ack := true, wack := true } rfl rfl none 0
      (c.modify fun s => { s with isWack := false })
    generalize sendTcpPacket env _ none 0 (c.modify _) = result at sent
    obtain ⟨ret, c'⟩ := result
    dsimp only at sent ⊢
    refine cleared.trans (sent.trans ?_)
    split
    · exact .of_view (view_modify _ ⟨rfl, rfl⟩) rfl
    · exact .refl c'
  · exact .refl c

theorem flushLoop_acking : ∀ (rounds packets : Nat) (c : Cx),
    Acking c (c.flushLoop env rounds packets).2
  | 0, _, c => .refl c
  | rounds + 1, packets, c => by
      have stored : ∀ (c : Cx) (b : SndBuff), Acking c (c.setSndbuf b) :=
        fun c b => ⟨rfl, rfl, [], rfl, nofun⟩
      rw [flushLoop]
      dsimp only
      split
      · exact .refl c
      · split
        · exact stored c _
        · rename_i m b _
          refine (stored c b).trans ?_
          split
          · exact flushLoop_acking rounds packets _
          · split
            · refine .of_view (view_refuseOutOfWindow env _ _ _) ?_
              unfold refuseOutOfWindow
              simp [apply_ite Cx.packets]
            · have sent := sendTcpPacket_acking env { ack := true } rfl rfl (some m.id)
                m.payloadLen (c.setSndbuf b)
              generalize sendTcpPacket env _ _ _ (c.setSndbuf b) = result at sent
              obtain ⟨ret, c'⟩ := result
              dsimp only at sent ⊢
              refine sent.trans ?_
              split
              · exact ⟨rfl, rfl, [], packets_exit c', nofun⟩
              · have listed : Acking c' (c'.appendUack c.st.sndNxt m) :=
                  ⟨rfl, rfl, [], rfl, nofun⟩
                exact listed.trans (flushLoop_acking rounds (packets + 1) _)

theorem flushTcpSendingBuffer_acking (env : Env) (c : Cx) :
    Acking c (c.flushTcpSendingBuffer env).2 := by
  unfold flushTcpSendingBuffer
  split
  · exact .refl c
  · split
    · exact .refl c
    · exact flushLoop_acking _ _ c

/-- The new packets are ones that the stream sends from its state. -/
def Sending (c c' : Cx) : Prop := ∃ new, c'.packets = new ++ c.packets ∧ ∀ p ∈ new, c.st.Sends p

theorem Sending.none (same : c'.packets = c.packets) : Sending c c' := ⟨[], same, nofun⟩

theorem Acking.sending (acking : Acking c c')
    (late : c.st.state.isOpen = true ∨ c.st.state.isFin = true) : Sending c c' := by
  obtain ⟨new, packets, acks⟩ := acking.packets
  refine ⟨new, packets, fun p inside => ?_⟩
  have ack := acks p inside
  unfold TcpStream.Sends
  cases state : c.st.state with
  | established | closeWait | finWait1 | finWait2 | closing | lastAck | timeWait => exact ack
  | synSent | synRcvd | listen | closed =>
      rw [state] at late
      rcases late with now | now <;> cases now

theorem writeTcpSendQueue_sending (env : Env) (c : Cx) : Sending c (c.writeTcpSendQueue env) := by
  have rest : ∀ (ret : Int) (c : Cx), Acking c
      (if ret ≤ 0 then c.controlQueueAdd env
        else (c.modify fun s => { s with
          onSendQueue := false, ackCnt := s.ackCnt - ret.toNat }).releaseControlWaiting env
            (c.modify fun s => { s with
              onSendQueue := false, ackCnt := s.ackCnt - ret.toNat }).st.onAckQueue) := by
    intro ret c
    refine .of_view (view_afterFlush env ret c) ?_
    split <;> simp
  have flushed := flushTcpSendingBuffer_acking env c
  unfold writeTcpSendQueue
  dsimp only
  cases state : c.st.state with
  | established | closeWait | finWait1 | lastAck =>
      exact (flushed.trans (rest _ _)).sending (by rw [state]; decide)
  | closed | listen | synSent | synRcvd | finWait2 | closing | timeWait =>
      dsimp only
      exact .none (by split <;> simp)

theorem writeTcpAckQueue_sending (env : Env) (c : Cx) : Sending c (c.writeTcpAckQueue env) := by
  have off : Acking c (c.modify fun s => { s with onAckQueue := false }) :=
    .of_view (view_modify _ ⟨rfl, rfl⟩) rfl
  have released : ∀ (busy : Bool) (c : Cx), Acking c (c.releaseControlWaiting env busy) :=
    fun busy c => .of_view (view_releaseControlWaiting env c busy)
      (packets_releaseControlWaiting env c busy)
  unfold writeTcpAckQueue
  split
  · dsimp only
    rw [modify_st]
    dsimp only
    cases state : c.st.state with
    | established | closeWait | finWait1 | finWait2 | timeWait =>
        dsimp only
        refine Acking.sending ?_ (by rw [state]; decide)
        exact off.trans ((sendAcks_acking _ _).trans
          ((sendWack_acking env _).trans (released _ _)))
    | closed | listen | synSent | synRcvd | closing | lastAck => exact .none (by simp)
  · exact .none rfl

theorem writeTcpControlQueue_sending (env : Env) (c : Cx) :
    Sending c (c.writeTcpControlQueue env) := by
  unfold writeTcpControlQueue
  split
  · rename_i queued
    generalize taken : (c.modify fun s => { s with onControlQueue := false }) = c₁
    have st : c₁.st = { c.st with onControlQueue := false } := by
      rw [← taken]
      rfl
    have before : c₁.packets = c.packets := by
      rw [← taken]
      rfl
    have late : ∀ flags : SendFlags, flags.syn = false → flags.ack = true →
        c.st.state.isOpen = true ∨ c.st.state.isFin = true →
        Sending c (c₁.sendTcpPacket env flags none 0).2 := by
      intro flags plain ack late
      have off : Acking c c₁ := by
        rw [← taken]
        exact .of_view (view_modify _ ⟨rfl, rfl⟩) rfl
      exact (off.trans (sendTcpPacket_acking env flags plain ack none 0 c₁)).sending late
    unfold sendTcpControlPacket
    rw [show c₁.st.state = c.st.state by rw [st]]
    cases state : c.st.state with
    | established | closeWait | finWait2 | timeWait | lastAck | finWait1 =>
        exact late _ rfl rfl (by rw [state]; decide)
    | closing =>
        dsimp only
        split <;> exact late _ rfl rfl (by rw [state]; decide)
    | closed | listen => exact .none before
    | synSent =>
        rcases sendTcpPacket_packet env { syn := true } none 0 c₁ with
          same | ⟨p, one, kept, syn, ack, seq, -⟩
        · exact .none (same.trans before)
        · refine ⟨[p], by rw [one, before]; rfl, fun q inside => ?_⟩
          rw [List.mem_singleton.mp inside, TcpStream.Sends, state]
          refine ⟨queued, kept, syn, ack, seq.trans ?_⟩
          rw [st]
          rfl
    | synRcvd =>
        rcases sendTcpPacket_packet env { syn := true, ack := true } none 0
          (c₁.modify fun s => { s with sndNxt := s.iss }) with
          same | ⟨p, one, kept, syn, ack, seq, to_⟩
        · exact .none (same.trans before)
        · refine ⟨[p], by rw [one, packets_modify, before]; rfl, fun q inside => ?_⟩
          rw [List.mem_singleton.mp inside, TcpStream.Sends, state]
          refine ⟨kept, syn, ack, seq.trans ?_, (to_ rfl).trans ?_⟩
          · rw [modify_st, st]
            rfl
          · rw [modify_st, st]
  · exact .none rfl

end Services

end Cx

/-! ## A connection -/

namespace Conn

/-- **What a call sends follows from the state it finds.** -/
theorem serve_sends (s : Conn) (e : ConnEvent) : Cx.Sending s.cx (s.serve e).cx := by
  have entered : (s.entry e).packets = s.cx.packets := rfl
  unfold serve
  dsimp only
  cases e.call with
  | packet seg => exact .none (Cx.packets_processSegment e.env seg (s.entry e))
  | send len highPri => exact .none (Cx.packets_qTcpSend e.env (s.entry e) _ len highPri)
  | recv => exact .none (Cx.packets_qRecv (s.entry e))
  | close => exact .none (Cx.packets_tcpStreamClose (s.entry e))
  | handleClose =>
      dsimp only
      split
      · exact .none (Cx.packets_handleCloseCall e.env (s.entry e))
      · exact .none rfl
  | serveControl => exact Cx.writeTcpControlQueue_sending e.env (s.entry e)
  | serveSend =>
      dsimp only
      split
      · exact Cx.writeTcpSendQueue_sending e.env (s.entry e)
      · exact .none rfl
  | serveAck => exact Cx.writeTcpAckQueue_sending e.env (s.entry e)
  | rto =>
      dsimp only
      split
      · exact .none (Cx.packets_rtoListCheck e.env (s.entry e))
      · exact .none rfl
  | timewait | timeout =>
      dsimp only
      split <;> exact .none rfl

end Conn

end QStack
