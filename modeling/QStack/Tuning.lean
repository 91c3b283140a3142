/-
# QStack.Tuning -- the variables that pace a connection, and who writes them

`Tuning` collects what the peer announces (MSS, window scale, window), the two variables of the
window update, the two of the duplicate count, and the congestion window with its threshold.  Few
functions write any of them: the options of a SYN, `process_tcp_packet` (the window),
`process_tcp_ack`, the handlers that open the connection, and the retransmission timer.  `Paces`
says that a function is none of these, and the lemmas below go through the others.

`processTcpAck_paced` and `processSegment_admission` say what the writers do.
-/
import QStack.Connection

namespace QStack

set_option autoImplicit false

structure Tuning where
  mss : Nat
  effMss : Nat
  wscalePeer : Nat
  peerWnd : U32
  sndWl1 : Seq
  sndWl2 : Seq
  dupAcks : Nat
  lastAckSeq : Seq
  cwnd : U32
  ssthresh : U32

def TcpStream.tuning (s : TcpStream) : Tuning :=
  { mss := s.mss, effMss := s.effMss, wscalePeer := s.wscalePeer, peerWnd := s.peerWnd,
    sndWl1 := s.sndWl1, sndWl2 := s.sndWl2, dupAcks := s.dupAcks, lastAckSeq := s.lastAckSeq,
    cwnd := s.cwnd, ssthresh := s.ssthresh }

namespace Cx

/-- The pace of the connection is as it was. -/
def Paces (c c' : Cx) : Prop := c'.st.tuning = c.st.tuning

section Rules

variable {c c' c'' : Cx}

theorem Paces.refl (c : Cx) : c.Paces c := rfl

theorem Paces.trans (first : c.Paces c') (second : c'.Paces c'') : c.Paces c'' :=
  Eq.trans second first

theorem Paces.modify (c : Cx) {f : TcpStream → TcpStream} (kept : (f c.st).tuning = c.st.tuning) :
    c.Paces (c.modify f) := kept

theorem Paces.emit (c : Cx) (e : Effect) : c.Paces (c.emit e) := rfl

theorem Paces.andThen {f : Cx → Cx} (first : c.Paces c') (second : c'.Paces (f c')) :
    c.Paces (c'.andThen f) := by
  unfold Cx.andThen
  split
  · exact first
  · exact first.trans second

theorem Paces.ite {p : Prop} [Decidable p] (taken : c.Paces c') :
    c.Paces (if p then c' else c) := by
  split
  · exact taken
  · exact .refl c

end Rules

/-! ## Timers and queues -/

section Primitives

variable (env : Env) (c : Cx)

theorem rtoListAdd_paces : c.Paces (c.rtoListAdd env) := by
  unfold rtoListAdd
  split
  · exact .refl c
  · dsimp only
    split <;> exact rfl

theorem rtoListRemove_paces : c.Paces c.rtoListRemove := .ite rfl

theorem rtoListUpdate_paces : c.Paces (c.rtoListUpdate env) :=
  (rtoListRemove_paces c).trans (rtoListAdd_paces env _)

theorem timewaitListAdd_paces : c.Paces (c.timewaitListAdd env) := by
  have listed : ∀ c₁ : Cx, c.Paces c₁ → c.Paces
      (if c₁.st.onTimewaitList then (c₁.emit .timewaitRemove).emit .timewaitInsert
        else (c₁.rtoListRemove.modify fun s =>
          { s with onTimewaitList := true }).emit .timewaitInsert) := by
    intro c₁ marked
    split
    · exact marked
    · exact marked.trans (rtoListRemove_paces c₁)
  have marked : c.Paces (c.modify fun s => { s with tsTwExpire := env.curTs + tcpTimewait }) :=
    .modify c (by simp only [TcpStream.tuning])
  exact listed _ marked

theorem timewaitListRemove_paces : c.Paces c.timewaitListRemove := .ite rfl

theorem timeoutListAdd_paces : c.Paces (c.timeoutListAdd env) := by
  unfold timeoutListAdd
  dsimp only
  split <;> exact rfl

theorem timeoutListUpdate_paces : c.Paces (c.timeoutListUpdate env) := by
  unfold timeoutListUpdate
  dsimp only
  split <;> exact rfl

theorem controlQueueAdd_paces : c.Paces (c.controlQueueAdd env) := by
  unfold controlQueueAdd
  split
  · exact .refl c
  · exact .ite rfl

theorem enqueueAck_paces (opt : AckOpt) : c.Paces (c.enqueueAck env opt) := by
  have queue : ∀ c : Cx, c.Paces (c.ackQueueAdd env) := fun c => .ite rfl
  unfold enqueueAck
  refine Paces.trans ?_ (queue _)
  cases opt with
  | now | aggregate => exact .ite rfl
  | wack => exact rfl

theorem sendEventAdd_paces (pri : Bool) : c.Paces (c.sendEventAdd env pri) := .ite rfl

theorem raiseEvent_paces (ev : EventKind) : c.Paces (c.raiseEvent ev) := .ite rfl

theorem releaseControlWaiting_paces (busy : Bool) :
    c.Paces (c.releaseControlWaiting env busy) :=
  .ite ((Paces.modify c rfl).trans (controlQueueAdd_paces env _))

/-! ## Transmission -/

theorem sendTcpPacket_paces (flags : SendFlags) (mbuf : Option MbufId) (payloadlen : Nat) :
    c.Paces (c.sendTcpPacket env flags mbuf payloadlen).2 := by
  unfold sendTcpPacket
  split
  · exact .refl c
  split
  · exact .refl c
  dsimp only
  have taken : c.Paces (if mbuf = none then { c with avail := c.avail - 1 } else c) := .ite rfl
  refine Paces.trans ?_ (.emit _ _)
  refine Paces.trans ?_ (.ite (rtoListAdd_paces env _))
  refine Paces.trans ?_ (.modify _ rfl)
  refine Paces.trans ?_ (.ite ((Paces.modify _ rfl).trans (timeoutListUpdate_paces env _)))
  exact taken.trans (.modify _ rfl)

theorem sendTcpControlPacket_paces : c.Paces (c.sendTcpControlPacket env).2 := by
  unfold sendTcpControlPacket
  cases c.st.state with
  | synRcvd => exact (Paces.modify c rfl).trans (sendTcpPacket_paces env _ _ _ _)
  | closing =>
      dsimp only
      split
      · exact sendTcpPacket_paces env c _ _ _
      · exact sendTcpPacket_paces env c _ _ _
  | closed | listen => exact .refl c
  | synSent | established | closeWait | finWait2 | timeWait | lastAck | finWait1 =>
      exact sendTcpPacket_paces env c _ _ _

theorem refuseOutOfWindow_paces (seq : Seq) (m : SndMbuf) :
    c.Paces (c.refuseOutOfWindow env seq m) := by
  unfold refuseOutOfWindow
  exact (Paces.ite (enqueueAck_paces env c .wack)).trans (sendEventAdd_paces env _ _)

theorem flushLoop_paces : ∀ (rounds packets : Nat) (c : Cx),
    c.Paces (c.flushLoop env rounds packets).2 := by
  intro rounds
  induction rounds with
  | zero => exact fun packets c => .refl c
  | succ rounds ih =>
      intro packets c
      rw [flushLoop]
      dsimp only
      split
      · exact .refl c
      cases c.st.sndbuf.popWaiting with
      | mk popped b =>
        have taken : c.Paces (c.setSndbuf b) := .modify c rfl
        cases popped with
        | none => exact taken
        | some m =>
            dsimp only
            split
            · exact taken.trans (ih _ _)
            split
            · exact taken.trans (refuseOutOfWindow_paces env _ _ _)
            have sent := sendTcpPacket_paces env (c.setSndbuf b) { ack := true } (some m.id)
              m.payloadLen
            generalize (c.setSndbuf b).sendTcpPacket env _ _ _ = result at sent ⊢
            obtain ⟨ret, c'⟩ := result
            dsimp only at sent ⊢
            split
            · exact taken.trans (sent.trans (.emit c' _))
            · exact taken.trans (sent.trans ((Paces.modify c' rfl).trans (ih _ _)))

theorem flushTcpSendingBuffer_paces : c.Paces (c.flushTcpSendingBuffer env).2 := by
  unfold flushTcpSendingBuffer
  split
  · exact .refl c
  split
  · exact .refl c
  · exact flushLoop_paces env _ _ c

theorem writeTcpControlQueue_paces : c.Paces (c.writeTcpControlQueue env) :=
  .ite ((Paces.modify c rfl).trans (sendTcpControlPacket_paces env _))

theorem writeTcpSendQueue_paces : c.Paces (c.writeTcpSendQueue env) := by
  have served : ∀ result : Int × Cx, c.Paces result.2 →
      c.Paces (if result.1 ≤ 0 then result.2.controlQueueAdd env
        else (result.2.modify fun s =>
          { s with onSendQueue := false, ackCnt := s.ackCnt - result.1.toNat }).releaseControlWaiting
            env (result.2.modify fun s =>
              { s with onSendQueue := false, ackCnt := s.ackCnt - result.1.toNat }).st.onAckQueue) := by
    rintro ⟨ret, c'⟩ paces
    dsimp only
    split
    · exact paces.trans (controlQueueAdd_paces env c')
    · exact paces.trans ((Paces.modify c' rfl).trans (releaseControlWaiting_paces env _ _))
  unfold writeTcpSendQueue
  cases c.st.state with
  | established | closeWait | finWait1 | lastAck =>
      exact served _ (flushTcpSendingBuffer_paces env c)
  | closed | listen | synSent | synRcvd | finWait2 | closing | timeWait =>
      exact served (failed, c) (.refl c)

theorem sendAcks_paces : ∀ (pending : Nat) (c : Cx), c.Paces (c.sendAcks env pending) := by
  intro pending
  induction pending with
  | zero => exact fun c => .refl c
  | succ pending ih =>
      intro c
      rw [sendAcks]
      have sent := sendTcpPacket_paces env c { ack := true } none 0
      generalize c.sendTcpPacket env _ _ _ = result at sent ⊢
      obtain ⟨ret, c'⟩ := result
      dsimp only at sent ⊢
      split
      · exact sent
      · exact sent.trans ((Paces.modify c' rfl).trans (ih _))

theorem sendWack_paces : c.Paces (c.sendWack env) := by
  unfold sendWack
  split
  · have sent := sendTcpPacket_paces env (c.modify fun s => { s with isWack := false })
      { ack := true, wack := true } none 0
    generalize (c.modify _).sendTcpPacket env _ _ _ = result at sent ⊢
    obtain ⟨ret, c'⟩ := result
    dsimp only at sent ⊢
    have paces := (Paces.modify c (f := fun s => { s with isWack := false }) rfl).trans sent
    split
    · exact paces.trans (.modify c' rfl)
    · exact paces
  · exact .refl c

theorem writeTcpAckQueue_paces : c.Paces (c.writeTcpAckQueue env) := by
  refine .ite (Paces.trans ?_ (releaseControlWaiting_paces env _ _))
  have off : c.Paces (c.modify fun s => { s with onAckQueue := false }) := .modify c rfl
  cases (c.modify fun s => { s with onAckQueue := false }).st.state with
  | established | closeWait | finWait1 | finWait2 | timeWait =>
      exact off.trans ((sendAcks_paces env _ _).trans (sendWack_paces env _))
  | closed | listen | synSent | synRcvd | closing | lastAck => exact off.trans (.modify _ rfl)

/-! ## Calls of the application, and the other timers -/

theorem tcpStreamClose_paces : c.Paces c.tcpStreamClose.2 := by
  unfold tcpStreamClose
  split
  · exact .refl c
  · dsimp only
    split <;> exact rfl

theorem handleCloseCall_paces : c.Paces (c.handleCloseCall env) := by
  unfold handleCloseCall
  dsimp only
  split
  · split <;> exact rfl
  · split
    · exact rfl
    · exact (Paces.modify c rfl).trans (controlQueueAdd_paces env _)
    · exact (Paces.modify c rfl).trans (controlQueueAdd_paces env _)
    · exact (Paces.modify c rfl).trans (controlQueueAdd_paces env _)

theorem qTcpSend_paces (m : SndMbuf) (len : U32) (highPri : Bool) :
    c.Paces (c.qTcpSend env m len highPri).2 := by
  unfold qTcpSend
  split
  · exact .emit c _
  dsimp only
  split
  · exact .refl c
  split
  · exact .refl c
  generalize SndMbuf.mk _ _ _ _ _ = m'
  have stored : c.Paces (c.sendFromUser m').2 := by
    unfold sendFromUser
    split
    · exact .refl c
    · generalize c.st.sndbuf.sbPut m' = result
      obtain ⟨ret, b⟩ := result
      dsimp only
      split <;> exact rfl
  generalize c.sendFromUser m' = result at stored ⊢
  obtain ⟨ret, c₁⟩ := result
  exact stored.trans (.ite (sendEventAdd_paces env c₁ highPri))

theorem qRecv_paces : c.Paces c.qRecv := by
  unfold qRecv
  split
  · exact .refl c
  split
  · exact .refl c
  generalize RcvMem.qRecv _ = result
  obtain ⟨id, w⟩ := result
  dsimp only
  split <;> exact rfl

end Primitives

/-! ## Payload, and the handlers without an acknowledgement -/

section Segments

variable (env : Env) (c : Cx) (seg : Segment)

theorem payloadStored_paces (prev : Seq) (priority : Bool) (ret : Int) :
    c.Paces (c.payloadStored prev priority ret).2 := by
  unfold payloadStored
  dsimp only
  generalize stored : c.modify _ = c₁
  have paces : c.Paces c₁ := by
    rw [← stored]
    exact .modify c rfl
  have high : c.Paces (if priority then c₁.raiseEvent (.read true) else c₁) :=
    paces.trans (.ite (raiseEvent_paces c₁ _))
  split
  · exact paces
  split
  · dsimp only
    generalize (if priority then c₁.raiseEvent (.read true) else c₁) = c₂ at high ⊢
    exact high.trans (.ite (raiseEvent_paces c₂ _))
  · exact paces

theorem processTcpPayload_paces : c.Paces (c.processTcpPayload seg).2 := by
  unfold processTcpPayload
  dsimp only
  split
  · exact .refl c
  split
  · exact .refl c
  split
  · exact .emit c _
  · obtain ⟨wnd, irs, swapped⟩ := addHeadSwapped_eq seg.bufAddr
      (RcvMem.rbPut { toMbufMem := c.mem, buff := c.st.rcvbuf } seg.id).2 c
    rw [swapped]
    refine Paces.trans ?_ (payloadStored_paces _ _ _ _)
    exact rfl

theorem establishedPayload_paces : c.Paces (c.establishedPayload env seg) := by
  have payload := processTcpPayload_paces c seg
  unfold establishedPayload
  split
  · generalize c.processTcpPayload seg = result at payload ⊢
    obtain ⟨ret, c'⟩ := result
    refine payload.andThen ?_
    split
    · exact enqueueAck_paces env c' _
    · exact enqueueAck_paces env c' _
  · exact .refl c

theorem closingPayload_paces : c.Paces (c.closingPayload env seg) := by
  have payload := processTcpPayload_paces c seg
  unfold closingPayload
  split
  · generalize c.processTcpPayload seg = result at payload ⊢
    obtain ⟨ret, c'⟩ := result
    refine payload.andThen ?_
    split
    · exact enqueueAck_paces env c' _
    · exact enqueueAck_paces env c' _
  · exact .refl c

theorem handleListen_paces : c.Paces (c.handleListen env seg) :=
  .ite ((Paces.modify c rfl).trans (controlQueueAdd_paces env _))

theorem raiseAcceptEvent_paces : c.Paces (c.raiseAcceptEvent env) := by
  unfold raiseAcceptEvent
  split
  · exact .emit c _
  dsimp only
  refine Paces.trans ?_ (.ite (.emit _ _))
  split
  · exact .emit c _
  · exact .modify c rfl

theorem finInFinWait1_paces : c.Paces (finInFinWait1 env seg c) := by
  refine .ite (Paces.trans ?_ (controlQueueAdd_paces env _))
  have taken : c.Paces (c.modify (TcpStream.takeFin seg)) := .modify c rfl
  cases (c.modify (TcpStream.takeFin seg)).st.state with
  | finWait1 => exact taken.trans (.modify _ rfl)
  | finWait2 =>
      exact taken.trans ((Paces.modify _ (f := fun s => { s with state := .timeWait }) rfl).trans
        (timewaitListAdd_paces env _))
  | closed | listen | synSent | synRcvd | established | closeWait | closing | lastAck
  | timeWait => exact taken

theorem finInFinWait2_paces : c.Paces (finInFinWait2 env seg c) := by
  refine .ite (Paces.trans ?_ (controlQueueAdd_paces env _))
  exact (Paces.modify c rfl).trans (timewaitListAdd_paces env _)

theorem finInEstablished_paces : c.Paces (finInEstablished env seg c) := by
  refine .ite ?_
  split
  · refine Paces.trans ?_ (controlQueueAdd_paces env _)
    exact (raiseEvent_paces c _).trans (.modify _ rfl)
  · exact enqueueAck_paces env c _

theorem handleTimeWait_paces : c.Paces (c.handleTimeWait env) :=
  (Paces.ite ((timewaitListRemove_paces c).trans (timewaitListAdd_paces env _))).trans
    (controlQueueAdd_paces env _)

theorem checkSequenceValidation_paces : c.Paces (c.checkSequenceValidation env seg).2 := by
  unfold checkSequenceValidation
  dsimp only
  split
  · exact .refl c
  split
  · exact .refl c
  split
  · split
    · exact enqueueAck_paces env c .aggregate
    · split
      · exact enqueueAck_paces env c .aggregate
      · exact enqueueAck_paces env c .now
  · exact (Paces.ite (timewaitListAdd_paces env c)).trans (controlQueueAdd_paces env _)

theorem handleRst_paces : c.Paces (c.handleRst seg) := by
  have ended : ∀ reason, c.Paces (c.modify fun s =>
      { s with state := .closed, closeReason := reason }).tcpStreamDestroy := fun reason => rfl
  have told : c.Paces (if c.st.onCloseq || c.st.onResetq then c
      else (c.modify fun s => { s with state := .closeWait, closeReason := .reset }).raiseEvent
        (.read true)) := by
    split
    · exact .refl c
    · exact (Paces.modify c rfl).trans (raiseEvent_paces _ _)
  unfold handleRst
  cases c.st.state with
  | synRcvd => exact .ite (ended _)
  | finWait1 | finWait2 | lastAck | closing | timeWait => exact ended _
  | closed | listen | synSent | established | closeWait => exact told

end Segments

end Cx

/-! ## Acknowledgements -/

namespace Tuning

/-- The congestion variables are another matter. -/
def congested (t : Tuning) (cwnd ssthresh : U32) : Tuning :=
  { t with cwnd := cwnd, ssthresh := ssthresh }

/-- Half of the smaller window, but two segments at least. -/
def halved (t : Tuning) : U32 :=
  let half := min t.cwnd.toNat t.peerWnd.toNat / 2
  BitVec.ofNat 32 (if half < 2 * t.mss then t.mss * 2 else half)

/-- After the duplicate count: the fast retransmission, or the window inflated. -/
def dupPaced (t : Tuning) (dup : Bool) : Tuning :=
  if dup && t.dupAcks == 3 then
    { t with ssthresh := t.halved, cwnd := t.halved + BitVec.ofNat 32 (3 * t.mss) }
  else if 3 < t.dupAcks then
    if t.cwnd < t.cwnd + BitVec.ofNat 32 t.mss then
      { t with cwnd := t.cwnd + BitVec.ofNat 32 t.mss }
    else t
  else t

/-- After `packets` packets are credited; a division by zero leaves the pace there. -/
def grown (t : Tuning) (early : Bool) (packets : Nat) : Tuning :=
  if t.effMss = 0 then t
  else if early then t
  else if t.cwnd < t.ssthresh then
    if t.cwnd < t.cwnd + BitVec.ofNat 32 t.mss then
      { t with cwnd := t.cwnd + BitVec.ofNat 32 (t.mss * packets) }
    else t
  else if t.cwnd = 0 then t
  else
    let cwnd := t.cwnd + BitVec.ofNat 32 (packets * t.mss * t.mss) / t.cwnd
    if t.cwnd < cwnd then { t with cwnd := cwnd } else t

end Tuning

namespace TcpStream

/-- The acknowledgement is a duplicate for `process_tcp_ack`. -/
def countsDup (s : TcpStream) (seg : Segment) : Bool :=
  (s.updateWindow seg.seq (s.adjustAck seg.ackSeq) (s.advertisedBy seg)).isDupAck
    (s.adjustAck seg.ackSeq) (s.peerWnd + s.sndWl2) seg.payloadLen

/-- The handler of the state passes the segment on to `process_tcp_ack`. -/
def handlesAck (s : TcpStream) (seg : Segment) : Bool :=
  match s.state with
  | .established => !seg.syn && seg.ack
  | .closeWait => !tcpSeqLt seg.seq s.rcvNxt
  | .lastAck | .finWait1 => !tcpSeqLt seg.seq s.rcvNxt && seg.ack
  | .finWait2 | .closing => seg.ack
  | _ => false

theorem reachesAck_eq (s : TcpStream) (seg : Segment) :
    s.reachesAck seg = (s.inSequence seg && !seg.rst && s.handlesAck seg) := rfl

/-- The stream after the window update and the duplicate count. -/
def counted (s : TcpStream) (seg : Segment) : TcpStream :=
  (s.updateWindow seg.seq (s.adjustAck seg.ackSeq) (s.advertisedBy seg)).countDupAck
    (s.countsDup seg) (s.adjustAck seg.ackSeq)

/-- The acknowledgement goes beyond the head of the send buffer. -/
def acksNew (s : TcpStream) (seg : Segment) : Bool :=
  !tcpSeqGeq s.sndbuf.headSeq (s.adjustAck seg.ackSeq)

/-- How many bytes it acknowledges. -/
def rmlen (s : TcpStream) (seg : Segment) : Nat :=
  (s.adjustAck seg.ackSeq - s.sndbuf.headSeq).toNat

/-- How many packets are credited for them. -/
def credited (s : TcpStream) (seg : Segment) : Nat := s.rmlen seg / s.effMss % 2 ^ 16

/-- The pace after `process_tcp_ack`. -/
def pacedBy (s : TcpStream) (seg : Segment) : Tuning :=
  if s.acksTooMuch (s.adjustAck seg.ackSeq) then s.tuning
  else
    let t := (s.counted seg).tuning.dupPaced (s.countsDup seg)
    if s.acksNew seg then t.grown (decide (s.state.val < TcpState.established.val)) (s.credited seg)
    else t

/-- What `process_tcp_ack` may leave of the pace. -/
structure AckTuned (s : TcpStream) (seg : Segment) (t : Tuning) : Prop where
  tooMuch : s.acksTooMuch (s.adjustAck seg.ackSeq) = true → t = s.tuning
  counts : s.acksTooMuch (s.adjustAck seg.ackSeq) = false →
    ∃ cwnd ssthresh, t = (s.counted seg).tuning.congested cwnd ssthresh
  exactly : t = s.pacedBy seg

theorem tuning_congr {s s' : TcpStream} (pace : s'.tuning = s.tuning) :
    s'.mss = s.mss ∧ s'.wscalePeer = s.wscalePeer ∧ s'.peerWnd = s.peerWnd ∧
      s'.sndWl1 = s.sndWl1 ∧ s'.sndWl2 = s.sndWl2 ∧ s'.dupAcks = s.dupAcks ∧
      s'.lastAckSeq = s.lastAckSeq ∧ s'.cwnd = s.cwnd ∧ s'.ssthresh = s.ssthresh := by
  simp only [tuning, Tuning.mk.injEq] at pace
  obtain ⟨mss, -, wscale, wnd, wl1, wl2, dups, last, cwnd, ssthresh⟩ := pace
  exact ⟨mss, wscale, wnd, wl1, wl2, dups, last, cwnd, ssthresh⟩

theorem effMss_congr {s s' : TcpStream} (pace : s'.tuning = s.tuning) : s'.effMss = s.effMss :=
  congrArg Tuning.effMss pace

theorem updateWindow_congr {s s' : TcpStream} (pace : s'.tuning = s.tuning) (seq ackSeq : Seq)
    (cwindow : U32) : (s'.updateWindow seq ackSeq cwindow).tuning =
      (s.updateWindow seq ackSeq cwindow).tuning := by
  obtain ⟨-, -, wnd, wl1, wl2, -⟩ := tuning_congr pace
  unfold updateWindow
  rw [wl1, wl2, wnd]
  split
  · simp only [tuning, Tuning.mk.injEq] at pace ⊢
    simp only [pace, and_self]
  · exact pace

theorem updateWindow_core (s : TcpStream) (seq ackSeq : Seq) (cwindow : U32) :
    (s.updateWindow seq ackSeq cwindow).core = s.core := by
  unfold updateWindow
  split <;> rfl

theorem counted_core (s : TcpStream) (seg : Segment) : (s.counted seg).core = s.core := by
  unfold counted countDupAck
  split
  · exact updateWindow_core s _ _ _
  · exact updateWindow_core s _ _ _

section Congr

variable {s s' : TcpStream} (seg : Segment)

theorem countsDup_congr (core : s'.core = s.core) (pace : s'.tuning = s.tuning) :
    s'.countsDup seg = s.countsDup seg := by
  obtain ⟨-, wscale, wnd, -, wl2, -⟩ := tuning_congr pace
  have advertised : s'.advertisedBy seg = s.advertisedBy seg := by
    rw [advertisedBy, advertisedBy, wscale]
  unfold countsDup
  rw [adjustAck_congr core, advertised, wnd, wl2]
  have updated := updateWindow_congr pace seg.seq (s.adjustAck seg.ackSeq) (s.advertisedBy seg)
  have nxt : (s'.updateWindow seg.seq (s.adjustAck seg.ackSeq) (s.advertisedBy seg)).sndNxt =
      (s.updateWindow seg.seq (s.adjustAck seg.ackSeq) (s.advertisedBy seg)).sndNxt :=
    congrArg Core.sndNxt ((updateWindow_core s' _ _ _).trans
      (core.trans (updateWindow_core s _ _ _).symm))
  generalize s'.updateWindow _ _ _ = u' at updated nxt ⊢
  generalize s.updateWindow _ _ _ = u at updated nxt ⊢
  obtain ⟨-, -, wnd', -, wl2', -, last', -⟩ := tuning_congr updated
  rw [isDupAck, isDupAck, nxt, last', wl2', wnd']

/-- The count depends on the pace and the sending side only. -/
theorem counted_congr (core : s'.core = s.core) (pace : s'.tuning = s.tuning) :
    (s'.counted seg).tuning = (s.counted seg).tuning := by
  obtain ⟨-, wscale, -⟩ := tuning_congr pace
  have advertised : s'.advertisedBy seg = s.advertisedBy seg := by
    rw [advertisedBy, advertisedBy, wscale]
  unfold counted
  rw [countsDup_congr seg core pace, adjustAck_congr core, advertised]
  have updated := updateWindow_congr pace seg.seq (s.adjustAck seg.ackSeq) (s.advertisedBy seg)
  generalize s'.updateWindow _ _ _ = u' at updated ⊢
  generalize s.updateWindow _ _ _ = u at updated ⊢
  obtain ⟨-, -, -, -, -, dups', -⟩ := tuning_congr updated
  unfold countDupAck
  split
  · simp only [tuning, Tuning.mk.injEq] at updated ⊢
    simp only [updated, and_self]
  · simp only [tuning, Tuning.mk.injEq] at updated ⊢
    simp only [updated, and_self]

theorem pacedBy_congr (core : s'.core = s.core) (pace : s'.tuning = s.tuning) :
    s'.pacedBy seg = s.pacedBy seg := by
  have buff : s'.sndbuf = s.sndbuf := congrArg Core.sndbuf core
  have state : s'.state = s.state := congrArg Core.state core
  have adjusted := adjustAck_congr core seg.ackSeq
  have fresh : s'.acksNew seg = s.acksNew seg := by
    rw [acksNew, acksNew, buff, adjusted]
  have credits : s'.credited seg = s.credited seg := by
    rw [credited, credited, rmlen, rmlen, buff, adjusted, effMss_congr pace]
  unfold pacedBy
  rw [adjusted, acksTooMuch_congr core, pace, counted_congr seg core pace,
    countsDup_congr seg core pace, fresh, credits, state]

end Congr

theorem AckTuned.congr {s s' : TcpStream} {seg : Segment} {t : Tuning} (core : s'.core = s.core)
    (pace : s'.tuning = s.tuning) (tuned : s'.AckTuned seg t) : s.AckTuned seg t := by
  have tooMuch := acksTooMuch_congr core (s.adjustAck seg.ackSeq)
  have tuned' := tuned
  obtain ⟨same, counts, exactly⟩ := tuned'
  rw [adjustAck_congr core, tooMuch] at same counts
  refine ⟨fun much => (same much).trans pace, fun few => ?_,
    exactly.trans (pacedBy_congr seg core pace)⟩
  obtain ⟨cwnd, ssthresh, value⟩ := counts few
  exact ⟨cwnd, ssthresh, by rw [value, counted_congr seg core pace]⟩

end TcpStream

namespace Cx

section Acks

variable (env : Env) (c : Cx) (seg : Segment)

/-- Only the congestion variables change. -/
def Congests (c c' : Cx) : Prop :=
  ∃ cwnd ssthresh, c'.st.tuning = c.st.tuning.congested cwnd ssthresh

theorem Paces.congests {c c' : Cx} (paces : c.Paces c') : c.Congests c' := by
  refine ⟨c.st.cwnd, c.st.ssthresh, ?_⟩
  rw [paces]
  rfl

theorem Congests.trans {c c' c'' : Cx} (first : c.Congests c') (second : c'.Congests c'') :
    c.Congests c'' := by
  obtain ⟨cwnd, ssthresh, value⟩ := first
  obtain ⟨cwnd', ssthresh', value'⟩ := second
  exact ⟨cwnd', ssthresh', by rw [value', value]; rfl⟩

theorem Congests.modify (c : Cx) {f : TcpStream → TcpStream}
    (kept : ∃ cwnd ssthresh, (f c.st).tuning = c.st.tuning.congested cwnd ssthresh) :
    c.Congests (c.modify f) := kept

theorem fastRetransmit_congests (a : Seq) : c.Congests (c.fastRetransmit env a) := by
  unfold fastRetransmit
  dsimp only
  refine Congests.trans ?_ (sendEventAdd_paces env _ _).congests
  refine Congests.trans ?_ (Paces.modify _ rfl).congests
  refine Congests.trans ?_ (.modify _ ⟨_, _, rfl⟩)
  refine Congests.trans ?_ (.modify _ ⟨_, _, rfl⟩)
  exact (Paces.ite ((Paces.modify c rfl).trans (.modify _ rfl))).congests

theorem inflateWindow_congests : c.Congests c.inflateWindow := by
  apply Congests.modify
  dsimp only
  split
  · exact ⟨_, _, rfl⟩
  · exact ⟨_, _, rfl⟩

theorem acceptAck_congests (a : Seq) : c.Congests (c.acceptAck env a) := by
  unfold acceptAck
  dsimp only
  split
  · exact (Paces.emit c _).congests
  cases grown : growWindow _ c.st with
  | none => exact (Paces.emit c _).congests
  | some s =>
      obtain ⟨cwnd, same⟩ := growWindow_eq grown
      subst same
      have freed (sndWnd : U32) (b : SndBuff) : c.Congests (c.modify fun s =>
        { s with cwnd := cwnd, sndbuf := b, sndUna := a, sndWnd := sndWnd }) :=
        .modify c ⟨_, _, rfl⟩
      dsimp only
      split
      · exact (freed _ _).trans (rtoListRemove_paces _).congests
      · exact (freed _ _).trans (rtoListUpdate_paces env _).congests

theorem fastRetransmit_tuning (a : Seq) : (c.fastRetransmit env a).st.tuning =
    { c.st.tuning with
      ssthresh := c.st.tuning.halved
      cwnd := c.st.tuning.halved + BitVec.ofNat 32 (3 * c.st.mss) } := by
  unfold fastRetransmit
  dsimp only
  generalize rolled : (if tcpSeqLt a c.st.sndNxt = true then _ else c) = c₁
  have paces : c₁.st.tuning = c.st.tuning := by
    rw [← rolled]
    exact Paces.ite ((Paces.modify c rfl).trans (.modify _ rfl))
  have last := sendEventAdd_paces env (((c₁.modify fun s =>
    { s with ssthresh := halvedThreshold s }).modify fun s =>
      { s with cwnd := s.ssthresh + BitVec.ofNat 32 (3 * s.mss) }).modify fun s =>
        { s with nrtx := if s.nrtx < tcpMaxRtx then s.nrtx + 1 else s.nrtx }) false
  refine Eq.trans last ?_
  rw [← paces, show c.st.mss = c₁.st.mss from (congrArg Tuning.mss paces).symm]
  rfl

theorem fastRetransmit_head (a : Seq) :
    (c.fastRetransmit env a).st.sndbuf.headSeq = c.st.sndbuf.headSeq := by
  have rolled : (c.st.core.rollback a).sndbuf.headSeq = c.st.sndbuf.headSeq := by
    unfold Core.rollback
    split
    · rcases SndBuff.sbResetRetrans_cases c.st.sndbuf with ⟨same, -⟩ | ⟨-, -, moved⟩
      · change c.st.sndbuf.sbResetRetrans.2.headSeq = _
        rw [same]
      · change c.st.sndbuf.sbResetRetrans.2.headSeq = _
        rw [moved]
    · rfl
  rw [← rolled]
  exact congrArg (fun v : View => v.sndbuf.headSeq) (view_fastRetransmit env a c)

theorem fastRetransmit_state (a : Seq) : (c.fastRetransmit env a).st.state = c.st.state := by
  have kept : (c.st.core.rollback a).state = c.st.state := by
    unfold Core.rollback
    split <;> rfl
  rw [← kept]
  exact congrArg (fun v : View => v.state) (view_fastRetransmit env a c)

theorem inflateWindow_tuning : c.inflateWindow.st.tuning =
    if c.st.cwnd < c.st.cwnd + BitVec.ofNat 32 c.st.mss then
      { c.st.tuning with cwnd := c.st.cwnd + BitVec.ofNat 32 c.st.mss }
    else c.st.tuning := by
  unfold inflateWindow
  rw [modify_st]
  dsimp only
  split <;> rfl

theorem growWindow_tuning {s : TcpStream} (packets : Nat) (divides : s.effMss ≠ 0) :
    ((growWindow packets s).getD s).tuning =
      s.tuning.grown (decide (s.state.val < TcpState.established.val)) packets := by
  have divides : s.tuning.effMss ≠ 0 := divides
  unfold growWindow Tuning.grown
  rw [if_neg divides]
  by_cases early : s.state.val < TcpState.established.val
  · rw [if_pos early, if_pos (decide_eq_true early)]
    rfl
  rw [if_neg early, decide_eq_false early, if_neg Bool.false_ne_true]
  change (Option.getD (if s.cwnd < s.ssthresh then _ else _) s).tuning =
    if s.cwnd < s.ssthresh then if s.cwnd < s.cwnd + BitVec.ofNat 32 s.mss then _ else _
    else if s.cwnd = 0 then _ else _
  split
  · rw [Option.getD_some]
    split <;> rfl
  split
  · rfl
  · rw [Option.getD_some]
    dsimp only
    change _ = if s.cwnd < s.cwnd + BitVec.ofNat 32 (packets * s.mss * s.mss) / s.cwnd then _ else _
    split <;> rfl

theorem acceptAck_tuning (a : Seq) : (c.acceptAck env a).st.tuning =
    c.st.tuning.grown (decide (c.st.state.val < TcpState.established.val))
      ((a - c.st.sndbuf.headSeq).toNat / c.st.effMss % 2 ^ 16) := by
  unfold acceptAck
  dsimp only
  split
  · rename_i zero
    have zero : c.st.tuning.effMss = 0 := zero
    rw [Tuning.grown, if_pos zero]
    rfl
  rename_i divides
  rw [← growWindow_tuning _ divides]
  cases growWindow _ c.st with
  | none => rfl
  | some s =>
      dsimp only
      rw [Option.getD_some]
      have freed (sndWnd : U32) (b : SndBuff) : (Cx.mk { s with
        sndbuf := b, sndUna := a, sndWnd := sndWnd } c.mem c.avail c.out).st.tuning = s.tuning := rfl
      split
      · exact Eq.trans (rtoListRemove_paces _) (freed _ _)
      · exact Eq.trans (rtoListUpdate_paces env _) (freed _ _)

/-- **What `process_tcp_ack` does to the pace.** -/
theorem processTcpAck_paced : (c.processTcpAck env seg).st.tuning = c.st.pacedBy seg := by
  unfold processTcpAck TcpStream.pacedBy
  dsimp only
  split
  · rfl
  have counted : ((c.modify (TcpStream.updateWindow seg.seq (c.st.adjustAck seg.ackSeq)
      (c.st.advertisedBy seg))).modify (TcpStream.countDupAck (c.st.countsDup seg)
        (c.st.adjustAck seg.ackSeq))).st = c.st.counted seg := rfl
  have dups : (c.modify (TcpStream.updateWindow seg.seq (c.st.adjustAck seg.ackSeq)
      (c.st.advertisedBy seg))).st.isDupAck (c.st.adjustAck seg.ackSeq)
        (c.st.peerWnd + c.st.sndWl2) seg.payloadLen = c.st.countsDup seg := rfl
  rw [dups]
  have core := TcpStream.counted_core c.st seg
  have sizes : (c.st.counted seg).effMss = c.st.effMss := by
    unfold TcpStream.counted TcpStream.countDupAck TcpStream.updateWindow
    split <;> split <;> rfl
  rw [← counted] at core sizes ⊢
  generalize (c.modify _).modify _ = c₂ at core sizes ⊢
  generalize recovered : (if (c.st.countsDup seg && c₂.st.dupAcks == 3) = true then _ else _) = c₃
  -- the duplicate count leaves the head of the buffer and the state
  have paced₃ : c₃.st.tuning = c₂.st.tuning.dupPaced (c.st.countsDup seg) ∧
      c₃.st.sndbuf.headSeq = c.st.sndbuf.headSeq ∧ c₃.st.state = c.st.state := by
    have buff : c₂.st.sndbuf = c.st.sndbuf := congrArg Core.sndbuf core
    have state : c₂.st.state = c.st.state := congrArg Core.state core
    rw [← recovered]
    unfold Tuning.dupPaced
    by_cases third : (c.st.countsDup seg && c₂.st.dupAcks == 3) = true
    · have third' : (c.st.countsDup seg && c₂.st.tuning.dupAcks == 3) = true := third
      rw [if_pos third, if_pos third']
      refine ⟨fastRetransmit_tuning env c₂ _, ?_, ?_⟩
      · rw [fastRetransmit_head, buff]
      · rw [fastRetransmit_state, state]
    · have third' : ¬ (c.st.countsDup seg && c₂.st.tuning.dupAcks == 3) = true := third
      rw [if_neg third, if_neg third']
      by_cases more : 3 < c₂.st.dupAcks
      · have more' : 3 < c₂.st.tuning.dupAcks := more
        rw [if_pos more, if_pos more']
        refine ⟨inflateWindow_tuning c₂, ?_, ?_⟩
        · rw [← buff]
          unfold inflateWindow
          rw [modify_st]
          dsimp only
          split <;> rfl
        · rw [← state]
          unfold inflateWindow
          rw [modify_st]
          dsimp only
          split <;> rfl
      · have more' : ¬ 3 < c₂.st.tuning.dupAcks := more
        rw [if_neg more, if_neg more']
        exact ⟨rfl, by rw [buff], state⟩
  generalize caught : (if tcpSeqGt _ c₃.st.sndNxt = true then _ else c₃) = c₄
  have paced₄ : c₄.st.tuning = c₃.st.tuning ∧ c₄.st.sndbuf.headSeq = c₃.st.sndbuf.headSeq ∧
      c₄.st.state = c₃.st.state := by
    rw [← caught]
    split <;> exact ⟨rfl, rfl, rfl⟩
  rw [← paced₃.1, ← paced₄.1, TcpStream.acksNew, ← paced₃.2.1, ← paced₄.2.1]
  cases fresh : tcpSeqGeq c₄.st.sndbuf.headSeq (c.st.adjustAck seg.ackSeq) with
  | true =>
      rw [if_pos rfl]
      rfl
  | false =>
      rw [if_neg Bool.false_ne_true, acceptAck_tuning]
      have sizes₄ : c₄.st.effMss = c.st.effMss := by
        have kept : c₄.st.tuning.effMss = c₂.st.tuning.effMss := by
          rw [paced₄.1, paced₃.1]
          unfold Tuning.dupPaced
          split
          · rfl
          · split
            · split <;> rfl
            · rfl
        exact Eq.trans kept sizes
      rw [paced₄.2.2, paced₃.2.2, sizes₄, TcpStream.credited, TcpStream.rmlen, ← paced₃.2.1,
        ← paced₄.2.1]
      rfl

theorem processTcpAck_tuned : c.st.AckTuned seg (c.processTcpAck env seg).st.tuning := by
  have exactly := processTcpAck_paced env c seg
  revert exactly
  unfold processTcpAck
  dsimp only
  split
  · rename_i much
    exact fun exactly => ⟨fun _ => rfl, fun few => Bool.noConfusion (much.symm.trans few), exactly⟩
  rename_i few
  refine fun exactly => ⟨fun much => absurd much few, fun _ => ?_, exactly⟩
  clear exactly
  have counted : ((c.modify (TcpStream.updateWindow seg.seq (c.st.adjustAck seg.ackSeq)
      (c.st.advertisedBy seg))).modify (TcpStream.countDupAck (c.st.countsDup seg)
        (c.st.adjustAck seg.ackSeq))).st = c.st.counted seg := rfl
  have dups : (c.modify (TcpStream.updateWindow seg.seq (c.st.adjustAck seg.ackSeq)
      (c.st.advertisedBy seg))).st.isDupAck (c.st.adjustAck seg.ackSeq)
        (c.st.peerWnd + c.st.sndWl2) seg.payloadLen = c.st.countsDup seg := rfl
  rw [dups]
  generalize (c.modify _).modify _ = c₂ at counted ⊢
  generalize recovered : (if (c.st.countsDup seg && c₂.st.dupAcks == 3) = true then _ else _) = c₃
  have congests₃ : c₂.Congests c₃ := by
    rw [← recovered]
    split
    · exact fastRetransmit_congests env c₂ _
    · split
      · exact inflateWindow_congests c₂
      · exact (Paces.refl c₂).congests
  generalize caught : (if tcpSeqGt _ c₃.st.sndNxt = true then _ else c₃) = c₄
  have congests₄ : c₂.Congests c₄ := by
    rw [← caught]
    exact congests₃.trans (Paces.ite (.modify c₃ rfl)).congests
  rw [← counted]
  split
  · exact congests₄
  · exact congests₄.trans (acceptAck_congests env c₄ _)

/-- A handler from ESTABLISHED on: the acknowledgement is processed when `acks`, and nothing else
happens to the pace. -/
def Tunes (acks : Bool) (seg : Segment) (c c' : Cx) : Prop :=
  (acks = true ∧ c.st.AckTuned seg c'.st.tuning) ∨
    (c.Paces c' ∧ (acks = false ∨ c'.view.halted = true))

section Tunes

variable {c c' c'' : Cx} {seg : Segment} {acks : Bool}

theorem Tunes.kept (paces : c.Paces c') : Tunes false seg c c' := .inr ⟨paces, .inl rfl⟩

theorem Tunes.acked (env : Env) (c : Cx) (seg : Segment) :
    Tunes true seg c (c.processTcpAck env seg) := .inl ⟨rfl, processTcpAck_tuned env c seg⟩

theorem Tunes.andThen {f : Cx → Cx} (tunes : Tunes acks seg c c') (paces : c'.Paces (f c')) :
    Tunes acks seg c (c'.andThen f) := by
  unfold Cx.andThen
  split
  · exact tunes
  · rename_i running
    rcases tunes with ⟨now, tuned⟩ | ⟨first, none_ | halted⟩
    · exact .inl ⟨now, by rw [paces]; exact tuned⟩
    · exact .inr ⟨first.trans paces, .inl none_⟩
    · exact absurd halted running

end Tunes

theorem handleCloseWait_tunes :
    Tunes (!tcpSeqLt seg.seq c.st.rcvNxt) seg c (c.handleCloseWait env seg) := by
  unfold handleCloseWait
  cases tcpSeqLt seg.seq c.st.rcvNxt with
  | true =>
      rw [if_pos rfl]
      exact .kept (controlQueueAdd_paces env c)
  | false =>
      rw [if_neg Bool.false_ne_true]
      exact .acked env c seg

theorem handleLastAck_tunes :
    Tunes (!tcpSeqLt seg.seq c.st.rcvNxt && seg.ack) seg c (c.handleLastAck env seg) := by
  unfold handleLastAck
  cases tcpSeqLt seg.seq c.st.rcvNxt with
  | true =>
      rw [if_pos rfl]
      exact .kept (.refl c)
  | false =>
      rw [if_neg Bool.false_ne_true]
      cases seg.ack with
      | false =>
          rw [if_neg Bool.false_ne_true]
          exact .kept (controlQueueAdd_paces env c)
      | true =>
          rw [if_pos rfl]
          refine (Tunes.acked env c seg).andThen ?_
          generalize c.processTcpAck env seg = c₁
          split
          · exact .refl c₁
          split
          · exact (Paces.modify c₁ rfl).trans (.emit _ _)
          · exact controlQueueAdd_paces env c₁

theorem handleFinWait1_tunes :
    Tunes (!tcpSeqLt seg.seq c.st.rcvNxt && seg.ack) seg c (c.handleFinWait1 env seg) := by
  unfold handleFinWait1
  cases tcpSeqLt seg.seq c.st.rcvNxt with
  | true =>
      rw [if_pos rfl]
      exact .kept (controlQueueAdd_paces env c)
  | false =>
      rw [if_neg Bool.false_ne_true]
      cases seg.ack with
      | false =>
          rw [if_neg Bool.false_ne_true]
          exact .kept (.refl c)
      | true =>
          rw [if_pos rfl]
          refine (Tunes.acked env c seg).andThen ?_
          generalize c.processTcpAck env seg = c₁
          refine Paces.trans (Paces.ite ?_) ((closingPayload_paces env _ seg).andThen
            (finInFinWait1_paces env _ seg))
          refine Paces.trans ?_ (.modify _ rfl)
          exact (Paces.modify c₁ rfl).trans (rtoListRemove_paces _)

theorem handleFinWait2_tunes : Tunes seg.ack seg c (c.handleFinWait2 env seg) := by
  unfold handleFinWait2
  cases seg.ack with
  | false =>
      rw [if_neg Bool.false_ne_true]
      exact .kept (.refl c)
  | true =>
      rw [if_pos rfl]
      refine (Tunes.acked env c seg).andThen ?_
      exact (closingPayload_paces env _ seg).andThen (finInFinWait2_paces env _ seg)

theorem handleClosing_tunes : Tunes seg.ack seg c (c.handleClosing env seg) := by
  unfold handleClosing
  cases seg.ack with
  | false =>
      rw [if_neg Bool.false_ne_true]
      exact .kept (.refl c)
  | true =>
      rw [if_pos rfl]
      refine (Tunes.acked env c seg).andThen ?_
      generalize c.processTcpAck env seg = c₁
      split
      · exact .refl c₁
      split
      · exact .refl c₁
      · exact (Paces.modify c₁ rfl).trans (timewaitListAdd_paces env _)

/-- The payload does not touch the sending side. -/
theorem establishedPayload_core :
    (c.establishedPayload env seg).view.halted = true ∨
      (c.establishedPayload env seg).st.core = c.st.core := by
  have payload := processTcpPayload_view seg c
  unfold establishedPayload
  split
  · generalize c.processTcpPayload seg = result at payload ⊢
    obtain ⟨ret, c'⟩ := result
    dsimp only at payload ⊢
    unfold Cx.andThen
    split
    · rename_i halted
      exact .inl halted
    · rename_i running
      rcases payload with halted | ⟨r, view⟩
      · exact absurd halted running
      · refine .inr ?_
        have core : c'.st.core = c.st.core := by
          have same := congrArg View.toCore view
          exact same
        split
        · exact (congrArg View.toCore (view_enqueueAck env c' _)).trans core
        · exact (congrArg View.toCore (view_enqueueAck env c' _)).trans core
  · exact .inr rfl

theorem handleEstablished_tunes :
    Tunes (!seg.syn && seg.ack) seg c (c.handleEstablished env seg) := by
  unfold handleEstablished
  cases seg.syn with
  | true => exact .kept (controlQueueAdd_paces env c)
  | false =>
      have paces := establishedPayload_paces env c seg
      have core := establishedPayload_core env c seg
      rw [if_neg Bool.false_ne_true]
      generalize c.establishedPayload env seg = c₁ at paces core ⊢
      unfold Cx.andThen
      split
      · rename_i halted
        exact .inr ⟨paces, .inr halted⟩
      rename_i running
      have core₁ : c₁.st.core = c.st.core := core.resolve_left running
      have acked : Tunes (!false && seg.ack) seg c
          (if seg.ack = true then c₁.processTcpAck env seg else c₁) := by
        cases seg.ack with
        | false => exact .kept paces
        | true => exact .inl ⟨rfl, (processTcpAck_tuned env c₁ seg).congr core₁ paces⟩
      exact Tunes.andThen acked (finInEstablished_paces env _ seg)

/-- In the states after the handshake the handler does nothing else. -/
theorem handleSegment_tunes (late : c.st.state.isOpen = true ∨ c.st.state.isFin = true) :
    Tunes (c.st.handlesAck seg) seg c (c.handleSegment env seg) := by
  unfold handleSegment TcpStream.handlesAck
  cases now : c.st.state with
  | established => exact handleEstablished_tunes env c seg
  | closeWait => exact handleCloseWait_tunes env c seg
  | lastAck => exact handleLastAck_tunes env c seg
  | finWait1 => exact handleFinWait1_tunes env c seg
  | finWait2 => exact handleFinWait2_tunes env c seg
  | closing => exact handleClosing_tunes env c seg
  | timeWait => exact .kept (handleTimeWait_paces env c)
  | closed | listen | synSent | synRcvd =>
      rw [now] at late
      exact absurd late (by decide)

end Acks

end Cx

/-! ## The way of a segment to its handler -/

namespace TcpStream

/-- The options of a SYN are read before anything else, but in SYN_SENT. -/
def optioned (s : TcpStream) (env : Env) (seg : Segment) : Option TcpStream :=
  if seg.syn && s.state != .synSent then
    parseTcpOptions env.curTs seg.options (seg.doff * 4 - 20) (seg.doff * 4 - 20 + 1) 0 s
  else some s

/-- The stream as the handler of its state finds it. -/
def admitted (s : TcpStream) (seg : Segment) (curTs : U32) : TcpStream :=
  { s with
    peerWnd := s.advertisedBy seg
    lastActiveTs := curTs
    haveReset := s.haveReset || seg.rst }

end TcpStream

namespace Cx

/-- What becomes of a segment on a stream that was found. -/
inductive Admission (c : Cx) (env : Env) (seg : Segment) (c' : Cx) : Prop
  | halted (halted : c'.view.halted = true)
  | dropped (s : TcpStream) (read : c.st.optioned env seg = some s)
      (late : TcpState.synRcvd.val < c.st.state.val) (outside : c.st.inSequence seg = false)
      (paces : c'.st.tuning = s.tuning)
  | admitted (s : TcpStream) (read : c.st.optioned env seg = some s)
      (inside : TcpState.synRcvd.val < c.st.state.val → c.st.inSequence seg = true) (c₁ : Cx)
      (st : c₁.st = s.admitted seg env.curTs) (view : c₁.view = c.view)
      (result : c' = if seg.rst && decide (TcpState.synSent.val < c.st.state.val) then
        c₁.handleRst seg else c₁.handleSegment env seg)

/-- The options change nothing else. -/
theorem optioned_same {s s' : TcpStream} {env : Env} {seg : Segment}
    (read : s.optioned env seg = some s') :
    ∃ o, s' = s.withOptions o := by
  unfold TcpStream.optioned at read
  split at read
  · exact parseTcpOptions_eq _ _ _ _ _ _ _ read
  · cases read
    exact s.withOptions_self

/-- The rest of the way, when the options are read. -/
theorem validateSegment_admission (env : Env) (seg : Segment) {c c₀ : Cx} {s : TcpStream}
    (read : c.st.optioned env seg = some s) (view : c₀.view = c.view) (st : c₀.st = s) :
    Admission c env seg
      ((c₀.modify fun s => { s with lastActiveTs := env.curTs }).validateSegment env seg) := by
  have core : s.core = c.st.core := by
    rw [← st]
    exact congrArg View.toCore view
  have rcv : s.rcvCore = c.st.rcvCore := by
    rw [← st]
    exact congrArg View.rcv view
  have state : s.state = c.st.state := congrArg Core.state core
  have inSeq : s.inSequence seg = c.st.inSequence seg := by
    have nxt : s.rcvNxt = c.st.rcvNxt := congrArg RcvCore.rcvNxt rcv
    have wnd : s.rcvWnd = c.st.rcvWnd := congrArg RcvCore.rcvWnd rcv
    rw [TcpStream.inSequence, TcpStream.inSequence, nxt, wnd]
  let c₁ : Cx := c₀.modify fun s => { s with lastActiveTs := env.curTs }
  have st₁ : c₁.st = { s with lastActiveTs := env.curTs } := by
    rw [← st]
    rfl
  have view₁ : c₁.view = c.view := (view_modify c₀ ⟨rfl, rfl⟩).trans view
  have enters : (TcpState.synRcvd.val < c.st.state.val → c.st.inSequence seg = true) →
      Admission c env seg (c₁.acceptSegment env seg) := by
    intro inside
    let c₂ : Cx := c₁.modify fun s => { s with peerWnd := s.advertisedBy seg }
    let c₃ : Cx := c₂.timeoutListUpdate env
    let c₄ : Cx := if seg.rst then c₃.modify fun s => { s with haveReset := true } else c₃
    have view₃ : c₃.view = c.view :=
      (view_timeoutListUpdate env c₂).trans ((view_modify c₁ ⟨rfl, rfl⟩).trans view₁)
    have st₃ : c₃.st = { s with peerWnd := s.advertisedBy seg, lastActiveTs := env.curTs } := by
      have same : c₃.st = { c₂.st with lastActiveTs := env.curTs } :=
        timeoutListUpdate_st env c₂
      rw [same]
      change { c₁.st with peerWnd := c₁.st.advertisedBy seg, lastActiveTs := env.curTs } = _
      rw [st₁]
      rfl
    have st₄ : c₄.st = s.admitted seg env.curTs ∧ c₄.view = c.view := by
      cases rst : seg.rst with
      | true =>
          have noted : c₄ = c₃.modify fun s => { s with haveReset := true } := if_pos rst
          rw [noted, TcpStream.admitted, rst, Bool.or_true]
          exact ⟨by rw [modify_st, st₃], (view_modify c₃ ⟨rfl, rfl⟩).trans view₃⟩
      | false =>
          have noted : c₄ = c₃ := if_neg (by rw [rst]; exact Bool.false_ne_true)
          rw [noted, TcpStream.admitted, rst, Bool.or_false]
          exact ⟨st₃, view₃⟩
    have now : c₄.st.state = c.st.state := by
      rw [st₄.1]
      exact state
    refine .admitted s read inside c₄ st₄.1 st₄.2 ?_
    rw [← now]
    rfl
  have now : c₁.st.state = c.st.state := by
    rw [st₁]
    exact state
  unfold validateSegment
  change Admission c env seg (if TcpState.synRcvd.val < c₁.st.state.val then _ else _)
  rw [now]
  split
  · rename_i late
    have inSeq₁ : c₁.st.inSequence seg = c.st.inSequence seg := by
      rw [st₁]
      exact inSeq
    have passes := checkSequenceValidation_fst env seg c₁
    have paces : (c₁.checkSequenceValidation env seg).2.st.tuning = s.tuning := by
      rw [checkSequenceValidation_paces env c₁ seg, st₁]
      rfl
    rcases checkSequenceValidation_cases env seg c₁ with ⟨passed, inside⟩ | ⟨failed, -⟩
    · rw [passed]
      exact enters fun _ => inSeq₁.symm.trans inside
    · rw [failed, inSeq₁] at passes
      generalize c₁.checkSequenceValidation env seg = result at failed paces
      obtain ⟨ok, c'⟩ := result
      dsimp only at failed paces
      subst failed
      exact .dropped s read late passes.symm paces
  · rename_i early
    exact enters fun late => absurd late early

/-- **Every segment is dropped by the sequence check, or goes to its handler with the window it
advertises.** -/
theorem processSegment_admission (env : Env) (seg : Segment) (c : Cx) :
    Admission c env seg (c.processSegment env seg) := by
  unfold processSegment
  have readable : (c.receive seg).st.optioned env seg = c.st.optioned env seg := rfl
  dsimp only
  cases options : (seg.syn && (c.receive seg).st.state != .synSent) with
  | false =>
      rw [if_neg Bool.false_ne_true]
      have read : c.st.optioned env seg = some c.st := if_neg (by
        change ¬ ((seg.syn && (c.receive seg).st.state != .synSent) = true)
        rw [options]
        exact Bool.false_ne_true)
      unfold Cx.andThen
      split
      · rename_i halted
        exact .halted halted
      · exact validateSegment_admission env seg read rfl rfl
  | true =>
      rw [if_pos rfl]
      have read : c.st.optioned env seg = parseTcpOptions env.curTs seg.options (seg.doff * 4 - 20)
          (seg.doff * 4 - 20 + 1) 0 c.st := if_pos options
      unfold Cx.andThen
      split
      · rename_i halted
        exact .halted halted
      rename_i running
      cases parsed : parseTcpOptions env.curTs seg.options (seg.doff * 4 - 20)
          (seg.doff * 4 - 20 + 1) 0 c.st with
      | none =>
          have hangs : (c.receive seg).parseOptions env seg =
              (c.receive seg).emit (.halt .hang) := by
            unfold parseOptions
            dsimp only
            rw [show (c.receive seg).st = c.st from rfl, parsed]
          rw [hangs] at running
          exact absurd rfl running
      | some s =>
          have parses : (c.receive seg).parseOptions env seg = { c.receive seg with st := s } := by
            unfold parseOptions
            dsimp only
            rw [show (c.receive seg).st = c.st from rfl, parsed]
          rw [parses]
          rw [parsed] at read
          obtain ⟨o, same⟩ := optioned_same read
          refine validateSegment_admission env seg read ?_ rfl
          rw [same]
          rfl

theorem handleRto_congests (env : Env) (c : Cx) : c.Congests (c.handleRto env) := by
  unfold handleRto
  split
  · dsimp only
    generalize counted : c.modify _ = c₁
    have paces₁ : c.Paces c₁ := by
      rw [← counted]
      exact .modify c rfl
    generalize paced : c₁.modify _ = c₂
    have congests : c.Congests c₂ := by
      rw [← paced]
      exact paces₁.congests.trans (.modify c₁ ⟨_, _, rfl⟩)
    have retransmits : c.Congests ((c₂.setSndbuf c₂.st.sndbuf.sbResetRetrans.2).sendEventAdd env
        false) :=
      congests.trans ((Paces.modify c₂ rfl).trans (sendEventAdd_paces env _ false)).congests
    have asks : c.Congests (c₂.controlQueueAdd env) :=
      congests.trans (controlQueueAdd_paces env c₂).congests
    split
    · exact retransmits
    · split
      · exact congests
      · split
        · exact retransmits
        · exact asks
    · split
      · exact congests
      · split
        · exact retransmits
        · exact asks
    · split
      · exact congests
      · split
        · exact retransmits
        · exact asks
    · exact asks
  · exact ((Paces.modify c rfl).trans (.emit _ _)).congests

theorem rtoListCheck_congests (env : Env) (c : Cx) : c.Congests (c.rtoListCheck env) :=
  (Paces.modify c (f := fun s => { s with onRto := false }) rfl).congests.trans
    (handleRto_congests env _)

end Cx

namespace Conn

/-- What happens between two segments leaves the pace alone, but for the congestion variables,
which the retransmission timer sets. -/
theorem serve_congests (s : Conn) (e : ConnEvent) (other : ∀ seg, e.call ≠ .packet seg) :
    s.cx.Congests (s.serve e).cx ∧ (e.call ≠ .rto → s.cx.Paces (s.serve e).cx) := by
  have keeps : ∀ c' : Cx, s.cx.Paces c' →
      s.cx.Congests c' ∧ (e.call ≠ .rto → s.cx.Paces c') :=
    fun c' paces => ⟨paces.congests, fun _ => paces⟩
  unfold serve
  dsimp only
  cases call : e.call with
  | packet seg => exact absurd call (other seg)
  | rto =>
      dsimp only
      refine ⟨?_, fun late => absurd rfl late⟩
      split
      · exact Cx.rtoListCheck_congests e.env (s.entry e)
      · exact (Cx.Paces.refl s.cx).congests
  | send len highPri =>
      rw [call] at keeps
      have paces := Cx.qTcpSend_paces e.env (s.entry e) { id := s.fresh, payloadLen := 0 } len
        highPri
      dsimp only
      generalize (s.entry e).qTcpSend e.env _ len highPri = result at paces ⊢
      exact keeps _ paces
  | recv =>
      rw [call] at keeps
      exact keeps _ (Cx.qRecv_paces (s.entry e))
  | close =>
      rw [call] at keeps
      have paces := Cx.tcpStreamClose_paces (s.entry e)
      dsimp only
      generalize (s.entry e).tcpStreamClose = result at paces ⊢
      exact keeps _ paces
  | handleClose =>
      rw [call] at keeps
      dsimp only
      split
      · exact keeps _ (Cx.handleCloseCall_paces e.env (s.entry e))
      · exact keeps _ (.refl s.cx)
  | serveControl =>
      rw [call] at keeps
      exact keeps _ (Cx.writeTcpControlQueue_paces e.env (s.entry e))
  | serveSend =>
      rw [call] at keeps
      dsimp only
      split
      · exact keeps _ (Cx.writeTcpSendQueue_paces e.env (s.entry e))
      · exact keeps _ (.refl s.cx)
  | serveAck =>
      rw [call] at keeps
      exact keeps _ (Cx.writeTcpAckQueue_paces e.env (s.entry e))
  | timewait =>
      rw [call] at keeps
      dsimp only
      split
      · exact keeps _ rfl
      · exact keeps _ (.refl s.cx)
  | timeout =>
      rw [call] at keeps
      dsimp only
      split
      · exact keeps _ rfl
      · exact keeps _ (.refl s.cx)

end Conn

end QStack
