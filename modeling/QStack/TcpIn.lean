/-
# QStack.TcpIn -- a segment that arrives for a stream: tcp_in.c

`processSegment` is `process_tcp_packet` from the moment the stream is known: the
sequence check, the window, a reset, and the handler of the state.  The look-up and
the creation of streams belong to the stack.

The handlers follow the source closely, oddities included: SYN_SENT counts every
acceptable ACK, with or without SYN, as the acknowledgement of the SYN; CLOSE_WAIT
processes `ack_seq` whether or not the ACK bit is set; a call that returns `FAILED`
counts as true in the FIN_WAIT handlers and as false in ESTABLISHED.
-/
import QStack.TcpOut

namespace QStack

set_option autoImplicit false

/-- A received segment.  `options` are the bytes that follow the fixed header. -/
structure Segment where
  seq : Seq
  ackSeq : Seq := 0
  syn : Bool := false
  ack : Bool := false
  fin : Bool := false
  rst : Bool := false
  /-- a `uint16_t` -/
  window : Nat := 0
  payloadLen : Nat := 0
  doff : Nat := 5
  options : Nat → Nat := fun _ => 0
  id : MbufId := 0
  /-- the mbuf as the driver delivers it -/
  mbuf : Mbuf := {}
  /-- `buf_addr` of the mbuf -/
  bufAddr : BitVec 64 := 0

/-- The FIN of a segment takes its place in the sequence. -/
def TcpStream.takeFin (seg : Segment) (s : TcpStream) : TcpStream :=
  { s with
    rcvNxt := s.rcvNxt + 1
    fins := ⟨seg.seq + BitVec.ofNat 32 seg.payloadLen, s.rcvbuf.mergedNext⟩ :: s.fins }

/-! ## Options -/

/-- `ParseTCPOptions` from byte `i` on.  Every round moves on by a byte at least, except that an
unknown option with length 0 sends the loop back to itself: none. -/
def parseTcpOptions (curTs : U32) (opt : Nat → Nat) (len : Nat) :
    Nat → Nat → TcpStream → Option TcpStream
  | 0, _, s => some s
  | rounds + 1, i, s =>
      if len ≤ i then some s
      else if opt i = 0 then some s
      else if opt i = 1 then parseTcpOptions curTs opt len rounds (i + 1) s
      else
        let optlen := opt (i + 1)
        if len < i + optlen then some s
        else if opt i = 2 then
          let mss := opt (i + 2) * 256 + opt (i + 3)
          parseTcpOptions curTs opt len rounds (i + 4) { s with mss := mss, effMss := mss }
        else if opt i = 3 then
          parseTcpOptions curTs opt len rounds (i + 3) { s with wscalePeer := opt (i + 2) }
        else if opt i = 4 then
          parseTcpOptions curTs opt len rounds (i + 2) { s with sackPermit := true }
        else if opt i = 8 then
          parseTcpOptions curTs opt len rounds (i + 10)
            { s with
              sawTimestamp := true
              tsRecent := BitVec.ofNat 32
                (((opt (i + 2) * 256 + opt (i + 3)) * 256 + opt (i + 4)) * 256 + opt (i + 5))
              tsLastTsUpd := curTs }
        else if optlen = 0 then none
        else parseTcpOptions curTs opt len rounds (i + optlen) s

namespace Cx

def parseOptions (env : Env) (seg : Segment) (c : Cx) : Cx :=
  let len := seg.doff * 4 - 20
  match parseTcpOptions env.curTs seg.options len (len + 1) 0 c.st with
  | some s => { c with st := s }
  | none => c.emit (.halt .hang)

end Cx

/-! ## Acknowledgements -/

namespace TcpStream

/-- The window the segment advertises; a shift by more than 31 is taken modulo 32. -/
def advertisedBy (s : TcpStream) (seg : Segment) : U32 :=
  if seg.syn then BitVec.ofNat 32 seg.window
  else BitVec.ofNat 32 seg.window <<< (s.wscalePeer % 32)

/-- The acknowledgement of our FIN counts as one of the last data byte. -/
def adjustAck (s : TcpStream) (ackSeq : Seq) : Seq :=
  match s.state with
  | .finWait1 | .finWait2 | .closing | .closeWait | .lastAck =>
      if s.isFinSent && ackSeq == s.fss + 1 then ackSeq - 1 else ackSeq
  | _ => ackSeq

def acksTooMuch (s : TcpStream) (ackSeq : Seq) : Bool :=
  tcpSeqGt ackSeq (s.sndbuf.headSeq + s.sndbuf.sbLen)

def updateWindow (seq ackSeq : Seq) (cwindow : U32) (s : TcpStream) : TcpStream :=
  if tcpSeqLt s.sndWl1 seq || (s.sndWl1 == seq && tcpSeqLt s.sndWl2 ackSeq) ||
      (s.sndWl2 == ackSeq && decide (s.peerWnd < cwindow)) then
    { s with peerWnd := cwindow, sndWl1 := seq, sndWl2 := ackSeq }
  else s

/-- The test for a duplicate, after the window update; `edge` is the right edge before it. -/
def isDupAck (ackSeq edge : Seq) (payloadLen : Nat) (s : TcpStream) : Bool :=
  tcpSeqLt ackSeq s.sndNxt && ackSeq == s.lastAckSeq && payloadLen == 0 &&
    s.sndWl2 + s.peerWnd == edge

def countDupAck (dup : Bool) (ackSeq : Seq) (s : TcpStream) : TcpStream :=
  if dup then { s with dupAcks := (s.dupAcks + 1) % 256 }
  else { s with dupAcks := 0, lastAckSeq := ackSeq }

end TcpStream

namespace Cx

/-- The third duplicate. -/
def fastRetransmit (env : Env) (ackSeq : Seq) (c : Cx) : Cx :=
  let c :=
    if tcpSeqLt ackSeq c.st.sndNxt then
      (c.modify fun s => { s with sndNxt := ackSeq }).setSndbuf c.st.sndbuf.sbResetRetrans.2
    else c
  let c := c.modify fun s => { s with ssthresh := halvedThreshold s }
  let c := c.modify fun s => { s with cwnd := s.ssthresh + BitVec.ofNat 32 (3 * s.mss) }
  let c := c.modify fun s => { s with nrtx := if s.nrtx < tcpMaxRtx then s.nrtx + 1 else s.nrtx }
  c.sendEventAdd env false

def inflateWindow (c : Cx) : Cx :=
  c.modify fun s =>
    let cwnd := s.cwnd + BitVec.ofNat 32 s.mss
    if s.cwnd < cwnd then { s with cwnd := cwnd } else s

/-- Congestion control for `packets` newly acknowledged packets; none divides by zero.  The factors
are promoted to `int`: a product from 2^31 on is undefined in C, and wraps here. -/
def growWindow (packets : Nat) (s : TcpStream) : Option TcpStream :=
  if s.state.val < TcpState.established.val then some s
  else if s.cwnd < s.ssthresh then
    some (if s.cwnd < s.cwnd + BitVec.ofNat 32 s.mss then
      { s with cwnd := s.cwnd + BitVec.ofNat 32 (s.mss * packets) } else s)
  else if s.cwnd = 0 then none
  else
    let cwnd := s.cwnd + BitVec.ofNat 32 (packets * s.mss * s.mss) / s.cwnd
    some (if s.cwnd < cwnd then { s with cwnd := cwnd } else s)

/-- The part of `process_tcp_ack` for a segment that acknowledges new data. -/
def acceptAck (env : Env) (ackSeq : Seq) (c : Cx) : Cx :=
  let rmlen := ackSeq - c.st.sndbuf.headSeq
  if c.st.effMss = 0 then c.emit (.halt .divByZero)
  else
    match growWindow (rmlen.toNat / c.st.effMss % 2 ^ 16) c.st with
    | none => c.emit (.halt .divByZero)
    | some s =>
        let b := (s.sndbuf.sbRemoveAcked ackSeq).2
        let c := { c with st := { s with sndbuf := b, sndUna := ackSeq, sndWnd := b.size - b.sbLen } }
        if c.st.sndNxt = ackSeq then c.rtoListRemove else c.rtoListUpdate env

def processTcpAck (env : Env) (seg : Segment) (c : Cx) : Cx :=
  let cwindow := c.st.advertisedBy seg
  let edge := c.st.peerWnd + c.st.sndWl2
  let ackSeq := c.st.adjustAck seg.ackSeq
  if c.st.acksTooMuch ackSeq then c
  else
    let c := c.modify (TcpStream.updateWindow seg.seq ackSeq cwindow)
    let dup := c.st.isDupAck ackSeq edge seg.payloadLen
    let c := c.modify (TcpStream.countDupAck dup ackSeq)
    let c :=
      if dup && c.st.dupAcks == 3 then c.fastRetransmit env ackSeq
      else if 3 < c.st.dupAcks then c.inflateWindow
      else c
    -- RECOVERY_AFTER_LOSS
    let c :=
      if tcpSeqGt ackSeq c.st.sndNxt then c.modify fun s => { s with sndNxt := ackSeq } else c
    if tcpSeqGeq c.st.sndbuf.headSeq ackSeq then c else c.acceptAck env ackSeq

/-! ## Payload -/

def setRcv (c : Cx) (w : RcvMem) : Cx :=
  { (c.modify fun s => { s with rcvbuf := w.buff }) with mem := w.toMbufMem }

/-- `mbuf_list_add_head` with its arguments swapped takes `ooo_list` for an mbuf: the `buf_next`
of that mbuf is the eight bytes behind the buffer, `rcv_wnd` and `irs`, and what is stored there is
the first word of the real mbuf, its `buf_addr`.  (That word becomes the address of `ooo_list`;
nothing here reads it.) -/
def addHeadSwapped (bufAddr : BitVec 64) (w : RcvMem) (c : Cx) : Cx :=
  if w.faults.any RcvFault.swapped then
    c.modify fun s =>
      { s with rcvWnd := bufAddr.extractLsb' 0 32, irs := bufAddr.extractLsb' 32 32 }
  else c

/-- The end of `process_tcp_payload`: `rcv_nxt` and the window follow the buffer, and the
application is told. -/
def payloadStored (prevRcvNxt : Seq) (priority : Bool) (ret : Int) (c : Cx) : Int × Cx :=
  let c := c.modify fun s =>
    { s with
      rcvNxt := s.rcvbuf.mergedNext
      rcvWnd := s.rcvbuf.size - s.rcvbuf.rbMergedLen }
  if tcpSeqLeq c.st.rcvNxt prevRcvNxt && !priority then (0, c)
  else if c.st.state = .established then
    let c := if priority then c.raiseEvent (.read true) else c
    let eventNum := if priority then ret - 1 else ret
    (ret, if 0 < eventNum then c.raiseEvent (.read false) else c)
  else (ret, c)

def processTcpPayload (seg : Segment) (c : Cx) : Int × Cx :=
  let seqEnd := seg.seq + BitVec.ofNat 32 seg.payloadLen
  if tcpSeqLeq seqEnd c.st.rcvNxt then (failed, c)
  else if tcpSeqGt seqEnd (c.st.rcvNxt + c.st.rcvWnd) then (failed, c)
  else
    match RcvMem.rbPut { toMbufMem := c.mem, buff := c.st.rcvbuf } seg.id with
    | (ret, w) =>
        if w.faults.any RcvFault.fatal then (ret, c.emit (.halt .nullDeref))
        else
          let c := c.addHeadSwapped seg.bufAddr w
          let w :=
            match c.st.state with
            | .finWait1 | .finWait2 => w.rbClear
            | _ => w
          (c.setRcv w).payloadStored c.st.rcvNxt (w.mbuf seg.id).priority ret

/-! ## The handlers -/

def handleListen (env : Env) (seg : Segment) (c : Cx) : Cx :=
  if seg.syn then
    (c.modify fun s =>
      { s with
        rcvNxt := if s.state = .listen then s.rcvNxt + 1 else s.rcvNxt
        state := .synRcvd }).controlQueueAdd env
  else c

/-- `send_tcp_packet_standalone` is not written: it exits. -/
def sendStandalone (c : Cx) : Cx := c.exit

def handleActiveOpen (env : Env) (seg : Segment) (c : Cx) : Cx :=
  let c := c.modify fun s =>
    { s with
      irs := seg.seq
      sndNxt := seg.ackSeq
      peerWnd := BitVec.ofNat 32 seg.window
      sndWl1 := seg.seq - 1
      rcvNxt := seg.seq + 1
      rcvbuf := s.rcvbuf.rbUpdateSeq (seg.seq + 1)
      lastAckSeq := seg.ackSeq }
  (c.parseOptions env seg).andThen fun c =>
    let c := c.modify fun s =>
      { s with
        cwnd := BitVec.ofNat 32 (if s.cwnd = 1 then s.mss * 2 else s.mss)
        ssthresh := BitVec.ofNat 32 (s.mss * 10)
        nrtx := 0 }
    let c := c.rtoListRemove.modify fun s => { s with state := .established }
    c.emit (.established c.st)

def handleSynSent (env : Env) (seg : Segment) (c : Cx) : Cx :=
  if seg.ack && (tcpSeqLeq seg.ackSeq c.st.iss || tcpSeqGt seg.ackSeq c.st.sndNxt) then
    if seg.rst then c else c.sendStandalone
  else
    let c := if seg.ack then c.modify fun s => { s with sndUna := s.sndUna + 1 } else c
    if seg.rst then
      if seg.ack then
        let c := c.modify fun s => { s with state := .closeWait, closeReason := .reset }
        if c.st.socket then c.raiseEvent .error else c.tcpStreamDestroy
      else c
    else if seg.syn then
      if seg.ack then
        (c.handleActiveOpen env seg).andThen fun c =>
          if c.st.socket then ((c.raiseEvent .write).controlQueueAdd env).timeoutListAdd env
          else c.sendStandalone
      else (c.modify fun s => { s with state := .synRcvd, sndNxt := s.iss }).controlQueueAdd env
    else c

/-- `_raise_accept_event`; the listener and the socket are dereferenced unchecked. -/
def raiseAcceptEvent (env : Env) (c : Cx) : Cx :=
  if !c.st.socket || !c.st.listener then c.emit (.halt .nullDeref)
  else
    let c :=
      if env.acceptRoom then c.emit .acceptEnqueue
      else c.modify fun s => { s with closeReason := .notAccepted, state := .closed }
    if env.listening then c.emit (.raise .accept) else c

def handleSynRcvd (env : Env) (seg : Segment) (c : Cx) : Cx :=
  if seg.ack then
    if seg.ackSeq ≠ c.st.iss + 1 then c
    else
      let c := c.modify fun s =>
        { s with
          sndUna := s.sndUna + 1
          sndNxt := seg.ackSeq
          cwnd := BitVec.ofNat 32 (if s.cwnd = 1 then s.mss * 2 else s.mss)
          nrtx := 0
          rcvNxt := s.irs + 1 }
      let c := c.rtoListRemove.modify fun s => { s with state := .established }
      (c.emit (.established c.st)).raiseAcceptEvent env
  else (c.modify fun s => { s with sndNxt := s.iss }).controlQueueAdd env

def handleCloseWait (env : Env) (seg : Segment) (c : Cx) : Cx :=
  if tcpSeqLt seg.seq c.st.rcvNxt then c.controlQueueAdd env else c.processTcpAck env seg

def handleLastAck (env : Env) (seg : Segment) (c : Cx) : Cx :=
  if tcpSeqLt seg.seq c.st.rcvNxt then c
  else if seg.ack then
    (c.processTcpAck env seg).andThen fun c =>
      if !c.st.isFinSent then c
      else if seg.ackSeq = c.st.fss + 1 then
        (c.modify fun s =>
          { s with sndUna := s.sndUna + 1, state := .closed, closeReason := .passiveClose }).tcpStreamDestroy
      else c.controlQueueAdd env
  else c.controlQueueAdd env

/-- The payload of a segment in FIN_WAIT_1 or FIN_WAIT_2; any result but 0 counts as stored. -/
def closingPayload (env : Env) (seg : Segment) (c : Cx) : Cx :=
  if 0 < seg.payloadLen then
    match c.processTcpPayload seg with
    | (ret, c) =>
        c.andThen fun c => if truthy ret then c.enqueueAck env .aggregate else c.enqueueAck env .now
  else c

/-- A FIN in FIN_WAIT_1, or in FIN_WAIT_2 when its own FIN has just been acknowledged. -/
def finInFinWait1 (env : Env) (seg : Segment) (c : Cx) : Cx :=
  if seg.fin && seg.seq + BitVec.ofNat 32 seg.payloadLen == c.st.rcvNxt then
    let c := c.modify (TcpStream.takeFin seg)
    let c :=
      match c.st.state with
      | .finWait1 => c.modify fun s => { s with state := .closing }
      | .finWait2 => (c.modify fun s => { s with state := .timeWait }).timewaitListAdd env
      | _ => c
    c.controlQueueAdd env
  else c

def handleFinWait1 (env : Env) (seg : Segment) (c : Cx) : Cx :=
  if tcpSeqLt seg.seq c.st.rcvNxt then c.controlQueueAdd env
  else if seg.ack then
    (c.processTcpAck env seg).andThen fun c =>
      let c :=
        if c.st.isFinSent && seg.ackSeq == c.st.fss + 1 then
          let c := c.modify fun s =>
            { s with
              sndUna := seg.ackSeq
              sndNxt := if tcpSeqGt seg.ackSeq s.sndNxt then seg.ackSeq else s.sndNxt
              nrtx := 0 }
          c.rtoListRemove.modify fun s => { s with state := .finWait2 }
        else c
      (c.closingPayload env seg).andThen (finInFinWait1 env seg)
  else c

def finInFinWait2 (env : Env) (seg : Segment) (c : Cx) : Cx :=
  if seg.fin && seg.seq + BitVec.ofNat 32 seg.payloadLen == c.st.rcvNxt then
    ((c.modify fun s => { s.takeFin seg with state := .timeWait }).timewaitListAdd
      env).controlQueueAdd env
  else c

def handleFinWait2 (env : Env) (seg : Segment) (c : Cx) : Cx :=
  if seg.ack then
    (c.processTcpAck env seg).andThen fun c =>
      (c.closingPayload env seg).andThen (finInFinWait2 env seg)
  else c

def handleClosing (env : Env) (seg : Segment) (c : Cx) : Cx :=
  if seg.ack then
    (c.processTcpAck env seg).andThen fun c =>
      if !c.st.isFinSent then c
      else if seg.ackSeq ≠ c.st.fss + 1 then c
      else
        (c.modify fun s =>
          { s with sndUna := seg.ackSeq, sndNxt := seg.ackSeq, state := .timeWait }).timewaitListAdd
            env
  else c

/-- A FIN in ESTABLISHED. -/
def finInEstablished (env : Env) (seg : Segment) (c : Cx) : Cx :=
  if seg.fin then
    if seg.seq + BitVec.ofNat 32 seg.payloadLen = c.st.rcvNxt then
      ((c.raiseEvent (.read false)).modify fun s =>
        { s.takeFin seg with state := .closeWait }).controlQueueAdd env
    else c.enqueueAck env .now
  else c

/-- The payload of a segment in ESTABLISHED; only a positive result counts as stored. -/
def establishedPayload (env : Env) (seg : Segment) (c : Cx) : Cx :=
  if 0 < seg.payloadLen then
    match c.processTcpPayload seg with
    | (ret, c) => c.andThen fun c =>
        if 0 < ret then c.enqueueAck env .aggregate else c.enqueueAck env .now
  else c

def handleEstablished (env : Env) (seg : Segment) (c : Cx) : Cx :=
  if seg.syn then c.controlQueueAdd env
  else
    (c.establishedPayload env seg).andThen fun c =>
      (if seg.ack then c.processTcpAck env seg else c).andThen (finInEstablished env seg)

def handleTimeWait (env : Env) (c : Cx) : Cx :=
  (if c.st.onTimewaitList then c.timewaitListRemove.timewaitListAdd env else c).controlQueueAdd env

/-! ## One segment -/

/-- `check_sequence_validation`; true lets the segment through. -/
def checkSequenceValidation (env : Env) (seg : Segment) (c : Cx) : Bool × Cx :=
  let seqEnd := seg.seq + BitVec.ofNat 32 seg.payloadLen
  if tcpSeqBetween seqEnd c.st.rcvNxt (c.st.rcvNxt + c.st.rcvWnd) then (true, c)
  else if seg.rst then (false, c)
  else if c.st.state = .established then
    if seg.seq + 1 = c.st.rcvNxt then (false, c.enqueueAck env .aggregate)
    else if tcpSeqLeq seg.seq c.st.rcvNxt then (false, c.enqueueAck env .aggregate)
    else (false, c.enqueueAck env .now)
  else
    let c := if c.st.state = .timeWait then c.timewaitListAdd env else c
    (false, c.controlQueueAdd env)

/-- `handle_rst`, called in a state beyond SYN_SENT; it always consumes the segment. -/
def handleRst (seg : Segment) (c : Cx) : Cx :=
  match c.st.state with
  | .synRcvd =>
      if seg.ackSeq = c.st.sndNxt then
        (c.modify fun s => { s with state := .closed, closeReason := .reset }).tcpStreamDestroy
      else c
  | .finWait1 | .finWait2 | .lastAck | .closing | .timeWait =>
      (c.modify fun s => { s with state := .closed, closeReason := .activeClose }).tcpStreamDestroy
  | _ =>
      if c.st.onCloseq || c.st.onResetq then c
      else
        (c.modify fun s => { s with state := .closeWait, closeReason := .reset }).raiseEvent
          (.read true)

def handleSegment (env : Env) (seg : Segment) (c : Cx) : Cx :=
  match c.st.state with
  | .listen => c.handleListen env seg
  | .synSent => c.handleSynSent env seg
  | .synRcvd =>
      if seg.syn && seg.seq == c.st.irs then c.handleListen env seg
      else
        (c.handleSynRcvd env seg).andThen fun c =>
          if 0 < seg.payloadLen ∧ c.st.state = .established then c.handleEstablished env seg else c
  | .established => c.handleEstablished env seg
  | .closeWait => c.handleCloseWait env seg
  | .lastAck => c.handleLastAck env seg
  | .finWait1 => c.handleFinWait1 env seg
  | .finWait2 => c.handleFinWait2 env seg
  | .closing => c.handleClosing env seg
  | .timeWait => c.handleTimeWait env
  | .closed => c

/-- The window, the reset and the handler. -/
def acceptSegment (env : Env) (seg : Segment) (c : Cx) : Cx :=
  let c := c.modify fun s => { s with peerWnd := s.advertisedBy seg }
  let c := c.timeoutListUpdate env
  let c := if seg.rst then c.modify fun s => { s with haveReset := true } else c
  if seg.rst && decide (TcpState.synSent.val < c.st.state.val) then c.handleRst seg
  else c.handleSegment env seg

/-- The sequence check is made in the states beyond SYN_RCVD only. -/
def validateSegment (env : Env) (seg : Segment) (c : Cx) : Cx :=
  if TcpState.synRcvd.val < c.st.state.val then
    match c.checkSequenceValidation env seg with
    | (true, c) => c.acceptSegment env seg
    | (false, c) => c
  else c.acceptSegment env seg

/-- The mbuf of the segment, as `process_tcp_packet` fills it in. -/
def receive (seg : Segment) (c : Cx) : Cx :=
  let filled := { seg.mbuf with tcpSeq := seg.seq, payloadLen := seg.payloadLen }
  { c with mem := { c.mem with mbuf := Function.update c.mem.mbuf seg.id filled } }

/-- `process_tcp_packet` on a stream that was found; the options of a SYN are read at once, but
in SYN_SENT. -/
def processSegment (env : Env) (seg : Segment) (c : Cx) : Cx :=
  let c := c.receive seg
  (if seg.syn && c.st.state != .synSent then c.parseOptions env seg else c).andThen fun c =>
    (c.modify fun s => { s with lastActiveTs := env.curTs }).validateSegment env seg

/-- `handle_passive_open` and the rest of `process_tcp_packet` on the stream it created. -/
def passiveOpen (env : Env) (seg : Segment) (c : Cx) : Cx :=
  let c := (c.receive seg).timeoutListAdd env
  let c := c.modify fun s => { s with peerWnd := BitVec.ofNat 32 seg.window, cwnd := 10 }
  (c.parseOptions env seg).andThen fun c =>
    (c.modify fun s => { s with listener := true, lastActiveTs := env.curTs }).acceptSegment env seg

end Cx

end QStack
