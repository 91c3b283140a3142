/-
# QStack.TcpOut -- transmission: tcp_out.c, and what core.c and timer.h ask of it

A packet leaves through `sendTcpPacket`.  Data is flushed out of the send buffer,
control packets follow from the state alone, and acknowledgements are counted in
`ack_cnt`; each of the three is served from its own queue.  The sequence number on
the wire is `snd_nxt`, not the one `sb_put` gave to the mbuf, except that a FIN
carries `fss`.

Two habits of the code matter later.  The flush takes an mbuf off its queue before
it looks at the window, and returns without putting it back when the window is
too small; and `snd_nxt` moves with every FIN that is sent, also a repeated one.
-/
import QStack.Stream

namespace QStack

set_option autoImplicit false

/-! ## One packet -/

/-- The `TCP_FLAG_*` bits the callers use. -/
structure SendFlags where
  syn : Bool := false
  fin : Bool := false
  ack : Bool := false
  wack : Bool := false
deriving DecidableEq, Repr

/-- Neither timestamps nor SACK are built in. -/
def calculateOptionLength (flags : SendFlags) : Nat := if flags.syn then 8 else 0

/-- What `payloadlen` is compared with, as an unsigned number. -/
def payloadRoom (flags : SendFlags) (s : TcpStream) : Nat :=
  (BitVec.ofInt 32 (s.mss - calculateOptionLength flags : Int)).toNat

def packetSeq (flags : SendFlags) (s : TcpStream) : Seq :=
  if flags.wack then s.sndNxt - 1 else if flags.fin then s.fss else s.sndNxt

def advertised (flags : SendFlags) (s : TcpStream) : Nat :=
  min (s.rcvWnd.toNat >>> (if flags.syn then 0 else s.wscaleMine)) tcpMaxWindow

/-- The bit that makes the packet occupy a sequence number. -/
def SendFlags.phantom (flags : SendFlags) : Nat :=
  if flags.syn || (flags.fin && !flags.wack) then 1 else 0

namespace Cx

/-- `send_tcp_packet`; `mbuf` is the data mbuf, or none for a packet the stack allocates. -/
def sendTcpPacket (env : Env) (flags : SendFlags) (mbuf : Option MbufId) (payloadlen : Nat)
    (c : Cx) : Int × Cx :=
  if payloadRoom flags c.st < payloadlen then (error, c)
  else if mbuf = none ∧ c.avail = 0 then (failed, c)
  else
    let c := if mbuf = none then { c with avail := c.avail - 1 } else c
    let fin := flags.fin && !flags.wack
    let packet : Packet :=
      { seq := packetSeq flags c.st
        ackSeq := if flags.ack then c.st.rcvNxt else 0
        syn := flags.syn
        fin := fin
        ack := flags.ack
        payloadLen := payloadlen
        window := advertised flags c.st
        data := mbuf }
    let c := c.modify fun s => { s with isFinSent := s.isFinSent || fin }
    let c :=
      if flags.ack then
        (c.modify fun s => { s with tsLastackSent := env.curTs }).timeoutListUpdate env
      else c
    let c := c.modify fun s =>
      { s with sndNxt := s.sndNxt + BitVec.ofNat 32 (payloadlen + flags.phantom) }
    let c := if payloadlen + flags.phantom ≠ 0 then c.rtoListAdd env else c
    (success, c.emit (.transmit packet))

def sendTcpControlPacket (env : Env) (c : Cx) : Int × Cx :=
  match c.st.state with
  | .synSent => c.sendTcpPacket env { syn := true } none 0
  | .synRcvd =>
      (c.modify fun s => { s with sndNxt := s.iss }).sendTcpPacket env
        { syn := true, ack := true } none 0
  | .established | .closeWait | .finWait2 | .timeWait =>
      c.sendTcpPacket env { ack := true } none 0
  | .lastAck | .finWait1 => c.sendTcpPacket env { fin := true, ack := true } none 0
  | .closing =>
      if c.st.isFinSent ∧ c.st.sndNxt ≠ c.st.fss then c.sendTcpPacket env { ack := true } none 0
      else c.sendTcpPacket env { fin := true, ack := true } none 0
  | .closed | .listen => (failed, c)

end Cx

/-! ## Data -/

namespace SndBuff

/-- The mbuf to send next: a lost one, else one with priority, else the oldest. -/
def popWaiting (b : SndBuff) : Option SndMbuf × SndBuff :=
  match b.retransList with
  | m :: rest => (some m, { b with retransList := rest })
  | [] =>
      match b.husndQ.dirCirqGet with
      | (some m, q) => (some m, { b with husndQ := q })
      | (none, q) =>
          let b := { b with husndQ := q }
          match b.usndQ.dirCirqGet with
          | (m, q) => (m, { b with usndQ := q })

/-- How many mbufs wait to be sent. -/
def waitingCount (b : SndBuff) : Nat :=
  b.retransList.length + b.husndQ.cirqCount + b.usndQ.cirqCount

end SndBuff

/-- `TS_TO_MSEC` -/
def tsToMsec (t : U32) : U32 := t * 1000 / 1000

/-- The window a flush works with. -/
def TcpStream.sendWindow (s : TcpStream) : U32 :=
  BitVec.ofNat 32 (max (min s.cwnd.toNat s.peerWnd.toNat) sendWindowMin.toNat)

/-- The mbuf `m` sent with sequence `seq` would leave the window. -/
def TcpStream.outOfWindow (s : TcpStream) (seq : Seq) (m : SndMbuf) : Bool :=
  tcpSeqGt (seq + m.len) (s.sndUna + s.sendWindow)

namespace Cx

def setSndbuf (c : Cx) (b : SndBuff) : Cx := c.modify fun s => { s with sndbuf := b }

/-- `mbuf_list_append` on `uack_list`, of an mbuf just sent with sequence `seq`. -/
def appendUack (seq : Seq) (m : SndMbuf) (c : Cx) : Cx :=
  c.modify fun s =>
    { s with sndbuf := { s.sndbuf with
        uackList := s.sndbuf.uackList ++ [{ m with tcpSeq := seq, mbufState := .sent }] } }

/-- What the flush does with an mbuf that is out of window; the mbuf is in no list now. -/
def refuseOutOfWindow (env : Env) (seq : Seq) (m : SndMbuf) (c : Cx) : Cx :=
  let ask := decide (c.st.peerWnd < seq - c.st.sndUna + m.len) &&
    decide (500 < tsToMsec (env.curTs - c.st.tsLastackSent))
  (if ask then c.enqueueAck env .wack else c).sendEventAdd env m.priority

/-- The loop of the flush; a round takes one waiting mbuf, so `rounds` is a bound on them. -/
def flushLoop (env : Env) : Nat → Nat → Cx → Int × Cx
  | 0, packets, c => (packets, c)
  | rounds + 1, packets, c =>
      let seq := c.st.sndNxt
      if tcpSeqLt seq c.st.sndbuf.headSeq then (packets, c)
      else
        match c.st.sndbuf.popWaiting with
        | (none, b) => (packets, c.setSndbuf b)
        | (some m, b) =>
            let c := c.setSndbuf b
            if m.payloadLen = 0 then flushLoop env rounds packets c
            else if c.st.outOfWindow seq m then (packets, c.refuseOutOfWindow env seq m)
            else
              match c.sendTcpPacket env { ack := true } (some m.id) m.payloadLen with
              | (ret, c) =>
                  if ret < 0 then (ret, c.exit)
                  else flushLoop env rounds (packets + 1) (c.appendUack seq m)

def flushTcpSendingBuffer (env : Env) (c : Cx) : Int × Cx :=
  if c.st.isFinSent then (0, c)
  else if c.st.sndbuf.sbLen = 0 then (0, c)
  else c.flushLoop env (c.st.sndbuf.waitingCount + 1) 0

def sendFromUser (m : SndMbuf) (c : Cx) : Int × Cx :=
  if min c.st.sndWnd.toInt m.payloadLen ≤ 0 then (failed, c)
  else
    match c.st.sndbuf.sbPut m with
    | (ret, b) =>
        let c := c.modify fun s => { s with sndbuf := b, sndWnd := b.size - b.sbLen }
        if ret ≤ 0 then (failed, c) else (ret, c)

/-- `_q_tcp_send` on a socket with a stream; the stack owns the mbuf only when it returns a
positive length. -/
def qTcpSend (env : Env) (m : SndMbuf) (len : U32) (highPri : Bool) (c : Cx) : Int × Cx :=
  if m.mbufState ≠ .talloc then (error, c.exit)
  else
    let m := { m with payloadLen := len.toNat % 2 ^ 16, priority := highPri }
    if c.st.state ≠ .established ∧ c.st.state ≠ .closeWait then (error, c)
    else if len = 0 then (-1, c)
    else
      match c.sendFromUser m with
      | (ret, c) => (ret, if 0 < ret then c.sendEventAdd env highPri else c)

/-! ## The three queues -/

/-- What `write_tcp_control_queue` does with a stream it dequeued. -/
def writeTcpControlQueue (env : Env) (c : Cx) : Cx :=
  if c.st.onControlQueue then
    ((c.modify fun s => { s with onControlQueue := false }).sendTcpControlPacket env).2
  else c

def releaseControlWaiting (env : Env) (busy : Bool) (c : Cx) : Cx :=
  if c.st.controlListWaiting && !busy then
    (c.modify fun s => { s with controlListWaiting := false }).controlQueueAdd env
  else c

/-- What `write_tcp_send_queue` does with a stream it dequeued. -/
def writeTcpSendQueue (env : Env) (c : Cx) : Cx :=
  let (ret, c) :=
    match c.st.state with
    | .established | .closeWait | .finWait1 | .lastAck => c.flushTcpSendingBuffer env
    | _ => (failed, c)
  if ret ≤ 0 then c.controlQueueAdd env
  else
    let c := c.modify fun s =>
      { s with onSendQueue := false, ackCnt := s.ackCnt - ret.toNat }
    c.releaseControlWaiting env c.st.onAckQueue

/-- The loop that sends the counted acknowledgements. -/
def sendAcks (env : Env) : Nat → Cx → Cx
  | 0, c => c
  | pending + 1, c =>
      match c.sendTcpPacket env { ack := true } none 0 with
      | (ret, c) =>
          if ret ≠ success then c
          else sendAcks env pending (c.modify fun s => { s with ackCnt := s.ackCnt - 1 })

def sendWack (env : Env) (c : Cx) : Cx :=
  if c.st.isWack then
    match (c.modify fun s => { s with isWack := false }).sendTcpPacket env
        { ack := true, wack := true } none 0 with
    | (ret, c) => if ret ≠ success then c.modify fun s => { s with isWack := true } else c
  else c

/-- What `write_tcp_ack_queue` does with a stream it dequeued. -/
def writeTcpAckQueue (env : Env) (c : Cx) : Cx :=
  if c.st.onAckQueue then
    let c := c.modify fun s => { s with onAckQueue := false }
    let c :=
      match c.st.state with
      | .established | .closeWait | .finWait1 | .finWait2 | .timeWait =>
          (c.sendAcks env c.st.ackCnt).sendWack env
      | _ => c.modify fun s => { s with ackCnt := 0, isWack := false }
    c.releaseControlWaiting env c.st.onSendQueue
  else c

/-! ## Timers -/

/-- `ssthresh` after a loss. -/
def halvedThreshold (s : TcpStream) : U32 :=
  let half := min s.cwnd.toNat s.peerWnd.toNat / 2
  BitVec.ofNat 32 (if half < 2 * s.mss then s.mss * 2 else half)

/-- `handle_rto`; `rto_list_check` has taken the stream off the list. -/
def handleRto (env : Env) (c : Cx) : Cx :=
  if c.st.nrtx < tcpMaxRtx then
    let c := c.modify fun s => { s with nrtx := s.nrtx + 1 }
    let c := c.modify fun s =>
      { s with
        rto := tcpInitialRto <<< s.nrtx
        ssthresh := halvedThreshold s
        cwnd := BitVec.ofNat 32 s.mss
        sndNxt := s.sndUna }
    let retransmit := (c.setSndbuf c.st.sndbuf.sbResetRetrans.2).sendEventAdd env false
    match c.st.state with
    | .established => retransmit
    | .finWait1 | .closing | .lastAck =>
        if c.st.fss = 0 then c.exit
        else if tcpSeqLt c.st.sndNxt c.st.fss then retransmit
        else c.controlQueueAdd env
    | _ => c.controlQueueAdd env
  else
    (c.modify fun s =>
      { s with
        closeReason := if s.state.val < TcpState.established.val then .connFail else .connLost
        state := .closed }).tcpStreamDestroy

/-- One stream of `rto_list_check`. -/
def rtoListCheck (env : Env) (c : Cx) : Cx :=
  ((c.modify fun s => { s with onRto := false }).emit .rtoRemove).handleRto env

/-- One expired stream of `timewait_list_check`. -/
def timewaitListCheck (c : Cx) : Cx :=
  ((c.modify fun s =>
    { s with onTimewaitList := false, state := .closed, closeReason := .activeClose }).emit
      .timewaitRemove).tcpStreamDestroy

/-- One expired stream of `timeout_list_check`.  The close reason it stores is the macro
`TCP_TIMEOUT`, 300000, not the enumerator; the four bits of the field keep 0 of it. -/
def timeoutListCheck (c : Cx) : Cx :=
  ((c.modify fun s =>
    { s with onTimeoutList := false, state := .closed, closeReason := .notClosed }).emit
      .timeoutRemove).tcpStreamDestroy

/-! ## Calls of the application that the stack thread handles -/

/-- `tcp_stream_close`, in the application; true when a close request was queued. -/
def tcpStreamClose (c : Cx) : Bool × Cx :=
  if c.st.closed then (false, c)
  else
    let c := c.modify fun s => { s with closed := true }
    match c.st.state with
    | .established | .closeWait => (true, c.modify fun s => { s with onCloseq := true })
    | _ => (false, c)

def handleCloseCall (env : Env) (c : Cx) : Cx :=
  let c := c.modify fun s => { s with fss := s.sndbuf.nextSeq }
  if c.st.haveReset then
    if c.st.state = .closed then c
    else (c.modify fun s => { s with closeReason := .reset, state := .closed }).tcpStreamDestroy
  else
    match c.st.state with
    | .closed => c.exit
    | .established => (c.modify fun s => { s with state := .finWait1 }).controlQueueAdd env
    | .closeWait => (c.modify fun s => { s with state := .lastAck }).controlQueueAdd env
    | _ => c.controlQueueAdd env

/-- `handle_connect_call` on the stream it has just created. -/
def handleConnectCall (env : Env) (c : Cx) : Cx :=
  (c.modify fun s =>
    { s with cwnd := 1, ssthresh := BitVec.ofNat 32 (s.mss * 10), state := .synSent }).controlQueueAdd
      env

end Cx

end QStack
