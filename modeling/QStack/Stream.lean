/-
# QStack.Stream -- one tcp_stream, and what its functions do to the rest of the stack

`TcpStream` is `struct tcp_stream` with the variables of `rcvvar` and `sndvar`
inlined.  A function that runs on a stream changes that stream and, through the
stack context, some queues, timer lists and the wire.  It is modelled as a map on
`Cx`: the stream, the memory of received mbufs, the number of mbufs the stack can
still allocate, and the list `out` of what the function did to the outside, latest
first.  What the outside answers (whether a queue has room) comes from `Env`; a
function enqueues a stream on each queue at most once, so one answer per queue is
enough.

A call that ends the process (`TRACE_EXIT`, a null dereference, a division by zero,
a loop that never ends) leaves `Effect.halt` in `out`.

The timer lists are seen from the stream here: each is a flag with the insertions
and removals noted in `out`.  This is the shipped simple-RTO configuration.
-/
import QStack.RecvBuff
import QStack.SendBuff

namespace QStack

set_option autoImplicit false

inductive TcpState where
  | closed | listen | synSent | synRcvd | established | finWait1 | finWait2
  | closeWait | closing | lastAck | timeWait
deriving DecidableEq, Repr

/-- The value of the enumerator, for the comparisons the code makes. -/
def TcpState.val : TcpState → Nat
  | .closed => 0 | .listen => 1 | .synSent => 2 | .synRcvd => 3 | .established => 4
  | .finWait1 => 5 | .finWait2 => 6 | .closeWait => 7 | .closing => 8 | .lastAck => 9
  | .timeWait => 10

inductive CloseReason where
  | notClosed | activeClose | passiveClose | connFail | connLost | reset | noMem
  | notAccepted | timedOut
deriving DecidableEq, Repr

abbrev U32 := BitVec 32

/-- A FIN that was consumed. -/
structure FinMark where
  /-- `seq + payloadlen` of its segment -/
  position : Seq
  /-- `merged_next` at that moment -/
  mergedNext : Seq
deriving DecidableEq, Repr

structure TcpStream where
  state : TcpState := .closed
  closeReason : CloseReason := .notClosed
  sndNxt : Seq := 0
  rcvNxt : Seq := 0
  tsRto : U32 := 0
  lastActiveTs : U32 := 0
  tsTwExpire : U32 := 0
  /-- `on_rto_idx != 0` -/
  onRto : Bool := false
  onTimeoutList : Bool := false
  onTimewaitList : Bool := false
  controlListWaiting : Bool := false
  haveReset : Bool := false
  closed : Bool := false
  /-- whether the peer sends timestamps -/
  sawTimestamp : Bool := false
  /-- whether the peer permits SACK -/
  sackPermit : Bool := false
  socket : Bool := false
  listener : Bool := false
  -- rcvvar
  rcvbuf : RcvBuff := RcvBuff.zero
  /-- history: the FINs that were consumed, the latest first -/
  fins : List FinMark := []
  rcvWnd : U32 := 0
  irs : Seq := 0
  sndWl1 : Seq := 0
  sndWl2 : Seq := 0
  /-- a `uint8_t` -/
  dupAcks : Nat := 0
  lastAckSeq : Seq := 0
  tsRecent : U32 := 0
  tsLastTsUpd : U32 := 0
  -- sndvar
  sndbuf : SndBuff := SndBuff.zero
  sndUna : Seq := 0
  sndWnd : U32 := 0
  isWack : Bool := false
  isFinSent : Bool := false
  /-- a bit field of six bits -/
  ackCnt : Nat := 0
  onControlQueue : Bool := false
  onSendQueue : Bool := false
  onAckQueue : Bool := false
  onCloseq : Bool := false
  onResetq : Bool := false
  /-- a `uint16_t` -/
  mss : Nat := 0
  /-- a `uint16_t` -/
  effMss : Nat := 0
  wscaleMine : Nat := 0
  /-- a `uint8_t` -/
  wscalePeer : Nat := 0
  peerWnd : U32 := 0
  iss : Seq := 0
  fss : Seq := 0
  nrtx : Nat := 0
  rto : U32 := 0
  cwnd : U32 := 0
  ssthresh : U32 := 0
  tsLastackSent : U32 := 0

/-! ## Constants -/

def tcpDefaultMss : Nat := 1460
def tcpDefaultWscale : Nat := 7
def tcpInitCwnd : U32 := 4
def tcpInitialWindow : U32 := 14600
def tcpMaxRtx : Nat := 16
def tcpMaxWindow : Nat := 65535
def sendWindowMin : U32 := 1500
def tcpInitialRto : U32 := 500
def tcpTimewait : U32 := 5000

/-! ## The outside -/

/-- A packet handed to `io_send_mbuf`; `data` is the mbuf of the send buffer it carries. -/
structure Packet where
  seq : Seq
  ackSeq : Seq := 0
  syn : Bool := false
  fin : Bool := false
  rst : Bool := false
  ack : Bool := false
  payloadLen : Nat := 0
  window : Nat := 0
  data : Option MbufId := none
deriving DecidableEq, Repr

/-- How a run ends. -/
inductive Halt where
  | exit | nullDeref | divByZero | hang
deriving DecidableEq, Repr

/-- Which event an application is notified of. -/
inductive EventKind where
  | read (pri : Bool) | write | error | accept
deriving DecidableEq, Repr

inductive Effect where
  | transmit (p : Packet)
  | controlEnqueue
  | ackEnqueue
  | sendEvent (pri : Bool)
  | acceptEnqueue
  | raise (ev : EventKind)
  | rtoInsert | rtoRemove
  | timewaitInsert | timewaitRemove
  | timeoutInsert | timeoutRemove
  | destroy
  | halt (why : Halt)
  /-- the stream at the moment it becomes ESTABLISHED -/
  | established (s : TcpStream)

def Effect.isHalt : Effect → Bool
  | .halt _ => true
  | _ => false

/-- Answers of the outside: the time, and which queues have room. -/
structure Env where
  curTs : U32 := 0
  controlRoom : Bool := true
  ackRoom : Bool := true
  sendRoom : Bool := true
  acceptRoom : Bool := true
  /-- the listening socket waits for `EPOLLIN` -/
  listening : Bool := true

structure Cx where
  st : TcpStream
  mem : MbufMem := { mbuf := fun _ => {} }
  /-- mbufs the stack can still allocate -/
  avail : Nat := 0
  out : List Effect := []

namespace Cx

def emit (c : Cx) (e : Effect) : Cx := { c with out := e :: c.out }

def modify (c : Cx) (f : TcpStream → TcpStream) : Cx := { c with st := f c.st }

def exit (c : Cx) : Cx := c.emit (.halt .exit)

def halted (c : Cx) : Bool := c.out.any Effect.isHalt

/-- The code after a call that may not return. -/
def andThen (c : Cx) (f : Cx → Cx) : Cx := if c.halted then c else f c

@[simp] theorem emit_st (c : Cx) (e : Effect) : (c.emit e).st = c.st := rfl

@[simp] theorem modify_st (c : Cx) (f : TcpStream → TcpStream) : (c.modify f).st = f c.st := rfl

@[simp] theorem exit_st (c : Cx) : c.exit.st = c.st := rfl

/-! ## Timer lists -/

def rtoListAdd (env : Env) (c : Cx) : Cx :=
  if c.st.onRto then c
  else
    let c := c.modify fun s => { s with tsRto := env.curTs + s.rto }
    if c.st.onTimewaitList then c
    else (c.modify fun s => { s with onRto := true }).emit .rtoInsert

def rtoListRemove (c : Cx) : Cx :=
  if c.st.onRto then
    (c.modify fun s => { s with onRto := false, nrtx := 0 }).emit .rtoRemove
  else c

def rtoListUpdate (env : Env) (c : Cx) : Cx := c.rtoListRemove.rtoListAdd env

/-- `on_rto_idx >= 0` always holds in the simple configuration. -/
def timewaitListAdd (env : Env) (c : Cx) : Cx :=
  let c := c.modify fun s => { s with tsTwExpire := env.curTs + tcpTimewait }
  if c.st.onTimewaitList then (c.emit .timewaitRemove).emit .timewaitInsert
  else
    (c.rtoListRemove.modify fun s => { s with onTimewaitList := true }).emit .timewaitInsert

def timewaitListRemove (c : Cx) : Cx :=
  if c.st.onTimewaitList then
    (c.modify fun s => { s with onTimewaitList := false }).emit .timewaitRemove
  else c

def timeoutListAdd (env : Env) (c : Cx) : Cx :=
  let c := c.modify fun s => { s with lastActiveTs := env.curTs }
  if c.st.onTimeoutList then c
  else (c.modify fun s => { s with onTimeoutList := true }).emit .timeoutInsert

def timeoutListRemove (c : Cx) : Cx :=
  if c.st.onTimeoutList then
    (c.modify fun s => { s with onTimeoutList := false }).emit .timeoutRemove
  else c

def timeoutListUpdate (env : Env) (c : Cx) : Cx :=
  let c := c.modify fun s => { s with lastActiveTs := env.curTs }
  if c.st.onTimeoutList then (c.emit .timeoutRemove).emit .timeoutInsert else c

/-! ## Queues -/

def controlQueueAdd (env : Env) (c : Cx) : Cx :=
  if c.st.onControlQueue then c
  else if env.controlRoom then
    (c.modify fun s => { s with onControlQueue := true }).emit .controlEnqueue
  else c

def ackQueueAdd (env : Env) (c : Cx) : Cx :=
  if c.st.ackCnt ≠ 0 && !c.st.onAckQueue && env.ackRoom then
    (c.modify fun s => { s with onAckQueue := true }).emit .ackEnqueue
  else c

/-- `ACK_OPT_NOW`, `ACK_OPT_AGGREGATE`, `ACK_OPT_WACK` -/
inductive AckOpt where
  | now | aggregate | wack

def enqueueAck (env : Env) (opt : AckOpt) (c : Cx) : Cx :=
  (match opt with
    | .now => if c.st.ackCnt < 63 then c.modify fun s => { s with ackCnt := s.ackCnt + 1 } else c
    | .aggregate => if c.st.ackCnt = 0 then c.modify fun s => { s with ackCnt := 1 } else c
    | .wack => c.modify fun s => { s with isWack := true }).ackQueueAdd env

/-- `send_event_add` and `send_event_enqueue`; nobody looks at their result. -/
def sendEventAdd (env : Env) (pri : Bool) (c : Cx) : Cx :=
  if env.sendRoom then c.emit (.sendEvent pri) else c

/-! ## Events -/

/-- The four functions that notify the application of a stream. -/
def raiseEvent (ev : EventKind) (c : Cx) : Cx :=
  if c.st.socket then c.emit (.raise ev) else c

/-- The end of a stream; what it does to the stack is up to the stack model. -/
def tcpStreamDestroy (c : Cx) : Cx := c.emit .destroy

end Cx

/-! ## Creation -/

/-- `tcp_stream_create` on a zeroed stream: `seq` is the peer's initial sequence, `iss` what
`rand()` returned. -/
def tcpStreamCreate (rcvbufSize sndbufSize : Nat) (seq iss : Seq) : TcpStream :=
  { socket := true
    state := .listen
    irs := seq
    rcvWnd := tcpInitialWindow
    sndWl1 := seq - 1
    rcvbuf := RcvBuff.zero.rbInit rcvbufSize (seq + 1)
    mss := tcpDefaultMss
    effMss := tcpDefaultMss
    wscaleMine := tcpDefaultWscale
    wscalePeer := 0
    iss := iss
    sndUna := iss
    sndWnd := tcpInitCwnd
    rto := tcpInitialRto
    sndbuf := SndBuff.zero.sbInit sndbufSize (iss + 1)
    rcvNxt := seq
    sndNxt := iss }

end QStack
