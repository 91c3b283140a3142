/-
# QStack.StreamView -- the sequence variables of a stream, and what was done with them

Most of what a function of the stack writes is timers, windows and queue flags.
The results about sequence numbers look at a stream through `Core` and `RcvCore`, and
at what it did to the outside through the logs of `View`.  Every helper of `QStack.Stream` is
invisible here (the simp lemmas below), so a function of the stack is described by
what it does to the view.
-/
import QStack.TcpOut

namespace QStack

set_option autoImplicit false

/-- The sending side. -/
structure Core where
  state : TcpState
  sndNxt : Seq
  sndUna : Seq
  sndbuf : SndBuff
  isFinSent : Bool
  fss : Seq
  iss : Seq

def TcpStream.core (s : TcpStream) : Core :=
  { state := s.state, sndNxt := s.sndNxt, sndUna := s.sndUna, sndbuf := s.sndbuf,
    isFinSent := s.isFinSent, fss := s.fss, iss := s.iss }

/-- The receiving side. -/
structure RcvCore where
  irs : Seq
  rcvNxt : Seq
  rcvWnd : U32
  rcvbuf : RcvBuff
  fins : List FinMark

def TcpStream.rcvCore (s : TcpStream) : RcvCore :=
  { irs := s.irs, rcvNxt := s.rcvNxt, rcvWnd := s.rcvWnd, rcvbuf := s.rcvbuf, fins := s.fins }

/-- What the peer sees of a packet in sequence space. -/
structure Sent where
  seq : Seq
  len : Nat
  syn : Bool := false
  fin : Bool := false
  data : Option MbufId := none
deriving DecidableEq, Repr

namespace Sent

/-- Sequence numbers the packet occupies. -/
def occupied (p : Sent) : Nat := p.len + (if p.syn || p.fin then 1 else 0)

def seqEnd (p : Sent) : Seq := p.seq + BitVec.ofNat 32 p.occupied

/-- A bare acknowledgement is not worth remembering. -/
def log (p : Sent) (sent : List Sent) : List Sent := if p.occupied = 0 then sent else p :: sent

end Sent

def Packet.sent (p : Packet) : Sent :=
  { seq := p.seq, len := p.payloadLen, syn := p.syn, fin := p.fin, data := p.data }

namespace Effect

def sent? : Effect → Option Sent
  | .transmit p => if p.sent.occupied = 0 then none else some p.sent
  | _ => none

def opened? : Effect → Option TcpStream
  | .established s => some s
  | _ => none

def isDestroy : Effect → Bool
  | .destroy => true
  | _ => false

def isSendEvent : Effect → Bool
  | .sendEvent _ => true
  | _ => false

/-- The stream is put on a queue. -/
def isEnqueue : Effect → Bool
  | .controlEnqueue | .ackEnqueue | .sendEvent _ | .acceptEnqueue => true
  | _ => false

/-- Effects on queues, timer lists and the application. -/
def quiet (e : Effect) : Bool :=
  match e with
  | .transmit _ | .established _ | .halt _ | .destroy => false
  | _ => true

end Effect

structure View extends Core where
  rcv : RcvCore
  /-- packets that occupy sequence numbers, the latest first -/
  sent : List Sent
  /-- the stream each time it became ESTABLISHED -/
  opened : List TcpStream
  halted : Bool
  destroyed : Bool

namespace View

def withCore (v : View) (k : Core) : View := { v with toCore := k }

def withRcv (v : View) (r : RcvCore) : View := { v with rcv := r }

def withDestroyed (v : View) (d : Bool) : View := { v with destroyed := d }

@[simp] theorem withCore_toCore (v : View) (k : Core) : (v.withCore k).toCore = k := rfl

@[simp] theorem withCore_withCore (v : View) (k k' : Core) :
    (v.withCore k).withCore k' = v.withCore k' := rfl

@[simp] theorem withCore_self (v : View) : v.withCore v.toCore = v := rfl

end View

namespace Cx

def view (c : Cx) : View :=
  { c.st.core with
    rcv := c.st.rcvCore
    sent := c.out.filterMap Effect.sent?
    opened := c.out.filterMap Effect.opened?
    halted := c.halted
    destroyed := c.out.any Effect.isDestroy }

/-- How many send events the functions of the stack have posted for the stream. -/
def posted (c : Cx) : Nat := c.out.countP Effect.isSendEvent

@[simp] theorem view_toCore (c : Cx) : c.view.toCore = c.st.core := rfl

@[simp] theorem view_rcv (c : Cx) : c.view.rcv = c.st.rcvCore := rfl

/-! ## What the view does not see -/

section Frame

variable (env : Env) (c : Cx)

theorem view_emit {e : Effect} (quiet : e.quiet = true) : (c.emit e).view = c.view := by
  cases e <;> first | rfl | cases quiet

theorem view_modify {f : TcpStream → TcpStream}
    (same : (f c.st).core = c.st.core ∧ (f c.st).rcvCore = c.st.rcvCore) :
    (c.modify f).view = c.view := by
  simp only [view, modify, halted, same.1, same.2]

@[simp] theorem view_rtoListAdd : (c.rtoListAdd env).view = c.view := by
  unfold rtoListAdd
  dsimp only
  split
  · rfl
  · split <;> rfl

@[simp] theorem view_rtoListRemove : c.rtoListRemove.view = c.view := by
  unfold rtoListRemove
  split <;> rfl

@[simp] theorem view_rtoListUpdate : (c.rtoListUpdate env).view = c.view := by
  simp [rtoListUpdate]

@[simp] theorem view_timewaitListAdd : (c.timewaitListAdd env).view = c.view := by
  unfold timewaitListAdd
  dsimp only
  split
  · rw [view_emit _ (e := .timewaitInsert) rfl, view_emit _ (e := .timewaitRemove) rfl,
      view_modify _ (by simp [TcpStream.core, TcpStream.rcvCore])]
  · rw [view_emit _ (e := .timewaitInsert) rfl, view_modify _ (by exact ⟨rfl, rfl⟩), view_rtoListRemove,
      view_modify _ (by simp [TcpStream.core, TcpStream.rcvCore])]

@[simp] theorem view_timewaitListRemove : c.timewaitListRemove.view = c.view := by
  unfold timewaitListRemove
  split <;> rfl

@[simp] theorem view_timeoutListAdd : (c.timeoutListAdd env).view = c.view := by
  unfold timeoutListAdd
  dsimp only
  split <;> rfl

@[simp] theorem view_timeoutListUpdate : (c.timeoutListUpdate env).view = c.view := by
  unfold timeoutListUpdate
  dsimp only
  split <;> rfl

@[simp] theorem view_controlQueueAdd : (c.controlQueueAdd env).view = c.view := by
  unfold controlQueueAdd
  split
  · rfl
  · split <;> rfl

@[simp] theorem view_ackQueueAdd : (c.ackQueueAdd env).view = c.view := by
  unfold ackQueueAdd
  split <;> rfl

@[simp] theorem view_enqueueAck (opt : AckOpt) : (c.enqueueAck env opt).view = c.view := by
  unfold enqueueAck
  rw [view_ackQueueAdd]
  cases opt with
  | now =>
      dsimp only
      split <;> rfl
  | aggregate =>
      dsimp only
      split <;> rfl
  | wack => rfl

@[simp] theorem view_sendEventAdd (pri : Bool) : (c.sendEventAdd env pri).view = c.view := by
  unfold sendEventAdd
  split <;> rfl

@[simp] theorem view_raiseEvent (ev : EventKind) : (c.raiseEvent ev).view = c.view := by
  unfold raiseEvent
  split <;> rfl

@[simp] theorem view_refuseOutOfWindow (seq : Seq) (m : SndMbuf) :
    (c.refuseOutOfWindow env seq m).view = c.view := by
  unfold refuseOutOfWindow
  rw [view_sendEventAdd]
  split
  · exact view_enqueueAck env c .wack
  · rfl

@[simp] theorem view_releaseControlWaiting (busy : Bool) :
    (c.releaseControlWaiting env busy).view = c.view := by
  unfold releaseControlWaiting
  split
  · rw [view_controlQueueAdd]
    rfl
  · rfl

theorem view_exit : c.exit.view = { c.view with halted := true } := rfl

theorem view_tcpStreamDestroy : c.tcpStreamDestroy.view = { c.view with destroyed := true } := rfl

end Frame

end Cx

/-! ## Transmission -/

namespace Core

def packetSeq (flags : SendFlags) (k : Core) : Seq :=
  if flags.wack then k.sndNxt - 1 else if flags.fin then k.fss else k.sndNxt

end Core

namespace View

def transmit (flags : SendFlags) (mbuf : Option MbufId) (payloadlen : Nat) (v : View) : View :=
  { v with
    isFinSent := v.isFinSent || (flags.fin && !flags.wack)
    sndNxt := v.sndNxt + BitVec.ofNat 32 (payloadlen + flags.phantom)
    sent := Sent.log
      { seq := v.packetSeq flags, len := payloadlen, syn := flags.syn,
        fin := flags.fin && !flags.wack, data := mbuf } v.sent }

/-- A bare acknowledgement leaves no trace. -/
theorem transmit_blank (v : View) {flags : SendFlags} (plain : flags.syn = false ∧ flags.fin = false) :
    v.transmit flags none 0 = v := by
  simp [transmit, Sent.log, Sent.occupied, SendFlags.phantom, plain.1, plain.2]

end View

namespace Cx

theorem view_transmit (c : Cx) (p : Packet) :
    (c.emit (.transmit p)).view = { c.view with sent := p.sent.log c.view.sent } := by
  have logged : (Effect.transmit p :: c.out).filterMap Effect.sent? =
      p.sent.log (c.out.filterMap Effect.sent?) := by
    by_cases blank : p.sent.occupied = 0
    · simp [Effect.sent?, Sent.log, blank]
    · simp [Effect.sent?, Sent.log, blank]
  rw [view, emit, logged]
  rfl

theorem view_advance (c : Cx) (n : Nat) :
    (c.modify fun s => { s with sndNxt := s.sndNxt + BitVec.ofNat 32 n }).view =
      { c.view with sndNxt := c.view.sndNxt + BitVec.ofNat 32 n } := rfl

theorem view_finish (c : Cx) (fin : Bool) :
    (c.modify fun s => { s with isFinSent := s.isFinSent || fin }).view =
      { c.view with isFinSent := c.view.isFinSent || fin } := rfl

section Transmit

variable (env : Env) (flags : SendFlags) (mbuf : Option MbufId) (payloadlen : Nat) (c : Cx)

/-- A packet is sent whole, or nothing changes. -/
theorem sendTcpPacket_cases :
    (c.sendTcpPacket env flags mbuf payloadlen = (error, c) ∧
      payloadRoom flags c.st < payloadlen) ∨
    (c.sendTcpPacket env flags mbuf payloadlen = (failed, c) ∧ mbuf = none ∧ c.avail = 0) ∨
    ((c.sendTcpPacket env flags mbuf payloadlen).1 = success ∧
      (c.sendTcpPacket env flags mbuf payloadlen).2.view =
        c.view.transmit flags mbuf payloadlen) := by
  rw [sendTcpPacket]
  split
  · exact .inl ⟨rfl, ‹_›⟩
  · split
    · exact .inr (.inl ⟨rfl, ‹_›⟩)
    · refine .inr (.inr ⟨rfl, ?_⟩)
      have allocated : ∀ b : Cx,
          (if mbuf = none then { b with avail := b.avail - 1 } else b).view = b.view := by
        intro b
        split <;> rfl
      have acked : ∀ b : Cx, (if flags.ack = true then
          (b.modify fun s => { s with tsLastackSent := env.curTs }).timeoutListUpdate env
          else b).view = b.view := by
        intro b
        split
        · rw [view_timeoutListUpdate, view_modify _ (by exact ⟨rfl, rfl⟩)]
        · rfl
      have timed : ∀ b : Cx, (if payloadlen + flags.phantom ≠ 0 then b.rtoListAdd env
          else b).view = b.view := by
        intro b
        split
        · exact view_rtoListAdd env b
        · rfl
      rw [view_transmit, timed, view_advance, acked, view_finish, allocated]
      by_cases control : mbuf = none <;> simp [control] <;> rfl

end Transmit

end Cx

end QStack
