/-
# QStack.Connection -- the life of one connection

A connection is driven by everything that can call into its stream: segments, the
calls of the application, the three queues, the timers.  They come in any order, a
queue or a timer only when the stream is on it (`Conn.serve`).  Between two calls the
rest of the stack may use up or release mbufs and fill or empty the queues, so every
event brings its own `Env` and number of free mbufs.

A run ends when the process does or when the stream is destroyed; from then on nothing
happens (`Conn.step`).  `Conn.serve_move` inverts a step: what it can do to the view.
-/
import QStack.Handshake
import QStack.ServiceView
import QStack.Lib.Run

namespace QStack

set_option autoImplicit false

namespace Cx

/-- `q_recv`; the application may call it from ESTABLISHED to CLOSE_WAIT. -/
def qRecv (c : Cx) : Cx :=
  if c.st.state.val < TcpState.established.val ∨ TcpState.closeWait.val < c.st.state.val then c
  else if c.st.state = .closeWait ∧ c.st.rcvbuf.rbMergedLen = 0 then c
  else
    match RcvMem.qRecv { toMbufMem := c.mem, buff := c.st.rcvbuf } with
    | (_, w) =>
        if w.faults ≠ [] then c.exit
        else (c.setRcv w).modify fun s =>
          { s with rcvWnd := s.rcvbuf.size - s.rcvbuf.rbMergedLen }

theorem view_qRecv (c : Cx) :
    c.qRecv.view.halted = true ∨ c.qRecv.view = c.view ∨
      ((c.st.state.isOpen = true ∨ c.st.state.isFin = true) ∧
        ∃ r, c.qRecv.view = c.view.withRcv r) := by
  unfold qRecv
  split
  · exact .inr (.inl rfl)
  rename_i inside
  split
  · exact .inr (.inl rfl)
  generalize RcvMem.qRecv _ = result
  obtain ⟨id, w⟩ := result
  dsimp only
  split
  · exact .inl rfl
  · refine .inr (.inr ⟨?_, _, rfl⟩)
    revert inside
    cases c.st.state <;> decide

end Cx

/-! ## The machine -/

structure Conn where
  cx : Cx
  /-- send events that were taken from the event queues -/
  served : Nat := 0
  /-- the stream is on the close queue -/
  closeQueued : Bool := false
  /-- the next mbuf of the application -/
  fresh : MbufId := 0
  /-- history: the mbufs `sb_put` accepted, with the length it accepted -/
  accepted : List (MbufId × Nat) := []
  /-- history: the mbufs that left the lists of sent mbufs when a segment came -/
  acked : List MbufId := []
  /-- history: the sequence number of the peer's SYN -/
  peerIss : Seq := 0

inductive ConnCall where
  | packet (seg : Segment)
  | send (len : U32) (highPri : Bool)
  | recv
  | close
  | handleClose
  | serveControl
  | serveSend
  | serveAck
  | rto
  | timewait
  | timeout

structure ConnEvent where
  call : ConnCall
  env : Env := {}
  avail : Nat := 0

theorem ConnEvent.packet_or_other (e : ConnEvent) :
    (∃ seg, e.call = .packet seg) ∨ ∀ seg, e.call ≠ .packet seg := by
  by_cases packet : ∃ seg, e.call = .packet seg
  · exact .inl packet
  · exact .inr fun seg call => packet ⟨seg, call⟩

namespace SndBuff

/-- The mbufs of the two lists of sent mbufs. -/
def sentIds (b : SndBuff) : List MbufId := (b.uackList ++ b.retransList).map SndMbuf.id

end SndBuff

namespace Conn

abbrev st (s : Conn) : TcpStream := s.cx.st

abbrev view (s : Conn) : View := s.cx.view

/-- The connection as the next call finds it. -/
def entry (s : Conn) (e : ConnEvent) : Cx := { s.cx with avail := e.avail }

def serve (s : Conn) (e : ConnEvent) : Conn :=
  let c := s.entry e
  match e.call with
  | .packet seg =>
      let c' := c.processSegment e.env seg
      { s with
        cx := c'
        acked := (c.st.sndbuf.sentIds.filter fun id => id ∉ c'.st.sndbuf.sentIds) ++ s.acked
        peerIss := if c.st.state = .synSent ∧ seg.syn then seg.seq else s.peerIss }
  | .send len highPri =>
      match c.qTcpSend e.env { id := s.fresh, payloadLen := 0 } len highPri with
      | (ret, c') =>
          { s with
            cx := c'
            fresh := s.fresh + 1
            accepted := if 0 < ret then (s.fresh, ret.toNat) :: s.accepted else s.accepted }
  | .recv => { s with cx := c.qRecv }
  | .close =>
      match c.tcpStreamClose with
      | (queued, c') => { s with cx := c', closeQueued := s.closeQueued || queued }
  | .handleClose =>
      if s.closeQueued then { s with cx := c.handleCloseCall e.env, closeQueued := false } else s
  | .serveControl => { s with cx := c.writeTcpControlQueue e.env }
  | .serveSend =>
      if s.served < c.posted then
        { s with cx := c.writeTcpSendQueue e.env, served := s.served + 1 }
      else s
  | .serveAck => { s with cx := c.writeTcpAckQueue e.env }
  | .rto => if c.st.onRto then { s with cx := c.rtoListCheck e.env } else s
  | .timewait => if c.st.onTimewaitList then { s with cx := c.timewaitListCheck } else s
  | .timeout => if c.st.onTimeoutList then { s with cx := c.timeoutListCheck } else s

/-- The process has ended, or the stream is gone. -/
def ended (s : Conn) : Bool := s.view.halted || s.view.destroyed

def step (s : Conn) (e : ConnEvent) : Conn := if s.ended then s else s.serve e

theorem ended_of_halted {s : Conn} (halted : s.view.halted = true) : s.ended = true := by
  rw [ended, halted]
  rfl

theorem step_ended {s : Conn} (stopped : s.ended = true) (e : ConnEvent) : s.step e = s :=
  if_pos stopped

theorem step_running {s : Conn} (running : s.ended = false) (e : ConnEvent) :
    s.step e = s.serve e :=
  if_neg (by rw [running]; exact Bool.false_ne_true)

/-- What every call keeps, unless it ends the process, a step keeps. -/
theorem step_keeps {P : Conn → Prop} {s : Conn} {e : ConnEvent} (held : s.ended = true ∨ P s)
    (serves : s.ended = false → P s → (s.serve e).ended = true ∨ P (s.serve e)) :
    (s.step e).ended = true ∨ P (s.step e) := by
  cases running : s.ended with
  | true =>
      rw [step_ended running]
      exact .inl running
  | false =>
      rw [step_running running]
      exact serves running (held.resolve_left (by rw [running]; exact Bool.false_ne_true))

theorem run_ended {s : Conn} (stopped : s.ended = true) (es : List ConnEvent) :
    Lib.Run.run step s es = s := by
  induction es with
  | nil => rfl
  | cons e es ih => rw [Lib.Run.run, step_ended stopped, ih]

/-- A connection after its SYN has arrived at a listener. -/
def passive (rcvbufSize sndbufSize : Nat) (iss : Seq) (env : Env) (seg : Segment) : Conn :=
  { cx := Cx.passiveOpen env seg { st := tcpStreamCreate rcvbufSize sndbufSize seg.seq iss }
    peerIss := seg.seq }

/-- A connection after the connect call. -/
def active (rcvbufSize sndbufSize : Nat) (iss : Seq) (env : Env) : Conn :=
  { cx := Cx.handleConnectCall env { st := tcpStreamCreate rcvbufSize sndbufSize 0 iss } }

/-- The two ways a connection begins. -/
inductive Start (sndbufSize : Nat) : Conn → Prop
  | passive (rcvbufSize : Nat) (iss : Seq) (env : Env) (seg : Segment) (syn : seg.syn = true)
      (noAck : seg.ack = false) : Start sndbufSize (passive rcvbufSize sndbufSize iss env seg)
  | active (rcvbufSize : Nat) (iss : Seq) (env : Env) :
      Start sndbufSize (active rcvbufSize sndbufSize iss env)

/-! ## What a step can do -/

/-- The mbuf the application hands over. -/
def offered (s : Conn) (len : U32) (highPri : Bool) : SndMbuf :=
  { id := s.fresh, payloadLen := len.toNat % 2 ^ 16, priority := highPri }

/-- The effect of a call on the view. -/
inductive Move (s : Conn) : ConnCall → View → Prop
  | same (call : ConnCall) : Move s call s.view
  | syn {seg : Segment} {v : View} (early : s.st.state.isSyn = true)
      (move : SynMove s.st seg s.view v) : Move s (.packet seg) v
  | data {seg : Segment} {k : Core} {d : Bool} {r : RcvCore}
      (late : s.st.state.isOpen = true ∨ s.st.state.isFin = true)
      (move : DataMove s.st seg k d) :
      Move s (.packet seg) (((s.view.withCore k).withRcv r).withDestroyed (d || s.view.destroyed))
  | put {len : U32} {highPri : Bool} (opened : s.st.state.isOpen = true) :
      Move s (.send len highPri)
        (s.view.setSndbuf (s.st.sndbuf.sbPut (s.offered len highPri)).2)
  | received {r : RcvCore} (late : s.st.state.isOpen = true ∨ s.st.state.isFin = true) :
      Move s .recv (s.view.withRcv r)
  | closed {v : View} (queued : s.closeQueued = true) (move : CloseMove s.view v) :
      Move s .handleClose v
  | control {v : View} (queued : s.st.onControlQueue = true) (move : ControlMove s.view v) :
      Move s .serveControl v
  | flushed {v : View} (due : s.served < s.cx.posted) (state : s.st.state.flushes = true)
      (open_ : s.st.isFinSent = false) (some : s.st.sndbuf.sbLen ≠ 0)
      (flushed : Flushed s.st.sendWindow (s.st.sndbuf.waitingCount + 1) s.view v) :
      Move s .serveSend v
  | rto {v : View} (on : s.st.onRto = true) (move : RtoMove s.st s.view v) : Move s .rto v
  | expired {call : ConnCall} (timer : call = .timewait ∨ call = .timeout) :
      Move s call { s.view with state := .closed, destroyed := true }

section Step

variable (s : Conn) (e : ConnEvent)

theorem packet_move (seg : Segment) :
    ((s.entry e).processSegment e.env seg).view.halted = true ∨
      Move s (.packet seg) ((s.entry e).processSegment e.env seg).view := by
  have group : (s.st.state.isOpen = true ∨ s.st.state.isFin = true) ∨ s.st.state.isSyn = true ∨
      s.st.state = .closed := by
    cases s.st.state <;> decide
  rcases group with late | early | closed
  · rcases Cx.processSegment_data e.env seg (s.entry e) late with halted | ⟨k, d, r, move, view⟩
    · exact .inl halted
    · rw [view]
      exact .inr (.data late move)
  · rcases Cx.processSegment_syn e.env seg (s.entry e) early with halted | move
    · exact .inl halted
    · exact .inr (.syn early move)
  · rcases Cx.processSegment_closed e.env seg (s.entry e) closed with halted | view
    · exact .inl halted
    · rw [view]
      exact .inr (.same _)

/-- The call of `_q_tcp_send` for the next mbuf of the application. -/
def sendCall (len : U32) (highPri : Bool) : Int × Cx :=
  (s.entry e).qTcpSend e.env { id := s.fresh, payloadLen := 0 } len highPri

/-- It is refused, or the mbuf goes to the send buffer and the result is that of `sb_put`. -/
theorem sendCall_cases (len : U32) (highPri : Bool) :
    (∃ ret ≤ 0, s.sendCall e len highPri = (ret, s.entry e)) ∨
      (s.st.state.isOpen = true ∧
        (s.sendCall e len highPri).2.view =
          s.view.setSndbuf (s.st.sndbuf.sbPut (s.offered len highPri)).2 ∧
        (s.sendCall e len highPri).1 =
          if (s.st.sndbuf.sbPut (s.offered len highPri)).1 ≤ 0 then failed
          else (s.st.sndbuf.sbPut (s.offered len highPri)).1) := by
  have offered : ({ id := s.fresh, payloadLen := len.toNat % 2 ^ 16, priority := highPri } :
    SndMbuf) = s.offered len highPri := rfl
  unfold sendCall Cx.qTcpSend
  rw [if_neg (fun other => other rfl)]
  dsimp only
  rw [offered]
  split
  · exact .inl ⟨error, by decide, rfl⟩
  rename_i open_
  split
  · exact .inl ⟨-1, by decide, rfl⟩
  rcases Cx.sendFromUser_cases (s.entry e) (s.offered len highPri) with refused | ⟨view, ret⟩
  · rw [refused]
    exact .inl ⟨failed, by decide, rfl⟩
  · generalize (s.entry e).sendFromUser (s.offered len highPri) = result at view ret
    obtain ⟨ret', c'⟩ := result
    dsimp only at view ret
    refine .inr ⟨?_, ?_, ret⟩
    · change ¬ (s.st.state ≠ .established ∧ s.st.state ≠ .closeWait) at open_
      revert open_
      cases s.st.state <;> decide
    · dsimp only
      split
      · rw [Cx.view_sendEventAdd]
        exact view
      · exact view

/-- **Every call does one of the things `Move` lists, or ends the process.** -/
theorem serve_move : (s.serve e).view.halted = true ∨ Move s e.call (s.serve e).view := by
  have entered : (s.entry e).view = s.view := rfl
  unfold serve
  dsimp only
  cases call : e.call with
  | packet seg => exact packet_move s e seg
  | send len highPri =>
      refine .inr ?_
      rcases sendCall_cases s e len highPri with ⟨ret, -, same⟩ | ⟨opened, view, -⟩
      · unfold sendCall at same
        dsimp only
        rw [same]
        exact .same _
      · unfold sendCall at view
        dsimp only
        rw [Conn.view, view]
        exact .put opened
  | recv =>
      rcases Cx.view_qRecv (s.entry e) with halted | same | ⟨late, r, view⟩
      · exact .inl halted
      · refine .inr ?_
        dsimp only
        rw [Conn.view, same]
        exact .same _
      · refine .inr ?_
        dsimp only
        rw [Conn.view, view]
        exact .received late
  | close =>
      refine .inr ?_
      have view := Cx.view_tcpStreamClose (s.entry e)
      dsimp only
      generalize (s.entry e).tcpStreamClose = result at view ⊢
      obtain ⟨queued, c'⟩ := result
      dsimp only at view ⊢
      rw [Conn.view, view]
      exact .same _
  | handleClose =>
      dsimp only
      split
      · rename_i queued
        rcases Cx.handleCloseCall_move e.env (s.entry e) with halted | move
        · exact .inl halted
        · exact .inr (.closed queued move)
      · exact .inr (.same _)
  | serveControl =>
      refine .inr ?_
      dsimp only
      by_cases queued : s.st.onControlQueue = true
      · exact .control queued (Cx.writeTcpControlQueue_move e.env (s.entry e))
      · rw [Cx.writeTcpControlQueue, if_neg (show ¬ (s.entry e).st.onControlQueue = true from queued)]
        exact .same _
  | serveSend =>
      dsimp only
      split
      · rename_i due
        rcases Cx.writeTcpSendQueue_move e.env (s.entry e) with
          halted | same | ⟨state, open_, some, flushed⟩
        · exact .inl halted
        · refine .inr ?_
          rw [Conn.view, same]
          exact .same _
        · exact .inr (.flushed due state open_ some flushed)
      · exact .inr (.same _)
  | serveAck =>
      refine .inr ?_
      dsimp only
      rw [Conn.view, Cx.view_writeTcpAckQueue]
      exact .same _
  | rto =>
      dsimp only
      split
      · rename_i on
        rcases Cx.rtoListCheck_move e.env (s.entry e) with halted | move
        · exact .inl halted
        · exact .inr (.rto on move)
      · exact .inr (.same _)
  | timewait =>
      dsimp only
      split
      · exact .inr (.expired (.inl rfl))
      · exact .inr (.same _)
  | timeout =>
      dsimp only
      split
      · exact .inr (.expired (.inr rfl))
      · exact .inr (.same _)

/-- The initial sequence number is never changed. -/
theorem Move.iss {s : Conn} {call : ConnCall} {v : View} (move : Move s call v) :
    v.iss = s.view.iss := by
  cases move with
  | same | put | received | expired => rfl
  | syn _ move =>
      cases move with
      | same | listened | refused | rstAcked | bareAcked | synAcked | simultaneous | noAck => rfl
      | acked st k r _ _ _ core _ after =>
          have iss : st.core.iss = s.view.iss := by
            rw [core]
            rfl
          obtain ⟨state, -, same | ⟨fast, processed⟩⟩ := after
          · rw [same]
            exact iss
          · rw [processed]
            exact (Core.onAck_iss _ _ _).trans iss
  | data _ move =>
      cases move with
      | same | moved | reset => rfl
      | acked | closing | lastAck => exact Core.onAck_iss _ _ _
      | finWait1 =>
          change (Core.recover _ _).iss = _
          unfold Core.recover
          split <;> exact Core.onAck_iss _ _ _
  | closed _ move => cases move <;> rfl
  | control _ move => cases move <;> rfl
  | flushed _ _ _ _ flushed => rw [flushed.frame]
  | rto _ move => cases move <;> rfl

end Step

end Conn

end QStack
