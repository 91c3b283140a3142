/-
# QStack.ServiceView -- queues, timers and calls, on the view

What the rest of the stack does to a stream: the three queues that make it send, the
retransmission timer, and the calls of the application.  Each is described by what it
does to the view.  The acknowledgement queue does nothing to it, since a bare
acknowledgement occupies no sequence number.
-/
import QStack.SendFlush

namespace QStack

set_option autoImplicit false

namespace TcpState

/-- The send queue flushes the buffer. -/
def flushes : TcpState → Bool
  | .established | .closeWait | .finWait1 | .lastAck => true
  | _ => false

/-- The states in which `handle_rto` tells data from the FIN. -/
def awaitsFinAck : TcpState → Bool
  | .finWait1 | .closing | .lastAck => true
  | _ => false

end TcpState

namespace Core

/-- The control queue sends a FIN. -/
def sendsFin (k : Core) : Bool :=
  match k.state with
  | .lastAck | .finWait1 => true
  | .closing => !(k.isFinSent && k.sndNxt != k.fss)
  | _ => false

end Core

/-! ## The control queue -/

inductive ControlMove (v : View) : View → Prop
  | same : ControlMove v v
  | syn (from_ : v.state = .synSent) : ControlMove v (v.transmit { syn := true } none 0)
  | rewound (from_ : v.state = .synRcvd) : ControlMove v { v with sndNxt := v.iss }
  | synAck (from_ : v.state = .synRcvd) :
      ControlMove v (View.transmit { syn := true, ack := true } none 0 { v with sndNxt := v.iss })
  | fin (sends : v.sendsFin = true) :
      ControlMove v (v.transmit { fin := true, ack := true } none 0)

namespace Cx

section Queues

variable (env : Env) (c : Cx)

/-- A control packet is sent whole, or not at all. -/
theorem control_cases (flags : SendFlags) :
    (c.sendTcpPacket env flags none 0).2.view = c.view ∨
      (c.sendTcpPacket env flags none 0).2.view = c.view.transmit flags none 0 := by
  rcases sendTcpPacket_cases env flags none 0 c with ⟨refused, -⟩ | ⟨refused, -⟩ | ⟨-, sent⟩
  · rw [refused]
    exact .inl rfl
  · rw [refused]
    exact .inl rfl
  · exact .inr sent

theorem view_bareAck (flags : SendFlags) (plain : flags.syn = false ∧ flags.fin = false) :
    (c.sendTcpPacket env flags none 0).2.view = c.view := by
  rcases control_cases env c flags with same | sent
  · exact same
  · rw [sent, View.transmit_blank _ plain]

theorem sendTcpControlPacket_move : ControlMove c.view (c.sendTcpControlPacket env).2.view := by
  have finish : c.view.sendsFin = true →
      ControlMove c.view (c.sendTcpPacket env { fin := true, ack := true } none 0).2.view := by
    intro sends
    rcases control_cases env c { fin := true, ack := true } with same | sent
    · rw [same]
      exact .same
    · rw [sent]
      exact .fin sends
  have bare : ControlMove c.view (c.sendTcpPacket env { ack := true } none 0).2.view := by
    rw [view_bareAck env c _ ⟨rfl, rfl⟩]
    exact .same
  have now : c.view.state = c.st.state := rfl
  unfold sendTcpControlPacket
  cases state : c.st.state with
  | closed | listen => exact .same
  | established | closeWait | finWait2 | timeWait => exact bare
  | finWait1 | lastAck => exact finish (by rw [Core.sendsFin, now, state])
  | closing =>
      dsimp only
      split
      · exact bare
      · rename_i first
        refine finish ?_
        rw [Core.sendsFin, now, state]
        change (!(c.st.isFinSent && c.st.sndNxt != c.st.fss)) = true
        rw [Bool.not_eq_true', Bool.eq_false_iff, Ne, Bool.and_eq_true, bne_iff_ne]
        exact first
  | synSent =>
      rcases control_cases env c { syn := true } with same | sent
      · dsimp only
        rw [same]
        exact .same
      · dsimp only
        rw [sent]
        exact .syn state
  | synRcvd =>
      dsimp only
      rcases control_cases env (c.modify fun s => { s with sndNxt := s.iss })
        { syn := true, ack := true } with same | sent
      · rw [same]
        exact .rewound state
      · rw [sent]
        exact .synAck state

theorem writeTcpControlQueue_move : ControlMove c.view (c.writeTcpControlQueue env).view := by
  unfold writeTcpControlQueue
  split
  · have move := sendTcpControlPacket_move env (c.modify fun s => { s with onControlQueue := false })
    rw [view_modify _ (by exact ⟨rfl, rfl⟩)] at move
    exact move
  · exact .same

/-! ## The acknowledgement queue -/

theorem view_sendAcks : ∀ (pending : Nat) (c : Cx), (c.sendAcks env pending).view = c.view
  | 0, c => rfl
  | pending + 1, c => by
      have sent := view_bareAck env c { ack := true } ⟨rfl, rfl⟩
      rw [sendAcks]
      generalize c.sendTcpPacket env { ack := true } none 0 = result at sent
      obtain ⟨ret, c'⟩ := result
      dsimp only at sent ⊢
      split
      · exact sent
      · rw [view_sendAcks pending, view_modify _ (by exact ⟨rfl, rfl⟩)]
        exact sent

theorem view_sendWack : (c.sendWack env).view = c.view := by
  unfold sendWack
  split
  · have sent := view_bareAck env (c.modify fun s => { s with isWack := false })
      { ack := true, wack := true } ⟨rfl, rfl⟩
    generalize sendTcpPacket env _ none 0 (c.modify _) = result at sent
    obtain ⟨ret, c'⟩ := result
    dsimp only at sent ⊢
    split
    · rw [view_modify _ (by exact ⟨rfl, rfl⟩)]
      exact sent
    · exact sent
  · rfl

@[simp] theorem view_writeTcpAckQueue : (c.writeTcpAckQueue env).view = c.view := by
  unfold writeTcpAckQueue
  split
  · dsimp only
    rw [view_releaseControlWaiting, modify_st]
    dsimp only
    split
    all_goals
      first
      | rw [view_sendWack, view_sendAcks]
        rfl
      | rfl
  · rfl

/-! ## The send queue -/

theorem flushTcpSendingBuffer_move :
    (c.flushTcpSendingBuffer env).2.view.halted = true ∨
      (c.flushTcpSendingBuffer env).2.view = c.view ∨
      (c.st.isFinSent = false ∧ c.st.sndbuf.sbLen ≠ 0 ∧
        Flushed c.st.sendWindow (c.st.sndbuf.waitingCount + 1) c.view
          (c.flushTcpSendingBuffer env).2.view) := by
  unfold flushTcpSendingBuffer
  split
  · exact .inr (.inl rfl)
  split
  · exact .inr (.inl rfl)
  · rename_i open_ some
    rw [Bool.not_eq_true] at open_
    exact (flushLoop_flushed env _ _ 0 c rfl).imp_right fun flushed => .inr ⟨open_, some, flushed⟩

/-- The rest of the service, once the flush has returned. -/
theorem view_afterFlush (ret : Int) (c : Cx) :
    (if ret ≤ 0 then c.controlQueueAdd env
      else (c.modify fun s => { s with
        onSendQueue := false, ackCnt := s.ackCnt - ret.toNat }).releaseControlWaiting env
          (c.modify fun s => { s with
            onSendQueue := false, ackCnt := s.ackCnt - ret.toNat }).st.onAckQueue).view = c.view := by
  split
  · exact view_controlQueueAdd env c
  · rw [view_releaseControlWaiting, view_modify _ (by exact ⟨rfl, rfl⟩)]

/-- A stream dequeued from the send queue is flushed, if its state allows. -/
theorem writeTcpSendQueue_move :
    (c.writeTcpSendQueue env).view.halted = true ∨ (c.writeTcpSendQueue env).view = c.view ∨
      (c.st.state.flushes = true ∧ c.st.isFinSent = false ∧ c.st.sndbuf.sbLen ≠ 0 ∧
        Flushed c.st.sendWindow (c.st.sndbuf.waitingCount + 1) c.view
          (c.writeTcpSendQueue env).view) := by
  have flushed := flushTcpSendingBuffer_move env c
  unfold writeTcpSendQueue
  dsimp only
  cases state : c.st.state with
  | established | closeWait | finWait1 | lastAck =>
      dsimp only
      rw [view_afterFlush]
      exact flushed.imp_right fun move => move.imp_right fun move => ⟨rfl, move⟩
  | closed | listen | synSent | synRcvd | finWait2 | closing | timeWait =>
      dsimp only
      rw [view_afterFlush]
      exact .inr (.inl rfl)

end Queues

end Cx

/-! ## Timers -/

/-- What an expired retransmission timer does. -/
inductive RtoMove (s : TcpStream) (v : View) : View → Prop
  | lost (tries : tcpMaxRtx ≤ s.nrtx) :
      RtoMove s v { v with state := .closed, destroyed := true }
  | retransmit (tries : s.nrtx < tcpMaxRtx)
      (data : s.state = .established ∨
        (s.state.awaitsFinAck = true ∧ tcpSeqLt s.sndUna s.fss = true)) :
      RtoMove s v { v with sndNxt := v.sndUna, sndbuf := v.sndbuf.sbResetRetrans.2 }
  | control (tries : s.nrtx < tcpMaxRtx) (open_ : s.state ≠ .established)
      (noData : s.state.awaitsFinAck = true → tcpSeqLt s.sndUna s.fss = false) :
      RtoMove s v { v with sndNxt := v.sndUna }

namespace Cx

section Timers

variable (env : Env) (c : Cx)

theorem handleRto_move :
    (c.handleRto env).view.halted = true ∨ RtoMove c.st c.view (c.handleRto env).view := by
  unfold handleRto
  split
  · rename_i tries
    dsimp only
    generalize rolled : modify (c.modify _) _ = c₁
    have view₁ : c₁.view = { c.view with sndNxt := c.view.sndUna } := by
      rw [← rolled]
      rfl
    have now : c₁.st.state = c.st.state := congrArg (fun v : View => v.state) view₁
    have nxt : c₁.st.sndNxt = c.st.sndUna := congrArg (fun v : View => v.sndNxt) view₁
    have fss : c₁.st.fss = c.st.fss := congrArg (fun v : View => v.fss) view₁
    have again : ((c₁.setSndbuf c₁.st.sndbuf.sbResetRetrans.2).sendEventAdd env false).view =
        { c.view with sndNxt := c.view.sndUna, sndbuf := c.view.sndbuf.sbResetRetrans.2 } := by
      rw [view_sendEventAdd]
      change c₁.view.setSndbuf c₁.view.sndbuf.sbResetRetrans.2 = _
      rw [view₁]
      rfl
    rw [now, nxt, fss]
    have closing : c.st.state.awaitsFinAck = true → c.st.state ≠ .established →
        (if c.st.fss = 0 then c₁.exit
          else if tcpSeqLt c.st.sndUna c.st.fss = true then
            (c₁.setSndbuf c₁.st.sndbuf.sbResetRetrans.2).sendEventAdd env false
          else c₁.controlQueueAdd env).view.halted = true ∨
        RtoMove c.st c.view
          (if c.st.fss = 0 then c₁.exit
            else if tcpSeqLt c.st.sndUna c.st.fss = true then
              (c₁.setSndbuf c₁.st.sndbuf.sbResetRetrans.2).sendEventAdd env false
            else c₁.controlQueueAdd env).view := by
      intro awaits open_
      split
      · exact .inl rfl
      split
      · rw [again]
        exact .inr (.retransmit tries (.inr ⟨awaits, ‹_›⟩))
      · rename_i noData
        rw [Bool.not_eq_true] at noData
        rw [view_controlQueueAdd, view₁]
        exact .inr (.control tries open_ fun _ => noData)
    cases state : c.st.state with
    | established =>
        dsimp only
        rw [again]
        exact .inr (.retransmit tries (.inl state))
    | finWait1 | closing | lastAck =>
        exact closing (by rw [state]; rfl) (by rw [state]; decide)
    | closed | listen | synSent | synRcvd | finWait2 | closeWait | timeWait =>
        dsimp only
        rw [view_controlQueueAdd, view₁]
        refine .inr (.control tries (by rw [state]; decide) fun awaits => ?_)
        rw [state] at awaits
        cases awaits
  · rename_i tries
    exact .inr (.lost (Nat.le_of_not_lt tries))

theorem rtoListCheck_move :
    (c.rtoListCheck env).view.halted = true ∨ RtoMove c.st c.view (c.rtoListCheck env).view := by
  rcases handleRto_move env ((c.modify fun s => { s with onRto := false }).emit .rtoRemove) with
    halted | move
  · exact .inl halted
  · refine .inr ?_
    unfold rtoListCheck
    generalize (handleRto env _).view = v at move ⊢
    cases move with
    | lost tries => exact .lost tries
    | retransmit tries data => exact .retransmit tries data
    | control tries open_ noData => exact .control tries open_ noData

end Timers

/-! ## Calls of the application -/

section Calls

variable (env : Env) (c : Cx)

/-- The buffer takes the mbuf when the window shows room; whether it keeps it is up to `sb_put`. -/
theorem sendFromUser_cases (m : SndMbuf) :
    c.sendFromUser m = (failed, c) ∨
      ((c.sendFromUser m).2.view = c.view.setSndbuf (c.st.sndbuf.sbPut m).2 ∧
        (c.sendFromUser m).1 =
          if (c.st.sndbuf.sbPut m).1 ≤ 0 then failed else (c.st.sndbuf.sbPut m).1) := by
  unfold sendFromUser
  split
  · exact .inl rfl
  · refine .inr ?_
    generalize c.st.sndbuf.sbPut m = result
    obtain ⟨ret, b⟩ := result
    dsimp only
    split <;> exact ⟨rfl, rfl⟩

theorem view_tcpStreamClose : c.tcpStreamClose.2.view = c.view := by
  unfold tcpStreamClose
  split
  · rfl
  · dsimp only
    split <;> rfl

/-- A close request is queued in ESTABLISHED and CLOSE_WAIT only. -/
theorem tcpStreamClose_queued (queued : c.tcpStreamClose.1 = true) :
    c.st.state = .established ∨ c.st.state = .closeWait := by
  unfold tcpStreamClose at queued
  split at queued
  · cases queued
  · dsimp only [modify_st] at queued
    split at queued
    · exact .inl ‹_›
    · exact .inr ‹_›
    · cases queued

end Calls

end Cx

/-- The state after a close request. -/
def TcpState.afterClose : TcpState → TcpState
  | .established => .finWait1
  | .closeWait => .lastAck
  | s => s

inductive CloseMove (v : View) : View → Prop
  | same (closed : v.state = .closed) : CloseMove v { v with fss := v.sndbuf.nextSeq }
  | reset : CloseMove v { v with
      fss := v.sndbuf.nextSeq, state := .closed, destroyed := true }
  | closing : CloseMove v { v with
      fss := v.sndbuf.nextSeq, state := v.state.afterClose }

namespace Cx

theorem handleCloseCall_move (env : Env) (c : Cx) :
    (c.handleCloseCall env).view.halted = true ∨ CloseMove c.view (c.handleCloseCall env).view := by
  unfold handleCloseCall
  dsimp only
  generalize noted : c.modify _ = c₁
  have view₁ : c₁.view = { c.view with fss := c.view.sndbuf.nextSeq } := by
    rw [← noted]
    rfl
  have now : c₁.st.state = c.st.state := congrArg (fun v : View => v.state) view₁
  have moved : ∀ state : TcpState, (c₁.modify fun s => { s with state := state }).view =
      { c.view with fss := c.view.sndbuf.nextSeq, state := state } := by
    intro state
    change { c₁.view with state := state } = _
    rw [view₁]
  rw [now]
  by_cases reset : c₁.st.haveReset = true
  · rw [if_pos reset]
    refine .inr ?_
    split
    · rename_i closed
      rw [view₁]
      exact .same closed
    · change CloseMove c.view { (c₁.modify fun s => { s with state := .closed }).view with
        destroyed := true }
      rw [moved]
      exact .reset
  · rw [if_neg reset]
    have closes : CloseMove c.view
      { c.view with fss := c.view.sndbuf.nextSeq, state := c.st.state.afterClose } := .closing
    have stays : c.st.state.afterClose = c.st.state →
        CloseMove c.view { c.view with fss := c.view.sndbuf.nextSeq } := by
      intro same
      rw [same] at closes
      exact closes
    cases state : c.st.state with
    | closed => exact .inl rfl
    | established | closeWait =>
        refine .inr ?_
        dsimp only
        rw [state] at closes
        rw [view_controlQueueAdd, moved]
        exact closes
    | listen | synSent | synRcvd | finWait1 | finWait2 | closing | lastAck | timeWait =>
        refine .inr ?_
        dsimp only
        rw [view_controlQueueAdd, view₁]
        exact stays (by rw [state]; rfl)

end Cx

end QStack
