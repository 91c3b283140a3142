/-
# QStack.CloseReasons -- the state and the close reason of a stream that is destroyed

Whoever calls `tcp_stream_destroy` stores the state CLOSED and a close reason before.  The event
that ends a stream has a name among the enumerators of `protocol.h` (`Conn.closedBy`), and
`closeReason_law` says when the stream carries it: always, but for `timeout_list_check`, which
stores the macro `TCP_TIMEOUT` in the four bits of the field, and for a refused SYN of a stream
without socket, which is destroyed in CLOSE_WAIT.
-/
import QStack.Ending
import QStack.TimerLists
import QStack.Lib.Run

namespace QStack

set_option autoImplicit false

/-! ## The field -/

namespace CloseReason

/-- The value of the enumerator. -/
def val : CloseReason → Nat
  | .notClosed => 0 | .activeClose => 1 | .passiveClose => 2 | .connFail => 3 | .connLost => 4
  | .reset => 5 | .noMem => 6 | .notAccepted => 7 | .timedOut => 8

/-- What the field `close_reason:4` reads as after a value was stored. -/
def stored (value : Nat) : Option CloseReason :=
  match value % 2 ^ 4 with
  | 0 => some .notClosed | 1 => some .activeClose | 2 => some .passiveClose | 3 => some .connFail
  | 4 => some .connLost | 5 => some .reset | 6 => some .noMem | 7 => some .notAccepted
  | 8 => some .timedOut | _ => none

/-- The field is wide enough for every enumerator. -/
theorem stored_val (reason : CloseReason) : stored reason.val = some reason := by
  cases reason <;> rfl

/-- And too narrow for the macro. -/
theorem stored_tcpTimeout : stored Timers.tcpTimeout.toNat = some .notClosed := rfl

end CloseReason

namespace TcpStream

theorem resetBy_late {s : TcpStream} {seg : Segment} (reset : s.resetBy seg = true) :
    seg.rst = true ∧ TcpState.synSent.val < s.state.val := by
  rw [resetBy, Bool.and_eq_true] at reset
  refine ⟨reset.1, ?_⟩
  have why := reset.2
  revert why
  cases s.state <;> simp [TcpState.isFin, TcpState.val]

theorem lastAckedBy_state {s : TcpStream} {seg : Segment} (acked : s.lastAckedBy seg = true) :
    s.state = .lastAck ∧ seg.rst = false := by
  rw [lastAckedBy, Bool.and_eq_true, Bool.and_eq_true, Bool.and_eq_true, beq_iff_eq] at acked
  have reaches := acked.1.1.2
  rw [reachesAck, Bool.and_eq_true, Bool.and_eq_true, Bool.not_eq_true'] at reaches
  exact ⟨acked.1.1.1, reaches.1.2⟩

theorem refusedBy_iff {s : TcpStream} {seg : Segment} :
    s.refusedBy seg = true ↔
      s.state = .synSent ∧ s.acceptsSynAck seg = true ∧ seg.rst = true ∧ s.socket = false := by
  rw [refusedBy, Bool.and_eq_true, Bool.and_eq_true, Bool.and_eq_true, beq_iff_eq,
    Bool.not_eq_true', and_assoc, and_assoc]

/-- In SYN_SENT nothing else destroys the stream. -/
theorem refusedBy_alone {s : TcpStream} {seg : Segment}
    (other : s.resetBy seg = true ∨ s.lastAckedBy seg = true) : s.refusedBy seg = false := by
  rw [Bool.eq_false_iff]
  intro refused
  have synSent := (refusedBy_iff.mp refused).1
  rcases other with reset | acked
  · have late := (resetBy_late reset).2
    rw [synSent] at late
    exact absurd late (Nat.lt_irrefl _)
  · rw [(lastAckedBy_state acked).1] at synSent
    cases synSent

end TcpStream

namespace Cx

/-- `timeout_list_check` stores the macro. -/
theorem timeoutListCheck_stores (c : Cx) :
    CloseReason.stored Timers.tcpTimeout.toNat = some c.timeoutListCheck.st.closeReason := rfl

/-! ## The handlers that destroy -/

section Handlers

variable (env : Env) (seg : Segment) (c : Cx)

theorem handleRst_closes (alive : c.view.destroyed = false)
    (gone : (c.handleRst seg).view.destroyed = true) :
    (c.handleRst seg).st.state = .closed ∧
      (c.handleRst seg).st.closeReason = if c.st.state.isFin then .activeClose else .reset := by
  unfold handleRst at gone ⊢
  have waits : ¬ (if c.st.onCloseq || c.st.onResetq then c
      else (c.modify fun s =>
        { s with state := .closeWait, closeReason := .reset }).raiseEvent
          (.read true)).view.destroyed = true := by
    have spares : c.Spares (if c.st.onCloseq || c.st.onResetq then c
        else (c.modify fun s =>
          { s with state := .closeWait, closeReason := .reset }).raiseEvent (.read true)) := by
      split
      · exact .refl c
      · exact (Spares.modify c rfl).trans (raiseEvent_walks .sparing {} _ _).spares
    rw [spares.spared, alive]
    exact Bool.false_ne_true
  cases state : c.st.state with
  | synRcvd =>
      rw [state] at gone
      dsimp only at gone ⊢
      split at gone
      · rw [if_pos ‹_›]
        exact ⟨rfl, rfl⟩
      · rw [alive] at gone
        cases gone
  | finWait1 | finWait2 | lastAck | closing | timeWait => exact ⟨rfl, rfl⟩
  | closed | listen | synSent | established | closeWait =>
      rw [state] at gone
      exact absurd gone waits

theorem handleLastAck_closes (alive : c.view.destroyed = false)
    (gone : (c.handleLastAck env seg).view.destroyed = true) :
    (c.handleLastAck env seg).st.state = .closed ∧
      (c.handleLastAck env seg).st.closeReason = .passiveClose := by
  have dead : ∀ {c' : Cx}, c.Spares c' → ¬ c'.view.destroyed = true := by
    intro c' spares
    rw [spares.spared, alive]
    exact Bool.false_ne_true
  unfold handleLastAck at gone ⊢
  split at gone
  · exact absurd gone (dead (.refl c))
  rename_i fresh
  rw [if_neg fresh]
  split at gone
  · rename_i ack
    rw [if_pos ack]
    have spares := (processTcpAck_walks .sparing env c seg (.sparing _ _)).spares
    generalize c.processTcpAck env seg = c₁ at spares gone ⊢
    rcases andThen_cases c₁ _ with ⟨-, next⟩ | ⟨-, next⟩
    · rw [next] at gone
      exact absurd gone (dead spares)
    rw [next] at gone ⊢
    split at gone
    · exact absurd gone (dead spares)
    rename_i finSent
    rw [if_neg finSent]
    split at gone
    · rw [if_pos ‹_›]
      exact ⟨rfl, rfl⟩
    · exact absurd gone (dead (spares.trans (controlQueueAdd_walks .sparing env c₁).spares))
  · exact absurd gone (dead (controlQueueAdd_walks .sparing env c).spares)

/-- Without a socket, the stream of a refused SYN is destroyed as it is. -/
theorem handleSynSent_leaves (accepts : c.st.acceptsSynAck seg = true) (rst : seg.rst = true)
    (socket : c.st.socket = false) : (c.handleSynSent env seg).st.state = .closeWait := by
  have ack : seg.ack = true := by
    rw [TcpStream.acceptsSynAck, Bool.and_eq_true, Bool.and_eq_true] at accepts
    exact accepts.1.1
  unfold handleSynSent
  rw [if_neg ?passes]
  case passes =>
    intro refused
    unfold TcpStream.acceptsSynAck at accepts
    revert accepts refused
    cases tcpSeqLeq seg.ackSeq c.st.iss <;> cases tcpSeqGt seg.ackSeq c.st.sndNxt <;> simp
  dsimp only
  rw [if_pos rst, if_pos ack, if_pos ack, if_neg]
  · rfl
  · change ¬ c.st.socket = true
    rw [socket]
    exact Bool.false_ne_true

/-! ## One segment -/

theorem processSegment_closes (alive : c.view.destroyed = false)
    (running : (c.processSegment env seg).view.halted = false)
    (gone : (c.processSegment env seg).view.destroyed = true) :
    (c.st.resetBy seg = true ∧ (c.processSegment env seg).st.state = .closed ∧
        (c.processSegment env seg).st.closeReason =
          if c.st.state.isFin then .activeClose else .reset) ∨
      (c.st.resetBy seg = false ∧ c.st.lastAckedBy seg = true ∧
        (c.processSegment env seg).st.state = .closed ∧
        (c.processSegment env seg).st.closeReason = .passiveClose) ∨
      (c.st.refusedBy seg = true ∧ (c.processSegment env seg).st.state = .closeWait) := by
  have ended := (processSegment_ends env seg c alive running gone).1
  cases processSegment_arrival env seg c with
  | halted h =>
      rw [running] at h
      cases h
  | dropped late view =>
      rw [view, alive] at gone
      cases gone
  | reset c₁ rst beyond core result stays enters inSeq =>
      rw [result] at gone ⊢
      have state : c₁.st.state = c.st.state := congrArg (fun v : View => v.state) core
      have closes := handleRst_closes seg c₁ (core ▸ alive) gone
      rw [state] at closes
      refine .inl ⟨?_, closes⟩
      rw [TcpStream.endedBy, Bool.or_eq_true, Bool.or_eq_true] at ended
      rcases ended with (reset | acked) | refused
      · exact reset
      · rw [(TcpStream.lastAckedBy_state acked).2] at rst
        cases rst
      · rw [(TcpStream.refusedBy_iff.mp refused).1] at beyond
        exact absurd beyond (Nat.lt_irrefl _)
  | handled c₁ view ready inSeq kept queues result stays enters =>
      rw [result] at gone ⊢
      have alive₁ : c₁.view.destroyed = false := view ▸ alive
      have state : c₁.st.state = c.st.state := congrArg Core.state ready.core
      have noReset : c.st.resetBy seg = false := by
        rw [Bool.eq_false_iff]
        intro reset
        have late := TcpStream.resetBy_late reset
        rw [kept late.2] at late
        cases late.1
      rw [TcpStream.endedBy, noReset, Bool.false_or, Bool.or_eq_true] at ended
      rcases ended with acked | refused
      · have lastAck := (TcpStream.lastAckedBy_state acked).1
        rw [handleSegment, state.trans lastAck] at gone ⊢
        exact .inr (.inl ⟨noReset, acked, handleLastAck_closes env seg c₁ alive₁ gone⟩)
      · obtain ⟨synSent, accepts, rst, socket⟩ := TcpStream.refusedBy_iff.mp refused
        rw [handleSegment, state.trans synSent]
        have accepts₁ : c₁.st.acceptsSynAck seg = true := by
          rw [← accepts, TcpStream.acceptsSynAck, TcpStream.acceptsSynAck,
            show c₁.st.iss = c.st.iss from congrArg Core.iss ready.core,
            show c₁.st.sndNxt = c.st.sndNxt from congrArg Core.sndNxt ready.core]
        exact .inr (.inr ⟨refused,
          handleSynSent_leaves env seg c₁ accepts₁ rst (enters.socket.trans socket)⟩)

/-! ## Timers and the close call -/

theorem handleRto_closes (alive : c.view.destroyed = false)
    (gone : (c.handleRto env).view.destroyed = true) :
    (c.handleRto env).st.state = .closed ∧
      (c.handleRto env).st.closeReason =
        if c.st.state.val < TcpState.established.val then .connFail else .connLost := by
  rcases handleRto_ends env c with spares | ⟨tries, -, -, -, -⟩
  · rw [spares.spared, alive] at gone
    cases gone
  · unfold handleRto
    rw [if_neg (Nat.not_lt.mpr tries)]
    exact ⟨rfl, rfl⟩

theorem handleCloseCall_closes (alive : c.view.destroyed = false)
    (gone : (c.handleCloseCall env).view.destroyed = true) :
    (c.handleCloseCall env).st.state = .closed ∧
      (c.handleCloseCall env).st.closeReason = .reset := by
  rcases handleCloseCall_ends env c with spares | ⟨⟨reset, opened⟩, -, -, -, -⟩
  · rw [spares.spared, alive] at gone
    cases gone
  · unfold handleCloseCall
    dsimp only
    rw [if_pos (by exact reset), if_neg (by exact opened)]
    exact ⟨rfl, rfl⟩

end Handlers

end Cx

/-! ## The event that closes a stream -/

namespace Conn

/-- The enumerator that names the event which closes the stream.  A reset that finds the close
call made already is an active close for `handle_rst`. -/
def closedBy (s : Conn) (call : ConnCall) : CloseReason :=
  match call with
  | .packet seg =>
      if s.st.resetBy seg then (if s.st.state.isFin then .activeClose else .reset)
      else if s.st.lastAckedBy seg then .passiveClose
      else .reset
  | .handleClose => .reset
  | .rto => if s.st.state.val < TcpState.established.val then .connFail else .connLost
  | .timewait => .activeClose
  | .timeout => .timedOut
  | .send .. | .recv | .close | .serveControl | .serveSend | .serveAck => .notClosed

/-- The step calls `tcp_stream_destroy`. -/
def Destroys (s : Conn) (s' : Conn) : Prop :=
  s.ended = false ∧ s'.view.halted = false ∧ s'.view.destroyed = true

structure Named (s : Conn) (call : ConnCall) (s' : Conn) : Prop where
  closed : s'.st.state = .closed
  reason : s'.st.closeReason = s.closedBy call
  nonzero : s'.st.closeReason.val ≠ 0

theorem Named.of {s s' : Conn} {call : ConnCall} (closed : s'.st.state = .closed)
    (reason : s'.st.closeReason = s.closedBy call) (name : (s.closedBy call).val ≠ 0) :
    s.Named call s' :=
  ⟨closed, reason, reason ▸ name⟩

/-- The two paths that store something else. -/
def misnames (s : Conn) (call : ConnCall) : Bool :=
  match call with
  | .packet seg => s.st.refusedBy seg
  | .timeout => true
  | _ => false

/-- The calls that never destroy. -/
theorem serve_lives {s : Conn} {e : ConnEvent} (alive : s.view.destroyed = false)
    (quiet : ∀ seg, e.call ≠ .packet seg) (close : e.call ≠ .handleClose) (rto : e.call ≠ .rto)
    (timewait : e.call ≠ .timewait) (timeout : e.call ≠ .timeout) :
    (s.serve e).view.destroyed = false := by
  have lives : ∀ {c : Cx}, Cx.Walk e.env .sparing (s.entry e) c → c.view.destroyed = false :=
    fun walk => (walk.spared rfl).trans alive
  unfold serve
  dsimp only
  cases call : e.call with
  | packet seg => exact absurd call (quiet seg)
  | handleClose => exact absurd call close
  | rto => exact absurd call rto
  | timewait => exact absurd call timewait
  | timeout => exact absurd call timeout
  | send len highPri => exact lives (Cx.qTcpSend_walks .sparing e.env _ _ len highPri)
  | recv => exact lives (Cx.qRecv_walks .sparing e.env _)
  | close => exact lives (Cx.tcpStreamClose_walks .sparing e.env _)
  | serveControl => exact lives (Cx.writeTcpControlQueue_walks .sparing e.env _)
  | serveSend =>
      dsimp only
      split
      · exact lives (Cx.writeTcpSendQueue_walks .sparing e.env _)
      · exact alive
  | serveAck => exact lives (Cx.writeTcpAckQueue_walks .sparing e.env _)

theorem named_iff {s : Conn} {e : ConnEvent} (destroys : s.Destroys (s.step e)) :
    s.Named e.call (s.step e) ↔ s.misnames e.call = false := by
  obtain ⟨running, going, gone⟩ := destroys
  rw [show s.step e = s.serve e from if_neg (by rw [running]; exact Bool.false_ne_true)]
    at going gone ⊢
  have alive : s.view.destroyed = false := by
    rw [ended, Bool.or_eq_false_iff] at running
    exact running.2
  have dead : ¬ s.view.destroyed = true := by
    rw [alive]
    exact Bool.false_ne_true
  obtain ⟨call, env, avail⟩ := e
  cases call with
  | packet seg =>
      have closes : (s.st.resetBy seg = true ∧ (s.serve ⟨.packet seg, env, avail⟩).st.state = .closed ∧
          (s.serve ⟨.packet seg, env, avail⟩).st.closeReason =
            if s.st.state.isFin then .activeClose else .reset) ∨
          (s.st.resetBy seg = false ∧ s.st.lastAckedBy seg = true ∧
            (s.serve ⟨.packet seg, env, avail⟩).st.state = .closed ∧
            (s.serve ⟨.packet seg, env, avail⟩).st.closeReason = .passiveClose) ∨
          (s.st.refusedBy seg = true ∧
            (s.serve ⟨.packet seg, env, avail⟩).st.state = .closeWait) :=
        Cx.processSegment_closes env seg (s.entry ⟨.packet seg, env, avail⟩) alive going gone
      rcases closes with ⟨reset, closed, reason⟩ | ⟨noReset, acked, closed, reason⟩ |
        ⟨refused, state⟩
      · refine iff_of_true (.of closed (reason.trans (if_pos reset).symm) ?_)
          (TcpStream.refusedBy_alone (.inl reset))
        rw [closedBy, if_pos reset]
        split <;> decide
      · have name : s.closedBy (.packet seg) = .passiveClose := by
          rw [closedBy, noReset, if_neg Bool.false_ne_true, if_pos acked]
        refine iff_of_true (.of closed (reason.trans name.symm) ?_)
          (TcpStream.refusedBy_alone (.inr acked))
        rw [name]
        decide
      · refine iff_of_false (fun named => ?_) (by rw [misnames, refused]; exact Bool.noConfusion)
        have closed := named.closed
        rw [state] at closed
        cases closed
  | handleClose =>
      refine iff_of_true ?_ rfl
      unfold serve at gone ⊢
      dsimp only at gone ⊢
      split at gone
      · rw [if_pos ‹_›]
        obtain ⟨closed, reason⟩ :=
          Cx.handleCloseCall_closes env (s.entry ⟨.handleClose, env, avail⟩) alive gone
        exact .of closed reason (Nat.succ_ne_zero 4)
      · exact absurd gone dead
  | rto =>
      refine iff_of_true ?_ rfl
      unfold serve at gone ⊢
      dsimp only at gone ⊢
      split at gone
      · rw [if_pos ‹_›]
        obtain ⟨closed, reason⟩ := Cx.handleRto_closes env
          (((s.entry ⟨.rto, env, avail⟩).modify fun s => { s with onRto := false }).emit .rtoRemove)
          alive gone
        refine .of closed reason ?_
        rw [closedBy]
        split <;> decide
      · exact absurd gone dead
  | timewait =>
      refine iff_of_true ?_ rfl
      unfold serve at gone ⊢
      dsimp only at gone ⊢
      split at gone
      · rw [if_pos ‹_›]
        exact ⟨rfl, rfl, Nat.succ_ne_zero 0⟩
      · exact absurd gone dead
  | timeout =>
      refine iff_of_false (fun named => ?_) Bool.noConfusion
      have nonzero := named.nonzero
      unfold serve at gone nonzero
      dsimp only at gone nonzero
      split at gone
      · rw [if_pos ‹_›] at nonzero
        have kept := (Cx.timeoutListCheck_stores (s.entry ⟨.timeout, env, avail⟩)).symm.trans
          CloseReason.stored_tcpTimeout
        rw [Option.some.inj kept] at nonzero
        exact nonzero rfl
      · exact dead gone
  | send | recv | close | serveControl | serveSend | serveAck =>
      rw [serve_lives alive (fun seg is => by cases is) (fun is => by cases is)
        (fun is => by cases is) (fun is => by cases is) fun is => by cases is] at gone
      cases gone

/-- **The close reason.**  In any run, a call that destroys its stream leaves it CLOSED with the
name of the event, exactly if it is neither `timeout_list_check` nor a refused SYN without
socket. -/
theorem closeReason_law (s : Conn) (es : List ConnEvent) :
    Lib.Run.Each step
      (fun s e s' => s.Destroys s' → (s.Named e.call s' ↔ s.misnames e.call = false)) s es :=
  Lib.Run.each_of_step (P := fun _ => True) (fun _ _ _ _ => ⟨trivial, named_iff⟩) es s trivial
    (Lib.Run.allowed_always es s)

/-- An idle connection is destroyed with the reason `TCP_NOT_CLOSED`. -/
theorem timeout_unnamed :
    ¬ ∀ (sndbufSize : Nat) (s : Conn), Start sndbufSize s → ∀ es : List ConnEvent,
      Lib.Run.Each step (fun s e s' => s.Destroys s' → s.Named e.call s') s es := by
  intro claim
  have start : Start 4096 (passive 4096 4096 100 {} { id := 0, seq := 7, syn := true }) :=
    .passive 4096 100 {} _ rfl rfl
  have named := (claim _ _ start [{ call := .timeout }]).1 ⟨by decide, by decide, by decide⟩
  exact absurd named.nonzero (by decide)

end Conn

end QStack
