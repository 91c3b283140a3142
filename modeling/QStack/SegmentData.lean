/-
# QStack.SegmentData -- what a segment can do to a stream

`processSegment_arrival` inverts the way of a segment to its handler, and
`processSegment_data` what happens from ESTABLISHED on: whatever the state, a segment
does one of the few things that `DataMove` lists.  The handshake states follow in
`QStack.Handshake`.
-/
import QStack.Arming

namespace QStack

set_option autoImplicit false

/-! ## From ESTABLISHED on -/

/-- The sending side after the acknowledgement of a segment. -/
def TcpStream.acked (s : TcpStream) (seg : Segment) : Core :=
  s.core.onAck (s.fastRetransmits seg) (s.adjustAck seg.ackSeq)

/-- What a segment can do: the new sending side, and whether the stream is destroyed. -/
inductive DataMove (s : TcpStream) (seg : Segment) : Core → Bool → Prop
  | same : DataMove s seg s.core false
  | moved (state : TcpState) (legal : s.state.follows state = true) :
      DataMove s seg { s.core with state := state } false
  | reset (fin : s.state.isFin = true) : DataMove s seg { s.core with state := .closed } true
  | acked (state : TcpState) (reach : s.reachesAck seg = true)
      (legal : s.state.follows state = true) :
      DataMove s seg { s.acked seg with state := state } false
  | finWait1 (state : TcpState) (reach : s.reachesAck seg = true) (from_ : s.state = .finWait1)
      (sent : s.isFinSent = true) (finAcked : seg.ackSeq = s.fss + 1)
      (legal : TcpState.finWait2.follows state = true) :
      DataMove s seg { (s.acked seg).recover seg.ackSeq with
        sndUna := seg.ackSeq, state := state } false
  | closing (reach : s.reachesAck seg = true) (from_ : s.state = .closing)
      (sent : s.isFinSent = true) (finAcked : seg.ackSeq = s.fss + 1) :
      DataMove s seg { s.acked seg with
        sndUna := seg.ackSeq, sndNxt := seg.ackSeq, state := .timeWait } false
  | lastAck (reach : s.reachesAck seg = true) (from_ : s.state = .lastAck)
      (sent : s.isFinSent = true) (finAcked : seg.ackSeq = s.fss + 1) :
      DataMove s seg { s.acked seg with
        sndUna := (s.acked seg).sndUna + 1, state := .closed } true

namespace TcpStream

theorem thirdDup_eq (s : TcpStream) (seg : Segment) :
    s.thirdDup seg =
      (tcpSeqLt (s.adjustAck seg.ackSeq) s.sndNxt && s.adjustAck seg.ackSeq == s.lastAckSeq &&
        seg.payloadLen == 0 &&
        (if tcpSeqLt s.sndWl1 seg.seq ||
            (s.sndWl1 == seg.seq && tcpSeqLt s.sndWl2 (s.adjustAck seg.ackSeq)) ||
            (s.sndWl2 == s.adjustAck seg.ackSeq && decide (s.peerWnd < s.advertisedBy seg)) then
          s.adjustAck seg.ackSeq + s.advertisedBy seg
        else s.sndWl2 + s.peerWnd) == s.peerWnd + s.sndWl2 && (s.dupAcks + 1) % 256 == 3) := by
  have counted : ∀ (dup : Bool) (s : TcpStream) (a : Seq),
      (dup && (s.countDupAck dup a).dupAcks == 3) = (dup && (s.dupAcks + 1) % 256 == 3) := by
    intro dup s a
    cases dup <;> rfl
  unfold thirdDup
  dsimp only
  rw [counted]
  unfold updateWindow isDupAck
  split <;> rfl

theorem thirdDup_congr {s s' : TcpStream} (seg : Segment) (core : s'.core = s.core)
    (wl1 : s'.sndWl1 = s.sndWl1) (wl2 : s'.sndWl2 = s.sndWl2) (peer : s'.peerWnd = s.peerWnd)
    (last : s'.lastAckSeq = s.lastAckSeq) (dup : s'.dupAcks = s.dupAcks)
    (window : s'.advertisedBy seg = s.advertisedBy seg) : s'.thirdDup seg = s.thirdDup seg := by
  have adjust : s'.adjustAck seg.ackSeq = s.adjustAck seg.ackSeq :=
    TcpStream.adjustAck_congr core _
  have nxt : s'.sndNxt = s.sndNxt := congrArg Core.sndNxt core
  rw [thirdDup_eq, thirdDup_eq, adjust, window, peer, wl2, wl1, nxt, last, dup]

/-- What the test for duplicates reads besides the sending side. -/
def ackVars (s : TcpStream) : Seq × Seq × U32 × Seq × Nat × Nat :=
  (s.sndWl1, s.sndWl2, s.peerWnd, s.lastAckSeq, s.dupAcks, s.wscalePeer)

theorem thirdDup_of_ackVars {s s' : TcpStream} (seg : Segment) (core : s'.core = s.core)
    (vars : s'.ackVars = s.ackVars) : s'.thirdDup seg = s.thirdDup seg := by
  simp only [ackVars, Prod.mk.injEq] at vars
  obtain ⟨wl1, wl2, peer, last, dup, scale⟩ := vars
  exact thirdDup_congr seg core wl1 wl2 peer last dup (by unfold advertisedBy; rw [scale])

end TcpStream

namespace Cx

section AckVars

variable (env : Env) (seg : Segment) (c : Cx)

theorem ackVars_enqueueAck (opt : AckOpt) :
    (c.enqueueAck env opt).st.ackVars = c.st.ackVars := by
  have queue : ∀ c : Cx, (c.ackQueueAdd env).st.ackVars = c.st.ackVars := by
    intro c
    unfold ackQueueAdd
    split <;> rfl
  unfold enqueueAck
  rw [queue]
  cases opt with
  | now =>
      dsimp only
      split <;> rfl
  | aggregate =>
      dsimp only
      split <;> rfl
  | wack => rfl

theorem ackVars_raiseEvent (ev : EventKind) : (c.raiseEvent ev).st.ackVars = c.st.ackVars := by
  unfold raiseEvent
  split <;> rfl

theorem ackVars_processTcpPayload : (c.processTcpPayload seg).2.st.ackVars = c.st.ackVars := by
  have stored : ∀ (prev : Seq) (priority : Bool) (ret : Int) (c : Cx),
      (c.payloadStored prev priority ret).2.st.ackVars = c.st.ackVars := by
    intro prev priority ret c
    unfold payloadStored
    dsimp only
    split
    · rfl
    split
    · cases priority with
      | true =>
          simp only [if_true]
          split
          · exact (ackVars_raiseEvent _ _).trans (ackVars_raiseEvent _ _)
          · exact ackVars_raiseEvent _ _
      | false =>
          simp only [Bool.false_eq_true, if_false]
          split
          · exact ackVars_raiseEvent _ _
          · rfl
    · rfl
  unfold processTcpPayload
  dsimp only
  split
  · rfl
  split
  · rfl
  split
  · rfl
  · obtain ⟨wnd, irs, swapped⟩ := addHeadSwapped_eq seg.bufAddr
      (RcvMem.rbPut { toMbufMem := c.mem, buff := c.st.rcvbuf } seg.id).2 c
    rw [swapped]
    exact stored _ _ _ _

theorem ackVars_establishedPayload : (c.establishedPayload env seg).st.ackVars = c.st.ackVars := by
  unfold establishedPayload
  split
  · have payload := ackVars_processTcpPayload seg c
    generalize c.processTcpPayload seg = result at payload ⊢
    obtain ⟨ret, c'⟩ := result
    dsimp only at payload ⊢
    unfold andThen
    split
    · exact payload
    split <;> exact (ackVars_enqueueAck _ _ _).trans payload
  · rfl

end AckVars

/-- The context that a handler gets: the stream `s`, its window updated from the segment. -/
structure Ready (s : TcpStream) (seg : Segment) (c : Cx) : Prop where
  core : c.st.core = s.core
  rcv : c.st.rcvCore = s.rcvCore
  fast : c.st.thirdDup seg = s.fastRetransmits seg

/-- The effect of a segment from ESTABLISHED on. -/
def Outcome (s : TcpStream) (seg : Segment) (v : View) (c : Cx) : Prop :=
  c.view.halted = true ∨
    ∃ k d r, DataMove s seg k d ∧
      c.view = ((v.withCore k).withRcv r).withDestroyed (d || v.destroyed)

section Data

variable {s : TcpStream} {seg : Segment} {env : Env} {c c' : Cx}

theorem Outcome.same (view : c'.view = c.view) (core : c.st.core = s.core) :
    Outcome s seg c.view c' := by
  refine .inr ⟨s.core, false, c.st.rcvCore, .same, ?_⟩
  rw [view, ← core]
  rfl

theorem Outcome.of_move {k : Core} {r : RcvCore} (move : DataMove s seg k false)
    (view : c'.view = (c.view.withCore k).withRcv r) : Outcome s seg c.view c' :=
  .inr ⟨k, false, r, move, by rw [view]; rfl⟩

theorem Ready.processTcpAck (ready : Ready s seg c) (env : Env) :
    (c.processTcpAck env seg).view.halted = true ∨
      (c.processTcpAck env seg).view = c.view.withCore (s.acked seg) := by
  have adjust : c.st.adjustAck seg.ackSeq = s.adjustAck seg.ackSeq :=
    TcpStream.adjustAck_congr ready.core _
  have processed := processTcpAck_view env seg c
  rw [ready.core, ready.fast, adjust] at processed
  exact processed

theorem acked_state (s : TcpStream) (seg : Segment) : (s.acked seg).state = s.state := by
  unfold TcpStream.acked
  exact Core.onAck_state _ _ _

theorem handleCloseWait_outcome (ready : Ready s seg c) (state : s.state = .closeWait)
    (inSeq : s.inSequence seg = true) (run : seg.rst = false) :
    Outcome s seg c.view (c.handleCloseWait env seg) := by
  have nxt : c.st.rcvNxt = s.rcvNxt := congrArg RcvCore.rcvNxt ready.rcv
  unfold handleCloseWait
  split
  · exact .same (view_controlQueueAdd env c) ready.core
  · rename_i fresh
    rcases ready.processTcpAck env with halted | view
    · exact .inl halted
    · have reach : s.reachesAck seg = true := by
        rw [nxt] at fresh
        simp [TcpStream.reachesAck, inSeq, run, state, fresh]
      refine .of_move (r := c.st.rcvCore) (.acked .closeWait reach (by rw [state]; rfl)) ?_
      rw [view, ← state, ← acked_state s seg]
      rfl

/-- The code after a call of `process_tcp_ack`. -/
theorem Ready.thenAck (ready : Ready s seg c) (env : Env) {f : Cx → Cx}
    (cont : ∀ c₁ : Cx, c₁.view = c.view.withCore (s.acked seg) → Outcome s seg c.view (f c₁)) :
    Outcome s seg c.view ((c.processTcpAck env seg).andThen f) := by
  rcases andThen_cases (c.processTcpAck env seg) f with ⟨halted, next⟩ | ⟨running, next⟩
  · rw [next]
    exact .inl halted
  · rw [next]
    rcases ready.processTcpAck env with halted | view
    · rw [halted] at running
      cases running
    · exact cont _ view

theorem Outcome.congr {v : View} (outcome : Outcome s seg v c) (view : c'.view = c.view) :
    Outcome s seg v c' := by
  unfold Outcome
  rw [view]
  exact outcome

/-- Only the acknowledgement of the segment counted. -/
theorem Outcome.of_acked (view : c'.view = c.view.withCore (s.acked seg))
    (reach : s.reachesAck seg = true) (group : s.state.follows s.state = true) :
    Outcome s seg c.view c' := by
  refine .of_move (r := c.st.rcvCore) (.acked s.state reach group) ?_
  rw [view, ← acked_state s seg]
  rfl

section AfterAck

variable {c₁ : Cx} (view : c₁.view = c.view.withCore (s.acked seg))

include view

theorem acked_isFinSent : c₁.st.isFinSent = s.isFinSent :=
  (congrArg (fun v : View => v.isFinSent) view).trans (Core.onAck_isFinSent _ _ _)

theorem acked_fss : c₁.st.fss = s.fss :=
  (congrArg (fun v : View => v.fss) view).trans (Core.onAck_fss _ _ _)

end AfterAck

theorem handleLastAck_outcome (ready : Ready s seg c) (state : s.state = .lastAck)
    (inSeq : s.inSequence seg = true) (run : seg.rst = false) :
    Outcome s seg c.view (c.handleLastAck env seg) := by
  have nxt : c.st.rcvNxt = s.rcvNxt := congrArg RcvCore.rcvNxt ready.rcv
  unfold handleLastAck
  split
  · exact .same rfl ready.core
  split
  · rename_i fresh ack
    rw [nxt, Bool.not_eq_true] at fresh
    have reach : s.reachesAck seg = true := by
      simp [TcpStream.reachesAck, inSeq, run, state, fresh, ack]
    refine ready.thenAck env fun c₁ view => ?_
    have stay : Outcome s seg c.view c₁ := .of_acked view reach (by rw [state]; rfl)
    split
    · exact stay
    · rename_i sent
      rw [Bool.not_eq_true', Bool.not_eq_false, acked_isFinSent view] at sent
      split
      · rename_i finAcked
        rw [acked_fss view] at finAcked
        refine .inr ⟨_, true, c.st.rcvCore, .lastAck reach state sent finAcked, ?_⟩
        rw [view_tcpStreamDestroy]
        change ({ (c₁.view.withCore { c₁.view.toCore with
          sndUna := c₁.view.sndUna + 1, state := .closed }) with destroyed := true } : View) = _
        rw [view]
        rfl
      · exact stay.congr (view_controlQueueAdd env c₁)
  · exact .same (view_controlQueueAdd env c) ready.core

theorem handleClosing_outcome (ready : Ready s seg c) (state : s.state = .closing)
    (inSeq : s.inSequence seg = true) (run : seg.rst = false) :
    Outcome s seg c.view (c.handleClosing env seg) := by
  unfold handleClosing
  split
  · rename_i ack
    have reach : s.reachesAck seg = true := by
      simp [TcpStream.reachesAck, inSeq, run, state, ack]
    refine ready.thenAck env fun c₁ view => ?_
    have stay : Outcome s seg c.view c₁ := .of_acked view reach (by rw [state]; rfl)
    split
    · exact stay
    · rename_i sent
      rw [Bool.not_eq_true', Bool.not_eq_false, acked_isFinSent view] at sent
      split
      · exact stay
      · rename_i finAcked
        rw [not_not, acked_fss view] at finAcked
        refine .of_move (r := c.st.rcvCore) (.closing reach state sent finAcked) ?_
        rw [view_timewaitListAdd]
        change c₁.view.withCore { c₁.view.toCore with
          sndUna := seg.ackSeq, sndNxt := seg.ackSeq, state := .timeWait } = _
        rw [view]
        rfl
  · exact .same rfl ready.core

theorem finInFinWait2_view (env : Env) (seg : Segment) (c : Cx) :
    ∃ r, (c.finInFinWait2 env seg).view = c.view.withRcv r ∨
      (c.finInFinWait2 env seg).view =
        (c.view.withCore { c.st.core with state := .timeWait }).withRcv r := by
  unfold finInFinWait2
  split
  · refine ⟨(c.st.takeFin seg).rcvCore, .inr ?_⟩
    rw [view_controlQueueAdd, view_timewaitListAdd]
    rfl
  · exact ⟨c.st.rcvCore, .inl rfl⟩

theorem handleFinWait2_outcome (ready : Ready s seg c) (state : s.state = .finWait2)
    (inSeq : s.inSequence seg = true) (run : seg.rst = false) :
    Outcome s seg c.view (c.handleFinWait2 env seg) := by
  unfold handleFinWait2
  split
  · rename_i ack
    have reach : s.reachesAck seg = true := by
      simp [TcpStream.reachesAck, inSeq, run, state, ack]
    refine ready.thenAck env fun c₁ view => ?_
    rcases andThen_cases (c₁.closingPayload env seg) (finInFinWait2 env seg) with
      ⟨halted, next⟩ | ⟨running, next⟩
    · rw [next]
      exact .inl halted
    · rw [next]
      rcases closingPayload_view env seg c₁ with halted | ⟨r₁, payload⟩
      · rw [halted] at running
        cases running
      · rcases finInFinWait2_view env seg (c₁.closingPayload env seg) with ⟨r₂, stays | ends⟩
        · refine .of_move (r := r₂) (.acked s.state reach (by rw [state]; rfl)) ?_
          rw [stays, payload, view, ← acked_state s seg]
          rfl
        · refine .of_move (r := r₂) (.acked .timeWait reach (by rw [state]; rfl)) ?_
          rw [ends]
          change ((c₁.closingPayload env seg).view.withCore
            { (c₁.closingPayload env seg).view.toCore with state := .timeWait }).withRcv r₂ = _
          rw [payload, view]
          rfl
  · exact .same rfl ready.core

/-- A FIN moves FIN_WAIT_1 to CLOSING and FIN_WAIT_2 to TIME_WAIT. -/
theorem finInFinWait1_view (env : Env) (seg : Segment) (c : Cx) :
    ∃ (r : RcvCore) (state : TcpState), c.st.state.follows state = true ∧
      (c.finInFinWait1 env seg).view =
        (c.view.withCore { c.st.core with state := state }).withRcv r := by
  unfold finInFinWait1
  split
  · dsimp only
    rw [view_controlQueueAdd, show (c.modify (TcpStream.takeFin seg)).st.state = c.st.state from rfl]
    cases now : c.st.state with
    | finWait1 =>
        exact ⟨(c.st.takeFin seg).rcvCore, .closing, rfl, rfl⟩
    | finWait2 =>
        refine ⟨(c.st.takeFin seg).rcvCore, .timeWait, rfl, ?_⟩
        exact view_timewaitListAdd env _
    | closed | listen | synSent | synRcvd | established | closeWait | closing | lastAck
    | timeWait =>
        exact ⟨(c.st.takeFin seg).rcvCore, c.st.state,
          by rw [now]; rfl, rfl⟩
  · exact ⟨c.st.rcvCore, c.st.state, TcpState.follows_self _, rfl⟩

/-- Payload and FIN, after the acknowledgement of a segment in FIN_WAIT_1. -/
theorem finWait1_rest (env : Env) (seg : Segment) (c : Cx) :
    ((c.closingPayload env seg).andThen (finInFinWait1 env seg)).view.halted = true ∨
      ∃ (r : RcvCore) (state : TcpState), c.st.state.follows state = true ∧
        ((c.closingPayload env seg).andThen (finInFinWait1 env seg)).view =
          (c.view.withCore { c.st.core with state := state }).withRcv r := by
  rcases andThen_cases (c.closingPayload env seg) (finInFinWait1 env seg) with
    ⟨halted, next⟩ | ⟨running, next⟩
  · rw [next]
    exact .inl halted
  · rw [next]
    rcases closingPayload_view env seg c with halted | ⟨r₁, payload⟩
    · rw [halted] at running
      cases running
    · have core : (c.closingPayload env seg).st.core = c.st.core := congrArg View.toCore payload
      obtain ⟨r, state, legal, view⟩ := finInFinWait1_view env seg (c.closingPayload env seg)
      rw [show (c.closingPayload env seg).st.state = _ from congrArg Core.state core] at legal
      refine .inr ⟨r, state, legal, ?_⟩
      rw [view, payload, core]
      rfl

theorem handleFinWait1_outcome (ready : Ready s seg c) (state : s.state = .finWait1)
    (inSeq : s.inSequence seg = true) (run : seg.rst = false) :
    Outcome s seg c.view (c.handleFinWait1 env seg) := by
  have nxt : c.st.rcvNxt = s.rcvNxt := congrArg RcvCore.rcvNxt ready.rcv
  unfold handleFinWait1
  split
  · exact .same (view_controlQueueAdd env c) ready.core
  split
  · rename_i fresh ack
    rw [nxt, Bool.not_eq_true] at fresh
    have reach : s.reachesAck seg = true := by
      simp [TcpStream.reachesAck, inSeq, run, state, fresh, ack]
    refine ready.thenAck env fun c₁ view => ?_
    have core : c₁.st.core = s.acked seg := congrArg View.toCore view
    dsimp only
    split
    · rename_i both
      rw [Bool.and_eq_true, beq_iff_eq, acked_isFinSent view, acked_fss view] at both
      obtain ⟨sent, finAcked⟩ := both
      generalize finished : (rtoListRemove (c₁.modify _)).modify _ = c₂
      have view₂ : c₂.view = c.view.withCore { (s.acked seg).recover seg.ackSeq with
          sndUna := seg.ackSeq, state := .finWait2 } := by
        rw [← finished]
        change (rtoListRemove (c₁.modify _)).view.withCore
          { (rtoListRemove (c₁.modify _)).view.toCore with state := .finWait2 } = _
        rw [view_rtoListRemove, ← core, Core.recover]
        change (c₁.view.withCore { c₁.view.toCore with
          sndUna := seg.ackSeq
          sndNxt := if tcpSeqGt seg.ackSeq c₁.st.sndNxt = true then seg.ackSeq else c₁.st.sndNxt
          state := .finWait2 }) = _
        rw [view]
        by_cases more : tcpSeqGt seg.ackSeq c₁.st.sndNxt = true
        · rw [if_pos more, if_pos (by exact more), ← core]
          rfl
        · rw [if_neg more, if_neg (by exact more), ← core]
          rfl
      have core₂ : c₂.st.core = { (s.acked seg).recover seg.ackSeq with
          sndUna := seg.ackSeq, state := .finWait2 } := congrArg View.toCore view₂
      rcases finWait1_rest env seg c₂ with halted | ⟨r, state', legal, view₃⟩
      · exact .inl halted
      · rw [show c₂.st.state = _ from congrArg Core.state core₂] at legal
        refine .of_move (r := r) (.finWait1 state' reach state sent finAcked legal) ?_
        rw [view₃, core₂, view₂]
        rfl
    · have now : c₁.st.state = .finWait1 := by
        rw [show c₁.st.state = _ from congrArg Core.state core, acked_state, state]
      rcases finWait1_rest env seg c₁ with halted | ⟨r, state', legal, view₃⟩
      · exact .inl halted
      · refine .of_move (r := r) (.acked state' reach ?_) ?_
        · rw [state, ← now]
          exact legal
        · rw [view₃, core, view]
          rfl
  · exact .same rfl ready.core

theorem finInEstablished_view (env : Env) (seg : Segment) (c : Cx)
    (state : c.st.state = .established) :
    ∃ (r : RcvCore) (state : TcpState), state.isOpen = true ∧ (c.finInEstablished env seg).view =
      (c.view.withCore { c.st.core with state := state }).withRcv r := by
  have stay : ∃ (r : RcvCore) (state : TcpState), state.isOpen = true ∧ c.view =
      (c.view.withCore { c.st.core with state := state }).withRcv r :=
    ⟨c.st.rcvCore, c.st.state, by rw [state]; rfl, rfl⟩
  unfold finInEstablished
  split
  · split
    · refine ⟨(c.st.takeFin seg).rcvCore, .closeWait, rfl, ?_⟩
      rw [view_controlQueueAdd]
      unfold raiseEvent
      split <;> rfl
    · rw [view_enqueueAck]
      exact stay
  · exact stay

/-- A segment in ESTABLISHED: payload, then the acknowledgement, then the FIN. -/
theorem handleEstablished_view (env : Env) (seg : Segment) (c : Cx)
    (now : c.st.state = .established) :
    (c.handleEstablished env seg).view.halted = true ∨
      ∃ (r : RcvCore) (state : TcpState), state.isOpen = true ∧
        ((c.handleEstablished env seg).view =
            (c.view.withCore { c.st.core with state := state }).withRcv r ∨
          (seg.syn = false ∧ seg.ack = true ∧ (c.handleEstablished env seg).view =
            (c.view.withCore { c.st.core.onAck (c.st.thirdDup seg) (c.st.adjustAck seg.ackSeq) with
              state := state }).withRcv r)) := by
  unfold handleEstablished
  split
  · refine .inr ⟨c.st.rcvCore, c.st.state, by rw [now]; rfl, .inl ?_⟩
    rw [view_controlQueueAdd]
    rfl
  · rename_i syn
    rw [Bool.not_eq_true] at syn
    have vars := ackVars_establishedPayload env seg c
    rcases andThen_cases (c.establishedPayload env seg) _ with ⟨halted, next⟩ | ⟨running, next⟩
    · rw [next]
      exact .inl halted
    rw [next]
    rcases establishedPayload_view env seg c with halted | ⟨r₁, payload⟩
    · rw [halted] at running
      cases running
    generalize c.establishedPayload env seg = c₁ at vars payload
    have core₁ : c₁.st.core = c.st.core := congrArg View.toCore payload
    have now₁ : c₁.st.state = .established := (congrArg Core.state core₁).trans now
    cases ack : seg.ack with
    | false =>
        rcases andThen_cases c₁ (finInEstablished env seg) with ⟨halted, last⟩ | ⟨-, last⟩
        · simp only [Bool.false_eq_true, if_false]
          rw [last]
          exact .inl halted
        · simp only [Bool.false_eq_true, if_false]
          rw [last]
          obtain ⟨r, state, group, view⟩ := finInEstablished_view env seg c₁ now₁
          refine .inr ⟨r, state, group, .inl ?_⟩
          rw [view, payload, core₁]
          rfl
    | true =>
        simp only [if_true]
        rcases andThen_cases (c₁.processTcpAck env seg) (finInEstablished env seg) with
          ⟨halted, last⟩ | ⟨running, last⟩
        · rw [last]
          exact .inl halted
        rw [last]
        rcases processTcpAck_view env seg c₁ with halted | acked
        · rw [halted] at running
          cases running
        have adjust : c₁.st.adjustAck seg.ackSeq = c.st.adjustAck seg.ackSeq :=
          TcpStream.adjustAck_congr core₁ _
        rw [core₁, adjust, TcpStream.thirdDup_of_ackVars seg core₁ vars, payload] at acked
        generalize c₁.processTcpAck env seg = c₂ at acked
        have core₂ : c₂.st.core =
            c.st.core.onAck (c.st.thirdDup seg) (c.st.adjustAck seg.ackSeq) :=
          congrArg View.toCore acked
        have now₂ : c₂.st.state = .established := by
          rw [show c₂.st.state = _ from congrArg Core.state core₂, Core.onAck_state]
          exact now
        obtain ⟨r, state, group, view⟩ := finInEstablished_view env seg c₂ now₂
        refine .inr ⟨r, state, group, .inr ⟨syn, trivial, ?_⟩⟩
        rw [view, acked, core₂]
        rfl

theorem handleEstablished_outcome (ready : Ready s seg c) (state : s.state = .established)
    (inSeq : s.inSequence seg = true) (run : seg.rst = false) :
    Outcome s seg c.view (c.handleEstablished env seg) := by
  have now : c.st.state = .established := (congrArg Core.state ready.core).trans state
  have adjust : c.st.adjustAck seg.ackSeq = s.adjustAck seg.ackSeq :=
    TcpStream.adjustAck_congr ready.core _
  have legal : ∀ state' : TcpState, state'.isOpen = true → s.state.follows state' = true := by
    intro state' group
    rw [state]
    revert group
    cases state' <;> decide
  rcases handleEstablished_view env seg c now with halted | ⟨r, state', group, plain | acked⟩
  · exact .inl halted
  · refine .of_move (r := r) (.moved state' (legal state' group)) ?_
    rw [plain, ready.core]
  · obtain ⟨syn, ack, view⟩ := acked
    have reach : s.reachesAck seg = true := by
      simp [TcpStream.reachesAck, inSeq, run, state, syn, ack]
    refine .of_move (r := r) (.acked state' reach (legal state' group)) ?_
    rw [view, ready.core, ready.fast, adjust]
    rfl

theorem handleRst_outcome (core : c.st.core = s.core)
    (data : s.state.isOpen = true ∨ s.state.isFin = true) :
    Outcome s seg c.view (c.handleRst seg) := by
  have now : c.st.state = s.state := congrArg Core.state core
  have gone : s.state.isFin = true → Outcome s seg c.view (tcpStreamDestroy (c.modify fun s =>
      { s with state := .closed, closeReason := .activeClose })) := by
    intro fin
    refine .inr ⟨_, true, c.st.rcvCore, .reset fin, ?_⟩
    rw [← core]
    rfl
  have waits : s.state.isOpen = true →
      Outcome s seg c.view (if c.st.onCloseq || c.st.onResetq then c
        else (c.modify fun s =>
          { s with state := .closeWait, closeReason := .reset }).raiseEvent (.read true)) := by
    intro opened
    split
    · exact .same rfl core
    · refine .of_move (r := c.st.rcvCore) (.moved .closeWait ?_) ?_
      · revert opened
        cases s.state <;> decide
      · rw [view_raiseEvent, ← core]
        rfl
  unfold handleRst
  rw [now]
  cases state : s.state with
  | finWait1 | finWait2 | lastAck | closing | timeWait => exact gone (by rw [state]; rfl)
  | established | closeWait => exact waits (by rw [state]; rfl)
  | closed | listen | synSent | synRcvd =>
      rw [state] at data
      rcases data with group | group <;> cases group

theorem handleTimeWait_view (env : Env) (c : Cx) : (c.handleTimeWait env).view = c.view := by
  unfold handleTimeWait
  rw [view_controlQueueAdd]
  split
  · rw [view_timewaitListAdd, view_timewaitListRemove]
  · rfl

theorem handleSegment_outcome (ready : Ready s seg c)
    (data : s.state.isOpen = true ∨ s.state.isFin = true)
    (inSeq : s.inSequence seg = true) (run : seg.rst = false) :
    Outcome s seg c.view (c.handleSegment env seg) := by
  unfold handleSegment
  rw [show c.st.state = s.state from congrArg Core.state ready.core]
  cases state : s.state with
  | established => exact handleEstablished_outcome ready state inSeq run
  | closeWait => exact handleCloseWait_outcome ready state inSeq run
  | lastAck => exact handleLastAck_outcome ready state inSeq run
  | finWait1 => exact handleFinWait1_outcome ready state inSeq run
  | finWait2 => exact handleFinWait2_outcome ready state inSeq run
  | closing => exact handleClosing_outcome ready state inSeq run
  | timeWait => exact .same (handleTimeWait_view env c) ready.core
  | closed | listen | synSent | synRcvd =>
      rw [state] at data
      rcases data with group | group <;> cases group

end Data

/-! ## One segment -/

section Segment

variable (env : Env) (seg : Segment) (c : Cx)

/-- The queues that make the stream send. -/
def queues (c : Cx) : Bool × Bool × Nat := (c.st.onControlQueue, c.st.onAckQueue, c.posted)

theorem queues_eq {c c' : Cx} (control : c'.st.onControlQueue = c.st.onControlQueue)
    (ack : c'.st.onAckQueue = c.st.onAckQueue) (posted : c'.posted = c.posted) :
    c'.queues = c.queues := by
  rw [queues, control, ack, posted, queues]

/-- On which queues the stream was put. -/
def enqueued (c : Cx) : List Effect := c.out.filter Effect.isEnqueue

/-- On its way to the handler a segment enqueues nothing. -/
structure Enters (c c₁ : Cx) : Prop where
  enqueued : c₁.enqueued = c.enqueued
  socket : c₁.st.socket = c.st.socket

/-- A segment is dropped before it reaches a handler, or resets the stream, or is handled.  The
handler finds the stream as it was, with the window of the segment. -/
inductive Arrival (c : Cx) (env : Env) (seg : Segment) (c' : Cx) : Prop
  | halted (h : c'.view.halted = true)
  | dropped (late : TcpState.synRcvd.val < c.st.state.val) (view : c'.view = c.view)
      (stays : c.st.state ≠ .timeWait → c.Stays c') (outside : c.st.inSequence seg = false)
  | reset (c₁ : Cx) (rst : seg.rst = true) (beyond : TcpState.synSent.val < c.st.state.val)
      (core : c₁.view = c.view) (result : c' = c₁.handleRst seg) (stays : c.Stays c₁)
      (enters : c.Enters c₁)
      (inSeq : TcpState.synRcvd.val < c.st.state.val → c.st.inSequence seg = true)
  | handled (c₁ : Cx) (view : c₁.view = c.view) (ready : Ready c.st seg c₁)
      (inSeq : TcpState.synRcvd.val < c.st.state.val → c.st.inSequence seg = true)
      (kept : TcpState.synSent.val < c.st.state.val → seg.rst = false)
      (queues : c₁.queues = c.queues)
      (result : c' = c₁.handleSegment env seg) (stays : c.Stays c₁) (enters : c.Enters c₁)

theorem checkSequenceValidation_cases :
    (c.checkSequenceValidation env seg = (true, c) ∧ c.st.inSequence seg = true) ∨
      ((c.checkSequenceValidation env seg).1 = false ∧
        (c.checkSequenceValidation env seg).2.view = c.view) := by
  unfold checkSequenceValidation
  dsimp only
  split
  · exact .inl ⟨rfl, ‹_›⟩
  refine .inr ?_
  split
  · exact ⟨rfl, rfl⟩
  split
  · split
    · exact ⟨rfl, view_enqueueAck env c _⟩
    · split
      · exact ⟨rfl, view_enqueueAck env c _⟩
      · exact ⟨rfl, view_enqueueAck env c _⟩
  · refine ⟨rfl, ?_⟩
    rw [view_controlQueueAdd]
    split
    · exact view_timewaitListAdd env c
    · rfl

/-- The check lets a segment through exactly when it is in sequence. -/
theorem checkSequenceValidation_fst :
    (c.checkSequenceValidation env seg).1 = c.st.inSequence seg := by
  unfold checkSequenceValidation TcpStream.inSequence
  dsimp only
  cases tcpSeqBetween (seg.seq + BitVec.ofNat 32 seg.payloadLen) c.st.rcvNxt
    (c.st.rcvNxt + c.st.rcvWnd) with
  | true => rfl
  | false =>
      rw [if_neg Bool.false_ne_true]
      split
      · rfl
      split
      · split
        · rfl
        · split <;> rfl
      · rfl

theorem timeoutListUpdate_st :
    (c.timeoutListUpdate env).st = { c.st with lastActiveTs := env.curTs } := by
  unfold timeoutListUpdate
  dsimp only
  split <;> rfl

/-- The context in which `acceptSegment` is entered: options and the activity time are all
that has changed. -/
structure Prepared (c : Cx) (seg : Segment) (c₀ : Cx) : Prop where
  view : c₀.view = c.view
  posted : c₀.posted = c.posted
  enqueued : c₀.enqueued = c.enqueued
  st : ∃ o ts, c₀.st = { c.st.withOptions o with lastActiveTs := ts } ∧
    (seg.syn = false → o.wscalePeer = c.st.wscalePeer)

theorem Prepared.refl (c : Cx) (seg : Segment) : Prepared c seg c :=
  ⟨rfl, rfl, rfl, c.st.optionFields, c.st.lastActiveTs, rfl, fun _ => rfl⟩

theorem Prepared.window {c₀ : Cx} {seg : Segment} (prepared : Prepared c seg c₀) :
    c₀.st.advertisedBy seg = c.st.advertisedBy seg := by
  obtain ⟨o, ts, st, scale⟩ := prepared.st
  unfold TcpStream.advertisedBy
  rw [st]
  cases syn : seg.syn with
  | true => rfl
  | false => exact congrArg (fun w => BitVec.ofNat 32 seg.window <<< (w % 32)) (scale syn)

theorem Prepared.stays {c₀ : Cx} {seg : Segment} (prepared : Prepared c seg c₀) : c.Stays c₀ := by
  obtain ⟨o, ts, st, -⟩ := prepared.st
  refine .of_same ?_ prepared.posted.ge
  rw [st]
  rfl

theorem acceptSegment_arrival {c₀ : Cx} (prepared : Prepared c seg c₀)
    (inSeq : TcpState.synRcvd.val < c.st.state.val → c.st.inSequence seg = true) :
    Arrival c env seg (c₀.acceptSegment env seg) := by
  obtain ⟨o, ts, st, -⟩ := prepared.st
  have window := prepared.window
  unfold acceptSegment
  dsimp only
  generalize updated : timeoutListUpdate env (c₀.modify _) = c₁
  have st₁ : c₁.st =
      { c₀.st with peerWnd := c.st.advertisedBy seg, lastActiveTs := env.curTs } := by
    rw [← updated, timeoutListUpdate_st, ← window]
    rfl
  have view₁ : c₁.view = c.view := by
    rw [← updated, view_timeoutListUpdate, view_modify _ (by exact ⟨rfl, rfl⟩), prepared.view]
  have posted₁ : c₁.posted = c.posted := by
    rw [← updated, ← prepared.posted]
    unfold timeoutListUpdate
    dsimp only
    split <;> rfl
  have enqueued₁ : c₁.enqueued = c.enqueued := by
    rw [← updated, ← prepared.enqueued]
    unfold timeoutListUpdate
    dsimp only
    split <;> rfl
  generalize noted : (if seg.rst = true then c₁.modify _ else c₁) = c₂
  have st₂ : ∃ reset, c₂.st = { c₁.st with haveReset := reset } := by
    rw [← noted]
    split
    · exact ⟨true, rfl⟩
    · exact ⟨c₁.st.haveReset, rfl⟩
  have view₂ : c₂.view = c.view := by
    rw [← noted, ← view₁]
    split
    · exact view_modify _ ⟨rfl, rfl⟩
    · rfl
  have posted₂ : c₂.posted = c.posted := by
    rw [← noted, ← posted₁]
    split <;> rfl
  have enqueued₂ : c₂.enqueued = c.enqueued := by
    rw [← noted, ← enqueued₁]
    split <;> rfl
  obtain ⟨reset, st₂⟩ := st₂
  rw [st₁, st] at st₂
  have core₂ : c₂.st.core = c.st.core := congrArg View.toCore view₂
  have now : c₂.st.state = c.st.state := congrArg Core.state core₂
  have ready : Ready c.st seg c₂ := by
    refine ⟨core₂, congrArg View.rcv view₂, ?_⟩
    refine TcpStream.thirdDup_congr seg core₂ (by rw [st₂]; rfl) (by rw [st₂]; rfl)
      (by rw [st₂]; rfl) (by rw [st₂]; rfl) (by rw [st₂]; rfl) ?_
    have same := window
    unfold TcpStream.advertisedBy at same ⊢
    rw [st] at same
    rw [st₂]
    exact same
  have stays : c.Stays c₂ := by
    refine .of_same ?_ posted₂.ge
    rw [st₂]
    rfl
  have enters : c.Enters c₂ := ⟨enqueued₂, by rw [st₂]⟩
  rw [now]
  by_cases rst : (seg.rst && decide (TcpState.synSent.val < c.st.state.val)) = true
  · rw [if_pos rst]
    rw [Bool.and_eq_true, decide_eq_true_iff] at rst
    exact .reset c₂ rst.1 rst.2 view₂ rfl stays enters inSeq
  · rw [if_neg rst]
    rw [Bool.and_eq_true, decide_eq_true_iff, not_and] at rst
    refine .handled c₂ view₂ ready inSeq ?_ (queues_eq (by rw [st₂]) (by rw [st₂]) posted₂) rfl
      stays enters
    intro beyond
    cases set : seg.rst with
    | false => rfl
    | true => exact absurd beyond (rst set)

/-- **Every segment arrives in one of these ways.** -/
theorem processSegment_arrival : Arrival c env seg (c.processSegment env seg) := by
  unfold processSegment
  dsimp only
  have prepare : ∀ c₀ : Cx, c₀.view = c.view → c₀.out = c.out →
      (∃ o, c₀.st = c.st.withOptions o ∧ (seg.syn = false → o.wscalePeer = c.st.wscalePeer)) →
      Prepared c seg (c₀.modify fun s => { s with lastActiveTs := env.curTs }) := by
    rintro c₀ view out ⟨o, st, scale⟩
    refine ⟨(view_modify _ ⟨rfl, rfl⟩).trans view, congrArg (List.countP Effect.isSendEvent) out,
      congrArg (List.filter Effect.isEnqueue) out, o, env.curTs, ?_, scale⟩
    rw [modify_st, st]
  have enter : ∀ c₀ : Cx, Prepared c seg c₀ →
      Arrival c env seg (c₀.validateSegment env seg) := by
    intro c₀ prepared
    unfold validateSegment
    obtain ⟨o, ts, st, -⟩ := prepared.st
    have now : c₀.st.state = c.st.state := by rw [st]
    split
    · rename_i late
      rw [now] at late
      rcases checkSequenceValidation_cases env seg c₀ with ⟨passed, inSeq⟩ | ⟨failed, view⟩
      · rw [passed]
        refine acceptSegment_arrival env seg c prepared fun _ => ?_
        unfold TcpStream.inSequence at inSeq ⊢
        rw [st] at inSeq
        exact inSeq
      · have answered : c₀.st.state ≠ .timeWait → _ := checkSequenceValidation_stays env seg c₀
        have outside : c.st.inSequence seg = false := by
          rw [checkSequenceValidation_fst, st] at failed
          exact failed
        rw [now] at answered
        generalize c₀.checkSequenceValidation env seg = result at failed view answered
        obtain ⟨ok, c₁⟩ := result
        dsimp only at failed view answered
        subst failed
        exact .dropped late (view.trans prepared.view)
          (fun notWaiting => prepared.stays.trans (answered notWaiting)) outside
    · rename_i early
      rw [now] at early
      exact acceptSegment_arrival env seg c prepared fun beyond => absurd beyond early
  have received : (c.receive seg).view = c.view := rfl
  split
  · rename_i parses
    rw [Bool.and_eq_true] at parses
    rcases parseOptions_cases env seg (c.receive seg) with hangs | ⟨o, parsed⟩
    · rw [hangs]
      have halted : ((c.receive seg).emit (.halt .hang)).view.halted = true := rfl
      rcases andThen_cases ((c.receive seg).emit (.halt .hang)) _ with ⟨-, next⟩ | ⟨running, -⟩
      · rw [next]
        exact .halted halted
      · rw [halted] at running
        cases running
    · rw [parsed]
      rcases andThen_cases ((c.receive seg).modify _) _ with ⟨halted, next⟩ | ⟨-, next⟩
      · rw [next]
        exact .halted halted
      · rw [next]
        refine enter _ (prepare _ ?_ rfl ⟨o, rfl, fun no => ?_⟩)
        · exact (view_modify _ ⟨rfl, rfl⟩).trans received
        · rw [no] at parses
          cases parses.1
  · rcases andThen_cases (c.receive seg) _ with ⟨halted, next⟩ | ⟨-, next⟩
    · rw [next]
      exact .halted halted
    · rw [next]
      obtain ⟨o, same⟩ := c.st.withOptions_self
      refine enter _ (prepare _ received rfl ⟨o, same, fun _ => ?_⟩)
      exact (congrArg TcpStream.wscalePeer same).symm

/-- What a segment does from ESTABLISHED on. -/
theorem processSegment_data (data : c.st.state.isOpen = true ∨ c.st.state.isFin = true) :
    Outcome c.st seg c.view (c.processSegment env seg) := by
  have beyond : TcpState.synRcvd.val < c.st.state.val := by
    revert data
    cases c.st.state <;> decide
  cases processSegment_arrival env seg c with
  | halted h => exact .inl h
  | dropped _ view => exact .same view rfl
  | reset c₁ rst _ core result =>
      have outcome : Outcome c.st seg c₁.view (c₁.handleRst seg) :=
        handleRst_outcome (congrArg View.toCore core) data
      rw [result]
      rw [core] at outcome
      exact outcome
  | handled c₁ view ready inSeq kept queues result =>
      have outcome : Outcome c.st seg c₁.view (c₁.handleSegment env seg) :=
        handleSegment_outcome ready data (inSeq beyond) (kept (Nat.lt_of_succ_lt beyond))
      rw [result]
      rw [view] at outcome
      exact outcome

end Segment

end Cx

end QStack
