/-
# QStack.Ending -- the calls of tcp_stream_destroy

`tcp_stream_destroy` is called for a reset, for the acknowledgement of our FIN in LAST_ACK, for a
refused SYN of a stream without socket, by a close call after a reset, and by the three timers.
Here is what a call looks like that destroys its stream: the stream and the segment decide it
(`endedBy`), and on its way to the destruction the stream is put on no queue, but for the send
event of a fast retransmission (`processSegment_ends`).
-/
import QStack.Sparing
import QStack.Connection

namespace QStack

set_option autoImplicit false

namespace TcpStream

/-- `handle_rst` destroys the stream. -/
def resetBy (s : TcpStream) (seg : Segment) : Bool :=
  seg.rst &&
    match s.state with
    | .synRcvd => seg.ackSeq == s.sndNxt
    | state => state.isFin && s.inSequence seg

/-- `Handle_TCP_ST_LAST_ACK` destroys the stream. -/
def lastAckedBy (s : TcpStream) (seg : Segment) : Bool :=
  s.state == .lastAck && s.reachesAck seg && s.isFinSent && seg.ackSeq == s.fss + 1

/-- `Handle_TCP_ST_SYN_SENT` destroys the stream, as it has no socket. -/
def refusedBy (s : TcpStream) (seg : Segment) : Bool :=
  s.state == .synSent && s.acceptsSynAck seg && seg.rst && !s.socket

def endedBy (s : TcpStream) (seg : Segment) : Bool :=
  s.resetBy seg || s.lastAckedBy seg || s.refusedBy seg

end TcpStream

namespace Cx

/-! ## What is put on a queue -/

section Enqueued

variable (env : Env) (c : Cx)

theorem enqueued_rtoListAdd : (c.rtoListAdd env).enqueued = c.enqueued := by
  unfold rtoListAdd
  dsimp only
  split
  · rfl
  · split <;> rfl

theorem enqueued_rtoListRemove : c.rtoListRemove.enqueued = c.enqueued := by
  unfold rtoListRemove
  split <;> rfl

theorem enqueued_acceptAck (a : Seq) : (c.acceptAck env a).enqueued = c.enqueued := by
  unfold acceptAck
  dsimp only
  split
  · rfl
  cases growWindow _ c.st with
  | none => rfl
  | some s =>
      dsimp only
      split
      · exact enqueued_rtoListRemove _
      · exact (enqueued_rtoListAdd env _).trans (enqueued_rtoListRemove _)

theorem enqueued_fastRetransmit (a : Seq) (room : env.sendRoom = false) :
    (c.fastRetransmit env a).enqueued = c.enqueued := by
  unfold fastRetransmit sendEventAdd
  dsimp only
  rw [if_neg (by rw [room]; exact Bool.false_ne_true)]
  split <;> rfl

/-- `process_tcp_ack` enqueues the stream for a fast retransmission only. -/
theorem enqueued_processTcpAck (seg : Segment)
    (quiet : c.st.acksTooMuch (c.st.adjustAck seg.ackSeq) = true ∨ c.st.thirdDup seg = false ∨
      env.sendRoom = false) :
    (c.processTcpAck env seg).enqueued = c.enqueued := by
  unfold TcpStream.thirdDup at quiet
  unfold processTcpAck
  dsimp only at quiet ⊢
  generalize c.st.adjustAck seg.ackSeq = a at quiet ⊢
  split
  · rfl
  rename_i much
  replace quiet := quiet.resolve_left much
  rw [modify_st, modify_st, modify_st]
  generalize TcpStream.isDupAck _ _ _ _ = dup at quiet ⊢
  generalize counted : (c.modify _).modify (TcpStream.countDupAck dup a) = c₂
  have same : c₂.enqueued = c.enqueued := by
    rw [← counted]
    rfl
  have count : c₂.st = (c.st.updateWindow seg.seq a (c.st.advertisedBy seg)).countDupAck dup a := by
    rw [← counted]
    rfl
  rw [← count] at quiet ⊢
  generalize lost : (if (dup && c₂.st.dupAcks == 3) = true then _ else _) = c₃
  have same₃ : c₃.enqueued = c.enqueued := by
    rw [← lost, ← same]
    split
    · rename_i third
      refine enqueued_fastRetransmit env c₂ a (quiet.resolve_left ?_)
      rw [third]
      exact Bool.noConfusion
    · split <;> rfl
  generalize caught : (if tcpSeqGt a c₃.st.sndNxt = true then _ else c₃) = c₄
  have same₄ : c₄.enqueued = c.enqueued := by
    rw [← caught, ← same₃]
    split <;> rfl
  split
  · exact same₄
  · exact (enqueued_acceptAck env c₄ a).trans same₄

end Enqueued

/-! ## The handlers that destroy -/

/-- The function leaves the stream alive; or `why` holds and it ends in `tcp_stream_destroy`,
and if `quiet` holds it has put the stream on no queue before. -/
def Ends (why quiet : Prop) (c c' : Cx) : Prop :=
  c.Spares c' ∨
    (why ∧ ∃ c₁, c.Spares c₁ ∧ (quiet → c₁.enqueued = c.enqueued) ∧ c' = c₁.tcpStreamDestroy)

section Rules

variable {why quiet : Prop} {c c' : Cx}

theorem Ends.destroy {c₁ : Cx} (holds : why) (spares : c.Spares c₁)
    (kept : quiet → c₁.enqueued = c.enqueued) : Ends why quiet c c₁.tcpStreamDestroy :=
  .inr ⟨holds, c₁, spares, kept, rfl⟩

theorem Ends.tracks (ends : Ends why quiet c c') : c.Tracks c' := by
  rcases ends with spares | ⟨-, c₁, spares, -, rfl⟩
  · exact spares.tracks
  · exact spares.tracks.trans (.emit c₁ fun _ => rfl)

/-- A call that has destroyed the stream. -/
theorem Ends.gone (ends : Ends why quiet c c') (alive : c.view.destroyed = false)
    (gone : c'.view.destroyed = true) : why ∧ (quiet → c'.enqueued = c.enqueued) := by
  rcases ends with spares | ⟨holds, c₁, -, kept, rfl⟩
  · rw [spares.spared, alive] at gone
    cases gone
  · exact ⟨holds, kept⟩

theorem Tracks.andThen {f : Cx → Cx} (first : c.Tracks c') (second : c'.Tracks (f c')) :
    c.Tracks (c'.andThen f) := by
  rcases andThen_cases c' f with ⟨-, next⟩ | ⟨-, next⟩
  · rw [next]
    exact first
  · rw [next]
    exact first.trans second

end Rules

section Handlers

variable (env : Env) (seg : Segment) (c : Cx)

theorem handleRst_ends :
    Ends (c.st.state = .synRcvd ∧ seg.ackSeq = c.st.sndNxt ∨ c.st.state.isFin = true) True c
      (c.handleRst seg) := by
  unfold handleRst
  have waits : c.Spares (if c.st.onCloseq || c.st.onResetq then c
      else (c.modify fun s =>
        { s with state := .closeWait, closeReason := .reset }).raiseEvent (.read true)) := by
    split
    · exact .refl c
    · exact (Spares.modify c rfl).trans (raiseEvent_walks .sparing {} _ _).spares
  cases state : c.st.state with
  | synRcvd =>
      dsimp only
      split
      · exact .destroy (.inl ⟨rfl, ‹_›⟩) (.modify c rfl) fun _ => rfl
      · exact .inl (.refl c)
  | finWait1 | finWait2 | lastAck | closing | timeWait =>
      exact .destroy (.inr rfl) (.modify c rfl) fun _ => rfl
  | closed | listen | synSent | established | closeWait => exact .inl waits

theorem handleLastAck_ends :
    Ends (tcpSeqLt seg.seq c.st.rcvNxt = false ∧ seg.ack = true ∧ c.st.isFinSent = true ∧
        seg.ackSeq = c.st.fss + 1)
      (c.st.acksTooMuch (c.st.adjustAck seg.ackSeq) = true ∨ c.st.thirdDup seg = false ∨
        env.sendRoom = false) c (c.handleLastAck env seg) := by
  unfold handleLastAck
  split
  · exact .inl (.refl c)
  rename_i fresh
  split
  · rename_i ack
    have spares := (processTcpAck_walks .sparing env c seg (.sparing _ _)).spares
    rcases andThen_cases (c.processTcpAck env seg) _ with ⟨-, next⟩ | ⟨running, next⟩
    · rw [next]
      exact .inl spares
    rw [next]
    have core := (processTcpAck_view env seg c).resolve_left
      (by rw [running]; exact Bool.false_ne_true)
    have sent : (c.processTcpAck env seg).st.isFinSent = c.st.isFinSent :=
      (congrArg (fun v : View => v.isFinSent) core).trans (Core.onAck_isFinSent _ _ _)
    have fss : (c.processTcpAck env seg).st.fss = c.st.fss :=
      (congrArg (fun v : View => v.fss) core).trans (Core.onAck_fss _ _ _)
    have kept := enqueued_processTcpAck env c seg
    generalize c.processTcpAck env seg = c₁ at spares sent fss kept ⊢
    split
    · exact .inl spares
    rename_i finSent
    rw [Bool.not_eq_true', Bool.not_eq_false, sent] at finSent
    split
    · rename_i finAcked
      rw [fss] at finAcked
      exact .destroy ⟨Bool.not_eq_true _ ▸ fresh, ack, finSent, finAcked⟩
        (spares.trans (.modify c₁ rfl)) kept
    · exact .inl (spares.trans (controlQueueAdd_walks .sparing env c₁).spares)
  · exact .inl (controlQueueAdd_walks .sparing env c).spares

theorem handleSynSent_ends :
    Ends (c.st.acceptsSynAck seg = true ∧ seg.rst = true ∧ c.st.socket = false) True c
      (c.handleSynSent env seg) := by
  unfold handleSynSent
  split
  · split
    · exact .inl (.refl c)
    · exact .inl (exit_walks .sparing {} c).spares
  rename_i passed
  dsimp only
  generalize counted : (if seg.ack = true then c.modify _ else c) = c₁
  have spares : c.Spares c₁ := by
    rw [← counted]
    exact .ite (.modify c rfl)
  have same : c₁.enqueued = c.enqueued ∧ c₁.st.socket = c.st.socket := by
    rw [← counted]
    split <;> exact ⟨rfl, rfl⟩
  split
  · rename_i rst
    split
    · rename_i ack
      split
      · exact .inl (spares.trans
          ((Spares.modify c₁ rfl).trans (raiseEvent_walks .sparing {} _ _).spares))
      · rename_i socket
        have accepts : c.st.acceptsSynAck seg = true := by
          simpa [TcpStream.acceptsSynAck, ack] using passed
        rw [Bool.not_eq_true] at socket
        exact .destroy ⟨accepts, rst, same.2.symm.trans socket⟩ (spares.trans (.modify c₁ rfl))
          fun _ => same.1
    · exact .inl spares
  · refine .inl (spares.trans (.ite ?_))
    split
    · refine (handleActiveOpen_walks .sparing env c₁ seg rfl).spares.andThen ?_
      split
      · exact (raiseEvent_walks .sparing {} _ _).spares.trans
          ((controlQueueAdd_walks .sparing env _).spares.trans (timeoutListAdd_spares env _))
      · exact (exit_walks .sparing {} _).spares
    · exact (Spares.modify c₁ rfl).trans (controlQueueAdd_walks .sparing env _).spares

/-! ## One segment -/

theorem handleSegment_spares (other : c.st.state ≠ .lastAck ∧ c.st.state ≠ .synSent) :
    c.Spares (c.handleSegment env seg) := by
  unfold handleSegment
  cases state : c.st.state with
  | lastAck => exact absurd state other.1
  | synSent => exact absurd state other.2
  | listen => exact (handleListen_walks .sparing env c seg).spares
  | synRcvd =>
      dsimp only
      split
      · exact (handleListen_walks .sparing env c seg).spares
      · exact (handleSynRcvd_walks .sparing env c seg fun _ _ => rfl).spares.andThen
          (.ite (handleEstablished_walks .sparing env _ seg fun _ _ => .sparing _ _).spares)
  | established => exact (handleEstablished_walks .sparing env c seg fun _ _ => .sparing _ _).spares
  | closeWait => exact (handleCloseWait_walks .sparing env c seg fun _ => .sparing _ _).spares
  | finWait1 => exact (handleFinWait1_walks .sparing env c seg (fun _ _ => .sparing _ _)
        fun _ _ _ _ => rfl).spares
  | finWait2 => exact (handleFinWait2_walks .sparing env c seg fun _ => .sparing _ _).spares
  | closing => exact (handleClosing_walks .sparing env c seg fun _ => .sparing _ _).spares
  | timeWait => exact (handleTimeWait_walks .sparing env c).spares
  | closed => exact .refl c

theorem processSegment_tracks : c.Tracks (c.processSegment env seg) := by
  obtain ⟨c₁, walk, same | ⟨stamped, permits⟩⟩ :=
    processSegment_walks .all env c seg (.all c.st seg)
  · rw [same]
    exact walk.tracks
  · rw [stamped]
    exact (walk.tracks.trans (.modify c₁ rfl)).trans
      (validateSegment_walks .all env _ seg permits).tracks

theorem passiveOpen_tracks : c.Tracks (c.passiveOpen env seg) := by
  obtain ⟨c₁, walk, -, same | opened⟩ := passiveOpen_walks .all env c seg rfl
  · rw [same]
    exact walk.tracks
  · rw [opened]
    exact (walk.tracks.trans (.modify c₁ rfl)).trans
      (accept_walks .all env _ seg rfl fun c₂ _ _ => .all c₂.st seg).tracks

/-- **A segment that destroys its stream.** -/
theorem processSegment_ends (alive : c.view.destroyed = false)
    (running : (c.processSegment env seg).view.halted = false)
    (gone : (c.processSegment env seg).view.destroyed = true) :
    c.st.endedBy seg = true ∧
      ((c.st.lastAckedBy seg = true → (c.st.resends seg && env.sendRoom) = false) →
        (c.processSegment env seg).enqueued = c.enqueued) := by
  cases processSegment_arrival env seg c with
  | halted h =>
      rw [running] at h
      cases h
  | dropped late view =>
      rw [view, alive] at gone
      cases gone
  | reset c₁ rst beyond core result stays enters inSeq =>
      rw [result] at gone ⊢
      have now : c₁.st.core = c.st.core := congrArg View.toCore core
      have state : c₁.st.state = c.st.state := congrArg Core.state now
      have nxt : c₁.st.sndNxt = c.st.sndNxt := congrArg Core.sndNxt now
      obtain ⟨why, kept⟩ := (handleRst_ends seg c₁).gone (core ▸ alive) gone
      rw [state, nxt] at why
      refine ⟨?_, fun _ => (kept trivial).trans enters.enqueued⟩
      have reset : c.st.resetBy seg = true := by
        unfold TcpStream.resetBy
        rw [rst, Bool.true_and]
        rcases why with ⟨synRcvd, acks⟩ | fin
        · rw [synRcvd]
          exact beq_iff_eq.mpr acks
        · revert fin inSeq
          cases c.st.state <;> simp [TcpState.isFin, TcpState.val]
      simp [TcpStream.endedBy, reset]
  | handled c₁ view ready inSeq kept queues result stays enters =>
      rw [result] at gone ⊢
      have alive₁ : c₁.view.destroyed = false := view ▸ alive
      have state : c₁.st.state = c.st.state := congrArg Core.state ready.core
      by_cases lastAck : c.st.state = .lastAck
      · rw [handleSegment, state.trans lastAck] at gone ⊢
        obtain ⟨⟨fresh, ack, sent, finAcked⟩, quiet⟩ :=
          (handleLastAck_ends env seg c₁).gone alive₁ gone
        rw [show c₁.st.rcvNxt = c.st.rcvNxt from congrArg RcvCore.rcvNxt ready.rcv] at fresh
        rw [show c₁.st.isFinSent = c.st.isFinSent from congrArg Core.isFinSent ready.core] at sent
        rw [show c₁.st.fss = c.st.fss from congrArg Core.fss ready.core] at finAcked
        have reach : c.st.reachesAck seg = true := by
          rw [lastAck] at inSeq kept
          simp [TcpStream.reachesAck, lastAck, inSeq (by decide), kept (by decide), fresh, ack]
        have acked : c.st.lastAckedBy seg = true := by
          simp [TcpStream.lastAckedBy, lastAck, reach, sent, finAcked]
        refine ⟨by simp [TcpStream.endedBy, acked], fun still => ?_⟩
        refine (quiet ?_).trans enters.enqueued
        have much : c₁.st.acksTooMuch (c₁.st.adjustAck seg.ackSeq) =
            c.st.acksTooMuch (c.st.adjustAck seg.ackSeq) := by
          rw [TcpStream.adjustAck_congr ready.core, TcpStream.acksTooMuch_congr ready.core]
        rw [much, ready.fast]
        have quiet' := still acked
        rw [TcpStream.resends, Bool.and_eq_false_iff, Bool.and_eq_false_iff, Bool.not_eq_false',
          or_assoc] at quiet'
        exact quiet'
      by_cases synSent : c.st.state = .synSent
      · rw [handleSegment, state.trans synSent] at gone ⊢
        obtain ⟨⟨accepts, rst, socket⟩, quiet⟩ := (handleSynSent_ends env seg c₁).gone alive₁ gone
        have accepts' : c.st.acceptsSynAck seg = true := by
          rw [← accepts, TcpStream.acceptsSynAck, TcpStream.acceptsSynAck,
            show c₁.st.iss = c.st.iss from congrArg Core.iss ready.core,
            show c₁.st.sndNxt = c.st.sndNxt from congrArg Core.sndNxt ready.core]
        have refused : c.st.refusedBy seg = true := by
          simp [TcpStream.refusedBy, synSent, accepts', rst, enters.socket.symm.trans socket]
        exact ⟨by simp [TcpStream.endedBy, refused], fun _ => (quiet trivial).trans enters.enqueued⟩
      · have spares := handleSegment_spares env seg c₁
          ⟨state ▸ lastAck, state ▸ synSent⟩
        rw [spares.spared, alive₁] at gone
        cases gone

end Handlers

/-! ## Timers and the calls of the application -/

section Calls

variable (env : Env) (c : Cx)

theorem handleRto_ends : Ends (tcpMaxRtx ≤ c.st.nrtx) True c (c.handleRto env) := by
  unfold handleRto
  split
  · refine .inl ?_
    dsimp only
    generalize rolled : modify (c.modify _) _ = c₁
    have spares : c.Spares c₁ := by
      rw [← rolled]
      exact (Spares.modify c rfl).trans (.modify _ rfl)
    have again : c.Spares ((c₁.setSndbuf c₁.st.sndbuf.sbResetRetrans.2).sendEventAdd env false) :=
      spares.trans ((Spares.modify c₁ rfl).trans (sendEventAdd_walks .sparing env _ _).spares)
    have control : c.Spares (c₁.controlQueueAdd env) :=
      spares.trans (controlQueueAdd_walks .sparing env c₁).spares
    cases c₁.st.state with
    | established => exact again
    | finWait1 | closing | lastAck =>
        dsimp only
        split
        · exact spares.trans (exit_walks .sparing {} c₁).spares
        split
        · exact again
        · exact control
    | closed | listen | synSent | synRcvd | finWait2 | closeWait | timeWait => exact control
  · exact .destroy (Nat.le_of_not_lt ‹_›) (.modify c rfl) fun _ => rfl

/-- A check takes the stream off a list that it is on. -/
theorem unlinked_spares {f : TcpStream → TcpStream} {e : Effect}
    (allowed : c.st.timerFlags.after e = some (f c.st).timerFlags) (kept : e.isDestroy = false) :
    c.Spares ((c.modify f).emit e) := by
  refine ⟨fun _ => ⟨[e], rfl, allowed⟩, ?_⟩
  change (e.isDestroy || c.view.destroyed) = c.view.destroyed
  rw [kept, Bool.false_or]

theorem rtoListCheck_ends (on : c.st.onRto = true) :
    Ends (tcpMaxRtx ≤ c.st.nrtx) True c (c.rtoListCheck env) := by
  have unlinked : c.Spares ((c.modify fun s => { s with onRto := false }).emit .rtoRemove) :=
    unlinked_spares c (by simp [TimerFlags.after, TcpStream.timerFlags, on]) rfl
  rcases handleRto_ends env ((c.modify fun s => { s with onRto := false }).emit .rtoRemove) with
    spares | ⟨tries, c₁, spares, kept, ends⟩
  · exact .inl (unlinked.trans spares)
  · exact .inr ⟨tries, c₁, unlinked.trans spares, kept, ends⟩

theorem timewaitListCheck_ends (on : c.st.onTimewaitList = true) :
    Ends True True c c.timewaitListCheck :=
  .destroy trivial (unlinked_spares c (by simp [TimerFlags.after, TcpStream.timerFlags, on]) rfl)
    fun _ => rfl

theorem timeoutListCheck_ends (on : c.st.onTimeoutList = true) :
    Ends True True c c.timeoutListCheck :=
  .destroy trivial (unlinked_spares c (by simp [TimerFlags.after, TcpStream.timerFlags, on]) rfl)
    fun _ => rfl

theorem handleCloseCall_ends :
    Ends (c.st.haveReset = true ∧ c.st.state ≠ .closed) True c (c.handleCloseCall env) := by
  unfold handleCloseCall
  dsimp only
  generalize noted : c.modify _ = c₁
  have spares : c.Spares c₁ := by
    rw [← noted]
    exact .modify c rfl
  have same : c₁.enqueued = c.enqueued := by
    rw [← noted]
    rfl
  have reset : c₁.st.haveReset = c.st.haveReset ∧ c₁.st.state = c.st.state := by
    rw [← noted]
    exact ⟨rfl, rfl⟩
  have closes (state : TcpState) :
      c.Spares ((c₁.modify fun s => { s with state := state }).controlQueueAdd env) :=
    spares.trans ((Spares.modify c₁ rfl).trans (controlQueueAdd_walks .sparing env _).spares)
  rw [reset.1, reset.2]
  split
  · rename_i wasReset
    split
    · exact .inl spares
    · rename_i opened
      exact .destroy ⟨wasReset, opened⟩ (spares.trans (.modify c₁ rfl)) fun _ => same
  · refine .inl ?_
    cases c.st.state with
    | closed => exact spares.trans (exit_walks .sparing {} c₁).spares
    | established | closeWait => exact closes _
    | listen | synSent | synRcvd | finWait1 | finWait2 | closing | lastAck | timeWait =>
        exact spares.trans (controlQueueAdd_walks .sparing env c₁).spares

end Calls

end Cx

end QStack
