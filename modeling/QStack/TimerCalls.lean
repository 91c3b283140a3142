/-
# QStack.TimerCalls -- what the calls into a stream leave of its timer and queues

A handler, a service or a call of the application keeps a stream on rto_list and on the queues,
but for three things: `process_tcp_ack` cancels the timer when the acknowledgement reaches
`snd_nxt`, an expiry takes it off, and a service takes the stream off the queue it serves.

From ESTABLISHED on a segment that cancels the timer is a `Strands` of the stream; `Covers` says
that nothing else is lost (`processSegment_covers`), `Awaits` the same of the handshake.  An expiry
queues the stream (`rtoListCheck_queues`).  The control queue arms the timer if it sends a SYN or a
FIN (`sendTcpControlPacket_arms`); a send event leaves it armed or the stream on the control queue
(`writeTcpSendQueue_arms`).
-/
import QStack.ReceiveSide

namespace QStack

set_option autoImplicit false

namespace TcpState

/-- The states in which something can be unacknowledged. -/
def waits (s : TcpState) : Bool := s.isSyn || s.isOpen || s.awaitsFinAck

end TcpState

namespace TcpStream

/-- The segment cancels the timer while the FIN, if one was sent, stays unacknowledged.  In
LAST_ACK the stream is put on the control queue then. -/
structure Strands (s : TcpStream) (seg : Segment) : Prop where
  reaches : s.reachesAck seg = true
  cancels : s.cancels seg = true
  queued : ¬ (s.state = .lastAck ∧ s.isFinSent = true)
  fin : s.isFinSent = true → s.state.awaitsFinAck = true → seg.ackSeq ≠ s.fss + 1

theorem cancels_congr {s s' : TcpStream} (seg : Segment) (core : s'.core = s.core) :
    s'.cancels seg = s.cancels seg := by
  have adjust : s'.adjustAck seg.ackSeq = s.adjustAck seg.ackSeq :=
    TcpStream.adjustAck_congr core _
  have sndbuf : s'.sndbuf = s.sndbuf := congrArg Core.sndbuf core
  have nxt : s'.sndNxt = s.sndNxt := congrArg Core.sndNxt core
  unfold cancels acksTooMuch
  rw [adjust, sndbuf, nxt]

end TcpStream

namespace Cx

/-- The send buffer after the acknowledgement of the segment. -/
def Retired (s : TcpStream) (seg : Segment) (b : SndBuff) : Prop :=
  ∃ fast, b = (s.core.onAck fast (s.adjustAck seg.ackSeq)).sndbuf

/-- What a segment leaves of the timer and the queues. -/
def Kept (s : TcpStream) (seg : Segment) (c c' : Cx) : Prop :=
  c.Queued c' ∧ ((c.st.onRto = true → c'.st.onRto = true) ∨ c.posted < c'.posted ∨
    c'.st.onControlQueue = true ∨ (s.Strands seg ∧ Retired s seg c'.st.sndbuf))

/-- The call ends the process, leaves the states that wait, or keeps what it must. -/
def Covers (s : TcpStream) (seg : Segment) (c c' : Cx) : Prop :=
  c'.view.halted = true ∨ c'.st.state.waits = false ∨ Kept s seg c c'

section Kept

variable {s : TcpStream} {seg : Segment} {c c' c'' : Cx}

theorem Stays.kept (stays : c.Stays c') : Kept s seg c c' := ⟨stays.toQueued, .inl stays.rto⟩

theorem Stays.covers (stays : c.Stays c') : Covers s seg c c' := .inr (.inr stays.kept)

theorem Kept.before (first : c.Stays c') (second : Kept s seg c' c'') : Kept s seg c c'' := by
  obtain ⟨queued, kept⟩ := second
  refine ⟨first.toQueued.trans queued, ?_⟩
  rcases kept with rto | posts | control | strands
  · exact .inl fun on => rto (first.rto on)
  · exact .inr (.inl (first.posted.trans_lt posts))
  · exact .inr (.inr (.inl control))
  · exact .inr (.inr (.inr strands))

theorem Kept.after (first : Kept s seg c c') (second : c'.Stays c'')
    (same : c''.st.sndbuf = c'.st.sndbuf) : Kept s seg c c'' := by
  obtain ⟨queued, kept⟩ := first
  refine ⟨queued.trans second.toQueued, ?_⟩
  rcases kept with rto | posts | control | strands
  · exact .inl fun on => second.rto (rto on)
  · exact .inr (.inl (posts.trans_le second.posted))
  · exact .inr (.inr (.inl (second.control control)))
  · exact .inr (.inr (.inr ⟨strands.1, same ▸ strands.2⟩))

/-- The timer after `process_tcp_ack`, with what a handler knows of the segment. -/
theorem Kept.of_ack (queued : c.Queued c') (buff : Retired s seg c'.st.sndbuf)
    (arms : (c.st.onRto = true → c'.st.onRto = true) ∨ c.posted < c'.posted ∨
      s.cancels seg = true) (reach : s.reachesAck seg = true)
    (open_ : ¬ (s.state = .lastAck ∧ s.isFinSent = true))
    (fin : s.isFinSent = true → s.state.awaitsFinAck = true → seg.ackSeq ≠ s.fss + 1) :
    Kept s seg c c' := by
  refine ⟨queued, ?_⟩
  rcases arms with rto | posts | cancels
  · exact .inl rto
  · exact .inr (.inl posts)
  · exact .inr (.inr (.inr ⟨⟨reach, cancels, open_, fin⟩, buff⟩))

theorem Covers.before (first : c.Stays c') (second : Covers s seg c' c'') :
    Covers s seg c c'' := second.imp_right fun rest => rest.imp_right (Kept.before first)

theorem Queued.still (queued : c.Queued c') (off : c.st.onTimewaitList = false) :
    c'.st.onTimewaitList = false := by
  cases on : c'.st.onTimewaitList with
  | true => exact (queued.timewait on).symm.trans off
  | false => rfl

end Kept

/-! ## The handlers -/

section Handlers

variable {s : TcpStream} {seg : Segment} {env : Env} {c : Cx}

theorem processTcpAck_retired (env : Env) (core : c.st.core = s.core) :
    (c.processTcpAck env seg).view.halted = true ∨
      Retired s seg (c.processTcpAck env seg).st.sndbuf := by
  have adjust : c.st.adjustAck seg.ackSeq = s.adjustAck seg.ackSeq :=
    TcpStream.adjustAck_congr core _
  have processed := processTcpAck_view env seg c
  rw [core, adjust] at processed
  refine processed.imp_right fun view => ?_
  exact ⟨_, congrArg (fun v : View => v.sndbuf) view⟩

/-- `process_tcp_ack` and what a handler does afterwards. -/
theorem Ready.thenCovers (ready : Ready s seg c) (off : c.st.onTimewaitList = false)
    (room : env.sendRoom = true) {f : Cx → Cx}
    (cont : ∀ c₁ : Cx, c₁.view = c.view.withCore (s.acked seg) → c.Queued c₁ →
      ((c.st.onRto = true → c₁.st.onRto = true) ∨ c.posted < c₁.posted ∨
        s.cancels seg = true) → Covers s seg c (f c₁)) :
    Covers s seg c ((c.processTcpAck env seg).andThen f) := by
  rcases andThen_cases (c.processTcpAck env seg) f with ⟨halted, next⟩ | ⟨running, next⟩
  · rw [next]
    exact .inl halted
  · rw [next]
    rcases ready.processTcpAck env with halted | view
    · exact absurd halted (by rw [running]; decide)
    · rcases processTcpAck_arms env seg c off room with halted | ⟨queued, arms⟩
      · exact absurd halted (by rw [running]; decide)
      · rw [TcpStream.cancels_congr seg ready.core] at arms
        exact cont _ view queued arms

theorem Retired.of_view {c₁ : Cx} (view : c₁.view = c.view.withCore (s.acked seg)) :
    Retired s seg c₁.st.sndbuf := ⟨_, congrArg (fun v : View => v.sndbuf) view⟩

theorem state_timewaitListAdd (env : Env) (c : Cx) :
    (c.timewaitListAdd env).st.state = c.st.state :=
  congrArg (fun v : View => v.state) (view_timewaitListAdd env c)

theorem handleCloseWait_covers (ready : Ready s seg c) (state : s.state = .closeWait)
    (inSeq : s.inSequence seg = true) (run : seg.rst = false) (off : c.st.onTimewaitList = false)
    (room : env.sendRoom = true) : Covers s seg c (c.handleCloseWait env seg) := by
  have nxt : c.st.rcvNxt = s.rcvNxt := congrArg RcvCore.rcvNxt ready.rcv
  unfold handleCloseWait
  split
  · exact (controlQueueAdd_stays env c).covers
  · rename_i fresh
    rw [nxt] at fresh
    have reach : s.reachesAck seg = true := by
      simp [TcpStream.reachesAck, inSeq, run, state, fresh]
    rcases processTcpAck_arms env seg c off room with halted | ⟨queued, arms⟩
    · exact .inl halted
    rcases processTcpAck_retired env ready.core with halted | buff
    · exact .inl halted
    · rw [TcpStream.cancels_congr seg ready.core] at arms
      refine .inr (.inr (.of_ack queued buff arms reach ?_ ?_))
      · simp [state]
      · simp [state, TcpState.awaitsFinAck]

theorem finInEstablished_stays (env : Env) (seg : Segment) (c : Cx) :
    c.Stays (c.finInEstablished env seg) := by
  unfold finInEstablished
  split
  · split
    · refine Stays.trans ?_ (controlQueueAdd_stays env _)
      exact (raiseEvent_stays c _).trans (.modify _ rfl)
    · exact enqueueAck_stays env c .now
  · exact .refl c

theorem handleEstablished_covers (ready : Ready s seg c) (state : s.state = .established)
    (inSeq : s.inSequence seg = true) (run : seg.rst = false) (off : c.st.onTimewaitList = false)
    (room : env.sendRoom = true) : Covers s seg c (c.handleEstablished env seg) := by
  unfold handleEstablished
  split
  · exact (controlQueueAdd_stays env c).covers
  rename_i notSyn
  rcases andThen_cases (c.establishedPayload env seg) _ with ⟨halted, next⟩ | ⟨running, next⟩
  · rw [next]
    exact .inl halted
  rw [next]
  have payload := establishedPayload_stays env seg c
  have core : (c.establishedPayload env seg).st.core = s.core := by
    rcases establishedPayload_view env seg c with halted | ⟨r, view⟩
    · rw [running] at halted
      cases halted
    · exact (congrArg View.toCore view).trans ready.core
  generalize c.establishedPayload env seg = c₁ at payload core ⊢
  split
  · rename_i ack
    have reach : s.reachesAck seg = true := by
      simp [TcpStream.reachesAck, inSeq, run, state, ack, notSyn]
    rcases andThen_cases (c₁.processTcpAck env seg) (finInEstablished env seg) with
      ⟨halted, next⟩ | ⟨running, next⟩
    · rw [next]
      exact .inl halted
    rw [next]
    rcases processTcpAck_arms env seg c₁ (payload.still off) room with halted | ⟨queued, arms⟩
    · exact absurd halted (by rw [running]; decide)
    rcases processTcpAck_retired env core with halted | buff
    · exact absurd halted (by rw [running]; decide)
    · rw [TcpStream.cancels_congr seg core] at arms
      have kept : Kept s seg c₁ (c₁.processTcpAck env seg) := by
        refine .of_ack queued buff arms reach ?_ ?_
        · simp [state]
        · simp [state, TcpState.awaitsFinAck]
      have still : (c₁.processTcpAck env seg).st.state = .established := by
        rw [processTcpAck_state env seg c₁ running]
        exact (congrArg Core.state core).trans state
      obtain ⟨r, state', -, view⟩ := finInEstablished_view env seg _ still
      exact .inr (.inr ((kept.before payload).after (finInEstablished_stays env seg _)
        (congrArg (fun v : View => v.sndbuf) view)))
  · exact (payload.andThen (finInEstablished_stays env seg c₁)).covers

theorem handleLastAck_covers (ready : Ready s seg c) (state : s.state = .lastAck)
    (inSeq : s.inSequence seg = true) (run : seg.rst = false) (off : c.st.onTimewaitList = false)
    (room : env.sendRoom = true) (controlRoom : env.controlRoom = true) :
    Covers s seg c (c.handleLastAck env seg) := by
  have nxt : c.st.rcvNxt = s.rcvNxt := congrArg RcvCore.rcvNxt ready.rcv
  unfold handleLastAck
  split
  · exact (Stays.refl c).covers
  split
  · rename_i fresh ack
    rw [nxt, Bool.not_eq_true] at fresh
    have reach : s.reachesAck seg = true := by
      simp [TcpStream.reachesAck, inSeq, run, state, fresh, ack]
    refine ready.thenCovers off room fun c₁ view queued arms => ?_
    split
    · rename_i unsent
      rw [Bool.not_eq_true', acked_isFinSent view] at unsent
      refine .inr (.inr (.of_ack queued (.of_view view) arms reach ?_ ?_))
      · simp [unsent]
      · simp [unsent]
    · split
      · exact .inr (.inl rfl)
      · refine .inr (.inr ⟨queued.trans (controlQueueAdd_stays env c₁).toQueued, ?_⟩)
        exact .inr (.inr (.inl (controlQueueAdd_queues env c₁ controlRoom)))
  · exact (controlQueueAdd_stays env c).covers

theorem handleClosing_covers (ready : Ready s seg c) (state : s.state = .closing)
    (inSeq : s.inSequence seg = true) (run : seg.rst = false) (off : c.st.onTimewaitList = false)
    (room : env.sendRoom = true) : Covers s seg c (c.handleClosing env seg) := by
  unfold handleClosing
  split
  · rename_i ack
    have reach : s.reachesAck seg = true := by
      simp [TcpStream.reachesAck, inSeq, run, state, ack]
    refine ready.thenCovers off room fun c₁ view queued arms => ?_
    have stay (fin : s.isFinSent = true → s.state.awaitsFinAck = true → seg.ackSeq ≠ s.fss + 1) :
        Covers s seg c c₁ := by
      refine .inr (.inr (.of_ack queued (.of_view view) arms reach ?_ fin))
      simp [state]
    split
    · rename_i unsent
      rw [Bool.not_eq_true', acked_isFinSent view] at unsent
      exact stay (by simp [unsent])
    · split
      · rename_i other
        rw [acked_fss view] at other
        exact stay fun _ _ => other
      · exact .inr (.inl (by rw [state_timewaitListAdd]; rfl))
  · exact (Stays.refl c).covers

theorem finInFinWait1_stays (env : Env) (seg : Segment) (now : c.st.state ≠ .finWait2) :
    c.Stays (c.finInFinWait1 env seg) := by
  unfold finInFinWait1
  split
  · dsimp only
    rw [show (c.modify (TcpStream.takeFin seg)).st.state = c.st.state from rfl]
    have taken : c.Stays (c.modify (TcpStream.takeFin seg)) := .modify c rfl
    cases state : c.st.state with
    | finWait2 => exact absurd state now
    | finWait1 =>
        exact (taken.trans (.modify _ rfl)).trans (controlQueueAdd_stays env _)
    | closed | listen | synSent | synRcvd | established | closeWait | closing | lastAck
    | timeWait => exact taken.trans (controlQueueAdd_stays env _)
  · exact .refl c

theorem handleFinWait1_covers (ready : Ready s seg c) (state : s.state = .finWait1)
    (inSeq : s.inSequence seg = true) (run : seg.rst = false) (off : c.st.onTimewaitList = false)
    (room : env.sendRoom = true) : Covers s seg c (c.handleFinWait1 env seg) := by
  have nxt : c.st.rcvNxt = s.rcvNxt := congrArg RcvCore.rcvNxt ready.rcv
  unfold handleFinWait1
  split
  · exact (controlQueueAdd_stays env c).covers
  split
  · rename_i fresh ack
    rw [nxt, Bool.not_eq_true] at fresh
    have reach : s.reachesAck seg = true := by
      simp [TcpStream.reachesAck, inSeq, run, state, fresh, ack]
    refine ready.thenCovers off room fun c₁ view queued arms => ?_
    dsimp only
    split
    · -- the FIN is acknowledged
      generalize finished : (rtoListRemove (c₁.modify _)).modify _ = c₂
      have now : c₂.st.state = .finWait2 := by
        rw [← finished]
        rfl
      rcases finWait1_rest env seg c₂ with halted | ⟨r, state', legal, after⟩
      · exact .inl halted
      · have reached := congrArg (fun v : View => v.state.waits) after
        have left : state'.waits = false := by
          rw [now] at legal
          revert legal
          cases state' <;> decide
        exact .inr (.inl (reached.trans left))
    · rename_i other
      rw [Bool.and_eq_true, beq_iff_eq, acked_isFinSent view, acked_fss view] at other
      have now : c₁.st.state = .finWait1 := by
        rw [show c₁.st.state = _ from congrArg (fun v : View => v.state) view]
        exact (acked_state s seg).trans state
      have kept : Kept s seg c c₁ := by
        refine .of_ack queued (.of_view view) arms reach ?_ ?_
        · simp [state]
        · exact fun sent _ acked => other ⟨sent, acked⟩
      have payload := closingPayload_stays env seg c₁
      rcases andThen_cases (c₁.closingPayload env seg) (finInFinWait1 env seg) with
        ⟨halted, next⟩ | ⟨running, next⟩
      · rw [next]
        exact .inl halted
      · rw [next]
        have still : (c₁.closingPayload env seg).st.state ≠ .finWait2 := by
          rcases closingPayload_view env seg c₁ with halted | ⟨r, same⟩
          · exact absurd halted (by rw [running]; decide)
          · rw [show (c₁.closingPayload env seg).st.state = c₁.st.state from
              congrArg (fun v : View => v.state) same, now]
            decide
        obtain ⟨r, same⟩ := (closingPayload_view env seg c₁).resolve_left (by rw [running]; decide)
        have buff : (c₁.closingPayload env seg).st.sndbuf = c₁.st.sndbuf :=
          congrArg (fun v : View => v.sndbuf) same
        obtain ⟨r', state', -, taken⟩ := finInFinWait1_view env seg (c₁.closingPayload env seg)
        have buff' := congrArg (fun v : View => v.sndbuf) taken
        exact .inr (.inr ((kept.after payload buff).after (finInFinWait1_stays env seg still)
          buff'))
  · exact (Stays.refl c).covers

theorem handleRst_covers (seg : Segment) (c : Cx) : Covers s seg c (c.handleRst seg) := by
  unfold handleRst
  cases c.st.state with
  | synRcvd =>
      dsimp only
      split
      · exact .inr (.inl rfl)
      · exact (Stays.refl c).covers
  | finWait1 | finWait2 | lastAck | closing | timeWait => exact .inr (.inl rfl)
  | closed | listen | synSent | established | closeWait =>
      dsimp only
      split
      · exact (Stays.refl c).covers
      · exact (Stays.trans (.modify c rfl) (raiseEvent_stays _ _)).covers

theorem handleSegment_covers (ready : Ready s seg c)
    (late : s.state.isOpen = true ∨ s.state.awaitsFinAck = true) (inSeq : s.inSequence seg = true)
    (run : seg.rst = false) (off : c.st.onTimewaitList = false) (room : env.sendRoom = true)
    (controlRoom : env.controlRoom = true) : Covers s seg c (c.handleSegment env seg) := by
  unfold handleSegment
  rw [show c.st.state = s.state from congrArg Core.state ready.core]
  cases state : s.state with
  | established => exact handleEstablished_covers ready state inSeq run off room
  | closeWait => exact handleCloseWait_covers ready state inSeq run off room
  | lastAck => exact handleLastAck_covers ready state inSeq run off room controlRoom
  | finWait1 => exact handleFinWait1_covers ready state inSeq run off room
  | closing => exact handleClosing_covers ready state inSeq run off room
  | closed | listen | synSent | synRcvd | finWait2 | timeWait =>
      rw [state] at late
      rcases late with group | group <;> cases group

/-- **A segment from ESTABLISHED on keeps the timer and the queues**, but for `Strands`. -/
theorem processSegment_covers (env : Env) (seg : Segment) (c : Cx)
    (late : c.st.state.isOpen = true ∨ c.st.state.awaitsFinAck = true)
    (off : c.st.onTimewaitList = false) (room : env.sendRoom = true)
    (controlRoom : env.controlRoom = true) : Covers c.st seg c (c.processSegment env seg) := by
  have beyond : TcpState.synRcvd.val < c.st.state.val := by
    revert late
    cases c.st.state <;> decide
  have notWaiting : c.st.state ≠ .timeWait := by
    revert late
    cases c.st.state <;> decide
  cases processSegment_arrival env seg c with
  | halted h => exact .inl h
  | dropped _ _ stays => exact (stays notWaiting).covers
  | reset c₁ rst _ core result stays =>
      rw [result]
      exact (handleRst_covers seg c₁).before stays
  | handled c₁ view ready inSeq kept queues result stays =>
      rw [result]
      exact (handleSegment_covers ready late (inSeq beyond) (kept (Nat.lt_of_succ_lt beyond))
        (stays.still off) room controlRoom).before stays

/-! ## The handshake -/

/-- In the handshake nothing but its end takes the timer away. -/
def Awaits (c c' : Cx) : Prop :=
  c'.view.halted = true ∨ (c.Queued c' ∧
    (c'.st.state.isSyn = false ∨ (c.st.onRto = true → c'.st.onRto = true)))

theorem Awaits.before {c c' c'' : Cx} (first : c.Stays c') (second : c'.Awaits c'') :
    c.Awaits c'' := by
  refine second.imp_right fun ⟨queued, rest⟩ => ⟨first.toQueued.trans queued, ?_⟩
  exact rest.imp_right fun kept on => kept (first.rto on)

theorem Stays.awaits {c c' : Cx} (stays : c.Stays c') : c.Awaits c' :=
  .inr ⟨stays.toQueued, .inr stays.rto⟩

theorem handleListen_stays (env : Env) (seg : Segment) (c : Cx) :
    c.Stays (c.handleListen env seg) := by
  unfold handleListen
  split
  · exact Stays.trans (.modify c rfl) (controlQueueAdd_stays env _)
  · exact .refl c

theorem handleActiveOpen_opens (env : Env) (seg : Segment) (c : Cx) :
    (c.handleActiveOpen env seg).view.halted = true ∨
      (c.Queued (c.handleActiveOpen env seg) ∧
        (c.handleActiveOpen env seg).st.state = .established) := by
  unfold handleActiveOpen
  dsimp only
  generalize noted : c.modify _ = c₁
  have stays : c.Stays c₁ := by
    rw [← noted]
    exact .modify c rfl
  rcases andThen_cases (parseOptions env seg c₁) _ with ⟨halted, next⟩ | ⟨-, next⟩
  · rw [next]
    exact .inl halted
  · rw [next]
    refine .inr ⟨(stays.trans (parseOptions_stays env c₁ seg)).toQueued.trans ?_, rfl⟩
    refine Queued.trans ?_ (Stays.emit _ _).toQueued
    refine Queued.trans ?_ (Stays.modify _ rfl).toQueued
    exact Queued.trans (Stays.modify _ rfl).toQueued (rtoListRemove_queued _)

theorem handleSynSent_awaits (env : Env) (seg : Segment) (c : Cx) :
    c.Awaits (c.handleSynSent env seg) := by
  unfold handleSynSent
  split
  · split
    · exact (Stays.refl c).awaits
    · exact .inl rfl
  dsimp only
  generalize counted : (if seg.ack then c.modify _ else c) = c₁
  have stays : c.Stays c₁ := by
    rw [← counted]
    split
    · exact .modify c rfl
    · exact .refl c
  refine Awaits.before stays ?_
  split
  · split
    · split
      · exact (Stays.trans (.modify c₁ rfl) (raiseEvent_stays _ _)).awaits
      · exact (Stays.trans (.modify c₁ rfl) (.emit _ _)).awaits
    · exact (Stays.refl c₁).awaits
  split
  · split
    · have opened := handleActiveOpen_opens env seg c₁
      rcases andThen_cases (c₁.handleActiveOpen env seg) _ with ⟨halted, next⟩ | ⟨running, next⟩
      · rw [next]
        exact .inl halted
      · rw [next]
        generalize c₁.handleActiveOpen env seg = c₂ at opened running
        obtain ⟨queued, now⟩ := opened.resolve_left (by rw [running]; decide)
        split
        · have rest : c₂.Stays (timeoutListAdd env ((c₂.raiseEvent .write).controlQueueAdd env)) :=
            ((raiseEvent_stays c₂ _).trans (controlQueueAdd_stays env _)).trans
              (timeoutListAdd_stays env _)
          have same : (timeoutListAdd env ((c₂.raiseEvent .write).controlQueueAdd env)).view =
              c₂.view := by simp
          have state := congrArg (fun v : View => v.state.isSyn) same
          refine .inr ⟨queued.trans rest.toQueued, .inl ?_⟩
          exact state.trans (congrArg TcpState.isSyn now)
        · exact .inl rfl
    · exact (Stays.trans (.modify c₁ rfl) (controlQueueAdd_stays env _)).awaits
  · exact (Stays.refl c₁).awaits

theorem raiseAcceptEvent_opens (env : Env) (c : Cx) (now : c.st.state = .established) :
    (c.raiseAcceptEvent env).view.halted = true ∨ (c.Stays (c.raiseAcceptEvent env) ∧
      ((c.raiseAcceptEvent env).st.state = .established ∨
        (c.raiseAcceptEvent env).st.state = .closed)) := by
  unfold raiseAcceptEvent
  split
  · exact .inl rfl
  dsimp only
  generalize queued : (if env.acceptRoom then c.emit .acceptEnqueue else c.modify _) = c₁
  have state : c.Stays c₁ ∧ (c₁.st.state = .established ∨ c₁.st.state = .closed) := by
    rw [← queued]
    split
    · exact ⟨.emit c _, .inl now⟩
    · exact ⟨.modify c rfl, .inr rfl⟩
  split
  · exact .inr ⟨state.1.trans (.emit c₁ _), state.2⟩
  · exact .inr state

/-- The SYN is acknowledged and the connection is open, or nothing was cancelled. -/
theorem handleSynRcvd_opens (env : Env) (seg : Segment) (c : Cx) :
    (c.handleSynRcvd env seg).view.halted = true ∨
      (c.Queued (c.handleSynRcvd env seg) ∧ ((c.handleSynRcvd env seg).st.state = .established ∨
        (c.handleSynRcvd env seg).st.state = .closed)) ∨
      (c.Stays (c.handleSynRcvd env seg) ∧ (c.handleSynRcvd env seg).st.state = c.st.state) := by
  unfold handleSynRcvd
  split
  · split
    · exact .inr (.inr ⟨.refl c, rfl⟩)
    · dsimp only
      generalize opened : emit _ _ = c₁
      have queued : c.Queued c₁ := by
        rw [← opened]
        refine Queued.trans ?_ (Stays.emit _ _).toQueued
        refine Queued.trans ?_ (Stays.modify _ rfl).toQueued
        exact Queued.trans (Stays.modify _ rfl).toQueued (rtoListRemove_queued _)
      have now : c₁.st.state = .established := by
        rw [← opened]
        rfl
      refine (raiseAcceptEvent_opens env c₁ now).imp_right fun ⟨stays, state⟩ => .inl ?_
      exact ⟨queued.trans stays.toQueued, state⟩
  · refine .inr (.inr ⟨Stays.trans (.modify c rfl) (controlQueueAdd_stays env _), ?_⟩)
    exact congrArg (fun v : View => v.state) (view_controlQueueAdd env _)

/-- In ESTABLISHED at most the timer is taken away. -/
theorem handleEstablished_queued (env : Env) (seg : Segment) (c : Cx)
    (off : c.st.onTimewaitList = false) (room : env.sendRoom = true) :
    (c.handleEstablished env seg).view.halted = true ∨ c.Queued (c.handleEstablished env seg) := by
  unfold handleEstablished
  split
  · exact .inr (controlQueueAdd_stays env c).toQueued
  have payload := establishedPayload_stays env seg c
  rcases andThen_cases (c.establishedPayload env seg) _ with ⟨halted, next⟩ | ⟨-, next⟩
  · rw [next]
    exact .inl halted
  rw [next]
  generalize c.establishedPayload env seg = c₁ at payload ⊢
  split
  · rcases andThen_cases (c₁.processTcpAck env seg) (finInEstablished env seg) with
      ⟨halted, next⟩ | ⟨running, next⟩
    · rw [next]
      exact .inl halted
    · rw [next]
      rcases processTcpAck_arms env seg c₁ (payload.still off) room with halted | ⟨queued, -⟩
      · exact absurd halted (by rw [running]; decide)
      · exact .inr ((payload.toQueued.trans queued).trans
          (finInEstablished_stays env seg _).toQueued)
  · exact .inr (payload.andThen (finInEstablished_stays env seg c₁)).toQueued

theorem handleSegment_awaits (env : Env) (seg : Segment) (c : Cx)
    (early : c.st.state.isSyn = true) (off : c.st.onTimewaitList = false)
    (room : env.sendRoom = true) : c.Awaits (c.handleSegment env seg) := by
  unfold handleSegment
  cases state : c.st.state with
  | listen => exact (handleListen_stays env seg c).awaits
  | synSent => exact handleSynSent_awaits env seg c
  | synRcvd =>
      dsimp only
      split
      · exact (handleListen_stays env seg c).awaits
      · have ends := handleSynRcvd_opens env seg c
        rcases andThen_cases (c.handleSynRcvd env seg) _ with ⟨halted, next⟩ | ⟨running, next⟩
        · rw [next]
          exact .inl halted
        · rw [next]
          generalize c.handleSynRcvd env seg = c₁ at ends running
          rcases ends.resolve_left (by rw [running]; decide) with ⟨queued, now | now⟩ | ⟨stays, now⟩
          · split
            · rcases handleEstablished_view env seg c₁ now with
                halted | ⟨r, state', isOpen, view⟩
              · exact .inl halted
              · have left : state'.isSyn = false := by
                  revert isOpen
                  cases state' <;> decide
                have reached : (c₁.handleEstablished env seg).st.state.isSyn = false := by
                  rcases view with view | ⟨-, -, view⟩
                  · exact (congrArg (fun v : View => v.state.isSyn) view).trans left
                  · exact (congrArg (fun v : View => v.state.isSyn) view).trans left
                refine (handleEstablished_queued env seg c₁ (queued.still off) room).imp_right ?_
                exact fun kept => ⟨queued.trans kept, .inl reached⟩
            · exact .inr ⟨queued, .inl (congrArg TcpState.isSyn now)⟩
          · rw [if_neg (by rw [now]; simp)]
            exact .inr ⟨queued, .inl (congrArg TcpState.isSyn now)⟩
          · rw [if_neg (by rw [now, state]; simp)]
            exact stays.awaits
  | closed | established | finWait1 | finWait2 | closeWait | closing | lastAck | timeWait =>
      rw [state] at early
      cases early

theorem processSegment_awaits (env : Env) (seg : Segment) (c : Cx)
    (early : c.st.state.isSyn = true) (off : c.st.onTimewaitList = false)
    (room : env.sendRoom = true) : c.Awaits (c.processSegment env seg) := by
  cases processSegment_arrival env seg c with
  | halted h => exact .inl h
  | dropped late =>
      exfalso
      revert late early
      cases c.st.state <;> decide
  | reset c₁ rst beyond core result stays =>
      rw [result]
      have now : c₁.st.state = .synRcvd := by
        rw [show c₁.st.state = c.st.state from congrArg (fun v : View => v.state) core]
        revert beyond early
        cases c.st.state <;> decide
      refine Awaits.before stays ?_
      unfold handleRst
      rw [now]
      dsimp only
      split
      · exact (Stays.trans (.modify c₁ rfl) (.emit _ _)).awaits
      · exact (Stays.refl c₁).awaits
  | handled c₁ view ready inSeq kept queues result stays =>
      rw [result]
      refine (handleSegment_awaits env seg c₁ ?_ (stays.still off) room).before stays
      rw [show c₁.st.state = c.st.state from congrArg Core.state ready.core]
      exact early

end Handlers

/-! ## The services -/

section Services

variable (env : Env) (c : Cx)

/-- A control packet that takes a sequence number arms the timer, if there is an mbuf for it. -/
theorem controlPacket_arms (flags : SendFlags) (off : c.st.onTimewaitList = false)
    (counts : flags.phantom ≠ 0) :
    (c.sendTcpPacket env flags none 0).2.st.onRto = true ∨
      (c.avail = 0 ∧ (c.sendTcpPacket env flags none 0).2 = c) := by
  rcases sendTcpPacket_cases env flags none 0 c with ⟨-, long⟩ | ⟨refused, -, spent⟩ | ⟨sent, -⟩
  · exact absurd long (Nat.not_lt_zero _)
  · rw [refused]
    exact .inr ⟨spent, rfl⟩
  · exact .inl (sendTcpPacket_arms env c flags none 0 off (by rw [Nat.zero_add]; exact counts) sent)

/-- What the control queue does to the timer: a SYN or FIN arms it, and nothing else is sent that
would have to be acknowledged. -/
theorem sendTcpControlPacket_arms (off : c.st.onTimewaitList = false) :
    c.Stays (c.sendTcpControlPacket env).2 ∧ ((c.sendTcpControlPacket env).2.st.onRto = true ∨
      (((c.st.state = .synSent ∨ c.st.state = .synRcvd ∨ c.st.core.sendsFin = true) → c.avail = 0) ∧
        ∃ nxt, (c.sendTcpControlPacket env).2.view = { c.view with sndNxt := nxt })) := by
  have same : ∃ nxt, c.view = { c.view with sndNxt := nxt } := ⟨c.view.sndNxt, rfl⟩
  unfold sendTcpControlPacket
  cases state : c.st.state with
  | closed | listen =>
      refine ⟨.refl c, .inr ⟨fun sends => ?_, same⟩⟩
      simp [Core.sendsFin, TcpStream.core, state] at sends
  | established | closeWait | finWait2 | timeWait =>
      refine ⟨sendTcpPacket_stays env c _ none 0, .inr ⟨fun sends => ?_, ?_⟩⟩
      · simp [Core.sendsFin, TcpStream.core, state] at sends
      · dsimp only
        rw [view_bareAck env c _ ⟨rfl, rfl⟩]
        exact same
  | synSent =>
      refine ⟨sendTcpPacket_stays env c _ none 0, ?_⟩
      rcases controlPacket_arms env c { syn := true } off (by decide) with armed | ⟨spent, refused⟩
      · exact .inl armed
      · refine .inr ⟨fun _ => spent, ?_⟩
        dsimp only
        rw [refused]
        exact same
  | synRcvd =>
      have rewound : c.Stays (c.modify fun s => { s with sndNxt := s.iss }) := .modify c rfl
      refine ⟨rewound.trans (sendTcpPacket_stays env _ _ none 0), ?_⟩
      rcases controlPacket_arms env (c.modify fun s => { s with sndNxt := s.iss })
        { syn := true, ack := true } off (by decide) with armed | ⟨spent, refused⟩
      · exact .inl armed
      · refine .inr ⟨fun _ => spent, c.st.iss, ?_⟩
        dsimp only
        rw [refused]
        rfl
  | lastAck | finWait1 =>
      refine ⟨sendTcpPacket_stays env c _ none 0, ?_⟩
      rcases controlPacket_arms env c { fin := true, ack := true } off (by decide) with
        armed | ⟨spent, refused⟩
      · exact .inl armed
      · refine .inr ⟨fun _ => spent, ?_⟩
        dsimp only
        rw [refused]
        exact same
  | closing =>
      dsimp only
      split
      · rename_i acks
        refine ⟨sendTcpPacket_stays env c _ none 0, .inr ⟨fun sends => ?_, ?_⟩⟩
        · simp [Core.sendsFin, TcpStream.core, state, acks] at sends
        · rw [view_bareAck env c _ ⟨rfl, rfl⟩]
          exact same
      · refine ⟨sendTcpPacket_stays env c _ none 0, ?_⟩
        rcases controlPacket_arms env c { fin := true, ack := true } off (by decide) with
          armed | ⟨spent, refused⟩
        · exact .inl armed
        · refine .inr ⟨fun _ => spent, ?_⟩
          rw [refused]
          exact same

theorem refuseOutOfWindow_stays (seq : Seq) (m : SndMbuf) :
    c.Stays (c.refuseOutOfWindow env seq m) := by
  unfold refuseOutOfWindow
  dsimp only
  refine Stays.trans ?_ (sendEventAdd_stays env _ _)
  split
  · exact enqueueAck_stays env c .wack
  · exact .refl c

/-- A flush that has sent a packet leaves the timer armed. -/
theorem flushLoop_arms : ∀ (rounds packets : Nat) (c : Cx), c.st.onTimewaitList = false →
    (0 < packets → c.st.onRto = true) →
    (c.flushLoop env rounds packets).2.view.halted = true ∨
      (c.Stays (c.flushLoop env rounds packets).2 ∧
        (0 < (c.flushLoop env rounds packets).1 →
          (c.flushLoop env rounds packets).2.st.onRto = true))
  | 0, packets, c, _, armed => .inr ⟨.refl c, fun some => armed (by simpa [flushLoop] using some)⟩
  | rounds + 1, packets, c, off, armed => by
      have done {c' : Cx} (stays : c.Stays c') :
          c.Stays c' ∧ ((0 : Int) < (packets : Int) → c'.st.onRto = true) :=
        ⟨stays, fun some => stays.rto (armed (by omega))⟩
      rw [flushLoop]
      dsimp only
      split
      · exact .inr (done (.refl c))
      generalize c.st.sndbuf.popWaiting = popped
      obtain ⟨m, b⟩ := popped
      have taken : c.Stays (c.setSndbuf b) := .modify c rfl
      cases m with
      | none => exact .inr (done taken)
      | some m =>
          dsimp only
          split
          · refine (flushLoop_arms rounds packets (c.setSndbuf b) off armed).imp_right fun rest => ?_
            exact ⟨taken.trans rest.1, rest.2⟩
          rename_i payload
          split
          · exact .inr (done (taken.trans (refuseOutOfWindow_stays env _ _ m)))
          have stays := sendTcpPacket_stays env (c.setSndbuf b) { ack := true } (some m.id)
            m.payloadLen
          have arms := sendTcpPacket_arms env (c.setSndbuf b) { ack := true } (some m.id)
            m.payloadLen off (by simpa [SendFlags.phantom] using payload)
          have results := sendTcpPacket_cases env { ack := true } (some m.id) m.payloadLen
            (c.setSndbuf b)
          generalize (c.setSndbuf b).sendTcpPacket env { ack := true } (some m.id) m.payloadLen =
            result at stays arms results
          obtain ⟨ret, c₁⟩ := result
          dsimp only at stays arms ⊢
          split
          · exact .inl rfl
          · rename_i sent
            have ok : ret = success := by
              rcases results with ⟨refused, -⟩ | ⟨-, allocated, -⟩ | ⟨ok, -⟩
              · cases refused
                exact absurd (by decide) sent
              · cases allocated
              · exact ok
            have appended : c₁.Stays (c₁.appendUack c.st.sndNxt m) := .modify c₁ rfl
            have rto : (c₁.appendUack c.st.sndNxt m).st.onRto = true := arms ok
            have off' := appended.still (stays.still (taken.still off))
            refine (flushLoop_arms rounds (packets + 1) _ off' fun _ => rto).imp_right fun rest => ?_
            exact ⟨taken.trans (stays.trans (appended.trans rest.1)), rest.2⟩

/-- The rest of the service of a send event, once the flush has returned. -/
theorem afterFlush_arms (ret : Int) (controlRoom : env.controlRoom = true)
    (armed : 0 < ret → c.st.onRto = true) :
    let c' := if ret ≤ 0 then c.controlQueueAdd env
      else (c.modify fun s => { s with
        onSendQueue := false, ackCnt := s.ackCnt - ret.toNat }).releaseControlWaiting env
          (c.modify fun s => { s with
            onSendQueue := false, ackCnt := s.ackCnt - ret.toNat }).st.onAckQueue
    c.Stays c' ∧ (c'.st.onRto = true ∨ c'.st.onControlQueue = true) := by
  dsimp only
  split
  · exact ⟨controlQueueAdd_stays env c, .inr (controlQueueAdd_queues env c controlRoom)⟩
  · rename_i sent
    generalize noted : c.modify (fun s : TcpStream =>
      { s with onSendQueue := false, ackCnt := s.ackCnt - ret.toNat }) = c₁
    have stays : c.Stays c₁ := by
      rw [← noted]
      exact .modify c rfl
    have rest := stays.trans (releaseControlWaiting_stays env c₁ c₁.st.onAckQueue)
    exact ⟨rest, .inl (rest.rto (armed (by omega)))⟩

/-- A send event that was served leaves the timer armed or the stream on the control queue. -/
theorem writeTcpSendQueue_arms (off : c.st.onTimewaitList = false)
    (controlRoom : env.controlRoom = true) :
    (c.writeTcpSendQueue env).view.halted = true ∨ (c.Stays (c.writeTcpSendQueue env) ∧
      ((c.writeTcpSendQueue env).st.onRto = true ∨
        (c.writeTcpSendQueue env).st.onControlQueue = true)) := by
  have flushed : (c.flushTcpSendingBuffer env).2.view.halted = true ∨
      (c.Stays (c.flushTcpSendingBuffer env).2 ∧ (0 < (c.flushTcpSendingBuffer env).1 →
        (c.flushTcpSendingBuffer env).2.st.onRto = true)) := by
    unfold flushTcpSendingBuffer
    split
    · exact .inr ⟨.refl c, nofun⟩
    split
    · exact .inr ⟨.refl c, nofun⟩
    · exact flushLoop_arms env _ 0 c off nofun
  unfold writeTcpSendQueue
  dsimp only
  cases state : c.st.state with
  | established | closeWait | finWait1 | lastAck =>
      dsimp only
      rcases flushed with halted | ⟨stays, armed⟩
      · refine .inl ?_
        rw [view_afterFlush]
        exact halted
      · obtain ⟨rest, covered⟩ := afterFlush_arms env _ _ controlRoom armed
        exact .inr ⟨stays.trans rest, covered⟩
  | closed | listen | synSent | synRcvd | finWait2 | closing | timeWait =>
      exact .inr (afterFlush_arms env c failed controlRoom nofun)

theorem sendAcks_stays : ∀ (pending : Nat) (c : Cx), c.Stays (c.sendAcks env pending)
  | 0, c => .refl c
  | pending + 1, c => by
      have stays := sendTcpPacket_stays env c { ack := true } none 0
      rw [sendAcks]
      generalize c.sendTcpPacket env { ack := true } none 0 = result at stays
      obtain ⟨ret, c'⟩ := result
      dsimp only at stays ⊢
      split
      · exact stays
      · exact (stays.trans (.modify c' rfl)).trans (sendAcks_stays pending _)

theorem sendWack_stays : c.Stays (c.sendWack env) := by
  unfold sendWack
  split
  · have cleared : c.Stays (c.modify fun s => { s with isWack := false }) := .modify c rfl
    have stays := cleared.trans (sendTcpPacket_stays env _ { ack := true, wack := true } none 0)
    generalize sendTcpPacket env _ none 0 _ = result at stays ⊢
    obtain ⟨ret, c'⟩ := result
    dsimp only at stays ⊢
    split
    · exact stays.trans (.modify c' rfl)
    · exact stays
  · exact .refl c

theorem writeTcpAckQueue_stays : c.Stays (c.writeTcpAckQueue env) := by
  unfold writeTcpAckQueue
  split
  · dsimp only
    refine Stays.trans ?_ (releaseControlWaiting_stays env _ _)
    generalize taken : c.modify (fun s : TcpStream => { s with onAckQueue := false }) = c₁
    have stays : c.Stays c₁ := by
      rw [← taken]
      exact .modify c rfl
    refine stays.trans ?_
    cases c₁.st.state with
    | established | closeWait | finWait1 | finWait2 | timeWait =>
        exact (sendAcks_stays env _ c₁).trans (sendWack_stays env _)
    | closed | listen | synSent | synRcvd | closing | lastAck => exact .modify c₁ rfl
  · exact .refl c

/-- An expired timer queues the stream. -/
theorem rtoListCheck_queues (room : env.sendRoom = true) (controlRoom : env.controlRoom = true) :
    (c.rtoListCheck env).view.halted = true ∨ (c.rtoListCheck env).st.state.waits = false ∨
      (c.Queued (c.rtoListCheck env) ∧ (c.posted < (c.rtoListCheck env).posted ∨
        (c.rtoListCheck env).st.onControlQueue = true)) := by
  unfold rtoListCheck
  generalize unlinked : (c.modify fun s : TcpStream => { s with onRto := false }).emit .rtoRemove =
    c₁
  have queued₁ : c.Queued c₁ := by
    rw [← unlinked]
    exact ⟨id, posted_emit _ _, id⟩
  unfold handleRto
  split
  · dsimp only
    generalize rolled : modify (c₁.modify _) _ = c₂
    have queued₂ : c.Queued c₂ := by
      refine queued₁.trans ?_
      rw [← rolled]
      exact ⟨id, le_rfl, id⟩
    have retransmit :
        c.Queued ((c₂.setSndbuf c₂.st.sndbuf.sbResetRetrans.2).sendEventAdd env false) ∧
        (c.posted < ((c₂.setSndbuf c₂.st.sndbuf.sbResetRetrans.2).sendEventAdd env false).posted ∨
          ((c₂.setSndbuf c₂.st.sndbuf.sbResetRetrans.2).sendEventAdd env
            false).st.onControlQueue = true) := by
      have marked : c₂.Stays (c₂.setSndbuf c₂.st.sndbuf.sbResetRetrans.2) := .modify c₂ rfl
      have stays := marked.trans (sendEventAdd_stays env _ false)
      refine ⟨queued₂.trans stays.toQueued, .inl ?_⟩
      exact (queued₂.posted.trans marked.posted).trans_lt (sendEventAdd_posts env _ false room)
    have control : c.Queued (c₂.controlQueueAdd env) ∧ (c.posted < (c₂.controlQueueAdd env).posted ∨
        (c₂.controlQueueAdd env).st.onControlQueue = true) :=
      ⟨queued₂.trans (controlQueueAdd_stays env c₂).toQueued,
        .inr (controlQueueAdd_queues env c₂ controlRoom)⟩
    cases c₂.st.state with
    | established => exact .inr (.inr retransmit)
    | finWait1 | closing | lastAck =>
        dsimp only
        split
        · exact .inl rfl
        split
        · exact .inr (.inr retransmit)
        · exact .inr (.inr control)
    | closed | listen | synSent | synRcvd | closeWait | finWait2 | timeWait =>
        exact .inr (.inr control)
  · exact .inr (.inl rfl)

theorem sendFromUser_stays (m : SndMbuf) : c.Stays (c.sendFromUser m).2 := by
  unfold sendFromUser
  split
  · exact .refl c
  · generalize c.st.sndbuf.sbPut m = put
    obtain ⟨ret, b⟩ := put
    dsimp only
    split
    · exact .of_same rfl le_rfl
    · exact .of_same rfl le_rfl

theorem qTcpSend_stays (m : SndMbuf) (len : U32) (highPri : Bool) :
    c.Stays (c.qTcpSend env m len highPri).2 := by
  unfold qTcpSend
  split
  · exact .emit c _
  dsimp only
  split
  · exact .refl c
  split
  · exact .refl c
  generalize ({ m with payloadLen := len.toNat % 2 ^ 16, priority := highPri } : SndMbuf) = m'
  have stays := sendFromUser_stays c m'
  generalize c.sendFromUser m' = result at stays
  obtain ⟨ret, c'⟩ := result
  dsimp only at stays ⊢
  split
  · exact stays.trans (sendEventAdd_stays env c' _)
  · exact stays

theorem tcpStreamClose_stays : c.Stays c.tcpStreamClose.2 := by
  unfold tcpStreamClose
  split
  · exact .refl c
  · have marked : c.Stays (c.modify fun s => { s with closed := true }) := .modify c rfl
    dsimp only
    split
    · exact marked.trans (.of_same rfl le_rfl)
    · exact marked.trans (.of_same rfl le_rfl)
    · exact marked

theorem handleCloseCall_stays : c.Stays (c.handleCloseCall env) := by
  unfold handleCloseCall
  dsimp only
  generalize noted : c.modify (fun s : TcpStream => { s with fss := s.sndbuf.nextSeq }) = c₁
  have stays : c.Stays c₁ := by
    rw [← noted]
    exact .modify c rfl
  refine stays.trans ?_
  split
  · split
    · exact .refl c₁
    · exact Stays.trans (.modify c₁ rfl) (.emit _ _)
  · cases c₁.st.state with
    | closed => exact .emit c₁ _
    | established | closeWait =>
        exact Stays.trans (.modify c₁ rfl) (controlQueueAdd_stays env _)
    | listen | synSent | synRcvd | finWait1 | finWait2 | closing | lastAck | timeWait =>
        exact controlQueueAdd_stays env c₁

theorem handleCloseCall_queues (controlRoom : env.controlRoom = true) :
    (c.handleCloseCall env).view.halted = true ∨ (c.handleCloseCall env).st.state.waits = false ∨
      (c.handleCloseCall env).st.onControlQueue = true := by
  unfold handleCloseCall
  dsimp only
  generalize c.modify (fun s : TcpStream => { s with fss := s.sndbuf.nextSeq }) = c₁
  split
  · split
    · rename_i state
      exact .inr (.inl (congrArg TcpState.waits state))
    · exact .inr (.inl rfl)
  · cases c₁.st.state with
    | closed => exact .inl rfl
    | established | closeWait | listen | synSent | synRcvd | finWait1 | finWait2 | closing
    | lastAck | timeWait => exact .inr (.inr (controlQueueAdd_queues env _ controlRoom))

theorem qRecv_stays : c.Stays c.qRecv := by
  unfold qRecv
  split
  · exact .refl c
  split
  · exact .refl c
  generalize RcvMem.qRecv _ = result
  obtain ⟨id, w⟩ := result
  dsimp only
  split
  · exact .emit c _
  · exact .of_same rfl le_rfl

end Services

end Cx

end QStack
