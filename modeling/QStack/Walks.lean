/-
# QStack.Walks -- what the functions of the stack do to the timers of a stream

Every function of `QStack.TcpOut` and `QStack.TcpIn` goes from one state of a stream to the next in
small moves: it writes fields that no timer looks at, emits effects, uses memory, and calls the
functions of the timer lists.  `Walk` is the closure of these moves, and each function is a walk.  A
property of the timers is proved for all functions by an induction over the moves of a walk.

What only some of them do needs a permit: the handlers of segments and of the close call destroy the
stream or put it on `timeout_list`, an acknowledgement of something new takes the stream off the RTO
list and counts its retransmissions from 0, and the third duplicate adds one to the count.
-/
import QStack.TimerLists
import QStack.Arming
import QStack.Connection
import QStack.Tuning

namespace QStack

set_option autoImplicit false

/-- What the timers look at. -/
structure ClockSide where
  lastActiveTs : U32
  tsTwExpire : U32
  tsRto : U32
  rto : U32
  nrtx : Nat
  flags : TimerFlags
deriving DecidableEq

def TcpStream.clockSide (s : TcpStream) : ClockSide :=
  ⟨s.lastActiveTs, s.tsTwExpire, s.tsRto, s.rto, s.nrtx, s.timerFlags⟩

/-- An effect on one of the three lists. -/
def Effect.isTimer : Effect → Bool
  | .rtoInsert | .rtoRemove | .timewaitInsert | .timewaitRemove | .timeoutInsert
  | .timeoutRemove => true
  | _ => false

/-- What a function may do besides. -/
structure Permit where
  /-- destroy the stream, or put it on `timeout_list` -/
  destroys : Bool := true
  /-- take the stream off the RTO list, or set `nrtx` to 0 -/
  restarts : Bool := true
  /-- add one to `nrtx` -/
  retries : Bool := true

def Permit.all : Permit := {}

def Permit.sparing : Permit := { destroys := false }

/-- What becomes of the clock side when nothing but the count of retransmissions moves. -/
inductive Permit.Recounts (may : Permit) (k : ClockSide) : ClockSide → Prop
  | kept : may.Recounts k k
  | restarted (restarts : may.restarts = true) : may.Recounts k { k with nrtx := 0 }
  | retried (retries : may.retries = true) :
      may.Recounts k { k with nrtx := if k.nrtx < tcpMaxRtx then k.nrtx + 1 else k.nrtx }

theorem Permit.Recounts.eq {may : Permit} {k k' : ClockSide} (recounts : may.Recounts k k') :
    k' = { k with nrtx := k'.nrtx } := by
  cases recounts <;> rfl

/-! ## What a segment does to the count of retransmissions -/

namespace TcpStream

/-- The segment completes the handshake: it acknowledges our SYN. -/
def opensWith (s : TcpStream) (seg : Segment) : Bool :=
  match s.state with
  | .synSent => s.acceptsSynAck seg && seg.syn
  | .synRcvd => !(seg.syn && seg.seq == s.irs) && seg.ack && seg.ackSeq == s.iss + 1
  | _ => false

/-- In FIN_WAIT_1 the segment acknowledges our FIN. -/
def acksFin (s : TcpStream) (seg : Segment) : Bool :=
  s.state == .finWait1 && s.isFinSent && seg.ackSeq == s.fss + 1

/-- The segment reaches `process_tcp_ack` and acknowledges data that is still in the send buffer. -/
def acksData (s : TcpStream) (seg : Segment) : Bool :=
  s.reachesAck seg && !s.acksTooMuch (s.adjustAck seg.ackSeq) && s.acksNew seg

/-- The segment acknowledges something new: our SYN, data in the send buffer, or our FIN. -/
def acknowledges (s : TcpStream) (seg : Segment) : Bool :=
  (!seg.rst && s.opensWith seg) || s.acksData seg || (s.reachesAck seg && s.acksFin seg)

/-- `process_tcp_ack` starts a fast retransmission for the segment. -/
def resends (s : TcpStream) (seg : Segment) : Bool :=
  !s.acksTooMuch (s.adjustAck seg.ackSeq) && s.fastRetransmits seg

/-- What the permit allows in `process_tcp_ack`. -/
structure AckPermits (s : TcpStream) (may : Permit) (seg : Segment) : Prop where
  restarts : s.acksTooMuch (s.adjustAck seg.ackSeq) = false → s.acksNew seg = true →
    may.restarts = true
  retries : s.acksTooMuch (s.adjustAck seg.ackSeq) = false → s.thirdDup seg = true →
    may.retries = true

/-- The permit allows what the handler of the state does for the segment. -/
structure Handles (s : TcpStream) (may : Permit) (seg : Segment) : Prop where
  destroys : may.destroys = true
  opens : seg.rst = false → s.opensWith seg = true → may.restarts = true
  acks : s.handlesAck seg = true → s.AckPermits may seg
  fins : s.handlesAck seg = true → s.acksFin seg = true → may.restarts = true

/-- The permit allows what a segment does. -/
structure Permits (s : TcpStream) (may : Permit) (seg : Segment) : Prop where
  destroys : may.destroys = true
  restarts : s.acknowledges seg = true → may.restarts = true
  retries : s.reachesAck seg = true → s.resends seg = true → may.retries = true

theorem AckPermits.of_both {s : TcpStream} {may : Permit} {seg : Segment}
    (restarts : may.restarts = true) (retries : may.retries = true) : s.AckPermits may seg :=
  ⟨fun _ _ => restarts, fun _ _ => retries⟩

theorem AckPermits.sparing (s : TcpStream) (seg : Segment) : s.AckPermits .sparing seg :=
  .of_both rfl rfl

theorem adjusted_congr {s s' : TcpStream} (seg : Segment) (core : s'.core = s.core) :
    s'.acksTooMuch (s'.adjustAck seg.ackSeq) = s.acksTooMuch (s.adjustAck seg.ackSeq) := by
  rw [adjustAck_congr core, acksTooMuch_congr core]

theorem acksNew_congr {s s' : TcpStream} (seg : Segment) (core : s'.core = s.core) :
    s'.acksNew seg = s.acksNew seg := by
  have buff : s'.sndbuf = s.sndbuf := congrArg Core.sndbuf core
  rw [acksNew, acksNew, buff, adjustAck_congr core]

theorem AckPermits.congr {s s' : TcpStream} {may : Permit} {seg : Segment}
    (acks : s.AckPermits may seg) (core : s'.core = s.core)
    (dup : s'.thirdDup seg = s.thirdDup seg) : s'.AckPermits may seg := by
  refine ⟨fun few new => acks.restarts ?_ ?_, fun few third => acks.retries ?_ (dup ▸ third)⟩
  · rw [← adjusted_congr seg core, few]
  · rw [← acksNew_congr seg core, new]
  · rw [← adjusted_congr seg core, few]

theorem Handles.all (s : TcpStream) (seg : Segment) : s.Handles .all seg :=
  ⟨rfl, fun _ _ => rfl, fun _ => .of_both rfl rfl, fun _ _ => rfl⟩

theorem opensWith_congr {s s' : TcpStream} (seg : Segment) (core : s'.core = s.core)
    (irs : s'.irs = s.irs) : s'.opensWith seg = s.opensWith seg := by
  have state : s'.state = s.state := congrArg Core.state core
  have iss : s'.iss = s.iss := congrArg Core.iss core
  have nxt : s'.sndNxt = s.sndNxt := congrArg Core.sndNxt core
  rw [opensWith, opensWith, acceptsSynAck, acceptsSynAck, state, iss, nxt, irs]

theorem acksFin_congr {s s' : TcpStream} (seg : Segment) (core : s'.core = s.core) :
    s'.acksFin seg = s.acksFin seg := by
  have state : s'.state = s.state := congrArg Core.state core
  have sent : s'.isFinSent = s.isFinSent := congrArg Core.isFinSent core
  have fss : s'.fss = s.fss := congrArg Core.fss core
  rw [acksFin, acksFin, state, sent, fss]

/-- The handler finds the stream as the segment found it, with the window of the segment. -/
theorem Permits.handles {s : TcpStream} {may : Permit} {seg : Segment} (permits : s.Permits may seg)
    (inSeq : TcpState.synRcvd.val < s.state.val → s.inSequence seg = true) {c : Cx}
    (ready : Cx.Ready s seg c) (kept : TcpState.synSent.val < s.state.val → seg.rst = false) :
    c.st.Handles may seg := by
  obtain ⟨core, rcv, fast⟩ := ready
  have state : c.st.state = s.state := congrArg Core.state core
  have nxt : c.st.rcvNxt = s.rcvNxt := congrArg RcvCore.rcvNxt rcv
  have same : c.st.handlesAck seg = s.handlesAck seg := by rw [handlesAck, handlesAck, state, nxt]
  have reaches : c.st.handlesAck seg = true → s.reachesAck seg = true := by
    intro handled
    rw [same] at handled
    have late : TcpState.synRcvd.val < s.state.val := by
      revert handled
      unfold handlesAck
      cases s.state <;> simp [TcpState.val]
    rw [reachesAck_eq, inSeq late, kept (Nat.lt_of_succ_lt late), handled]
    rfl
  refine ⟨permits.destroys, fun run opens => permits.restarts ?_, fun handled => ?_,
    fun handled fin => permits.restarts ?_⟩
  · rw [opensWith_congr seg core (congrArg RcvCore.irs rcv)] at opens
    simp [acknowledges, run, opens]
  · refine ⟨fun few new => permits.restarts ?_,
      fun few third => permits.retries (reaches handled) ?_⟩
    · rw [adjusted_congr seg core] at few
      rw [acksNew_congr seg core] at new
      simp [acknowledges, acksData, reaches handled, few, new]
    · rw [adjusted_congr seg core] at few
      rw [fast] at third
      simp [resends, few, third]
  · rw [acksFin_congr seg core] at fin
    simp [acknowledges, reaches handled, fin]

/-- The options of a SYN say nothing of what the segment acknowledges. -/
theorem Permits.optioned {s : TcpStream} {may : Permit} {seg : Segment}
    (permits : s.Permits may seg) (o : OptionFields) (ts : U32)
    (scale : seg.syn = false → o.wscalePeer = s.wscalePeer) :
    TcpStream.Permits { s.withOptions o with lastActiveTs := ts } may seg := by
  have window : TcpStream.advertisedBy { s.withOptions o with lastActiveTs := ts } seg =
      s.advertisedBy seg := by
    unfold advertisedBy
    cases syn : seg.syn with
    | true => rfl
    | false => exact congrArg (fun w => BitVec.ofNat 32 seg.window <<< (w % 32)) (scale syn)
  refine ⟨permits.destroys, permits.restarts, fun reaches resends => permits.retries reaches ?_⟩
  have same : TcpStream.fastRetransmits { s.withOptions o with lastActiveTs := ts } seg =
      s.fastRetransmits seg := by
    unfold fastRetransmits windowed
    rw [window]
    refine thirdDup_congr seg rfl rfl rfl rfl rfl rfl ?_
    exact window
  unfold TcpStream.resends at resends ⊢
  rw [same] at resends
  exact resends

theorem Permits.all (s : TcpStream) (seg : Segment) : s.Permits .all seg :=
  ⟨rfl, fun _ => rfl, fun _ _ => rfl⟩

end TcpStream

namespace Cx

/-- The moves between `c` and `c'`. -/
inductive Walk (env : Env) (may : Permit) (c : Cx) : Cx → Prop
  | refl : Walk env may c c
  /-- the stream, the memory and the mbufs that can be allocated, but of what the timers see only
  the count of retransmissions -/
  | work {c' c'' : Cx} (walk : Walk env may c c') (out : c''.out = c'.out)
      (clock : may.Recounts c'.st.clockSide c''.st.clockSide) : Walk env may c c''
  | emits {c' : Cx} (walk : Walk env may c c') {e : Effect} (plain : e.isTimer = false)
      (spared : e.isDestroy = false ∨ may.destroys = true) : Walk env may c (c'.emit e)
  | rtoListAdd {c' : Cx} (walk : Walk env may c c') : Walk env may c (c'.rtoListAdd env)
  | rtoListRemove {c' : Cx} (walk : Walk env may c c') (restarts : may.restarts = true) :
      Walk env may c c'.rtoListRemove
  | timewaitListAdd {c' : Cx} (walk : Walk env may c c') : Walk env may c (c'.timewaitListAdd env)
  | timewaitListRenew {c' : Cx} (walk : Walk env may c c') :
      Walk env may c (c'.timewaitListRemove.timewaitListAdd env)
  | timeoutListAdd {c' : Cx} (walk : Walk env may c c') (handler : may.destroys = true) :
      Walk env may c (c'.timeoutListAdd env)
  | timeoutListUpdate {c' : Cx} (walk : Walk env may c c') :
      Walk env may c (c'.timeoutListUpdate env)

section Rules

variable {env : Env} {may : Permit} {c c' c'' : Cx}

theorem Walk.trans (first : Walk env may c c') (second : Walk env may c' c'') :
    Walk env may c c'' := by
  induction second with
  | refl => exact first
  | work _ out clock ih => exact ih.work out clock
  | emits _ plain spared ih => exact ih.emits plain spared
  | rtoListAdd _ ih => exact ih.rtoListAdd
  | rtoListRemove _ restarts ih => exact ih.rtoListRemove restarts
  | timewaitListAdd _ ih => exact ih.timewaitListAdd
  | timewaitListRenew _ ih => exact ih.timewaitListRenew
  | timeoutListAdd _ handler ih => exact ih.timeoutListAdd handler
  | timeoutListUpdate _ ih => exact ih.timeoutListUpdate

theorem Walk.of_same (out : c'.out = c.out) (clock : c'.st.clockSide = c.st.clockSide) :
    Walk env may c c' := Walk.refl.work out (clock ▸ .kept)

theorem Walk.modify (c : Cx) {f : TcpStream → TcpStream}
    (clock : (f c.st).clockSide = c.st.clockSide) : Walk env may c (c.modify f) :=
  .of_same rfl clock

/-- The stream is changed, and its retransmissions are counted anew or one more is. -/
theorem Walk.recount (c : Cx) {f : TcpStream → TcpStream}
    (clock : may.Recounts c.st.clockSide (f c.st).clockSide) : Walk env may c (c.modify f) :=
  Walk.refl.work rfl clock

theorem Walk.emit (c : Cx) {e : Effect} (plain : e.isTimer = false)
    (spared : e.isDestroy = false ∨ may.destroys = true) : Walk env may c (c.emit e) :=
  Walk.refl.emits plain spared

theorem Walk.andThen {f : Cx → Cx} (first : Walk env may c c') (second : Walk env may c' (f c')) :
    Walk env may c (c'.andThen f) := by
  unfold Cx.andThen
  split
  · exact first
  · exact first.trans second

/-- The second function is called unless the process has ended. -/
theorem Walk.andRun {f : Cx → Cx} (first : Walk env may c c')
    (second : c'.view.halted = false → Walk env may c' (f c')) :
    Walk env may c (c'.andThen f) := by
  rcases andThen_cases c' f with ⟨-, next⟩ | ⟨running, next⟩
  · rw [next]
    exact first
  · rw [next]
    exact first.trans (second running)

/-- A branch of the code that may be left out. -/
theorem Walk.ite {p : Prop} [Decidable p] (taken : Walk env may c c') :
    Walk env may c (if p then c' else c) := by
  split
  · exact taken
  · exact .refl

/-- The stream is alive after a walk that may not destroy it. -/
theorem Walk.spared (walk : Walk env may c c') (sparing : may.destroys = false) :
    c'.view.destroyed = c.view.destroyed := by
  have other : ∀ (c : Cx) {e : Effect}, e.isDestroy = false →
      (c.emit e).view.destroyed = c.view.destroyed := by
    intro c e kept
    change (e.isDestroy || c.view.destroyed) = c.view.destroyed
    rw [kept, Bool.false_or]
  induction walk with
  | refl => rfl
  | work _ out _ ih => exact (congrArg (List.any · Effect.isDestroy) out).trans ih
  | emits _ _ spared ih => exact (other _ (spared.resolve_right (by rw [sparing]; decide))).trans ih
  | rtoListAdd _ ih => exact (congrArg View.destroyed (view_rtoListAdd env _)).trans ih
  | rtoListRemove _ _ ih => exact (congrArg View.destroyed (view_rtoListRemove _)).trans ih
  | timewaitListAdd _ ih => exact (congrArg View.destroyed (view_timewaitListAdd env _)).trans ih
  | timewaitListRenew _ ih =>
      exact ((congrArg View.destroyed (view_timewaitListAdd env _)).trans
        (congrArg View.destroyed (view_timewaitListRemove _))).trans ih
  | timeoutListAdd _ handler => exact absurd handler (by rw [sparing]; decide)
  | timeoutListUpdate _ ih => exact (congrArg View.destroyed (view_timeoutListUpdate env _)).trans ih

end Rules

/-! ## Queues -/

section Functions

variable (may : Permit) (env : Env) (c : Cx)

theorem controlQueueAdd_walks : Walk env may c (c.controlQueueAdd env) := by
  unfold controlQueueAdd
  split
  · exact .refl
  · exact .ite ((Walk.modify c rfl).trans (.emit _ rfl (.inl rfl)))

theorem ackQueueAdd_walks : Walk env may c (c.ackQueueAdd env) :=
  .ite ((Walk.modify c rfl).trans (.emit _ rfl (.inl rfl)))

theorem enqueueAck_walks (opt : AckOpt) : Walk env may c (c.enqueueAck env opt) := by
  unfold enqueueAck
  refine Walk.trans ?_ (ackQueueAdd_walks may env _)
  cases opt with
  | now | aggregate => exact .ite (.modify c rfl)
  | wack => exact .modify c rfl

theorem sendEventAdd_walks (pri : Bool) : Walk env may c (c.sendEventAdd env pri) :=
  .ite (.emit c rfl (.inl rfl))

theorem raiseEvent_walks (ev : EventKind) : Walk env may c (c.raiseEvent ev) :=
  .ite (.emit c rfl (.inl rfl))

theorem exit_walks : Walk env may c c.exit := .emit c rfl (.inl rfl)

theorem releaseControlWaiting_walks (busy : Bool) :
    Walk env may c (c.releaseControlWaiting env busy) :=
  .ite ((Walk.modify c rfl).trans (controlQueueAdd_walks may env _))

/-! ## Transmission -/

theorem sendTcpPacket_walks (flags : SendFlags) (mbuf : Option MbufId) (payloadlen : Nat) :
    Walk env may c (c.sendTcpPacket env flags mbuf payloadlen).2 := by
  unfold sendTcpPacket
  split
  · exact .refl
  split
  · exact .refl
  dsimp only
  have taken : Walk env may c (if mbuf = none then { c with avail := c.avail - 1 } else c) :=
    .ite (.of_same rfl rfl)
  refine Walk.trans ?_ (.emit _ rfl (.inl rfl))
  refine Walk.trans ?_ (.ite (Walk.refl.rtoListAdd))
  refine Walk.trans ?_ (.modify _ rfl)
  refine Walk.trans ?_ (.ite ((Walk.modify _ rfl).trans (Walk.refl.timeoutListUpdate)))
  exact taken.trans (.modify _ rfl)

theorem sendTcpControlPacket_walks : Walk env may c (c.sendTcpControlPacket env).2 := by
  unfold sendTcpControlPacket
  cases c.st.state with
  | synRcvd => exact (Walk.modify c rfl).trans (sendTcpPacket_walks may env _ _ _ _)
  | closing =>
      dsimp only
      split
      · exact sendTcpPacket_walks may env c _ _ _
      · exact sendTcpPacket_walks may env c _ _ _
  | closed | listen => exact .refl
  | synSent | established | closeWait | finWait2 | timeWait | lastAck | finWait1 =>
      exact sendTcpPacket_walks may env c _ _ _

theorem refuseOutOfWindow_walks (seq : Seq) (m : SndMbuf) :
    Walk env may c (c.refuseOutOfWindow env seq m) := by
  unfold refuseOutOfWindow
  exact (Walk.ite (enqueueAck_walks may env c .wack)).trans (sendEventAdd_walks may env _ _)

theorem flushLoop_walks : ∀ (rounds packets : Nat) (c : Cx),
    Walk env may c (c.flushLoop env rounds packets).2 := by
  intro rounds
  induction rounds with
  | zero => exact fun packets c => .refl
  | succ rounds ih =>
      intro packets c
      rw [flushLoop]
      dsimp only
      split
      · exact .refl
      cases c.st.sndbuf.popWaiting with
      | mk popped b =>
        have taken : Walk env may c (c.setSndbuf b) := .modify c rfl
        cases popped with
        | none => exact taken
        | some m =>
            dsimp only
            split
            · exact taken.trans (ih _ _)
            split
            · exact taken.trans (refuseOutOfWindow_walks may env _ _ _)
            have sent := sendTcpPacket_walks may env (c.setSndbuf b) { ack := true } (some m.id)
              m.payloadLen
            generalize (c.setSndbuf b).sendTcpPacket env _ _ _ = result at sent ⊢
            obtain ⟨ret, c'⟩ := result
            dsimp only at sent ⊢
            split
            · exact taken.trans (sent.trans (exit_walks may env c'))
            · exact taken.trans (sent.trans ((Walk.modify c' rfl).trans (ih _ _)))

theorem writeTcpControlQueue_walks : Walk env may c (c.writeTcpControlQueue env) :=
  .ite ((Walk.modify c rfl).trans (sendTcpControlPacket_walks may env _))

theorem writeTcpSendQueue_walks : Walk env may c (c.writeTcpSendQueue env) := by
  have flushed : Walk env may c (c.flushTcpSendingBuffer env).2 := by
    unfold flushTcpSendingBuffer
    split
    · exact .refl
    split
    · exact .refl
    · exact flushLoop_walks may env _ _ c
  have served : ∀ result : Int × Cx, Walk env may c result.2 →
      Walk env may c (if result.1 ≤ 0 then result.2.controlQueueAdd env
        else (result.2.modify fun s =>
          { s with onSendQueue := false, ackCnt := s.ackCnt - result.1.toNat }).releaseControlWaiting
            env (result.2.modify fun s =>
              { s with onSendQueue := false, ackCnt := s.ackCnt - result.1.toNat }).st.onAckQueue) := by
    rintro ⟨ret, c'⟩ walk
    dsimp only
    split
    · exact walk.trans (controlQueueAdd_walks may env c')
    · exact walk.trans ((Walk.modify c' rfl).trans (releaseControlWaiting_walks may env _ _))
  unfold writeTcpSendQueue
  cases c.st.state with
  | established | closeWait | finWait1 | lastAck => exact served _ flushed
  | closed | listen | synSent | synRcvd | finWait2 | closing | timeWait =>
      exact served (failed, c) (.refl)

theorem sendAcks_walks : ∀ (pending : Nat) (c : Cx), Walk env may c (c.sendAcks env pending) := by
  intro pending
  induction pending with
  | zero => exact fun c => .refl
  | succ pending ih =>
      intro c
      rw [sendAcks]
      have sent := sendTcpPacket_walks may env c { ack := true } none 0
      generalize c.sendTcpPacket env _ _ _ = result at sent ⊢
      obtain ⟨ret, c'⟩ := result
      dsimp only at sent ⊢
      split
      · exact sent
      · exact sent.trans ((Walk.modify c' rfl).trans (ih _))

theorem sendWack_walks : Walk env may c (c.sendWack env) := by
  unfold sendWack
  split
  · have sent := sendTcpPacket_walks may env (c.modify fun s => { s with isWack := false })
      { ack := true, wack := true } none 0
    generalize (c.modify _).sendTcpPacket env _ _ _ = result at sent ⊢
    obtain ⟨ret, c'⟩ := result
    dsimp only at sent ⊢
    have walk := (@Walk.modify env may c (fun s => { s with isWack := false }) rfl).trans sent
    split
    · exact walk.trans (.modify c' rfl)
    · exact walk
  · exact .refl

theorem writeTcpAckQueue_walks : Walk env may c (c.writeTcpAckQueue env) := by
  refine .ite (Walk.trans ?_ (releaseControlWaiting_walks may env _ _))
  have off : Walk env may c (c.modify fun s => { s with onAckQueue := false }) := .modify c rfl
  cases (c.modify fun s => { s with onAckQueue := false }).st.state with
  | established | closeWait | finWait1 | finWait2 | timeWait =>
      exact off.trans ((sendAcks_walks may env _ _).trans (sendWack_walks may env _))
  | closed | listen | synSent | synRcvd | closing | lastAck => exact off.trans (.modify _ rfl)

/-! ## Acknowledgements and payload -/

section Parts

variable (seg : Segment)

theorem parseOptions_walks : Walk env may c (c.parseOptions env seg) := by
  rcases parseOptions_cases env seg c with hangs | ⟨o, parsed⟩
  · rw [hangs]
    exact .emit c rfl (.inl rfl)
  · rw [parsed]
    exact .modify c rfl

theorem fastRetransmit_walks (a : Seq) (retries : may.retries = true) :
    Walk env may c (c.fastRetransmit env a) := by
  unfold fastRetransmit
  dsimp only
  refine Walk.trans ?_ (sendEventAdd_walks may env _ _)
  refine Walk.trans ?_ (.recount _ (.retried retries))
  refine Walk.trans ?_ (.modify _ rfl)
  refine Walk.trans ?_ (.modify _ rfl)
  exact .ite ((Walk.modify c rfl).trans (.modify _ rfl))

theorem fastRetransmit_onRto (a : Seq) : (c.fastRetransmit env a).st.onRto = c.st.onRto := by
  unfold fastRetransmit sendEventAdd
  dsimp only
  generalize rolled : (if tcpSeqLt a c.st.sndNxt = true then _ else c) = c₁
  have same : c₁.st.onRto = c.st.onRto := by
    rw [← rolled]
    split <;> rfl
  rw [← same]
  split <;> rfl

theorem inflateWindow_walks : Walk env may c c.inflateWindow := by
  apply Walk.modify
  dsimp only
  split <;> rfl

theorem acceptAck_walks (a : Seq) (restarts : may.restarts = true) :
    Walk env may c (c.acceptAck env a) := by
  unfold acceptAck
  dsimp only
  split
  · exact .emit c rfl (.inl rfl)
  cases grown : growWindow _ c.st with
  | none => exact .emit c rfl (.inl rfl)
  | some s =>
      obtain ⟨cwnd, same⟩ := growWindow_eq grown
      subst same
      have freed (sndWnd : U32) (b : SndBuff) : Walk env may c (c.modify fun s =>
        { s with cwnd := cwnd, sndbuf := b, sndUna := a, sndWnd := sndWnd }) := .modify c rfl
      dsimp only
      split
      · exact (freed _ _).trans (Walk.refl.rtoListRemove restarts)
      · exact (freed _ _).trans (Walk.refl.rtoListRemove restarts).rtoListAdd

/-- `process_tcp_ack` up to the test for new data: the window, the duplicates and `snd_nxt`. -/
theorem processTcpAck_enters (few : c.st.acksTooMuch (c.st.adjustAck seg.ackSeq) = false)
    (retries : c.st.thirdDup seg = true → may.retries = true) :
    ∃ c₁, Walk env may c c₁ ∧ c₁.st.onRto = c.st.onRto ∧
      c.processTcpAck env seg =
        if c.st.acksNew seg then c₁.acceptAck env (c.st.adjustAck seg.ackSeq) else c₁ := by
  unfold processTcpAck TcpStream.acksNew
  unfold TcpStream.thirdDup at retries
  dsimp only at retries ⊢
  rw [few, if_neg Bool.false_ne_true]
  generalize c.st.adjustAck seg.ackSeq = a at retries ⊢
  generalize updated : c.modify (TcpStream.updateWindow _ _ _) = c₁
  have walk₁ : Walk env may c c₁ ∧ c₁.st.onRto = c.st.onRto ∧ c₁.st.sndbuf = c.st.sndbuf := by
    rw [← updated, modify_st]
    refine ⟨.modify c ?_, ?_⟩
    · unfold TcpStream.updateWindow
      split <;> rfl
    · unfold TcpStream.updateWindow
      split <;> exact ⟨rfl, rfl⟩
  rw [show c.st.updateWindow seg.seq a (c.st.advertisedBy seg) = c₁.st from by rw [← updated]; rfl]
    at retries
  generalize c₁.st.isDupAck _ _ _ = dup at retries ⊢
  generalize counted : c₁.modify (TcpStream.countDupAck dup a) = c₂
  have walk₂ : Walk env may c c₂ ∧ c₂.st.onRto = c.st.onRto ∧ c₂.st.sndbuf = c.st.sndbuf := by
    rw [← counted, modify_st, ← walk₁.2.1, ← walk₁.2.2]
    refine ⟨walk₁.1.trans (.modify c₁ ?_), ?_⟩
    · unfold TcpStream.countDupAck
      split <;> rfl
    · unfold TcpStream.countDupAck
      split <;> exact ⟨rfl, rfl⟩
  rw [show c₁.st.countDupAck dup a = c₂.st from by rw [← counted]; rfl] at retries
  generalize recovered : (if (dup && c₂.st.dupAcks == 3) = true then _ else _) = c₃
  have walk₃ : Walk env may c c₃ ∧ c₃.st.onRto = c.st.onRto ∧
      c₃.st.sndbuf.headSeq = c.st.sndbuf.headSeq := by
    rw [← recovered, ← walk₂.2.1, ← walk₂.2.2]
    split
    · rename_i third
      refine ⟨walk₂.1.trans (fastRetransmit_walks may env c₂ a (retries third)), ?_,
        fastRetransmit_head env c₂ a⟩
      exact fastRetransmit_onRto env c₂ a
    · refine ⟨walk₂.1.trans (.ite (inflateWindow_walks may env c₂)), ?_⟩
      unfold inflateWindow
      split
      · rw [modify_st]
        dsimp only
        split <;> exact ⟨rfl, rfl⟩
      · exact ⟨rfl, rfl⟩
  generalize caught : (if tcpSeqGt a c₃.st.sndNxt = true then _ else c₃) = c₄
  have walk₄ : Walk env may c c₄ ∧ c₄.st.onRto = c.st.onRto ∧
      c₄.st.sndbuf.headSeq = c.st.sndbuf.headSeq := by
    rw [← caught, ← walk₃.2.1, ← walk₃.2.2]
    refine ⟨walk₃.1.trans (.ite (.modify c₃ rfl)), ?_⟩
    split <;> exact ⟨rfl, rfl⟩
  refine ⟨c₄, walk₄.1, walk₄.2.1, ?_⟩
  rw [walk₄.2.2]
  cases tcpSeqGeq c.st.sndbuf.headSeq a <;> rfl

theorem processTcpAck_walks (acks : c.st.AckPermits may seg) :
    Walk env may c (c.processTcpAck env seg) := by
  cases few : c.st.acksTooMuch (c.st.adjustAck seg.ackSeq) with
  | true =>
      unfold processTcpAck
      dsimp only
      rw [few, if_pos rfl]
      exact .refl
  | false =>
      obtain ⟨c₁, walk, -, same⟩ := processTcpAck_enters may env c seg few (acks.retries few)
      rw [same]
      split
      · exact walk.trans (acceptAck_walks may env c₁ _ (acks.restarts few ‹_›))
      · exact walk

theorem payloadStored_walks (prev : Seq) (priority : Bool) (ret : Int) :
    Walk env may c (c.payloadStored prev priority ret).2 := by
  unfold payloadStored
  dsimp only
  generalize stored : c.modify _ = c₁
  have walk : Walk env may c c₁ := by
    rw [← stored]
    exact .modify c rfl
  have high : Walk env may c (if priority then c₁.raiseEvent (.read true) else c₁) :=
    walk.trans (.ite (raiseEvent_walks may env c₁ _))
  split
  · exact walk
  split
  · dsimp only
    generalize (if priority then c₁.raiseEvent (.read true) else c₁) = c₂ at high ⊢
    exact high.trans (.ite (raiseEvent_walks may env c₂ _))
  · exact walk

theorem processTcpPayload_walks : Walk env may c (c.processTcpPayload seg).2 := by
  unfold processTcpPayload
  dsimp only
  split
  · exact .refl
  split
  · exact .refl
  split
  · exact .emit c rfl (.inl rfl)
  · obtain ⟨wnd, irs, swapped⟩ := addHeadSwapped_eq seg.bufAddr
      (RcvMem.rbPut { toMbufMem := c.mem, buff := c.st.rcvbuf } seg.id).2 c
    rw [swapped]
    refine Walk.trans ?_ (payloadStored_walks may env _ _ _ _)
    exact .of_same rfl rfl

theorem establishedPayload_walks : Walk env may c (c.establishedPayload env seg) := by
  have payload := processTcpPayload_walks may env c seg
  unfold establishedPayload
  split
  · generalize c.processTcpPayload seg = result at payload ⊢
    obtain ⟨ret, c'⟩ := result
    refine payload.andThen ?_
    split
    · exact enqueueAck_walks may env c' _
    · exact enqueueAck_walks may env c' _
  · exact .refl

theorem closingPayload_walks : Walk env may c (c.closingPayload env seg) := by
  have payload := processTcpPayload_walks may env c seg
  unfold closingPayload
  split
  · generalize c.processTcpPayload seg = result at payload ⊢
    obtain ⟨ret, c'⟩ := result
    refine payload.andThen ?_
    split
    · exact enqueueAck_walks may env c' _
    · exact enqueueAck_walks may env c' _
  · exact .refl

/-! ## The handlers -/

theorem handleListen_walks : Walk env may c (c.handleListen env seg) :=
  .ite ((Walk.modify c rfl).trans (controlQueueAdd_walks may env _))

theorem handleActiveOpen_walks (restarts : may.restarts = true) :
    Walk env may c (c.handleActiveOpen env seg) := by
  unfold handleActiveOpen
  dsimp only
  refine Walk.andThen ((Walk.modify c rfl).trans (parseOptions_walks may env _ seg)) ?_
  refine Walk.trans ?_ (.emit _ rfl (.inl rfl))
  refine Walk.trans ?_ (.modify _ rfl)
  exact (Walk.recount _ (.restarted restarts)).trans (Walk.refl.rtoListRemove restarts)

theorem raiseAcceptEvent_walks : Walk env may c (c.raiseAcceptEvent env) := by
  unfold raiseAcceptEvent
  split
  · exact .emit c rfl (.inl rfl)
  dsimp only
  refine Walk.trans ?_ (.ite (.emit _ rfl (.inl rfl)))
  split
  · exact .emit c rfl (.inl rfl)
  · exact .modify c rfl

theorem handleSynRcvd_walks
    (restarts : seg.ack = true → seg.ackSeq = c.st.iss + 1 → may.restarts = true) :
    Walk env may c (c.handleSynRcvd env seg) := by
  unfold handleSynRcvd
  split
  · rename_i ack
    split
    · exact .refl
    · rename_i exact_
      have restarts := restarts ack (not_not.mp exact_)
      dsimp only
      refine Walk.trans ?_ (raiseAcceptEvent_walks may env _)
      refine Walk.trans ?_ (.emit _ rfl (.inl rfl))
      refine Walk.trans ?_ (.modify _ rfl)
      exact (Walk.recount c (.restarted restarts)).trans (Walk.refl.rtoListRemove restarts)
  · exact (Walk.modify c rfl).trans (controlQueueAdd_walks may env _)

/-- The handler opens the connection for no other segment. -/
theorem handleSynRcvd_opened (now : c.st.state = .synRcvd)
    (opened : (c.handleSynRcvd env seg).st.state = .established) :
    seg.ack = true ∧ seg.ackSeq = c.st.iss + 1 := by
  revert opened
  unfold handleSynRcvd
  split
  · rename_i ack
    split
    · rw [now]
      exact fun opened => by cases opened
    · rename_i exact_
      exact fun _ => ⟨ack, not_not.mp exact_⟩
  · intro opened
    have same : ((c.modify fun s => { s with sndNxt := s.iss }).controlQueueAdd env).st.state =
        c.st.state := congrArg (fun v : View => v.state) (view_controlQueueAdd env _)
    rw [same, now] at opened
    cases opened

theorem handleCloseWait_walks
    (acks : tcpSeqLt seg.seq c.st.rcvNxt = false → c.st.AckPermits may seg) :
    Walk env may c (c.handleCloseWait env seg) := by
  unfold handleCloseWait
  split
  · exact controlQueueAdd_walks may env c
  · exact processTcpAck_walks may env c seg (acks (Bool.eq_false_iff.mpr ‹_›))

theorem finInFinWait1_walks : Walk env may c (finInFinWait1 env seg c) := by
  refine .ite (Walk.trans ?_ (controlQueueAdd_walks may env _))
  have taken : Walk env may c (c.modify (TcpStream.takeFin seg)) := .modify c rfl
  cases (c.modify (TcpStream.takeFin seg)).st.state with
  | finWait1 => exact taken.trans (.modify _ rfl)
  | finWait2 =>
      exact taken.trans
        (@Walk.modify env may _ (fun s => { s with state := .timeWait }) rfl).timewaitListAdd
  | closed | listen | synSent | synRcvd | established | closeWait | closing | lastAck
  | timeWait => exact taken

/-- Our FIN is acknowledged in FIN_WAIT_1. -/
theorem finAcked_walks (restarts : may.restarts = true) :
    Walk env may c ((Cx.rtoListRemove (c.modify fun s =>
      { s with
        sndUna := seg.ackSeq
        sndNxt := if tcpSeqGt seg.ackSeq s.sndNxt then seg.ackSeq else s.sndNxt
        nrtx := 0 })).modify fun s => { s with state := .finWait2 }) := by
  refine Walk.trans ?_ (.modify _ rfl)
  exact (Walk.recount c (.restarted restarts)).trans (Walk.refl.rtoListRemove restarts)

theorem handleFinWait1_walks
    (acks : tcpSeqLt seg.seq c.st.rcvNxt = false → seg.ack = true → c.st.AckPermits may seg)
    (fins : tcpSeqLt seg.seq c.st.rcvNxt = false → seg.ack = true → c.st.isFinSent = true →
      seg.ackSeq = c.st.fss + 1 → may.restarts = true) :
    Walk env may c (c.handleFinWait1 env seg) := by
  unfold handleFinWait1
  split
  · exact controlQueueAdd_walks may env c
  split
  · rename_i fresh ack
    have fresh := Bool.eq_false_iff.mpr fresh
    refine (processTcpAck_walks may env c seg (acks fresh ack)).andRun fun running => ?_
    have core := congrArg View.toCore
      ((processTcpAck_view env seg c).resolve_left (by rw [running]; decide))
    have sent : (c.processTcpAck env seg).st.isFinSent = c.st.isFinSent :=
      (congrArg Core.isFinSent core).trans (Core.onAck_isFinSent _ _ _)
    have fss : (c.processTcpAck env seg).st.fss = c.st.fss :=
      (congrArg Core.fss core).trans (Core.onAck_fss _ _ _)
    dsimp only
    refine Walk.trans ?_ ((closingPayload_walks may env _ seg).andThen
      (finInFinWait1_walks may env _ seg))
    split
    · rename_i finAcked
      rw [sent, fss, Bool.and_eq_true, beq_iff_eq] at finAcked
      exact finAcked_walks may env _ seg (fins fresh ack finAcked.1 finAcked.2)
    · exact .refl
  · exact .refl

theorem finInFinWait2_walks : Walk env may c (finInFinWait2 env seg c) := by
  refine .ite (Walk.trans ?_ (controlQueueAdd_walks may env _))
  exact (Walk.modify c rfl).timewaitListAdd

theorem handleFinWait2_walks (acks : seg.ack = true → c.st.AckPermits may seg) :
    Walk env may c (c.handleFinWait2 env seg) := by
  unfold handleFinWait2
  split
  · exact (processTcpAck_walks may env c seg (acks ‹_›)).andThen
      ((closingPayload_walks may env _ seg).andThen (finInFinWait2_walks may env _ seg))
  · exact .refl

/-- Our FIN is acknowledged in CLOSING. -/
theorem closingAcked_walks : Walk env may c
    (if !c.st.isFinSent then c
      else if seg.ackSeq ≠ c.st.fss + 1 then c
      else (c.modify fun s =>
        { s with sndUna := seg.ackSeq, sndNxt := seg.ackSeq, state := .timeWait }).timewaitListAdd
          env) := by
  split
  · exact .refl
  split
  · exact .refl
  · exact (Walk.modify c rfl).timewaitListAdd

theorem handleClosing_walks (acks : seg.ack = true → c.st.AckPermits may seg) :
    Walk env may c (c.handleClosing env seg) := by
  unfold handleClosing
  split
  · exact (processTcpAck_walks may env c seg (acks ‹_›)).andThen (closingAcked_walks may env _ seg)
  · exact .refl

theorem finInEstablished_walks : Walk env may c (finInEstablished env seg c) := by
  refine .ite ?_
  split
  · refine Walk.trans ?_ (controlQueueAdd_walks may env _)
    exact (raiseEvent_walks may env c _).trans (.modify _ rfl)
  · exact enqueueAck_walks may env c _

/-- Payload is stored before the acknowledgement is processed, and does not change what it is. -/
theorem establishedPayload_acks (running : (c.establishedPayload env seg).view.halted = false) :
    (c.establishedPayload env seg).st.core = c.st.core ∧
      (c.establishedPayload env seg).st.thirdDup seg = c.st.thirdDup seg := by
  obtain ⟨r, view⟩ := (establishedPayload_view env seg c).resolve_left (by rw [running]; decide)
  have core : (c.establishedPayload env seg).st.core = c.st.core := congrArg View.toCore view
  exact ⟨core, TcpStream.thirdDup_of_ackVars seg core (ackVars_establishedPayload env seg c)⟩

theorem handleEstablished_walks
    (acks : seg.syn = false → seg.ack = true → c.st.AckPermits may seg) :
    Walk env may c (c.handleEstablished env seg) := by
  unfold handleEstablished
  split
  · exact controlQueueAdd_walks may env c
  · rename_i syn
    refine (establishedPayload_walks may env c seg).andRun fun running => ?_
    obtain ⟨core, dup⟩ := establishedPayload_acks env c seg running
    refine Walk.andThen ?_ (finInEstablished_walks may env _ seg)
    split
    · exact processTcpAck_walks may env _ seg
        ((acks (Bool.eq_false_iff.mpr syn) ‹_›).congr core dup)
    · exact .refl

theorem handleTimeWait_walks : Walk env may c (c.handleTimeWait env) :=
  (Walk.ite Walk.refl.timewaitListRenew).trans (controlQueueAdd_walks may env _)

theorem checkSequenceValidation_walks : Walk env may c (c.checkSequenceValidation env seg).2 := by
  unfold checkSequenceValidation
  dsimp only
  split
  · exact .refl
  split
  · exact .refl
  split
  · split
    · exact enqueueAck_walks may env c .aggregate
    · split
      · exact enqueueAck_walks may env c .aggregate
      · exact enqueueAck_walks may env c .now
  · exact (Walk.ite (Walk.refl.timewaitListAdd)).trans (controlQueueAdd_walks may env _)

theorem receive_walks : Walk env may c (c.receive seg) := .of_same rfl rfl

end Parts

/-! ## Functions that may destroy the stream -/

theorem tcpStreamDestroy_walks (destroys : may.destroys = true) :
    Walk env may c c.tcpStreamDestroy := .emit c rfl (.inr destroys)

section Ends

variable (seg : Segment)

theorem handleRst_walks (destroys : may.destroys = true) : Walk env may c (c.handleRst seg) := by
  unfold handleRst
  cases c.st.state with
  | synRcvd => exact .ite ((Walk.modify c rfl).trans (tcpStreamDestroy_walks may env _ destroys))
  | finWait1 | finWait2 | lastAck | closing | timeWait =>
      exact (Walk.modify c rfl).trans (tcpStreamDestroy_walks may env _ destroys)
  | closed | listen | synSent | established | closeWait =>
      dsimp only
      split
      · exact .refl
      · exact (Walk.modify c rfl).trans (raiseEvent_walks may env _ _)

/-- Our FIN is acknowledged in LAST_ACK. -/
theorem lastAcked_walks (destroys : may.destroys = true) : Walk env may c
    (if !c.st.isFinSent then c
      else if seg.ackSeq = c.st.fss + 1 then
        (c.modify fun s =>
          { s with
            sndUna := s.sndUna + 1
            state := .closed
            closeReason := .passiveClose }).tcpStreamDestroy
      else c.controlQueueAdd env) := by
  split
  · exact .refl
  split
  · exact (Walk.modify c rfl).trans (tcpStreamDestroy_walks may env _ destroys)
  · exact controlQueueAdd_walks may env c

theorem handleLastAck_walks (destroys : may.destroys = true)
    (acks : tcpSeqLt seg.seq c.st.rcvNxt = false → seg.ack = true → c.st.AckPermits may seg) :
    Walk env may c (c.handleLastAck env seg) := by
  unfold handleLastAck
  split
  · exact .refl
  split
  · exact (processTcpAck_walks may env c seg (acks (Bool.eq_false_iff.mpr ‹_›) ‹_›)).andThen
      (lastAcked_walks may env _ seg destroys)
  · exact controlQueueAdd_walks may env c

theorem handleSynSent_walks (destroys : may.destroys = true)
    (opens : c.st.acceptsSynAck seg = true → seg.rst = false → seg.syn = true →
      may.restarts = true) :
    Walk env may c (c.handleSynSent env seg) := by
  unfold handleSynSent
  split
  · split
    · exact .refl
    · exact exit_walks may env c
  rename_i fits
  dsimp only
  generalize counted : (if seg.ack = true then c.modify _ else c) = c₁
  have walk : Walk env may c c₁ := by
    rw [← counted]
    exact .ite (.modify c rfl)
  split
  · split
    · refine walk.trans ?_
      split
      · exact (Walk.modify c₁ rfl).trans (raiseEvent_walks may env _ _)
      · exact (Walk.modify c₁ rfl).trans (tcpStreamDestroy_walks may env _ destroys)
    · exact walk
  rename_i run
  split
  · rename_i syn
    split
    · rename_i ack
      have restarts : may.restarts = true := by
        refine opens ?_ (Bool.eq_false_iff.mpr run) syn
        rw [ack, Bool.true_and, Bool.or_eq_true, not_or] at fits
        simp [TcpStream.acceptsSynAck, ack, fits.1, fits.2]
      refine walk.trans ((handleActiveOpen_walks may env c₁ seg restarts).andThen ?_)
      generalize c₁.handleActiveOpen env seg = c₂
      split
      · exact ((raiseEvent_walks may env c₂ _).trans
          (controlQueueAdd_walks may env _)).timeoutListAdd destroys
      · exact exit_walks may env c₂
    · exact walk.trans ((Walk.modify c₁ rfl).trans (controlQueueAdd_walks may env _))
  · exact walk

theorem handleSegment_walks (handles : c.st.Handles may seg)
    (kept : TcpState.synSent.val < c.st.state.val → seg.rst = false) :
    Walk env may c (c.handleSegment env seg) := by
  obtain ⟨destroys, opens, acks, fins⟩ := handles
  unfold TcpStream.opensWith at opens
  unfold TcpStream.handlesAck at acks fins
  unfold handleSegment
  cases now : c.st.state with
  | lastAck =>
      rw [now] at acks
      refine handleLastAck_walks may env c seg destroys fun fresh ack => acks ?_
      simp [fresh, ack]
  | synSent =>
      rw [now] at opens
      refine handleSynSent_walks may env c seg destroys fun fits run syn => opens run ?_
      simp [fits, syn]
  | listen => exact handleListen_walks may env c seg
  | synRcvd =>
      rw [now] at opens kept
      dsimp only
      split
      · exact handleListen_walks may env c seg
      · rename_i other
        have restarts (ack : seg.ack = true) (exact_ : seg.ackSeq = c.st.iss + 1) :
            may.restarts = true := by
          refine opens (kept (by decide)) ?_
          simp [Bool.eq_false_iff.mpr other, ack, exact_]
        refine (handleSynRcvd_walks may env c seg restarts).andThen ?_
        split
        · rename_i late
          obtain ⟨ack, exact_⟩ := handleSynRcvd_opened env c seg now late.2
          refine handleEstablished_walks may env _ seg fun _ _ =>
            ⟨fun _ _ => restarts ack exact_, ?_⟩
          -- a segment with payload is no duplicate
          intro _ third
          rw [TcpStream.thirdDup_eq, beq_eq_false_iff_ne.mpr late.1.ne'] at third
          simp at third
        · exact .refl
  | established =>
      rw [now] at acks
      refine handleEstablished_walks may env c seg fun syn ack => acks ?_
      simp [syn, ack]
  | closeWait =>
      rw [now] at acks
      refine handleCloseWait_walks may env c seg fun fresh => acks ?_
      simp [fresh]
  | finWait1 =>
      rw [now] at acks fins
      refine handleFinWait1_walks may env c seg (fun fresh ack => acks ?_)
        fun fresh ack sent exact_ => fins ?_ ?_
      · simp [fresh, ack]
      · simp [fresh, ack]
      · simp [TcpStream.acksFin, now, sent, exact_]
  | finWait2 =>
      rw [now] at acks
      exact handleFinWait2_walks may env c seg acks
  | closing =>
      rw [now] at acks
      exact handleClosing_walks may env c seg acks
  | timeWait => exact handleTimeWait_walks may env c
  | closed => exact .refl

/-- What follows the update of `timeout_list`. -/
theorem acceptSegment_walks (destroys : may.destroys = true)
    (handles : ∀ c₁ : Cx, Ready c.st seg c₁ →
      (TcpState.synSent.val < c.st.state.val → seg.rst = false) → c₁.st.Handles may seg) :
    Walk env may
      ((c.modify fun s => { s with peerWnd := s.advertisedBy seg }).timeoutListUpdate env)
      (c.acceptSegment env seg) := by
  unfold acceptSegment
  dsimp only
  have st₁ := timeoutListUpdate_st env (c.modify fun s => { s with peerWnd := s.advertisedBy seg })
  generalize timeoutListUpdate env _ = c₁ at st₁ ⊢
  generalize noted : (if seg.rst = true then _ else c₁) = c₂
  have st₂ : ∃ reset, c₂.st = { c₁.st with haveReset := reset } := by
    rw [← noted]
    split
    · exact ⟨true, rfl⟩
    · exact ⟨c₁.st.haveReset, rfl⟩
  have walk : Walk env may c₁ c₂ := by
    rw [← noted]
    exact .ite (.modify c₁ rfl)
  obtain ⟨reset, st₂⟩ := st₂
  rw [st₁] at st₂
  have ready : Ready c.st seg c₂ := by
    refine ⟨by rw [st₂]; rfl, by rw [st₂]; rfl, ?_⟩
    refine TcpStream.thirdDup_congr seg ?_ ?_ ?_ ?_ ?_ ?_ ?_
    all_goals rw [st₂]; rfl
  have now : c₂.st.state = c.st.state := congrArg Core.state ready.core
  split
  · exact walk.trans (handleRst_walks may env c₂ seg destroys)
  · rename_i run
    rw [now] at run
    have kept : TcpState.synSent.val < c.st.state.val → seg.rst = false := by
      intro beyond
      rw [decide_eq_true beyond, Bool.and_true] at run
      exact Bool.eq_false_iff.mpr run
    refine walk.trans (handleSegment_walks may env c₂ seg (handles c₂ ready kept) ?_)
    rw [now]
    exact kept

theorem accept_walks (destroys : may.destroys = true)
    (handles : ∀ c₁ : Cx, Ready c.st seg c₁ →
      (TcpState.synSent.val < c.st.state.val → seg.rst = false) → c₁.st.Handles may seg) :
    Walk env may c (c.acceptSegment env seg) :=
  Walk.trans (Walk.modify c rfl).timeoutListUpdate
    (acceptSegment_walks may env c seg destroys handles)

theorem validateSegment_walks (permits : c.st.Permits may seg) :
    Walk env may c (c.validateSegment env seg) := by
  unfold validateSegment
  split
  · have checked := checkSequenceValidation_walks may env c seg
    rcases checkSequenceValidation_cases env seg c with ⟨passed, inSeq⟩ | ⟨failed, -⟩
    · rw [passed]
      exact accept_walks may env c seg permits.destroys fun c₁ ready kept =>
        permits.handles (fun _ => inSeq) ready kept
    · generalize c.checkSequenceValidation env seg = result at checked failed ⊢
      obtain ⟨ok, c₁⟩ := result
      dsimp only at failed
      subst failed
      exact checked
  · rename_i early
    exact accept_walks may env c seg permits.destroys fun c₁ ready kept =>
      permits.handles (fun late => absurd late early) ready kept

/-- A segment is stamped with the time on its way to the sequence check, unless its options hang. -/
theorem processSegment_walks (permits : c.st.Permits may seg) : ∃ c₁, Walk env may c c₁ ∧
    (c.processSegment env seg = c₁ ∨
      (c.processSegment env seg =
        (c₁.modify fun s => { s with lastActiveTs := env.curTs }).validateSegment env seg ∧
      (c₁.modify fun s => { s with lastActiveTs := env.curTs }).st.Permits may seg)) := by
  unfold processSegment
  dsimp only
  generalize noted :
    (if (seg.syn && (c.receive seg).st.state != .synSent) = true then _ else _) = c₁
  have read : c₁ = (c.receive seg).emit (.halt .hang) ∨ (Walk env may c c₁ ∧
      ∃ o, c₁.st = c.st.withOptions o ∧ (seg.syn = false → o.wscalePeer = c.st.wscalePeer)) := by
    rw [← noted]
    split
    · rename_i parses
      rcases parseOptions_cases env seg (c.receive seg) with hangs | ⟨o, parsed⟩
      · exact .inl hangs
      · rw [parsed]
        refine .inr ⟨.of_same rfl rfl, o, rfl, fun none => ?_⟩
        rw [none] at parses
        cases parses
    · obtain ⟨o, same⟩ := c.st.withOptions_self
      exact .inr ⟨.of_same rfl rfl, o, same, fun _ => (congrArg TcpStream.wscalePeer same).symm⟩
  rcases read with hangs | ⟨walk, o, st, scale⟩
  · refine ⟨c₁, ?_, .inl ?_⟩
    · rw [hangs]
      exact (receive_walks may env c seg).trans (.emit _ rfl (.inl rfl))
    · rw [hangs]
      rfl
  · refine ⟨c₁, walk, Or.imp And.right (fun next => ⟨next.2, ?_⟩) (andThen_cases c₁ _)⟩
    rw [modify_st, st]
    exact permits.optioned o env.curTs scale

theorem passiveOpen_walks (destroys : may.destroys = true) : ∃ c₁, Walk env may c c₁ ∧
    c₁.st.state = c.st.state ∧
    (c.passiveOpen env seg = c₁ ∨ c.passiveOpen env seg =
      (c₁.modify fun s => { s with listener := true, lastActiveTs := env.curTs }).acceptSegment env
        seg) := by
  unfold passiveOpen
  dsimp only
  refine ⟨_, ((receive_walks may env c seg).timeoutListAdd destroys).trans ((Walk.modify _ ?_).trans
    (parseOptions_walks may env _ seg)), ?_, Or.imp And.right And.right (andThen_cases _ _)⟩
  · rfl
  · generalize waiting : ((c.receive seg).timeoutListAdd env).modify _ = c₁
    have same : c₁.st.state = c.st.state := by
      rw [← waiting]
      exact congrArg (fun v : View => v.state) (view_timeoutListAdd env (c.receive seg))
    rcases parseOptions_cases env seg c₁ with hangs | ⟨o, parsed⟩
    · rw [hangs]
      exact same
    · rw [parsed]
      exact same

end Ends

/-- `tcp_stream_destroy` is the last thing that the close call does. -/
theorem handleCloseCall_leads : ∃ c₁, Walk env may c c₁ ∧
    (c.handleCloseCall env = c₁ ∨ c.handleCloseCall env = c₁.tcpStreamDestroy) := by
  unfold handleCloseCall
  dsimp only
  generalize noted : c.modify _ = c₁
  have walk : Walk env may c c₁ := by
    rw [← noted]
    exact .modify c rfl
  split
  · split
    · exact ⟨c₁, walk, .inl rfl⟩
    · exact ⟨_, walk.trans (.modify c₁ rfl), .inr rfl⟩
  · refine ⟨_, walk.trans ?_, .inl rfl⟩
    cases c₁.st.state with
    | closed => exact exit_walks may env c₁
    | established | closeWait =>
        exact (Walk.modify c₁ rfl).trans (controlQueueAdd_walks may env _)
    | listen | synSent | synRcvd | finWait1 | finWait2 | closing | lastAck | timeWait =>
        exact controlQueueAdd_walks may env c₁

theorem handleCloseCall_walks (destroys : may.destroys = true) :
    Walk env may c (c.handleCloseCall env) := by
  obtain ⟨c₁, walk, same | destroyed⟩ := handleCloseCall_leads may env c
  · rw [same]
    exact walk
  · rw [destroyed]
    exact walk.trans (tcpStreamDestroy_walks may env c₁ destroys)

/-! ## Calls of the application -/

/-- `handle_rto` sets the time-out and retransmits, or destroys the stream. -/
theorem handleRto_walks :
    (c.st.nrtx < tcpMaxRtx ∧ ∃ c₁ : Cx, c₁.out = c.out ∧
      c₁.st.clockSide = { c.st.clockSide with
        rto := tcpInitialRto <<< (c.st.nrtx + 1), nrtx := c.st.nrtx + 1 } ∧
      Walk env may c₁ (c.handleRto env)) ∨
    (tcpMaxRtx ≤ c.st.nrtx ∧ ∃ c₁ : Cx, c₁.out = c.out ∧ c₁.st.clockSide = c.st.clockSide ∧
      c.handleRto env = c₁.tcpStreamDestroy) := by
  unfold handleRto
  split
  · rename_i below
    refine .inl ⟨below, ?_⟩
    dsimp only
    generalize rolled : modify (c.modify _) _ = c₁
    have start : c₁.out = c.out ∧ c₁.st.clockSide = { c.st.clockSide with
        rto := tcpInitialRto <<< (c.st.nrtx + 1), nrtx := c.st.nrtx + 1 } := by
      rw [← rolled]
      exact ⟨rfl, rfl⟩
    refine ⟨c₁, start.1, start.2, ?_⟩
    have again : Walk env may c₁
        ((c₁.setSndbuf c₁.st.sndbuf.sbResetRetrans.2).sendEventAdd env false) :=
      (Walk.modify c₁ rfl).trans (sendEventAdd_walks may env _ _)
    have control : Walk env may c₁ (c₁.controlQueueAdd env) := controlQueueAdd_walks may env c₁
    cases c₁.st.state with
    | established => exact again
    | finWait1 | closing | lastAck =>
        dsimp only
        split
        · exact exit_walks may env c₁
        split
        · exact again
        · exact control
    | closed | listen | synSent | synRcvd | finWait2 | closeWait | timeWait => exact control
  · exact .inr ⟨Nat.le_of_not_lt ‹_›, c.modify _, rfl, rfl, rfl⟩

theorem handleConnectCall_walks : Walk env may c (c.handleConnectCall env) :=
  (Walk.modify c rfl).trans (controlQueueAdd_walks may env _)

theorem tcpStreamClose_walks : Walk env may c c.tcpStreamClose.2 := by
  unfold tcpStreamClose
  split
  · exact .refl
  · dsimp only
    split
    · exact .of_same rfl rfl
    · exact .of_same rfl rfl
    · exact .of_same rfl rfl

theorem qTcpSend_walks (m : SndMbuf) (len : U32) (highPri : Bool) :
    Walk env may c (c.qTcpSend env m len highPri).2 := by
  unfold qTcpSend
  split
  · exact exit_walks may env c
  dsimp only
  split
  · exact .refl
  split
  · exact .refl
  generalize SndMbuf.mk _ _ _ _ _ = m'
  have stored : Walk env may c (c.sendFromUser m').2 := by
    unfold sendFromUser
    split
    · exact .refl
    · generalize c.st.sndbuf.sbPut m' = result
      obtain ⟨ret, b⟩ := result
      dsimp only
      split
      · exact .of_same rfl rfl
      · exact .of_same rfl rfl
  generalize c.sendFromUser m' = result at stored ⊢
  obtain ⟨ret, c₁⟩ := result
  exact stored.trans (.ite (sendEventAdd_walks may env c₁ highPri))

theorem qRecv_walks : Walk env may c c.qRecv := by
  unfold qRecv
  split
  · exact .refl
  split
  · exact .refl
  generalize RcvMem.qRecv _ = result
  obtain ⟨id, w⟩ := result
  dsimp only
  split
  · exact exit_walks may env c
  · exact .of_same rfl rfl

end Functions

end Cx

end QStack
