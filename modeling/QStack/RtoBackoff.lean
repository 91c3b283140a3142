/-
# QStack.RtoBackoff -- the retransmission time-out and its exponent

`rto_list_add` takes its deadline from `rto`, which is written in two places only: at creation, and
in `handle_rto`, as `TCP_INITIAL_RTO << nrtx`.  The exponent `nrtx` follows other events: the third
duplicate adds to it, leaving the RTO list resets it.  `backoff_law` is what remains of the backoff
rule: the deadlines follow the number of expiries as long as nothing new is acknowledged after an
expiry, and no timer expires while a fast retransmission is counted in `nrtx`.
-/
import QStack.Walks
import QStack.Lib.Run

namespace QStack

set_option autoImplicit false

/-! ## What links a stream -/

def Effect.isRtoInsert : Effect → Bool
  | .rtoInsert => true
  | _ => false

namespace Cx

/-- How often `rto_list_add` has linked the stream. -/
def links (c : Cx) : Nat := c.out.countP Effect.isRtoInsert

/-- `rto` stays, and whoever links the stream sets the deadline by it. -/
structure Arms (env : Env) (c c' : Cx) : Prop where
  rto : c'.st.rto = c.st.rto
  deadline : (c'.links = c.links ∧ c'.st.tsRto = c.st.tsRto) ∨
    c'.st.tsRto = env.curTs + c.st.rto

section Rules

variable {env : Env} {may : Permit} {c c' c'' : Cx}

theorem Arms.refl (env : Env) (c : Cx) : Arms env c c := ⟨rfl, .inl ⟨rfl, rfl⟩⟩

/-- Nothing is linked, and the deadline is not touched. -/
theorem Arms.still (first : Arms env c c') (rto : c''.st.rto = c'.st.rto)
    (tsRto : c''.st.tsRto = c'.st.tsRto) (links : c''.links = c'.links) : Arms env c c'' := by
  refine ⟨rto.trans first.rto, first.deadline.imp (fun same => ?_) tsRto.trans⟩
  exact ⟨links.trans same.1, tsRto.trans same.2⟩

theorem Arms.trans (first : Arms env c c') (second : Arms env c' c'') : Arms env c c'' := by
  rcases second.deadline with ⟨links, tsRto⟩ | deadline
  · exact first.still second.rto tsRto links
  · exact ⟨second.rto.trans first.rto, .inr (by rw [deadline, first.rto])⟩

theorem links_emit (c : Cx) {e : Effect} (other : e.isRtoInsert = false) :
    (c.emit e).links = c.links := by
  rw [links, emit, List.countP_cons_of_neg (by rw [other]; exact Bool.false_ne_true), links]

theorem Arms.emits (first : Arms env c c') {e : Effect} (other : e.isRtoInsert = false) :
    Arms env c (c'.emit e) := first.still rfl rfl (links_emit c' other)

theorem Arms.modify (first : Arms env c c') {f : TcpStream → TcpStream}
    (rto : (f c'.st).rto = c'.st.rto) (tsRto : (f c'.st).tsRto = c'.st.tsRto) :
    Arms env c (c'.modify f) := first.still rto tsRto rfl

theorem Arms.rtoListRemove (first : Arms env c c') : Arms env c c'.rtoListRemove := by
  unfold Cx.rtoListRemove
  split
  · exact (first.modify rfl rfl).emits rfl
  · exact first

theorem Arms.timewaitListAdd (first : Arms env c c') : Arms env c (c'.timewaitListAdd env) := by
  unfold Cx.timewaitListAdd
  dsimp only
  have stamped : Arms env c (c'.modify fun s =>
      { s with tsTwExpire := env.curTs + tcpTimewait }) := first.modify rfl rfl
  split
  · exact (stamped.emits rfl).emits rfl
  · exact (stamped.rtoListRemove.modify rfl rfl).emits rfl

theorem Arms.timewaitListRemove (first : Arms env c c') : Arms env c c'.timewaitListRemove := by
  unfold Cx.timewaitListRemove
  split
  · exact (first.modify rfl rfl).emits rfl
  · exact first

theorem Walk.arms (walk : Walk env may c c') : Arms env c c' := by
  induction walk with
  | refl => exact .refl env c
  | work _ out clock ih =>
      exact ih.still (congrArg ClockSide.rto clock.eq) (congrArg ClockSide.tsRto clock.eq)
        (congrArg (List.countP Effect.isRtoInsert) out)
  | @emits c' _ e plain _ ih =>
      refine ih.still rfl rfl (links_emit _ ?_)
      revert plain
      cases e <;> simp [Effect.isTimer, Effect.isRtoInsert]
  | @rtoListAdd c' _ ih =>
      unfold Cx.rtoListAdd
      dsimp only
      split
      · exact ih
      · have deadline : env.curTs + c'.st.rto = env.curTs + c.st.rto := by rw [ih.rto]
        split
        · exact ⟨ih.rto, .inr deadline⟩
        · exact ⟨ih.rto, .inr deadline⟩
  | rtoListRemove _ _ ih => exact ih.rtoListRemove
  | timewaitListAdd _ ih => exact ih.timewaitListAdd
  | timewaitListRenew _ ih => exact ih.timewaitListRemove.timewaitListAdd
  | @timeoutListAdd c' _ _ ih =>
      unfold Cx.timeoutListAdd
      dsimp only
      split
      · exact ih.modify rfl rfl
      · exact ((ih.modify rfl rfl).modify rfl rfl).emits rfl
  | @timeoutListUpdate c' _ ih =>
      unfold Cx.timeoutListUpdate
      dsimp only
      have stamped : Arms env c (c'.modify fun s => { s with lastActiveTs := env.curTs }) :=
        ih.modify rfl rfl
      split
      · exact (stamped.emits rfl).emits rfl
      · exact stamped

end Rules

section Functions

variable (env : Env) (c : Cx)

theorem processSegment_arms (seg : Segment) : Arms env c (c.processSegment env seg) := by
  obtain ⟨c₁, walk, same | ⟨stamped, permits⟩⟩ :=
    processSegment_walks .all env c seg (.all c.st seg)
  · rw [same]
    exact walk.arms
  · rw [stamped]
    exact (walk.arms.modify rfl rfl).trans (validateSegment_walks .all env _ seg permits).arms

theorem passiveOpen_arms (seg : Segment) : Arms env c (c.passiveOpen env seg) := by
  obtain ⟨c₁, walk, -, same | stamped⟩ := passiveOpen_walks .all env c seg rfl
  · rw [same]
    exact walk.arms
  · rw [stamped]
    exact (walk.arms.modify rfl rfl).trans
      (accept_walks .all env _ seg rfl fun c₂ _ _ => .all c₂.st seg).arms

end Functions

/-! ## What counts the retransmissions -/

end Cx

/-- `nrtx` is `k`, or the stream waits in TIME_WAIT and no timer will be armed for it again. -/
def TcpStream.Retried (s : TcpStream) (k : Nat) : Prop :=
  s.nrtx = k ∨ (s.onTimewaitList = true ∧ s.onRto = false)

/-- `nrtx` may be set to 0, but no retransmission is counted. -/
def Permit.settling : Permit := { retries := false }

/-- `nrtx` stays. -/
def Permit.calm : Permit := { restarts := false, retries := false }

theorem TcpStream.Retried.still {s s' : TcpStream} {k : Nat} (retried : s.Retried k)
    (nrtx : s'.nrtx = s.nrtx) (timewait : s'.onTimewaitList = s.onTimewaitList)
    (rto : s'.onRto = s.onRto) : s'.Retried k :=
  retried.imp nrtx.trans fun waits => ⟨timewait.trans waits.1, rto.trans waits.2⟩

theorem TcpStream.Retried.of_clock {s s' : TcpStream} {may : Permit} {k : Nat}
    (retried : s.Retried k)
    (recounts : may.Recounts s.clockSide s'.clockSide) (restarts : may.restarts = true → k = 0)
    (retries : may.retries = true → tcpMaxRtx ≤ k) : s'.Retried k := by
  have flags := congrArg ClockSide.flags recounts.eq
  have timewait : s'.onTimewaitList = s.onTimewaitList := congrArg TimerFlags.timewait flags
  have rto : s'.onRto = s.onRto := congrArg TimerFlags.rto flags
  refine retried.imp (fun count => ?_) fun waits => ⟨timewait.trans waits.1, rto.trans waits.2⟩
  have moved : ∀ {clock clock' : ClockSide}, may.Recounts clock clock' → clock.nrtx = k →
      clock'.nrtx = k := by
    rintro clock clock' (_ | restarted | retried) same
    · exact same
    · exact (restarts restarted).symm
    · have many := retries retried
      rw [← same] at many
      exact (if_neg (Nat.not_lt.mpr many)).trans same
  exact moved recounts count

namespace Cx

section Retries

variable {env : Env} {may : Permit} {c c' : Cx} {k : Nat}

theorem timewaitListAdd_waits (env : Env) (c : Cx) (off : c.st.onTimewaitList = false) :
    (c.timewaitListAdd env).st.onTimewaitList = true ∧
      (c.timewaitListAdd env).st.onRto = false := by
  unfold timewaitListAdd Cx.rtoListRemove
  dsimp only
  rw [if_neg (by rw [modify_st]; exact Bool.eq_false_iff.mp off)]
  split
  · exact ⟨rfl, rfl⟩
  · rename_i unlisted
    exact ⟨rfl, by simpa using unlisted⟩

/-- **The count of retransmissions along a walk.** -/
theorem Walk.retried (walk : Walk env may c c') (restarts : may.restarts = true → k = 0)
    (retries : may.retries = true → tcpMaxRtx ≤ k) (retried : c.st.Retried k) :
    c'.st.Retried k := by
  induction walk with
  | refl => exact retried
  | work _ _ clock ih => exact ih.of_clock clock restarts retries
  | emits _ _ _ ih => exact ih
  | rtoListAdd _ ih =>
      unfold Cx.rtoListAdd
      dsimp only
      split
      · exact ih
      split
      · exact ih
      · rename_i free
        refine ih.imp id fun waits => absurd waits.1 free
  | rtoListRemove _ allowed ih =>
      unfold Cx.rtoListRemove
      split
      · have none := restarts allowed
        subst none
        exact .inl rfl
      · exact ih
  | @timewaitListAdd c' _ ih =>
      by_cases on : c'.st.onTimewaitList = true
      · unfold Cx.timewaitListAdd
        dsimp only
        split
        · rw [emit_st, emit_st, modify_st]
          exact ih.still rfl rfl rfl
        · rename_i off
          simp [on] at off
      · exact .inr (timewaitListAdd_waits env c' (Bool.eq_false_iff.mpr on))
  | @timewaitListRenew c' _ ih =>
      refine .inr (timewaitListAdd_waits env _ ?_)
      unfold Cx.timewaitListRemove
      split
      · rfl
      · rename_i off
        simpa using off
  | timeoutListAdd _ _ ih =>
      unfold Cx.timeoutListAdd
      dsimp only
      split <;> exact ih
  | timeoutListUpdate _ ih =>
      unfold Cx.timeoutListUpdate
      dsimp only
      split <;> exact ih

end Retries

/-! ## An acknowledgement of new data -/

/-- The process has ended, or `nrtx` is 0. -/
def Settled (c : Cx) : Prop := c.view.halted = true ∨ c.st.Retried 0

section Settling

variable {env : Env} {seg : Segment} {c c' : Cx}

theorem Settled.walk (settled : c.Settled) (running : c.view.halted = false)
    (walk : Walk env .settling c c') : c'.Settled :=
  .inr (walk.retried (fun _ => rfl) nofun (settled.resolve_left (by rw [running]; decide)))

theorem Settled.andThen (env : Env) {f : Cx → Cx} (settled : c.Settled)
    (walk : Walk env .settling c (f c)) : (c.andThen f).Settled := by
  rcases andThen_cases c f with ⟨halted, next⟩ | ⟨running, next⟩
  · rw [next]
    exact .inl halted
  · rw [next]
    exact settled.walk running walk

theorem acceptAck_settles (env : Env) (c : Cx) (a : Seq) (on : c.st.onRto = true) :
    (c.acceptAck env a).Settled := by
  unfold acceptAck
  dsimp only
  split
  · exact .inl rfl
  cases grown : growWindow _ c.st with
  | none => exact .inl rfl
  | some s =>
      obtain ⟨cwnd, same⟩ := growWindow_eq grown
      subst same
      have removed (c₁ : Cx) (listed : c₁.st.onRto = true) : c₁.rtoListRemove.st.Retried 0 := by
        unfold rtoListRemove
        rw [if_pos listed]
        exact .inl rfl
      dsimp only
      split
      · exact .inr (removed _ on)
      · exact .inr ((Walk.refl : Walk env .calm _ _).rtoListAdd.retried nofun nofun
          (removed _ on))

theorem processTcpAck_settles (on : c.st.onRto = true)
    (few : c.st.acksTooMuch (c.st.adjustAck seg.ackSeq) = false)
    (fresh : c.st.acksNew seg = true) : (c.processTcpAck env seg).Settled := by
  obtain ⟨c₁, -, listed, same⟩ := processTcpAck_enters .all env c seg few fun _ => rfl
  rw [same, if_pos fresh]
  exact acceptAck_settles env c₁ _ (listed.trans on)

theorem handleEstablished_settles (syn : seg.syn = false) (ack : seg.ack = true)
    (on : c.st.onRto = true) (few : c.st.acksTooMuch (c.st.adjustAck seg.ackSeq) = false)
    (fresh : c.st.acksNew seg = true) : (c.handleEstablished env seg).Settled := by
  unfold handleEstablished
  rw [if_neg (by rw [syn]; decide)]
  rcases andThen_cases (c.establishedPayload env seg) _ with ⟨halted, next⟩ | ⟨running, next⟩
  · rw [next]
    exact .inl halted
  rw [next, if_pos ack]
  obtain ⟨core, -⟩ := establishedPayload_acks env c seg running
  refine Settled.andThen env (processTcpAck_settles ?_ ?_ ?_)
    (finInEstablished_walks .settling env _ seg)
  · exact (establishedPayload_stays env seg c).rto on
  · rw [TcpStream.adjusted_congr seg core, few]
  · rw [TcpStream.acksNew_congr seg core, fresh]

theorem handleFinWait1_settles (inTurn : tcpSeqLt seg.seq c.st.rcvNxt = false)
    (ack : seg.ack = true) (acked : (c.processTcpAck env seg).Settled) :
    (c.handleFinWait1 env seg).Settled := by
  unfold handleFinWait1
  rw [if_neg (by rw [inTurn]; decide), if_pos ack]
  refine acked.andThen env ?_
  dsimp only
  refine Walk.trans ?_ ((closingPayload_walks .settling env _ seg).andThen
    (finInFinWait1_walks .settling env _ seg))
  exact .ite (finAcked_walks .settling env _ seg rfl)

/-- A handler that passes the segment on to `process_tcp_ack` adds nothing to the count after it. -/
theorem handleSegment_settles (handled : c.st.handlesAck seg = true) (on : c.st.onRto = true)
    (few : c.st.acksTooMuch (c.st.adjustAck seg.ackSeq) = false)
    (fresh : c.st.acksNew seg = true) : (c.handleSegment env seg).Settled := by
  have acked : (c.processTcpAck env seg).Settled := processTcpAck_settles on few fresh
  unfold TcpStream.handlesAck at handled
  unfold handleSegment
  cases now : c.st.state with
  | established =>
      simp only [now, Bool.and_eq_true, Bool.not_eq_true'] at handled
      exact handleEstablished_settles handled.1 handled.2 on few fresh
  | closeWait =>
      simp only [now, Bool.not_eq_true'] at handled
      dsimp only
      unfold handleCloseWait
      rw [if_neg (by rw [handled]; decide)]
      exact acked
  | finWait1 =>
      simp only [now, Bool.and_eq_true, Bool.not_eq_true'] at handled
      exact handleFinWait1_settles handled.1 handled.2 acked
  | lastAck =>
      simp only [now, Bool.and_eq_true, Bool.not_eq_true'] at handled
      dsimp only
      unfold handleLastAck
      rw [if_neg (by rw [handled.1]; decide), if_pos handled.2]
      exact acked.andThen env (lastAcked_walks .settling env _ seg rfl)
  | finWait2 =>
      rw [now] at handled
      dsimp only
      unfold handleFinWait2
      rw [if_pos handled]
      exact acked.andThen env ((closingPayload_walks .settling env _ seg).andThen
        (finInFinWait2_walks .settling env _ seg))
  | closing =>
      rw [now] at handled
      dsimp only
      unfold handleClosing
      rw [if_pos handled]
      exact acked.andThen env (closingAcked_walks .settling env _ seg)
  | closed | listen | synSent | synRcvd | timeWait =>
      rw [now] at handled
      cases handled

/-- **An acknowledgement of new data that finds the timer armed.** -/
theorem processSegment_settles (data : c.st.acksData seg = true) (on : c.st.onRto = true) :
    (c.processSegment env seg).Settled := by
  simp only [TcpStream.acksData, Bool.and_eq_true, Bool.not_eq_true',
    TcpStream.reachesAck_eq] at data
  obtain ⟨⟨⟨⟨inSeq, run⟩, handled⟩, few⟩, fresh⟩ := data
  cases processSegment_arrival env seg c with
  | halted h => exact .inl h
  | dropped _ _ _ outside =>
      rw [inSeq] at outside
      cases outside
  | reset c₁ rst =>
      rw [run] at rst
      cases rst
  | handled c₁ view ready _ _ _ result stays =>
      have now : c₁.st.state = c.st.state := congrArg Core.state ready.core
      have nxt : c₁.st.rcvNxt = c.st.rcvNxt := congrArg RcvCore.rcvNxt ready.rcv
      rw [result]
      refine handleSegment_settles ?_ (stays.rto on) ?_ ?_
      · rw [TcpStream.handlesAck, now, nxt]
        exact handled
      · rw [TcpStream.adjusted_congr seg ready.core, few]
      · rw [TcpStream.acksNew_congr seg ready.core, fresh]

end Settling

theorem processSegment_retried (env : Env) (c : Cx) {seg : Segment} {may : Permit} {k : Nat}
    (permits : c.st.Permits may seg) (restarts : may.restarts = true → k = 0)
    (retries : may.retries = true → tcpMaxRtx ≤ k) (retried : c.st.Retried k) :
    (c.processSegment env seg).st.Retried k := by
  obtain ⟨c₁, walk, same | ⟨stamped, permits⟩⟩ := processSegment_walks may env c seg permits
  · rw [same]
    exact walk.retried restarts retries retried
  · rw [stamped]
    exact (validateSegment_walks may env _ seg permits).retried restarts retries
      (walk.retried restarts retries retried)

theorem passiveOpen_retried (env : Env) (seg : Segment) {c : Cx} (listens : c.st.state = .listen)
    (retried : c.st.Retried 0) : (c.passiveOpen env seg).st.Retried 0 := by
  obtain ⟨c₁, walk, state, same | stamped⟩ := passiveOpen_walks .settling env c seg rfl
  · rw [same]
    exact walk.retried (fun _ => rfl) nofun retried
  · rw [stamped]
    refine Walk.retried (accept_walks .settling env _ seg rfl fun c₂ ready _ => ?_)
      (fun _ => rfl) nofun (walk.retried (fun _ => rfl) nofun retried)
    have now : c₂.st.state = .listen :=
      (congrArg Core.state ready.core).trans (state.trans listens)
    refine ⟨rfl, fun _ _ => rfl, fun handled => ?_, fun _ _ => rfl⟩
    rw [TcpStream.handlesAck, now] at handled
    cases handled

/-- An expiry destroys the stream, or doubles what `nrtx` says. -/
theorem handleRto_backs (env : Env) (c : Cx) :
    if c.st.nrtx < tcpMaxRtx then
      (c.handleRto env).view.destroyed = c.view.destroyed ∧
        (c.handleRto env).st.Retried (c.st.nrtx + 1) ∧
        ∃ c₁, c₁.links = c.links ∧ c₁.st.rto = tcpInitialRto <<< (c.st.nrtx + 1) ∧
          Arms env c₁ (c.handleRto env)
    else (c.handleRto env).view.destroyed = true ∧ (c.handleRto env).links = c.links := by
  have same : ∀ {c₁ : Cx}, c₁.out = c.out → c₁.links = c.links :=
    congrArg (List.countP Effect.isRtoInsert)
  rcases handleRto_walks { destroys := false, restarts := false, retries := false } env c with
    ⟨below, c₁, out, clock, walk⟩ | ⟨many, c₁, out, -, destroyed⟩
  · rw [if_pos below]
    refine ⟨(walk.spared rfl).trans (congrArg (List.any · Effect.isDestroy) out),
      walk.retried nofun nofun (.inl (congrArg ClockSide.nrtx clock)), c₁, same out,
      congrArg ClockSide.rto clock, walk.arms⟩
  · rw [if_neg (Nat.not_lt.mpr many), destroyed]
    exact ⟨rfl, (links_emit c₁ rfl).trans (same out)⟩

end Cx

namespace Conn

/-! ## One call -/

/-- A time-out is handled: the stream is on the RTO list and `rto_list_check` finds it. -/
def expires (s : Conn) (e : ConnEvent) : Bool :=
  match e.call with
  | .rto => !s.ended && s.st.onRto
  | _ => false

theorem expires_listed {s : Conn} {e : ConnEvent} (expiry : s.expires e = true) :
    s.st.onRto = true := by
  revert expiry
  unfold expires
  cases e.call with
  | rto => simp
  | packet | send | recv | close | handleClose | serveControl | serveSend | serveAck | timewait
  | timeout => simp

/-- A call that handles neither a segment nor a time-out is a walk, or the end of the stream. -/
theorem serve_walks {s : Conn} {e : ConnEvent} (running : s.ended = false)
    (quiet : s.expires e = false) (other : ∀ seg, e.call ≠ .packet seg) :
    Cx.Walk e.env .calm (s.entry e) (s.serve e).cx ∨
      (Cx.Arms e.env s.cx (s.serve e).cx ∧ (s.serve e).view.destroyed = true) := by
  have dies : ∀ {c₁ : Cx}, c₁.st.rto = s.st.rto → c₁.st.tsRto = s.st.tsRto →
      c₁.links = s.cx.links →
      Cx.Arms e.env s.cx c₁.tcpStreamDestroy ∧ c₁.tcpStreamDestroy.view.destroyed = true :=
    fun rto tsRto links => ⟨((Cx.Arms.refl e.env s.cx).still rto tsRto links).emits rfl, rfl⟩
  have same : Cx.Walk e.env .calm (s.entry e) s.cx := .of_same rfl rfl
  unfold expires at quiet
  unfold serve
  dsimp only
  cases call : e.call with
  | rto =>
      rw [call, running] at quiet
      refine .inl ?_
      dsimp only
      rw [if_neg]
      · exact same
      · intro on
        rw [show s.st.onRto = true from on] at quiet
        cases quiet
  | packet seg => exact absurd call (other seg)
  | send len highPri => exact .inl (Cx.qTcpSend_walks .calm e.env _ _ len highPri)
  | recv => exact .inl (Cx.qRecv_walks .calm e.env _)
  | close => exact .inl (Cx.tcpStreamClose_walks .calm e.env _)
  | handleClose =>
      refine .inl ?_
      dsimp only
      split
      · exact Cx.handleCloseCall_walks .calm e.env _ rfl
      · exact same
  | serveControl => exact .inl (Cx.writeTcpControlQueue_walks .calm e.env _)
  | serveSend =>
      refine .inl ?_
      dsimp only
      split
      · exact Cx.writeTcpSendQueue_walks .calm e.env _
      · exact same
  | serveAck => exact .inl (Cx.writeTcpAckQueue_walks .calm e.env _)
  | timewait =>
      dsimp only
      split
      · exact .inr (dies rfl rfl (Cx.links_emit _ rfl))
      · exact .inl same
  | timeout =>
      dsimp only
      split
      · exact .inr (dies rfl rfl (Cx.links_emit _ rfl))
      · exact .inl same

theorem serve_arms {s : Conn} {e : ConnEvent} (running : s.ended = false)
    (quiet : s.expires e = false) : Cx.Arms e.env s.cx (s.serve e).cx := by
  by_cases other : ∀ seg, e.call ≠ .packet seg
  · rcases serve_walks running quiet other with walk | ⟨arms, -⟩
    · exact ⟨walk.arms.rto, walk.arms.deadline⟩
    · exact arms
  · simp only [ne_eq, not_forall, not_not] at other
    obtain ⟨seg, call⟩ := other
    have arms := Cx.processSegment_arms e.env (s.entry e) seg
    unfold serve
    rw [call]
    exact ⟨arms.rto, arms.deadline⟩

/-- The call of `rto_list_check`. -/
theorem serve_backs {s : Conn} {e : ConnEvent} (expiry : s.expires e = true) :
    if s.st.nrtx < tcpMaxRtx then
      (s.serve e).view.destroyed = s.view.destroyed ∧
        (s.serve e).st.Retried (s.st.nrtx + 1) ∧
        (s.serve e).st.rto = tcpInitialRto <<< (s.st.nrtx + 1) ∧
        ((s.serve e).cx.links = s.cx.links ∨
          (s.serve e).st.tsRto = e.env.curTs + tcpInitialRto <<< (s.st.nrtx + 1))
    else (s.serve e).view.destroyed = true ∧ (s.serve e).cx.links = s.cx.links := by
  obtain ⟨call, env, avail⟩ := e
  cases call with
  | rto =>
      have on := expires_listed expiry
      have served : (s.serve ⟨.rto, env, avail⟩).cx =
          (s.entry ⟨.rto, env, avail⟩).rtoListCheck env := by
        unfold serve
        dsimp only
        rw [if_pos (by exact on)]
      have backs := Cx.handleRto_backs env
        (((s.entry ⟨.rto, env, avail⟩).modify fun s => { s with onRto := false }).emit .rtoRemove)
      simp only [Conn.view, Conn.st, served]
      revert backs
      change (if s.cx.st.nrtx < tcpMaxRtx then _ else _) → _
      split
      · rintro ⟨lives, retried, c₁, links, rto, arms⟩
        refine ⟨lives, retried, arms.rto.trans rto,
          arms.deadline.imp (fun same => ?_) fun deadline => ?_⟩
        · exact same.1.trans (links.trans (Cx.links_emit _ rfl))
        · exact deadline.trans (congrArg (env.curTs + ·) rto)
      · rintro ⟨gone, links⟩
        exact ⟨gone, links.trans (Cx.links_emit _ rfl)⟩
  | packet | send | recv | close | handleClose | serveControl | serveSend | serveAck | timewait
  | timeout => cases expiry

/-! ## Runs -/

/-- A connection, the time-outs since the last segment that acknowledged something new, and whether
`nrtx` still counts a fast retransmission. -/
structure Backoff where
  conn : Conn
  expiries : Nat := 0
  resent : Bool := false

namespace Backoff

/-- The segment acknowledges something new: our SYN, data in the send buffer, or our FIN. -/
def acksNew (s : Backoff) (e : ConnEvent) : Bool :=
  match e.call with
  | .packet seg => !s.conn.ended && s.conn.st.acknowledges seg
  | _ => false

/-- The segment is the third duplicate, and there is room for one more retransmission. -/
def resends (s : Backoff) (e : ConnEvent) : Bool :=
  match e.call with
  | .packet seg =>
      s.conn.st.reachesAck seg && s.conn.st.resends seg && decide (s.expiries < tcpMaxRtx)
  | _ => false

/-- The segment acknowledges data while the stream is on the RTO list: `rto_list_remove` sets `nrtx`
to 0. -/
def settles (s : Backoff) (e : ConnEvent) : Bool :=
  match e.call with
  | .packet seg => s.conn.st.acksData seg && s.conn.st.onRto
  | _ => false

def step (s : Backoff) (e : ConnEvent) : Backoff :=
  { conn := s.conn.step e
    expiries := if s.conn.expires e then s.expiries + 1 else if s.acksNew e then 0 else s.expiries
    resent := if s.settles e then false else s.resent || s.resends e }

/-- Where a call keeps the rule: no timer expires while a fast retransmission is counted, and
whatever acknowledges something new comes before the first time-out. -/
structure CallOk (s : Backoff) (e : ConnEvent) : Prop where
  settled : s.conn.expires e = true → s.resent = false
  early : s.acksNew e = true → s.expiries = 0

instance (s : Backoff) (e : ConnEvent) : Decidable (s.CallOk e) :=
  decidable_of_iff
    ((s.conn.expires e = true → s.resent = false) ∧ (s.acksNew e = true → s.expiries = 0))
    ⟨fun ok => ⟨ok.1, ok.2⟩, fun ok => ⟨ok.settled, ok.early⟩⟩

/-- What the rule says of a call: `rto_list_add` sets the deadline by the time-outs so far, and a
time-out drops the connection when it comes after `TCP_MAX_RTX` others. -/
structure Law (s : Backoff) (e : ConnEvent) (s' : Backoff) : Prop where
  deadline : s.conn.cx.links < s'.conn.cx.links →
    s'.conn.st.tsRto = e.env.curTs + tcpInitialRto <<< s'.expiries
  drops : s.conn.expires e = true → (s'.conn.view.destroyed = true ↔ s.expiries = tcpMaxRtx)

/-- While the connection lives, `rto` is what the time-outs make of it, and so is `nrtx` but for a
fast retransmission. -/
structure Tracks (s : Backoff) : Prop where
  rto : s.conn.st.rto = tcpInitialRto <<< s.expiries
  few : s.expiries ≤ tcpMaxRtx
  retried : s.resent = false → s.conn.st.Retried s.expiries

def Follows (s : Backoff) : Prop := s.conn.ended = false → s.Tracks

section Step

variable {s : Backoff} {e : ConnEvent}

theorem step_quiet (quiet : s.conn.expires e = false) (ok : s.CallOk e) :
    (s.step e).expiries = s.expiries := by
  change (if s.conn.expires e then _ else if s.acksNew e then 0 else s.expiries) = _
  rw [if_neg (by rw [quiet]; decide)]
  split
  · exact (ok.early ‹_›).symm
  · rfl

/-- A segment, unless it ends the connection, leaves `nrtx` with the time-outs. -/
theorem packet_retried {seg : Segment} (call : e.call = .packet seg)
    (running : s.conn.ended = false) (ok : s.CallOk e)
    (retried : s.resent = false → s.conn.st.Retried s.expiries)
    (settled : (s.step e).resent = false) :
    (s.conn.serve e).ended = true ∨ (s.conn.serve e).st.Retried s.expiries := by
  have served : (s.conn.serve e).cx = (s.conn.entry e).processSegment e.env seg := by
    unfold serve
    rw [call]
  have early (new : s.conn.st.acknowledges seg = true) : s.expiries = 0 := by
    apply ok.early
    rw [acksNew, call, running]
    exact new
  change (if s.settles e then false else s.resent || s.resends e) = false at settled
  by_cases settles : s.settles e = true
  · rw [Backoff.settles, call, Bool.and_eq_true] at settles
    have new : s.conn.st.acknowledges seg = true := by
      simp [TcpStream.acknowledges, settles.1]
    rw [early new]
    have count : ((s.conn.entry e).processSegment e.env seg).Settled :=
      Cx.processSegment_settles settles.1 settles.2
    rw [← served] at count
    exact count.imp_left Conn.ended_of_halted
  · rw [if_neg settles, Bool.or_eq_false_iff] at settled
    -- the third duplicate finds all retransmissions used up
    let may : Permit :=
      { restarts := decide (s.expiries = 0), retries := decide (tcpMaxRtx ≤ s.expiries) }
    have permits : s.conn.st.Permits may seg := by
      refine ⟨rfl, fun new => decide_eq_true (early new), fun reaches again => decide_eq_true ?_⟩
      have room := settled.2
      rw [Backoff.resends, call] at room
      simpa [reaches, again] using room
    have count := Cx.processSegment_retried e.env (s.conn.entry e) permits
      of_decide_eq_true of_decide_eq_true (retried settled.1)
    rw [← served] at count
    exact .inr count

theorem serve_retried (running : s.conn.ended = false) (quiet : s.conn.expires e = false)
    (ok : s.CallOk e) (retried : s.resent = false → s.conn.st.Retried s.expiries)
    (settled : (s.step e).resent = false) :
    (s.conn.serve e).ended = true ∨ (s.conn.serve e).st.Retried s.expiries := by
  by_cases other : ∀ seg, e.call ≠ .packet seg
  · have before : s.resent = false := by
      have same : (s.step e).resent = s.resent := by
        change (if s.settles e then false else s.resent || s.resends e) = s.resent
        unfold settles resends
        cases call : e.call with
        | packet seg => exact absurd call (other seg)
        | send | recv | close | handleClose | serveControl | serveSend | serveAck | rto | timewait
        | timeout => simp
      exact same.symm.trans settled
    rcases serve_walks running quiet other with walk | ⟨-, gone⟩
    · exact .inr (walk.retried nofun nofun (retried before))
    · exact .inl (by rw [ended, gone, Bool.or_true])
  · simp only [ne_eq, not_forall, not_not] at other
    obtain ⟨seg, call⟩ := other
    exact packet_retried call running ok retried settled

theorem Follows.step (follows : s.Follows) (ok : s.CallOk e) :
    (s.step e).Follows ∧ s.Law e (s.step e) := by
  by_cases stopped : s.conn.ended = true
  · have same : (s.step e).conn = s.conn := step_ended stopped e
    have quiet : ¬ s.conn.expires e = true := by
      unfold expires
      rw [stopped]
      cases e.call <;> exact Bool.false_ne_true
    refine ⟨fun runs => ?_, ⟨fun more => ?_, fun expiry => absurd expiry quiet⟩⟩
    · rw [same, stopped] at runs
      cases runs
    · rw [same] at more
      exact absurd more (Nat.lt_irrefl _)
  have running : s.conn.ended = false := Bool.eq_false_iff.mpr stopped
  obtain ⟨rto, few, retried⟩ := follows running
  have served : (s.step e).conn = s.conn.serve e := if_neg stopped
  by_cases expiry : s.conn.expires e = true
  · have count : (s.step e).expiries = s.expiries + 1 := if_pos expiry
    have listed := expires_listed expiry
    have nrtx : s.conn.st.nrtx = s.expiries :=
      (retried (ok.settled expiry)).resolve_right fun waits => by
        rw [waits.2] at listed
        cases listed
    have backs := serve_backs expiry
    rw [nrtx, ← served] at backs
    split at backs
    · rename_i below
      obtain ⟨lives, again, rto', deadline⟩ := backs
      have alive : s.conn.view.destroyed = false := by
        rw [ended, Bool.or_eq_false_iff] at running
        exact running.2
      refine ⟨fun _ => ?_, ⟨fun more => ?_, fun _ => iff_of_false ?_ below.ne⟩⟩
      · constructor
        all_goals rw [count]
        · exact rto'
        · exact below
        · exact fun _ => again
      · rw [count]
        exact deadline.resolve_left more.ne'
      · rw [lives, alive]
        exact Bool.false_ne_true
    · rename_i many
      obtain ⟨gone, links⟩ := backs
      refine ⟨fun runs => ?_, ⟨fun more => absurd links more.ne', fun _ => iff_of_true gone ?_⟩⟩
      · rw [ended, gone, Bool.or_true] at runs
        cases runs
      · exact Nat.le_antisymm few (Nat.not_lt.mp many)
  · have quiet : s.conn.expires e = false := Bool.eq_false_iff.mpr expiry
    have arms := serve_arms running quiet
    rw [← served] at arms
    have count := step_quiet quiet ok
    refine ⟨fun runs => ?_, ⟨fun more => ?_, fun expires => absurd expires expiry⟩⟩
    · constructor
      all_goals rw [count]
      · exact arms.rto.trans rto
      · exact few
      · intro settled
        have again := serve_retried running quiet ok retried settled
        rw [← served] at again
        exact again.resolve_left (by rw [runs]; decide)
    · rw [count, ← rto]
      exact arms.deadline.resolve_left fun same => more.ne' same.1

end Step

/-- **RTO backoff.** -/
theorem backoff_law {sndbufSize : Nat} {conn : Conn} (start : Start sndbufSize conn)
    (es : List ConnEvent) (allowed : Lib.Run.Allowed step CallOk { conn := conn } es) :
    Lib.Run.Each step Law { conn := conn } es := by
  refine Lib.Run.each_of_step (P := Follows) (fun s e follows ok => follows.step ok) es _ ?_ allowed
  intro _
  cases start with
  | passive rcvbufSize iss env seg syn noAck =>
      exact ⟨(Cx.passiveOpen_arms env _ seg).rto, Nat.zero_le _,
        fun _ => Cx.passiveOpen_retried env seg rfl (.inl rfl)⟩
  | active rcvbufSize iss env =>
      exact ⟨(Cx.handleConnectCall_walks .all env _).arms.rto, Nat.zero_le _,
        fun _ => (Cx.handleConnectCall_walks .calm env _).retried nofun nofun (.inl rfl)⟩

/-- Data is sent on a new connection, is lost, and is sent again 500 ms later. -/
def lossRun : List ConnEvent :=
  [{ call := .serveControl, avail := 1 },
   { call := .packet { seq := 7000, ackSeq := 101, syn := true, ack := true, window := 65535 } },
   { call := .send 700 false },
   { call := .serveSend },
   { call := .rto, env := { curTs := 500 } },
   { call := .serveSend, env := { curTs := 500 } }]

theorem backoff_law_loss :
    Lib.Run.Each step Law { conn := active 4 4 100 {} } lossRun :=
  backoff_law (.active 4 100 {}) lossRun (by decide +kernel)

/-- The second try is acknowledged, and what is sent next still waits twice as long. -/
def recoveredRun : List ConnEvent :=
  [{ call := .packet { seq := 7001, ackSeq := 801, ack := true, window := 65535 },
     env := { curTs := 600 } },
   { call := .send 100 false },
   { call := .serveSend, env := { curTs := 2000 } }]

theorem backoff_stays :
    ¬ ∀ (sndbufSize : Nat) (conn : Conn), Start sndbufSize conn → ∀ es : List ConnEvent,
      Lib.Run.Each step Law { conn := conn } es := by
  intro claim
  have each := claim 4 _ (.active 4 100 {}) (lossRun ++ recoveredRun)
  have deadline := each.2.2.2.2.2.2.2.2.1.deadline (by decide +kernel)
  revert deadline
  decide +kernel

end Backoff

end Conn

end QStack
