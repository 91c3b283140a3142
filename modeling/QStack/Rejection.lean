/- # QStack.Rejection -- what a segment that is turned away leaves behind

A segment is turned away by the sequence check in the states beyond SYN_RCVD, and a RST in
SYN_RCVD by its acknowledgement.  What `process_tcp_packet` has done by then is another matter: the
options of a SYN are read before the check, and `peer_wnd` and `have_reset` are written before
`handle_rst` looks at the RST.

`rejected_untouched` says exactly when nothing lasting is left.
-/
import QStack.PeerLimits

namespace QStack

set_option autoImplicit false

/-! ## Timers and queues -/

/-- A timer list, or a queue of acknowledgements or control packets. -/
def Effect.isHousekeeping : Effect → Bool
  | .controlEnqueue | .ackEnqueue => true
  | .rtoInsert | .rtoRemove => true
  | .timewaitInsert | .timewaitRemove => true
  | .timeoutInsert | .timeoutRemove => true
  | _ => false

/-- The stream without its time-stamps, its timers and its marks for the two queues. -/
def TcpStream.settled (s : TcpStream) : TcpStream :=
  { s with
    lastActiveTs := 0
    tsTwExpire := 0
    tsRto := 0
    nrtx := 0
    onRto := false
    onTimeoutList := false
    onTimewaitList := false
    onControlQueue := false
    controlListWaiting := false
    onAckQueue := false
    ackCnt := 0
    isWack := false }

namespace Cx

/-- Nothing has happened but to time-stamps, timers and the two queues. -/
structure Rests (c c' : Cx) : Prop where
  settled : c'.st.settled = c.st.settled
  out : ∃ new, c'.out = new ++ c.out ∧ ∀ e ∈ new, e.isHousekeeping = true
  mem : c'.mem = c.mem

section Rules

variable {c c' c'' : Cx}

theorem quiet_nil : ∀ e ∈ ([] : List Effect), e.isHousekeeping = true :=
  fun _ mem => absurd mem List.not_mem_nil

theorem Rests.refl (c : Cx) : c.Rests c := ⟨rfl, ⟨[], rfl, quiet_nil⟩, rfl⟩

theorem Rests.trans (first : c.Rests c') (second : c'.Rests c'') : c.Rests c'' := by
  obtain ⟨new, out, quiet⟩ := first.out
  obtain ⟨new', out', quiet'⟩ := second.out
  refine ⟨second.settled.trans first.settled, ⟨new' ++ new, ?_, fun e mem => ?_⟩,
    second.mem.trans first.mem⟩
  · rw [out', out, List.append_assoc]
  · exact (List.mem_append.mp mem).elim (quiet' e) (quiet e)

theorem Rests.modify (c : Cx) {f : TcpStream → TcpStream}
    (kept : (f c.st).settled = c.st.settled) : c.Rests (c.modify f) :=
  ⟨kept, ⟨[], rfl, quiet_nil⟩, rfl⟩

theorem Rests.emit (c : Cx) {e : Effect} (quiet : e.isHousekeeping = true) : c.Rests (c.emit e) :=
  ⟨rfl, ⟨[e], rfl, fun e' mem => by rw [List.mem_singleton.mp mem]; exact quiet⟩, rfl⟩

theorem Rests.ite {p : Prop} [Decidable p] (taken : c.Rests c') :
    c.Rests (if p then c' else c) := by
  split
  · exact taken
  · exact .refl c

theorem quiet_silent {e : Effect} (quiet : e.isHousekeeping = true) :
    e.sent? = none ∧ e.opened? = none ∧ e.isHalt = false ∧ e.isDestroy = false := by
  cases e with
  | controlEnqueue | ackEnqueue | rtoInsert | rtoRemove | timewaitInsert | timewaitRemove
    | timeoutInsert | timeoutRemove => exact ⟨rfl, rfl, rfl, rfl⟩
  | _ => cases quiet

/-- No packet has gone out, nothing was destroyed, and the process goes on. -/
theorem Rests.view (rests : c.Rests c') : c'.view = c.view := by
  obtain ⟨new, out, quiet⟩ := rests.out
  have core : c'.st.settled.core = c.st.settled.core := congrArg TcpStream.core rests.settled
  have rcv : c'.st.settled.rcvCore = c.st.settled.rcvCore :=
    congrArg TcpStream.rcvCore rests.settled
  have sent : new.filterMap Effect.sent? = [] :=
    List.filterMap_eq_nil_iff.mpr fun e mem => (quiet_silent (quiet e mem)).1
  have opened : new.filterMap Effect.opened? = [] :=
    List.filterMap_eq_nil_iff.mpr fun e mem => (quiet_silent (quiet e mem)).2.1
  have halts : new.any Effect.isHalt = false :=
    List.any_eq_false.mpr fun e mem => by simp [(quiet_silent (quiet e mem)).2.2.1]
  have destroys : new.any Effect.isDestroy = false :=
    List.any_eq_false.mpr fun e mem => by simp [(quiet_silent (quiet e mem)).2.2.2]
  unfold Cx.view Cx.halted
  rw [out, List.filterMap_append, List.filterMap_append, sent, opened, List.any_append, halts,
    List.any_append, destroys]
  change View.mk c'.st.settled.core c'.st.settled.rcvCore _ _ _ _ = _
  rw [core, rcv]
  rfl

theorem Rests.fields (rests : c.Rests c') :
    c'.st.limits = c.st.limits ∧ c'.st.peerWnd = c.st.peerWnd ∧
      c'.st.haveReset = c.st.haveReset ∧ c'.st.closed = c.st.closed := by
  have limits : c'.st.settled.limits = c.st.settled.limits := by rw [rests.settled]
  have peerWnd : c'.st.settled.peerWnd = c.st.settled.peerWnd := by rw [rests.settled]
  have reset : c'.st.settled.haveReset = c.st.settled.haveReset := by rw [rests.settled]
  have closed : c'.st.settled.closed = c.st.settled.closed := by rw [rests.settled]
  exact ⟨limits, peerWnd, reset, closed⟩

end Rules

section Primitives

variable (env : Env) (c : Cx)

theorem rtoListRemove_rests : c.Rests c.rtoListRemove :=
  .ite ((Rests.modify c rfl).trans (.emit _ rfl))

theorem timewaitListAdd_rests : c.Rests (c.timewaitListAdd env) := by
  have listed : ∀ c₁ : Cx, c.Rests c₁ → c.Rests
      (if c₁.st.onTimewaitList then (c₁.emit .timewaitRemove).emit .timewaitInsert
        else (c₁.rtoListRemove.modify fun s =>
          { s with onTimewaitList := true }).emit .timewaitInsert) := by
    intro c₁ marked
    split
    · exact marked.trans ((Rests.emit c₁ rfl).trans (.emit _ rfl))
    · exact marked.trans ((rtoListRemove_rests c₁).trans
        ((Rests.modify _ rfl).trans (.emit _ rfl)))
  have marked : c.Rests (c.modify fun s => { s with tsTwExpire := env.curTs + tcpTimewait }) :=
    .modify c (by simp only [TcpStream.settled])
  exact listed _ marked

theorem timeoutListUpdate_rests : c.Rests (c.timeoutListUpdate env) := by
  unfold timeoutListUpdate
  dsimp only
  split
  · exact (Rests.modify c rfl).trans ((Rests.emit _ rfl).trans (.emit _ rfl))
  · exact .modify c rfl

theorem controlQueueAdd_rests : c.Rests (c.controlQueueAdd env) := by
  unfold controlQueueAdd
  split
  · exact .refl c
  · exact .ite ((Rests.modify c rfl).trans (.emit _ rfl))

theorem enqueueAck_rests (opt : AckOpt) : c.Rests (c.enqueueAck env opt) := by
  have queue : ∀ c : Cx, c.Rests (c.ackQueueAdd env) :=
    fun c => .ite ((Rests.modify c rfl).trans (.emit _ rfl))
  unfold enqueueAck
  refine Rests.trans ?_ (queue _)
  cases opt with
  | now | aggregate => exact .ite (.modify c rfl)
  | wack => exact .modify c rfl

theorem checkSequenceValidation_rests (seg : Segment) :
    c.Rests (c.checkSequenceValidation env seg).2 := by
  unfold checkSequenceValidation
  dsimp only
  split
  · exact .refl c
  split
  · exact .refl c
  split
  · split
    · exact enqueueAck_rests env c .aggregate
    · split
      · exact enqueueAck_rests env c .aggregate
      · exact enqueueAck_rests env c .now
  · exact (Rests.ite (timewaitListAdd_rests env c)).trans (controlQueueAdd_rests env _)

end Primitives

/-! ## The way to the checks -/

section Rejected

variable {c c' : Cx} {seg : Segment} (env : Env)

/-- The options first, then the checks. -/
theorem processSegment_reads (running : c.view.halted = false) :
    (c.st.optioned env seg = none → (c.processSegment env seg).view.halted = true) ∧
      ∀ s, c.st.optioned env seg = some s → c.processSegment env seg =
        (Cx.modify { c.receive seg with st := s } fun s =>
          { s with lastActiveTs := env.curTs }).validateSegment env seg := by
  have runs : (c.receive seg).halted = false := running
  have goes : ∀ c₁ : Cx, c₁.halted = false → ∀ f : Cx → Cx, c₁.andThen f = f c₁ :=
    fun c₁ runs f => if_neg (by rw [runs]; decide)
  have same : (c.receive seg).st = c.st := rfl
  unfold processSegment
  dsimp only
  rw [same]
  by_cases reads : seg.syn = true ∧ c.st.state ≠ .synSent
  · have tested : (seg.syn && c.st.state != .synSent) = true := by simpa using reads
    rw [TcpStream.optioned_reads reads, tested, if_pos rfl]
    unfold parseOptions TcpStream.readOptions
    dsimp only
    rw [same]
    cases parseTcpOptions env.curTs seg.options (seg.doff * 4 - 20) (seg.doff * 4 - 20 + 1) 0
        c.st with
    | none => exact ⟨fun _ => rfl, fun s found => absurd found (by simp)⟩
    | some s =>
        refine ⟨fun none => absurd none (by simp), fun s' found => ?_⟩
        rw [← Option.some.inj found]
        exact goes { c.receive seg with st := s } runs _
  · have tested : (seg.syn && c.st.state != .synSent) = false := by simpa using reads
    rw [TcpStream.optioned_skips reads, tested, if_neg Bool.false_ne_true]
    refine ⟨fun none => absurd none (by simp), fun s found => ?_⟩
    rw [← Option.some.inj found]
    exact goes _ runs _

/-- The mbuf is filled in, the options are read, the time is noted. -/
def noted (c : Cx) (env : Env) (seg : Segment) (s : TcpStream) : Cx :=
  Cx.modify { c.receive seg with st := s } fun s => { s with lastActiveTs := env.curTs }

/-- A segment that the sequence check turns away. -/
theorem processSegment_refused (running : c.view.halted = false)
    (late : TcpState.synRcvd.val < c.st.state.val)
    (refused : (c.checkSequenceValidation env seg).1 = false) {s : TcpStream}
    (read : c.st.optioned env seg = some s) :
    (c.noted env seg s).Rests (c.processSegment env seg) := by
  obtain ⟨o, same⟩ := optioned_same read
  have again : ((c.noted env seg s).checkSequenceValidation env seg).1 = false := by
    rw [checkSequenceValidation_fst] at refused ⊢
    rw [← refused, noted, same]
    rfl
  have rests := checkSequenceValidation_rests env (c.noted env seg s) seg
  have beyond : TcpState.synRcvd.val < (c.noted env seg s).st.state.val := by
    rw [noted, same]
    exact late
  rw [(processSegment_reads env running).2 s read]
  change (c.noted env seg s).Rests ((c.noted env seg s).validateSegment env seg)
  unfold validateSegment
  rw [if_pos beyond]
  generalize (c.noted env seg s).checkSequenceValidation env seg = result at again rests
  obtain ⟨ok, c'⟩ := result
  dsimp only at again rests
  subst again
  exact rests

/-- The stream once a RST has been noted. -/
def resetNoted (s : TcpStream) (seg : Segment) : TcpStream :=
  { s with peerWnd := s.advertisedBy seg, haveReset := true }

/-- A RST that does not acknowledge the SYN-ACK. -/
theorem processSegment_strayRst (running : c.view.halted = false)
    (now : c.st.state = .synRcvd) (rst : seg.rst = true) (stray : seg.ackSeq ≠ c.st.sndNxt)
    {s : TcpStream} (read : c.st.optioned env seg = some s) :
    (c.noted env seg (resetNoted s seg)).Rests (c.processSegment env seg) := by
  obtain ⟨o, same⟩ := optioned_same read
  have early : ¬ TcpState.synRcvd.val < (c.noted env seg s).st.state.val := by
    rw [noted, same]
    change ¬ TcpState.synRcvd.val < c.st.state.val
    rw [now]
    decide
  rw [(processSegment_reads env running).2 s read]
  change Rests _ ((c.noted env seg s).validateSegment env seg)
  unfold validateSegment
  rw [if_neg early]
  let c₂ : Cx := (c.noted env seg s).modify fun s => { s with peerWnd := s.advertisedBy seg }
  let c₃ : Cx := (c₂.timeoutListUpdate env).modify fun s => { s with haveReset := true }
  have st₃ : c₃.st = { c₂.st with lastActiveTs := env.curTs, haveReset := true } := by
    change { (c₂.timeoutListUpdate env).st with haveReset := true } = _
    rw [timeoutListUpdate_st]
  have state₃ : c₃.st.state = .synRcvd := by
    rw [st₃]
    change s.state = .synRcvd
    rw [same]
    exact now
  have nxt₃ : c₃.st.sndNxt = c.st.sndNxt := by
    rw [st₃]
    change s.sndNxt = _
    rw [same]
  have handled : (c.noted env seg s).acceptSegment env seg = c₃ := by
    have ignored : c₃.handleRst seg = c₃ := by
      unfold handleRst
      rw [state₃]
      dsimp only
      rw [nxt₃, if_neg stray]
    unfold acceptSegment
    dsimp only
    rw [rst, if_pos rfl, Bool.true_and]
    change (if decide (TcpState.synSent.val < c₃.st.state.val) = true then c₃.handleRst seg else _) =
      c₃
    rw [state₃, if_pos (by decide), ignored]
  have timed := timeoutListUpdate_rests env c₂
  rw [handled]
  refine ⟨?_, timed.out, timed.mem⟩
  rw [st₃]
  rfl

/-! ## What is left behind -/

/-- What `handle_close_call` makes of the view, with `have_reset` or without. -/
def closeCalled (v : View) (reset : Bool) : View :=
  if reset then
    if v.state = .closed then { v with fss := v.sndbuf.nextSeq }
    else { v with fss := v.sndbuf.nextSeq, state := .closed, destroyed := true }
  else if v.state = .closed then { v with fss := v.sndbuf.nextSeq, halted := true }
  else { v with fss := v.sndbuf.nextSeq, state := v.state.afterClose }

theorem handleCloseCall_view (c : Cx) :
    (c.handleCloseCall env).view = closeCalled c.view c.st.haveReset := by
  unfold handleCloseCall closeCalled
  dsimp only
  generalize noted : c.modify _ = c₁
  have view₁ : c₁.view = { c.view with fss := c.view.sndbuf.nextSeq } := by
    rw [← noted]
    rfl
  have now : c₁.st.state = c.view.state := congrArg (fun v : View => v.state) view₁
  have reset : c₁.st.haveReset = c.st.haveReset := by
    rw [← noted]
    rfl
  have moved : ∀ state : TcpState, (c₁.modify fun s => { s with state := state }).view =
      { c.view with fss := c.view.sndbuf.nextSeq, state := state } := by
    intro state
    change { c₁.view with state := state } = _
    rw [view₁]
  rw [now, reset]
  split
  · split
    · exact view₁
    · change { (c₁.modify fun s => { s with state := .closed }).view with destroyed := true } = _
      rw [moved]
  · cases state : c.view.state with
    | closed =>
        rw [if_pos rfl]
        dsimp only
        rw [view_exit, view₁]
        have kept : { c.view with
            fss := c.view.sndbuf.nextSeq, state := c.view.state, halted := true } =
          { c.view with fss := c.view.sndbuf.nextSeq, halted := true } := rfl
        rw [state] at kept
        exact kept.symm
    | established | closeWait =>
        rw [if_neg (by decide)]
        dsimp only
        rw [view_controlQueueAdd, moved]
        rfl
    | listen | synSent | synRcvd | finWait1 | finWait2 | closing | lastAck | timeWait =>
        rw [if_neg (by decide)]
        dsimp only
        rw [view_controlQueueAdd, view₁]
        have kept : { c.view with fss := c.view.sndbuf.nextSeq, state := c.view.state } =
          { c.view with fss := c.view.sndbuf.nextSeq } := rfl
        rw [state] at kept
        exact kept.symm

/-- The close call of the application and the stack's answer to it, from a stream with the same
sequence variables and the same `have_reset`. -/
theorem close_alike (view : c'.view = c.view) (closed : c'.st.closed = c.st.closed)
    (reset : c'.st.haveReset = c.st.haveReset) :
    c'.tcpStreamClose.1 = c.tcpStreamClose.1 ∧
      (c'.tcpStreamClose.2.handleCloseCall env).view =
        (c.tcpStreamClose.2.handleCloseCall env).view := by
  have now : c'.st.state = c.st.state := congrArg (fun v : View => v.state) view
  have called : c'.tcpStreamClose.1 = c.tcpStreamClose.1 ∧
      c'.tcpStreamClose.2.view = c.tcpStreamClose.2.view ∧
      c'.tcpStreamClose.2.st.haveReset = c.tcpStreamClose.2.st.haveReset := by
    unfold tcpStreamClose
    rw [closed]
    split
    · exact ⟨rfl, view, reset⟩
    · dsimp only [modify_st]
      rw [now]
      split
      · exact ⟨rfl, view, reset⟩
      · exact ⟨rfl, view, reset⟩
      · exact ⟨rfl, view, reset⟩
  obtain ⟨first, view₁, reset₁⟩ := called
  refine ⟨first, ?_⟩
  generalize c'.tcpStreamClose.2 = d' at view₁ reset₁ ⊢
  generalize c.tcpStreamClose.2 = d at view₁ reset₁ ⊢
  rw [handleCloseCall_view, handleCloseCall_view, view₁, reset₁]

/-- Only time-stamps, timers and the two queues have changed, and a later close will find the
connection as it was. -/
structure Untouched (c : Cx) (seg : Segment) (c' : Cx) : Prop where
  core : c'.st.core = c.st.core
  rcvCore : c'.st.rcvCore = c.st.rcvCore
  limits : c'.st.limits = c.st.limits
  peerWnd : c'.st.peerWnd = c.st.peerWnd
  haveReset : c'.st.haveReset = c.st.haveReset
  rests : (c.receive seg).Rests c'
  closes : ∀ env, c'.tcpStreamClose.1 = c.tcpStreamClose.1 ∧
    (c'.tcpStreamClose.2.handleCloseCall env).view =
      (c.tcpStreamClose.2.handleCloseCall env).view

theorem Rests.untouched (rests : (c.receive seg).Rests c') : c.Untouched seg c' where
  core := congrArg View.toCore rests.view
  rcvCore := congrArg View.rcv rests.view
  limits := rests.fields.1
  peerWnd := rests.fields.2.1
  haveReset := rests.fields.2.2.1
  rests := rests
  closes := fun env => close_alike env rests.view rests.fields.2.2.2 rests.fields.2.2.1

theorem optioned_kept {env : Env} {s : TcpStream} (read : c.st.optioned env seg = some s)
    (fields : s.optionFields = c.st.optionFields) : s = c.st := by
  obtain ⟨o, same⟩ := optioned_same read
  rw [same] at fields ⊢
  change o = c.st.optionFields at fields
  rw [fields]
  rfl

end Rejected

/-- **When a rejected segment leaves the connection untouched.**  One that the sequence check turns
away does exactly when its options, if it is a SYN, set nothing anew; a stray RST in
SYN_RCVD only when moreover it announces the window that is known, and one has come before. -/
theorem rejected_untouched (env : Env) (seg : Segment) {c : Cx} (running : c.view.halted = false) :
    (TcpState.synRcvd.val < c.st.state.val →
      (c.checkSequenceValidation env seg).1 = false →
        (c.Untouched seg (c.processSegment env seg) ↔ c.st.optioned env seg = some c.st)) ∧
    (c.st.state = .synRcvd → seg.rst = true → seg.ackSeq ≠ c.st.sndNxt →
      (c.Untouched seg (c.processSegment env seg) ↔
        c.st.optioned env seg = some c.st ∧ c.st.advertisedBy seg = c.st.peerWnd ∧
          c.st.haveReset = true)) := by
  have hangs : c.st.optioned env seg = none → ¬ c.Untouched seg (c.processSegment env seg) := by
    intro none same
    have halted := (processSegment_reads env running).1 none
    have view := congrArg View.halted same.rests.view
    rw [halted] at view
    exact absurd (running.symm.trans view.symm) Bool.false_ne_true
  refine ⟨fun late refused => ?_, fun now rst stray => ?_⟩
  · cases read : c.st.optioned env seg with
    | none => exact iff_of_false (hangs read) (by simp)
    | some s =>
        have rests := processSegment_refused env running late refused read
        constructor
        · intro same
          have fields : s.optionFields = c.st.optionFields :=
            (congrArg TcpStream.optionFields (rests.settled.symm.trans same.rests.settled) :)
          rw [optioned_kept read fields]
        · intro kept
          cases kept
          refine Rests.untouched (Rests.trans ?_ rests)
          exact .modify (c.receive seg) rfl
  · cases read : c.st.optioned env seg with
    | none => exact iff_of_false (hangs read) (by simp)
    | some s =>
        have rests := processSegment_strayRst env running now rst stray read
        have advertised := TcpStream.advertisedBy_optioned read
        constructor
        · intro same
          have fields : s.optionFields = c.st.optionFields :=
            (congrArg TcpStream.optionFields (rests.settled.symm.trans same.rests.settled) :)
          have window : (c.processSegment env seg).st.peerWnd = s.advertisedBy seg :=
            rests.fields.2.1
          have reset : (c.processSegment env seg).st.haveReset = true :=
            rests.fields.2.2.1
          refine ⟨?_, ?_, ?_⟩
          · rw [optioned_kept read fields]
          · rw [← advertised, ← window, same.peerWnd]
          · rw [← same.haveReset, reset]
        · rintro ⟨kept, window, reset⟩
          cases kept
          refine Rests.untouched (Rests.trans ?_ rests)
          refine ⟨?_, ⟨[], rfl, quiet_nil⟩, rfl⟩
          have noted : resetNoted c.st seg = c.st := by
            rw [resetNoted, window, ← reset]
          rw [noted]
          rfl

/-- A connection that waits for the acknowledgement of its SYN-ACK, after a first RST. -/
def resetOnce : Conn :=
  (Conn.passive 32 8 500 {} { seq := 99, syn := true, window := 4000 }).step
    { call := .packet { seq := 0, rst := true, window := 4000 } }

theorem rejected_untouched_both :
    Frame.peerOpened.cx.Untouched { seq := 9000000, ack := true }
      (Frame.peerOpened.cx.processSegment {} { seq := 9000000, ack := true }) ∧
    resetOnce.cx.Untouched { seq := 0, rst := true, window := 4000 }
      (resetOnce.cx.processSegment {} { seq := 0, rst := true, window := 4000 }) :=
  ⟨((rejected_untouched {} { seq := 9000000, ack := true } (by decide +kernel)).1
      (by decide +kernel) (by decide +kernel)).mpr rfl,
    ((rejected_untouched {} { seq := 0, rst := true, window := 4000 } (by decide +kernel)).2
      (by decide +kernel) rfl (by decide +kernel)).mpr
        ⟨rfl, by decide +kernel, by decide +kernel⟩⟩

/-- A blind RST in SYN_RCVD is not believed, but noted: the close call will destroy the stream. -/
theorem stray_rst_noted : ¬ ∀ (env : Env) (seg : Segment) (c : Cx), c.view.halted = false →
    c.st.state = .synRcvd → seg.rst = true → seg.ackSeq ≠ c.st.sndNxt →
      c.Untouched seg (c.processSegment env seg) := by
  intro always
  have same := always {} { seq := 0, rst := true, window := 4000 }
    (Conn.passive 32 8 500 {} { seq := 99, syn := true, window := 4000 }).cx (by decide +kernel)
    (by decide +kernel) rfl (by decide +kernel)
  exact absurd same.haveReset (by decide +kernel)

end Cx

end QStack
