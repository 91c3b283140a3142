/-
# QStack.Reclamation -- no closed stream is left in the flow table

A stream is found by `StreamHTSearch` until `tcp_stream_destroy`, so the places that set
TCP_ST_CLOSED have to destroy it as well.  All of them do but one: when the accept queue is full,
`_raise_accept_event` marks the stream closed and leaves it to nobody (`closed_stream_stays`).

`Live` is carried through the handlers one by one; `no_zombie` says that every run in which the
accept queue has room whenever a passive handshake completes leaves no closed stream behind.
-/
import QStack.Connection

namespace QStack

set_option autoImplicit false

namespace Cx

/-- The process has ended, or the stream is destroyed, or it is not closed. -/
def Live (c : Cx) : Prop :=
  c.view.halted = true ∨ c.view.destroyed = true ∨ c.st.state ≠ .closed

section Rules

variable {c c' : Cx}

theorem state_of_view (same : c'.view = c.view) : c'.st.state = c.st.state :=
  congrArg (fun v : View => v.state) same

theorem Live.of_state {state : TcpState} (now : c.st.state = state) (open_ : state ≠ .closed) :
    c.Live :=
  .inr (.inr (now ▸ open_))

theorem Live.of_view (open_ : c.st.state ≠ .closed) (same : c'.view = c.view) : c'.Live :=
  .of_state (state_of_view same) open_

theorem Live.destroyed (c : Cx) : c.tcpStreamDestroy.Live := .inr (.inl rfl)

theorem Live.andThen {f : Cx → Cx} (first : c.view.halted = true ∨ c.st.state ≠ .closed)
    (rest : c.st.state ≠ .closed → (f c).Live) : (c.andThen f).Live := by
  rcases andThen_cases c f with ⟨halted, same⟩ | ⟨running, next⟩
  · rw [same]
    exact .inl halted
  · rw [next]
    refine rest (first.resolve_left ?_)
    rw [running]
    exact Bool.false_ne_true

end Rules

/-! ## The handlers -/

section Handlers

variable (env : Env) (seg : Segment) {c : Cx}

theorem processTcpAck_open (open_ : c.st.state ≠ .closed) :
    (c.processTcpAck env seg).view.halted = true ∨ (c.processTcpAck env seg).st.state ≠ .closed := by
  refine (processTcpAck_view env seg c).imp_right fun view => ?_
  have same : (c.processTcpAck env seg).st.state = _ := congrArg (fun v : View => v.state) view
  rw [same]
  change (c.st.core.onAck _ _).state ≠ .closed
  rw [Core.onAck_state]
  exact open_

theorem processTcpAck_live (open_ : c.st.state ≠ .closed) : (c.processTcpAck env seg).Live :=
  (processTcpAck_open env seg open_).imp_right .inr

theorem closingPayload_open (open_ : c.st.state ≠ .closed) :
    (c.closingPayload env seg).view.halted = true ∨
      (c.closingPayload env seg).st.state ≠ .closed := by
  refine (closingPayload_view env seg c).imp_right ?_
  rintro ⟨r, view⟩
  have same : (c.closingPayload env seg).st.state = _ := congrArg (fun v : View => v.state) view
  rw [same]
  exact open_

theorem handleListen_live (open_ : c.st.state ≠ .closed) : (c.handleListen env seg).Live := by
  unfold handleListen
  split
  · exact .of_state (state_of_view (view_controlQueueAdd env _)) (by exact nofun)
  · exact .inr (.inr open_)

theorem handleSynSent_live (open_ : c.st.state ≠ .closed) : (c.handleSynSent env seg).Live := by
  unfold handleSynSent
  split
  · split
    · exact .inr (.inr open_)
    · exact .inl rfl
  dsimp only
  have acked : (if seg.ack = true then c.modify fun s => { s with sndUna := s.sndUna + 1 }
      else c).st.state ≠ .closed := by
    split <;> exact open_
  generalize (if seg.ack = true then c.modify fun s => { s with sndUna := s.sndUna + 1 }
      else c) = c₁ at acked ⊢
  split
  · split
    · split
      · exact .of_state (state_of_view (view_raiseEvent _ _)) (by exact nofun)
      · exact .destroyed _
    · exact .inr (.inr acked)
  split
  · split
    · have opened : (c₁.handleActiveOpen env seg).view.halted = true ∨
          (c₁.handleActiveOpen env seg).st.state ≠ .closed := by
        refine (handleActiveOpen_view seg c₁).imp_right ?_
        rintro ⟨st, core, -, -, now⟩
        have state : st.state = .established := congrArg Core.state core
        rw [now, state]
        exact nofun
      refine .andThen opened fun open₂ => ?_
      split
      · refine .of_view open₂ ?_
        rw [view_timeoutListAdd, view_controlQueueAdd, view_raiseEvent]
      · exact .inl rfl
    · exact .of_state (state_of_view (view_controlQueueAdd env _)) (by exact nofun)
  · exact .inr (.inr acked)

theorem handleEstablished_live (now : c.st.state = .established) :
    (c.handleEstablished env seg).Live := by
  rcases handleEstablished_view env seg c now with halted | ⟨r, state, isOpen, view⟩
  · exact .inl halted
  · have same : (c.handleEstablished env seg).st.state = state := by
      rcases view with view | ⟨-, -, view⟩ <;>
      · exact congrArg (fun v : View => v.state) view
    refine .of_state same ?_
    rintro rfl
    cases isOpen

theorem handleCloseWait_live (open_ : c.st.state ≠ .closed) : (c.handleCloseWait env seg).Live := by
  unfold handleCloseWait
  split
  · exact .of_view open_ (view_controlQueueAdd env c)
  · exact processTcpAck_live env seg open_

theorem handleLastAck_live (open_ : c.st.state ≠ .closed) : (c.handleLastAck env seg).Live := by
  unfold handleLastAck
  split
  · exact .inr (.inr open_)
  split
  · refine .andThen (processTcpAck_open env seg open_) fun open₁ => ?_
    split
    · exact .inr (.inr open₁)
    split
    · exact .destroyed _
    · exact .of_view open₁ (view_controlQueueAdd env _)
  · exact .of_view open_ (view_controlQueueAdd env c)

theorem finInFinWait1_live (open_ : c.st.state ≠ .closed) : (c.finInFinWait1 env seg).Live := by
  unfold finInFinWait1
  split
  · refine .of_state (state_of_view (view_controlQueueAdd env _)) ?_
    have moved : (c.modify (TcpStream.takeFin seg)).st.state ≠ .closed := open_
    generalize c.modify (TcpStream.takeFin seg) = c₁ at moved ⊢
    cases state : c₁.st.state with
    | finWait1 => exact nofun
    | finWait2 =>
        dsimp only
        rw [state_of_view (view_timewaitListAdd env _)]
        exact nofun
    | closed => exact absurd state moved
    | listen | synSent | synRcvd | established | closeWait | closing | lastAck | timeWait =>
        exact moved
  · exact .inr (.inr open_)

theorem handleFinWait1_live (open_ : c.st.state ≠ .closed) : (c.handleFinWait1 env seg).Live := by
  unfold handleFinWait1
  split
  · exact .of_view open_ (view_controlQueueAdd env c)
  split
  · refine .andThen (processTcpAck_open env seg open_) fun open₁ => ?_
    generalize c.processTcpAck env seg = c₁ at open₁ ⊢
    dsimp only
    have acked : (if (c₁.st.isFinSent && seg.ackSeq == c₁.st.fss + 1) = true then
        (rtoListRemove (c₁.modify fun s =>
          { s with
            sndUna := seg.ackSeq
            sndNxt := if tcpSeqGt seg.ackSeq s.sndNxt = true then seg.ackSeq else s.sndNxt
            nrtx := 0 })).modify fun s => { s with state := .finWait2 }
        else c₁).st.state ≠ .closed := by
      split
      · exact nofun
      · exact open₁
    refine .andThen (closingPayload_open env seg acked) fun open₂ => ?_
    exact finInFinWait1_live env seg open₂
  · exact .inr (.inr open_)

theorem finInFinWait2_live (open_ : c.st.state ≠ .closed) : (c.finInFinWait2 env seg).Live := by
  obtain ⟨r, stays | ends⟩ := finInFinWait2_view env seg c
  · exact .of_state (congrArg (fun v : View => v.state) stays) open_
  · exact .of_state (congrArg (fun v : View => v.state) ends) (by exact nofun)

theorem handleFinWait2_live (open_ : c.st.state ≠ .closed) : (c.handleFinWait2 env seg).Live := by
  unfold handleFinWait2
  split
  · refine .andThen (processTcpAck_open env seg open_) fun open₁ => ?_
    refine .andThen (closingPayload_open env seg open₁) fun open₂ => ?_
    exact finInFinWait2_live env seg open₂
  · exact .inr (.inr open_)

theorem handleClosing_live (open_ : c.st.state ≠ .closed) : (c.handleClosing env seg).Live := by
  unfold handleClosing
  split
  · refine .andThen (processTcpAck_open env seg open_) fun open₁ => ?_
    split
    · exact .inr (.inr open₁)
    split
    · exact .inr (.inr open₁)
    · exact .of_state (state_of_view (view_timewaitListAdd env _)) (by exact nofun)
  · exact .inr (.inr open_)

theorem handleRst_live (open_ : c.st.state ≠ .closed) : (c.handleRst seg).Live := by
  unfold handleRst
  cases state : c.st.state with
  | synRcvd =>
      dsimp only
      split
      · exact .destroyed _
      · exact .inr (.inr open_)
  | finWait1 | finWait2 | lastAck | closing | timeWait => exact .destroyed _
  | closed | listen | synSent | established | closeWait =>
      dsimp only
      split
      · exact .inr (.inr open_)
      · exact .of_state (state_of_view (view_raiseEvent _ _)) (by exact nofun)

/-- The segment completes the handshake of a passive open. -/
def Completes (s : TcpStream) : Prop :=
  s.state = .synRcvd ∧ seg.rst = false ∧ (seg.syn && seg.seq == s.irs) = false ∧
    seg.ack = true ∧ seg.ackSeq = s.iss + 1 ∧ s.listener = true

instance (s : TcpStream) : Decidable (Completes seg s) :=
  inferInstanceAs (Decidable (_ ∧ _ ∧ _ ∧ _ ∧ _ ∧ _))

/-- With room in the accept queue, or without a listener to dereference. -/
theorem raiseAcceptEvent_open (open_ : c.st.state ≠ .closed)
    (room : c.st.listener = true → env.acceptRoom = true) :
    (c.raiseAcceptEvent env).view.halted = true ∨ (c.raiseAcceptEvent env).st.state ≠ .closed := by
  unfold raiseAcceptEvent
  split
  · exact .inl rfl
  · rename_i known
    refine .inr ?_
    have listens : c.st.listener = true := by
      cases l : c.st.listener
      · simp [l] at known
      · rfl
    dsimp only
    rw [if_pos (room listens)]
    split <;> exact open_

theorem handleSynRcvd_live (now : c.st.state = .synRcvd)
    (room : seg.ack = true → seg.ackSeq = c.st.iss + 1 → c.st.listener = true →
      env.acceptRoom = true) :
    ((c.handleSynRcvd env seg).andThen fun c =>
      if 0 < seg.payloadLen ∧ c.st.state = .established then c.handleEstablished env seg
      else c).Live := by
  have open_ : c.st.state ≠ .closed := by
    rw [now]
    exact nofun
  have first : (c.handleSynRcvd env seg).view.halted = true ∨
      (c.handleSynRcvd env seg).st.state ≠ .closed := by
    unfold handleSynRcvd
    split
    · rename_i ack
      split
      · exact .inr open_
      · rename_i exact_
        apply raiseAcceptEvent_open
        · exact nofun
        · intro listens
          refine room ack (not_not.mp exact_) ?_
          rw [← listens]
          change c.st.listener = (rtoListRemove _).st.listener
          unfold rtoListRemove
          split <;> rfl
    · refine .inr ?_
      rw [state_of_view (view_controlQueueAdd env _)]
      exact open_
  refine .andThen first fun open₁ => ?_
  split
  · rename_i data
    exact handleEstablished_live env seg data.2
  · exact .inr (.inr open₁)

theorem handleSegment_live (open_ : c.st.state ≠ .closed) (kept : seg.rst = false)
    (room : Completes seg c.st → env.acceptRoom = true) : (c.handleSegment env seg).Live := by
  unfold handleSegment
  cases state : c.st.state with
  | listen => exact handleListen_live env seg open_
  | synSent => exact handleSynSent_live env seg open_
  | synRcvd =>
      dsimp only
      split
      · exact handleListen_live env seg open_
      · rename_i fresh
        rw [Bool.not_eq_true] at fresh
        exact handleSynRcvd_live env seg state fun ack exact_ listens =>
          room ⟨state, kept, fresh, ack, exact_, listens⟩
  | established => exact handleEstablished_live env seg state
  | closeWait => exact handleCloseWait_live env seg open_
  | lastAck => exact handleLastAck_live env seg open_
  | finWait1 => exact handleFinWait1_live env seg open_
  | finWait2 => exact handleFinWait2_live env seg open_
  | closing => exact handleClosing_live env seg open_
  | timeWait => exact .of_view open_ (handleTimeWait_view env c)
  | closed => exact absurd state open_

/-- What `Completes` reads of a stream. -/
def handshakeVars (s : TcpStream) : TcpState × Seq × Seq × Bool :=
  (s.state, s.irs, s.iss, s.listener)

theorem Completes.congr {s s' : TcpStream} (same : handshakeVars s' = handshakeVars s)
    (completes : Completes seg s') : Completes seg s := by
  simp only [handshakeVars, Prod.mk.injEq] at same
  obtain ⟨state, irs, iss, listener⟩ := same
  unfold Completes at completes ⊢
  rw [← state, ← irs, ← iss, ← listener]
  exact completes

theorem acceptSegment_live (open_ : c.st.state ≠ .closed)
    (room : Completes seg c.st → env.acceptRoom = true) : (c.acceptSegment env seg).Live := by
  unfold acceptSegment
  dsimp only
  generalize updated : timeoutListUpdate env _ = c₁
  have vars₁ : handshakeVars c₁.st = handshakeVars c.st := by
    rw [← updated, timeoutListUpdate_st]
    rfl
  have vars₂ : handshakeVars (if seg.rst = true then
      c₁.modify fun s => { s with haveReset := true } else c₁).st = handshakeVars c.st := by
    split <;> exact vars₁
  generalize (if seg.rst = true then c₁.modify fun s => { s with haveReset := true } else c₁) =
    c₂ at vars₂ ⊢
  have now : c₂.st.state = c.st.state := congrArg Prod.fst vars₂
  have open₂ : c₂.st.state ≠ .closed := now ▸ open_
  split
  · exact handleRst_live seg open₂
  · rename_i passed
    by_cases rst : seg.rst = true
    · -- a reset is only left to the handlers of LISTEN and SYN_SENT
      have early : ¬ TcpState.synSent.val < c₂.st.state.val := by
        simpa [rst] using passed
      unfold handleSegment
      cases state : c₂.st.state with
      | listen => exact handleListen_live env seg open₂
      | synSent => exact handleSynSent_live env seg open₂
      | closed => exact absurd state open₂
      | synRcvd | established | finWait1 | finWait2 | closeWait | closing | lastAck | timeWait =>
          rw [state] at early
          exact absurd (by decide) early
    · rw [Bool.not_eq_true] at rst
      exact handleSegment_live env seg open₂ rst fun completes =>
        room (Completes.congr seg vars₂ completes)

theorem validateSegment_live (open_ : c.st.state ≠ .closed)
    (room : Completes seg c.st → env.acceptRoom = true) : (c.validateSegment env seg).Live := by
  unfold validateSegment
  split
  · rcases checkSequenceValidation_cases env seg c with ⟨passed, -⟩ | ⟨refused, view⟩
    · rw [passed]
      exact acceptSegment_live env seg open_ room
    · generalize c.checkSequenceValidation env seg = checked at refused view
      obtain ⟨passed, c'⟩ := checked
      dsimp only at refused view ⊢
      subst refused
      exact .of_view open_ view
  · exact acceptSegment_live env seg open_ room

theorem parseOptions_vars (c : Cx) :
    (c.parseOptions env seg).view.halted = true ∨
      handshakeVars (c.parseOptions env seg).st = handshakeVars c.st := by
  rcases parseOptions_cases env seg c with hangs | ⟨o, parsed⟩
  · rw [hangs]
    exact .inl rfl
  · rw [parsed]
    exact .inr rfl

/-- A segment closes the stream without destroying it only when it completes a handshake that the
accept queue has no room for. -/
theorem processSegment_live (open_ : c.st.state ≠ .closed)
    (room : Completes seg c.st → env.acceptRoom = true) : (c.processSegment env seg).Live := by
  unfold processSegment
  dsimp only
  have read : (if (seg.syn && (c.receive seg).st.state != .synSent) = true then
        (c.receive seg).parseOptions env seg else c.receive seg).view.halted = true ∨
      handshakeVars (if (seg.syn && (c.receive seg).st.state != .synSent) = true then
        (c.receive seg).parseOptions env seg else c.receive seg).st = handshakeVars c.st := by
    split
    · exact parseOptions_vars env seg (c.receive seg)
    · exact .inr rfl
  generalize (if (seg.syn && (c.receive seg).st.state != .synSent) = true then
    (c.receive seg).parseOptions env seg else c.receive seg) = c₁ at read ⊢
  rcases andThen_cases c₁ _ with ⟨halted, same⟩ | ⟨running, next⟩
  · rw [same]
    exact .inl halted
  · rw [next]
    rw [running] at read
    have vars := read.resolve_left Bool.false_ne_true
    have now : c₁.st.state = c.st.state := congrArg Prod.fst vars
    apply validateSegment_live
    · rw [modify_st]
      exact now ▸ open_
    · exact fun completes => room (Completes.congr seg vars completes)

end Handlers

end Cx

/-! ## Runs -/

namespace Conn

/-- The stream is out of the flow table, or it is not closed. -/
def NoZombie (s : Conn) : Prop := s.ended = true ∨ s.st.state ≠ .closed

/-- A passive handshake completes only when the accept queue has room. -/
def AcceptOk (s : Conn) (e : ConnEvent) : Prop :=
  match e.call with
  | .packet seg => Cx.Completes seg s.st → e.env.acceptRoom = true
  | _ => True

theorem noZombie_of_live {s : Conn} (live : s.cx.Live) : s.NoZombie := by
  rcases live with halted | destroyed | open_
  · exact .inl (by rw [ended, Bool.or_eq_true]; exact .inl halted)
  · exact .inl (by rw [ended, Bool.or_eq_true]; exact .inr destroyed)
  · exact .inr open_

theorem ControlMove.state {v v' : View} (move : ControlMove v v') : v'.state = v.state := by
  cases move <;> rfl

/-- What a move other than a segment leaves. -/
theorem Move.live {s : Conn} {call : ConnCall} {v : View} (open_ : s.st.state ≠ .closed)
    (other : ∀ seg, call ≠ .packet seg) (move : Move s call v) :
    v.state ≠ .closed ∨ v.destroyed = true := by
  cases move with
  | same => exact .inl open_
  | syn => exact absurd rfl (other _)
  | data => exact absurd rfl (other _)
  | put => exact .inl open_
  | received => exact .inl open_
  | closed _ move =>
      cases move with
      | same closed => exact absurd closed open_
      | reset => exact .inr rfl
      | closing =>
          refine .inl ?_
          change s.st.state.afterClose ≠ .closed
          revert open_
          cases s.st.state <;> decide
  | control _ move => exact .inl (ControlMove.state move ▸ open_)
  | flushed _ _ _ _ flushed =>
      refine .inl ?_
      rw [flushed.frame]
      exact open_
  | rto _ move =>
      cases move with
      | lost => exact .inr rfl
      | retransmit | control => exact .inl open_
  | expired => exact .inr rfl

theorem serve_noZombie (s : Conn) (e : ConnEvent) (open_ : s.st.state ≠ .closed)
    (ok : s.AcceptOk e) : (s.serve e).NoZombie := by
  rcases e.packet_or_other with ⟨seg, call⟩ | other
  · unfold AcceptOk at ok
    rw [call] at ok
    apply noZombie_of_live
    unfold serve
    rw [call]
    exact Cx.processSegment_live e.env seg open_ ok
  · rcases serve_move s e with halted | move
    · exact noZombie_of_live (.inl halted)
    · rcases move.live open_ other with kept | destroyed
      · exact .inr kept
      · exact noZombie_of_live (.inr (.inl destroyed))

theorem step_noZombie (s : Conn) (e : ConnEvent) (inv : s.NoZombie) (ok : s.AcceptOk e) :
    (s.step e).NoZombie := by
  unfold step
  split
  · exact inv
  · rename_i running
    exact serve_noZombie s e (inv.resolve_left running) ok

theorem Start.noZombie {n : Nat} {s : Conn} (start : Start n s) : s.NoZombie := by
  cases start with
  | passive rcvbufSize iss env seg syn noAck =>
      apply noZombie_of_live
      rcases Cx.passiveOpen_view env seg { st := tcpStreamCreate rcvbufSize n seg.seq iss } rfl syn
        with halted | view
      · exact .inl halted
      · exact .of_state (congrArg (fun v : View => v.state) view) (by exact nofun)
  | active rcvbufSize iss env =>
      apply noZombie_of_live
      exact .of_state (Cx.state_of_view (Cx.view_controlQueueAdd env _)) (by exact nofun)

/-- **No zombie streams.**  As long as the accept queue has room whenever a passive handshake
completes, a stream that is still in the flow table is never closed. -/
theorem no_zombie {n : Nat} {s : Conn} (start : Start n s) (es : List ConnEvent)
    (ok : Lib.Run.Allowed step AcceptOk s es) : Lib.Run.Along step NoZombie s es :=
  Lib.Run.along_of_step step_noZombie es s start.noZombie ok

/-- The SYN of a peer, and a connection that has answered it. -/
def knocked : Conn := passive 32 8 500 {} { seq := 99, syn := true }

/-- The acknowledgement that completes the handshake. -/
def completion (acceptRoom : Bool) : ConnEvent :=
  { call := .packet { seq := 100, ackSeq := 501, ack := true }
    env := { acceptRoom := acceptRoom } }

/-- The connection is accepted, reset by the peer and closed by the application. -/
theorem no_zombie_resetRun :
    Lib.Run.Along step NoZombie knocked
      [completion true, { call := .packet { seq := 100, rst := true } }, { call := .close },
        { call := .handleClose }] := by
  refine no_zombie (.passive 32 500 {} { seq := 99, syn := true } rfl rfl) _
    ⟨fun _ => rfl, ?_, trivial, trivial, trivial⟩
  exact fun completes => absurd completes.2.1 (by decide)

/-- With the accept queue full the stream is closed and stays in the flow table, also when another
segment finds it there. -/
theorem closed_stream_stays :
    ¬ Lib.Run.Along step NoZombie knocked
      [completion false, { call := .packet { seq := 100, ackSeq := 501, ack := true } }] := by
  intro along
  rcases Lib.Run.Along.last _ _ along with ended | open_
  · revert ended
    decide +kernel
  · revert open_
    decide +kernel

end Conn

end QStack
