/-
# QStack.TimerCoverage -- nothing unacknowledged is left without a timer

Whatever has been sent and not acknowledged should leave the stream on rto_list or waiting on the
control queue or a send event queue.  The timer is armed by every packet that takes a sequence
number; it is cancelled by an acknowledgement that reaches `snd_nxt`, and taken off by its own
expiry, which queues the stream instead.

Two things go wrong.  `snd_nxt` is rolled back by every loss, so that an acknowledgement reaches
it while mbufs, or the FIN, are still out.  And the control queue, on which an expiry in
CLOSE_WAIT puts the stream, sends a bare ACK in some states and nothing at all without an mbuf;
neither arms the timer (`closeWait_uncovered`).  `TimerOk` excludes these; `timer_coverage` says
that there is nothing else.
-/
import QStack.TimerCalls

namespace QStack

set_option autoImplicit false

/-! ## Everything is acknowledged -/

theorem SndBuff.removeAcked_all {a : Seq} {ms : List SndMbuf}
    (all : ∀ m ∈ ms, tcpSeqLeq m.seqEnd a = true) : (SndBuff.removeAcked a ms).2 = [] := by
  induction ms with
  | nil => rfl
  | cons m rest ih =>
      rw [SndBuff.removeAcked, if_pos (all m List.mem_cons_self)]
      exact ih fun m' inside => all m' (List.mem_cons_of_mem m inside)

/-- An acknowledgement that cancels the timer and reaches the end of every sent mbuf empties both
lists. -/
theorem Cx.Retired.cleared {s : TcpStream} {seg : Segment} {b : SndBuff}
    (retired : Cx.Retired s seg b) (cancels : s.cancels seg = true)
    (all : ∀ m ∈ s.sndbuf.uackList ++ s.sndbuf.retransList,
      tcpSeqLeq m.seqEnd (s.adjustAck seg.ackSeq) = true) : b.sentIds = [] := by
  obtain ⟨fast, rfl⟩ := retired
  unfold TcpStream.cancels at cancels
  dsimp only at cancels
  generalize s.adjustAck seg.ackSeq = a at cancels all ⊢
  rw [Bool.and_eq_true, Bool.and_eq_true, Bool.not_eq_true'] at cancels
  obtain ⟨⟨enough, beyond⟩, reached⟩ := cancels
  have rolled : (if fast then s.core.rollback a else s.core) = s.core := by
    split
    · rw [Core.rollback, if_neg]
      rw [tcpSeqGeq_eq, Bool.not_eq_true'] at reached
      rw [Bool.not_eq_true]
      exact reached
    · rfl
  have buff : (s.core.recover a).sndbuf = s.sndbuf := by
    unfold Core.recover
    split <;> rfl
  have above : tcpSeqGeq s.sndbuf.headSeq a = false := by
    rw [tcpSeqGeq_eq, beyond]
    rfl
  have kept : tcpSeqGt a (s.core.sndbuf.headSeq + s.core.sndbuf.sbLen) = false := enough
  rw [Core.onAck, if_neg (by rw [kept]; exact Bool.false_ne_true), rolled, Core.retire, buff,
    if_neg (by rw [above]; exact Bool.false_ne_true)]
  have uack := SndBuff.removeAcked_all fun m inside => all m (List.mem_append_left _ inside)
  have retrans := SndBuff.removeAcked_all fun m inside => all m (List.mem_append_right _ inside)
  simp only [SndBuff.sentIds, SndBuff.sbRemoveAcked, uack, retrans, List.append_nil, List.map_nil]

/-! ## Runs -/

namespace Conn

/-- The stream is on rto_list or the control queue, or a send event waits for it. -/
def Covered (s : Conn) : Prop :=
  s.st.onRto = true ∨ s.st.onControlQueue = true ∨ s.served < s.cx.posted

/-- A SYN is unacknowledged until the handshake ends, a FIN in the states that wait for it. -/
def Unacked (state : TcpState) (acked : List MbufId) (p : Sent) : Prop :=
  (p.syn = true ∧ state.isSyn = true) ∨ (p.fin = true ∧ state.awaitsFinAck = true) ∨
    ∃ id ∈ p.data, id ∉ acked

def Outstanding (s : Conn) : Prop := ∃ p ∈ s.view.sent, Unacked s.st.state s.acked p

/-- **Retransmission timer coverage.** -/
def TimerLaw (s : Conn) : Prop :=
  s.ended = false → s.st.state.waits = true → s.Outstanding → s.Covered

/-- The segment acknowledges everything that was sent: no sent mbuf has been dropped, all of them
end where it acknowledges or before, and the FIN, if sent, is acknowledged. -/
structure AcksAll (s : Conn) (seg : Segment) : Prop where
  listed : ∀ p ∈ s.view.sent, ∀ id ∈ p.data, id ∈ s.acked ∨ id ∈ s.st.sndbuf.sentIds
  reached : ∀ m ∈ s.st.sndbuf.uackList ++ s.st.sndbuf.retransList,
    tcpSeqLeq m.seqEnd (s.st.adjustAck seg.ackSeq) = true
  fin : s.st.isFinSent = true → s.st.state.awaitsFinAck = true → seg.ackSeq = s.st.fss + 1

/-- The control queue sends a SYN or a FIN. -/
def controlCounts (s : Conn) : Prop :=
  s.st.state = .synSent ∨ s.st.state = .synRcvd ∨ s.st.core.sendsFin = true

/-- The sender queues have room, and a step that takes the timer or the control queue away leaves
nothing unacknowledged without the other, or without a send event. -/
def TimerOk (s : Conn) (e : ConnEvent) : Prop :=
  (e.env.controlRoom = true ∧ e.env.sendRoom = true) ∧
    match e.call with
    | .packet seg => s.st.reachesAck seg = true → s.st.cancels seg = true →
        ¬ (s.st.state = .lastAck ∧ s.st.isFinSent = true) →
        s.st.onControlQueue = true ∨ s.served < s.cx.posted ∨ s.AcksAll seg
    | .serveControl => s.st.onControlQueue = true → s.Outstanding →
        s.st.onRto = true ∨ s.served < s.cx.posted ∨ (s.controlCounts ∧ e.avail ≠ 0)
    | _ => True

/-! ## The invariant -/

structure TimerInv (s : Conn) : Prop where
  off : s.st.state.waits = true → s.st.onTimewaitList = false
  due : s.st.state.waits = true → s.served ≤ s.cx.posted
  early : s.st.state.isSyn = true → ∀ p ∈ s.view.sent, p.fin = false ∧ p.data = none
  noted : ∀ p ∈ s.view.sent, p.fin = true → s.st.isFinSent = true
  covered : s.st.state.waits = true → s.Outstanding → s.Covered

section Step

variable {s s' : Conn} {e : ConnEvent}

theorem Outstanding.before (outstanding : s'.Outstanding)
    (sent : ∀ p ∈ s'.view.sent, p ∈ s.view.sent) (acked : ∀ id ∈ s.acked, id ∈ s'.acked)
    (syn : s'.st.state.isSyn = true → s.st.state.isSyn = true)
    (fin : s'.st.state.awaitsFinAck = true → s.st.state.awaitsFinAck = true) : s.Outstanding := by
  obtain ⟨p, inside, first | last | ⟨id, data, new⟩⟩ := outstanding
  · exact ⟨p, sent p inside, .inl ⟨first.1, syn first.2⟩⟩
  · exact ⟨p, sent p inside, .inr (.inl ⟨last.1, fin last.2⟩)⟩
  · exact ⟨p, sent p inside, .inr (.inr ⟨id, data, fun old => new (acked id old)⟩)⟩

theorem Covered.stays (covered : s.Covered) (stays : (s.entry e).Stays s'.cx)
    (served : s'.served = s.served) : s'.Covered := by
  rcases covered with rto | control | due
  · exact .inl (stays.rto rto)
  · exact .inr (.inl (stays.control control))
  · exact .inr (.inr (served ▸ due.trans_le stays.posted))

/-- A segment does not lead into the states that wait, nor send anything. -/
theorem packet_frame {seg : Segment} {v : View} (move : Move s (.packet seg) v) :
    (v.sent = s.view.sent ∧ v.isFinSent = s.st.isFinSent) ∧
      (v.state.waits = true → s.st.state.waits = true) ∧
      (v.state.isSyn = true → s.st.state.isSyn = true) ∧
      (v.state.awaitsFinAck = true → s.st.state.awaitsFinAck = true) := by
  cases move with
  | same => exact ⟨⟨rfl, rfl⟩, id, id, id⟩
  | syn early move =>
      have waits : s.st.state.waits = true := by
        revert early
        cases s.st.state <;> decide
      refine ⟨?_, fun _ => waits, fun _ => early, ?_⟩
      · cases move with
        | same | listened | refused | rstAcked | bareAcked | synAcked | simultaneous | noAck =>
            exact ⟨rfl, rfl⟩
        | acked st k r _ _ _ core _ after =>
            have fin : st.core.isFinSent = s.st.isFinSent := by
              rw [core]
              rfl
            refine ⟨rfl, ?_⟩
            obtain ⟨state, -, same | ⟨fast, processed⟩⟩ := after
            · rw [same]
              exact fin
            · rw [processed]
              exact (Core.onAck_isFinSent _ _ _).trans fin
      · intro awaits
        cases move with
        | same => exact awaits
        | listened | refused | rstAcked | synAcked | simultaneous => cases awaits
        | bareAcked | noAck => exact awaits
        | acked st k r _ _ _ _ _ after =>
            obtain ⟨state, group, after⟩ := after
            have left : state.awaitsFinAck = false := by
              revert group
              cases state <;> decide
            rcases after with same | ⟨fast, processed⟩
            · rw [same] at awaits
              exact absurd (left.symm.trans awaits) Bool.false_ne_true
            · rw [processed] at awaits
              exact absurd (left.symm.trans awaits) Bool.false_ne_true
  | data late move =>
      have groups : ∀ state, s.st.state.follows state = true →
          (state.waits = true → s.st.state.waits = true) ∧
          (state.isSyn = true → s.st.state.isSyn = true) ∧
          (state.awaitsFinAck = true → s.st.state.awaitsFinAck = true) := by
        intro state legal
        revert late legal
        cases s.st.state <;> cases state <;> decide
      cases move with
      | same => exact ⟨⟨rfl, rfl⟩, id, id, id⟩
      | moved state legal => exact ⟨⟨rfl, rfl⟩, groups state legal⟩
      | reset => exact ⟨⟨rfl, rfl⟩, nofun, nofun, nofun⟩
      | acked state _ legal =>
          exact ⟨⟨rfl, Core.onAck_isFinSent _ _ _⟩, groups state legal⟩
      | finWait1 state _ _ sent _ legal =>
          have left : state.waits = false ∧ state.isSyn = false ∧ state.awaitsFinAck = false := by
            revert legal
            cases state <;> decide
          refine ⟨⟨rfl, ?_⟩, ?_, ?_, ?_⟩
          · have same : ((s.st.acked seg).recover seg.ackSeq).isFinSent =
                (s.st.acked seg).isFinSent := by
              unfold Core.recover
              split <;> rfl
            exact same.trans (Core.onAck_isFinSent _ _ _)
          · exact fun waits => absurd (left.1.symm.trans waits) Bool.false_ne_true
          · exact fun waits => absurd (left.2.1.symm.trans waits) Bool.false_ne_true
          · exact fun waits => absurd (left.2.2.symm.trans waits) Bool.false_ne_true
      | closing => exact ⟨⟨rfl, Core.onAck_isFinSent _ _ _⟩, nofun, nofun, nofun⟩
      | lastAck => exact ⟨⟨rfl, Core.onAck_isFinSent _ _ _⟩, nofun, nofun, nofun⟩
  | expired timer => rcases timer with timer | timer <;> cases timer

/-- A step that sends nothing and keeps what was covered. -/
theorem TimerInv.next (inv : s.TimerInv) (sent : s'.view.sent = s.view.sent)
    (fin : s'.st.isFinSent = s.st.isFinSent)
    (waits : s'.st.state.waits = true → s.st.state.waits = true)
    (syn : s'.st.state.isSyn = true → s.st.state.isSyn = true)
    (queued : s'.st.state.waits = true → (s.entry e).Queued s'.cx ∧ s'.served = s.served)
    (covered : s'.st.state.waits = true → s'.Outstanding → s'.Covered) : s'.TimerInv where
  off := fun stays => (queued stays).1.still (inv.off (waits stays))
  due := by
    intro stays
    obtain ⟨queued, served⟩ := queued stays
    rw [served]
    exact (inv.due (waits stays)).trans queued.posted
  early := by
    rw [sent]
    exact fun early => inv.early (syn early)
  noted := by
    rw [sent, fin]
    exact inv.noted
  covered := covered

/-- A call that leaves the state, sends nothing and takes nothing away. -/
theorem TimerInv.stays (inv : s.TimerInv) (sent : s'.view.sent = s.view.sent)
    (fin : s'.st.isFinSent = s.st.isFinSent) (state : s'.st.state = s.st.state)
    (acked : s'.acked = s.acked) (served : s'.served = s.served)
    (stays : (s.entry e).Stays s'.cx) :
    s'.TimerInv := by
  refine inv.next sent fin (by rw [state]; exact id) (by rw [state]; exact id)
    (fun _ => ⟨stays.toQueued, served⟩) fun waits outstanding => ?_
  rw [state] at waits
  have before : s.Outstanding := by
    refine outstanding.before (fun p inside => sent ▸ inside) (fun id old => acked.symm ▸ old) ?_ ?_
    · rw [state]
      exact id
    · rw [state]
      exact id
  exact (inv.covered waits before).stays stays served

/-- The segment acknowledges all there was, so nothing is left. -/
theorem AcksAll.done {seg : Segment} (all : s.AcksAll seg) (inv : s.TimerInv) {c : Cx}
    (strands : s.st.Strands seg) (retired : Cx.Retired s.st seg c.st.sndbuf)
    (sent : s'.view.sent = s.view.sent) (late : s'.st.state.isSyn = false)
    (awaits : s'.st.state.awaitsFinAck = true → s.st.state.awaitsFinAck = true)
    (acked : s'.acked =
      (s.st.sndbuf.sentIds.filter fun id => id ∉ c.st.sndbuf.sentIds) ++ s.acked) :
    ¬ s'.Outstanding := by
  have none := retired.cleared strands.cancels all.reached
  rintro ⟨p, inside, first | last | ⟨id, data, new⟩⟩
  · rw [late] at first
    cases first.2
  · rw [sent] at inside
    have noted := inv.noted p inside last.1
    exact strands.fin noted (awaits last.2) (all.fin noted (awaits last.2))
  · rw [sent] at inside
    apply new
    rw [acked, none]
    rcases all.listed p inside id data with old | listed
    · exact List.mem_append_right _ old
    · exact List.mem_append_left _ (List.mem_filter.mpr ⟨listed, by simp⟩)

/-- **A segment.** -/
theorem packet_timer (inv : s.TimerInv) (ok : s.TimerOk e) {seg : Segment}
    (call : e.call = .packet seg) : (s.serve e).ended = true ∨ (s.serve e).TimerInv := by
  obtain ⟨⟨controlRoom, sendRoom⟩, ok⟩ := ok
  rw [call] at ok
  have served : s.serve e = { s with
      cx := (s.entry e).processSegment e.env seg
      acked := ((s.entry e).st.sndbuf.sentIds.filter fun id =>
        id ∉ ((s.entry e).processSegment e.env seg).st.sndbuf.sentIds) ++ s.acked
      peerIss := if (s.entry e).st.state = .synSent ∧ seg.syn then seg.seq else s.peerIss } := by
    unfold serve
    dsimp only
    rw [call]
  rcases packet_move s e seg with halted | move
  · refine .inl ?_
    rw [served, ended, Conn.view, halted]
    rfl
  obtain ⟨⟨sent, fin⟩, waits, syn, awaits⟩ := packet_frame move
  rw [served]
  generalize after : (s.entry e).processSegment e.env seg = c at sent fin waits syn awaits ⊢
  -- what was outstanding after the segment was so before
  have earlier : ∀ {s' : Conn}, s'.cx = c → (∀ id ∈ s.acked, id ∈ s'.acked) →
      s'.Outstanding → s.Outstanding := by
    rintro s' rfl acked outstanding
    exact outstanding.before (fun p inside => sent ▸ inside) acked syn awaits
  by_cases early : s.st.state.isSyn = true
  · have waited : s.st.state.waits = true := by
      revert early
      cases s.st.state <;> decide
    have awaited := Cx.processSegment_awaits e.env seg (s.entry e) early (inv.off waited) sendRoom
    rw [after] at awaited
    rcases awaited with halted | ⟨queued, rest⟩
    · exact .inl (by rw [ended, Conn.view, halted]; rfl)
    refine .inr (inv.next sent fin waits syn (fun _ => ⟨queued, rfl⟩) fun _ outstanding => ?_)
    rcases rest with left | rto
    · -- the handshake is over, and nothing but the SYN had been sent
      exfalso
      obtain ⟨p, inside, first | last | ⟨id, data, -⟩⟩ := outstanding
      · exact absurd (left.symm.trans first.2) Bool.false_ne_true
      · rw [sent] at inside
        exact absurd ((inv.early early p inside).1.symm.trans last.1) Bool.false_ne_true
      · rw [sent] at inside
        rw [(inv.early early p inside).2] at data
        cases data
    · have before := earlier rfl (fun id old => List.mem_append_right _ old) outstanding
      exact (inv.covered waited before).stays ⟨queued, rto⟩ rfl
  by_cases waited : s.st.state.waits = true
  · have late : s.st.state.isOpen = true ∨ s.st.state.awaitsFinAck = true := by
      revert early waited
      cases s.st.state <;> decide
    have covers := Cx.processSegment_covers e.env seg (s.entry e) late (inv.off waited) sendRoom
      controlRoom
    rw [after] at covers
    rcases covers with halted | left | ⟨queued, kept⟩
    · exact .inl (by rw [ended, Conn.view, halted]; rfl)
    · refine .inr (inv.next (e := e) sent fin waits syn ?_ ?_)
      · exact fun waits => absurd (left.symm.trans waits) Bool.false_ne_true
      · exact fun waits => absurd (left.symm.trans waits) Bool.false_ne_true
    refine .inr (inv.next sent fin waits syn (fun _ => ⟨queued, rfl⟩) fun _ outstanding => ?_)
    have before := earlier rfl (fun id old => List.mem_append_right _ old) outstanding
    rcases kept with rto | posts | control | ⟨strands, retired⟩
    · exact (inv.covered waited before).stays ⟨queued, rto⟩ rfl
    · exact .inr (.inr ((inv.due waited).trans_lt posts))
    · exact .inr (.inl control)
    · rcases ok strands.reaches strands.cancels strands.queued with control | due | all
      · exact .inr (.inl (queued.control control))
      · exact .inr (.inr (due.trans_le queued.posted))
      · have left : c.st.state.isSyn = false := by
          rw [Bool.eq_false_iff]
          exact fun is => early (syn is)
        exact absurd outstanding (all.done inv strands retired sent left awaits rfl)
  · refine .inr (inv.next (e := e) sent fin waits syn ?_ ?_)
    · exact fun waits' => absurd (waits waits') waited
    · exact fun waits' => absurd (waits waits') waited

/-- A call that is none of the stack's services leaves the state and what was sent. -/
theorem quiet_frame {call : ConnCall} {v : View} (move : Move s call v)
    (quiet : (∃ len highPri, call = .send len highPri) ∨ call = .recv ∨ call = .close ∨
      call = .serveAck) :
    v.sent = s.view.sent ∧ v.isFinSent = s.st.isFinSent ∧ v.state = s.st.state := by
  cases move with
  | same | put | received => exact ⟨rfl, rfl, rfl⟩
  | syn | data | closed | control | flushed | rto => simp at quiet
  | expired timer =>
      rcases timer with rfl | rfl
      · simp at quiet
      · simp at quiet

/-- The calls that take nothing away and leave the state. -/
theorem quiet_timer (inv : s.TimerInv)
    (quiet : (∃ len highPri, e.call = .send len highPri) ∨ e.call = .recv ∨ e.call = .close ∨
      e.call = .serveAck)
    (acked : (s.serve e).acked = s.acked) (served : (s.serve e).served = s.served)
    (stays : (s.entry e).Stays (s.serve e).cx) :
    (s.serve e).ended = true ∨ (s.serve e).TimerInv := by
  rcases serve_move s e with halted | move
  · refine .inl ?_
    rw [ended, halted]
    rfl
  · obtain ⟨sent, fin, state⟩ := quiet_frame move quiet
    exact .inr (inv.stays sent fin state acked served stays)

theorem handleClose_timer (inv : s.TimerInv) (ok : s.TimerOk e) (call : e.call = .handleClose) :
    (s.serve e).ended = true ∨ (s.serve e).TimerInv := by
  obtain ⟨⟨controlRoom, -⟩, -⟩ := ok
  have serves : s.serve e = if s.closeQueued then
      { s with cx := (s.entry e).handleCloseCall e.env, closeQueued := false } else s := by
    unfold serve
    dsimp only
    rw [call]
  rw [serves]
  split
  swap
  · exact .inr inv
  have stays := Cx.handleCloseCall_stays e.env (s.entry e)
  have queues := Cx.handleCloseCall_queues e.env (s.entry e) controlRoom
  rcases Cx.handleCloseCall_move e.env (s.entry e) with halted | move
  · exact .inl (by rw [ended, Conn.view, halted]; rfl)
  generalize (s.entry e).handleCloseCall e.env = c at stays queues move ⊢
  have frame : c.view.sent = s.view.sent ∧ c.view.isFinSent = s.st.isFinSent ∧
      (c.view.state.waits = true → s.st.state.waits = true) ∧
      (c.view.state.isSyn = true → s.st.state.isSyn = true) := by
    generalize c.view = v at move
    cases move with
    | same => exact ⟨rfl, rfl, id, id⟩
    | reset =>
        refine ⟨rfl, rfl, fun waits => ?_, fun syn => ?_⟩
        · exact absurd waits Bool.false_ne_true
        · exact absurd syn Bool.false_ne_true
    | closing =>
        refine ⟨rfl, rfl, ?_⟩
        change ((s.st.state.afterClose).waits = true → _) ∧ (s.st.state.afterClose.isSyn = true → _)
        cases s.st.state <;> decide
  obtain ⟨sent, fin, waits, syn⟩ := frame
  rcases queues with halted | left | control
  · exact .inl (by rw [ended, Conn.view, halted]; rfl)
  · refine .inr (inv.next (e := e) sent fin waits syn ?_ ?_)
    · exact fun waits => absurd (left.symm.trans waits) Bool.false_ne_true
    · exact fun waits => absurd (left.symm.trans waits) Bool.false_ne_true
  · exact .inr (inv.next sent fin waits syn (fun _ => ⟨stays.toQueued, rfl⟩)
      fun _ _ => .inr (.inl control))

theorem rto_timer (inv : s.TimerInv) (ok : s.TimerOk e) (call : e.call = .rto) :
    (s.serve e).ended = true ∨ (s.serve e).TimerInv := by
  obtain ⟨⟨controlRoom, sendRoom⟩, -⟩ := ok
  have serves : s.serve e = if s.st.onRto then
      { s with cx := (s.entry e).rtoListCheck e.env } else s := by
    unfold serve
    dsimp only
    rw [call]
    rfl
  rw [serves]
  split
  swap
  · exact .inr inv
  have queues := Cx.rtoListCheck_queues e.env (s.entry e) sendRoom controlRoom
  rcases Cx.rtoListCheck_move e.env (s.entry e) with halted | move
  · exact .inl (by rw [ended, Conn.view, halted]; rfl)
  generalize (s.entry e).rtoListCheck e.env = c at queues move ⊢
  have frame : c.view.sent = s.view.sent ∧ c.view.isFinSent = s.st.isFinSent ∧
      (c.view.state.waits = true → s.st.state.waits = true) ∧
      (c.view.state.isSyn = true → s.st.state.isSyn = true) := by
    generalize c.view = v at move
    cases move with
    | lost =>
        refine ⟨rfl, rfl, fun waits => ?_, fun syn => ?_⟩
        · exact absurd waits Bool.false_ne_true
        · exact absurd syn Bool.false_ne_true
    | retransmit | control => exact ⟨rfl, rfl, id, id⟩
  obtain ⟨sent, fin, waits, syn⟩ := frame
  rcases queues with halted | left | ⟨queued, posts | control⟩
  · exact .inl (by rw [ended, Conn.view, halted]; rfl)
  · refine .inr (inv.next (e := e) sent fin waits syn ?_ ?_)
    · exact fun waits => absurd (left.symm.trans waits) Bool.false_ne_true
    · exact fun waits => absurd (left.symm.trans waits) Bool.false_ne_true
  · exact .inr (inv.next sent fin waits syn (fun _ => ⟨queued, rfl⟩)
      fun waited _ => .inr (.inr ((inv.due (waits waited)).trans_lt posts)))
  · exact .inr (inv.next sent fin waits syn (fun _ => ⟨queued, rfl⟩)
      fun _ _ => .inr (.inl control))

theorem mem_transmit {v : View} {flags : SendFlags} {data : Option MbufId} {len : Nat} {p : Sent}
    (inside : p ∈ (v.transmit flags data len).sent) :
    p ∈ v.sent ∨ (p.fin = (flags.fin && !flags.wack) ∧ p.data = data) := by
  unfold View.transmit Sent.log at inside
  dsimp only at inside
  split at inside
  · exact .inl inside
  · rcases List.mem_cons.mp inside with rfl | old
    · exact .inr ⟨rfl, rfl⟩
    · exact .inl old

/-- What the control queue sends: a SYN in the handshake, or a FIN, which is noted. -/
theorem control_frame {v : View} (move : ControlMove s.view v) :
    v.state = s.st.state ∧
      (s.st.state.isSyn = true → ∀ p ∈ v.sent,
        p ∈ s.view.sent ∨ (p.fin = false ∧ p.data = none)) ∧
      ∀ p ∈ v.sent, p.fin = true →
        v.isFinSent = true ∨ (p ∈ s.view.sent ∧ v.isFinSent = s.st.isFinSent) := by
  have unfinished {p : Sent} (sent : p ∈ s.view.sent ∨ (p.fin = false ∧ p.data = none))
      (fin : p.fin = true) : p ∈ s.view.sent :=
    sent.resolve_right fun plain => absurd (plain.1.symm.trans fin) Bool.false_ne_true
  cases move with
  | same | rewound =>
      exact ⟨rfl, fun _ p inside => .inl inside, fun p inside _ => .inr ⟨inside, rfl⟩⟩
  | syn | synAck =>
      refine ⟨rfl, fun _ p inside => mem_transmit inside, fun p inside fin => .inr ?_⟩
      exact ⟨unfinished (mem_transmit inside) fin, Bool.or_false _⟩
  | fin sends =>
      refine ⟨rfl, fun early => ?_, fun p _ _ => .inl (Bool.or_true _)⟩
      have sending : s.st.core.sendsFin = true := sends
      exfalso
      cases state : s.st.state with
      | listen | synSent | synRcvd => simp [Core.sendsFin, TcpStream.core, state] at sending
      | closed | established | finWait1 | finWait2 | closeWait | closing | lastAck | timeWait =>
          rw [state] at early
          cases early

theorem control_timer (inv : s.TimerInv) (ok : s.TimerOk e) (call : e.call = .serveControl) :
    (s.serve e).TimerInv := by
  obtain ⟨-, ok⟩ := ok
  rw [call] at ok
  have serves : s.serve e = { s with cx := (s.entry e).writeTcpControlQueue e.env } := by
    unfold serve
    dsimp only
    rw [call]
  rw [serves]
  have move := Cx.writeTcpControlQueue_move e.env (s.entry e)
  unfold Cx.writeTcpControlQueue at move ⊢
  split
  swap
  · exact { inv with }
  rename_i queued
  rw [if_pos queued] at move
  generalize taken : (s.entry e).modify (fun s => { s with onControlQueue := false }) = c at move ⊢
  have arms := Cx.sendTcpControlPacket_arms e.env c
  have same : c.st.state = s.st.state ∧ c.st.core = s.st.core ∧ c.st.onRto = s.st.onRto ∧
      c.st.onTimewaitList = s.st.onTimewaitList ∧ c.posted = s.cx.posted ∧ c.avail = e.avail ∧
      c.view = s.view := by
    rw [← taken]
    exact ⟨rfl, rfl, rfl, rfl, rfl, rfl, rfl⟩
  obtain ⟨sameState, sameCore, sameRto, sameTimewait, samePosted, sameAvail, sameView⟩ := same
  generalize (c.sendTcpControlPacket e.env).2 = c' at move arms ⊢
  obtain ⟨state, early, noted⟩ := control_frame move
  have waits : c'.st.state.waits = true → s.st.state.waits = true := by
    rw [show c'.st.state = s.st.state from state]
    exact id
  have off : c'.st.state.waits = true → c.st.onTimewaitList = false :=
    fun waiting => sameTimewait.trans (inv.off (waits waiting))
  refine ⟨?_, ?_, ?_, ?_, ?_⟩
  · exact fun waiting => (arms (off waiting)).1.still (off waiting)
  · intro waiting
    exact (inv.due (waits waiting)).trans (samePosted ▸ (arms (off waiting)).1.posted)
  · intro syn p inside
    have before : s.st.state.isSyn = true := state ▸ syn
    exact (early before p inside).elim (inv.early before p) id
  · intro p inside fin
    rcases noted p inside fin with noted | ⟨old, kept⟩
    · exact noted
    · exact kept.trans (inv.noted p old fin)
  · intro waiting outstanding
    obtain ⟨stays, rto | ⟨spent, nxt, view⟩⟩ := arms (off waiting)
    · exact .inl rto
    · have before : s.Outstanding := by
        have sent : c'.view.sent = s.view.sent := by
          rw [view, sameView]
        refine outstanding.before (fun p inside => sent ▸ inside) (fun _ old => old) ?_ ?_
        · exact fun syn => state ▸ syn
        · exact fun fin => state ▸ fin
      rcases ok queued before with rto | due | ⟨counts, some⟩
      · exact .inl (stays.rto (sameRto.trans rto))
      · exact .inr (.inr (due.trans_le (samePosted ▸ stays.posted)))
      · rw [sameState, sameCore, sameAvail] at spent
        exact absurd (spent counts) some

theorem flushed_frame {window : U32} {rounds : Nat} {v v' : View}
    (flushed : Flushed window rounds v v') :
    ∀ p ∈ v'.sent, p.fin = true → p ∈ v.sent := by
  induction flushed with
  | spent | refused | empty | drop => exact fun p inside _ => inside
  | skip _ _ _ _ ih => exact ih
  | send _ _ payload _ _ ih =>
      intro p inside fin
      have sent := ih p inside fin
      rw [View.sendData_sent _ _ payload] at sent
      rcases List.mem_cons.mp sent with rfl | old
      · cases fin
      · exact old

theorem send_timer (inv : s.TimerInv) (ok : s.TimerOk e) (call : e.call = .serveSend) :
    (s.serve e).ended = true ∨ (s.serve e).TimerInv := by
  obtain ⟨⟨controlRoom, -⟩, -⟩ := ok
  have serves : s.serve e = if s.served < s.cx.posted then
      { s with cx := (s.entry e).writeTcpSendQueue e.env, served := s.served + 1 } else s := by
    unfold serve
    dsimp only
    rw [call]
    rfl
  rw [serves]
  split
  swap
  · exact .inr inv
  rename_i due
  have arms := fun off => Cx.writeTcpSendQueue_arms e.env (s.entry e) off controlRoom
  have frame : ((s.entry e).writeTcpSendQueue e.env).view.halted = true ∨
      (((s.entry e).writeTcpSendQueue e.env).view.state = s.st.state ∧
        ((s.entry e).writeTcpSendQueue e.env).view.isFinSent = s.st.isFinSent ∧
        (s.st.state.isSyn = true →
          ((s.entry e).writeTcpSendQueue e.env).view.sent = s.view.sent) ∧
        ∀ p ∈ ((s.entry e).writeTcpSendQueue e.env).view.sent, p.fin = true → p ∈ s.view.sent) := by
    rcases Cx.writeTcpSendQueue_move e.env (s.entry e) with halted | same | ⟨state, -, -, flushed⟩
    · exact .inl halted
    · rw [same]
      exact .inr ⟨rfl, rfl, fun _ => rfl, fun p inside _ => inside⟩
    · refine .inr ⟨?_, ?_, fun early => ?_, flushed_frame flushed⟩
      · rw [flushed.frame]
        rfl
      · rw [flushed.frame]
        rfl
      · exfalso
        have flushes : s.st.state.flushes = true := state
        revert flushes early
        cases s.st.state <;> decide
  generalize (s.entry e).writeTcpSendQueue e.env = c at arms frame ⊢
  rcases frame with halted | ⟨state, fin, early, noted⟩
  · exact .inl (by rw [ended, Conn.view, halted]; rfl)
  by_cases waiting : s.st.state.waits = true
  · rcases arms (inv.off waiting) with halted | ⟨stays, covered⟩
    · exact .inl (by rw [ended, Conn.view, halted]; rfl)
    refine .inr
      ⟨fun _ => stays.still (inv.off waiting), fun _ => due.trans_le stays.posted, ?_, ?_, ?_⟩
    · intro syn p inside
      have before : s.st.state.isSyn = true := state ▸ syn
      exact inv.early before p (early before ▸ inside)
    · exact fun p inside isFin => fin.trans (inv.noted p (noted p inside isFin) isFin)
    · exact fun _ _ => covered.imp_right .inl
  · have left : ¬ c.st.state.waits = true := by
      rw [show c.st.state = s.st.state from state]
      exact waiting
    refine .inr ⟨fun now => absurd now left, fun now => absurd now left, ?_, ?_,
      fun now => absurd now left⟩
    · intro syn p inside
      have before : s.st.state.isSyn = true := state ▸ syn
      exact inv.early before p (early before ▸ inside)
    · exact fun p inside isFin => fin.trans (inv.noted p (noted p inside isFin) isFin)

/-- **Every call keeps what is unacknowledged covered**, or ends the run. -/
theorem serve_timer (inv : s.TimerInv) (ok : s.TimerOk e) :
    (s.serve e).ended = true ∨ (s.serve e).TimerInv := by
  cases call : e.call with
  | packet seg => exact packet_timer inv ok call
  | handleClose => exact handleClose_timer inv ok call
  | serveControl => exact .inr (control_timer inv ok call)
  | serveSend => exact send_timer inv ok call
  | rto => exact rto_timer inv ok call
  | send len highPri =>
      refine quiet_timer inv (.inl ⟨len, highPri, call⟩) ?_ ?_ ?_
      all_goals
        unfold serve
        dsimp only
        rw [call]
      exact Cx.qTcpSend_stays e.env (s.entry e) _ len highPri
  | recv =>
      refine quiet_timer inv (.inr (.inl call)) ?_ ?_ ?_
      all_goals
        unfold serve
        dsimp only
        rw [call]
      exact Cx.qRecv_stays (s.entry e)
  | close =>
      refine quiet_timer inv (.inr (.inr (.inl call))) ?_ ?_ ?_
      all_goals
        unfold serve
        dsimp only
        rw [call]
      exact Cx.tcpStreamClose_stays (s.entry e)
  | serveAck =>
      refine quiet_timer inv (.inr (.inr (.inr call))) ?_ ?_ ?_
      all_goals
        unfold serve
        dsimp only
        rw [call]
      exact Cx.writeTcpAckQueue_stays e.env (s.entry e)
  | timewait =>
      unfold serve
      dsimp only
      rw [call]
      dsimp only
      split
      · exact .inl (Bool.or_true _)
      · exact .inr inv
  | timeout =>
      unfold serve
      dsimp only
      rw [call]
      dsimp only
      split
      · exact .inl (Bool.or_true _)
      · exact .inr inv

theorem step_timer (s : Conn) (e : ConnEvent) (inv : s.ended = true ∨ s.TimerInv)
    (ok : s.TimerOk e) : (s.step e).ended = true ∨ (s.step e).TimerInv := by
  exact step_keeps inv fun _ inv => serve_timer inv ok

end Step

/-! ## Runs -/

theorem passiveOpen_stays (env : Env) (seg : Segment) {c : Cx} (listen : c.st.state = .listen) :
    (c.passiveOpen env seg).view.halted = true ∨ c.Stays (c.passiveOpen env seg) := by
  unfold Cx.passiveOpen
  dsimp only
  generalize entered : Cx.modify (Cx.timeoutListAdd env (c.receive seg)) _ = c₁
  have stays₁ : c.Stays c₁ := by
    rw [← entered]
    refine Cx.Stays.trans ?_ (.modify _ rfl)
    have received : c.Stays (c.receive seg) := .of_same rfl le_rfl
    exact received.trans (Cx.timeoutListAdd_stays env _)
  have now₁ : c₁.st.state = .listen := by
    have view := Cx.view_timeoutListAdd env (c.receive seg)
    rw [← entered]
    exact (congrArg (fun v : View => v.state) view).trans listen
  have stays₂ := stays₁.trans (Cx.parseOptions_stays env c₁ seg)
  have now₂ : (c₁.parseOptions env seg).st.state = .listen := by
    rcases Cx.parseOptions_cases env seg c₁ with hangs | ⟨o, parsed⟩
    · rw [hangs]
      exact now₁
    · rw [parsed]
      exact now₁
  rcases Cx.andThen_cases (c₁.parseOptions env seg) _ with ⟨halted, next⟩ | ⟨-, next⟩
  · rw [next]
    exact .inl halted
  · rw [next]
    generalize opened : Cx.modify (c₁.parseOptions env seg) _ = c₃
    have stays₃ : c.Stays c₃ := by
      rw [← opened]
      exact stays₂.trans (.modify _ rfl)
    have now₃ : c₃.st.state = .listen := by
      rw [← opened]
      exact now₂
    cases Cx.acceptSegment_arrival env seg c₃ (.refl c₃ seg)
      (by rw [now₃]; intro late; exact absurd late (by decide)) with
    | halted h => exact .inl h
    | dropped late =>
        rw [now₃] at late
        exact absurd late (by decide)
    | reset c₄ rst beyond =>
        rw [now₃] at beyond
        exact absurd beyond (by decide)
    | handled c₄ view ready inSeq kept queues result stays =>
        refine .inr (stays₃.trans (stays.trans ?_))
        have now₄ : c₄.st.state = .listen := (congrArg Core.state ready.core).trans now₃
        rw [result, Cx.handleSegment, now₄]
        exact Cx.handleListen_stays env seg c₄

/-- Nothing has been sent when a connection begins. -/
theorem Start.timer {n : Nat} {s : Conn} (start : Start n s) : s.ended = true ∨ s.TimerInv := by
  have first : ∀ s : Conn, s.view.sent = [] → s.st.onTimewaitList = false → s.served = 0 →
      s.TimerInv := by
    intro s none off served
    refine ⟨fun _ => off, fun _ => served ▸ Nat.zero_le _, ?_, ?_, ?_⟩
    · intro _ p inside
      rw [none] at inside
      cases inside
    · intro p inside
      rw [none] at inside
      cases inside
    · rintro _ ⟨p, inside, -⟩
      rw [none] at inside
      cases inside
  cases start with
  | passive rcvbufSize iss env seg syn noAck =>
      rcases Cx.passiveOpen_view env seg { st := tcpStreamCreate rcvbufSize n seg.seq iss } rfl syn
        with halted | view
      · have stopped : (Conn.passive rcvbufSize n iss env seg).cx.view.halted = true := halted
        refine .inl ?_
        rw [ended, Conn.view, stopped]
        rfl
      rcases passiveOpen_stays env seg (c := { st := tcpStreamCreate rcvbufSize n seg.seq iss }) rfl
        with halted | stays
      · have stopped : (Conn.passive rcvbufSize n iss env seg).cx.view.halted = true := halted
        refine .inl ?_
        rw [ended, Conn.view, stopped]
        rfl
      · exact .inr (first _ (congrArg View.sent view) (stays.still rfl) rfl)
  | active rcvbufSize iss env =>
      have stays : ({ st := tcpStreamCreate rcvbufSize n 0 iss } : Cx).Stays
          (Conn.active rcvbufSize n iss env).cx := by
        unfold Conn.active Cx.handleConnectCall
        dsimp only
        refine Cx.Stays.trans ?_ (Cx.controlQueueAdd_stays env _)
        exact .modify _ rfl
      have view : (Conn.active rcvbufSize n iss env).cx.view =
          (Cx.modify { st := tcpStreamCreate rcvbufSize n 0 iss } fun s => { s with
            cwnd := 1, ssthresh := BitVec.ofNat 32 (s.mss * 10), state := .synSent }).view :=
        Cx.view_controlQueueAdd env _
      exact .inr (first _ (congrArg View.sent view) (stays.still rfl) rfl)

/-- **In every run that avoids the two defects, what is unacknowledged has an armed timer or a
queued transmission.** -/
theorem timer_coverage {n : Nat} {s : Conn} (start : Start n s) (es : List ConnEvent)
    (ok : Lib.Run.Allowed step TimerOk s es) : Lib.Run.Along step TimerLaw s es := by
  have lawful : ∀ s : Conn, s.ended = true ∨ s.TimerInv → s.TimerLaw := by
    intro s inv running
    exact (inv.resolve_left (by rw [running]; exact Bool.false_ne_true)).covered
  exact Lib.Run.Along.mono lawful es s (Lib.Run.along_of_step step_timer es s start.timer ok)

instance Unacked.decidable (state : TcpState) (acked : List MbufId) (p : Sent) :
    Decidable (Unacked state acked p) := inferInstanceAs (Decidable (_ ∨ _ ∨ ∃ id ∈ p.data, _))

instance Outstanding.decidable (s : Conn) : Decidable s.Outstanding :=
  inferInstanceAs (Decidable (∃ p ∈ s.view.sent, _))

instance Covered.decidable (s : Conn) : Decidable s.Covered :=
  inferInstanceAs (Decidable (_ ∨ _ ∨ _))

instance AcksAll.decidable (s : Conn) (seg : Segment) : Decidable (s.AcksAll seg) :=
  decidable_of_iff
    ((∀ p ∈ s.view.sent, ∀ id ∈ p.data, id ∈ s.acked ∨ id ∈ s.st.sndbuf.sentIds) ∧
      (∀ m ∈ s.st.sndbuf.uackList ++ s.st.sndbuf.retransList,
        tcpSeqLeq m.seqEnd (s.st.adjustAck seg.ackSeq) = true) ∧
      (s.st.isFinSent = true → s.st.state.awaitsFinAck = true → seg.ackSeq = s.st.fss + 1))
    ⟨fun ⟨listed, reached, fin⟩ => ⟨listed, reached, fin⟩,
      fun all => ⟨all.listed, all.reached, all.fin⟩⟩

instance controlCounts.decidable (s : Conn) : Decidable s.controlCounts :=
  inferInstanceAs (Decidable (_ ∨ _ ∨ _))

instance TimerOk.decidable (s : Conn) : ∀ e : ConnEvent, Decidable (s.TimerOk e)
  | ⟨.packet _, _, _⟩ => inferInstanceAs (Decidable (_ ∧ (_ → _ → _ → _ ∨ _ ∨ _)))
  | ⟨.serveControl, _, _⟩ => inferInstanceAs (Decidable (_ ∧ (_ → _ → _ ∨ _ ∨ (_ ∧ _))))
  | ⟨.send _ _, _, _⟩ | ⟨.recv, _, _⟩ | ⟨.close, _, _⟩ | ⟨.handleClose, _, _⟩
  | ⟨.serveSend, _, _⟩ | ⟨.serveAck, _, _⟩ | ⟨.rto, _, _⟩ | ⟨.timewait, _, _⟩
  | ⟨.timeout, _, _⟩ => inferInstanceAs (Decidable (_ ∧ True))

/-- A connect call that is answered; 1000 bytes are sent, lost, sent again and acknowledged. -/
def resentRun : List ConnEvent :=
  [{ call := .serveControl, avail := 1 },
   { call := .packet { seq := 7000, ackSeq := 101, syn := true, ack := true, window := 65535 } },
   { call := .serveControl, avail := 1 },
   { call := .send 1000 false },
   { call := .serveSend },
   { call := .rto },
   { call := .serveSend },
   { call := .packet { seq := 7001, ackSeq := 1101, ack := true, window := 65535 } }]

theorem timer_coverage_resentRun :
    Lib.Run.Along step TimerLaw (active 4 4 100 {}) resentRun :=
  timer_coverage (.active 4 100 {}) resentRun (by decide +kernel)

/-- 1000 bytes are sent and lost; the peer closes before the timeout, and the control queue
answers the timeout with a bare ACK. -/
def closeWaitRun : List ConnEvent :=
  [{ call := .serveControl, avail := 1 },
   { call := .packet { seq := 7000, ackSeq := 101, syn := true, ack := true, window := 65535 } },
   { call := .serveControl, avail := 1 },
   { call := .send 1000 false },
   { call := .serveSend },
   { call := .packet { seq := 7001, ackSeq := 101, ack := true, fin := true, window := 65535 } },
   { call := .rto },
   { call := .serveControl, avail := 1 }]

/-- **A timeout in CLOSE_WAIT leaves the lost data without a timer.** -/
theorem closeWait_uncovered :
    ¬ TimerLaw (Lib.Run.run step (active 4 4 100 {}) closeWaitRun) := by
  intro law
  exact absurd (law (by decide +kernel) (by decide +kernel) (by decide +kernel)) (by decide +kernel)

end Conn

end QStack
