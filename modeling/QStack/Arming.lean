/-
# QStack.Arming -- what makes the stack come back to a stream

The stack comes back to a stream that is on rto_list, on the control queue, or that a send event
waits for.  A function of the stack rarely takes one of these away: `Stays` says that it does not,
and `Queued` that at most the timer is lost.  Both are proved here for the functions that the
handlers are made of; only `process_tcp_ack` cancels the timer (`acceptAck_arms`).
-/
import QStack.SegmentView

namespace QStack

set_option autoImplicit false

/-- The flags of the lists and queues the stack comes back from. -/
def TcpStream.onLists (s : TcpStream) : Bool × Bool × Bool :=
  (s.onRto, s.onControlQueue, s.onTimewaitList)

namespace Cx

/-- The control queue and the send events are kept, and TIME_WAIT is not entered. -/
structure Queued (c c' : Cx) : Prop where
  control : c.st.onControlQueue = true → c'.st.onControlQueue = true
  posted : c.posted ≤ c'.posted
  timewait : c'.st.onTimewaitList = true → c.st.onTimewaitList = true

/-- So is the timer. -/
structure Stays (c c' : Cx) : Prop extends Queued c c' where
  rto : c.st.onRto = true → c'.st.onRto = true

section Rules

variable {c c' c'' : Cx}

theorem Queued.refl (c : Cx) : c.Queued c := ⟨id, le_rfl, id⟩

theorem Queued.trans (first : c.Queued c') (second : c'.Queued c'') : c.Queued c'' :=
  ⟨fun on => second.control (first.control on), first.posted.trans second.posted,
    fun on => first.timewait (second.timewait on)⟩

theorem Stays.refl (c : Cx) : c.Stays c := ⟨.refl c, id⟩

theorem Stays.trans (first : c.Stays c') (second : c'.Stays c'') : c.Stays c'' :=
  ⟨first.toQueued.trans second.toQueued, fun on => second.rto (first.rto on)⟩

/-- The flags are the same. -/
theorem Stays.of_same (lists : c'.st.onLists = c.st.onLists) (posted : c.posted ≤ c'.posted) :
    c.Stays c' := by
  obtain ⟨rto, control, timewait⟩ : c'.st.onRto = c.st.onRto ∧
      c'.st.onControlQueue = c.st.onControlQueue ∧
      c'.st.onTimewaitList = c.st.onTimewaitList := by
    simpa [TcpStream.onLists] using lists
  exact ⟨⟨fun on => control.trans on, posted, fun on => timewait.symm.trans on⟩,
    fun on => rto.trans on⟩

theorem posted_emit (c : Cx) (e : Effect) : c.posted ≤ (c.emit e).posted := by
  simp [posted, emit, List.countP_cons]

theorem Stays.emit (c : Cx) (e : Effect) : c.Stays (c.emit e) := .of_same rfl (posted_emit c e)

theorem Stays.modify (c : Cx) {f : TcpStream → TcpStream}
    (same : (f c.st).onLists = c.st.onLists) : c.Stays (c.modify f) := .of_same same le_rfl

theorem Stays.andThen {f : Cx → Cx} (first : c.Stays c') (second : c'.Stays (f c')) :
    c.Stays (c'.andThen f) := by
  unfold Cx.andThen
  split
  · exact first
  · exact first.trans second

end Rules

/-! ## Timers and queues -/

section Primitives

variable (env : Env) (c : Cx)

theorem rtoListAdd_stays : c.Stays (c.rtoListAdd env) := by
  unfold rtoListAdd
  dsimp only
  split
  · exact .refl c
  · have stamped := Stays.modify c (f := fun s => { s with tsRto := env.curTs + s.rto }) rfl
    split
    · exact stamped
    · refine ⟨⟨id, ?_, id⟩, fun _ => rfl⟩
      exact posted_emit _ _

/-- A stream that is not in TIME_WAIT is put on the list. -/
theorem rtoListAdd_arms (off : c.st.onTimewaitList = false) : (c.rtoListAdd env).st.onRto = true := by
  unfold rtoListAdd
  dsimp only
  split
  · assumption
  · split
    · rename_i on
      rw [modify_st, off] at on
      cases on
    · rfl

theorem rtoListRemove_queued : c.Queued c.rtoListRemove := by
  unfold rtoListRemove
  split
  · exact ⟨id, posted_emit _ _, id⟩
  · exact .refl c

theorem rtoListUpdate_arms (off : c.st.onTimewaitList = false) :
    c.Queued (c.rtoListUpdate env) ∧ (c.rtoListUpdate env).st.onRto = true := by
  have removed := rtoListRemove_queued c
  have still : c.rtoListRemove.st.onTimewaitList = false := by
    cases on : c.rtoListRemove.st.onTimewaitList with
    | true => exact (removed.timewait on).symm.trans off
    | false => rfl
  exact ⟨removed.trans (rtoListAdd_stays env _).toQueued, rtoListAdd_arms env _ still⟩

theorem timeoutListAdd_stays : c.Stays (c.timeoutListAdd env) := by
  have stamped := Stays.modify c (f := fun s => { s with lastActiveTs := env.curTs }) rfl
  unfold timeoutListAdd
  dsimp only
  split
  · exact stamped
  · exact stamped.trans ((Stays.modify _ rfl).trans (.emit _ _))

theorem timeoutListUpdate_stays : c.Stays (c.timeoutListUpdate env) := by
  have stamped := Stays.modify c (f := fun s => { s with lastActiveTs := env.curTs }) rfl
  unfold timeoutListUpdate
  dsimp only
  split
  · exact stamped.trans ((Stays.emit _ _).trans (.emit _ _))
  · exact stamped

theorem controlQueueAdd_stays : c.Stays (c.controlQueueAdd env) := by
  unfold controlQueueAdd
  split
  · exact .refl c
  · split
    · exact ⟨⟨fun _ => rfl, posted_emit _ _, id⟩, id⟩
    · exact .refl c

theorem controlQueueAdd_queues (room : env.controlRoom = true) :
    (c.controlQueueAdd env).st.onControlQueue = true := by
  unfold controlQueueAdd
  rw [if_pos room]
  split
  · assumption
  · rfl

theorem ackQueueAdd_stays : c.Stays (c.ackQueueAdd env) := by
  unfold ackQueueAdd
  split
  · exact (Stays.modify c rfl).trans (.emit _ _)
  · exact .refl c

theorem enqueueAck_stays (opt : AckOpt) : c.Stays (c.enqueueAck env opt) := by
  unfold enqueueAck
  refine Stays.trans ?_ (ackQueueAdd_stays env _)
  cases opt with
  | now | aggregate =>
      dsimp only
      split
      · exact .modify c rfl
      · exact .refl c
  | wack => exact .modify c rfl

theorem sendEventAdd_stays (pri : Bool) : c.Stays (c.sendEventAdd env pri) := by
  unfold sendEventAdd
  split
  · exact .emit c _
  · exact .refl c

theorem sendEventAdd_posts (pri : Bool) (room : env.sendRoom = true) :
    c.posted < (c.sendEventAdd env pri).posted := by
  unfold sendEventAdd
  rw [if_pos room]
  simp [posted, emit, List.countP_cons, Effect.isSendEvent]

theorem raiseEvent_stays (ev : EventKind) : c.Stays (c.raiseEvent ev) := by
  unfold raiseEvent
  split
  · exact .emit c _
  · exact .refl c

theorem releaseControlWaiting_stays (busy : Bool) : c.Stays (c.releaseControlWaiting env busy) := by
  unfold releaseControlWaiting
  split
  · exact (Stays.modify c rfl).trans (controlQueueAdd_stays env _)
  · exact .refl c

/-! ## Transmission -/

theorem sendTcpPacket_stays (flags : SendFlags) (mbuf : Option MbufId) (payloadlen : Nat) :
    c.Stays (c.sendTcpPacket env flags mbuf payloadlen).2 := by
  have acked (c : Cx) : c.Stays (if flags.ack then (c.modify fun s =>
      { s with tsLastackSent := env.curTs }).timeoutListUpdate env else c) := by
    split
    · exact (Stays.modify c rfl).trans (timeoutListUpdate_stays env _)
    · exact .refl c
  have armed (c : Cx) : c.Stays
      (if payloadlen + flags.phantom ≠ 0 then c.rtoListAdd env else c) := by
    split
    · exact rtoListAdd_stays env c
    · exact .refl c
  unfold sendTcpPacket
  split
  · exact .refl c
  split
  · exact .refl c
  dsimp only
  have taken : c.Stays (if mbuf = none then { c with avail := c.avail - 1 } else c) := by
    split
    · exact .of_same rfl le_rfl
    · exact .refl c
  refine Stays.trans ?_ (.emit _ _)
  refine Stays.trans ?_ (armed _)
  refine Stays.trans ?_ (.modify _ rfl)
  refine Stays.trans ?_ (acked _)
  exact taken.trans (.modify _ rfl)

/-- A packet that takes a sequence number leaves with the timer armed. -/
theorem sendTcpPacket_arms (flags : SendFlags) (mbuf : Option MbufId) (payloadlen : Nat)
    (off : c.st.onTimewaitList = false) (counts : payloadlen + flags.phantom ≠ 0)
    (sent : (c.sendTcpPacket env flags mbuf payloadlen).1 = success) :
    (c.sendTcpPacket env flags mbuf payloadlen).2.st.onRto = true := by
  unfold sendTcpPacket at sent ⊢
  by_cases long : payloadRoom flags c.st < payloadlen
  · rw [if_pos long] at sent
    cases sent
  by_cases spent : mbuf = none ∧ c.avail = 0
  · rw [if_neg long, if_pos spent] at sent
    cases sent
  rw [if_neg long, if_neg spent]
  dsimp only
  rw [if_pos counts, emit_st]
  apply rtoListAdd_arms
  have acked (c : Cx) : (if flags.ack then (c.modify fun s =>
      { s with tsLastackSent := env.curTs }).timeoutListUpdate env else c).st.onTimewaitList =
        c.st.onTimewaitList := by
    split
    · unfold timeoutListUpdate
      dsimp only
      split <;> rfl
    · rfl
  rw [modify_st]
  dsimp only
  rw [acked, modify_st]
  dsimp only
  split <;> exact off

/-! ## Options, acknowledgements, payload -/

theorem parseOptions_stays (seg : Segment) : c.Stays (c.parseOptions env seg) := by
  rcases parseOptions_cases env seg c with hangs | ⟨o, parsed⟩
  · rw [hangs]
    exact .emit c _
  · rw [parsed]
    exact .modify c rfl

/-- A fast retransmission ends in a send event. -/
theorem fastRetransmit_adds (a : Seq) :
    ∃ c₁, c.Stays c₁ ∧ c.fastRetransmit env a = c₁.sendEventAdd env false := by
  refine ⟨_, ?_, rfl⟩
  refine Stays.trans ?_ (.modify _ rfl)
  refine Stays.trans ?_ (.modify _ rfl)
  refine Stays.trans ?_ (.modify _ rfl)
  split
  · exact (Stays.modify c rfl).trans (.modify _ rfl)
  · exact .refl c

theorem fastRetransmit_stays (a : Seq) : c.Stays (c.fastRetransmit env a) := by
  obtain ⟨c₁, stays, adds⟩ := fastRetransmit_adds env c a
  rw [adds]
  exact stays.trans (sendEventAdd_stays env c₁ false)

theorem fastRetransmit_posts (a : Seq) (room : env.sendRoom = true) :
    c.posted < (c.fastRetransmit env a).posted := by
  obtain ⟨c₁, stays, adds⟩ := fastRetransmit_adds env c a
  rw [adds]
  exact Nat.lt_of_le_of_lt stays.posted (sendEventAdd_posts env c₁ false room)

theorem inflateWindow_stays : c.Stays c.inflateWindow := by
  unfold inflateWindow
  apply Stays.modify
  dsimp only
  split <;> rfl

/-- The timer is cancelled only when `snd_nxt` is what was acknowledged. -/
theorem acceptAck_arms (a : Seq) (off : c.st.onTimewaitList = false) :
    (c.acceptAck env a).view.halted = true ∨ (c.Queued (c.acceptAck env a) ∧
      (c.st.sndNxt ≠ a → (c.acceptAck env a).st.onRto = true)) := by
  unfold acceptAck
  dsimp only
  split
  · exact .inl rfl
  cases grown : growWindow _ c.st with
  | none => exact .inl rfl
  | some s =>
      obtain ⟨cwnd, same⟩ := growWindow_eq grown
      subst same
      right
      dsimp only
      split
      · rename_i reached
        refine ⟨Queued.trans ?_ (rtoListRemove_queued _), fun beyond => absurd reached beyond⟩
        exact ⟨id, le_rfl, id⟩
      · refine ⟨Queued.trans ?_ (rtoListUpdate_arms env _ (by exact off)).1, fun _ => ?_⟩
        · exact ⟨id, le_rfl, id⟩
        · exact (rtoListUpdate_arms env _ (by exact off)).2

end Primitives

end Cx

/-- The acknowledgement reaches or passes `snd_nxt`: `process_tcp_ack` cancels the timer. -/
def TcpStream.cancels (s : TcpStream) (seg : Segment) : Bool :=
  let ackSeq := s.adjustAck seg.ackSeq
  !s.acksTooMuch ackSeq && tcpSeqLt s.sndbuf.headSeq ackSeq && tcpSeqGeq ackSeq s.sndNxt

namespace Cx

section Segment

variable (env : Env) (seg : Segment) (c : Cx)

/-- The end of `process_tcp_ack`. -/
theorem ackTail_arms (a : Seq) (off : c.st.onTimewaitList = false) :
    let c₁ := if tcpSeqGt a c.st.sndNxt then c.modify fun s => { s with sndNxt := a } else c
    let c₂ := if tcpSeqGeq c₁.st.sndbuf.headSeq a then c₁ else c₁.acceptAck env a
    c₂.view.halted = true ∨ (c.Queued c₂ ∧ ((c.st.onRto = true → c₂.st.onRto = true) ∨
      (tcpSeqLt c.st.sndbuf.headSeq a = true ∧ tcpSeqGeq a c.st.sndNxt = true))) := by
  dsimp only
  generalize recovered : (if tcpSeqGt a c.st.sndNxt then c.modify fun s => { s with sndNxt := a }
    else c) = c₁
  have entered : c.Stays c₁ := by
    rw [← recovered]
    split
    · exact .modify c rfl
    · exact .refl c
  have head : c₁.st.sndbuf = c.st.sndbuf := by
    rw [← recovered]
    split <;> rfl
  have still : c₁.st.onTimewaitList = false := by
    rw [← recovered]
    split <;> exact off
  split
  · exact .inr ⟨entered.toQueued, .inl entered.rto⟩
  · rename_i beyond
    rcases acceptAck_arms env c₁ a still with halted | ⟨queued, armed⟩
    · exact .inl halted
    · refine .inr ⟨entered.toQueued.trans queued, ?_⟩
      by_cases reached : c₁.st.sndNxt = a
      · refine .inr ⟨?_, ?_⟩
        · rw [head, tcpSeqGeq_eq, Bool.not_eq_true', Bool.not_eq_false] at beyond
          exact beyond
        · rw [← recovered] at reached
          split at reached
          · rename_i ahead
            exact tcpSeqGeq_of_gt ahead
          · rw [reached, tcpSeqGeq_eq]
            simp
      · exact .inl fun _ => armed reached

/-- After `process_tcp_ack` the timer is as it was or armed, or a send event has been posted, or
the timer was cancelled. -/
theorem processTcpAck_arms (off : c.st.onTimewaitList = false) (room : env.sendRoom = true) :
    (c.processTcpAck env seg).view.halted = true ∨ (c.Queued (c.processTcpAck env seg) ∧
      ((c.st.onRto = true → (c.processTcpAck env seg).st.onRto = true) ∨
        c.posted < (c.processTcpAck env seg).posted ∨ c.st.cancels seg = true)) := by
  unfold processTcpAck TcpStream.cancels
  dsimp only
  generalize c.st.adjustAck seg.ackSeq = a
  by_cases much : c.st.acksTooMuch a = true
  · rw [if_pos much]
    exact .inr ⟨.refl c, .inl id⟩
  rw [if_neg much]
  generalize windowed : c.modify (TcpStream.updateWindow _ _ _) = c₁
  have stays₁ : c.Stays c₁ := by
    rw [← windowed]
    apply Stays.modify
    unfold TcpStream.updateWindow
    split <;> rfl
  have core₁ : c₁.st.core = c.st.core := by
    rw [← windowed, modify_st]
    unfold TcpStream.updateWindow
    split <;> rfl
  generalize TcpStream.isDupAck _ _ _ c₁.st = dup
  generalize counted : c₁.modify (TcpStream.countDupAck dup a) = c₂
  have stays₂ : c.Stays c₂ := by
    refine stays₁.trans ?_
    rw [← counted]
    apply Stays.modify
    unfold TcpStream.countDupAck
    split <;> rfl
  have core₂ : c₂.st.core = c.st.core := by
    rw [← counted, modify_st, ← core₁]
    unfold TcpStream.countDupAck
    split <;> rfl
  have wasOff {c' : Cx} (queued : c.Queued c') : c'.st.onTimewaitList = false := by
    cases on : c'.st.onTimewaitList with
    | true => exact (queued.timewait on).symm.trans off
    | false => rfl
  by_cases fast : (dup && c₂.st.dupAcks == 3) = true
  · rw [if_pos fast]
    have stays₃ := stays₂.trans (fastRetransmit_stays env c₂ a)
    have posts := stays₂.posted.trans_lt (fastRetransmit_posts env c₂ a room)
    rcases ackTail_arms env (c₂.fastRetransmit env a) a (wasOff stays₃.toQueued) with
      halted | ⟨queued, -⟩
    · exact .inl halted
    · exact .inr ⟨stays₃.toQueued.trans queued, .inr (.inl (posts.trans_le queued.posted))⟩
  · rw [if_neg fast]
    generalize inflated : (if 3 < c₂.st.dupAcks then c₂.inflateWindow else c₂) = c₃
    have stays₃ : c.Stays c₃ := by
      refine stays₂.trans ?_
      rw [← inflated]
      split
      · exact inflateWindow_stays c₂
      · exact .refl c₂
    have core₃ : c₃.st.core = c.st.core := by
      rw [← inflated, ← core₂]
      split
      · exact congrArg View.toCore (view_inflateWindow c₂)
      · rfl
    rcases ackTail_arms env c₃ a (wasOff stays₃.toQueued) with halted | ⟨queued, armed | cancels⟩
    · exact .inl halted
    · exact .inr ⟨stays₃.toQueued.trans queued, .inl fun on => armed (stays₃.rto on)⟩
    · refine .inr ⟨stays₃.toQueued.trans queued, .inr (.inr ?_)⟩
      rw [show c₃.st.sndbuf = c.st.sndbuf from congrArg Core.sndbuf core₃,
        show c₃.st.sndNxt = c.st.sndNxt from congrArg Core.sndNxt core₃] at cancels
      rw [Bool.not_eq_true] at much
      rw [much, cancels.1, cancels.2]
      rfl

/-! ## Payload -/

theorem payloadStored_stays (prev : Seq) (priority : Bool) (ret : Int) :
    c.Stays (c.payloadStored prev priority ret).2 := by
  unfold payloadStored
  dsimp only
  generalize stored : c.modify _ = c₁
  have stays : c.Stays c₁ := by
    rw [← stored]
    exact .modify c rfl
  have high : c.Stays (if priority then c₁.raiseEvent (.read true) else c₁) := by
    split
    · exact stays.trans (raiseEvent_stays c₁ _)
    · exact stays
  split
  · exact stays
  split
  · dsimp only
    generalize (if priority then c₁.raiseEvent (.read true) else c₁) = c₂ at high ⊢
    generalize (if priority then ret - 1 else ret) = eventNum
    split
    · exact high.trans (raiseEvent_stays c₂ _)
    · exact high
  · exact stays

theorem processTcpPayload_stays : c.Stays (c.processTcpPayload seg).2 := by
  unfold processTcpPayload
  dsimp only
  split
  · exact .refl c
  split
  · exact .refl c
  split
  · exact .emit c _
  · obtain ⟨wnd, irs, swapped⟩ := addHeadSwapped_eq seg.bufAddr
      (RcvMem.rbPut { toMbufMem := c.mem, buff := c.st.rcvbuf } seg.id).2 c
    rw [swapped]
    refine Stays.trans ?_ (payloadStored_stays _ _ _ _)
    exact .of_same rfl le_rfl

theorem establishedPayload_stays : c.Stays (c.establishedPayload env seg) := by
  have payload := processTcpPayload_stays seg c
  unfold establishedPayload
  split
  · generalize c.processTcpPayload seg = result at payload ⊢
    obtain ⟨ret, c'⟩ := result
    refine Stays.andThen payload ?_
    split
    · exact enqueueAck_stays env c' _
    · exact enqueueAck_stays env c' _
  · exact .refl c

theorem closingPayload_stays : c.Stays (c.closingPayload env seg) := by
  have payload := processTcpPayload_stays seg c
  unfold closingPayload
  split
  · generalize c.processTcpPayload seg = result at payload ⊢
    obtain ⟨ret, c'⟩ := result
    refine Stays.andThen payload ?_
    split
    · exact enqueueAck_stays env c' _
    · exact enqueueAck_stays env c' _
  · exact .refl c

/-- A segment that is out of sequence is answered. -/
theorem checkSequenceValidation_stays (notWaiting : c.st.state ≠ .timeWait) :
    c.Stays (c.checkSequenceValidation env seg).2 := by
  unfold checkSequenceValidation
  dsimp only
  split
  · exact .refl c
  split
  · exact .refl c
  split
  · split
    · exact enqueueAck_stays env c .aggregate
    · split
      · exact enqueueAck_stays env c .aggregate
      · exact enqueueAck_stays env c .now
  · exact controlQueueAdd_stays env c

end Segment

end Cx

end QStack
