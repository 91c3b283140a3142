/-
# QStack.AckQueue -- the acknowledgements that are owed, and the queue they are sent from

`ack_cnt` and `is_wack` say what a stream owes, `on_ack_queue` that it stands in `ack_queue`.  Three
calls write them.  `enqueue_ack` notes the debt first and queues the stream after, and it queues one
only for `ack_cnt`: a window advertisement alone is noted and not queued.
`write_tcp_ack_queue` takes the stream out first and sends after, so that what it could not send is
owed by a stream that stands nowhere; `write_tcp_send_queue` takes off `ack_cnt` what the data
carried, and may ask for a window advertisement on its way.

For each of the three there is the exact condition under which it keeps the law
(`enqueueAck_law`, `writeTcpSendQueue_law`, `serveAck_law`), and `ack_law` is the run.
-/
import QStack.TcpOut
import QStack.TxRing
import QStack.Lib.Run

namespace QStack

set_option autoImplicit false

def maxDataPktBatch : Nat := 32

def maxAckPktBatch : Nat := 32

/-! ## What a call does to the acknowledgements -/

def Effect.isAckEnqueue : Effect → Bool
  | .ackEnqueue => true
  | _ => false

/-- What a stream owes, and where it stands. -/
structure AckSide where
  ackCnt : Nat
  isWack : Bool
  onAckQueue : Bool
deriving DecidableEq, Repr

def TcpStream.ackSide (s : TcpStream) : AckSide := ⟨s.ackCnt, s.isWack, s.onAckQueue⟩

namespace Cx

/-- How often the stream is put on the queue. -/
def ackEnqueues (c : Cx) : Nat := c.out.countP Effect.isAckEnqueue

/-- The acknowledgements are as they were, and nothing ends the program. -/
structure AckStays (c c' : Cx) : Prop where
  side : c'.st.ackSide = c.st.ackSide
  enqueues : c'.ackEnqueues = c.ackEnqueues
  halted : c'.halted = c.halted

section Rules

variable {c c' c'' : Cx}

theorem AckStays.refl (c : Cx) : c.AckStays c := ⟨rfl, rfl, rfl⟩

theorem AckStays.trans (first : c.AckStays c') (second : c'.AckStays c'') : c.AckStays c'' where
  side := second.side.trans first.side
  enqueues := second.enqueues.trans first.enqueues
  halted := second.halted.trans first.halted

theorem AckStays.modify (c : Cx) {f : TcpStream → TcpStream}
    (kept : (f c.st).ackSide = c.st.ackSide) : c.AckStays (c.modify f) := ⟨kept, rfl, rfl⟩

theorem AckStays.emit (c : Cx) {e : Effect} (other : e.isAckEnqueue = false)
    (runs : e.isHalt = false) : c.AckStays (c.emit e) where
  side := rfl
  enqueues := List.countP_cons_of_neg (by rw [other]; exact Bool.false_ne_true)
  halted := by
    change (e.isHalt || c.halted) = c.halted
    rw [runs, Bool.false_or]

theorem AckStays.ite {p : Prop} [Decidable p] (taken : c.AckStays c') :
    c.AckStays (if p then c' else c) := by
  split
  · exact taken
  · exact .refl c

/-- What a part of a call leaves alone: the stream owes less at most, and stands where it did. -/
structure AckLess (c c' : Cx) : Prop where
  onAckQueue : c'.st.onAckQueue = c.st.onAckQueue
  enqueues : c'.ackEnqueues = c.ackEnqueues
  halted : c'.halted = c.halted
  less : c'.st.ackCnt ≤ c.st.ackCnt

theorem AckLess.of_stays (stays : c.AckStays c') : c.AckLess c' where
  onAckQueue := congrArg AckSide.onAckQueue stays.side
  enqueues := stays.enqueues
  halted := stays.halted
  less := Nat.le_of_eq (congrArg AckSide.ackCnt stays.side)

theorem AckLess.trans (first : c.AckLess c') (second : c'.AckLess c'') : c.AckLess c'' where
  onAckQueue := second.onAckQueue.trans first.onAckQueue
  enqueues := second.enqueues.trans first.enqueues
  halted := second.halted.trans first.halted
  less := Nat.le_trans second.less first.less

end Rules

section Functions

variable (env : Env) (c : Cx)

theorem timeoutListUpdate_ackStays : c.AckStays (c.timeoutListUpdate env) :=
  (AckStays.modify c rfl).trans (.ite ((AckStays.emit _ rfl rfl).trans (.emit _ rfl rfl)))

theorem controlQueueAdd_ackStays : c.AckStays (c.controlQueueAdd env) := by
  unfold controlQueueAdd
  split
  · exact .refl c
  · exact .ite ((AckStays.modify c rfl).trans (.emit _ rfl rfl))

theorem releaseControlWaiting_ackStays (busy : Bool) :
    c.AckStays (c.releaseControlWaiting env busy) :=
  .ite ((AckStays.modify c rfl).trans (controlQueueAdd_ackStays env _))

theorem sendEventAdd_ackStays (pri : Bool) : c.AckStays (c.sendEventAdd env pri) :=
  .ite (.emit c rfl rfl)

theorem rtoListAdd_ackStays : c.AckStays (c.rtoListAdd env) := by
  unfold rtoListAdd
  split
  · exact .refl c
  · dsimp only
    split
    · exact .modify c rfl
    · exact (AckStays.modify c rfl).trans ((AckStays.modify _ rfl).trans (.emit _ rfl rfl))

theorem sendTcpPacket_ackStays (flags : SendFlags) (mbuf : Option MbufId) (payloadlen : Nat) :
    c.AckStays (c.sendTcpPacket env flags mbuf payloadlen).2 := by
  unfold sendTcpPacket
  split
  · exact .refl c
  split
  · exact .refl c
  dsimp only
  have taken : c.AckStays (if mbuf = none then { c with avail := c.avail - 1 } else c) :=
    .ite ⟨rfl, rfl, rfl⟩
  refine AckStays.trans ?_ (.emit _ rfl rfl)
  refine AckStays.trans ?_ (.ite (rtoListAdd_ackStays env _))
  refine AckStays.trans ?_ (.modify _ rfl)
  refine AckStays.trans ?_ (.ite ((AckStays.modify _ rfl).trans
    (timeoutListUpdate_ackStays env _)))
  exact taken.trans (.modify _ rfl)

end Functions

/-! ## What is noted, and what is queued -/

/-- The debt that `enqueue_ack` notes. -/
def noteAck (opt : AckOpt) (s : TcpStream) : TcpStream :=
  match opt with
  | .now => if s.ackCnt < 63 then { s with ackCnt := s.ackCnt + 1 } else s
  | .aggregate => if s.ackCnt = 0 then { s with ackCnt := 1 } else s
  | .wack => { s with isWack := true }

theorem enqueueAck_eq (env : Env) (opt : AckOpt) (c : Cx) :
    c.enqueueAck env opt = (c.modify (noteAck opt)).ackQueueAdd env := by
  cases opt with
  | wack => rfl
  | now | aggregate =>
      unfold enqueueAck noteAck modify
      dsimp only
      split <;> rfl

theorem noteAck_onAckQueue (opt : AckOpt) (s : TcpStream) :
    (noteAck opt s).onAckQueue = s.onAckQueue := by
  cases opt with
  | wack => rfl
  | now | aggregate =>
      unfold noteAck
      dsimp only
      split <;> rfl

theorem noteAck_count (opt : AckOpt) {s : TcpStream} (small : s.ackCnt ≤ 63) :
    (noteAck opt s).ackCnt ≤ 63 := by
  cases opt with
  | wack => exact small
  | now | aggregate =>
      unfold noteAck
      dsimp only
      split
      · dsimp only
        omega
      · exact small

/-- The first acknowledgement that is counted. -/
theorem noteAck_idle {opt : AckOpt} (counted : opt ≠ .wack) {s : TcpStream}
    (none : s.ackCnt = 0) : (noteAck opt s).ackCnt = 1 := by
  cases opt with
  | wack => exact absurd rfl counted
  | now | aggregate => simp [noteAck, none]

/-- A stream that is queued, or owes no counted acknowledgement, is not queued again. -/
theorem ackQueueAdd_skips {c : Cx} {env : Env}
    (skips : c.st.ackCnt ≠ 0 → c.st.onAckQueue = true) : c.ackQueueAdd env = c := by
  unfold ackQueueAdd
  refine if_neg fun all => ?_
  simp only [Bool.and_eq_true, decide_eq_true_eq, Bool.not_eq_true'] at all
  rw [skips all.1.1] at all
  cases all.1.2

theorem ackQueueAdd_full {c : Cx} {env : Env} (full : env.ackRoom = false) :
    c.ackQueueAdd env = c := by
  unfold ackQueueAdd
  rw [full, Bool.and_false]
  rfl

theorem ackQueueAdd_adds {c : Cx} {env : Env} (owes : c.st.ackCnt ≠ 0)
    (off : c.st.onAckQueue = false) (room : env.ackRoom = true) :
    c.ackQueueAdd env = (c.modify fun s => { s with onAckQueue := true }).emit .ackEnqueue := by
  unfold ackQueueAdd
  simp [owes, off, room]

/-! ## The window advertisement that a flush may ask for -/

/-- The mbuf that a flush comes to first; empty ones are dropped. -/
def firstWaiting : Nat → SndBuff → Option SndMbuf
  | 0, _ => none
  | rounds + 1, b =>
      match b.popWaiting with
      | (none, _) => none
      | (some m, b) => if m.payloadLen = 0 then firstWaiting rounds b else some m

/-- The mbuf does not fit the window, the peer's window either, and the last acknowledgement was
sent long ago. -/
def AsksFor (env : Env) (s : TcpStream) (m : SndMbuf) : Prop :=
  s.outOfWindow s.sndNxt m = true ∧ s.peerWnd < s.sndNxt - s.sndUna + m.len ∧
    500 < tsToMsec (env.curTs - s.tsLastackSent)

def AsksFirst (env : Env) (rounds : Nat) (s : TcpStream) : Prop :=
  tcpSeqLt s.sndNxt s.sndbuf.headSeq = false ∧
    ∃ m, firstWaiting rounds s.sndbuf = some m ∧ AsksFor env s m

/-- A flush asks for a window advertisement.  It can for the first mbuf only, since every packet is
an acknowledgement. -/
def AsksWindow (env : Env) (s : TcpStream) : Prop :=
  s.isFinSent = false ∧ s.sndbuf.sbLen ≠ 0 ∧ AsksFirst env (s.sndbuf.waitingCount + 1) s

/-- The request is noted, and queued if the stream owes an acknowledgement besides. -/
def Asked (env : Env) (c c' : Cx) : Prop :=
  ∃ b, (c.modify fun s => { s with sndbuf := b }).enqueueAck env .wack |>.AckStays c'

section Flush

variable (env : Env)

theorem sendTcpPacket_acked (c : Cx) (m : MbufId) (len : Nat)
    (sent : 0 ≤ (c.sendTcpPacket env { ack := true } (some m) len).1) :
    (c.sendTcpPacket env { ack := true } (some m) len).2.st.tsLastackSent = env.curTs := by
  unfold sendTcpPacket at sent ⊢
  split at sent
  · simp [QStack.error] at sent
  · rename_i room
    rw [if_neg room, if_neg (fun none => Option.some_ne_none m none.1)]
    have timed : ∀ b : Cx, (if len + ({ ack := true } : SendFlags).phantom ≠ 0
        then b.rtoListAdd env else b).st.tsLastackSent = b.st.tsLastackSent := by
      intro b
      unfold rtoListAdd
      dsimp only
      split_ifs <;> rfl
    have listed : ∀ b : Cx, (b.timeoutListUpdate env).st.tsLastackSent = b.st.tsLastackSent := by
      intro b
      unfold timeoutListUpdate
      dsimp only
      split_ifs <;> rfl
    dsimp only
    rw [emit_st, timed]
    exact listed _

/-- After a packet no flush asks. -/
theorem AsksFor.not_after {s : TcpStream} {m : SndMbuf} (asks : AsksFor env s m) :
    s.tsLastackSent ≠ env.curTs := by
  intro now
  have late := asks.2.2
  rw [now, BitVec.sub_self] at late
  revert late
  decide

theorem appendUack_ackStays (seq : Seq) (m : SndMbuf) (c : Cx) : c.AckStays (c.appendUack seq m) :=
  .modify c rfl

theorem setSndbuf_ackStays (c : Cx) (b : SndBuff) : c.AckStays (c.setSndbuf b) := .modify c rfl

/-- Out of window, without a request. -/
theorem refuseOutOfWindow_ackStays {c : Cx} {m : SndMbuf} (quiet : ¬ AsksFor env c.st m)
    (beyond : c.st.outOfWindow c.st.sndNxt m = true) :
    c.AckStays (c.refuseOutOfWindow env c.st.sndNxt m) := by
  unfold refuseOutOfWindow
  have silent : (decide (c.st.peerWnd < c.st.sndNxt - c.st.sndUna + m.len) &&
      decide (500 < tsToMsec (env.curTs - c.st.tsLastackSent))) = false := by
    rw [Bool.eq_false_iff]
    intro both
    rw [Bool.and_eq_true, decide_eq_true_iff, decide_eq_true_iff] at both
    exact quiet ⟨beyond, both⟩
  rw [silent]
  exact sendEventAdd_ackStays env c _

theorem refuseOutOfWindow_asks {c : Cx} {m : SndMbuf} (asks : AsksFor env c.st m) :
    (c.enqueueAck env .wack).AckStays (c.refuseOutOfWindow env c.st.sndNxt m) := by
  unfold refuseOutOfWindow
  have loud : (decide (c.st.peerWnd < c.st.sndNxt - c.st.sndUna + m.len) &&
      decide (500 < tsToMsec (env.curTs - c.st.tsLastackSent))) = true := by
    rw [Bool.and_eq_true, decide_eq_true_iff, decide_eq_true_iff]
    exact asks.2
  rw [loud]
  exact sendEventAdd_ackStays env _ _

/-- The flush ends the program or leaves the acknowledgements alone, once it has sent a packet. -/
theorem flushLoop_acked : ∀ (rounds packets : Nat) (c : Cx), c.st.tsLastackSent = env.curTs →
    (c.flushLoop env rounds packets).2.halted = true ∨
      c.AckStays (c.flushLoop env rounds packets).2 := by
  intro rounds
  induction rounds with
  | zero => exact fun _ c _ => .inr (.refl c)
  | succ rounds ih =>
      intro packets c now
      rw [flushLoop]
      dsimp only
      split
      · exact .inr (.refl c)
      rcases c.st.sndbuf.popWaiting with ⟨_ | m, b⟩
      · exact .inr (setSndbuf_ackStays c b)
      dsimp only
      have popped := setSndbuf_ackStays c b
      have now : (c.setSndbuf b).st.tsLastackSent = env.curTs := now
      split
      · exact (ih packets _ now).imp_right popped.trans
      split
      · rename_i beyond
        refine .inr (popped.trans (refuseOutOfWindow_ackStays env ?_ beyond))
        exact fun asks => asks.not_after env now
      · have sent := sendTcpPacket_ackStays env (c.setSndbuf b) { ack := true } (some m.id)
          m.payloadLen
        have acked := sendTcpPacket_acked env (c.setSndbuf b) m.id m.payloadLen
        generalize (c.setSndbuf b).sendTcpPacket env _ _ _ = result at sent acked ⊢
        obtain ⟨ret, c'⟩ := result
        dsimp only at sent acked ⊢
        split
        · exact .inl rfl
        · have uack := appendUack_ackStays c.st.sndNxt m c'
          have again := ih (packets + 1) (c'.appendUack c.st.sndNxt m) (acked (by omega))
          exact again.imp_right ((popped.trans sent).trans uack).trans

theorem popWaiting_headSeq (b : SndBuff) : b.popWaiting.2.headSeq = b.headSeq := by
  unfold SndBuff.popWaiting
  cases b.retransList with
  | cons m rest => rfl
  | nil =>
      dsimp only
      rcases b.husndQ.dirCirqGet with ⟨_ | m, q⟩ <;> rfl

/-- A round that drops an empty mbuf changes nothing. -/
theorem asksFirst_skip {rounds : Nat} {s : TcpStream} {m : SndMbuf} {b : SndBuff}
    (popped : s.sndbuf.popWaiting = (some m, b)) (empty : m.payloadLen = 0) :
    AsksFirst env rounds { s with sndbuf := b } ↔ AsksFirst env (rounds + 1) s := by
  have headSeq : b.headSeq = s.sndbuf.headSeq := by
    rw [← popWaiting_headSeq s.sndbuf, popped]
  have first : firstWaiting (rounds + 1) s.sndbuf = firstWaiting rounds b := by
    rw [firstWaiting, popped]
    exact if_pos empty
  unfold AsksFirst
  rw [first]
  dsimp only
  rw [headSeq]
  rfl

/-- What the loop of a flush does with the acknowledgements, by the first mbuf that waits. -/
theorem flushLoop_asks : ∀ (rounds packets : Nat) (c : Cx),
    (c.flushLoop env rounds packets).2.halted = true ∨
      (AsksFirst env rounds c.st ∧ Asked env c (c.flushLoop env rounds packets).2) ∨
      (¬ AsksFirst env rounds c.st ∧ c.AckStays (c.flushLoop env rounds packets).2) := by
  intro rounds
  induction rounds with
  | zero =>
      refine fun _ c => .inr (.inr ⟨?_, .refl c⟩)
      rintro ⟨-, m, none, -⟩
      cases none
  | succ rounds ih =>
      intro packets c
      rw [flushLoop]
      dsimp only
      split
      · rename_i before
        refine .inr (.inr ⟨fun asks => ?_, .refl c⟩)
        exact Bool.false_ne_true (asks.1.symm.trans before)
      rename_i inside
      have inside : tcpSeqLt c.st.sndNxt c.st.sndbuf.headSeq = false := Bool.eq_false_iff.mpr inside
      have skip := @asksFirst_skip env rounds c.st
      have head : ∀ {m b}, c.st.sndbuf.popWaiting = (some m, b) → m.payloadLen ≠ 0 →
          (AsksFirst env (rounds + 1) c.st ↔ AsksFor env c.st m) := by
        intro m b popped filled
        have first : firstWaiting (rounds + 1) c.st.sndbuf = some m := by
          rw [firstWaiting, popped]
          exact if_neg filled
        refine ⟨fun asks => ?_, fun asks => ⟨inside, m, first, asks⟩⟩
        obtain ⟨-, m', found, asks⟩ := asks
        obtain rfl : m = m' := Option.some.inj (first.symm.trans found)
        exact asks
      have nothing : ∀ {b}, c.st.sndbuf.popWaiting = (none, b) →
          ¬ AsksFirst env (rounds + 1) c.st := by
        rintro b popped ⟨-, m, found, -⟩
        rw [firstWaiting, popped] at found
        cases found
      generalize c.st.sndbuf.popWaiting = popped at skip head nothing ⊢
      rcases popped with ⟨_ | m, b⟩
      · exact .inr (.inr ⟨nothing rfl, setSndbuf_ackStays c b⟩)
      dsimp only
      have popped := setSndbuf_ackStays c b
      split
      · -- an empty mbuf
        rename_i empty
        have skip := @skip m b rfl empty
        rcases ih packets (c.setSndbuf b) with halts | ⟨asks, b', asked⟩ | ⟨quiet, stays⟩
        · exact .inl halts
        · exact .inr (.inl ⟨skip.mp asks, b', asked⟩)
        · exact .inr (.inr ⟨fun asks => quiet (skip.mpr asks), popped.trans stays⟩)
      rename_i filled
      have head := @head m b rfl filled
      split
      · rename_i beyond
        by_cases asks : AsksFor env c.st m
        · exact .inr (.inl ⟨head.mpr asks, b, refuseOutOfWindow_asks env asks⟩)
        · exact .inr (.inr ⟨fun first => asks (head.mp first),
            popped.trans (refuseOutOfWindow_ackStays env asks beyond)⟩)
      · rename_i fits
        have quiet : ¬ AsksFirst env (rounds + 1) c.st := fun first => fits (head.mp first).1
        have sent := sendTcpPacket_ackStays env (c.setSndbuf b) { ack := true } (some m.id)
          m.payloadLen
        have acked := sendTcpPacket_acked env (c.setSndbuf b) m.id m.payloadLen
        generalize (c.setSndbuf b).sendTcpPacket env _ _ _ = result at sent acked ⊢
        obtain ⟨ret, c'⟩ := result
        dsimp only at sent acked ⊢
        split
        · exact .inl rfl
        · have uack := appendUack_ackStays c.st.sndNxt m c'
          rcases flushLoop_acked env rounds (packets + 1) (c'.appendUack c.st.sndNxt m)
            (acked (by omega)) with halts | stays
          · exact .inl halts
          · exact .inr (.inr ⟨quiet, ((popped.trans sent).trans uack).trans stays⟩)

/-- What a flush does with the acknowledgements. -/
theorem flushTcpSendingBuffer_asks (c : Cx) :
    (c.flushTcpSendingBuffer env).2.halted = true ∨
      (AsksWindow env c.st ∧ Asked env c (c.flushTcpSendingBuffer env).2) ∨
      (¬ AsksWindow env c.st ∧ c.AckStays (c.flushTcpSendingBuffer env).2) := by
  unfold flushTcpSendingBuffer
  split
  · rename_i fin
    exact .inr (.inr ⟨fun asks => Bool.false_ne_true (asks.1.symm.trans fin), .refl c⟩)
  rename_i fin
  split
  · rename_i empty
    exact .inr (.inr ⟨fun asks => asks.2.1 empty, .refl c⟩)
  rename_i filled
  have same : AsksWindow env c.st ↔ AsksFirst env (c.st.sndbuf.waitingCount + 1) c.st :=
    ⟨fun asks => asks.2.2, fun asks => ⟨Bool.eq_false_iff.mpr fin, filled, asks⟩⟩
  rw [same]
  exact flushLoop_asks env _ 0 c

end Flush

/-- A state in which `write_tcp_send_queue` flushes. -/
def flushes (state : TcpState) : Bool :=
  match state with
  | .established | .closeWait | .finWait1 | .lastAck => true
  | _ => false

/-- The first half of a round of `write_tcp_send_queue`, with its `ret`. -/
def flushed (env : Env) (c : Cx) : Int × Cx :=
  if flushes c.st.state then c.flushTcpSendingBuffer env else (failed, c)

/-- The second half. -/
def afterFlush (env : Env) (result : Int × Cx) : Cx :=
  if result.1 ≤ 0 then result.2.controlQueueAdd env
  else
    let c := result.2.modify fun s =>
      { s with onSendQueue := false, ackCnt := s.ackCnt - result.1.toNat }
    c.releaseControlWaiting env c.st.onAckQueue

theorem writeTcpSendQueue_halves (env : Env) (c : Cx) :
    c.writeTcpSendQueue env = afterFlush env (c.flushed env) := by
  unfold writeTcpSendQueue flushed
  cases c.st.state <;> rfl

/-- Once the flush is over, a service notes nothing. -/
theorem afterFlush_less (env : Env) (result : Int × Cx) :
    result.2.AckLess (afterFlush env result) ∧
      (afterFlush env result).st.isWack = result.2.st.isWack := by
  obtain ⟨ret, c⟩ := result
  unfold afterFlush
  dsimp only
  split
  · have stays := controlQueueAdd_ackStays env c
    exact ⟨.of_stays stays, congrArg AckSide.isWack stays.side⟩
  · have stays := releaseControlWaiting_ackStays env (c.modify fun s => { s with
      onSendQueue := false, ackCnt := s.ackCnt - ret.toNat }) c.st.onAckQueue
    refine ⟨AckLess.trans ?_ (.of_stays stays), congrArg AckSide.isWack stays.side⟩
    exact ⟨rfl, rfl, rfl, Nat.sub_le _ _⟩

/-- What a service of the send queue does with the acknowledgements. -/
theorem writeTcpSendQueue_notes (env : Env) {c : Cx}
    (queued : c.st.ackCnt ≠ 0 → c.st.onAckQueue = true) :
    (c.writeTcpSendQueue env).halted = true ∨
      (c.AckLess (c.writeTcpSendQueue env) ∧
        ((c.writeTcpSendQueue env).st.isWack = true ↔ c.st.isWack = true ∨
          (flushes c.st.state = true ∧ AsksWindow env c.st))) := by
  obtain ⟨less, wack⟩ := afterFlush_less env (c.flushed env)
  rw [← writeTcpSendQueue_halves] at less wack
  rw [wack, less.halted]
  suffices first : (c.flushed env).2.halted = true ∨ (c.AckLess (c.flushed env).2 ∧
      ((c.flushed env).2.st.isWack = true ↔ c.st.isWack = true ∨
        (flushes c.st.state = true ∧ AsksWindow env c.st))) from
    first.imp_right fun both => ⟨both.1.trans less, both.2⟩
  unfold flushed
  split
  · rename_i state
    rw [and_iff_right state]
    rcases flushTcpSendingBuffer_asks env c with halts | ⟨asks, b, asked⟩ | ⟨quiet, stays⟩
    · exact .inl halts
    · -- the note is made, and nobody is queued for it
      rw [enqueueAck_eq, ackQueueAdd_skips (by exact queued)] at asked
      have later := AckLess.of_stays asked
      refine .inr ⟨⟨later.onAckQueue, later.enqueues, later.halted, later.less⟩, ?_⟩
      exact iff_of_true (congrArg AckSide.isWack asked.side) (.inr asks)
    · refine .inr ⟨.of_stays stays, ?_⟩
      rw [or_iff_left quiet]
      exact Eq.congr (congrArg AckSide.isWack stays.side) rfl
  · rename_i state
    exact .inr ⟨.of_stays (.refl c), (or_iff_left fun asks => state asks.1).symm⟩

end Cx

/-! ## One stream of the queue -/

/-- `write_tcp_ack_queue` with its count; `asked` is how many mbufs were asked for so far. -/
structure AckCall where
  c : Cx
  asked : Nat
  cnt : Nat := 0

namespace AckCall

section Source

variable (alloc : Nat → Bool) (env : Env)

def modify (a : AckCall) (f : TcpStream → TcpStream) : AckCall := { a with c := a.c.modify f }

/-- `send_tcp_packet` without an mbuf: it asks for one. -/
def send (flags : SendFlags) (a : AckCall) : Int × AckCall :=
  match { a.c with avail := if alloc a.asked then 1 else 0 }.sendTcpPacket env flags none 0 with
  | (ret, c) =>
      (ret, { c := c, asked := a.asked + 1, cnt := if ret = success then a.cnt + 1 else a.cnt })

def sendAcks : Nat → AckCall → AckCall
  | 0, a => a
  | pending + 1, a =>
      match a.send alloc env { ack := true } with
      | (ret, a) =>
          if ret ≠ success then a
          else sendAcks pending (a.modify fun s => { s with ackCnt := s.ackCnt - 1 })

def sendWack (a : AckCall) : AckCall :=
  if a.c.st.isWack then
    match (a.modify fun s => { s with isWack := false }).send alloc env
        { ack := true, wack := true } with
    | (ret, a) => if ret ≠ success then a.modify fun s => { s with isWack := true } else a
  else a

/-- A state in which a counted acknowledgement is sent. -/
def toAck (state : TcpState) : Bool :=
  match state with
  | .established | .closeWait | .finWait1 | .finWait2 | .timeWait => true
  | _ => false

/-- Send what the stream owes, or forget it. -/
def pay (a : AckCall) : AckCall :=
  if toAck a.c.st.state then (a.sendAcks alloc env a.c.st.ackCnt).sendWack alloc env
  else a.modify fun s => { s with ackCnt := 0, isWack := false }

/-- What `write_tcp_ack_queue` does with a stream it dequeued. -/
def serveAck (a : AckCall) : AckCall :=
  if a.c.st.onAckQueue then
    let a := (a.modify fun s => { s with onAckQueue := false }).pay alloc env
    { a with c := a.c.releaseControlWaiting env a.c.st.onSendQueue }
  else a

end Source

/-- How many packets the stream still has to send. -/
def owed (s : TcpStream) : Nat := if toAck s.state then s.ackCnt + s.isWack.toNat else 0

section Lemmas

variable {alloc : Nat → Bool} {env : Env}

/-- A packet is sent if the allocation succeeds. -/
theorem send_ackStays (flags : SendFlags) (a : AckCall) :
    a.c.AckStays (a.send alloc env flags).2.c ∧ (a.send alloc env flags).2.asked = a.asked + 1 ∧
      ((a.send alloc env flags).1 = success ↔ alloc a.asked = true) := by
  have stays := Cx.sendTcpPacket_ackStays env
    { a.c with avail := if alloc a.asked then 1 else 0 } flags none 0
  have sent : ({ a.c with avail := if alloc a.asked then 1 else 0 }.sendTcpPacket env flags
      none 0).1 = if alloc a.asked then success else failed := by
    unfold Cx.sendTcpPacket
    rw [if_neg (Nat.not_lt_zero _)]
    cases alloc a.asked with
    | false => rfl
    | true => rfl
  unfold send
  generalize Cx.sendTcpPacket env flags none 0 _ = result at stays sent ⊢
  obtain ⟨ret, c⟩ := result
  refine ⟨⟨stays.side, stays.enqueues, stays.halted⟩, rfl, ?_⟩
  change ret = success ↔ _
  dsimp only at sent
  rw [sent]
  cases alloc a.asked <;> simp [success, failed]

/-- The loop ends with the debt paid when all goes well, and else leaves some of it. -/
theorem sendAcks_pays : ∀ (pending : Nat) (a : AckCall), a.c.st.ackCnt = pending →
    a.c.AckLess (a.sendAcks alloc env pending).c ∧
      (a.sendAcks alloc env pending).c.st.isWack = a.c.st.isWack ∧
      (((a.sendAcks alloc env pending).c.st.ackCnt = 0 ∧
          (a.sendAcks alloc env pending).asked = a.asked + pending ∧
          ∀ k < pending, alloc (a.asked + k) = true) ∨
        ((a.sendAcks alloc env pending).c.st.ackCnt ≠ 0 ∧
          ∃ k < pending, alloc (a.asked + k) = false)) := by
  intro pending
  induction pending with
  | zero =>
      intro a none
      refine ⟨.of_stays (.refl _), rfl, .inl ⟨none, rfl, fun k small => ?_⟩⟩
      exact absurd small (Nat.not_lt_zero k)
  | succ pending ih =>
      intro a owes
      obtain ⟨stays, asked, sent⟩ := @send_ackStays alloc env { ack := true } a
      rw [sendAcks]
      generalize a.send alloc env { ack := true } = result at stays asked sent ⊢
      obtain ⟨ret, b⟩ := result
      dsimp only at stays asked sent ⊢
      have count : b.c.st.ackCnt = pending + 1 :=
        (congrArg AckSide.ackCnt stays.side).trans owes
      have wack : b.c.st.isWack = a.c.st.isWack := congrArg AckSide.isWack stays.side
      by_cases ok : ret = success
      · rw [if_neg (not_not_intro ok)]
        have paid : a.c.AckLess (b.modify fun s => { s with ackCnt := s.ackCnt - 1 }).c :=
          { Cx.AckLess.of_stays stays with
            less := by
              change b.c.st.ackCnt - 1 ≤ a.c.st.ackCnt
              omega }
        obtain ⟨rest, same, done⟩ := ih (b.modify fun s => { s with ackCnt := s.ackCnt - 1 })
          (by change b.c.st.ackCnt - 1 = pending; omega)
        refine ⟨paid.trans rest, same.trans wack, ?_⟩
        have asked : (b.modify fun s => { s with ackCnt := s.ackCnt - 1 }).asked = a.asked + 1 :=
          asked
        have shift : ∀ k, a.asked + 1 + k = a.asked + (k + 1) := by omega
        rw [asked] at done
        rcases done with ⟨zero, total, all⟩ | ⟨left, k, small, fails⟩
        · refine .inl ⟨zero, by rw [total]; omega, fun k small => ?_⟩
          cases k with
          | zero => exact sent.mp ok
          | succ k => exact shift k ▸ all k (by omega)
        · exact .inr ⟨left, k + 1, by omega, shift k ▸ fails⟩
      · rw [if_pos ok]
        refine ⟨.of_stays stays, wack, .inr ⟨by omega, 0, by omega, ?_⟩⟩
        exact Bool.eq_false_iff.mpr fun yes => ok (sent.mpr yes)

/-- A window advertisement stays noted when it cannot be sent. -/
theorem sendWack_pays (a : AckCall) :
    a.c.AckLess (a.sendWack alloc env).c ∧ (a.sendWack alloc env).c.st.ackCnt = a.c.st.ackCnt ∧
      ((a.sendWack alloc env).c.st.isWack = false ↔
        ∀ k < a.c.st.isWack.toNat, alloc (a.asked + k) = true) := by
  unfold sendWack
  cases wack : a.c.st.isWack with
  | false =>
      rw [if_neg Bool.false_ne_true]
      exact ⟨.of_stays (.refl _), rfl,
        iff_of_true wack fun k small => absurd small (Nat.not_lt_zero k)⟩
  | true =>
      rw [if_pos rfl]
      obtain ⟨stays, -, sent⟩ := @send_ackStays alloc env { ack := true, wack := true }
        (a.modify fun s => { s with isWack := false })
      generalize send alloc env _ _ = result at stays sent ⊢
      obtain ⟨ret, b⟩ := result
      dsimp only at stays sent ⊢
      have count : b.c.st.ackCnt = a.c.st.ackCnt := congrArg AckSide.ackCnt stays.side
      have gone : b.c.st.isWack = false := congrArg AckSide.isWack stays.side
      have sends : a.c.AckLess b.c :=
        { onAckQueue := congrArg AckSide.onAckQueue stays.side
          enqueues := stays.enqueues
          halted := stays.halted
          less := Nat.le_of_eq count }
      have one : (∀ k < true.toNat, alloc (a.asked + k) = true) ↔ ret = success := by
        rw [sent]
        refine ⟨fun all => all 0 (by decide), fun yes k small => ?_⟩
        obtain rfl : k = 0 := Nat.lt_one_iff.mp small
        exact yes
      rw [one]
      split
      · rename_i fails
        exact ⟨sends.trans ⟨rfl, rfl, rfl, Nat.le_refl _⟩, count,
          iff_of_false (fun back => Bool.noConfusion back) fails⟩
      · rename_i ok
        exact ⟨sends, count, iff_of_true gone (not_not.mp ok)⟩

/-- The debt is paid exactly when every allocation succeeds. -/
theorem pay_pays (a : AckCall) :
    a.c.AckLess (a.pay alloc env).c ∧
      (((a.pay alloc env).c.st.ackCnt = 0 ∧ (a.pay alloc env).c.st.isWack = false) ↔
        ∀ k < owed a.c.st, alloc (a.asked + k) = true) := by
  unfold pay owed
  split
  · obtain ⟨acks, wack, paid⟩ := @sendAcks_pays alloc env a.c.st.ackCnt a rfl
    generalize a.sendAcks alloc env a.c.st.ackCnt = b at acks wack paid ⊢
    obtain ⟨wacks, same, gone⟩ := @sendWack_pays alloc env b
    refine ⟨acks.trans wacks, ?_⟩
    rw [same, gone, wack]
    rcases paid with ⟨zero, total, all⟩ | ⟨left, k, small, fails⟩
    · rw [total]
      constructor
      · rintro ⟨-, last⟩ k small
        by_cases early : k < a.c.st.ackCnt
        · exact all k early
        · have here := last (k - a.c.st.ackCnt) (by omega)
          rwa [show a.asked + a.c.st.ackCnt + (k - a.c.st.ackCnt) = a.asked + k by omega] at here
      · refine fun whole => ⟨zero, fun k small => ?_⟩
        rw [Nat.add_assoc]
        exact whole _ (by omega)
    · refine iff_of_false (fun done => left done.1) fun whole => ?_
      exact Bool.false_ne_true (fails.symm.trans (whole k (by omega)))
  · refine ⟨⟨rfl, rfl, rfl, Nat.zero_le _⟩, iff_of_true ⟨rfl, rfl⟩ fun k small => ?_⟩
    exact absurd small (Nat.not_lt_zero k)

/-- **What is done with a stream of the queue.**  It leaves the queue, and its debt is paid exactly
when every allocation succeeds. -/
theorem serveAck_pays {a : AckCall} (on : a.c.st.onAckQueue = true) :
    (a.serveAck alloc env).c.st.onAckQueue = false ∧
      (a.serveAck alloc env).c.ackEnqueues = a.c.ackEnqueues ∧
      (a.serveAck alloc env).c.halted = a.c.halted ∧
      (a.serveAck alloc env).c.st.ackCnt ≤ a.c.st.ackCnt ∧
      (((a.serveAck alloc env).c.st.ackCnt = 0 ∧ (a.serveAck alloc env).c.st.isWack = false) ↔
        ∀ k < owed a.c.st, alloc (a.asked + k) = true) := by
  unfold serveAck
  rw [if_pos on]
  obtain ⟨sends, done⟩ := @pay_pays alloc env (a.modify fun s => { s with onAckQueue := false })
  dsimp only
  generalize (a.modify fun s => { s with onAckQueue := false }).pay alloc env = b at sends done ⊢
  obtain ⟨side, enqueues, halted⟩ :=
    Cx.releaseControlWaiting_ackStays env b.c b.c.st.onSendQueue
  have count := congrArg AckSide.ackCnt side
  have wack := congrArg AckSide.isWack side
  have queue := congrArg AckSide.onAckQueue side
  dsimp only [TcpStream.ackSide] at count wack queue
  rw [count, wack, queue, enqueues, halted]
  exact ⟨sends.onAckQueue, sends.enqueues, sends.halted, sends.less, done⟩

end Lemmas

end AckCall

/-! ## The streams of a stack -/

structure AckStack where
  streams : Nat → TcpStream
  mem : MbufMem := { mbuf := fun _ => {} }
  ackQueue : CircularQueue Nat
  /-- how many mbufs `write_tcp_ack_queue` has asked for -/
  asked : Nat := 0
  halted : Bool := false

namespace AckStack

/-- The answer of `sstreamq_enqueue` is that of the queue. -/
def roomed (s : AckStack) (env : Env) : Env := { env with ackRoom := !s.ackQueue.cirqFull }

def entry (s : AckStack) (id : Nat) : Cx := { st := s.streams id, mem := s.mem }

/-- What a function of a stream leaves of the stack. -/
def leave (s : AckStack) (id : Nat) (c : Cx) : AckStack :=
  if c.halted then { s with halted := true }
  else
    { s with
      streams := Function.update s.streams id c.st
      mem := c.mem
      ackQueue := (fun q : CircularQueue Nat => (q.cirqAdd id).2)^[c.ackEnqueues] s.ackQueue }

/-- `enqueue_ack`; it fails when the stream should be on the queue and is not. -/
def enqueueAck (env : Env) (id : Nat) (opt : Cx.AckOpt) (s : AckStack) : Int × AckStack :=
  let c := (s.entry id).enqueueAck (s.roomed env) opt
  (if c.st.ackCnt ≠ 0 ∧ c.st.onAckQueue = false then failed else success, s.leave id c)

/-- `write_tcp_send_queue`, with the streams that `get_from_send_queue` yields. -/
def writeTcpSendQueue (env : Env) : List Nat → Int → AckStack → Int × AckStack
  | [], cnt, s => (cnt, s)
  | id :: queue, cnt, s =>
      if cnt < maxDataPktBatch then
        let ret := ((s.entry id).flushed (s.roomed env)).1
        let s := s.leave id ((s.entry id).writeTcpSendQueue (s.roomed env))
        if s.halted ∨ ret ≤ 0 then (cnt, s) else writeTcpSendQueue env queue (cnt + ret) s
      else (cnt, s)

/-- A round of `write_tcp_ack_queue`. -/
def ackRound (alloc : Nat → Bool) (env : Env) (cnt : Nat) (s : AckStack) :
    Option (Nat × AckStack) :=
  match s.ackQueue.cirqGet with
  | (none, _) => none
  | (some id, q) =>
      let a : AckCall := { c := s.entry id, asked := s.asked, cnt := cnt }
      let a := a.serveAck alloc (s.roomed env)
      some (a.cnt, { ({ s with ackQueue := q } : AckStack).leave id a.c with asked := a.asked })

/-- `write_tcp_ack_queue`; a round takes a stream out, so `rounds` is a bound on them. -/
def writeTcpAckQueue (alloc : Nat → Bool) (env : Env) : Nat → Nat → AckStack → Nat × AckStack
  | 0, cnt, s => (cnt, s)
  | rounds + 1, cnt, s =>
      if cnt < maxAckPktBatch then
        match s.ackRound alloc env cnt with
        | none => (cnt, s)
        | some (cnt, s) => writeTcpAckQueue alloc env rounds cnt s
      else (cnt, s)

/-! ## The law -/

/-- **Who owes an acknowledgement stands in the queue**, once, and knows it. -/
structure Law (s : AckStack) : Prop where
  queue : ∃ xs, s.ackQueue.Window xs ∧ xs.Nodup ∧
    ∀ id, (s.streams id).onAckQueue = true ↔ id ∈ xs
  owes : ∀ id, 0 < (s.streams id).ackCnt ∨ (s.streams id).isWack = true →
    (s.streams id).onAckQueue = true
  count : ∀ id, (s.streams id).ackCnt ≤ 63

/-- The stream is queued already, or asks for more than a window advertisement and finds room. -/
def EnqueueOk (s : AckStack) (id : Nat) : Cx.AckOpt → Prop
  | .wack => (s.streams id).onAckQueue = true
  | .now | .aggregate => (s.streams id).onAckQueue = true ∨ s.ackQueue.cirqFull = false

/-- A service asks for a window advertisement only for a stream that is queued. -/
def SendOk (s : AckStack) (env : Env) (id : Nat) : Prop :=
  Cx.flushes (s.streams id).state = true → Cx.AsksWindow env (s.streams id) →
    (s.streams id).onAckQueue = true

/-- The mbufs for all that the first stream of the queue owes can be allocated. -/
def PayOk (alloc : Nat → Bool) (s : AckStack) : Prop :=
  ∀ id, s.ackQueue.cirqGet.1 = some id →
    ∀ k < AckCall.owed (s.streams id), alloc (s.asked + k) = true

def SendQueueOk (env : Env) : List Nat → Int → AckStack → Prop
  | [], _, _ => True
  | id :: queue, cnt, s =>
      cnt < maxDataPktBatch → s.SendOk env id ∧
        (0 < ((s.entry id).flushed (s.roomed env)).1 →
          SendQueueOk env queue (cnt + ((s.entry id).flushed (s.roomed env)).1)
            (s.leave id ((s.entry id).writeTcpSendQueue (s.roomed env))))

def AckQueueOk (alloc : Nat → Bool) (env : Env) : Nat → Nat → AckStack → Prop
  | 0, _, _ => True
  | rounds + 1, cnt, s =>
      cnt < maxAckPktBatch → PayOk alloc s ∧
        match s.ackRound alloc env cnt with
        | none => True
        | some (cnt, s) => AckQueueOk alloc env rounds cnt s

/-! ## One call keeps the law -/

section Calls

variable {s : AckStack} {id : Nat} {env : Env} {alloc : Nat → Bool}

theorem leave_runs {c : Cx} (runs : c.halted = false) :
    s.leave id c =
      { s with
        streams := Function.update s.streams id c.st
        mem := c.mem
        ackQueue := (fun q : CircularQueue Nat => (q.cirqAdd id).2)^[c.ackEnqueues] s.ackQueue } := by
  unfold leave
  rw [runs]
  rfl

theorem leave_halts {c : Cx} (halts : c.halted = true) :
    s.leave id c = { s with halted := true } := if_pos halts

/-- A call that queues nobody keeps the law, if the stream does not owe more than it may. -/
theorem Law.leave_iff (law : s.Law) {c : Cx} (runs : c.halted = false) (none : c.ackEnqueues = 0)
    (same : c.st.onAckQueue = (s.streams id).onAckQueue) (count : c.st.ackCnt ≤ 63) :
    (s.leave id c).Law ↔
      (0 < c.st.ackCnt ∨ c.st.isWack = true → c.st.onAckQueue = true) := by
  rw [leave_runs runs, none]
  constructor
  · intro after
    simpa using after.owes id
  · intro owes
    obtain ⟨xs, window, once, marks⟩ := law.queue
    refine ⟨⟨xs, window, once, fun other => ?_⟩, fun other => ?_, fun other => ?_⟩
    all_goals
      dsimp only
      by_cases here : other = id
      · subst here
        rw [Function.update_self]
        first
          | rw [same]
            exact marks other
          | exact owes
          | exact count
      · rw [Function.update_of_ne here]
        first
          | exact marks other
          | exact law.owes other
          | exact law.count other

/-- The stream comes to the end of the queue. -/
theorem Law.enqueue (law : s.Law) {c : Cx} (runs : c.halted = false) (one : c.ackEnqueues = 1)
    (off : (s.streams id).onAckQueue = false) (on : c.st.onAckQueue = true)
    (count : c.st.ackCnt ≤ 63) (room : s.ackQueue.cirqFull = false) : (s.leave id c).Law := by
  obtain ⟨xs, window, once, marks⟩ := law.queue
  have new : id ∉ xs := fun old => by
    rw [(marks id).mpr old] at off
    cases off
  rw [leave_runs runs, one]
  refine ⟨⟨xs ++ [id], window.cirqAdd room id, ?_, fun other => ?_⟩, fun other => ?_,
    fun other => ?_⟩
  · refine List.nodup_append.mpr ⟨once, List.nodup_singleton id, ?_⟩
    rintro a old b last rfl
    exact new (List.mem_singleton.mp last ▸ old)
  all_goals
    dsimp only
    by_cases here : other = id
    · subst here
      rw [Function.update_self]
      first
        | exact iff_of_true on (List.mem_append_right _ (List.mem_singleton_self other))
        | exact fun _ => on
        | exact count
    · rw [Function.update_of_ne here]
      first
        | rw [marks other, List.mem_append, List.mem_singleton, or_iff_left here]
        | exact law.owes other
        | exact law.count other

/-- A stream that is not on the queue owes nothing. -/
theorem Law.idle (law : s.Law) (off : (s.streams id).onAckQueue = false) :
    (s.streams id).ackCnt = 0 ∧ (s.streams id).isWack = false := by
  have owes := law.owes id
  rw [off] at owes
  constructor
  · exact Nat.eq_zero_of_not_pos fun some_ => Bool.false_ne_true (owes (.inl some_))
  · exact Bool.eq_false_iff.mpr fun some_ => Bool.false_ne_true (owes (.inr some_))

/-- **`enqueue_ack` keeps the law** exactly when the stream is queued already or can be. -/
theorem enqueueAck_law (law : s.Law) (opt : Cx.AckOpt) :
    (s.enqueueAck env id opt).2.Law ↔ s.EnqueueOk id opt := by
  have small := Cx.noteAck_count opt (law.count id)
  have same := Cx.noteAck_onAckQueue opt (s.streams id)
  have went : (s.enqueueAck env id opt).2 =
      s.leave id (((s.entry id).modify (Cx.noteAck opt)).ackQueueAdd (s.roomed env)) := by
    rw [← Cx.enqueueAck_eq]
    rfl
  -- without a place in the queue the note alone counts
  have noted : ((s.entry id).modify (Cx.noteAck opt)).ackQueueAdd (s.roomed env) =
      (s.entry id).modify (Cx.noteAck opt) →
      ((s.enqueueAck env id opt).2.Law ↔
        (0 < (Cx.noteAck opt (s.streams id)).ackCnt ∨
          (Cx.noteAck opt (s.streams id)).isWack = true → (s.streams id).onAckQueue = true)) := by
    intro skipped
    rw [went, skipped, law.leave_iff (by rfl) (by rfl) same small]
    change (_ → (Cx.noteAck opt (s.streams id)).onAckQueue = true) ↔ _
    rw [same]
    rfl
  cases on : (s.streams id).onAckQueue with
  | true =>
      rw [noted (Cx.ackQueueAdd_skips fun _ => same.trans on)]
      refine iff_of_true (fun _ => on) ?_
      cases opt with
      | wack => exact on
      | now | aggregate => exact .inl on
  | false =>
      obtain ⟨none, -⟩ := law.idle on
      by_cases wack : opt = .wack
      · subst wack
        rw [noted (Cx.ackQueueAdd_skips fun owes => absurd none owes), on, EnqueueOk, on]
        exact iff_of_false (fun owes => Bool.false_ne_true (owes (.inr rfl))) Bool.false_ne_true
      have one := Cx.noteAck_idle wack none
      have ok : s.EnqueueOk id opt ↔ s.ackQueue.cirqFull = false := by
        cases opt with
        | wack => exact absurd rfl wack
        | now | aggregate => exact or_iff_right (by rw [on]; exact Bool.false_ne_true)
      rw [ok]
      cases full : s.ackQueue.cirqFull with
      | true =>
          rw [noted (Cx.ackQueueAdd_full (by rw [roomed, full]; rfl)), on, one]
          exact iff_of_false (fun owes => Bool.false_ne_true (owes (.inl Nat.one_pos)))
            (fun no => Bool.noConfusion no)
      | false =>
          refine iff_of_true ?_ rfl
          rw [went, Cx.ackQueueAdd_adds
            (by change (Cx.noteAck opt (s.streams id)).ackCnt ≠ 0; rw [one]; exact Nat.one_ne_zero)
            (same.trans on) (by rw [roomed, full]; rfl)]
          exact law.enqueue rfl rfl on rfl small full

/-- **A service of the send queue keeps the law** unless it asks for a window advertisement for a
stream that is not queued. -/
theorem serveSend_law (law : s.Law) (ok : s.SendOk env id) :
    (s.leave id ((s.entry id).writeTcpSendQueue (s.roomed env))).Law := by
  have queued : (s.entry id).st.ackCnt ≠ 0 → (s.entry id).st.onAckQueue = true := fun owes =>
    law.owes id (.inl (Nat.pos_of_ne_zero owes))
  rcases Cx.writeTcpSendQueue_notes (s.roomed env) queued with halts | ⟨less, wack⟩
  · rw [leave_halts halts]
    exact ⟨law.queue, law.owes, law.count⟩
  · refine (law.leave_iff less.halted less.enqueues less.onAckQueue
      (Nat.le_trans less.less (law.count id))).mpr ?_
    rw [less.onAckQueue]
    rintro (owes | asked)
    · exact law.owes id (.inl (Nat.lt_of_lt_of_le owes less.less))
    · rcases wack.mp asked with before | ⟨state, asks⟩
      · exact law.owes id (.inr before)
      · exact ok state asks

/-- And breaks it then. -/
theorem serveSend_breaks (law : s.Law)
    (runs : ((s.entry id).writeTcpSendQueue (s.roomed env)).halted = false)
    (after : (s.leave id ((s.entry id).writeTcpSendQueue (s.roomed env))).Law) :
    s.SendOk env id := by
  have queued : (s.entry id).st.ackCnt ≠ 0 → (s.entry id).st.onAckQueue = true := fun owes =>
    law.owes id (.inl (Nat.pos_of_ne_zero owes))
  rcases Cx.writeTcpSendQueue_notes (s.roomed env) queued with halts | ⟨less, wack⟩
  · rw [runs] at halts
    cases halts
  · intro state asks
    have owes := (law.leave_iff runs less.enqueues less.onAckQueue
      (Nat.le_trans less.less (law.count id))).mp after
    rw [less.onAckQueue] at owes
    exact owes (.inr (wack.mpr (.inr ⟨state, asks⟩)))

theorem writeTcpSendQueue_law : ∀ (queue : List Nat) (cnt : Int) {s : AckStack}, s.Law →
    SendQueueOk env queue cnt s → (writeTcpSendQueue env queue cnt s).2.Law := by
  intro queue
  induction queue with
  | nil => exact fun _ _ law _ => law
  | cons id queue ih =>
      intro cnt s law ok
      rw [writeTcpSendQueue]
      split
      · rename_i small
        obtain ⟨sendOk, rest⟩ := ok small
        dsimp only
        split
        · exact serveSend_law law sendOk
        · rename_i goes
          exact ih _ (serveSend_law law sendOk) (rest (by omega))
      · exact law

/-- **A round of `write_tcp_ack_queue` keeps the law** exactly when it can send all that the stream
owes. -/
theorem ackRound_law (law : s.Law) {cnt cnt' : Nat} {s' : AckStack}
    (round : s.ackRound alloc env cnt = some (cnt', s')) : s'.Law ↔ PayOk alloc s := by
  obtain ⟨xs, window, once, marks⟩ := law.queue
  cases empty : s.ackQueue.cirqEmpty with
  | true =>
      have none : s.ackQueue.cirqGet.1 = none := by
        unfold CircularQueue.cirqGet
        rw [empty]
        rfl
      unfold ackRound at round
      generalize s.ackQueue.cirqGet = got at none round
      obtain ⟨_, q⟩ := got
      cases none
      cases round
  | false =>
      obtain ⟨id, rest, rfl, first, window'⟩ := window.cirqGet empty
      have pay : PayOk alloc s ↔
          ∀ k < AckCall.owed (s.streams id), alloc (s.asked + k) = true := by
        unfold PayOk
        rw [first]
        exact ⟨fun all => all id rfl, fun all other same => Option.some.inj same ▸ all⟩
      rw [pay]
      unfold ackRound at round
      generalize s.ackQueue.cirqGet = got at first window' round
      obtain ⟨_, q⟩ := got
      obtain rfl : _ = some id := first
      obtain ⟨rfl, rfl⟩ := Prod.mk.inj (Option.some.inj round)
      have on : (s.streams id).onAckQueue = true := (marks id).mpr List.mem_cons_self
      obtain ⟨off, enqueues, halted, less, paid⟩ := @AckCall.serveAck_pays alloc (s.roomed env)
        { c := s.entry id, asked := s.asked, cnt := cnt } on
      generalize AckCall.serveAck alloc (s.roomed env)
        { c := s.entry id, asked := s.asked, cnt := cnt } = a at off enqueues halted less paid ⊢
      have enqueues : a.c.ackEnqueues = 0 := enqueues
      have paid : (a.c.st.ackCnt = 0 ∧ a.c.st.isWack = false) ↔
          ∀ k < AckCall.owed (s.streams id), alloc (s.asked + k) = true := paid
      rw [leave_runs halted, enqueues, ← paid]
      have gone : id ∉ rest := (List.nodup_cons.mp once).1
      constructor
      · intro after
        have idle := @Law.idle _ id after (by simpa using off)
        simpa using idle
      · rintro ⟨none, quiet⟩
        refine ⟨⟨rest, window', (List.nodup_cons.mp once).2, fun other => ?_⟩, fun other => ?_,
          fun other => ?_⟩
        all_goals
          dsimp only
          by_cases here : other = id
          · subst here
            rw [Function.update_self]
            first
              | exact iff_of_false (by rw [off]; exact Bool.false_ne_true) gone
              | rw [none, quiet]
                rintro (owes | owes)
                · exact absurd owes (Nat.lt_irrefl 0)
                · cases owes
              | exact Nat.le_trans less (law.count other)
          · rw [Function.update_of_ne here]
            first
              | exact law.owes other
              | exact law.count other
              | rw [marks other, List.mem_cons, or_iff_right here]

theorem writeTcpAckQueue_law : ∀ (rounds cnt : Nat) {s : AckStack}, s.Law →
    AckQueueOk alloc env rounds cnt s → (writeTcpAckQueue alloc env rounds cnt s).2.Law := by
  intro rounds
  induction rounds with
  | zero => exact fun _ _ law _ => law
  | succ rounds ih =>
      intro cnt s law ok
      rw [writeTcpAckQueue]
      split
      · rename_i small
        obtain ⟨pay, rest⟩ := ok small
        cases round : s.ackRound alloc env cnt with
        | none => exact law
        | some next =>
            obtain ⟨cnt', s'⟩ := next
            rw [round] at rest
            exact ih cnt' ((ackRound_law law round).mpr pay) rest
      · exact law

/-- A round takes the first stream out of the queue. -/
theorem ackRound_window {xs : List Nat} (window : s.ackQueue.Window xs) {cnt cnt' : Nat}
    {s' : AckStack} (round : s.ackRound alloc env cnt = some (cnt', s')) :
    ∃ id rest, xs = id :: rest ∧ s'.ackQueue.Window rest := by
  cases empty : s.ackQueue.cirqEmpty with
  | true =>
      simp [ackRound, CircularQueue.cirqGet, empty] at round
  | false =>
      obtain ⟨id, rest, rfl, first, window'⟩ := window.cirqGet empty
      refine ⟨id, rest, rfl, ?_⟩
      unfold ackRound at round
      generalize s.ackQueue.cirqGet = got at first window' round
      obtain ⟨_, q⟩ := got
      obtain rfl : _ = some id := first
      obtain ⟨rfl, rfl⟩ := Prod.mk.inj (Option.some.inj round)
      have quiet : ∀ a : AckCall, a.c.out = [] →
          (a.serveAck alloc (s.roomed env)).c.ackEnqueues = 0 ∧
            (a.serveAck alloc (s.roomed env)).c.halted = false := by
        intro a fresh
        have none : a.c.ackEnqueues = 0 ∧ a.c.halted = false := by
          unfold Cx.ackEnqueues Cx.halted
          rw [fresh]
          exact ⟨rfl, rfl⟩
        by_cases on : a.c.st.onAckQueue = true
        · have pays := @AckCall.serveAck_pays alloc (s.roomed env) a on
          exact ⟨pays.2.1.trans none.1, pays.2.2.1.trans none.2⟩
        · unfold AckCall.serveAck
          rw [if_neg on]
          exact none
      obtain ⟨enqueues, halted⟩ := quiet { c := s.entry id, asked := s.asked, cnt := cnt } rfl
      rw [leave_runs halted, enqueues]
      exact window'

/-- The bound on the rounds of `write_tcp_ack_queue` does not cut it short. -/
theorem writeTcpAckQueue_enough (more : Nat) : ∀ (xs : List Nat) (rounds cnt : Nat) {s : AckStack},
    s.ackQueue.Window xs → xs.length < rounds →
    writeTcpAckQueue alloc env (rounds + more) cnt s = writeTcpAckQueue alloc env rounds cnt s := by
  intro xs
  induction xs with
  | nil =>
      intro rounds cnt s window positive
      obtain ⟨rounds, rfl⟩ := Nat.exists_eq_succ_of_ne_zero (Nat.ne_of_gt positive)
      rw [Nat.succ_add, writeTcpAckQueue, writeTcpAckQueue]
      split
      · cases round : s.ackRound alloc env cnt with
        | none => rfl
        | some next =>
            obtain ⟨id, rest, none, -⟩ := ackRound_window window round
            cases none
      · rfl
  | cons id xs ih =>
      intro rounds cnt s window positive
      obtain ⟨rounds, rfl⟩ := Nat.exists_eq_succ_of_ne_zero (Nat.ne_of_gt (Nat.zero_lt_of_lt positive))
      rw [Nat.succ_add, writeTcpAckQueue, writeTcpAckQueue]
      split
      · cases round : s.ackRound alloc env cnt with
        | none => rfl
        | some next =>
            obtain ⟨cnt', s'⟩ := next
            obtain ⟨id', rest, same, window'⟩ := ackRound_window window round
            obtain ⟨rfl, rfl⟩ := List.cons.inj same
            exact ih rounds cnt' window' (Nat.lt_of_succ_lt_succ positive)
      · rfl

end Calls

/-! ## Runs -/

inductive AckEvent where
  | enqueueAck (id : Nat) (opt : Cx.AckOpt) (env : Env)
  /-- with what `get_from_send_queue` yields, one after the other -/
  | sendQueue (queue : List Nat) (env : Env)
  | ackQueue (env : Env)
  /-- whatever else is done with a stream -/
  | work (id : Nat) (st : TcpStream)

/-- The call with all the rounds it needs. -/
def ackCall (alloc : Nat → Bool) (env : Env) (s : AckStack) : Nat × AckStack :=
  writeTcpAckQueue alloc env (s.ackQueue.cirqCount + 1) 0 s

def step (alloc : Nat → Bool) (s : AckStack) (e : AckEvent) : AckStack :=
  if s.halted then s
  else
    match e with
    | .enqueueAck id opt env => (s.enqueueAck env id opt).2
    | .sendQueue queue env => (s.writeTcpSendQueue env queue 0).2
    | .ackQueue env => (s.ackCall alloc env).2
    | .work id st =>
        { s with
          streams := Function.update s.streams id
            { st with
              ackCnt := (s.streams id).ackCnt
              isWack := (s.streams id).isWack
              onAckQueue := (s.streams id).onAckQueue } }

def EventOk (alloc : Nat → Bool) (s : AckStack) : AckEvent → Prop
  | .enqueueAck id opt _ => s.EnqueueOk id opt
  | .sendQueue queue env => SendQueueOk env queue 0 s
  | .ackQueue env => AckQueueOk alloc env (s.ackQueue.cirqCount + 1) 0 s
  | .work _ _ => True

/-- Nobody owes anything. -/
structure Start (s : AckStack) : Prop where
  queue : ∃ size, 0 < size ∧ s.ackQueue = .cirqInit size
  idle : ∀ id, (s.streams id).ackSide = ⟨0, false, false⟩

theorem Start.law {s : AckStack} (start : s.Start) : s.Law := by
  obtain ⟨size, room, queue⟩ := start.queue
  have side := start.idle
  simp only [TcpStream.ackSide, AckSide.mk.injEq] at side
  refine ⟨⟨[], ?_, List.nodup_nil, fun id => ?_⟩, fun id => ?_, fun id => ?_⟩
  · rw [queue]
    exact CircularQueue.cirqInit_window room
  · simp [(side id).2.2]
  · simp [side id]
  · simp [(side id).1]

/-- **One step keeps the law.** -/
theorem Law.step {alloc : Nat → Bool} {s : AckStack} (law : s.Law) (e : AckEvent)
    (ok : s.EventOk alloc e) : (s.step alloc e).Law := by
  unfold AckStack.step
  split
  · exact law
  cases e with
  | enqueueAck id opt env => exact (enqueueAck_law law opt).mpr ok
  | sendQueue queue env => exact writeTcpSendQueue_law queue 0 law ok
  | ackQueue env => exact writeTcpAckQueue_law _ 0 law ok
  | work id st =>
      have same : ∀ other, (Function.update s.streams id
          { st with
            ackCnt := (s.streams id).ackCnt
            isWack := (s.streams id).isWack
            onAckQueue := (s.streams id).onAckQueue } other).ackSide =
          (s.streams other).ackSide := by
        intro other
        by_cases here : other = id
        · rw [here, Function.update_self]
          rfl
        · rw [Function.update_of_ne here]
      simp only [TcpStream.ackSide, AckSide.mk.injEq] at same
      obtain ⟨xs, window, once, marks⟩ := law.queue
      refine ⟨⟨xs, window, once, fun other => ?_⟩, fun other => ?_, fun other => ?_⟩
      · dsimp only
        rw [(same other).2.2]
        exact marks other
      · dsimp only
        rw [(same other).1, (same other).2.1, (same other).2.2]
        exact law.owes other
      · dsimp only
        rw [(same other).1]
        exact law.count other

/-- **The ack queue law.**  In every run in which no window advertisement is asked for a stream that
is not queued, the queue has room, and the mbufs for what the served streams owe can be allocated,
who owes an acknowledgement stands in the queue once. -/
theorem ack_law (alloc : Nat → Bool) (es : List AckEvent) (s : AckStack) (start : s.Start)
    (allowed : Lib.Run.Allowed (step alloc) (EventOk alloc) s es) :
    Lib.Run.Along (step alloc) Law s es :=
  Lib.Run.along_of_step (fun _ e law ok => law.step e ok) es s start.law allowed

/-! ## Where the law breaks -/

/-- A stream that owes nothing. -/
def quietStack : AckStack :=
  { streams := fun _ => { state := .established }
    ackQueue := .cirqInit 4 }

theorem quietStack_start : quietStack.Start := ⟨⟨4, by decide, rfl⟩, fun _ => rfl⟩

/-- Where every mbuf can be allocated, the ack queue pays what is owed. -/
theorem ackQueueOk_of_alloc {alloc : Nat → Bool} {env : Env} (every : ∀ n, alloc n = true) :
    ∀ (rounds cnt : Nat) (s : AckStack), AckQueueOk alloc env rounds cnt s := by
  intro rounds
  induction rounds with
  | zero => exact fun _ _ => trivial
  | succ rounds ih =>
      intro cnt s _
      refine ⟨fun _ _ _ _ => every _, ?_⟩
      split
      · trivial
      · exact ih _ _

/-- A stream to which the application has written. -/
def written : TcpStream :=
  { state := .established
    sndbuf := ((SndBuff.sbInit 4 .zero 100).sbPut { id := 7, payloadLen := 700 }).2
    sndNxt := 100, sndUna := 100, peerWnd := 8192, mss := 1460 }

/-- Two streams acknowledge, one of them is asked for its window and has data to send, the data
takes one acknowledgement with it, and then the queue is served. -/
def twoStreams : List AckEvent :=
  [.enqueueAck 1 .now {}, .enqueueAck 2 .aggregate {}, .enqueueAck 1 .now {},
    .enqueueAck 1 .wack {}, .work 1 written, .sendQueue [1] {}, .ackQueue {}]

theorem ack_law_two :
    Lib.Run.Along (step fun _ => true) Law quietStack twoStreams := by
  refine ack_law (fun _ => true) twoStreams quietStack quietStack_start
    ⟨.inr (by decide), .inr (by decide), .inl (by decide), ?_, trivial, ?_, ?_, trivial⟩
  · show (_ : Bool) = true
    decide
  · refine fun _ => ⟨fun _ _ => ?_, fun _ => trivial⟩
    decide
  · exact ackQueueOk_of_alloc (fun _ => rfl) _ _ _

/-- A window advertisement is noted, `enqueue_ack` returns success, and the queue is empty.  An
acknowledgement for which there is no mbuf is owed by a stream that has left the queue. -/
theorem noted_unqueued :
    ((quietStack.enqueueAck {} 1 .wack).1 = success ∧
      ((quietStack.enqueueAck {} 1 .wack).2.streams 1).isWack = true ∧
      (quietStack.enqueueAck {} 1 .wack).2.ackQueue.cirqEmpty = true ∧
      ¬ (quietStack.enqueueAck {} 1 .wack).2.Law) ∧
    ((((quietStack.enqueueAck {} 1 .now).2.ackCall (fun _ => false) {}).2.streams 1).ackCnt = 1 ∧
      ((quietStack.enqueueAck {} 1 .now).2.ackCall (fun _ => false) {}).2.ackQueue.cirqEmpty =
        true ∧
      ¬ ((quietStack.enqueueAck {} 1 .now).2.ackCall (fun _ => false) {}).2.Law) := by
  refine ⟨⟨by decide, by decide, by decide, fun law => ?_⟩,
    ⟨by decide, by decide, fun law => ?_⟩⟩
  · exact absurd (law.owes 1 (.inr (by decide))) (by decide)
  · exact absurd (law.owes 1 (.inl (by decide))) (by decide)

end AckStack

end QStack
