/-
# QStack.SendFlush -- the flush of the send buffer, one mbuf at a time

`flush_tcp_sending_buffer` takes the waiting mbufs in the order `retrans_list`,
`husnd_q`, `usnd_q`.  A round sends one (`View.sendData`), or ends the flush: below
`head_seq`, with nothing left, or by dropping an mbuf the window does not admit.
`Flushed` is the loop as a relation between the views before and after it.
-/
import QStack.StreamView

namespace QStack

set_option autoImplicit false

namespace SndBuff

/-! ## The next mbuf -/

theorem Holds.waitingCount {b : SndBuff} {H N : List SndMbuf} (holds : b.Holds H N) :
    b.waitingCount = (b.retransList ++ H ++ N).length := by
  rw [SndBuff.waitingCount, CircularQueue.cirqCount_eq holds.high,
    CircularQueue.cirqCount_eq holds.low, List.length_append, List.length_append]

/-- What a pop of the waiting mbuf `m` leaves behind. -/
structure Popped (b : SndBuff) (H N : List SndMbuf) (m : SndMbuf) (b' : SndBuff)
    (H' N' : List SndMbuf) : Prop where
  holds : b'.Holds H' N'
  waiting : b.retransList ++ H ++ N = m :: (b'.retransList ++ H' ++ N')
  retrans : b.retransList = m :: b'.retransList ∨ (b.retransList = [] ∧ b'.retransList = [])
  uack : b'.uackList = b.uackList
  size : b'.size = b.size
  head : b'.headSeq = b.headSeq
  next : b'.nextSeq = b.nextSeq

theorem Popped.shorter {b b' : SndBuff} {H N H' N' : List SndMbuf} {m : SndMbuf}
    (popped : Popped b H N m b' H' N') {rounds : Nat}
    (short : (b.retransList ++ H ++ N).length < rounds + 1) :
    (b'.retransList ++ H' ++ N').length < rounds := by
  rw [popped.waiting, List.length_cons] at short
  exact Nat.lt_of_succ_lt_succ short

theorem popWaiting_cases {b : SndBuff} {H N : List SndMbuf} (holds : b.Holds H N) :
    (b.popWaiting = (none, b) ∧ b.retransList ++ H ++ N = []) ∨
      ∃ m b' H' N', b.popWaiting = (some m, b') ∧ Popped b H N m b' H' N' := by
  obtain ⟨low, high, uack, retrans, size, head, next⟩ := b
  obtain ⟨repHigh, repLow⟩ := holds
  dsimp only at repHigh repLow
  cases retrans with
  | cons m rest =>
      exact .inr ⟨m, _, H, N, rfl, ⟨repHigh, repLow⟩, rfl, .inl rfl, rfl, rfl, rfl, rfl⟩
  | nil =>
      cases H with
      | cons m H' =>
          obtain ⟨front, later⟩ := CircularQueue.dirCirqGet_cons repHigh
          unfold popWaiting
          dsimp only
          generalize high.dirCirqGet = got at front later
          obtain ⟨item, q⟩ := got
          subst front
          exact .inr ⟨m, _, H', N, rfl, ⟨later, repLow⟩, rfl, .inr ⟨rfl, rfl⟩, rfl, rfl, rfl, rfl⟩
      | nil =>
          unfold popWaiting
          dsimp only
          rw [CircularQueue.dirCirqGet_nil repHigh]
          dsimp only
          cases N with
          | nil =>
              rw [CircularQueue.dirCirqGet_nil repLow]
              exact .inl ⟨rfl, rfl⟩
          | cons m N' =>
              obtain ⟨front, later⟩ := CircularQueue.dirCirqGet_cons repLow
              generalize low.dirCirqGet = got at front later
              obtain ⟨item, q⟩ := got
              subst front
              exact .inr ⟨m, _, [], N', rfl, ⟨repHigh, later⟩, rfl, .inr ⟨rfl, rfl⟩, rfl, rfl, rfl,
                rfl⟩

end SndBuff

/-! ## One round -/

namespace View

def setSndbuf (b : SndBuff) (v : View) : View := { v with sndbuf := b }

/-- The mbuf `m`, popped with `b` left, is sent and awaits its acknowledgement. -/
def sendData (m : SndMbuf) (b : SndBuff) (v : View) : View :=
  ((v.setSndbuf b).transmit { ack := true } (some m.id) m.payloadLen).setSndbuf
    { b with uackList := b.uackList ++ [{ m with tcpSeq := v.sndNxt, mbufState := .sent }] }

theorem sendData_sent {m : SndMbuf} (v : View) (b : SndBuff) (payload : m.payloadLen ≠ 0) :
    (v.sendData m b).sent =
      { seq := v.sndNxt, len := m.payloadLen, data := some m.id } :: v.sent := by
  simp [sendData, setSndbuf, transmit, Sent.log, Sent.occupied, payload, Core.packetSeq]

/-- The test of the flush, with the window it computed before the loop. -/
def outOfWindow (window : U32) (v : View) (m : SndMbuf) : Bool :=
  tcpSeqGt (v.sndNxt + m.len) (v.sndUna + window)

end View

namespace Cx

theorem view_appendUack (seq : Seq) (m : SndMbuf) (c : Cx) :
    (c.appendUack seq m).view = c.view.setSndbuf { c.st.sndbuf with
      uackList := c.st.sndbuf.uackList ++ [{ m with tcpSeq := seq, mbufState := .sent }] } := rfl

theorem sendWindow_modify (c : Cx) {f : TcpStream → TcpStream}
    (same : ∀ s, (f s).sendWindow = s.sendWindow) :
    (c.modify f).st.sendWindow = c.st.sendWindow := same c.st

theorem sendWindow_rtoListAdd (env : Env) (c : Cx) :
    (c.rtoListAdd env).st.sendWindow = c.st.sendWindow := by
  unfold rtoListAdd
  dsimp only
  split
  · rfl
  · split <;> rfl

theorem sendWindow_timeoutListUpdate (env : Env) (c : Cx) :
    (c.timeoutListUpdate env).st.sendWindow = c.st.sendWindow := by
  unfold timeoutListUpdate
  dsimp only
  split <;> rfl

theorem sendWindow_sendTcpPacket (env : Env) (flags : SendFlags) (mbuf : Option MbufId)
    (payloadlen : Nat) (c : Cx) :
    (c.sendTcpPacket env flags mbuf payloadlen).2.st.sendWindow = c.st.sendWindow := by
  have timed : ∀ b : Cx, (if payloadlen + flags.phantom ≠ 0 then b.rtoListAdd env
      else b).st.sendWindow = b.st.sendWindow := by
    intro b
    split
    · exact sendWindow_rtoListAdd env b
    · rfl
  have acked : ∀ b : Cx, (if flags.ack = true then
      (b.modify fun s => { s with tsLastackSent := env.curTs }).timeoutListUpdate env
      else b).st.sendWindow = b.st.sendWindow := by
    intro b
    split
    · exact sendWindow_timeoutListUpdate env _
    · rfl
  rw [sendTcpPacket]
  split
  · rfl
  · split
    · rfl
    · dsimp only
      rw [emit_st, timed, sendWindow_modify _ (by intro; rfl), acked,
        sendWindow_modify _ (by intro; rfl)]
      split <;> rfl

end Cx

/-! ## The loop -/

/-- The rounds of a flush, with the window computed before the first. -/
inductive Flushed (window : U32) : Nat → View → View → Prop
  | spent (v : View) : Flushed window 0 v v
  | refused {rounds : Nat} {v : View} (low : tcpSeqLt v.sndNxt v.sndbuf.headSeq = true) :
      Flushed window (rounds + 1) v v
  | empty {rounds : Nat} {v : View} {b : SndBuff}
      (above : tcpSeqLt v.sndNxt v.sndbuf.headSeq = false)
      (pop : v.sndbuf.popWaiting = (none, b)) : Flushed window (rounds + 1) v (v.setSndbuf b)
  | skip {rounds : Nat} {v v' : View} {m : SndMbuf} {b : SndBuff}
      (above : tcpSeqLt v.sndNxt v.sndbuf.headSeq = false)
      (pop : v.sndbuf.popWaiting = (some m, b)) (blank : m.payloadLen = 0)
      (rest : Flushed window rounds (v.setSndbuf b) v') : Flushed window (rounds + 1) v v'
  | send {rounds : Nat} {v v' : View} {m : SndMbuf} {b : SndBuff}
      (above : tcpSeqLt v.sndNxt v.sndbuf.headSeq = false)
      (pop : v.sndbuf.popWaiting = (some m, b)) (payload : m.payloadLen ≠ 0)
      (inside : v.outOfWindow window m = false)
      (rest : Flushed window rounds (v.sendData m b) v') : Flushed window (rounds + 1) v v'
  | drop {rounds : Nat} {v : View} {m : SndMbuf} {b : SndBuff}
      (above : tcpSeqLt v.sndNxt v.sndbuf.headSeq = false)
      (pop : v.sndbuf.popWaiting = (some m, b)) (payload : m.payloadLen ≠ 0)
      (outside : v.outOfWindow window m = true) : Flushed window (rounds + 1) v (v.setSndbuf b)

/-- A flush moves `snd_nxt` and the send buffer, and logs what it sends. -/
theorem Flushed.frame {window : U32} {rounds : Nat} {v v' : View}
    (flushed : Flushed window rounds v v') :
    v' = { v with sndNxt := v'.sndNxt, sndbuf := v'.sndbuf, sent := v'.sent } := by
  induction flushed with
  | spent | refused | empty | drop => rfl
  | skip _ _ _ _ ih => exact ih
  | send _ _ _ _ _ ih =>
      refine ih.trans ?_
      simp only [View.sendData, View.setSndbuf, View.transmit, Bool.false_and, Bool.or_false]

namespace Cx

/-- The loop of the code runs through these rounds, or ends the process. -/
theorem flushLoop_flushed (env : Env) (window : U32) :
    ∀ (rounds packets : Nat) (c : Cx), c.st.sendWindow = window →
      (c.flushLoop env rounds packets).2.view.halted = true ∨
        Flushed window rounds c.view (c.flushLoop env rounds packets).2.view
  | 0, _, c, _ => .inr (.spent c.view)
  | rounds + 1, packets, c, sized => by
      rw [flushLoop]
      dsimp only
      by_cases low : tcpSeqLt c.st.sndNxt c.st.sndbuf.headSeq = true
      · rw [if_pos low]
        exact .inr (.refused low)
      rw [if_neg low]
      rw [Bool.not_eq_true] at low
      generalize pop : c.st.sndbuf.popWaiting = popped
      obtain ⟨_ | m, b⟩ := popped
      · exact .inr (.empty low pop)
      dsimp only
      by_cases blank : m.payloadLen = 0
      · rw [if_pos blank]
        exact (flushLoop_flushed env window rounds packets (c.setSndbuf b) sized).imp_right
          (.skip low pop blank)
      rw [if_neg blank]
      by_cases outside : (c.setSndbuf b).st.outOfWindow c.st.sndNxt m = true
      · rw [if_pos outside, view_refuseOutOfWindow]
        refine .inr (.drop low pop blank ?_)
        rw [← sized]
        exact outside
      rw [if_neg outside]
      rw [Bool.not_eq_true] at outside
      have kept := sendWindow_sendTcpPacket env { ack := true } (some m.id) m.payloadLen
        (c.setSndbuf b)
      rcases sendTcpPacket_cases env { ack := true } (some m.id) m.payloadLen
        (c.setSndbuf b) with ⟨refused, -⟩ | ⟨-, none, -⟩ | ⟨sent, after⟩
      · rw [refused]
        exact .inl rfl
      · cases none
      · generalize (c.setSndbuf b).sendTcpPacket env { ack := true } (some m.id)
          m.payloadLen = result at kept sent after
        obtain ⟨ret, c'⟩ := result
        simp only at kept sent after
        subst sent
        dsimp only
        rw [if_neg (by decide)]
        have buffered : c'.st.sndbuf = b := congrArg (fun v : View => v.sndbuf) after
        have rest := flushLoop_flushed env window rounds (packets + 1) (c'.appendUack c.st.sndNxt m)
          (kept.trans sized)
        rw [view_appendUack, after, buffered] at rest
        refine rest.imp_right (.send low pop blank ?_)
        rw [← sized]
        exact outside

end Cx

end QStack
