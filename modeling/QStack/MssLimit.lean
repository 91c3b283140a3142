/- # QStack.MssLimit -- whether accepted data can be sent

`_q_tcp_send` accepts an mbuf of any length the buffer has room for, and the peer's SYN sets `mss`.
`flush_tcp_sending_buffer` hands whole mbufs to `send_tcp_packet`, which refuses one that is
longer than `mss`; then the process exits (`flush_exits_iff`).

`accepted_sendable` says when that cannot happen: as long as no mbuf is accepted that is longer
than `mss`, and no SYN sets `mss` below what the buffer holds.
-/
import QStack.PeerLimits

namespace QStack

set_option autoImplicit false

open Lib.Run

/-! ## What the send buffer holds -/

/-- The most `send_tcp_packet` takes without options. -/
def TcpStream.dataRoom (s : TcpStream) : Nat := payloadRoom { ack := true } s

namespace SndBuff

/-- Every mbuf of the buffer is `room` bytes at most. -/
def Fits (b : SndBuff) (room : Nat) : Prop :=
  ∃ H N, b.Holds H N ∧ ∀ m ∈ b.held H N, m.payloadLen ≤ room

section Fits

variable {b : SndBuff} {room : Nat}

theorem Fits.mono {more : Nat} (fits : b.Fits room) (le : room ≤ more) : b.Fits more := by
  obtain ⟨H, N, holds, short⟩ := fits
  exact ⟨H, N, holds, fun m mem => (short m mem).trans le⟩

theorem sbInit_fits (sndbufSize : Nat) (b : SndBuff) (initSeq : Seq) :
    (b.sbInit sndbufSize initSeq).Fits 0 :=
  ⟨[], [], sbInit_holds sndbufSize b initSeq, nofun⟩

theorem Fits.reset (fits : b.Fits room) : b.sbResetRetrans.2.Fits room := by
  obtain ⟨H, N, holds, short⟩ := fits
  rcases sbResetRetrans_cases b with ⟨same, -⟩ | ⟨-, none, moved⟩
  · rw [same]
    exact ⟨H, N, holds, short⟩
  · rw [moved]
    refine ⟨H, N, holds.congr rfl rfl, fun m mem => ?_⟩
    unfold held at mem short
    rw [none, List.append_nil] at short
    simp only [List.nil_append, List.mem_append, List.mem_map] at mem
    rcases mem with (⟨sent, mem, rfl⟩ | mem) | mem
    · exact short sent (by simp [mem])
    · exact short m (by simp [mem])
    · exact short m (by simp [mem])

theorem mem_removeAcked {ackSeq : Seq} {ms : List SndMbuf} {m : SndMbuf}
    (mem : m ∈ (removeAcked ackSeq ms).2) : m ∈ ms := by
  rw [← removeAcked_append ackSeq ms]
  exact List.mem_append_right _ mem

theorem Fits.acked (fits : b.Fits room) (ackSeq : Seq) : (b.sbRemoveAcked ackSeq).2.Fits room := by
  obtain ⟨H, N, holds, short⟩ := fits
  unfold sbRemoveAcked
  have left : ∀ m, m ∈ (removeAcked ackSeq b.uackList).2 ++ (removeAcked ackSeq b.retransList).2
      ++ H ++ N → m ∈ b.held H N := by
    intro m mem
    simp only [List.mem_append] at mem
    simp only [held, List.mem_append]
    exact mem.imp_left fun early => early.imp_left fun sent =>
      sent.imp mem_removeAcked mem_removeAcked
  generalize removeAcked ackSeq b.uackList = uack at left
  generalize removeAcked ackSeq b.retransList = retrans at left
  exact ⟨H, N, holds.congr rfl rfl, fun m mem => short m (left m mem)⟩

theorem Fits.put {m : SndMbuf} (fits : b.Fits room)
    (accepted : 0 < (b.sbPut m).1 → b.toPut m ≤ room) : (b.sbPut m).2.Fits room := by
  obtain ⟨H, N, holds, short⟩ := fits
  by_cases none : b.toPut m = 0
  · rw [sbPut_refused none]
    exact ⟨H, N, holds, short⟩
  cases full : b.targetFull m with
  | true =>
      rw [sbPut_full none full]
      exact ⟨H, N, holds.congr rfl rfl, short⟩
  | false =>
      obtain ⟨b', H', N', put, holds', held', -⟩ := sbPut_stored holds none full
      rw [put] at accepted ⊢
      refine ⟨H', N', holds', fun m' mem => ?_⟩
      rcases List.mem_cons.mp (held'.mem_iff.mp mem) with rfl | mem
      · exact accepted (by dsimp only; omega)
      · exact short m' mem

/-- A pop takes an mbuf that fits. -/
theorem Fits.pop {m : Option SndMbuf} {b' : SndBuff} (fits : b.Fits room)
    (pop : b.popWaiting = (m, b')) : b'.Fits room ∧ ∀ m' ∈ m, m'.payloadLen ≤ room := by
  obtain ⟨H, N, holds, short⟩ := fits
  rcases popWaiting_cases holds with ⟨none, -⟩ | ⟨m', b₁, H', N', some, popped⟩
  · rw [none] at pop
    cases pop
    exact ⟨⟨H, N, holds, short⟩, nofun⟩
  · rw [some] at pop
    cases pop
    have waiting : ∀ x, x ∈ m' :: (b'.retransList ++ H' ++ N') → x ∈ b.held H N := by
      intro x mem
      rw [← popped.waiting] at mem
      simp only [held, List.mem_append] at mem ⊢
      exact mem.imp_left fun early => early.imp_left .inr
    refine ⟨⟨H', N', popped.holds, fun x mem => ?_⟩, fun x same => ?_⟩
    · simp only [held, List.mem_append, popped.uack] at mem
      rcases mem with ((sent | lost) | high) | low
      · exact short x (by simp [held, sent])
      · exact short x (waiting x (by simp [lost]))
      · exact short x (waiting x (by simp [high]))
      · exact short x (waiting x (by simp [low]))
    · cases same
      exact short m' (waiting m' List.mem_cons_self)

theorem Fits.sent {m : SndMbuf} {seq : Seq} {state : MbufState} (fits : b.Fits room)
    (short : m.payloadLen ≤ room) :
    { b with uackList :=
      b.uackList ++ [{ m with tcpSeq := seq, mbufState := state }] }.Fits room := by
  obtain ⟨H, N, holds, all⟩ := fits
  refine ⟨H, N, holds.congr rfl rfl, fun x mem => ?_⟩
  simp only [held, List.mem_append, List.mem_singleton] at mem
  rcases mem with (((mem | rfl) | mem) | mem) | mem
  · exact all x (by simp [held, mem])
  · exact short
  · exact all x (by simp [held, mem])
  · exact all x (by simp [held, mem])
  · exact all x (by simp [held, mem])

end Fits

end SndBuff

/-! ## The attempts of a flush -/

namespace Cx

/-- The payload lengths that `flush_tcp_sending_buffer` hands to `send_tcp_packet`. -/
def loopAttempts (env : Env) : Nat → Cx → List Nat
  | 0, _ => []
  | rounds + 1, c =>
      let seq := c.st.sndNxt
      if tcpSeqLt seq c.st.sndbuf.headSeq then []
      else
        match c.st.sndbuf.popWaiting with
        | (none, _) => []
        | (some m, b) =>
            let c := c.setSndbuf b
            if m.payloadLen = 0 then loopAttempts env rounds c
            else if c.st.outOfWindow seq m then []
            else
              m.payloadLen ::
                match c.sendTcpPacket env { ack := true } (some m.id) m.payloadLen with
                | (ret, c) => if ret < 0 then [] else loopAttempts env rounds (c.appendUack seq m)

def attempts (env : Env) (c : Cx) : List Nat :=
  if c.st.isFinSent then []
  else if c.st.sndbuf.sbLen = 0 then []
  else loopAttempts env (c.st.sndbuf.waitingCount + 1) c

theorem dataRoom_of_limits {s s' : TcpStream} (same : s'.limits = s.limits) :
    s'.dataRoom = s.dataRoom := by
  simp only [TcpStream.limits, Limits.mk.injEq] at same
  rw [TcpStream.dataRoom, TcpStream.dataRoom, payloadRoom, payloadRoom, same.1]

/-- An attempt fails exactly when the payload is too long; else the buffer and the limits are as
they were. -/
theorem sendTcpPacket_room (env : Env) (c : Cx) (m : MbufId) (len : Nat) :
    (c.st.dataRoom < len ∧
      c.sendTcpPacket env { ack := true } (some m) len = (error, c)) ∨
    (len ≤ c.st.dataRoom ∧
      ∃ c', c.sendTcpPacket env { ack := true } (some m) len = (success, c') ∧
        c'.st.sndbuf = c.st.sndbuf ∧ c'.st.dataRoom = c.st.dataRoom) := by
  have paces := sendTcpPacket_paces env c { ack := true } (some m) len
  rcases sendTcpPacket_cases env { ack := true } (some m) len c with
    ⟨refused, long⟩ | ⟨-, none, -⟩ | ⟨sent, view⟩
  · exact .inl ⟨long, refused⟩
  · cases none
  · refine .inr ⟨?_, _, Prod.ext sent rfl, ?_, dataRoom_of_limits paces.limits⟩
    · by_contra long
      have refused : c.sendTcpPacket env { ack := true } (some m) len = (error, c) :=
        if_pos (Nat.lt_of_not_le long)
      rw [refused] at sent
      cases sent
    · exact congrArg (fun v : View => v.sndbuf) view

section Flush

variable (env : Env)

/-- **The loop fails, and the process exits, exactly when it attempts too long a payload.** -/
theorem flushLoop_exits (rounds : Nat) : ∀ (packets : Nat) (c : Cx),
    (c.flushLoop env rounds packets).1 < 0 ↔
      ∃ len ∈ c.loopAttempts env rounds, c.st.dataRoom < len := by
  have stops : ∀ (packets : Nat) (room : Nat), ((packets : Int) < 0 ↔
      ∃ len ∈ ([] : List Nat), room < len) := by
    intro packets room
    refine ⟨fun negative => by omega, fun found => ?_⟩
    obtain ⟨len, mem, -⟩ := found
    cases mem
  induction rounds with
  | zero => exact fun packets c => stops packets _
  | succ rounds ih =>
      intro packets c
      rw [flushLoop, loopAttempts]
      dsimp only
      split
      · exact stops packets _
      cases c.st.sndbuf.popWaiting with
      | mk popped b =>
        cases popped with
        | none => exact stops packets _
        | some m =>
            dsimp only
            have kept : (c.setSndbuf b).st.dataRoom = c.st.dataRoom := rfl
            split
            · rw [ih, kept]
            split
            · exact stops packets _
            rcases sendTcpPacket_room env (c.setSndbuf b) m.id m.payloadLen with
              ⟨long, refused⟩ | ⟨short, c', sent, -, same⟩
            · rw [refused]
              refine ⟨fun _ => ⟨_, List.mem_cons_self, long⟩, fun _ => ?_⟩
              have negative : (error : Int) < 0 := by decide
              dsimp only
              rw [if_pos negative]
              exact negative
            · rw [sent]
              dsimp only
              rw [if_neg (by decide), if_neg (by decide), ih]
              have after : (c'.appendUack c.st.sndNxt m).st.dataRoom = c.st.dataRoom := same
              rw [after]
              constructor
              · rintro ⟨len, mem, long⟩
                exact ⟨len, List.mem_cons_of_mem _ mem, long⟩
              · rintro ⟨len, mem, long⟩
                rcases List.mem_cons.mp mem with rfl | mem
                · rw [kept] at short
                  omega
                · exact ⟨len, mem, long⟩

theorem flush_exits_iff (c : Cx) : (c.flushTcpSendingBuffer env).1 < 0 ↔
    ∃ len ∈ c.attempts env, c.st.dataRoom < len := by
  have none : (0 : Int) < 0 ↔ ∃ len ∈ ([] : List Nat), c.st.dataRoom < len := by
    simp
  unfold flushTcpSendingBuffer attempts
  split
  · exact none
  · split
    · exact none
    · exact flushLoop_exits env _ 0 c

/-- Mbufs that fit are attempted as they are. -/
theorem loopAttempts_fit (rounds : Nat) : ∀ (c : Cx), c.st.sndbuf.Fits c.st.dataRoom →
    ∀ len ∈ c.loopAttempts env rounds, len ≤ c.st.dataRoom := by
  induction rounds with
  | zero => exact fun _ _ _ mem => absurd mem List.not_mem_nil
  | succ rounds ih =>
      intro c fits len
      rw [loopAttempts]
      dsimp only
      split
      · exact fun mem => absurd mem List.not_mem_nil
      cases pop : c.st.sndbuf.popWaiting with
      | mk popped b =>
        obtain ⟨left, taken⟩ := fits.pop pop
        cases popped with
        | none => exact fun mem => absurd mem List.not_mem_nil
        | some m =>
            dsimp only
            have short : m.payloadLen ≤ c.st.dataRoom := taken m rfl
            split
            · exact ih (c.setSndbuf b) left len
            split
            · exact fun mem => absurd mem List.not_mem_nil
            rcases sendTcpPacket_room env (c.setSndbuf b) m.id m.payloadLen with
              ⟨long, -⟩ | ⟨-, c', sent, buff, same⟩
            · exact absurd short (Nat.not_le_of_lt long)
            · rw [sent]
              dsimp only
              rw [if_neg (by decide)]
              have after : (c'.appendUack c.st.sndNxt m).st.dataRoom = c.st.dataRoom := same
              have fits' : (c'.appendUack c.st.sndNxt m).st.sndbuf.Fits c.st.dataRoom := by
                have left' : c'.st.sndbuf.Fits c.st.dataRoom := by
                  rw [buff]
                  exact left
                exact left'.sent short
              intro mem
              rcases List.mem_cons.mp mem with rfl | mem
              · exact short
              · have later := ih (c'.appendUack c.st.sndNxt m) (by rw [after]; exact fits') len mem
                rw [after] at later
                exact later

theorem attempts_fit {c : Cx} (fits : c.st.sndbuf.Fits c.st.dataRoom) :
    ∀ len ∈ c.attempts env, len ≤ c.st.dataRoom := by
  unfold attempts
  split
  · exact fun _ mem => absurd mem List.not_mem_nil
  · split
    · exact fun _ mem => absurd mem List.not_mem_nil
    · exact loopAttempts_fit env _ c fits

end Flush

end Cx

/-! ## The buffer over a step -/

theorem Core.recover_fits {room : Nat} (a : Seq) {k : Core} (fits : k.sndbuf.Fits room) :
    (k.recover a).sndbuf.Fits room := by
  unfold Core.recover
  split <;> exact fits

theorem Core.onAck_fits {room : Nat} (fast : Bool) (a : Seq) {k : Core}
    (fits : k.sndbuf.Fits room) : (k.onAck fast a).sndbuf.Fits room := by
  have rolled : (k.rollback a).sndbuf.Fits room := by
    unfold Core.rollback
    split
    · exact fits.reset
    · exact fits
  have retired : ∀ k : Core, k.sndbuf.Fits room → (k.retire a).sndbuf.Fits room := by
    intro k fits
    unfold Core.retire
    split
    · exact fits
    · exact fits.acked a
  unfold Core.onAck
  split
  · exact fits
  · split
    · exact retired _ (recover_fits a rolled)
    · exact retired _ (recover_fits a fits)

theorem acked_fits {room : Nat} {s : TcpStream} (seg : Segment) (fits : s.sndbuf.Fits room) :
    (s.acked seg).sndbuf.Fits room := Core.onAck_fits _ _ fits

theorem Flushed.fits {window : U32} {rounds : Nat} {v v' : View} {room : Nat}
    (flushed : Flushed window rounds v v') (fits : v.sndbuf.Fits room) :
    v'.sndbuf.Fits room := by
  induction flushed with
  | spent | refused => exact fits
  | empty _ pop => exact (fits.pop pop).1
  | skip _ pop _ _ ih => exact ih (fits.pop pop).1
  | send _ pop _ _ _ ih =>
      obtain ⟨left, taken⟩ := fits.pop pop
      exact ih (left.sent (taken _ rfl))
  | drop _ pop => exact (fits.pop pop).1

namespace Conn

variable {s : Conn} {e : ConnEvent} {room : Nat}

/-- The mbuf of a send call fits, if the buffer takes it. -/
def SendFits (s : Conn) (call : ConnCall) (room : Nat) : Prop :=
  ∀ len highPri, call = .send len highPri → s.st.state.isOpen = true →
    0 < (s.st.sndbuf.sbPut (s.offered len highPri)).1 →
      s.st.sndbuf.toPut (s.offered len highPri) ≤ room

/-- **What the buffer holds goes on fitting**, whatever is called. -/
theorem Move.fits {call : ConnCall} {v : View} (move : Move s call v)
    (fits : s.st.sndbuf.Fits room) (sends : s.SendFits call room) : v.sndbuf.Fits room := by
  cases move with
  | same => exact fits
  | syn _ move =>
      cases move with
      | same | listened | refused | rstAcked | bareAcked | synAcked | simultaneous | noAck =>
          exact fits
      | acked st k r _ _ _ core _ after =>
          have opened : st.core.sndbuf.Fits room := by
            rw [core]
            exact fits
          obtain ⟨state, -, now | ⟨fast, now⟩⟩ := after
          · have kept : k.sndbuf = st.core.sndbuf := by rw [now]
            change k.sndbuf.Fits room
            rw [kept]
            exact opened
          · have kept : ∃ a, k.sndbuf = (st.core.onAck fast a).sndbuf := ⟨_, by rw [now]⟩
            obtain ⟨a, kept⟩ := kept
            change k.sndbuf.Fits room
            rw [kept]
            exact Core.onAck_fits fast a opened
  | data _ move =>
      have acked := fun seg => acked_fits seg fits
      cases move with
      | same | moved | reset => exact fits
      | acked | closing | lastAck => exact acked _
      | finWait1 =>
          refine Core.recover_fits _ (acked _)
  | put opened => exact fits.put (sends _ _ rfl opened)
  | received => exact fits
  | closed _ move => cases move <;> exact fits
  | control _ move => cases move <;> exact fits
  | flushed _ _ _ _ flushed => exact flushed.fits fits
  | rto _ move =>
      cases move with
      | lost | control => exact fits
      | retransmit => exact fits.reset
  | expired => exact fits

/-! ## Runs -/

/-- Every flush from here attempts payloads that `send_tcp_packet` takes, and does not fail; and
the options of a SYN fit `mss`, while one can be sent. -/
def Sendable (s : Conn) : Prop :=
  s.ended = true ∨
    ((∀ e : ConnEvent, (∀ len ∈ (s.entry e).attempts e.env, len ≤ s.st.dataRoom) ∧
      0 ≤ ((s.entry e).flushTcpSendingBuffer e.env).1) ∧
    (s.st.state.isSyn = true → calculateOptionLength { syn := true } ≤ s.st.mss))

/-- No mbuf longer than `mss` is accepted, and no SYN sets `mss` below an mbuf of the buffer, or
below the length of our own options while our SYN may have to be sent. -/
structure MssOk (s : Conn) (e : ConnEvent) : Prop where
  sends : s.SendFits e.call s.st.dataRoom
  reads : ∀ seg, e.call = .packet seg → seg.syn = true → s.st.state ≠ .synSent →
    ∀ s', s.st.readOptions e.env seg = some s' →
      s.st.sndbuf.Fits s'.dataRoom ∧
        (s.st.state.isSyn = true → calculateOptionLength { syn := true } ≤ s'.mss)

/-- The invariant. -/
structure Fitting (s : Conn) : Prop where
  fits : s.st.sndbuf.Fits s.st.dataRoom
  early : s.st.state.isSyn = true →
    s.st.sndbuf.Fits 0 ∧ calculateOptionLength { syn := true } ≤ s.st.mss

theorem Fitting.sendable (fitting : s.Fitting) : s.Sendable := by
  refine .inr ⟨fun e => ?_, fun syn => (fitting.early syn).2⟩
  have short : ∀ len ∈ (s.entry e).attempts e.env, len ≤ s.st.dataRoom :=
    Cx.attempts_fit e.env (c := s.entry e) fitting.fits
  refine ⟨short, ?_⟩
  by_contra negative
  obtain ⟨len, mem, long⟩ := (Cx.flush_exits_iff e.env (s.entry e)).mp (by omega)
  exact absurd (short len mem) (Nat.not_le_of_lt long)

/-- Our SYN is sent no more once the handshake is over. -/
theorem Move.early {call : ConnCall} {v : View} (move : Move s call v)
    (syn : v.state.isSyn = true) : s.st.state.isSyn = true := by
  by_contra late
  have passed : s.Late := by
    change s.st.state.isOpen = true ∨ s.st.state.isFin = true ∨ s.st.state = .closed
    revert late
    cases s.st.state <;> decide
  have after := (passed.move move).2.2
  revert after syn
  cases v.state <;> decide

theorem packet_fitting {seg : Segment} (fitting : s.Fitting) (ok : s.MssOk e)
    (call : e.call = .packet seg) (move : Move s e.call (s.serve e).view) :
    (s.serve e).ended = true ∨ (s.serve e).Fitting := by
  have cx : (s.serve e).cx = (s.entry e).processSegment e.env seg := by
    rw [serve, call]
  have noSend : ∀ room, s.SendFits e.call room := by
    intro room len highPri sends
    rw [call] at sends
    cases sends
  have limited := Cx.processSegment_limits e.env seg (s.entry e)
  rw [← cx] at limited
  cases limited with
  | halted halted => exact .inl (ended_of_halted halted)
  | synAcked from_ syn ack noRst s' read limits now =>
      have blank : s.st.sndbuf.Fits 0 := (fitting.early (by
        rw [show s.st.state = _ from from_]
        rfl)).1
      refine .inr ⟨(move.fits blank (noSend 0)).mono (Nat.zero_le _), fun syn => ?_⟩
      rw [show (s.serve e).st.state = _ from now] at syn
      cases syn
  | kept s' read limits =>
      have room : (s.serve e).st.dataRoom = s'.dataRoom := Cx.dataRoom_of_limits limits
      have mss : (s.serve e).st.mss = s'.mss := congrArg Limits.mss limits
      have set : s.st.sndbuf.Fits s'.dataRoom ∧
          (s.st.state.isSyn = true → calculateOptionLength { syn := true } ≤ s'.mss) := by
        by_cases reads : seg.syn = true ∧ s.st.state ≠ .synSent
        · refine ok.reads seg call reads.1 reads.2 s' ?_
          rw [← read]
          exact (TcpStream.optioned_reads reads).symm
        · have same : s.st.optioned e.env seg = some s.st := TcpStream.optioned_skips reads
          have unread : s' = s.st := Option.some.inj (read.symm.trans same)
          rw [unread]
          exact ⟨fitting.fits, fun syn => (fitting.early syn).2⟩
      refine .inr ⟨?_, fun syn => ?_⟩
      · rw [room]
        exact move.fits set.1 (noSend _)
      · have before := move.early syn
        rw [mss]
        exact ⟨move.fits (fitting.early before).1 (noSend 0), set.2 before⟩

theorem step_fitting (fitting : s.ended = true ∨ s.Fitting) (ok : s.MssOk e) :
    (s.step e).ended = true ∨ (s.step e).Fitting := by
  refine step_keeps fitting fun _ fitting => ?_
  rcases serve_move s e with halted | move
  · exact .inl (ended_of_halted halted)
  rcases e.packet_or_other with ⟨seg, call⟩ | other
  · exact packet_fitting fitting ok call move
  · have limits := serve_limits s e other
    have room : (s.serve e).st.dataRoom = s.st.dataRoom := Cx.dataRoom_of_limits limits
    refine .inr ⟨?_, fun syn => ?_⟩
    · rw [room]
      exact move.fits fitting.fits ok.sends
    · have before := move.early syn
      rw [show (s.serve e).st.mss = s.st.mss from congrArg Limits.mss limits]
      refine ⟨move.fits (fitting.early before).1 fun len highPri _ opened => ?_,
        (fitting.early before).2⟩
      exfalso
      revert before opened
      cases s.st.state <;> decide

theorem Start.fitting {n : Nat} (start : Start n s)
    (large : calculateOptionLength { syn := true } ≤ s.st.mss) :
    s.ended = true ∨ s.Fitting := by
  rcases start.handshaking with halted | handshaking
  · exact .inl (ended_of_halted halted)
  have blank : s.st.sndbuf.Fits 0 := by
    rw [show s.st.sndbuf = _ from handshaking.view.buff]
    exact SndBuff.sbInit_fits n _ _
  exact .inr ⟨blank.mono (Nat.zero_le _), fun _ => ⟨blank, large⟩⟩

/-- **Accepted data can be sent**, as long as nothing longer than `mss` is accepted and no SYN of
the peer sets `mss` below what was. -/
theorem accepted_sendable {n : Nat} (start : Start n s)
    (large : calculateOptionLength { syn := true } ≤ s.st.mss) (es : List ConnEvent)
    (allowed : Allowed step MssOk s es) : Along step Sendable s es := by
  have along := along_of_step (P := fun s : Conn => s.ended = true ∨ s.Fitting)
    (fun s e => step_fitting) es s (start.fitting large) allowed
  refine along.mono (fun s fitting => ?_) es s
  rcases fitting with ended | fitting
  · exact .inl ended
  · exact fitting.sendable

/-- A SYN that announces an MSS of 500. -/
def smallSyn : Segment :=
  { seq := 99, syn := true, doff := 6, options := fun i => [2, 4, 1, 244].getD i 0 }

/-- The peer opens the connection, and the application sends `len` bytes. -/
def sendAfterOpen (len : U32) : List ConnEvent :=
  [{ call := .packet { seq := 100, ackSeq := 501, ack := true, window := 5000 } },
    { call := .send len false, avail := 10 }, { call := .serveSend, avail := 10 }]

theorem smallSyn_start : Start 8 (passive 32 8 500 {} smallSyn) :=
  .passive 32 500 {} smallSyn rfl rfl

theorem accepted_sendable_500 :
    Along step Sendable (passive 32 8 500 {} smallSyn) (sendAfterOpen 500) := by
  have noSyn : ∀ (s : Conn) (env : Env) (call : ConnCall),
      (∀ seg, call = .packet seg → seg.syn = false) →
      ∀ seg, call = .packet seg → seg.syn = true → s.st.state ≠ .synSent →
        ∀ s', s.st.readOptions env seg = some s' → s.st.sndbuf.Fits s'.dataRoom ∧
          (s.st.state.isSyn = true → calculateOptionLength { syn := true } ≤ s'.mss) := by
    intro s env call plain seg packet syn
    rw [plain seg packet] at syn
    cases syn
  refine accepted_sendable smallSyn_start (by decide +kernel) _
    ⟨⟨fun _ _ call => ConnCall.noConfusion call, noSyn _ _ _ ?_⟩,
      ⟨?_, noSyn _ _ _ fun _ call => ConnCall.noConfusion call⟩,
      ⟨fun _ _ call => ConnCall.noConfusion call,
        noSyn _ _ _ fun _ call => ConnCall.noConfusion call⟩, trivial⟩
  · intro seg packet
    cases packet
    rfl
  · intro len highPri sends
    cases sends
    exact fun _ _ => by decide +kernel

/-- An mbuf of 1000 bytes is accepted, and the flush that finds it ends the process. -/
theorem accepted_exits : ¬ ∀ (n : Nat) (s : Conn), Start n s →
    calculateOptionLength { syn := true } ≤ s.st.mss → ∀ es : List ConnEvent,
      Along step Sendable s es := by
  intro always
  have along := always 8 _ smallSyn_start (by decide +kernel) (sendAfterOpen 1000)
  -- after the send call, before the flush
  have accepted := along.2.2.1
  rcases accepted with ended | ⟨flushes, -⟩
  · exact absurd ended (by decide +kernel)
  · exact absurd (flushes { call := .serveSend, avail := 10 }).2 (by decide +kernel)

end Conn

end QStack
