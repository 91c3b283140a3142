/-
# QStack.FinConsumption -- rcv_nxt, merged_next and the peer's FIN

`rcv_nxt` is written by the handlers, `merged_next` by the receive buffer.  From ESTABLISHED
on the first follows the second: `process_tcp_payload` copies it after every `rb_put`, whatever
`rb_put` did, and a FIN that stands exactly there takes the one number after it.  The states in
which payload is stored or a FIN is looked at (`receives`) are left with the first FIN and never
entered again, so there is no second one.

Every call is a path of the moves of `ReceiveSide`, or a read.  Each move keeps `RecvSide.Inv`, and once a
FIN was consumed it only takes out of the buffer (`Final`); `fin_consumed_once` is the result for
runs.
-/
import QStack.ReceiveSide

namespace QStack

set_option autoImplicit false

/-- Nothing has entered the buffer: its containers only lost what they held at the front. -/
structure RcvBuff.OnlyRead (b b' : RcvBuff) : Prop where
  merged : b'.mergedQ.head = b.mergedQ.head ∧ b'.mergedQ.dQueue = b.mergedQ.dQueue
  high : b'.highQ.head = b.highQ.head ∧ b'.highQ.dQueue = b.highQ.dQueue
  ooo : b'.oooList = b.oooList
  next : b'.mergedNext = b.mergedNext

namespace RcvBuff.OnlyRead

variable {b b' b'' : RcvBuff}

theorem refl (b : RcvBuff) : b.OnlyRead b := ⟨⟨rfl, rfl⟩, ⟨rfl, rfl⟩, rfl, rfl⟩

theorem trans (first : b.OnlyRead b') (second : b'.OnlyRead b'') : b.OnlyRead b'' where
  merged := ⟨second.merged.1.trans first.merged.1, second.merged.2.trans first.merged.2⟩
  high := ⟨second.high.1.trans first.high.1, second.high.2.trans first.high.2⟩
  ooo := second.ooo.trans first.ooo
  next := second.next.trans first.next

end RcvBuff.OnlyRead

/-! ## Reading -/

theorem CircularQueue.dirCirqGet_head {α : Type} (q : CircularQueue α) :
    q.dirCirqGet.2.head = q.head ∧ q.dirCirqGet.2.dQueue = q.dQueue := by
  unfold dirCirqGet
  split
  · exact ⟨rfl, rfl⟩
  · exact ⟨rfl, rfl⟩

namespace RcvMem

theorem tryGetHigh_onlyRead (rounds : Nat) (w : RcvMem) :
    w.buff.OnlyRead (w.tryGetHigh rounds).2.buff := by
  induction rounds generalizing w with
  | zero => exact .refl _
  | succ rounds ih =>
      have high := w.buff.highQ.dirCirqGet_head
      unfold tryGetHigh
      generalize w.buff.highQ.dirCirqGet = got at high
      obtain ⟨id, q⟩ := got
      have popped : w.buff.OnlyRead { w.buff with highQ := q } := ⟨⟨rfl, rfl⟩, high, rfl, rfl⟩
      cases id with
      | none => exact popped
      | some id =>
          dsimp only
          split
          · split
            · have merged := w.buff.mergedQ.dirCirqGet_head
              have same : (w.setBuff { w.buff with highQ := q }).buff.mergedQ = w.buff.mergedQ := rfl
              rw [same]
              generalize w.buff.mergedQ.dirCirqGet = front at merged
              obtain ⟨first, q'⟩ := front
              cases first with
              | none => exact popped.trans ⟨merged, ⟨rfl, rfl⟩, rfl, rfl⟩
              | some first => exact popped.trans ⟨merged, ⟨rfl, rfl⟩, rfl, rfl⟩
            · exact popped
          · let w₁ := w.setBuff { w.buff with highQ := q }
            exact popped.trans (ih (w₁.setMem (w₁.mbufFree id)))

theorem tryGetMerged_onlyRead (rounds : Nat) (w : RcvMem) :
    w.buff.OnlyRead (w.tryGetMerged rounds).2.buff := by
  induction rounds generalizing w with
  | zero => exact .refl _
  | succ rounds ih =>
      have merged := w.buff.mergedQ.dirCirqGet_head
      unfold tryGetMerged
      generalize w.buff.mergedQ.dirCirqGet = got at merged
      obtain ⟨id, q⟩ := got
      cases id with
      | none => exact ⟨merged, ⟨rfl, rfl⟩, rfl, rfl⟩
      | some id =>
          have popped : w.buff.OnlyRead
              { w.buff with mergedQ := q, headSeq := w.buff.headSeq + (w.mbuf id).len } :=
            ⟨merged, ⟨rfl, rfl⟩, rfl, rfl⟩
          dsimp only
          split
          · exact popped
          · let w₁ := w.setBuff
              { w.buff with mergedQ := q, headSeq := w.buff.headSeq + (w.mbuf id).len }
            exact popped.trans (ih (w₁.setMem (w₁.mbufFree id)))

theorem checkPayload_onlyRead (w : RcvMem) (id : MbufId) :
    w.buff.OnlyRead (w.checkPayload id).buff := by
  unfold checkPayload
  split
  · exact .refl _
  · exact .refl _

/-- `q_recv` puts nothing into the buffer. -/
theorem qRecv_onlyRead (w : RcvMem) : w.buff.OnlyRead w.qRecv.2.buff := by
  have got : w.buff.OnlyRead w.rbGet.2.buff := by
    have high := tryGetHigh_onlyRead staticBuffSize w
    unfold rbGet tryGetHighMbuf
    generalize w.tryGetHigh staticBuffSize = result at high
    obtain ⟨id, w₁⟩ := result
    cases id with
    | some id => exact high.trans (checkPayload_onlyRead w₁ id)
    | none =>
        have merged := tryGetMerged_onlyRead staticBuffSize w₁
        dsimp only
        unfold tryGetMergedMbuf
        generalize w₁.tryGetMerged staticBuffSize = result at merged
        obtain ⟨id, w₂⟩ := result
        cases id with
        | some id => exact (high.trans merged).trans (checkPayload_onlyRead w₂ id)
        | none => exact high.trans merged
  unfold qRecv
  generalize w.rbGet = result at got
  obtain ⟨id, w₁⟩ := result
  cases id with
  | some id => exact got
  | none => exact got

end RcvMem

/-! ## The law -/

namespace RcvCore

/-- No FIN was consumed. -/
structure InStep (r : RcvCore) : Prop where
  fins : r.fins = []
  next : r.rcvNxt = r.rcvbuf.mergedNext

/-- One FIN was consumed, where the merged data ends. -/
structure PastFin (r : RcvCore) : Prop where
  fins : ∃ m, r.fins = [m] ∧ m.position = m.mergedNext
  next : r.rcvNxt = r.rcvbuf.mergedNext + 1

def Lawful (r : RcvCore) : Prop := r.InStep ∨ r.PastFin

end RcvCore

namespace RecvSide

/-- Before ESTABLISHED the buffer is as the initial sequence number left it; afterwards the law
holds, and no FIN was consumed where one could still be. -/
structure Inv (r : RecvSide) : Prop where
  early : r.state.isSyn = true →
    r.opened = [] ∧ r.rcv.fins = [] ∧ r.rcv.rcvbuf.mergedNext = r.rcv.irs + 1
  lawful : r.state.isSyn = false → r.opened ≠ [] → r.rcv.Lawful
  receives : r.state.receives = true → r.opened ≠ [] → r.rcv.InStep

/-- Once a FIN was consumed the receiving side rests, but for what the application reads. -/
def Final (r r' : RecvSide) : Prop :=
  r.opened ≠ [] → r.rcv.fins ≠ [] → r'.opened = r.opened ∧ r'.rcv.fins = r.rcv.fins ∧
    r'.rcv.rcvNxt = r.rcv.rcvNxt ∧ r.rcv.rcvbuf.OnlyRead r'.rcv.rcvbuf

theorem Final.refl (r : RecvSide) : r.Final r := fun _ _ => ⟨rfl, rfl, rfl, .refl _⟩

theorem Final.trans {r r' r'' : RecvSide} (first : r.Final r') (second : r'.Final r'') :
    r.Final r'' := by
  intro opened fins
  obtain ⟨opened', fins', next', only'⟩ := first opened fins
  obtain ⟨opened'', fins'', next'', only''⟩ :=
    second (by rw [opened']; exact opened) (by rw [fins']; exact fins)
  exact ⟨opened''.trans opened', fins''.trans fins', next''.trans next', only'.trans only''⟩

/-- The connection has just opened with the two numbers in step. -/
theorem Inv.opens {r r' : RecvSide} (inv : r.Inv) (early : r.state.isSyn = true)
    (state : r'.state = .established) (inStep : r'.rcv.InStep) : r'.Inv ∧ r.Final r' := by
  refine ⟨⟨?_, fun _ _ => .inl inStep, fun _ _ => inStep⟩, ?_⟩
  · rw [state]
    nofun
  · intro opened
    exact absurd (inv.early early).1 opened

/-- **Every move keeps the law**, and rests once a FIN was consumed. -/
theorem Inv.move {r r' : RecvSide} (move : RecvMove r r') (inv : r.Inv) : r'.Inv ∧ r.Final r' := by
  cases move with
  | aside state syn receives =>
      refine ⟨⟨fun early => inv.early (syn early), ?_, fun now => inv.receives (receives now)⟩,
        fun _ _ => ⟨rfl, rfl, rfl, .refl _⟩⟩
      intro _ opened
      cases before : r.state.isSyn with
      | true => exact absurd (inv.early before).1 opened
      | false => exact inv.lawful before opened
  | listened next early =>
      refine ⟨⟨fun _ => inv.early early, nofun, nofun⟩, fun opened => ?_⟩
      exact absurd (inv.early early).1 opened
  | synced seq st early => exact inv.opens early rfl ⟨(inv.early early).2.1, rfl⟩
  | acked st early =>
      obtain ⟨-, fins, merged⟩ := inv.early early
      exact inv.opens early rfl ⟨fins, merged.symm⟩
  | stored id w irs receives put =>
      have late : r.state.isSyn = false := by
        revert receives
        cases r.state <;> decide
      have before : r.opened ≠ [] → r.rcv.fins = [] := fun opened =>
        (inv.receives receives opened).fins
      refine ⟨⟨fun early => absurd (late.symm.trans early) nofun, ?_, ?_⟩, ?_⟩
      · intro _ opened
        exact .inl ⟨before opened, rfl⟩
      · intro _ opened
        exact ⟨before opened, rfl⟩
      · intro opened fins
        exact absurd (before opened) fins
  | fin position state receives here late left =>
      refine ⟨⟨fun early => absurd (late.symm.trans early) nofun, ?_, ?_⟩, ?_⟩
      · intro _ opened
        have inStep := inv.receives receives opened
        refine .inr ⟨⟨⟨position, r.rcv.rcvbuf.mergedNext⟩, ?_, here.trans inStep.next⟩, ?_⟩
        · rw [inStep.fins]
        · rw [inStep.next]
      · intro back
        exact absurd (left.symm.trans back) nofun
      · intro opened fins
        exact absurd (inv.receives receives opened).fins fins

/-- The mbuf of a segment is not looked at before it is stored. -/
theorem Inv.receive {r : RecvSide} (inv : r.Inv) (seg : Segment) :
    (r.receive seg).Inv ∧ r.Final (r.receive seg) :=
  ⟨⟨inv.early, inv.lawful, inv.receives⟩, fun _ _ => ⟨rfl, rfl, rfl, .refl _⟩⟩

/-- The application reads: nothing enters the buffer. -/
theorem Inv.read {r : RecvSide} (inv : r.Inv) (late : r.state.isSyn = false) :
    r.read.Inv ∧ r.Final r.read := by
  have only : r.rcv.rcvbuf.OnlyRead r.read.rcv.rcvbuf := RcvMem.qRecv_onlyRead r.buffered
  have inStep : r.rcv.InStep → r.read.rcv.InStep := fun before =>
    ⟨before.fins, before.next.trans only.next.symm⟩
  refine ⟨⟨fun early => absurd (late.symm.trans early) nofun, ?_, ?_⟩, ?_⟩
  · intro _ opened
    rcases inv.lawful late opened with before | past
    · exact .inl (inStep before)
    · exact .inr ⟨past.fins, past.next.trans (congrArg (· + 1) only.next.symm)⟩
  · intro receives opened
    exact inStep (inv.receives receives opened)
  · intro _ _
    exact ⟨rfl, rfl, rfl, only⟩

theorem Inv.path {r r' : RecvSide} (path : RecvPath r r') (inv : r.Inv) : r'.Inv ∧ r.Final r' :=
  path.keeps Final.refl (fun _ _ _ _ _ => Final.trans) (fun _ _ => Inv.move) inv

theorem created_inv (rcvbufSize : Nat) (seq : Seq) : (created rcvbufSize seq).Inv :=
  ⟨fun _ => ⟨rfl, rfl, rfl⟩, nofun, nofun⟩

end RecvSide

/-! ## Runs -/

namespace Conn

/-- What holds of a running connection that has become ESTABLISHED. -/
def FinLaw (s : Conn) : Prop :=
  s.view.halted = false → s.view.opened ≠ [] → s.view.rcv.Lawful

/-- What a step may still do once a FIN was consumed. -/
def AfterFin (s : Conn) (_ : ConnEvent) (s' : Conn) : Prop :=
  s'.view.halted = false → s.cx.recvSide.Final s'.cx.recvSide

/-- The process has ended, or the receiving side is in order. -/
def RcvInv (s : Conn) : Prop := s.view.halted = true ∨ s.cx.recvSide.Inv

theorem entered_inv {s : Conn} (e : ConnEvent) (inv : s.cx.recvSide.Inv) :
    (s.entered e).Inv ∧ s.cx.recvSide.Final (s.entered e) := by
  unfold entered
  cases e.call with
  | packet seg => exact inv.receive seg
  | send | recv | close | handleClose | serveControl | serveSend | serveAck | rto | timewait
  | timeout => exact ⟨inv, .refl _⟩

theorem step_rcvInv (s : Conn) (e : ConnEvent) (inv : s.RcvInv) :
    (s.step e).RcvInv ∧ s.AfterFin e (s.step e) := by
  unfold step
  split
  · exact ⟨inv, fun _ => .refl _⟩
  · rename_i running
    have alive : s.view.halted ≠ true := by
      intro halted
      simp [ended, halted] at running
    rcases serve_leads s e with halted | path | ⟨late, read⟩
    · refine ⟨.inl halted, fun up => ?_⟩
      rw [halted] at up
      cases up
    · obtain ⟨inv₁, final₁⟩ := entered_inv e (inv.resolve_left alive)
      obtain ⟨inv₂, final₂⟩ := inv₁.path path
      exact ⟨.inr inv₂, fun _ => final₁.trans final₂⟩
    · unfold RcvInv AfterFin
      rw [read]
      obtain ⟨inv', final⟩ := (inv.resolve_left alive).read late
      exact ⟨.inr inv', fun _ => final⟩

theorem Start.rcvInv {n : Nat} {s : Conn} (start : Start n s) : s.RcvInv := by
  cases start with
  | passive rcvbufSize iss env seg syn noAck =>
      have received := ((RecvSide.created_inv rcvbufSize seg.seq).receive seg).1
      exact (passive_leads rcvbufSize n iss env seg).imp_right fun path => (received.path path).1
  | active rcvbufSize iss env =>
      have created := RecvSide.created_inv rcvbufSize 0
      exact .inr (created.path (active_leads rcvbufSize n iss env)).1

/-- **The FIN is consumed once.**  From ESTABLISHED on `rcv_nxt` is `merged_next`, or one more
once a FIN was consumed; at most one is, where the merged data ends; and after it nothing enters
the receive buffer and `rcv_nxt` stays. -/
theorem fin_consumed_once {n : Nat} {s : Conn} (start : Start n s) (es : List ConnEvent) :
    Lib.Run.Along step FinLaw s es ∧ Lib.Run.Each step AfterFin s es := by
  constructor
  · have along : Lib.Run.Along step RcvInv s es :=
      Lib.Run.along_of_step (fun s e inv _ => (step_rcvInv s e inv).1) es s start.rcvInv
        (Lib.Run.allowed_always es s)
    refine Lib.Run.Along.mono ?_ es s along
    intro s inv running opened
    rcases inv with halted | inv
    · rw [running] at halted
      cases halted
    · cases early : s.st.state.isSyn with
      | true => exact absurd (inv.early early).1 opened
      | false => exact inv.lawful early opened
  · exact Lib.Run.each_of_step (P := RcvInv) (fun s e inv _ => step_rcvInv s e inv) es s
      start.rcvInv (Lib.Run.allowed_always es s)

/-- A segment with seven bytes and the FIN. -/
def lastSegment (id : MbufId) : Segment :=
  { seq := 100, ackSeq := 501, ack := true, fin := true, payloadLen := 7, id := id
    mbuf := { mbufState := .rcved, l4Len := 20 } }

/-- The handshake is completed, the peer sends its last bytes with a FIN, and sends them again. -/
def finRun : List ConnEvent :=
  [{ call := .packet { seq := 100, ackSeq := 501, ack := true } },
   { call := .packet (lastSegment 1) },
   { call := .packet (lastSegment 2) },
   { call := .recv }]

theorem fin_consumed_once_finRun :
    (Lib.Run.run step (passive 10 10 500 {} { seq := 99, syn := true }) finRun).st.fins =
      [⟨107, 107⟩] ∧
    (Lib.Run.run step (passive 10 10 500 {} { seq := 99, syn := true }) finRun).st.rcvNxt = 108 ∧
    Lib.Run.Along step FinLaw (passive 10 10 500 {} { seq := 99, syn := true }) finRun :=
  ⟨by decide +kernel, by decide +kernel,
    (fin_consumed_once (.passive 10 500 {} { seq := 99, syn := true } rfl rfl) finRun).1⟩

end Conn

end QStack
