/- # QStack.DupAck -- counting duplicate acknowledgements

`process_tcp_ack` says in a comment what a duplicate is: old, empty, with the window unchanged, and
with data outstanding.  Its test for the window compares two right edges, and both are computed
from the `peer_wnd` that `process_tcp_packet` has just overwritten; what is left of it is whether
`snd_wl2` has moved.

`DupRun` counts by the comment.  `dup_law` says when the counter of the code agrees.
-/
import QStack.WindowUpdate

namespace QStack

set_option autoImplicit false

open Lib.Run

/-! ## The test of the code -/

namespace TcpStream

/-- The segment is newer than the one `snd_wl1` and `snd_wl2` were taken from. -/
def movesEdge (s : TcpStream) (seg : Segment) : Bool :=
  tcpSeqLt s.sndWl1 seg.seq ||
    (s.sndWl1 == seg.seq && tcpSeqLt s.sndWl2 (s.adjustAck seg.ackSeq))

/-- The acknowledgement is old, repeats the last one and carries nothing. -/
def repeatsAck (s : TcpStream) (seg : Segment) (last : Seq) : Bool :=
  tcpSeqLt (s.adjustAck seg.ackSeq) s.sndNxt && s.adjustAck seg.ackSeq == last &&
    seg.payloadLen == 0

/-- What the test for a duplicate comes to, once the window has been overwritten. -/
def testsDup (s : TcpStream) (seg : Segment) : Bool :=
  s.repeatsAck seg s.lastAckSeq && (!s.movesEdge seg || s.adjustAck seg.ackSeq == s.sndWl2)

/-- The fields that the test reads. -/
structure TestsAlike (s s' : TcpStream) (seg : Segment) : Prop where
  core : s'.core = s.core
  wl1 : s'.sndWl1 = s.sndWl1
  wl2 : s'.sndWl2 = s.sndWl2
  last : s'.lastAckSeq = s.lastAckSeq
  dups : s'.dupAcks = s.dupAcks

theorem TestsAlike.testsDup {s s' : TcpStream} {seg : Segment} (alike : s.TestsAlike s' seg) :
    s'.testsDup seg = s.testsDup seg := by
  have nxt : s'.sndNxt = s.sndNxt := congrArg Core.sndNxt alike.core
  have adjusted := adjustAck_congr alike.core seg.ackSeq
  unfold TcpStream.testsDup repeatsAck movesEdge
  rw [nxt, adjusted, alike.wl1, alike.wl2, alike.last]

/-- Both right edges are those of the new window: the comparison is about `snd_wl2` alone. -/
theorem countsDup_written {s : TcpStream} {seg : Segment}
    (written : s.peerWnd = s.advertisedBy seg) : s.countsDup seg = s.testsDup seg := by
  have same : decide (s.peerWnd < s.advertisedBy seg) = false := by
    rw [written]
    exact decide_eq_false (by simp)
  unfold countsDup updateWindow
  rw [same, Bool.and_false, Bool.or_false]
  change (if s.movesEdge seg = true then _ else s).isDupAck _ _ _ = _
  unfold testsDup repeatsAck isDupAck
  cases moves : s.movesEdge seg with
  | true =>
      rw [if_pos rfl, Bool.not_true, Bool.false_or, written]
      congr 1
      rw [Bool.eq_iff_iff, beq_iff_eq, beq_iff_eq, BitVec.add_comm]
      constructor
      · exact fun edges => add_left_cancel edges
      · exact fun same => by rw [same]
  | false =>
      rw [if_neg Bool.false_ne_true, Bool.not_false, Bool.true_or, Bool.and_true,
        BitVec.add_comm, beq_self_eq_true, Bool.and_true]

/-- The fast retransmission branch is taken on the third duplicate by that test. -/
theorem fastRetransmits_eq (s : TcpStream) (seg : Segment) :
    s.fastRetransmits seg = (s.testsDup seg && (s.dupAcks + 1) % 256 == 3) := by
  have alike : s.TestsAlike (s.windowed seg) seg := ⟨rfl, rfl, rfl, rfl, rfl⟩
  have tested : (s.windowed seg).countsDup seg = s.testsDup seg :=
    (countsDup_written (s := s.windowed seg) rfl).trans alike.testsDup
  rw [← tested]
  change ((s.windowed seg).countsDup seg && ((s.windowed seg).counted seg).dupAcks == 3) = _
  cases dup : (s.windowed seg).countsDup seg with
  | false => rfl
  | true =>
      have counts : ((s.windowed seg).counted seg).dupAcks = (s.dupAcks + 1) % 256 := by
        unfold counted countDupAck updateWindow
        rw [dup, if_pos rfl]
        split <;> rfl
      rw [counts]

/-- The counter after an acknowledgement. -/
theorem AckTuned.dups {s : TcpStream} {seg : Segment} {t : Tuning} (tuned : s.AckTuned seg t)
    (few : s.acksTooMuch (s.adjustAck seg.ackSeq) = false) :
    t.dupAcks = (if s.countsDup seg then (s.dupAcks + 1) % 256 else 0) ∧
      t.lastAckSeq = if s.countsDup seg then s.lastAckSeq else s.adjustAck seg.ackSeq := by
  obtain ⟨cwnd, ssthresh, value⟩ := tuned.counts few
  rw [value]
  change (s.counted seg).dupAcks = _ ∧ (s.counted seg).lastAckSeq = _
  have kept : (s.updateWindow seg.seq (s.adjustAck seg.ackSeq) (s.advertisedBy seg)).dupAcks =
        s.dupAcks ∧
      (s.updateWindow seg.seq (s.adjustAck seg.ackSeq) (s.advertisedBy seg)).lastAckSeq =
        s.lastAckSeq := by
    unfold updateWindow
    split <;> exact ⟨rfl, rfl⟩
  unfold counted countDupAck
  cases s.countsDup seg with
  | true =>
      rw [if_pos rfl, if_pos rfl, if_pos rfl]
      exact ⟨by rw [← kept.1], kept.2⟩
  | false =>
      rw [if_neg Bool.false_ne_true, if_neg Bool.false_ne_true, if_neg Bool.false_ne_true]
      exact ⟨rfl, rfl⟩

end TcpStream

namespace Cx

/-- The segment reaches `process_tcp_ack` exactly when its handler passes it on. -/
theorem reachesAck_admitted {c : Cx} {seg : Segment}
    (late : c.st.state.isOpen = true ∨ c.st.state.isFin = true ∨ c.st.state = .closed)
    (inside : TcpState.synRcvd.val < c.st.state.val → c.st.inSequence seg = true) :
    c.st.reachesAck seg = (!seg.rst && c.st.handlesAck seg) := by
  rw [TcpStream.reachesAck_eq]
  by_cases beyond : TcpState.synRcvd.val < c.st.state.val
  · rw [inside beyond, Bool.true_and]
  · have closed : c.st.state = .closed := by
      revert late beyond
      cases c.st.state <;> decide
    have idle : c.st.handlesAck seg = false := by
      rw [TcpStream.handlesAck, closed]
    rw [idle, Bool.and_false, Bool.and_false]

/-- **The counter after a segment.** -/
theorem processSegment_dups (env : Env) (seg : Segment) (c : Cx)
    (late : c.st.state.isOpen = true ∨ c.st.state.isFin = true ∨ c.st.state = .closed) :
    (c.processSegment env seg).view.halted = true ∨
      ((c.st.reachesAck seg = false →
          (c.processSegment env seg).st.dupAcks = c.st.dupAcks ∧
            (c.processSegment env seg).st.lastAckSeq = c.st.lastAckSeq) ∧
        (c.st.reachesAck seg = true → c.st.acksTooMuch (c.st.adjustAck seg.ackSeq) = false →
          (c.processSegment env seg).st.dupAcks =
              (if c.st.testsDup seg then (c.st.dupAcks + 1) % 256 else 0) ∧
            (c.processSegment env seg).st.lastAckSeq =
              if c.st.testsDup seg then c.st.lastAckSeq else c.st.adjustAck seg.ackSeq)) := by
  cases processSegment_admission env seg c with
  | halted halted => exact .inl halted
  | dropped s read beyond outside paces =>
      refine .inr ⟨fun _ => ?_, fun reaches => ?_⟩
      · obtain ⟨o, same⟩ := optioned_same read
        obtain ⟨-, -, -, -, -, dups, last, -⟩ := TcpStream.tuning_congr paces
        rw [dups, last, same]
        exact ⟨rfl, rfl⟩
      · rw [TcpStream.reachesAck_eq, outside, Bool.false_and, Bool.false_and] at reaches
        cases reaches
  | admitted s read inside c₁ st view result =>
      obtain ⟨o, same⟩ := optioned_same read
      have core : c₁.st.core = c.st.core := congrArg View.toCore view
      have rcv : c₁.st.rcvCore = c.st.rcvCore := congrArg View.rcv view
      have now : c₁.st.state = c.st.state := congrArg Core.state core
      have alike : c.st.TestsAlike c₁.st seg := by
        constructor
        · exact core
        all_goals
          rw [st, same]
          rfl
      have handles : c₁.st.handlesAck seg = c.st.handlesAck seg := by
        have nxt : c₁.st.rcvNxt = c.st.rcvNxt := congrArg RcvCore.rcvNxt rcv
        rw [TcpStream.handlesAck, TcpStream.handlesAck, now, nxt]
      have tunes := handler_tunes env seg c₁ (by rw [now]; exact late)
      rw [now, ← result, handles, ← reachesAck_admitted late inside] at tunes
      have written : c₁.st.peerWnd = c₁.st.advertisedBy seg := by
        rw [st]
        rfl
      rcases tunes with ⟨reaches, tuned⟩ | ⟨paces, idle⟩
      · refine .inr ⟨fun missed => ?_, fun _ few => ?_⟩
        · rw [reaches] at missed
          cases missed
        · rw [← TcpStream.adjustAck_congr core, ← TcpStream.acksTooMuch_congr core] at few
          have counted := tuned.dups few
          rw [TcpStream.countsDup_written written, alike.testsDup, alike.dups, alike.last,
            TcpStream.adjustAck_congr core] at counted
          exact counted
      · rcases idle with idle | halted
        · obtain ⟨-, -, -, -, -, dups, last, -⟩ := TcpStream.tuning_congr paces
          refine .inr ⟨fun _ => ?_, fun reaches => ?_⟩
          · exact ⟨dups.trans alike.dups, last.trans alike.last⟩
          · rw [idle] at reaches
            cases reaches
        · exact .inl halted

end Cx

/-! ## The rule -/

/-- A connection and its current run of duplicates. -/
structure DupRun where
  conn : Conn
  length : Nat := 0
  /-- of the acknowledgement before -/
  last : Seq
  /-- fast retransmissions in this run -/
  fired : Nat := 0

namespace DupRun

/-- The window announced is the one announced before, and it is `snd_una` that is acknowledged,
with data outstanding. -/
def keepsWindow (r : DupRun) (seg : Segment) : Bool :=
  r.conn.st.advertisedBy seg == r.conn.st.peerWnd &&
    r.conn.st.adjustAck seg.ackSeq == r.conn.st.sndUna &&
    tcpSeqLt r.conn.st.sndUna r.conn.st.sndNxt

/-- A duplicate by the comment of `process_tcp_ack`. -/
def isDup (r : DupRun) (seg : Segment) : Bool :=
  r.conn.st.repeatsAck seg r.last && r.keepsWindow seg

/-- The run after an acknowledgement. -/
def ackStep (r : DupRun) (seg : Segment) : DupRun :=
  { r with
    length := if r.isDup seg then r.length + 1 else 0
    last := r.conn.st.adjustAck seg.ackSeq
    fired :=
      if r.isDup seg then r.fired + if r.conn.st.fastRetransmits seg then 1 else 0
      else 0 }

def counts (r : DupRun) (e : ConnEvent) : DupRun :=
  match e.call with
  | .packet seg => if r.conn.st.reachesAck seg then r.ackStep seg else r
  | _ => r

def dupStep (r : DupRun) (e : ConnEvent) : DupRun := { r.counts e with conn := r.conn.step e }

/-- A connection after the handshake, before its first duplicate. -/
structure Start (r : DupRun) : Prop where
  late : r.conn.Late
  none : r.conn.st.dupAcks = 0 ∧ r.length = 0 ∧ r.fired = 0
  last : r.last = r.conn.st.lastAckSeq

/-- The counter is the length of the run, up to its width, and the run has retransmitted at most
once. -/
def DupLaw (r : DupRun) : Prop :=
  r.conn.ended = true ∨ (r.conn.st.dupAcks = min r.length 255 ∧ r.fired ≤ 1)

/-- The code and its comment agree on an acknowledgement: it is not of too much data, when it
repeats the last one `snd_wl2` stays exactly if the window is unchanged, and the run still fits the
counter. -/
structure Agrees (r : DupRun) (seg : Segment) : Prop where
  few : r.conn.st.acksTooMuch (r.conn.st.adjustAck seg.ackSeq) = false
  edge : r.conn.st.repeatsAck seg r.last = true →
    (r.conn.st.movesEdge seg && r.conn.st.adjustAck seg.ackSeq != r.conn.st.sndWl2) =
      !r.keepsWindow seg
  fits : r.isDup seg = true → r.length < 255

def DupOk (r : DupRun) (e : ConnEvent) : Prop :=
  ∀ seg, e.call = .packet seg → r.conn.st.reachesAck seg = true → r.Agrees seg

/-- The invariant: the run as the code knows it. -/
structure Counted (r : DupRun) : Prop where
  dups : r.conn.st.dupAcks = r.length
  width : r.length ≤ 255
  last : r.conn.st.lastAckSeq = r.last
  fired : r.fired = if 3 ≤ r.length then 1 else 0

def Kept (r : DupRun) : Prop :=
  (r.conn.ended = true ∨ r.conn.Late) ∧ (r.conn.ended = true ∨ r.Counted)

theorem Counted.law {r : DupRun} (counted : r.Counted) :
    r.conn.st.dupAcks = min r.length 255 ∧ r.fired ≤ 1 := by
  refine ⟨?_, ?_⟩
  · rw [counted.dups, Nat.min_eq_left counted.width]
  · rw [counted.fired]
    split <;> decide

section Step

variable {r : DupRun} {e : ConnEvent} {seg : Segment}

theorem Agrees.testsDup (agrees : r.Agrees seg) (last : r.conn.st.lastAckSeq = r.last) :
    r.conn.st.testsDup seg = r.isDup seg := by
  have edge := agrees.edge
  rw [TcpStream.testsDup, isDup, last]
  cases repeats : r.conn.st.repeatsAck seg r.last with
  | false => rfl
  | true =>
      have edge := edge repeats
      rw [Bool.true_and, Bool.true_and]
      revert edge
      unfold bne
      cases r.conn.st.movesEdge seg <;> cases r.keepsWindow seg <;>
        cases r.conn.st.adjustAck seg.ackSeq == r.conn.st.sndWl2 <;> decide

/-- One acknowledgement that the code and the comment agree on. -/
theorem ack_counted (counted : r.Counted) (agrees : r.Agrees seg) {s : TcpStream}
    (dups : s.dupAcks =
      if r.conn.st.testsDup seg then (r.conn.st.dupAcks + 1) % 256 else 0)
    (last : s.lastAckSeq =
      if r.conn.st.testsDup seg then r.conn.st.lastAckSeq
      else r.conn.st.adjustAck seg.ackSeq) :
    s.dupAcks = (r.ackStep seg).length ∧ (r.ackStep seg).length ≤ 255 ∧
      s.lastAckSeq = (r.ackStep seg).last ∧
      (r.ackStep seg).fired = if 3 ≤ (r.ackStep seg).length then 1 else 0 := by
  have fits := agrees.fits
  have width := counted.width
  have fires : r.conn.st.fastRetransmits seg =
      (r.isDup seg && (r.length + 1) % 256 == 3) := by
    rw [TcpStream.fastRetransmits_eq, agrees.testsDup counted.last, counted.dups]
  rw [agrees.testsDup counted.last] at dups last
  unfold ackStep
  dsimp only
  rw [fires, dups, last, counted.dups, counted.fired]
  cases dup : r.isDup seg with
  | false =>
      simp only [Bool.false_eq_true, if_false]
      exact ⟨trivial, by omega, trivial, by decide⟩
  | true =>
      have room := fits dup
      have small : (r.length + 1) % 256 = r.length + 1 := Nat.mod_eq_of_lt (by omega)
      have repeats : r.conn.st.adjustAck seg.ackSeq = r.last := by
        rw [isDup, TcpStream.repeatsAck, Bool.and_eq_true, Bool.and_eq_true, Bool.and_eq_true,
          beq_iff_eq] at dup
        exact dup.1.1.2
      simp only [if_true, Bool.true_and, small, beq_iff_eq]
      refine ⟨trivial, by omega, ?_, ?_⟩
      · rw [repeats, counted.last]
      · by_cases third : r.length = 2
        · simp [third]
        · have passed : (3 ≤ r.length) ↔ (3 ≤ r.length + 1) := by omega
          have later : ¬ (r.length + 1 = 3) := by omega
          simp only [later, if_false, passed, Nat.add_zero]

/-- A step that is no acknowledgement. -/
theorem kept_idle (counted : r.Counted) (counts : r.counts e = r)
    (same : (r.conn.step e).ended = true ∨
      (r.conn.step e).st.dupAcks = r.conn.st.dupAcks ∧
        (r.conn.step e).st.lastAckSeq = r.conn.st.lastAckSeq) :
    (r.dupStep e).conn.ended = true ∨ (r.dupStep e).Counted := by
  have stepped : r.dupStep e = { r with conn := r.conn.step e } := by
    rw [dupStep, counts]
  rw [stepped]
  rcases same with ended | ⟨dups, last⟩
  · exact .inl ended
  · exact .inr
      { dups := dups.trans counted.dups
        width := counted.width
        last := last.trans counted.last
        fired := counted.fired }

theorem kept_step (kept : r.Kept) (ok : r.DupOk e) : (r.dupStep e).Kept := by
  refine ⟨Conn.late_step kept.1, ?_⟩
  cases running : r.conn.ended with
  | true =>
      refine .inl ?_
      change (r.conn.step e).ended = true
      rw [Conn.step_ended running, running]
  | false =>
      have late : r.conn.Late := kept.1.resolve_left (by rw [running]; decide)
      have counted : r.Counted := kept.2.resolve_left (by rw [running]; decide)
      have steps := Conn.step_running running e
      rcases e.packet_or_other with ⟨seg, call⟩ | other
      · have cx : (r.conn.serve e).cx = (r.conn.entry e).processSegment e.env seg := by
          rw [Conn.serve, call]
        have after := Cx.processSegment_dups e.env seg (r.conn.entry e) late
        rw [← cx] at after
        rcases after with halted | ⟨missed, reached⟩
        · refine .inl ?_
          change (r.conn.step e).ended = true
          rw [steps]
          exact Conn.ended_of_halted halted
        cases reaches : r.conn.st.reachesAck seg with
        | false =>
            refine kept_idle counted ?_ (.inr ?_)
            · rw [DupRun.counts, call]
              dsimp only
              rw [reaches, if_neg Bool.false_ne_true]
            · rw [steps]
              exact missed reaches
        | true =>
            have agrees := ok seg call reaches
            obtain ⟨dups, last⟩ := reached reaches agrees.few
            have next := ack_counted counted agrees dups last
            have stepped : r.dupStep e = { r.ackStep seg with conn := r.conn.step e } := by
              rw [dupStep, DupRun.counts, call]
              dsimp only
              rw [reaches, if_pos rfl]
            rw [stepped, steps]
            exact .inr ⟨next.1, next.2.1, next.2.2.1, next.2.2.2⟩
      · obtain ⟨⟨cwnd, ssthresh, pace⟩, -⟩ := Conn.serve_congests r.conn e other
        refine kept_idle counted ?_ (.inr ?_)
        · unfold DupRun.counts
          cases call : e.call with
          | packet seg => exact absurd call (other seg)
          | send | recv | close | handleClose | serveControl | serveSend | serveAck | rto
            | timewait | timeout => rfl
        · rw [steps]
          exact ⟨congrArg Tuning.dupAcks pace, congrArg Tuning.lastAckSeq pace⟩

end Step

/-- **The duplicate-ACK law.**  As long as the code and the comment agree on every acknowledgement,
`dup_acks` is the length of the current run of duplicates and no run retransmits twice. -/
theorem dup_law {r : DupRun} (start : r.Start) (es : List ConnEvent)
    (allowed : Allowed dupStep DupOk r es) : Along dupStep DupLaw r es := by
  have kept : r.Kept := by
    refine ⟨.inr start.late, .inr ⟨?_, ?_, start.last.symm, ?_⟩⟩
    · rw [start.none.1, start.none.2.1]
    · rw [start.none.2.1]
      decide
    · rw [start.none.2.1, start.none.2.2]
      rfl
  have along := along_of_step (P := Kept) (fun s e => kept_step) es r kept allowed
  refine along.mono (fun s kept => ?_) es r
  rcases kept.2 with ended | counted
  · exact .inl ended
  · exact .inr counted.law

/-- A connection that a peer has opened. -/
def atPeer : DupRun := { conn := Frame.peerOpened, last := Frame.peerOpened.st.lastAckSeq }

theorem atPeer_start : atPeer.Start :=
  { late := .inl (by decide +kernel)
    none := by decide +kernel
    last := rfl }

/-- A hundred bytes are sent. -/
def sendHundred : List ConnEvent :=
  [WindowRun.windowPacket 100 5000, { call := .send 100 false, avail := 10 },
    { call := .serveSend, avail := 10 }]

/-- Three duplicates with the window unchanged. -/
theorem dup_law_three : Along dupStep DupLaw atPeer
    (sendHundred ++ List.replicate 3 (WindowRun.windowPacket 100 5000)) := by
  refine dup_law atPeer_start _ ⟨?_, fun _ call => ConnCall.noConfusion call,
    fun _ call => ConnCall.noConfusion call, ?_, ?_, ?_, trivial⟩
  all_goals
    intro seg call
    cases call
    exact fun _ => ⟨by decide +kernel, by decide +kernel, by decide +kernel⟩

/-- Three acknowledgements that announce three windows are counted, and retransmit. -/
theorem dup_counts_windows : ¬ ∀ (r : DupRun), r.Start → ∀ es : List ConnEvent,
    Along dupStep DupLaw r es := by
  intro always
  have last := (always atPeer atPeer_start (sendHundred ++
    [WindowRun.windowPacket 100 2000, WindowRun.windowPacket 100 1000,
      WindowRun.windowPacket 100 3000])).last
  have broken : ∀ r : DupRun, r.conn.ended = false → r.conn.st.dupAcks = 3 → r.length = 0 →
      ¬ r.DupLaw := by
    intro r running dups none law
    have counts := (law.resolve_left (by rw [running]; decide)).1
    rw [dups, none] at counts
    cases counts
  exact broken _ (by decide +kernel) (by decide +kernel) (by decide +kernel) last

end DupRun

end QStack
