/-
# QStack.WindowUpdate -- whose window peer_wnd is

`process_tcp_ack` takes a window only from a segment that is newer than the last one it took a
window from.  `process_tcp_packet` has written the window of the segment into `peer_wnd` by then,
whatever the order: the rule decides over `snd_wl1` and `snd_wl2` only.

`newest` remembers what the rule would have chosen.  `window_order` says that `peer_wnd` is the
window of the newest segment as long as every accepted segment is newer or announces the same
window, and that the first one which does neither breaks it.
-/
import QStack.Tuning
import QStack.Opening
import QStack.PacketIn

namespace QStack

set_option autoImplicit false

open Lib.Run

/-! ## The window after a segment -/

namespace TcpStream

/-- A segment that is not turned away by the sequence check. -/
def acceptsSegment (s : TcpStream) (seg : Segment) : Bool :=
  !decide (TcpState.synRcvd.val < s.state.val) || s.inSequence seg

theorem advertisedBy_optioned {s s' : TcpStream} {env : Env} {seg : Segment}
    (read : s.optioned env seg = some s') : s'.advertisedBy seg = s.advertisedBy seg := by
  unfold optioned at read
  cases syn : seg.syn with
  | true => rw [advertisedBy, advertisedBy, if_pos syn, if_pos syn]
  | false =>
      rw [syn] at read
      cases read
      rfl

/-- Whatever `process_tcp_ack` decides, the window stays the one `process_tcp_packet` wrote. -/
theorem AckTuned.peerWnd {s : TcpStream} {seg : Segment} {t : Tuning} (tuned : s.AckTuned seg t)
    (written : s.peerWnd = s.advertisedBy seg) : t.peerWnd = s.advertisedBy seg := by
  cases much : s.acksTooMuch (s.adjustAck seg.ackSeq) with
  | true =>
      rw [tuned.tooMuch much]
      exact written
  | false =>
      obtain ⟨cwnd, ssthresh, value⟩ := tuned.counts much
      rw [value]
      change (s.counted seg).peerWnd = _
      unfold counted countDupAck
      have updated : (s.updateWindow seg.seq (s.adjustAck seg.ackSeq)
          (s.advertisedBy seg)).peerWnd = s.advertisedBy seg := by
        unfold updateWindow
        split
        · rfl
        · exact written
      split <;> exact updated

end TcpStream

namespace Cx

/-- The handler of a segment after the handshake. -/
theorem handler_tunes (env : Env) (seg : Segment) (c : Cx)
    (late : c.st.state.isOpen = true ∨ c.st.state.isFin = true ∨ c.st.state = .closed) :
    Tunes (!seg.rst && c.st.handlesAck seg) seg c
      (if seg.rst && decide (TcpState.synSent.val < c.st.state.val) then c.handleRst seg
        else c.handleSegment env seg) := by
  have closed : c.st.state = .closed → ∀ rst, Tunes (!rst && c.st.handlesAck seg) seg c
      (if rst && decide (TcpState.synSent.val < c.st.state.val) then c.handleRst seg
        else c.handleSegment env seg) := by
    intro now rst
    have same : c.handleSegment env seg = c := by
      unfold handleSegment
      rw [now]
    have idle : c.st.handlesAck seg = false := by
      rw [TcpStream.handlesAck, now]
    have early : decide (TcpState.synSent.val < c.st.state.val) = false := by
      rw [now]
      rfl
    rw [early, Bool.and_false, if_neg Bool.false_ne_true, same, idle, Bool.and_false]
    exact .kept (.refl c)
  rcases late with open_ | fin | now
  · cases rst : seg.rst with
    | true =>
        have beyond : decide (TcpState.synSent.val < c.st.state.val) = true := by
          revert open_
          cases c.st.state <;> decide
        rw [beyond]
        exact .kept (handleRst_paces c seg)
    | false => exact handleSegment_tunes env c seg (.inl open_)
  · cases rst : seg.rst with
    | true =>
        have beyond : decide (TcpState.synSent.val < c.st.state.val) = true := by
          revert fin
          cases c.st.state <;> decide
        rw [beyond]
        exact .kept (handleRst_paces c seg)
    | false => exact handleSegment_tunes env c seg (.inr fin)
  · exact closed now seg.rst

/-- **Every accepted segment writes its window.** -/
theorem processSegment_peerWnd (env : Env) (seg : Segment) (c : Cx)
    (late : c.st.state.isOpen = true ∨ c.st.state.isFin = true ∨ c.st.state = .closed) :
    (c.processSegment env seg).view.halted = true ∨
      (c.processSegment env seg).st.peerWnd =
        if c.st.acceptsSegment seg then c.st.advertisedBy seg else c.st.peerWnd := by
  cases processSegment_admission env seg c with
  | halted halted => exact .inl halted
  | dropped s read beyond outside paces =>
      refine .inr ?_
      obtain ⟨o, same⟩ := optioned_same read
      have refused : c.st.acceptsSegment seg = false := by
        rw [TcpStream.acceptsSegment, decide_eq_true beyond, outside]
        rfl
      rw [refused, if_neg Bool.false_ne_true]
      have kept := (TcpStream.tuning_congr paces).2.2.1
      rw [kept, same]
  | admitted s read inside c₁ st view result =>
      refine .inr ?_
      have accepted : c.st.acceptsSegment seg = true := by
        rw [TcpStream.acceptsSegment]
        by_cases beyond : TcpState.synRcvd.val < c.st.state.val
        · rw [inside beyond, Bool.or_true]
        · rw [decide_eq_false beyond]
          rfl
      rw [accepted, if_pos rfl]
      have now : c₁.st.state = c.st.state := congrArg (fun v : View => v.state) view
      have window : c₁.st.advertisedBy seg = c.st.advertisedBy seg := by
        rw [st]
        have kept : (s.admitted seg env.curTs).advertisedBy seg = s.advertisedBy seg := rfl
        rw [kept]
        exact TcpStream.advertisedBy_optioned read
      have written : c₁.st.peerWnd = c₁.st.advertisedBy seg := by
        rw [st]
        rfl
      have tunes := handler_tunes env seg c₁ (by rw [now]; exact late)
      rw [now, ← result] at tunes
      rw [← window]
      rcases tunes with ⟨-, tuned⟩ | ⟨paces, -⟩
      · exact tuned.peerWnd written
      · exact (TcpStream.tuning_congr paces).2.2.1.trans written

end Cx

namespace Conn

variable {s : Conn} {e : ConnEvent}

theorem late_step (late : s.ended = true ∨ s.Late) :
    (s.step e).ended = true ∨ (s.step e).Late := by
  refine step_keeps late fun _ now => ?_
  rcases serve_move s e with halted | move
  · exact .inl (ended_of_halted halted)
  · exact .inr (now.move move).2.2

end Conn

/-! ## The newest segment -/

/-- Sequence number, acknowledgement and scaled window of a segment. -/
structure Announced where
  wl1 : Seq
  wl2 : Seq
  window : U32

/-- The rule of `process_tcp_ack`. -/
def Announced.older (newest a : Announced) : Bool :=
  tcpSeqLt newest.wl1 a.wl1 || (newest.wl1 == a.wl1 && tcpSeqLt newest.wl2 a.wl2) ||
    (newest.wl2 == a.wl2 && decide (newest.window < a.window))

def TcpStream.announced (s : TcpStream) (seg : Segment) : Announced :=
  { wl1 := seg.seq, wl2 := s.adjustAck seg.ackSeq, window := s.advertisedBy seg }

/-- A connection, with the newest of the segments it has accepted. -/
structure WindowRun where
  conn : Conn
  newest : Announced

namespace WindowRun

/-- The newest segment once `seg` has arrived. -/
def newestAfter (r : WindowRun) (seg : Segment) : Announced :=
  if r.conn.st.acceptsSegment seg && r.newest.older (r.conn.st.announced seg) then
    r.conn.st.announced seg
  else r.newest

def windowStep (r : WindowRun) (e : ConnEvent) : WindowRun :=
  { conn := r.conn.step e
    newest :=
      match e.call with
      | .packet seg => r.newestAfter seg
      | _ => r.newest }

/-- A connection after the handshake; its window is that of the newest segment so far. -/
structure Start (r : WindowRun) : Prop where
  late : r.conn.Late
  newest : r.newest = ⟨r.conn.st.sndWl1, r.conn.st.sndWl2, r.conn.st.peerWnd⟩

/-- The window is that of the newest accepted segment. -/
def NewestWindow (r : WindowRun) : Prop :=
  r.conn.ended = true ∨ r.conn.st.peerWnd = r.newest.window

/-- Every accepted segment is newer, or announces the window of the newest one. -/
def InOrderWindow (r : WindowRun) (seg : Segment) : Prop :=
  r.conn.st.acceptsSegment seg = true →
    r.newest.older (r.conn.st.announced seg) = true ∨
      r.conn.st.advertisedBy seg = r.newest.window

def WindowOk (r : WindowRun) (e : ConnEvent) : Prop :=
  ∀ seg, e.call = .packet seg → r.InOrderWindow seg

section Step

variable {r : WindowRun} {e : ConnEvent}

/-- The window of the connection and the newest window, once a segment is processed. -/
theorem packet_windows {seg : Segment} (late : r.conn.Late) (running : r.conn.ended = false)
    (call : e.call = .packet seg) (survives : (r.conn.step e).ended = false) :
    (r.windowStep e).conn.st.peerWnd =
        (if r.conn.st.acceptsSegment seg then r.conn.st.advertisedBy seg
          else r.conn.st.peerWnd) ∧
      (r.windowStep e).newest = r.newestAfter seg := by
  have steps := Conn.step_running running e
  have cx : (r.conn.serve e).cx = (r.conn.entry e).processSegment e.env seg := by
    rw [Conn.serve, call]
  constructor
  · change (r.conn.step e).st.peerWnd = _
    rw [steps] at survives ⊢
    change (r.conn.serve e).cx.st.peerWnd = _
    rw [cx]
    rcases Cx.processSegment_peerWnd e.env seg (r.conn.entry e) late with halted | written
    · have over_ : (r.conn.serve e).ended = true := by
        refine Conn.ended_of_halted ?_
        change (r.conn.serve e).cx.view.halted = true
        rw [cx, halted]
      rw [over_] at survives
      cases survives
    · exact written
  · rw [windowStep, call]

/-- **One segment leaves the window right exactly when it came in order.** -/
theorem packet_newest {seg : Segment} (late : r.conn.Late) (running : r.conn.ended = false)
    (right : r.conn.st.peerWnd = r.newest.window) (call : e.call = .packet seg)
    (survives : (r.conn.step e).ended = false) :
    (r.windowStep e).conn.st.peerWnd = (r.windowStep e).newest.window ↔ r.InOrderWindow seg := by
  obtain ⟨written, newest⟩ := packet_windows late running call survives
  rw [written, newest, newestAfter, InOrderWindow]
  cases accepted : r.conn.st.acceptsSegment seg with
  | false =>
      rw [if_neg Bool.false_ne_true, Bool.false_and, if_neg Bool.false_ne_true]
      exact ⟨fun _ bad => absurd bad Bool.false_ne_true, fun _ => right⟩
  | true =>
      rw [if_pos rfl, Bool.true_and]
      cases newer : r.newest.older (r.conn.st.announced seg) with
      | true =>
          rw [if_pos rfl]
          exact ⟨fun _ _ => .inl rfl, fun _ => rfl⟩
      | false =>
          rw [if_neg Bool.false_ne_true]
          exact ⟨fun same _ => .inr same,
            fun ordered => (ordered rfl).resolve_left Bool.false_ne_true⟩

/-- What is not a segment leaves both windows alone. -/
theorem other_windows (running : r.conn.ended = false) (other : ∀ seg, e.call ≠ .packet seg) :
    (r.windowStep e).conn.st.peerWnd = r.conn.st.peerWnd ∧
      (r.windowStep e).newest = r.newest := by
  have steps := Conn.step_running running e
  constructor
  · obtain ⟨⟨cwnd, ssthresh, pace⟩, -⟩ := Conn.serve_congests r.conn e other
    change (r.conn.step e).st.peerWnd = _
    rw [steps]
    exact congrArg Tuning.peerWnd pace
  · unfold windowStep
    cases call : e.call with
    | packet seg => exact absurd call (other seg)
    | send | recv | close | handleClose | serveControl | serveSend | serveAck | rto | timewait
      | timeout => rfl

/-- The invariant of the run. -/
def Kept (r : WindowRun) : Prop := (r.conn.ended = true ∨ r.conn.Late) ∧ r.NewestWindow

theorem Start.kept (start : r.Start) : r.Kept :=
  ⟨.inr start.late, .inr (by rw [start.newest])⟩

theorem kept_step (kept : r.Kept) (ok : r.WindowOk e) : (r.windowStep e).Kept := by
  refine ⟨Conn.late_step kept.1, ?_⟩
  cases running : r.conn.ended with
  | true =>
      refine .inl ?_
      change (r.conn.step e).ended = true
      rw [Conn.step_ended running, running]
  | false =>
      have late : r.conn.Late := kept.1.resolve_left (by rw [running]; decide)
      have right : r.conn.st.peerWnd = r.newest.window :=
        kept.2.resolve_left (by rw [running]; decide)
      rcases e.packet_or_other with ⟨seg, call⟩ | other
      · cases survives : (r.conn.step e).ended with
        | true => exact .inl survives
        | false => exact .inr ((packet_newest late running right call survives).mpr (ok seg call))
      · obtain ⟨window, newest⟩ := other_windows running other
        exact .inr (by rw [window, newest, right])

theorem late_run : ∀ {r : WindowRun}, (r.conn.ended = true ∨ r.conn.Late) →
    ∀ es : List ConnEvent, (run windowStep r es).conn.ended = true ∨
      (run windowStep r es).conn.Late := by
  intro r late es
  induction es generalizing r with
  | nil => exact late
  | cons e es ih => exact ih (r := r.windowStep e) (Conn.late_step late)

end Step

/-- **The window is that of the newest segment as long as the segments come in order.**  In every
run in which each accepted segment is newer than those before it, or announces their window,
`peer_wnd` is the newest window in every state; and from any such state one segment keeps it so
only if it meets the condition. -/
theorem window_order {r : WindowRun} (start : r.Start) (es : List ConnEvent) :
    (Allowed windowStep WindowOk r es → Along windowStep NewestWindow r es) ∧
      ∀ (e : ConnEvent) (seg : Segment), e.call = .packet seg →
        (run windowStep r es).conn.ended = false → (run windowStep r es).NewestWindow →
        ((run windowStep r es).conn.step e).ended = false →
        (((run windowStep r es).windowStep e).NewestWindow ↔
          (run windowStep r es).InOrderWindow seg) := by
  constructor
  · intro allowed
    have along := along_of_step (P := Kept) (fun s e => kept_step) es r start.kept allowed
    exact along.mono (fun s kept => kept.2) es r
  · intro e seg call running right survives
    have late : (run windowStep r es).conn.Late :=
      (late_run (.inr start.late) es).resolve_left (by rw [running]; decide)
    have exactly := packet_newest late running
      (right.resolve_left (by rw [running]; decide)) call survives
    rw [← exactly]
    constructor
    · intro after
      refine after.resolve_left ?_
      change ((run windowStep r es).conn.step e).ended ≠ true
      rw [survives]
      decide
    · exact .inr

/-- An empty acknowledgement. -/
def windowPacket (seq : Seq) (window : Nat) : ConnEvent :=
  { call := .packet { seq := seq, ackSeq := 501, ack := true, window := window } }

/-- A connection that a peer has opened. -/
def atPeer : WindowRun :=
  { conn := Frame.peerOpened
    newest := ⟨Frame.peerOpened.st.sndWl1, Frame.peerOpened.st.sndWl2,
      Frame.peerOpened.st.peerWnd⟩ }

theorem atPeer_start : atPeer.Start :=
  { late := .inl (by decide +kernel)
    newest := rfl }

theorem window_order_two :
    Along windowStep NewestWindow atPeer [windowPacket 150 1000, windowPacket 200 2000] := by
  refine (window_order atPeer_start _).1 ⟨?_, ?_, trivial⟩
  · intro seg call
    cases call
    exact fun _ => .inl (by decide +kernel)
  · intro seg call
    cases call
    exact fun _ => .inl (by decide +kernel)

/-- Two acknowledgements in the other order: the older one sets the window back. -/
theorem window_set_back : ¬ ∀ (r : WindowRun), r.Start → ∀ es : List ConnEvent,
    Along windowStep NewestWindow r es := by
  intro always
  have along := always atPeer atPeer_start [windowPacket 200 2000, windowPacket 150 1000]
  have last := along.last
  have running : (run windowStep atPeer [windowPacket 200 2000, windowPacket 150 1000]).conn.ended
      = false := by decide +kernel
  have kept := last.resolve_left (by rw [running]; decide)
  exact absurd kept (by decide +kernel)

end WindowRun

end QStack
