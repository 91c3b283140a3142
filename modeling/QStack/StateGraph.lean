/-
# QStack.StateGraph -- the states a connection goes through

`Edge` lists the edges of the state machine with what takes them: which call, and what of the
segment and the stream.  Every step of a connection keeps its state or takes one of them
(`tcp_state_path`), so the state only ever rises in `TcpState.rank`, no run changes it more than six
times, and CLOSED is never left.

Some of the edges are not those of the usual diagram.  A segment with RST that answers our SYN leads
from SYN_SENT to CLOSE_WAIT, and a close request in one of the handshake states leads nowhere.
-/
import QStack.Connection

namespace QStack

set_option autoImplicit false

namespace TcpState

/-- How far a connection has come -/
def rank : TcpState → Nat
  | .listen | .synSent => 0
  | .synRcvd => 1
  | .established => 2
  | .closeWait | .finWait1 => 3
  | .finWait2 | .closing | .lastAck => 4
  | .timeWait => 5
  | .closed => 6

end TcpState

/-- The calls that may end a connection in CLOSED -/
def ConnCall.mayEnd : ConnCall → Bool
  | .packet _ | .handleClose | .rto | .timewait | .timeout => true
  | .send _ _ | .recv | .close | .serveControl | .serveSend | .serveAck => false

/-- The edges from the state of a stream -/
inductive Edge (s : TcpStream) : ConnCall → TcpState → Prop
  | listened {seg : Segment} (from_ : s.state = .listen) (syn : seg.syn = true) :
      Edge s (.packet seg) .synRcvd
  | simultaneous {seg : Segment} (from_ : s.state = .synSent) (syn : seg.syn = true)
      (noAck : seg.ack = false) : Edge s (.packet seg) .synRcvd
  | answered {seg : Segment} (from_ : s.state = .synSent) (syn : seg.syn = true)
      (accepts : s.acceptsSynAck seg = true) : Edge s (.packet seg) .established
  | rstAnswered {seg : Segment} (from_ : s.state = .synSent) (rst : seg.rst = true)
      (accepts : s.acceptsSynAck seg = true) : Edge s (.packet seg) .closeWait
  | opened {seg : Segment} {state : TcpState} (from_ : s.state = .synRcvd) (ack : seg.ack = true)
      (exact_ : seg.ackSeq = s.iss + 1) (open_ : state.isOpen = true) : Edge s (.packet seg) state
  | peerCloses {seg : Segment} (from_ : s.state = .established) : Edge s (.packet seg) .closeWait
  | bothClose {seg : Segment} (from_ : s.state = .finWait1) : Edge s (.packet seg) .closing
  | finAcked {seg : Segment} {state : TcpState} (from_ : s.state = .finWait1)
      (sent : s.isFinSent = true) (finAcked : seg.ackSeq = s.fss + 1)
      (next : state = .finWait2 ∨ state = .timeWait) : Edge s (.packet seg) state
  | peerFollows {seg : Segment} (from_ : s.state = .finWait2) : Edge s (.packet seg) .timeWait
  | closingAcked {seg : Segment} (from_ : s.state = .closing) (sent : s.isFinSent = true)
      (finAcked : seg.ackSeq = s.fss + 1) : Edge s (.packet seg) .timeWait
  | closes (from_ : s.state = .established) : Edge s .handleClose .finWait1
  | closesLast (from_ : s.state = .closeWait) : Edge s .handleClose .lastAck
  | ends {call : ConnCall} (open_ : s.state ≠ .closed) (may : call.mayEnd = true) :
      Edge s call .closed

namespace Conn

variable {s : Conn} {call : ConnCall} {v : View}

/-- The state is kept, or an edge is taken. -/
abbrev Goes (s : Conn) (call : ConnCall) (state : TcpState) : Prop :=
  state = s.st.state ∨ Edge s.st call state

theorem goes_closed (may : call.mayEnd = true) : s.Goes call .closed := by
  by_cases closed : s.st.state = .closed
  · exact .inl closed.symm
  · exact .inr (.ends closed may)

/-- Where a segment that does not acknowledge our FIN may lead -/
theorem goes_follows {seg : Segment} {state : TcpState}
    (legal : s.st.state.follows state = true) : s.Goes (.packet seg) state := by
  cases from_ : s.st.state <;> cases state <;> rw [from_] at legal <;>
    first
    | exact .inl from_.symm
    | exact goes_closed rfl
    | exact .inr (.peerCloses from_)
    | exact .inr (.bothClose from_)
    | exact .inr (.peerFollows from_)
    | cases legal

theorem SynMove.goes {seg : Segment} (move : SynMove s.st seg s.view v) :
    s.Goes (.packet seg) v.state := by
  cases move with
  | same | bareAcked | noAck => exact .inl rfl
  | listened syn from_ =>
      rcases from_ with listen | synRcvd
      · exact .inr (.listened listen syn)
      · exact .inl synRcvd.symm
  | refused => exact goes_closed rfl
  | rstAcked _ from_ accepts rst => exact .inr (.rstAnswered from_ rst accepts)
  | synAcked st from_ accepts _ syn => exact .inr (.answered from_ syn accepts)
  | simultaneous from_ syn noAck => exact .inr (.simultaneous from_ syn noAck)
  | acked st k r from_ ack exact_ _ _ after =>
      obtain ⟨state, group, same⟩ := after
      have now : k.state = state := by
        rcases same with rfl | ⟨fast, rfl⟩ <;> rfl
      show s.Goes (.packet seg) k.state
      rw [now]
      rcases group with open_ | rfl
      · exact .inr (.opened from_ ack exact_ open_)
      · exact goes_closed rfl

theorem DataMove.goes {seg : Segment} {k : Core} {d : Bool} (move : DataMove s.st seg k d) :
    s.Goes (.packet seg) k.state := by
  cases move with
  | same => exact .inl rfl
  | moved state legal => exact goes_follows legal
  | reset => exact goes_closed rfl
  | acked state _ legal => exact goes_follows legal
  | finWait1 state _ from_ sent finAcked legal =>
      cases state <;>
        first
        | exact .inr (.finAcked from_ sent finAcked (.inl rfl))
        | exact .inr (.finAcked from_ sent finAcked (.inr rfl))
        | exact goes_closed rfl
        | cases legal
  | closing _ from_ sent finAcked => exact .inr (.closingAcked from_ sent finAcked)
  | lastAck => exact goes_closed rfl

theorem goes_afterClose : s.Goes .handleClose s.st.state.afterClose := by
  cases from_ : s.st.state with
  | established => exact .inr (.closes from_)
  | closeWait => exact .inr (.closesLast from_)
  | closed | listen | synSent | synRcvd | finWait1 | finWait2 | closing | lastAck | timeWait =>
      exact .inl from_.symm

theorem Move.goes (move : Move s call v) : s.Goes call v.state := by
  cases move with
  | same | put | received => exact .inl rfl
  | syn _ move => exact SynMove.goes move
  | data _ move => exact DataMove.goes move
  | closed _ move =>
      cases move with
      | same => exact .inl rfl
      | reset => exact goes_closed rfl
      | closing => exact goes_afterClose
  | control _ move => cases move <;> exact .inl rfl
  | flushed _ _ _ _ flushed =>
      rw [flushed.frame]
      exact .inl rfl
  | rto _ move =>
      cases move with
      | lost => exact goes_closed rfl
      | retransmit | control => exact .inl rfl
  | expired timer => rcases timer with rfl | rfl <;> exact goes_closed rfl

/-- An edge leads up. -/
theorem Edge.rises {st : TcpStream} {state : TcpState} (edge : Edge st call state) :
    st.state.rank < state.rank := by
  cases edge with
  | listened from_ | simultaneous from_ | answered from_ | rstAnswered from_ | peerCloses from_
  | bothClose from_ | peerFollows from_ | closingAcked from_ | closes from_ | closesLast from_ =>
      rw [from_]
      decide
  | opened from_ _ _ open_ =>
      rw [from_]
      cases state <;> first | decide | cases open_
  | finAcked from_ _ _ next =>
      rw [from_]
      rcases next with rfl | rfl <;> decide
  | ends open_ =>
      cases from_ : st.state <;> first | decide | exact absurd from_ open_

/-! ## Runs -/

/-- What a step does to the state, unless it ends the process -/
def Takes (s : Conn) (e : ConnEvent) (s' : Conn) : Prop :=
  s'.view.halted = true ∨ s'.st.state = s.st.state ∨ Edge s.st e.call s'.st.state

theorem step_takes (s : Conn) (e : ConnEvent) : s.Takes e (s.step e) := by
  cases running : s.ended with
  | true =>
      rw [step_ended running]
      exact .inr (.inl rfl)
  | false =>
      rw [step_running running]
      exact (serve_move s e).imp_right Move.goes

/-- How often a run changes the state -/
def changes : Conn → List ConnEvent → Nat
  | _, [] => 0
  | s, e :: es =>
      (if (s.step e).st.state = s.st.state then 0 else 1) + changes (s.step e) es

theorem run_rises : ∀ (es : List ConnEvent) (s : Conn),
    (Lib.Run.run step s es).view.halted = true ∨
      s.changes es + s.st.state.rank ≤ (Lib.Run.run step s es).st.state.rank
  | [], s => by
      rw [changes, Lib.Run.run, Nat.zero_add]
      exact .inr (le_refl _)
  | e :: es, s => by
      rw [changes, Lib.Run.run]
      rcases step_takes s e with halted | takes
      · rw [run_ended (ended_of_halted halted)]
        exact .inl halted
      · refine (run_rises es (s.step e)).imp_right fun rest => ?_
        rcases takes with same | edge
        · rw [if_pos same, Nat.zero_add, ← same]
          exact rest
        · have rises := Edge.rises edge
          split
          · next same =>
              rw [same] at rises
              omega
          · omega

theorem rank_le (state : TcpState) : state.rank ≤ 6 := by
  cases state <;> decide

theorem closed_of_rank {state : TcpState} (top : 6 ≤ state.rank) : state = .closed := by
  revert top
  cases state <;> decide

end Conn

end QStack
