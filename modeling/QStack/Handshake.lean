/-
# QStack.Handshake -- segments before ESTABLISHED

The other half of the inversion of `processSegment`: what a segment does in LISTEN,
SYN_SENT and SYN_RCVD (`SynMove`), and the opening of a passive connection.  The
stream at the moment it becomes ESTABLISHED is in the log `opened`.
-/
import QStack.SegmentData

namespace QStack

set_option autoImplicit false

namespace TcpState

def isSyn : TcpState → Bool
  | .listen | .synSent | .synRcvd => true
  | _ => false

end TcpState

/-- The receiving side set up from the peer's SYN. -/
def RcvCore.synced (r : RcvCore) (seq : Seq) : RcvCore :=
  { r with irs := seq, rcvNxt := seq + 1, rcvbuf := r.rcvbuf.rbUpdateSeq (seq + 1) }

namespace View

/-- The sending and the receiving side of a stream that becomes ESTABLISHED. -/
def opening (v : View) (una nxt : Seq) (rcv : RcvCore) (st : TcpStream) : View :=
  { v with
    sndUna := una
    sndNxt := nxt
    state := .established
    rcv := rcv
    opened := st :: v.opened }

end View

/-- What a segment can do to a stream in one of the handshake states. -/
inductive SynMove (s : TcpStream) (seg : Segment) (v : View) : View → Prop
  | same : SynMove s seg v v
  | listened (syn : seg.syn = true) (from_ : s.state = .listen ∨ s.state = .synRcvd) :
      SynMove s seg v ((v.withCore { s.core with state := .synRcvd }).withRcv { s.rcvCore with
        rcvNxt := if s.state = .listen then s.rcvNxt + 1 else s.rcvNxt })
  | refused (from_ : s.state = .synRcvd) :
      SynMove s seg v ((v.withCore { s.core with state := .closed }).withDestroyed true)
  | rstAcked (d : Bool) (from_ : s.state = .synSent) (accepts : s.acceptsSynAck seg = true)
      (rst : seg.rst = true) :
      SynMove s seg v ((v.withCore { s.core with
        sndUna := s.sndUna + 1, state := .closeWait }).withDestroyed d)
  | bareAcked (from_ : s.state = .synSent) (accepts : s.acceptsSynAck seg = true)
      (kept : seg.rst = false) (bare : seg.syn = false) :
      SynMove s seg v (v.withCore { s.core with sndUna := s.sndUna + 1 })
  | synAcked (st : TcpStream) (from_ : s.state = .synSent) (accepts : s.acceptsSynAck seg = true)
      (kept : seg.rst = false) (syn : seg.syn = true)
      (core : st.core = { s.core with
        sndUna := s.sndUna + 1, sndNxt := seg.ackSeq, state := .established })
      (rcv : st.rcvCore = .synced s.rcvCore seg.seq) :
      SynMove s seg v (v.opening st.sndUna st.sndNxt st.rcvCore st)
  | simultaneous (from_ : s.state = .synSent) (syn : seg.syn = true) (ack : seg.ack = false)
      (kept : seg.rst = false) :
      SynMove s seg v (v.withCore { s.core with state := .synRcvd, sndNxt := s.iss })
  | noAck (from_ : s.state = .synRcvd) (ack : seg.ack = false) :
      SynMove s seg v (v.withCore { s.core with sndNxt := s.iss })
  | acked (st : TcpStream) (k : Core) (r : RcvCore) (from_ : s.state = .synRcvd)
      (ack : seg.ack = true) (exact_ : seg.ackSeq = s.iss + 1)
      (core : st.core = { s.core with
        sndUna := s.sndUna + 1, sndNxt := seg.ackSeq, state := .established })
      (rcv : st.rcvCore = { s.rcvCore with rcvNxt := s.irs + 1 })
      (after : ∃ state : TcpState, (state.isOpen = true ∨ state = .closed) ∧
        (k = { st.core with state := state } ∨
          ∃ fast, k = { st.core.onAck fast seg.ackSeq with state := state })) :
      SynMove s seg v (((v.opening st.sndUna st.sndNxt st.rcvCore st).withCore k).withRcv r)

namespace Cx

section Handlers

variable {s : TcpStream} {seg : Segment} {env : Env} {c : Cx}

theorem handleListen_move (ready : Ready s seg c) (from_ : s.state = .listen ∨ s.state = .synRcvd) :
    SynMove s seg c.view (c.handleListen env seg).view := by
  unfold handleListen
  split
  · rename_i syn
    have move := SynMove.listened (v := c.view) syn from_
    rw [view_controlQueueAdd]
    rw [← ready.core, ← ready.rcv,
      ← show c.st.state = s.state from congrArg Core.state ready.core,
      ← show c.st.rcvNxt = s.rcvNxt from congrArg RcvCore.rcvNxt ready.rcv] at move
    exact move
  · exact .same

theorem handleActiveOpen_view (seg : Segment) (c : Cx) :
    (c.handleActiveOpen env seg).view.halted = true ∨
      ∃ st : TcpStream, st.core = { c.st.core with
          sndNxt := seg.ackSeq, state := .established } ∧
        st.rcvCore = .synced c.st.rcvCore seg.seq ∧
        (c.handleActiveOpen env seg).view = c.view.opening c.st.sndUna seg.ackSeq st.rcvCore st ∧
        (c.handleActiveOpen env seg).st = st := by
  unfold handleActiveOpen
  dsimp only
  generalize entered : c.modify _ = c₁
  have view₁ : c₁.view = (c.view.withCore { c.st.core with sndNxt := seg.ackSeq }).withRcv
      (.synced c.st.rcvCore seg.seq) := by
    rw [← entered]
    rfl
  rcases parseOptions_cases env seg c₁ with hangs | ⟨o, parsed⟩
  · rw [hangs]
    rcases andThen_cases (c₁.emit (.halt .hang)) _ with ⟨halted, next⟩ | ⟨running, -⟩
    · rw [next]
      exact .inl halted
    · cases running
  · rw [parsed]
    rcases andThen_cases (c₁.modify _) _ with ⟨halted, next⟩ | ⟨-, next⟩
    · rw [next]
      exact .inl halted
    · rw [next]
      refine .inr ?_
      generalize ready : rtoListRemove (modify _ _) = c₂
      have view₂ : c₂.view = c₁.view := by
        rw [← ready, view_rtoListRemove, view_modify _ (by exact ⟨rfl, rfl⟩),
          view_modify _ (by exact ⟨rfl, rfl⟩)]
      have core₂ : c₂.st.core = { c.st.core with sndNxt := seg.ackSeq } :=
        (congrArg View.toCore view₂).trans (congrArg View.toCore view₁)
      have rcv₂ : c₂.st.rcvCore = .synced c.st.rcvCore seg.seq :=
        (congrArg View.rcv view₂).trans (congrArg View.rcv view₁)
      refine ⟨{ c₂.st with state := .established }, ?_, rcv₂, ?_, rfl⟩
      · change { c₂.st.core with state := .established } = _
        rw [core₂]
      · change { (c₂.view.withCore { c₂.st.core with state := .established }) with
          opened := { c₂.st with state := .established } :: c₂.view.opened } = _
        rw [core₂, view₂, view₁]
        change _ = c.view.opening c.st.sndUna seg.ackSeq c₂.st.rcvCore
          { c₂.st with state := .established }
        rw [rcv₂]
        rfl

theorem handleSynSent_move (ready : Ready s seg c) (from_ : s.state = .synSent) :
    (c.handleSynSent env seg).view.halted = true ∨
      SynMove s seg c.view (c.handleSynSent env seg).view := by
  have core := ready.core
  have iss : c.st.iss = s.iss := congrArg Core.iss core
  have nxt : c.st.sndNxt = s.sndNxt := congrArg Core.sndNxt core
  have una : c.st.sndUna = s.sndUna := congrArg Core.sndUna core
  unfold handleSynSent
  split
  · split
    · exact .inr .same
    · exact .inl rfl
  rename_i passed
  dsimp only
  cases ack : seg.ack with
  | false =>
      simp only [Bool.false_eq_true, if_false]
      split
      · exact .inr .same
      split
      · rename_i kept syn
        rw [Bool.not_eq_true] at kept
        refine .inr ?_
        have move := SynMove.simultaneous (v := c.view) from_ syn ack kept
        rw [← core, ← iss] at move
        rw [view_controlQueueAdd]
        exact move
      · exact .inr .same
  | true =>
      have accepts : s.acceptsSynAck seg = true := by
        rw [ack, Bool.true_and, iss, nxt] at passed
        simp only [Bool.or_eq_true, not_or, Bool.not_eq_true] at passed
        simp [TcpStream.acceptsSynAck, ack, passed]
      simp only [if_true]
      generalize counted : c.modify _ = c₁
      have view₁ : c₁.view = c.view.withCore { s.core with sndUna := s.sndUna + 1 } := by
        rw [← counted, ← core, ← una]
        rfl
      split
      · rename_i rst
        refine .inr ?_
        have closed : ∀ d, SynMove s seg c.view ((c.view.withCore { s.core with
            sndUna := s.sndUna + 1, state := .closeWait }).withDestroyed d) :=
          fun d => .rstAcked d from_ accepts rst
        have reset : (c₁.modify fun s =>
            { s with state := .closeWait, closeReason := .reset }).view =
              c.view.withCore { s.core with sndUna := s.sndUna + 1, state := .closeWait } := by
          change c₁.view.withCore { c₁.view.toCore with state := .closeWait } = _
          rw [view₁]
          rfl
        split
        · rw [view_raiseEvent, reset]
          exact closed c.view.destroyed
        · rw [view_tcpStreamDestroy, reset]
          exact closed true
      rename_i kept
      rw [Bool.not_eq_true] at kept
      split
      · rename_i syn
        have core₁ : c₁.st.core = { s.core with sndUna := s.sndUna + 1 } :=
          congrArg View.toCore view₁
        rcases andThen_cases (c₁.handleActiveOpen env seg) _ with ⟨halted, next⟩ | ⟨running, next⟩
        · rw [next]
          exact .inl halted
        rw [next]
        rcases handleActiveOpen_view seg c₁ with halted | ⟨st, coreSt, rcvSt, view₂, -⟩
        · rw [halted] at running
          cases running
        split
        · refine .inr ?_
          rw [view_timeoutListAdd, view_controlQueueAdd, view_raiseEvent, view₂, view₁]
          have rcv : st.rcvCore = .synced s.rcvCore seg.seq := by
            rw [rcvSt, ← ready.rcv, ← counted]
            rfl
          have coreSt' : st.core = { s.core with
              sndUna := s.sndUna + 1, sndNxt := seg.ackSeq, state := .established } := by
            rw [coreSt, core₁]
          have move := SynMove.synAcked (v := c.view) st from_ accepts kept syn coreSt' rcv
          have una₁ : c₁.st.sndUna = st.sndUna := by
            rw [show st.sndUna = _ from congrArg Core.sndUna coreSt]
            rfl
          rw [una₁, ← show st.sndNxt = seg.ackSeq from congrArg Core.sndNxt coreSt]
          have same : (c.view.withCore { s.core with sndUna := s.sndUna + 1 }).opening
              st.sndUna st.sndNxt st.rcvCore st =
                c.view.opening st.sndUna st.sndNxt st.rcvCore st := by
            rw [← core]
            rfl
          rw [same]
          exact move
        · exact .inl rfl
      · rename_i bare
        rw [Bool.not_eq_true] at bare
        refine .inr ?_
        rw [view₁]
        exact .bareAcked from_ accepts kept bare

/-- A segment that leaves the stream in SYN_SENT does not enqueue it. -/
theorem handleSynSent_queue (env : Env) (seg : Segment) (c : Cx)
    (stays : (c.handleSynSent env seg).view.state = .synSent) :
    (c.handleSynSent env seg).queues = c.queues ∨
      (c.handleSynSent env seg).view.halted = true := by
  unfold handleSynSent at stays ⊢
  split at stays
  · rename_i refused
    rw [if_pos refused]
    split
    · exact .inl rfl
    · exact .inr rfl
  rename_i passed
  rw [if_neg passed]
  dsimp only at stays ⊢
  generalize counted : (if seg.ack = true then c.modify _ else c) = c₁ at stays ⊢
  have queue₁ : c₁.queues = c.queues := by
    rw [← counted]
    split <;> rfl
  split at stays
  · rename_i rst
    rw [if_pos rst]
    split at stays
    · split at stays
      · rw [view_raiseEvent] at stays
        cases stays
      · cases stays
    · rename_i noAck
      rw [if_neg noAck]
      exact .inl queue₁
  rename_i kept
  rw [if_neg kept]
  split at stays
  · rename_i syn
    rw [if_pos syn]
    split at stays
    · rename_i ack
      rw [if_pos ack]
      rcases andThen_cases (c₁.handleActiveOpen env seg) _ with ⟨halted, next⟩ | ⟨running, next⟩
      · rw [next]
        exact .inr halted
      rw [next] at stays ⊢
      rcases handleActiveOpen_view seg c₁ with halted | ⟨st, -, -, view₂, -⟩
      · rw [halted] at running
        cases running
      split at stays
      · rw [view_timeoutListAdd, view_controlQueueAdd, view_raiseEvent, view₂] at stays
        cases stays
      · rename_i alone
        rw [if_neg alone]
        exact .inr rfl
    · rw [view_controlQueueAdd] at stays
      cases stays
  · rename_i bare
    rw [if_neg bare]
    exact .inl queue₁

theorem raiseAcceptEvent_view (env : Env) (c : Cx) :
    (c.raiseAcceptEvent env).view.halted = true ∨ (c.raiseAcceptEvent env).view = c.view ∨
      (c.raiseAcceptEvent env).view = c.view.withCore { c.st.core with state := .closed } := by
  unfold raiseAcceptEvent
  split
  · exact .inl rfl
  · refine .inr ?_
    dsimp only
    cases env.acceptRoom with
    | true =>
        refine .inl ?_
        simp only [if_true]
        split <;> rfl
    | false =>
        refine .inr ?_
        simp only [Bool.false_eq_true, if_false]
        split <;> rfl

/-- The acknowledgement of the SYN, the accept event, and the data the segment carries. -/
theorem handleSynRcvd_move (ready : Ready s seg c) (from_ : s.state = .synRcvd) :
    let c' := (c.handleSynRcvd env seg).andThen fun c =>
      if 0 < seg.payloadLen ∧ c.st.state = .established then c.handleEstablished env seg else c
    c'.view.halted = true ∨ SynMove s seg c.view c'.view := by
  have core := ready.core
  have iss : c.st.iss = s.iss := congrArg Core.iss core
  have irs : c.st.irs = s.irs := congrArg RcvCore.irs ready.rcv
  have una : c.st.sndUna = s.sndUna := congrArg Core.sndUna core
  dsimp only
  rcases andThen_cases (c.handleSynRcvd env seg) _ with ⟨halted, next⟩ | ⟨running, next⟩
  · rw [next]
    exact .inl halted
  rw [next]
  have quiet : ∀ c₁ : Cx, c₁.st.state = .synRcvd →
      (if 0 < seg.payloadLen ∧ c₁.st.state = .established then c₁.handleEstablished env seg
        else c₁) = c₁ := by
    intro c₁ now
    rw [if_neg]
    rintro ⟨-, established⟩
    rw [now] at established
    cases established
  have now : c.st.state = .synRcvd := (congrArg Core.state core).trans from_
  unfold handleSynRcvd at running ⊢
  cases ack : seg.ack with
  | false =>
      simp only [Bool.false_eq_true, if_false]
      have view₁ : (controlQueueAdd env (c.modify fun s => { s with sndNxt := s.iss })).view =
          c.view.withCore { s.core with sndNxt := s.iss } := by
        rw [view_controlQueueAdd, ← core, ← iss]
        rfl
      rw [quiet _ ((congrArg (fun v : View => v.state) view₁).trans from_), view₁]
      exact .inr (.noAck from_ ack)
  | true =>
      rw [ack] at running
      simp only [if_true] at running ⊢
      split
      · rw [quiet c now]
        exact .inr .same
      · rename_i exact_
        rw [if_neg exact_] at running
        rw [not_not, iss] at exact_
        generalize entered : rtoListRemove (modify c _) = c₁ at running ⊢
        have view₁ : c₁.view = (c.view.withCore { s.core with
            sndUna := s.sndUna + 1, sndNxt := seg.ackSeq }).withRcv
              { s.rcvCore with rcvNxt := s.irs + 1 } := by
          rw [← entered, view_rtoListRemove, ← core, ← ready.rcv, ← una, ← irs]
          rfl
        generalize stamped : c₁.modify _ = c₂ at running ⊢
        have view₂ : c₂.view = (c.view.withCore { s.core with
            sndUna := s.sndUna + 1, sndNxt := seg.ackSeq, state := .established }).withRcv
              { s.rcvCore with rcvNxt := s.irs + 1 } := by
          rw [← stamped]
          change c₁.view.withCore { c₁.view.toCore with state := .established } = _
          rw [view₁]
          rfl
        have core₂ : c₂.st.core = { s.core with
            sndUna := s.sndUna + 1, sndNxt := seg.ackSeq, state := .established } :=
          congrArg View.toCore view₂
        have rcv₂ : c₂.st.rcvCore = { s.rcvCore with rcvNxt := s.irs + 1 } :=
          congrArg View.rcv view₂
        generalize logged : c₂.emit (.established c₂.st) = c₃ at running ⊢
        have view₃ : c₃.view = c.view.opening c₂.st.sndUna c₂.st.sndNxt c₂.st.rcvCore c₂.st := by
          rw [← logged]
          change { c₂.view with opened := c₂.st :: c₂.view.opened } = _
          rw [show c₂.st.sndUna = _ from congrArg Core.sndUna core₂,
            show c₂.st.sndNxt = _ from congrArg Core.sndNxt core₂, rcv₂, view₂, ← core]
          rfl
        have move : ∀ k r, (∃ state : TcpState, (state.isOpen = true ∨ state = .closed) ∧
            (k = { c₂.st.core with state := state } ∨
              ∃ fast, k = { c₂.st.core.onAck fast seg.ackSeq with state := state })) →
            SynMove s seg c.view ((c₃.view.withCore k).withRcv r) := by
          intro k r after
          rw [view₃]
          exact .acked c₂.st k r from_ ack exact_ core₂ rcv₂ after
        have core₃ : c₃.st.core = c₂.st.core := by
          rw [← logged]
          rfl
        have state₂ : c₂.st.state = .established := congrArg Core.state core₂
        rcases raiseAcceptEvent_view env c₃ with halted | same | full
        · rw [halted] at running
          cases running
        · have core₄ : (c₃.raiseAcceptEvent env).st.core = c₂.st.core :=
            (congrArg View.toCore same).trans core₃
          have now₄ : (c₃.raiseAcceptEvent env).st.state = .established :=
            (congrArg Core.state core₄).trans state₂
          split
          · have adjust : (c₃.raiseAcceptEvent env).st.adjustAck seg.ackSeq = seg.ackSeq := by
              unfold TcpStream.adjustAck
              rw [now₄]
            rcases handleEstablished_view env seg (c₃.raiseAcceptEvent env) now₄ with
              halted | ⟨r, state, group, plain | ⟨-, -, acked⟩⟩
            · exact .inl halted
            · refine .inr ?_
              rw [plain, same, core₄]
              exact move _ _ ⟨state, .inl group, .inl rfl⟩
            · refine .inr ?_
              rw [acked, same, core₄, adjust]
              exact move _ _ ⟨state, .inl group, .inr ⟨_, rfl⟩⟩
          · refine .inr ?_
            rw [same]
            have stays := move c₂.st.core c₂.st.rcvCore
              ⟨.established, .inl rfl, .inl (by rw [← state₂]; rfl)⟩
            rw [← core₃, show c₂.st.rcvCore = c₃.st.rcvCore by rw [← logged]; rfl] at stays
            exact stays
        · have closed : (c₃.raiseAcceptEvent env).st.state = .closed :=
            congrArg (fun v : View => v.state) full
          rw [if_neg (by rw [closed]; rintro ⟨-, no⟩; cases no), full, core₃]
          refine .inr ?_
          have ends := move { c₂.st.core with state := .closed } c₃.st.rcvCore
            ⟨.closed, .inr rfl, .inl rfl⟩
          exact ends

end Handlers

/-! ## One segment -/

section Segment

variable (env : Env) (seg : Segment) (c : Cx)

theorem handleRst_synRcvd {s : TcpStream} (core : c.st.core = s.core)
    (from_ : s.state = .synRcvd) : SynMove s seg c.view (c.handleRst seg).view := by
  have now : c.st.state = .synRcvd := (congrArg Core.state core).trans from_
  unfold handleRst
  rw [now]
  dsimp only
  split
  · have move : SynMove s seg c.view _ := .refused from_
    rw [← core] at move
    exact move
  · exact .same

/-- What a segment does before ESTABLISHED. -/
theorem processSegment_syn (syn : c.st.state.isSyn = true) :
    (c.processSegment env seg).view.halted = true ∨
      SynMove c.st seg c.view (c.processSegment env seg).view := by
  cases processSegment_arrival env seg c with
  | halted h => exact .inl h
  | dropped _ view =>
      rw [view]
      exact .inr .same
  | reset c₁ rst beyond view result =>
      have from_ : c.st.state = .synRcvd := by
        revert syn beyond
        cases c.st.state <;> decide
      rw [result, ← view]
      exact .inr (handleRst_synRcvd seg c₁ (congrArg View.toCore view) from_)
  | handled c₁ view ready inSeq kept queues result =>
      rw [result, ← view]
      unfold handleSegment
      rw [show c₁.st.state = c.st.state from congrArg Core.state ready.core]
      cases state : c.st.state with
      | listen => exact .inr (handleListen_move ready (.inl state))
      | synSent => exact handleSynSent_move ready state
      | synRcvd =>
          dsimp only
          split
          · exact .inr (handleListen_move ready (.inr state))
          · exact handleSynRcvd_move ready state
      | closed | established | finWait1 | finWait2 | closeWait | closing | lastAck | timeWait =>
          rw [state] at syn
          cases syn

/-- A closed stream takes no notice. -/
theorem processSegment_closed (closed : c.st.state = .closed) :
    (c.processSegment env seg).view.halted = true ∨
      (c.processSegment env seg).view = c.view := by
  cases processSegment_arrival env seg c with
  | halted h => exact .inl h
  | dropped _ view => exact .inr view
  | reset c₁ rst beyond view result =>
      rw [closed] at beyond
      cases beyond
  | handled c₁ view ready inSeq kept queues result =>
      refine .inr ?_
      rw [result, handleSegment,
        show c₁.st.state = .closed from (congrArg Core.state ready.core).trans closed]
      exact view

/-- A segment that leaves the stream in SYN_SENT does not enqueue it. -/
theorem processSegment_queue (from_ : c.st.state = .synSent)
    (stays : (c.processSegment env seg).view.state = .synSent) :
    (c.processSegment env seg).queues = c.queues ∨
      (c.processSegment env seg).view.halted = true := by
  cases processSegment_arrival env seg c with
  | halted h => exact .inr h
  | dropped late view =>
      rw [from_] at late
      exact absurd late (by decide)
  | reset c₁ rst beyond view result =>
      rw [from_] at beyond
      exact absurd beyond (by decide)
  | handled c₁ view ready inSeq kept queues result =>
      rw [result, handleSegment,
        show c₁.st.state = .synSent from (congrArg Core.state ready.core).trans from_] at stays ⊢
      rw [← queues]
      exact handleSynSent_queue env seg c₁ stays

/-- The SYN that opens a passive connection. -/
theorem passiveOpen_view (listen : c.st.state = .listen) (syn : seg.syn = true) :
    (c.passiveOpen env seg).view.halted = true ∨
      (c.passiveOpen env seg).view =
        (c.view.withCore { c.st.core with state := .synRcvd }).withRcv
          { c.st.rcvCore with rcvNxt := c.st.rcvNxt + 1 } := by
  unfold passiveOpen
  dsimp only
  generalize entered : modify (timeoutListAdd env (c.receive seg)) _ = c₁
  have view₁ : c₁.view = c.view := by
    rw [← entered, view_modify _ (by exact ⟨rfl, rfl⟩), view_timeoutListAdd]
    rfl
  rcases parseOptions_cases env seg c₁ with hangs | ⟨o, parsed⟩
  · rw [hangs]
    rcases andThen_cases (c₁.emit (.halt .hang)) _ with ⟨halted, next⟩ | ⟨running, -⟩
    · rw [next]
      exact .inl halted
    · cases running
  · rw [parsed]
    rcases andThen_cases (c₁.modify _) _ with ⟨halted, next⟩ | ⟨-, next⟩
    · rw [next]
      exact .inl halted
    · rw [next]
      generalize opened : modify (c₁.modify _) _ = c₂
      have view₂ : c₂.view = c.view := by
        rw [← opened, view_modify _ (by exact ⟨rfl, rfl⟩), view_modify _ (by exact ⟨rfl, rfl⟩),
          view₁]
      have now₂ : c₂.st.state = .listen :=
        (congrArg (fun v : View => v.state) view₂).trans listen
      cases acceptSegment_arrival env seg c₂ (.refl c₂ seg)
        (by rw [now₂]; intro late; exact absurd late (by decide)) with
      | halted h => exact .inl h
      | dropped late view =>
          rw [now₂] at late
          exact absurd late (by decide)
      | reset c₃ rst beyond view result =>
          rw [now₂] at beyond
          exact absurd beyond (by decide)
      | handled c₃ view ready inSeq kept queues result =>
          have now₃ : c₃.st.state = .listen := (congrArg Core.state ready.core).trans now₂
          refine .inr ?_
          rw [result, handleSegment, now₃]
          dsimp only
          unfold handleListen
          rw [if_pos syn, view_controlQueueAdd, ← view₂, ← view]
          change _ = (c₃.view.withCore { c.view.toCore with state := .synRcvd }).withRcv
            { c.view.rcv with rcvNxt := c.view.rcv.rcvNxt + 1 }
          rw [← view₂, ← view]
          change (c₃.view.withCore { c₃.st.core with state := .synRcvd }).withRcv
            { c₃.st.rcvCore with
              rcvNxt := if c₃.st.state = .listen then c₃.st.rcvNxt + 1 else c₃.st.rcvNxt } = _
          rw [if_pos now₃]
          rfl

end Segment

end Cx

end QStack
