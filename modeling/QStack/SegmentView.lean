/-
# QStack.SegmentView -- options, acknowledgements and payload, on the view

What the parts that the handlers share do to the view.  `process_tcp_ack` is the
function `Core.onAck` of the sending side, payload touches the receiving side only,
and options neither.  A call that ends the process is the first disjunct everywhere.
-/
import QStack.StreamView
import QStack.TcpIn

namespace QStack

set_option autoImplicit false

/-! ## Groups of states -/

namespace TcpState

/-- The application can send. -/
def isOpen : TcpState → Bool
  | .established | .closeWait => true
  | _ => false

/-- The close call has been handled. -/
def isFin : TcpState → Bool
  | .finWait1 | .finWait2 | .closing | .lastAck | .timeWait => true
  | _ => false

theorem isOpen_of_isFin {s : TcpState} (fin : s.isFin = true) : s.isOpen = false := by
  revert fin
  cases s <;> decide

/-- Where a segment that does not acknowledge our FIN may lead, from ESTABLISHED on. -/
def follows : TcpState → TcpState → Bool
  | _, .closed => true
  | .established, .closeWait => true
  | .finWait1, .closing => true
  | .finWait2, .timeWait => true
  | s, s' => s == s'

theorem follows_self (s : TcpState) : s.follows s = true := by
  cases s <;> rfl

end TcpState

/-! ## Predicates of the code on a stream and a segment -/

namespace TcpStream

/-- The stream as it reaches the handler: the window is taken from the segment first. -/
def windowed (s : TcpStream) (seg : Segment) : TcpStream :=
  { s with peerWnd := s.advertisedBy seg }

/-- The acknowledgement is the third duplicate. -/
def thirdDup (s : TcpStream) (seg : Segment) : Bool :=
  let ackSeq := s.adjustAck seg.ackSeq
  let s' := s.updateWindow seg.seq ackSeq (s.advertisedBy seg)
  let dup := s'.isDupAck ackSeq (s.peerWnd + s.sndWl2) seg.payloadLen
  dup && (s'.countDupAck dup ackSeq).dupAcks == 3

def fastRetransmits (s : TcpStream) (seg : Segment) : Bool := (s.windowed seg).thirdDup seg

def inSequence (s : TcpStream) (seg : Segment) : Bool :=
  tcpSeqBetween (seg.seq + BitVec.ofNat 32 seg.payloadLen) s.rcvNxt (s.rcvNxt + s.rcvWnd)

/-- `process_tcp_ack` is called for the segment. -/
def reachesAck (s : TcpStream) (seg : Segment) : Bool :=
  s.inSequence seg && !seg.rst &&
    match s.state with
    | .established => !seg.syn && seg.ack
    | .closeWait => !tcpSeqLt seg.seq s.rcvNxt
    | .lastAck | .finWait1 => !tcpSeqLt seg.seq s.rcvNxt && seg.ack
    | .finWait2 | .closing => seg.ack
    | _ => false

theorem adjustAck_congr {s s' : TcpStream} (core : s'.core = s.core) (ackSeq : Seq) :
    s'.adjustAck ackSeq = s.adjustAck ackSeq :=
  congrArg (fun k : Core => adjustAck
    { state := k.state, isFinSent := k.isFinSent, fss := k.fss } ackSeq) core

theorem acksTooMuch_congr {s s' : TcpStream} (core : s'.core = s.core) (ackSeq : Seq) :
    s'.acksTooMuch ackSeq = s.acksTooMuch ackSeq := by
  rw [acksTooMuch, acksTooMuch, show s'.sndbuf = s.sndbuf from congrArg Core.sndbuf core]

/-- In SYN_SENT the ACK is taken for the acknowledgement of the SYN. -/
def acceptsSynAck (s : TcpStream) (seg : Segment) : Bool :=
  seg.ack && !tcpSeqLeq seg.ackSeq s.iss && !tcpSeqGt seg.ackSeq s.sndNxt

end TcpStream

/-! ## The abstract effect of an acknowledgement -/

namespace Core

def rollback (ackSeq : Seq) (k : Core) : Core :=
  if tcpSeqLt ackSeq k.sndNxt then
    { k with sndNxt := ackSeq, sndbuf := k.sndbuf.sbResetRetrans.2 }
  else k

def recover (ackSeq : Seq) (k : Core) : Core :=
  if tcpSeqGt ackSeq k.sndNxt then { k with sndNxt := ackSeq } else k

def retire (ackSeq : Seq) (k : Core) : Core :=
  if tcpSeqGeq k.sndbuf.headSeq ackSeq then k
  else { k with sndbuf := (k.sndbuf.sbRemoveAcked ackSeq).2, sndUna := ackSeq }

def onAck (fast : Bool) (ackSeq : Seq) (k : Core) : Core :=
  if tcpSeqGt ackSeq (k.sndbuf.headSeq + k.sndbuf.sbLen) then k
  else ((if fast then k.rollback ackSeq else k).recover ackSeq).retire ackSeq

/-- What an acknowledgement leaves alone. -/
def fixed (k : Core) : TcpState × Bool × Seq × Seq := (k.state, k.isFinSent, k.fss, k.iss)

theorem onAck_fixed (fast : Bool) (a : Seq) (k : Core) : (k.onAck fast a).fixed = k.fixed := by
  have rollback : (k.rollback a).fixed = k.fixed := by
    unfold Core.rollback
    split <;> rfl
  have recover : ∀ k : Core, (k.recover a).fixed = k.fixed := by
    intro k
    unfold Core.recover
    split <;> rfl
  have retire : ∀ k : Core, (k.retire a).fixed = k.fixed := by
    intro k
    unfold Core.retire
    split <;> rfl
  unfold onAck
  split
  · rfl
  · rw [retire, recover]
    split
    · exact rollback
    · rfl

section Fixed

variable (fast : Bool) (a : Seq) (k : Core)

@[simp] theorem onAck_state : (k.onAck fast a).state = k.state :=
  congrArg Prod.fst (onAck_fixed fast a k)

@[simp] theorem onAck_isFinSent : (k.onAck fast a).isFinSent = k.isFinSent :=
  congrArg (fun t => t.2.1) (onAck_fixed fast a k)

@[simp] theorem onAck_fss : (k.onAck fast a).fss = k.fss :=
  congrArg (fun t => t.2.2.1) (onAck_fixed fast a k)

@[simp] theorem onAck_iss : (k.onAck fast a).iss = k.iss :=
  congrArg (fun t => t.2.2.2) (onAck_fixed fast a k)

end Fixed

end Core

/-! ## Options, acknowledgements, payload -/

/-- What an option can set. -/
structure OptionFields where
  mss : Nat
  effMss : Nat
  wscalePeer : Nat
  sackPermit : Bool
  sawTimestamp : Bool
  tsRecent : U32
  tsLastTsUpd : U32

abbrev TcpStream.withOptions (s : TcpStream) (o : OptionFields) : TcpStream :=
  { s with
    mss := o.mss
    effMss := o.effMss
    wscalePeer := o.wscalePeer
    sackPermit := o.sackPermit
    sawTimestamp := o.sawTimestamp
    tsRecent := o.tsRecent
    tsLastTsUpd := o.tsLastTsUpd }

def TcpStream.optionFields (s : TcpStream) : OptionFields :=
  { mss := s.mss, effMss := s.effMss, wscalePeer := s.wscalePeer, sackPermit := s.sackPermit,
    sawTimestamp := s.sawTimestamp, tsRecent := s.tsRecent, tsLastTsUpd := s.tsLastTsUpd }

theorem TcpStream.withOptions_self (s : TcpStream) : ∃ o, s = s.withOptions o :=
  ⟨s.optionFields, rfl⟩

theorem parseTcpOptions_eq (curTs : U32) (opt : Nat → Nat) (len : Nat) :
    ∀ (rounds i : Nat) (s s' : TcpStream), parseTcpOptions curTs opt len rounds i s = some s' →
      ∃ o, s' = s.withOptions o := by
  intro rounds
  induction rounds with
  | zero =>
      intro i s s' parsed
      cases parsed
      exact s.withOptions_self
  | succ rounds ih =>
      intro i s s' parsed
      unfold parseTcpOptions at parsed
      dsimp only at parsed
      have done : some s = some s' → ∃ o, s' = s.withOptions o := by
        intro same
        cases same
        exact s.withOptions_self
      split at parsed
      · exact done parsed
      split at parsed
      · exact done parsed
      split at parsed
      · exact ih _ _ _ parsed
      split at parsed
      · exact done parsed
      split at parsed
      · obtain ⟨o, rfl⟩ := ih _ _ _ parsed
        exact ⟨o, rfl⟩
      split at parsed
      · obtain ⟨o, rfl⟩ := ih _ _ _ parsed
        exact ⟨o, rfl⟩
      split at parsed
      · obtain ⟨o, rfl⟩ := ih _ _ _ parsed
        exact ⟨o, rfl⟩
      split at parsed
      · obtain ⟨o, rfl⟩ := ih _ _ _ parsed
        exact ⟨o, rfl⟩
      split at parsed
      · cases parsed
      · exact ih _ _ _ parsed

namespace Cx

theorem parseOptions_cases (env : Env) (seg : Segment) (c : Cx) :
    c.parseOptions env seg = c.emit (.halt .hang) ∨
      ∃ o, c.parseOptions env seg = c.modify fun s => s.withOptions o := by
  unfold parseOptions
  dsimp only
  generalize result : parseTcpOptions _ _ _ _ _ _ = parsed
  cases parsed with
  | none => exact .inl rfl
  | some s =>
      obtain ⟨o, rfl⟩ := parseTcpOptions_eq _ _ _ _ _ _ _ result
      exact .inr ⟨o, rfl⟩

theorem andThen_cases (c : Cx) (f : Cx → Cx) :
    (c.view.halted = true ∧ c.andThen f = c) ∨ (c.view.halted = false ∧ c.andThen f = f c) := by
  unfold andThen
  cases h : c.halted with
  | true => exact .inl ⟨h, rfl⟩
  | false => exact .inr ⟨h, rfl⟩

theorem view_fastRetransmit (env : Env) (a : Seq) (c : Cx) :
    (c.fastRetransmit env a).view = c.view.withCore (c.st.core.rollback a) := by
  unfold fastRetransmit
  dsimp only
  rw [view_sendEventAdd, view_modify _ (by exact ⟨rfl, rfl⟩), view_modify _ (by exact ⟨rfl, rfl⟩),
    view_modify _ (by exact ⟨rfl, rfl⟩)]
  by_cases rolls : tcpSeqLt a c.st.sndNxt = true
  · rw [if_pos rolls, Core.rollback, if_pos (by exact rolls)]
    rfl
  · rw [if_neg rolls, Core.rollback, if_neg (by exact rolls)]
    rfl

theorem view_inflateWindow (c : Cx) : c.inflateWindow.view = c.view := by
  refine view_modify c ?_
  dsimp only
  split <;> exact ⟨rfl, rfl⟩

theorem growWindow_eq {packets : Nat} {s s' : TcpStream} (grown : growWindow packets s = some s') :
    ∃ cwnd, s' = { s with cwnd := cwnd } := by
  unfold growWindow at grown
  split at grown
  · cases grown
    exact ⟨_, rfl⟩
  split at grown
  · split at grown
    · cases grown
      exact ⟨_, rfl⟩
    · cases grown
      exact ⟨_, rfl⟩
  split at grown
  · cases grown
  · dsimp only at grown
    split at grown
    · cases grown
      exact ⟨_, rfl⟩
    · cases grown
      exact ⟨_, rfl⟩

theorem acceptAck_view (env : Env) (a : Seq) (c : Cx) :
    (c.acceptAck env a).view.halted = true ∨
      (c.acceptAck env a).view = c.view.withCore { c.st.core with
        sndbuf := (c.st.sndbuf.sbRemoveAcked a).2, sndUna := a } := by
  unfold acceptAck
  dsimp only
  split
  · exact .inl rfl
  · generalize grow : growWindow _ _ = grown
    cases grown with
    | none => exact .inl rfl
    | some s =>
        obtain ⟨cwnd, rfl⟩ := growWindow_eq grow
        refine .inr ?_
        dsimp only
        split
        · rw [view_rtoListRemove]
          rfl
        · rw [view_rtoListUpdate]
          rfl

/-- The end of `process_tcp_ack`, once a loss has been dealt with. -/
theorem ackTail_view (env : Env) (a : Seq) (c : Cx) :
    let c' := if tcpSeqGt a c.st.sndNxt then c.modify fun s => { s with sndNxt := a } else c
    let c'' := if tcpSeqGeq c'.st.sndbuf.headSeq a then c' else c'.acceptAck env a
    c''.view.halted = true ∨ c''.view = c.view.withCore ((c.st.core.recover a).retire a) := by
  intro c'
  have recovered : c'.view = c.view.withCore (c.st.core.recover a) := by
    by_cases more : tcpSeqGt a c.st.sndNxt = true
    · rw [Core.recover, if_pos (by exact more), show c' = _ from if_pos more]
      rfl
    · rw [Core.recover, if_neg (by exact more), show c' = _ from if_neg more]
      rfl
  have core : c'.st.core = c.st.core.recover a := congrArg View.toCore recovered
  dsimp only
  rw [← core, Core.retire]
  by_cases old : tcpSeqGeq c'.st.sndbuf.headSeq a = true
  · rw [if_pos old, if_pos (by exact old), core]
    exact .inr recovered
  · rw [if_neg old, if_neg (by exact old)]
    refine (acceptAck_view env a c').imp_right fun accepted => ?_
    rw [accepted, recovered]
    rfl

/-- What `process_tcp_ack` does: nothing else of the view moves. -/
theorem processTcpAck_view (env : Env) (seg : Segment) (c : Cx) :
    (c.processTcpAck env seg).view.halted = true ∨
      (c.processTcpAck env seg).view =
        c.view.withCore (c.st.core.onAck (c.st.thirdDup seg) (c.st.adjustAck seg.ackSeq)) := by
  unfold processTcpAck TcpStream.thirdDup
  dsimp only
  generalize c.st.adjustAck seg.ackSeq = a
  by_cases much : c.st.acksTooMuch a = true
  · rw [if_pos much]
    have same : ∀ fast, c.st.core.onAck fast a = c.st.core := fun fast => if_pos much
    rw [same]
    exact .inr rfl
  · rw [if_neg much]
    have processed : ∀ fast, c.st.core.onAck fast a =
        ((if fast then c.st.core.rollback a else c.st.core).recover a).retire a :=
      fun fast => if_neg much
    rw [processed]
    generalize edge : (c.st.updateWindow seg.seq a (c.st.advertisedBy seg)).isDupAck a
      (c.st.peerWnd + c.st.sndWl2) seg.payloadLen = dup
    have moved : (c.modify (TcpStream.updateWindow seg.seq a (c.st.advertisedBy seg))).st =
      c.st.updateWindow seg.seq a (c.st.advertisedBy seg) := rfl
    rw [moved, edge]
    generalize counted : (c.modify (TcpStream.updateWindow seg.seq a
      (c.st.advertisedBy seg))).modify (TcpStream.countDupAck dup a) = c₂
    have same : c₂.view = c.view := by
      rw [← counted, view_modify, view_modify]
      · unfold TcpStream.updateWindow
        split <;> exact ⟨rfl, rfl⟩
      · unfold TcpStream.countDupAck
        split <;> exact ⟨rfl, rfl⟩
    have count : c₂.st =
        (c.st.updateWindow seg.seq a (c.st.advertisedBy seg)).countDupAck dup a := by
      rw [← counted]
      rfl
    have core : c₂.st.core = c.st.core := congrArg View.toCore same
    rw [← count]
    generalize lost : (if (dup && c₂.st.dupAcks == 3) = true then c₂.fastRetransmit env a
      else if 3 < c₂.st.dupAcks then c₂.inflateWindow else c₂) = c₃
    have view : c₃.view = c.view.withCore
        (if (dup && c₂.st.dupAcks == 3) = true then c.st.core.rollback a else c.st.core) := by
      rw [← lost]
      split
      · rw [view_fastRetransmit, same, core]
      · split
        · rw [view_inflateWindow, same]
          rfl
        · rw [same]
          rfl
    have core₃ : c₃.st.core = _ := congrArg View.toCore view
    have tail := ackTail_view env a c₃
    rw [core₃, view] at tail
    exact tail

theorem payloadStored_view (prev : Seq) (priority : Bool) (ret : Int) (c : Cx) :
    (c.payloadStored prev priority ret).2.view =
      c.view.withRcv { c.st.rcvCore with
        rcvNxt := c.st.rcvbuf.mergedNext
        rcvWnd := c.st.rcvbuf.size - c.st.rcvbuf.rbMergedLen } := by
  unfold payloadStored
  dsimp only
  split
  · rfl
  · split
    · dsimp only
      split
      · split
        · rw [view_raiseEvent, view_raiseEvent]
          rfl
        · rw [view_raiseEvent]
          rfl
      · split
        · rw [view_raiseEvent]
          rfl
        · rfl
    · rfl

/-- The stores of a swapped `mbuf_list_add_head` reach two words of the stream. -/
theorem addHeadSwapped_eq (bufAddr : BitVec 64) (w : RcvMem) (c : Cx) :
    ∃ wnd irs, c.addHeadSwapped bufAddr w =
      c.modify fun s => { s with rcvWnd := wnd, irs := irs } := by
  unfold addHeadSwapped
  split
  · exact ⟨_, _, rfl⟩
  · exact ⟨c.st.rcvWnd, c.st.irs, rfl⟩

/-- Payload reaches the receiving side only. -/
theorem processTcpPayload_view (seg : Segment) (c : Cx) :
    (c.processTcpPayload seg).2.view.halted = true ∨
      ∃ r, (c.processTcpPayload seg).2.view = c.view.withRcv r := by
  unfold processTcpPayload
  dsimp only
  split
  · exact .inr ⟨_, rfl⟩
  · split
    · exact .inr ⟨_, rfl⟩
    · generalize RcvMem.rbPut _ _ = put
      obtain ⟨ret, w⟩ := put
      dsimp only
      split
      · exact .inl rfl
      · obtain ⟨wnd, irs, swapped⟩ := addHeadSwapped_eq seg.bufAddr w c
        rw [swapped]
        exact .inr ⟨_, payloadStored_view _ _ _ _⟩

theorem closingPayload_view (env : Env) (seg : Segment) (c : Cx) :
    (c.closingPayload env seg).view.halted = true ∨
      ∃ r, (c.closingPayload env seg).view = c.view.withRcv r := by
  unfold closingPayload
  split
  · have payload := processTcpPayload_view seg c
    generalize c.processTcpPayload seg = stored at payload
    obtain ⟨ret, c'⟩ := stored
    dsimp only at payload ⊢
    rcases andThen_cases c' fun c =>
      if truthy ret = true then c.enqueueAck env .aggregate else c.enqueueAck env .now with
      ⟨halted, same⟩ | ⟨running, next⟩
    · rw [same]
      exact .inl halted
    · rw [next]
      split <;> simpa using payload
  · exact .inr ⟨_, rfl⟩

theorem establishedPayload_view (env : Env) (seg : Segment) (c : Cx) :
    (c.establishedPayload env seg).view.halted = true ∨
      ∃ r, (c.establishedPayload env seg).view = c.view.withRcv r := by
  unfold establishedPayload
  split
  · have payload := processTcpPayload_view seg c
    generalize c.processTcpPayload seg = stored at payload
    obtain ⟨ret, c'⟩ := stored
    dsimp only at payload ⊢
    rcases andThen_cases c' fun c =>
      if 0 < ret then c.enqueueAck env .aggregate else c.enqueueAck env .now with
      ⟨halted, same⟩ | ⟨running, next⟩
    · rw [same]
      exact .inl halted
    · rw [next]
      split <;> simpa using payload
  · exact .inr ⟨_, rfl⟩

end Cx

end QStack
