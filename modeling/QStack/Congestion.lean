/- # QStack.Congestion -- the arithmetic of the congestion window

The divisors, the factors and the shift counts of `process_tcp_ack` come from the options of the
peer (`mss`, `eff_mss`, `wscale_peer`) and from earlier congestion events (`cwnd`).  Nothing checks
the options; the packets an acknowledgement is credited for are rounded down and cut to 16 bits;
and slow start adds more than it has checked for overflow.

`congestion_sound` states what the arithmetic does as long as none of this happens.
-/
import QStack.DupAck
import QStack.MssLimit

namespace QStack

set_option autoImplicit false

open Lib.Run

/-! ## The window of one acknowledgement -/

/-- Options that the arithmetic can stand; `mss` is a `uint16_t`. -/
structure Limits.Valid (l : Limits) : Prop where
  mss : 0 < l.mss ∧ l.mss < 2 ^ 16
  effMss : 0 < l.effMss
  wscale : l.wscalePeer ≤ 14

namespace Tuning

variable {t : Tuning}

theorem halved_toNat (small : t.mss < 2 ^ 16) :
    t.halved.toNat < 2 ^ 31 ∧ 2 * t.mss ≤ t.halved.toNat := by
  have cwnd := t.cwnd.isLt
  have least : min t.cwnd.toNat t.peerWnd.toNat ≤ t.cwnd.toNat := Nat.min_le_left _ _
  unfold halved
  dsimp only
  generalize min t.cwnd.toNat t.peerWnd.toNat = lesser at least ⊢
  split
  · rw [BitVec.toNat_ofNat, Nat.mod_eq_of_lt (by omega)]
    omega
  · rw [BitVec.toNat_ofNat, Nat.mod_eq_of_lt (by omega)]
    omega

theorem fast_toNat (small : t.mss < 2 ^ 16) :
    (t.halved + BitVec.ofNat 32 (3 * t.mss)).toNat = t.halved.toNat + 3 * t.mss := by
  have half := (halved_toNat small).1
  rw [BitVec.toNat_add, BitVec.toNat_ofNat, Nat.mod_eq_of_lt (a := 3 * t.mss) (by omega),
    Nat.mod_eq_of_lt (by omega)]

/-- The duplicate count leaves a window, and takes away from it on the third duplicate only. -/
theorem dupPaced_cwnd (valid : 0 < t.mss ∧ t.mss < 2 ^ 16) (some : t.cwnd ≠ 0) (dup : Bool) :
    (t.dupPaced dup).cwnd ≠ 0 ∧
      (((dup && t.dupAcks == 3) = true → t.cwnd.toNat ≤ t.halved.toNat + 3 * t.mss) →
        t.cwnd ≤ (t.dupPaced dup).cwnd) := by
  have large : ∀ {w : U32}, t.cwnd < w → w ≠ 0 := by
    intro w less zero
    rw [zero] at less
    exact absurd less (by simp)
  unfold dupPaced
  split
  · rename_i third
    have half := halved_toNat valid.2
    have value := fast_toNat valid.2
    refine ⟨fun zero => ?_, fun enough => ?_⟩
    · have none := congrArg BitVec.toNat zero
      change (t.halved + BitVec.ofNat 32 (3 * t.mss)).toNat = 0 at none
      omega
    · rw [BitVec.le_def]
      change t.cwnd.toNat ≤ (t.halved + BitVec.ofNat 32 (3 * t.mss)).toNat
      rw [value]
      exact enough third
  split
  · split
    · rename_i grows
      exact ⟨large grows, fun _ => BitVec.le_of_lt grows⟩
    · exact ⟨some, fun _ => BitVec.le_refl _⟩
  · exact ⟨some, fun _ => BitVec.le_refl _⟩

theorem dupPaced_mss (dup : Bool) :
    (t.dupPaced dup).mss = t.mss ∧ (t.dupPaced dup).effMss = t.effMss := by
  unfold dupPaced
  split
  · exact ⟨rfl, rfl⟩
  · split
    · split <;> exact ⟨rfl, rfl⟩
    · exact ⟨rfl, rfl⟩

/-- The credited packets never make the window smaller, if slow start does not overflow. -/
theorem grown_cwnd (small : t.mss < 2 ^ 16) {early : Bool} {packets : Nat}
    (slow : t.cwnd < t.ssthresh → t.cwnd.toNat + t.mss < 2 ^ 32 →
      t.cwnd.toNat + t.mss * packets < 2 ^ 32) :
    t.cwnd ≤ (t.grown early packets).cwnd := by
  unfold grown
  split
  · exact BitVec.le_refl _
  split
  · exact BitVec.le_refl _
  split
  · rename_i starting
    split
    · rename_i room
      have cwnd := t.cwnd.isLt
      rw [BitVec.lt_def, BitVec.toNat_add, BitVec.toNat_ofNat,
        Nat.mod_eq_of_lt (a := t.mss) (by omega)] at room
      have fits : t.cwnd.toNat + t.mss < 2 ^ 32 := by
        by_contra wraps
        have wrapped : (t.cwnd.toNat + t.mss) % 2 ^ 32 = t.cwnd.toNat + t.mss - 2 ^ 32 := by
          omega
        omega
      have stays := slow starting fits
      rw [BitVec.le_def]
      change t.cwnd.toNat ≤ (t.cwnd + BitVec.ofNat 32 (t.mss * packets)).toNat
      rw [BitVec.toNat_add, BitVec.toNat_ofNat,
        Nat.mod_eq_of_lt (a := t.mss * packets) (by omega), Nat.mod_eq_of_lt stays]
      exact Nat.le_add_right _ _
    · exact BitVec.le_refl _
  split
  · exact BitVec.le_refl _
  · dsimp only
    split
    · rename_i grows
      exact BitVec.le_of_lt grows
    · exact BitVec.le_refl _

end Tuning

/-! ## The window over a segment -/

namespace Cx

/-- What a segment does to the congestion window. -/
inductive CwndMove (c : Cx) (env : Env) (seg : Segment) (c' : Cx) : Prop
  | halted (halted : c'.view.halted = true)
  | kept (cwnd : c'.st.cwnd = c.st.cwnd)
  | opened (early : c.st.state.isSyn = true)
      (value : c'.st.cwnd = BitVec.ofNat 32 (c'.st.mss * 2) ∨
        c'.st.cwnd = BitVec.ofNat 32 c'.st.mss)
  | acked (reaches : c.st.reachesAck seg = true) (s : TcpStream)
      (read : c.st.optioned env seg = some s)
      (paced : c'.st.tuning = (s.windowed seg).pacedBy seg)

section Handshake

variable (env : Env) (seg : Segment) (c : Cx)

theorem Paces.cwnd {c c' : Cx} (paces : c.Paces c') : c'.st.cwnd = c.st.cwnd :=
  congrArg Tuning.cwnd paces

theorem handleActiveOpen_cwnd :
    (c.handleActiveOpen env seg).view.halted = true ∨
      ((c.handleActiveOpen env seg).st.cwnd =
          BitVec.ofNat 32 ((c.handleActiveOpen env seg).st.mss * 2) ∨
        (c.handleActiveOpen env seg).st.cwnd =
          BitVec.ofNat 32 (c.handleActiveOpen env seg).st.mss) := by
  unfold handleActiveOpen
  dsimp only
  generalize (c.modify _).parseOptions env seg = c₁
  unfold andThen
  split
  · rename_i halted
    exact .inl halted
  refine .inr ?_
  dsimp only
  generalize opening : c₁.modify _ = c₂
  have value : c₂.st.cwnd = BitVec.ofNat 32 (c₂.st.mss * 2) ∨
      c₂.st.cwnd = BitVec.ofNat 32 c₂.st.mss := by
    rw [← opening, modify_st]
    dsimp only
    split
    · exact .inl rfl
    · exact .inr rfl
  have paces := rtoListRemove_paces c₂
  have cwnd : c₂.rtoListRemove.st.cwnd = c₂.st.cwnd := paces.cwnd
  have mss : c₂.rtoListRemove.st.mss = c₂.st.mss := congrArg Tuning.mss paces
  rw [← cwnd, ← mss] at value
  exact value

theorem handleSynSent_cwnd :
    (c.handleSynSent env seg).view.halted = true ∨
      (c.handleSynSent env seg).st.cwnd = c.st.cwnd ∨
      ((c.handleSynSent env seg).st.cwnd =
          BitVec.ofNat 32 ((c.handleSynSent env seg).st.mss * 2) ∨
        (c.handleSynSent env seg).st.cwnd =
          BitVec.ofNat 32 (c.handleSynSent env seg).st.mss) := by
  unfold handleSynSent
  split
  · split
    · exact .inr (.inl rfl)
    · exact .inl rfl
  dsimp only
  have kept : (if seg.ack = true then c.modify fun s => { s with sndUna := s.sndUna + 1 }
      else c).st.cwnd = c.st.cwnd := by
    split <;> rfl
  generalize (if seg.ack = true then c.modify fun s => { s with sndUna := s.sndUna + 1 }
    else c) = c₁ at kept ⊢
  rw [← kept]
  split
  · refine .inr (.inl ?_)
    split
    · split
      · exact ((Paces.modify c₁ rfl).trans (raiseEvent_paces _ _)).cwnd
      · exact rfl
    · exact rfl
  split
  · split
    · have opened := handleActiveOpen_cwnd env seg c₁
      generalize c₁.handleActiveOpen env seg = c₂ at opened
      unfold andThen
      split
      · rename_i halted
        exact .inl halted
      rename_i running
      dsimp only
      split
      · have paces := ((raiseEvent_paces c₂ .write).trans
          (controlQueueAdd_paces env _)).trans (timeoutListAdd_paces env _)
        have mss : (((c₂.raiseEvent .write).controlQueueAdd env).timeoutListAdd env).st.mss =
            c₂.st.mss := congrArg Tuning.mss paces
        rw [paces.cwnd, mss]
        exact .inr (.inr (opened.resolve_left running))
      · exact .inl rfl
    · exact .inr (.inl ((Paces.modify c₁ rfl).trans (controlQueueAdd_paces env _)).cwnd)
  · exact .inr (.inl rfl)

/-- The acknowledgement of the SYN-ACK opens the connection with a window of one segment or two. -/
theorem handleSynRcvd_cwnd :
    (c.handleSynRcvd env seg).view.halted = true ∨
      ((c.handleSynRcvd env seg).st.cwnd = c.st.cwnd ∧
        (c.handleSynRcvd env seg).st.state = c.st.state) ∨
      (seg.ackSeq = c.st.iss + 1 ∧
        (c.handleSynRcvd env seg).st.sndNxt = seg.ackSeq ∧
        (c.handleSynRcvd env seg).st.sndbuf = c.st.sndbuf ∧
        ((c.handleSynRcvd env seg).st.cwnd =
            BitVec.ofNat 32 ((c.handleSynRcvd env seg).st.mss * 2) ∨
          (c.handleSynRcvd env seg).st.cwnd =
            BitVec.ofNat 32 (c.handleSynRcvd env seg).st.mss)) := by
  unfold handleSynRcvd
  split
  · split
    · exact .inr (.inl ⟨rfl, rfl⟩)
    · rename_i exact_
      dsimp only
      generalize opening : (Cx.rtoListRemove _).modify _ = c₁
      have opened : c₁.st.sndNxt = seg.ackSeq ∧ c₁.st.sndbuf = c.st.sndbuf ∧
          (c₁.st.cwnd = BitVec.ofNat 32 (c₁.st.mss * 2) ∨
            c₁.st.cwnd = BitVec.ofNat 32 c₁.st.mss) := by
        rw [← opening, modify_st]
        unfold rtoListRemove
        split
        · refine ⟨rfl, rfl, ?_⟩
          dsimp only [emit_st, modify_st]
          split
          · exact .inl rfl
          · exact .inr rfl
        · refine ⟨rfl, rfl, ?_⟩
          dsimp only [modify_st]
          split
          · exact .inl rfl
          · exact .inr rfl
      have paces := raiseAcceptEvent_paces env (c₁.emit (.established c₁.st))
      have mss : ((c₁.emit (.established c₁.st)).raiseAcceptEvent env).st.mss = c₁.st.mss :=
        congrArg Tuning.mss paces
      rcases raiseAcceptEvent_view env (c₁.emit (.established c₁.st)) with halted | same | closed
      · exact .inl halted
      · refine .inr (.inr ⟨not_not.mp exact_, ?_, ?_, ?_⟩)
        · exact (congrArg (fun v : View => v.sndNxt) same).trans opened.1
        · exact (congrArg (fun v : View => v.sndbuf) same).trans opened.2.1
        · rw [paces.cwnd, mss]
          exact opened.2.2
      · refine .inr (.inr ⟨not_not.mp exact_, ?_, ?_, ?_⟩)
        · exact (congrArg (fun v : View => v.sndNxt) closed).trans opened.1
        · exact (congrArg (fun v : View => v.sndbuf) closed).trans opened.2.1
        · rw [paces.cwnd, mss]
          exact opened.2.2
  · refine .inr (.inl ?_)
    have queued : ((c.modify fun s => { s with sndNxt := s.iss }).controlQueueAdd env).view =
        (c.modify fun s => { s with sndNxt := s.iss }).view := view_controlQueueAdd env _
    exact ⟨((Paces.modify c rfl).trans (controlQueueAdd_paces env _)).cwnd,
      congrArg (fun v : View => v.state) queued⟩

/-- An acknowledgement of nothing new, that is no duplicate, leaves the window. -/
theorem pacedBy_idle {s : TcpStream} (established : s.state = .established)
    (nxt : s.sndNxt = seg.ackSeq) (head : s.sndbuf.headSeq = seg.ackSeq) :
    (s.pacedBy seg).cwnd = s.cwnd := by
  have adjusted : s.adjustAck seg.ackSeq = seg.ackSeq := by
    rw [TcpStream.adjustAck, established]
  have old : s.acksNew seg = false := by
    rw [TcpStream.acksNew, adjusted, head]
    simp [tcpSeqGeq, Lib.Serial.geq]
  have single : s.countsDup seg = false := by
    have moved : (s.updateWindow seg.seq (s.adjustAck seg.ackSeq)
        (s.advertisedBy seg)).sndNxt = s.sndNxt :=
      congrArg Core.sndNxt (TcpStream.updateWindow_core s _ _ _)
    rw [TcpStream.countsDup, TcpStream.isDupAck, moved, nxt, adjusted]
    simp
  have dups : (s.counted seg).dupAcks = 0 := by
    rw [TcpStream.counted, single]
    rfl
  have cwnd : (s.counted seg).cwnd = s.cwnd := by
    unfold TcpStream.counted TcpStream.countDupAck TcpStream.updateWindow
    split <;> split <;> rfl
  unfold TcpStream.pacedBy
  rw [old, single]
  split
  · rfl
  · have none : ¬ 3 < (s.counted seg).tuning.dupAcks := by
      change ¬ 3 < (s.counted seg).dupAcks
      rw [dups]
      decide
    rw [if_neg Bool.false_ne_true, Tuning.dupPaced, Bool.false_and, if_neg Bool.false_ne_true,
      if_neg none]
    exact cwnd

end Handshake

/-- **The congestion window changes when the connection opens, and through `process_tcp_ack`.** -/
theorem processSegment_cwnd (env : Env) (seg : Segment) (c : Cx)
    (unused : c.st.state = .synRcvd → c.st.sndbuf.headSeq = c.st.iss + 1) :
    CwndMove c env seg (c.processSegment env seg) := by
  cases processSegment_admission env seg c with
  | halted halted => exact .halted halted
  | dropped s read beyond outside paces =>
      obtain ⟨o, same⟩ := optioned_same read
      have cwnd : (c.processSegment env seg).st.cwnd = s.cwnd := congrArg Tuning.cwnd paces
      rw [same] at cwnd
      exact .kept cwnd
  | admitted s read inside c₁ st view result =>
      obtain ⟨o, same⟩ := optioned_same read
      have core : c₁.st.core = c.st.core := congrArg View.toCore view
      have now : c₁.st.state = c.st.state := congrArg Core.state core
      have cwnd : c₁.st.cwnd = c.st.cwnd := by
        rw [st, same]
        rfl
      by_cases late : c.st.state.isOpen = true ∨ c.st.state.isFin = true ∨ c.st.state = .closed
      · have rcv : c₁.st.rcvCore = c.st.rcvCore := congrArg View.rcv view
        have handles : c₁.st.handlesAck seg = c.st.handlesAck seg := by
          have nxt : c₁.st.rcvNxt = c.st.rcvNxt := congrArg RcvCore.rcvNxt rcv
          rw [TcpStream.handlesAck, TcpStream.handlesAck, now, nxt]
        have tunes := handler_tunes env seg c₁ (by rw [now]; exact late)
        rw [now, ← result, handles, ← reachesAck_admitted late inside] at tunes
        rcases tunes with ⟨reaches, tuned⟩ | ⟨paces, -⟩
        · refine .acked reaches s read (tuned.exactly.trans ?_)
          refine TcpStream.pacedBy_congr seg ?_ ?_
          · rw [st]
            rfl
          · rw [st]
            rfl
        · exact .kept (paces.cwnd.trans cwnd)
      · have early : c.st.state.isSyn = true := by
          revert late
          cases c.st.state <;> decide
        rw [result, ← now]
        cases rst : (seg.rst && decide (TcpState.synSent.val < c₁.st.state.val)) with
        | true =>
            rw [if_pos rfl]
            exact .kept ((handleRst_paces c₁ seg).cwnd.trans cwnd)
        | false =>
            rw [if_neg Bool.false_ne_true]
            unfold handleSegment
            cases state : c₁.st.state with
            | listen => exact .kept ((handleListen_paces env c₁ seg).cwnd.trans cwnd)
            | synSent =>
                dsimp only
                rcases handleSynSent_cwnd env seg c₁ with halted | kept | value
                · exact .halted halted
                · exact .kept (kept.trans cwnd)
                · exact .opened early value
            | synRcvd =>
                have head := unused (now.symm.trans state)
                dsimp only
                split
                · exact .kept ((handleListen_paces env c₁ seg).cwnd.trans cwnd)
                have first := handleSynRcvd_cwnd env seg c₁
                generalize c₁.handleSynRcvd env seg = c₂ at first ⊢
                unfold andThen
                split
                · rename_i halted
                  exact .halted halted
                rename_i running
                dsimp only
                rcases first.resolve_left running with ⟨kept, stays⟩ | ⟨exact_, nxt, buff, value⟩
                · rw [if_neg (by rw [stays, state]; exact fun bad => absurd bad.2 (by decide))]
                  exact .kept (kept.trans cwnd)
                split
                · rename_i payload
                  have tunes := handleEstablished_tunes env c₂ seg
                  have known : (c₂.handleEstablished env seg).st.cwnd = c₂.st.cwnd := by
                    rcases tunes with ⟨-, tuned⟩ | ⟨paces, -⟩
                    · refine (congrArg Tuning.cwnd tuned.exactly).trans ?_
                      refine pacedBy_idle seg payload.2 nxt ?_
                      have iss : c₁.st.iss = c.st.iss := congrArg Core.iss core
                      have sndbuf : c₁.st.sndbuf = c.st.sndbuf := congrArg Core.sndbuf core
                      rw [buff, sndbuf, head, exact_, iss]
                    · exact paces.cwnd
                  have mss : (c₂.handleEstablished env seg).st.mss = c₂.st.mss :=
                    congrArg Limits.mss tunes.limits
                  refine .opened early ?_
                  rw [known, mss]
                  exact value
                · exact .opened early value
            | established | closeWait | lastAck | finWait1 | finWait2 | closing | timeWait | closed =>
                rw [← now, state] at early
                cases early

theorem passiveOpen_cwnd (env : Env) (seg : Segment) {c : Cx} (listen : c.st.state = .listen) :
    (c.passiveOpen env seg).view.halted = true ∨ (c.passiveOpen env seg).st.cwnd = 10 := by
  unfold passiveOpen
  dsimp only
  generalize entered : modify (timeoutListAdd env (c.receive seg)) _ = c₁
  have view₁ : c₁.view = c.view := by
    rw [← entered, view_modify _ (by exact ⟨rfl, rfl⟩), view_timeoutListAdd]
    rfl
  have now₁ : c₁.st.state = .listen :=
    (congrArg (fun v : View => v.state) view₁).trans listen
  have cwnd₁ : c₁.st.cwnd = 10 := by
    rw [← entered]
    rfl
  have accepted : ∀ c₂ : Cx, c₂.st.state = .listen → c₂.st.cwnd = 10 →
      (c₂.acceptSegment env seg).st.cwnd = 10 := by
    intro c₂ now cwnd
    unfold acceptSegment
    dsimp only
    generalize noted : (if seg.rst = true then _ else _) = c₃
    have st₃ : c₃.st.state = .listen ∧ c₃.st.cwnd = 10 := by
      rw [← noted]
      split
      · rw [modify_st, timeoutListUpdate_st]
        exact ⟨now, cwnd⟩
      · rw [timeoutListUpdate_st]
        exact ⟨now, cwnd⟩
    have early : (seg.rst && decide (TcpState.synSent.val < c₃.st.state.val)) = false := by
      rw [st₃.1]
      exact Bool.and_false _
    rw [early, if_neg Bool.false_ne_true]
    unfold handleSegment
    rw [st₃.1]
    exact (handleListen_paces env c₃ seg).cwnd.trans st₃.2
  rcases parseOptions_cases env seg c₁ with hangs | ⟨o, parsed⟩
  · rw [hangs]
    exact .inl rfl
  · rw [parsed]
    unfold andThen
    split
    · rename_i halted
      exact .inl halted
    · exact .inr (accepted _ now₁ cwnd₁)

/-- The retransmission timer takes the window down to one segment. -/
theorem handleRto_cwnd (env : Env) (c : Cx) : (c.handleRto env).st.cwnd = c.st.cwnd ∨
    (c.handleRto env).st.cwnd = BitVec.ofNat 32 c.st.mss := by
  unfold handleRto
  split
  · refine .inr ?_
    dsimp only
    generalize paced : (Cx.modify _ _).modify _ = c₁
    have cwnd : c₁.st.cwnd = BitVec.ofNat 32 c.st.mss := by
      rw [← paced]
      rfl
    have retransmits : ((c₁.setSndbuf c₁.st.sndbuf.sbResetRetrans.2).sendEventAdd env
        false).st.cwnd = c₁.st.cwnd :=
      ((Paces.modify c₁ rfl).trans (sendEventAdd_paces env _ false)).cwnd
    have asks : (c₁.controlQueueAdd env).st.cwnd = c₁.st.cwnd :=
      (controlQueueAdd_paces env c₁).cwnd
    rw [← cwnd]
    split
    · exact retransmits
    · split
      · rfl
      · split
        · exact retransmits
        · exact asks
    · split
      · rfl
      · split
        · exact retransmits
        · exact asks
    · split
      · rfl
      · split
        · exact retransmits
        · exact asks
    · exact asks
  · exact .inl ((Paces.modify c rfl).trans (.emit _ _)).cwnd

end Cx

/-! ## Runs -/

/-- The divisors are there, and the scale can be shifted by. -/
structure TcpStream.Sane (s : TcpStream) : Prop where
  limits : s.limits.Valid
  cwnd : s.cwnd ≠ 0

/-- The pace that the credited packets are added to. -/
def TcpStream.growsFrom (s : TcpStream) (seg : Segment) : Tuning :=
  (s.counted seg).tuning.dupPaced (s.countsDup seg)

/-- Congestion avoidance: the credited packets are scaled by the window. -/
def TcpStream.avoids (s : TcpStream) (seg : Segment) : Prop :=
  ¬ (s.growsFrom seg).cwnd < (s.growsFrom seg).ssthresh

/-- An acknowledgement of new data for which the arithmetic is exact; the two products are of type
`int`. -/
structure TcpStream.Exact (s : TcpStream) (seg : Segment) : Prop where
  whole : s.effMss ∣ s.rmlen seg
  narrow : s.rmlen seg / s.effMss < 2 ^ 16
  product : s.avoids seg → s.rmlen seg / s.effMss * s.mss * s.mss < 2 ^ 31
  slow : ¬ s.avoids seg → (s.growsFrom seg).cwnd.toNat + s.mss < 2 ^ 32 →
    s.mss * (s.rmlen seg / s.effMss) < 2 ^ 31 ∧
      (s.growsFrom seg).cwnd.toNat + s.mss * (s.rmlen seg / s.effMss) < 2 ^ 32
  fast : (s.countsDup seg && (s.counted seg).dupAcks == 3) = true →
    s.cwnd.toNat ≤ (s.counted seg).tuning.halved.toNat + 3 * s.mss

/-- What an acknowledgement of new data should do: no divisor is zero, the packets are rounded up,
the product fits an `int`, and the window does not get smaller. -/
structure TcpStream.Accounted (s : TcpStream) (seg : Segment) (after : Conn) : Prop where
  divides : s.effMss ≠ 0 ∧ (s.growsFrom seg).cwnd ≠ 0
  ceiling : s.credited seg = (s.rmlen seg + s.effMss - 1) / s.effMss
  product : s.avoids seg → s.credited seg * s.mss * s.mss < 2 ^ 31
  grows : after.ended = true ∨ s.cwnd ≤ after.st.cwnd

namespace Conn

variable {s : Conn} {e : ConnEvent}

/-- The segment acknowledges new data; `a` is the stream that `process_tcp_ack` finds. -/
structure Acknowledges (s : Conn) (e : ConnEvent) (seg : Segment) (a : TcpStream) : Prop where
  running : s.ended = false
  call : e.call = .packet seg
  reaches : s.st.reachesAck seg = true
  read : ∃ s', s.st.optioned e.env seg = some s' ∧ a = s'.windowed seg
  few : a.acksTooMuch (a.adjustAck seg.ackSeq) = false
  acksNew : a.acksNew seg = true

/-- The options of a SYN are read. -/
def ReadsOptions (s : Conn) (seg : Segment) : Prop :=
  seg.syn = true ∧ (s.st.state = .synSent → seg.ack = true ∧ seg.rst = false)

/-- The peer's options are valid where they are read, and its acknowledgements exact. -/
structure PeerOk (s : Conn) (e : ConnEvent) : Prop where
  options : ∀ seg, e.call = .packet seg → s.ReadsOptions seg →
    ∀ s', s.st.readOptions e.env seg = some s' → s'.limits.Valid
  acks : ∀ seg a, s.Acknowledges e seg a → a.Exact seg

/-- What the run keeps. -/
structure Sound (s : Conn) : Prop where
  sane : s.st.Sane
  unused : s.st.state.isSyn = true → s.st.sndbuf.headSeq = s.st.iss + 1

def SoundWindow (s : Conn) : Prop := s.ended = true ∨ s.st.Sane

def Accounts (s : Conn) (e : ConnEvent) (s' : Conn) : Prop :=
  ∀ seg a, s.Acknowledges e seg a → a.Accounted seg s'

end Conn

namespace TcpStream

variable {s : TcpStream} {seg : Segment}

theorem counted_sizes (s : TcpStream) (seg : Segment) :
    (s.counted seg).mss = s.mss ∧ (s.counted seg).effMss = s.effMss ∧
      (s.counted seg).cwnd = s.cwnd := by
  unfold counted countDupAck updateWindow
  split <;> split <;> exact ⟨rfl, rfl, rfl⟩

theorem growsFrom_mss (s : TcpStream) (seg : Segment) :
    (s.growsFrom seg).mss = s.mss ∧ (s.growsFrom seg).effMss = s.effMss := by
  obtain ⟨mss, effMss, -⟩ := counted_sizes s seg
  have paced := Tuning.dupPaced_mss (t := (s.counted seg).tuning) (s.countsDup seg)
  exact ⟨paced.1.trans mss, paced.2.trans effMss⟩

theorem Sane.growsFrom (sane : s.Sane) (seg : Segment) :
    (s.growsFrom seg).cwnd ≠ 0 ∧
      (((s.countsDup seg && (s.counted seg).dupAcks == 3) = true →
        s.cwnd.toNat ≤ (s.counted seg).tuning.halved.toNat + 3 * s.mss) →
          s.cwnd ≤ (s.growsFrom seg).cwnd) := by
  obtain ⟨mss, -, cwnd⟩ := counted_sizes s seg
  have valid : 0 < (s.counted seg).tuning.mss ∧ (s.counted seg).tuning.mss < 2 ^ 16 := by
    change 0 < (s.counted seg).mss ∧ (s.counted seg).mss < 2 ^ 16
    rw [mss]
    exact sane.limits.mss
  have some_ : (s.counted seg).tuning.cwnd ≠ 0 := by
    change (s.counted seg).cwnd ≠ 0
    rw [cwnd]
    exact sane.cwnd
  have paced := Tuning.dupPaced_cwnd valid some_ (s.countsDup seg)
  refine ⟨paced.1, fun enough => ?_⟩
  have kept := paced.2 fun third => by
    change (s.counted seg).cwnd.toNat ≤ _ + 3 * (s.counted seg).mss
    rw [cwnd, mss]
    exact enough third
  rw [← cwnd]
  exact kept

/-- The credited packets are the whole ones. -/
theorem Exact.credited (exact_ : s.Exact seg) : s.credited seg = s.rmlen seg / s.effMss := by
  rw [TcpStream.credited, Nat.mod_eq_of_lt exact_.narrow]

/-- **One acknowledgement**: the window is not zero afterwards, and no smaller after new data. -/
theorem Sane.paced (sane : s.Sane) (seg : Segment)
    (acks : s.acksTooMuch (s.adjustAck seg.ackSeq) = false → s.acksNew seg = true → s.Exact seg) :
    (s.pacedBy seg).cwnd ≠ 0 ∧
      (s.acksTooMuch (s.adjustAck seg.ackSeq) = false → s.acksNew seg = true →
        s.cwnd ≤ (s.pacedBy seg).cwnd) := by
  have starts := sane.growsFrom seg
  have some_ : ∀ {w : U32}, (s.growsFrom seg).cwnd ≤ w → w ≠ 0 := by
    intro w le zero
    rw [zero] at le
    exact starts.1 (BitVec.le_antisymm le (Nat.zero_le _))
  unfold pacedBy
  cases much : s.acksTooMuch (s.adjustAck seg.ackSeq) with
  | true =>
      rw [if_pos rfl]
      exact ⟨sane.cwnd, fun few => absurd few (by decide)⟩
  | false =>
      rw [if_neg Bool.false_ne_true]
      dsimp only
      change (if s.acksNew seg = true then (s.growsFrom seg).grown _ _ else s.growsFrom seg).cwnd ≠ 0 ∧
        (_ → _ → _ ≤ (if s.acksNew seg = true then (s.growsFrom seg).grown _ _
          else s.growsFrom seg).cwnd)
      cases fresh : s.acksNew seg with
      | false =>
          rw [if_neg Bool.false_ne_true]
          exact ⟨starts.1, fun _ new => absurd new (by decide)⟩
      | true =>
          rw [if_pos rfl]
          have exact_ := acks much fresh
          have sizes := growsFrom_mss s seg
          have grown : (s.growsFrom seg).cwnd ≤ ((s.growsFrom seg).grown
              (decide (s.state.val < TcpState.established.val)) (s.credited seg)).cwnd := by
            refine Tuning.grown_cwnd ?_ fun starting room => ?_
            · rw [sizes.1]
              exact sane.limits.mss.2
            · rw [exact_.credited, sizes.1]
              rw [sizes.1] at room
              exact (exact_.slow (fun avoids => avoids starting) room).2
          exact ⟨some_ grown, fun _ _ => BitVec.le_trans (starts.2 exact_.fast) grown⟩

theorem Exact.ceiling (exact_ : s.Exact seg) (some_ : 0 < s.effMss) :
    s.credited seg = (s.rmlen seg + s.effMss - 1) / s.effMss := by
  rw [exact_.credited]
  obtain ⟨packets, whole⟩ := exact_.whole
  rw [whole, Nat.mul_div_cancel_left packets some_]
  symm
  have bytes : s.effMss * packets + s.effMss - 1 = s.effMss - 1 + s.effMss * packets := by omega
  rw [bytes, Nat.add_mul_div_left _ _ some_, Nat.div_eq_of_lt (by omega), Nat.zero_add]

end TcpStream

theorem Limits.Valid.window {l : Limits} (valid : l.Valid) :
    BitVec.ofNat 32 (l.mss * 2) ≠ 0 ∧ BitVec.ofNat 32 l.mss ≠ 0 := by
  have mss := valid.mss
  constructor
  all_goals
    intro zero
    have none := congrArg BitVec.toNat zero
    rw [BitVec.toNat_ofNat, Nat.mod_eq_of_lt (by omega)] at none
    change _ = 0 at none
    omega

namespace Conn

variable {s : Conn} {e : ConnEvent}

/-- While the handshake lasts the send buffer is unused. -/
theorem Move.unused {call : ConnCall} {v : View} (move : Move s call v)
    (unused : s.st.state.isSyn = true → s.st.sndbuf.headSeq = s.st.iss + 1)
    (syn : v.state.isSyn = true) : v.sndbuf.headSeq = v.iss + 1 := by
  have before := move.early syn
  have head := unused before
  have iss : v.iss = s.st.iss := move.iss
  have notOpen : s.st.state.isOpen = false ∧ s.st.state.isFin = false ∧
      s.st.state.flushes = false := by
    revert before
    cases s.st.state <;> decide
  rw [iss, ← head]
  cases move with
  | same => rfl
  | syn _ move =>
      cases move with
      | same | listened | refused | rstAcked | bareAcked | synAcked | simultaneous | noAck => rfl
      | acked st k r _ _ _ core _ after =>
          exfalso
          obtain ⟨state, opened, now | ⟨fast, now⟩⟩ := after
          · have value : k.state = state := by rw [now]
            change k.state.isSyn = true at syn
            rw [value] at syn
            revert opened syn
            cases state <;> decide
          · have value : k.state = state := by rw [now]
            change k.state.isSyn = true at syn
            rw [value] at syn
            revert opened syn
            cases state <;> decide
  | data late _ =>
      rw [notOpen.1, notOpen.2.1] at late
      exact absurd late (by decide)
  | put opened =>
      rw [notOpen.1] at opened
      cases opened
  | received => rfl
  | closed _ move => cases move <;> rfl
  | control _ move => cases move <;> rfl
  | flushed _ state =>
      rw [notOpen.2.2] at state
      cases state
  | rto _ move =>
      cases move with
      | lost | control => rfl
      | retransmit =>
          change s.st.sndbuf.sbResetRetrans.2.headSeq = _
          rcases SndBuff.sbResetRetrans_cases s.st.sndbuf with ⟨same, -⟩ | ⟨-, -, moved⟩
          · rw [same]
          · rw [moved]
  | expired => rfl

/-- What `process_tcp_ack` finds of a stream whose limits are valid. -/
theorem windowed_sane {s₁ : TcpStream} {env : Env} {seg : Segment} (sane : s.st.Sane)
    (read : s.st.optioned env seg = some s₁) (valid : s₁.limits.Valid) :
    (s₁.windowed seg).Sane ∧ (s₁.windowed seg).cwnd = s.st.cwnd := by
  obtain ⟨o, same⟩ := Cx.optioned_same read
  have cwnd : s₁.cwnd = s.st.cwnd := by
    rw [same]
  exact ⟨⟨valid, by
    change s₁.cwnd ≠ 0
    rw [cwnd]
    exact sane.cwnd⟩, cwnd⟩

/-- The options that the next segment leaves are valid. -/
theorem Sound.reads (sound : s.Sound) (ok : s.PeerOk e) {seg : Segment} {s₁ : TcpStream}
    (call : e.call = .packet seg) (read : s.st.optioned e.env seg = some s₁) : s₁.limits.Valid := by
  by_cases reads : seg.syn = true ∧ s.st.state ≠ .synSent
  · rw [TcpStream.optioned_reads reads] at read
    exact ok.options seg call ⟨reads.1, fun now => absurd now reads.2⟩ s₁ read
  · rw [TcpStream.optioned_skips reads] at read
    rw [← Option.some.inj read]
    exact sound.sane.limits

theorem packet_sound {seg : Segment} (sound : s.Sound) (ok : s.PeerOk e)
    (running : s.ended = false) (call : e.call = .packet seg) :
    (s.serve e).ended = true ∨ (s.serve e).st.Sane := by
  have cx : (s.serve e).cx = (s.entry e).processSegment e.env seg := by
    rw [serve, call]
  have limited := Cx.processSegment_limits e.env seg (s.entry e)
  have moved := Cx.processSegment_cwnd e.env seg (s.entry e) fun now =>
    sound.unused (by
      rw [show s.st.state = _ from now]
      rfl)
  rw [← cx] at limited moved
  have valid : (s.serve e).ended = true ∨ (s.serve e).st.limits.Valid := by
    cases limited with
    | halted halted => exact .inl (ended_of_halted halted)
    | kept s₁ read limits =>
        rw [show (s.serve e).st.limits = s₁.limits from limits]
        exact .inr (sound.reads ok call read)
    | synAcked from_ syn ack noRst s₁ read limits =>
        rw [show (s.serve e).st.limits = s₁.limits from limits]
        exact .inr (ok.options seg call ⟨syn, fun _ => ⟨ack, noRst⟩⟩ s₁ read)
  rcases valid with ended | valid
  · exact .inl ended
  cases moved with
  | halted halted => exact .inl (ended_of_halted halted)
  | kept cwnd =>
      refine .inr ⟨valid, ?_⟩
      rw [show (s.serve e).st.cwnd = s.st.cwnd from cwnd]
      exact sound.sane.cwnd
  | opened _ value =>
      refine .inr ⟨valid, ?_⟩
      rcases value with value | value
      · rw [show (s.serve e).st.cwnd = _ from value]
        exact valid.window.1
      · rw [show (s.serve e).st.cwnd = _ from value]
        exact valid.window.2
  | acked reaches s₁ read paced =>
      refine .inr ⟨valid, ?_⟩
      have sane := (windowed_sane sound.sane read (sound.reads ok call read)).1
      rw [show (s.serve e).st.cwnd = ((s₁.windowed seg).pacedBy seg).cwnd from
        congrArg Tuning.cwnd paced]
      exact (sane.paced seg fun few fresh =>
        ok.acks seg _ ⟨running, call, reaches, ⟨s₁, read, rfl⟩, few, fresh⟩).1

theorem packet_accounts (sound : s.Sound) (ok : s.PeerOk e) : Accounts s e (s.serve e) := by
  intro seg a acks
  obtain ⟨s₁, read, rfl⟩ := acks.read
  have call := acks.call
  have exact_ := ok.acks seg _ acks
  obtain ⟨sane, cwnd⟩ := windowed_sane sound.sane read (sound.reads ok call read)
  refine
    { divides := ⟨?_, (sane.growsFrom seg).1⟩
      ceiling := exact_.ceiling sane.limits.effMss
      product := fun avoids => ?_
      grows := ?_ }
  · have some_ := sane.limits.effMss
    change 0 < (s₁.windowed seg).effMss at some_
    omega
  · rw [exact_.credited]
    exact exact_.product avoids
  · have cx : (s.serve e).cx = (s.entry e).processSegment e.env seg := by
      rw [serve, call]
    have moved := Cx.processSegment_cwnd e.env seg (s.entry e) fun now =>
      sound.unused (by
        rw [show s.st.state = _ from now]
        rfl)
    rw [← cx] at moved
    cases moved with
    | halted halted => exact .inl (ended_of_halted halted)
    | kept kept =>
        refine .inr ?_
        rw [show (s.serve e).st.cwnd = s.st.cwnd from kept, cwnd]
        exact BitVec.le_refl _
    | opened early =>
        have reaches := acks.reaches
        exfalso
        revert early
        change s.st.state.isSyn = true → False
        unfold TcpStream.reachesAck at reaches
        revert reaches
        cases s.st.state <;> simp [TcpState.isSyn]
    | acked reaches s₂ read₂ paced =>
        have same : s₂ = s₁ := Option.some.inj (read₂.symm.trans read)
        rw [same] at paced
        refine .inr ?_
        rw [show (s.serve e).st.cwnd = ((s₁.windowed seg).pacedBy seg).cwnd from
          congrArg Tuning.cwnd paced]
        exact (sane.paced seg fun _ _ => exact_).2 acks.few acks.acksNew

/-- Between two segments only the retransmission timer sets the window. -/
theorem serve_cwnd (other : ∀ seg, e.call ≠ .packet seg) :
    (s.serve e).st.cwnd = s.st.cwnd ∨ (s.serve e).st.cwnd = BitVec.ofNat 32 s.st.mss := by
  have kept := (serve_congests s e other).2
  by_cases timer : e.call = .rto
  · unfold serve
    rw [timer]
    dsimp only
    split
    · exact Cx.handleRto_cwnd e.env _
    · exact .inl rfl
  · exact .inl (kept timer).cwnd

theorem step_sound (sound : s.ended = true ∨ s.Sound) (ok : s.PeerOk e) :
    ((s.step e).ended = true ∨ (s.step e).Sound) ∧ Accounts s e (s.step e) := by
  cases ended : s.ended with
  | true =>
      have stays := step_ended ended e
      refine ⟨.inl (by rw [stays, ended]), fun seg a acks => ?_⟩
      exact absurd (ended.symm.trans acks.running) (by decide)
  | false =>
      have steps := step_running ended e
      have sound := sound.resolve_left (by rw [ended]; decide)
      rw [steps]
      refine ⟨?_, packet_accounts sound ok⟩
      rcases serve_move s e with halted | move
      · exact .inl (ended_of_halted halted)
      have unused := move.unused sound.unused
      rcases e.packet_or_other with ⟨seg, call⟩ | other
      · rcases packet_sound sound ok ended call with over_ | sane
        · exact .inl over_
        · exact .inr ⟨sane, unused⟩
      · have limits : (s.serve e).st.limits = s.st.limits := serve_limits s e other
        refine .inr ⟨⟨by rw [limits]; exact sound.sane.limits, ?_⟩, unused⟩
        rcases serve_cwnd other with kept | reset
        · rw [kept]
          exact sound.sane.cwnd
        · rw [reset]
          exact sound.sane.limits.window.2

theorem Start.sound {n : Nat} (start : Start n s) (valid : s.st.limits.Valid) :
    s.ended = true ∨ s.Sound := by
  rcases start.handshaking with halted | handshaking
  · exact .inl (ended_of_halted halted)
  have unused : s.st.sndbuf.headSeq = s.st.iss + 1 := by
    rw [show s.st.sndbuf = _ from handshaking.view.buff]
    rfl
  suffices s.view.halted = true ∨ s.st.cwnd ≠ 0 from
    this.imp ended_of_halted fun cwnd => ⟨⟨valid, cwnd⟩, fun _ => unused⟩
  cases start with
  | passive rcvbufSize iss env seg syn =>
      rcases Cx.passiveOpen_cwnd env seg (c := { st := tcpStreamCreate rcvbufSize n seg.seq iss })
        rfl with halted | cwnd
      · exact .inl halted
      · refine .inr ?_
        rw [show (Conn.passive rcvbufSize n iss env seg).st.cwnd = 10 from cwnd]
        decide
  | active rcvbufSize iss env =>
      have queued := Cx.controlQueueAdd_paces env (Cx.modify
        { st := tcpStreamCreate rcvbufSize n 0 iss } fun s =>
          { s with cwnd := 1, ssthresh := BitVec.ofNat 32 (s.mss * 10), state := .synSent })
      refine .inr ?_
      rw [show (Conn.active rcvbufSize n iss env).st.cwnd = 1 from queued.cwnd]
      decide

/-- **The congestion arithmetic is sound** in every run in which the peer's options are valid and
its acknowledgements exact. -/
theorem congestion_sound {n : Nat} (start : Start n s) (valid : s.st.limits.Valid)
    (es : List ConnEvent) (allowed : Allowed step PeerOk s es) :
    Along step SoundWindow s es ∧ Each step Accounts s es := by
  have kept : ∀ (s : Conn) (e : ConnEvent), (s.ended = true ∨ s.Sound) → s.PeerOk e →
      ((s.step e).ended = true ∨ (s.step e).Sound) ∧ Accounts s e (s.step e) :=
    fun s e sound ok => step_sound sound ok
  constructor
  · have along := along_of_step (fun s e sound ok => (kept s e sound ok).1) es s
      (start.sound valid) allowed
    exact along.mono (fun s sound => sound.imp_right Sound.sane) es s
  · exact each_of_step kept es s (start.sound valid) allowed

/-- The peer opens the connection without options, takes one full segment and acknowledges it. -/
def oneSegment : List ConnEvent :=
  [{ call := .packet { seq := 100, ackSeq := 501, ack := true, window := 5000 } },
    { call := .send 1460 false, avail := 10 }, { call := .serveSend, avail := 10 },
    { call := .packet { seq := 100, ackSeq := 1961, ack := true, window := 5000 } }]

theorem congestion_sound_one :
    Along step SoundWindow (Conn.passive 32 8 500 {} { seq := 99, syn := true }) oneSegment ∧
      Each step Accounts (Conn.passive 32 8 500 {} { seq := 99, syn := true }) oneSegment := by
  have plain : ∀ (s : Conn) (e : ConnEvent), (∀ seg, e.call = .packet seg → seg.syn = false) →
      ∀ seg, e.call = .packet seg → s.ReadsOptions seg →
        ∀ s', s.st.readOptions e.env seg = some s' → s'.limits.Valid := by
    intro s e noSyn seg call reads
    have syn := reads.1
    rw [noSyn seg call] at syn
    cases syn
  have silent : ∀ (s : Conn) (e : ConnEvent), (∀ seg, e.call ≠ .packet seg) →
      ∀ seg a, s.Acknowledges e seg a → a.Exact seg :=
    fun s e other seg a acks => absurd acks.call (other seg)
  have quiet : ∀ (s : Conn) (e : ConnEvent), (∀ seg, e.call ≠ .packet seg) → s.PeerOk e :=
    fun s e other => ⟨plain s e fun seg call => absurd call (other seg), silent s e other⟩
  have sends : ∀ s : Conn, s.PeerOk { call := .send 1460 false, avail := 10 } :=
    fun s => quiet s _ fun _ call => ConnCall.noConfusion call
  have serves : ∀ s : Conn, s.PeerOk { call := .serveSend, avail := 10 } :=
    fun s => quiet s _ fun _ call => ConnCall.noConfusion call
  refine congestion_sound (n := 8) (.passive 32 500 {} { seq := 99, syn := true } rfl rfl)
    ⟨by decide +kernel, by decide +kernel, by decide +kernel⟩ _ ⟨⟨plain _ _ ?_, ?_⟩, sends _,
      serves _, ⟨plain _ _ ?_, ?_⟩, trivial⟩
  · intro seg call
    cases call
    rfl
  · intro seg a acks
    have call := acks.call
    have reaches := acks.reaches
    cases call
    exact absurd reaches (by decide +kernel)
  · intro seg call
    cases call
    rfl
  · intro seg a acks
    have call := acks.call
    obtain ⟨s', read, rfl⟩ := acks.read
    cases call
    rw [TcpStream.optioned_skips fun reads => Bool.false_ne_true reads.1] at read
    rw [← Option.some.inj read]
    exact
      { whole := by decide +kernel
        narrow := by decide +kernel
        product := fun _ => by decide +kernel
        slow := fun _ _ => by decide +kernel
        fast := by decide +kernel }

/-- A SYN that announces an MSS of 0. -/
def noMss : Segment :=
  { seq := 99, syn := true, doff := 6, options := fun i => [2, 4, 0, 0].getD i 0 }

theorem mss_zero : ¬ ∀ (n : Nat) (s : Conn), Start n s → ∀ es : List ConnEvent,
    Along step SoundWindow s es ∧ Each step Accounts s es := by
  intro always
  have along := (always 8 _ (.passive 32 500 {} noMss rfl rfl) []).1
  rcases along with ended | sane
  · exact absurd ended (by decide +kernel)
  · exact absurd sane.limits.mss.1 (by decide +kernel)

end Conn

end QStack
