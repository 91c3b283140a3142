/- # QStack.PeerLimits -- where mss, eff_mss and wscale_peer come from

The three limits that the peer sets are read from the options of a SYN, in every state but
SYN_SENT as soon as the segment is found a stream, and in SYN_SENT when the SYN-ACK is accepted.
Nothing else changes them (`processSegment_limits`).
-/
import QStack.WindowUpdate

namespace QStack

set_option autoImplicit false

structure Limits where
  mss : Nat
  effMss : Nat
  wscalePeer : Nat
deriving DecidableEq, Repr

namespace TcpStream

def limits (s : TcpStream) : Limits :=
  { mss := s.mss, effMss := s.effMss, wscalePeer := s.wscalePeer }

/-- The options of a segment, read into a stream. -/
def readOptions (s : TcpStream) (env : Env) (seg : Segment) : Option TcpStream :=
  parseTcpOptions env.curTs seg.options (seg.doff * 4 - 20) (seg.doff * 4 - 20 + 1) 0 s

theorem optioned_reads {s : TcpStream} {env : Env} {seg : Segment}
    (reads : seg.syn = true ∧ s.state ≠ .synSent) : s.optioned env seg = s.readOptions env seg :=
  if_pos (by simpa using reads)

theorem optioned_skips {s : TcpStream} {env : Env} {seg : Segment}
    (skips : ¬ (seg.syn = true ∧ s.state ≠ .synSent)) : s.optioned env seg = some s :=
  if_neg (by simpa using skips)

theorem limits_of_tuning {s s' : TcpStream} (pace : s'.tuning = s.tuning) :
    s'.limits = s.limits := by
  simp only [tuning, Tuning.mk.injEq] at pace
  simp only [limits, pace]

/-- An acknowledgement leaves them alone. -/
theorem AckTuned.limits {s s' : TcpStream} {seg : Segment} (tuned : s.AckTuned seg s'.tuning) :
    s'.limits = s.limits := by
  cases much : s.acksTooMuch (s.adjustAck seg.ackSeq) with
  | true => exact limits_of_tuning (tuned.tooMuch much)
  | false =>
      obtain ⟨cwnd, ssthresh, value⟩ := tuned.counts much
      have counted : (s.counted seg).limits = s.limits := by
        unfold counted countDupAck updateWindow
        split <;> split <;> rfl
      rw [← counted]
      simp only [tuning, Tuning.congested, Tuning.mk.injEq] at value
      simp only [TcpStream.limits, value]

end TcpStream

theorem map_limits_ite {p : Prop} [Decidable p] {a a' b b' : Option TcpStream}
    (pos : a'.map TcpStream.limits = a.map TcpStream.limits)
    (neg : b'.map TcpStream.limits = b.map TcpStream.limits) :
    (if p then a' else b').map TcpStream.limits = (if p then a else b).map TcpStream.limits := by
  split
  · exact pos
  · exact neg

/-- What the options leave depends on the limits only. -/
theorem parseTcpOptions_limits (curTs : U32) (opt : Nat → Nat) (len : Nat) :
    ∀ (rounds i : Nat) {s s' : TcpStream}, s'.limits = s.limits →
      (parseTcpOptions curTs opt len rounds i s').map TcpStream.limits =
        (parseTcpOptions curTs opt len rounds i s).map TcpStream.limits := by
  intro rounds
  induction rounds with
  | zero => exact fun _ _ _ same => congrArg some same
  | succ rounds ih =>
      intro i s s' same
      have done : (some s').map TcpStream.limits = (some s).map TcpStream.limits :=
        congrArg some same
      -- the two options that are limits; the others leave the limits as they are
      have mss : ({ s' with
          mss := opt (i + 2) * 256 + opt (i + 3)
          effMss := opt (i + 2) * 256 + opt (i + 3) } : TcpStream).limits =
          ({ s with
            mss := opt (i + 2) * 256 + opt (i + 3)
            effMss := opt (i + 2) * 256 + opt (i + 3) } : TcpStream).limits :=
        congrArg (Limits.mk _ _) (congrArg Limits.wscalePeer same)
      have wscale : ({ s' with wscalePeer := opt (i + 2) } : TcpStream).limits =
          ({ s with wscalePeer := opt (i + 2) } : TcpStream).limits :=
        congrArg (fun l : Limits => { l with wscalePeer := opt (i + 2) }) same
      unfold parseTcpOptions
      refine map_limits_ite done (map_limits_ite done (map_limits_ite (ih _ same) ?_))
      refine map_limits_ite done (map_limits_ite (ih _ mss) (map_limits_ite (ih _ wscale) ?_))
      exact map_limits_ite (ih _ same) (map_limits_ite (ih _ same) (map_limits_ite rfl (ih _ same)))

namespace Cx

/-- The limits are as they were. -/
def KeepsLimits (c c' : Cx) : Prop := c'.st.limits = c.st.limits

section Rules

variable {c c' c'' : Cx} {seg : Segment} {acks : Bool}

theorem Paces.limits (paces : c.Paces c') : c.KeepsLimits c' := TcpStream.limits_of_tuning paces

theorem KeepsLimits.trans (first : c.KeepsLimits c') (second : c'.KeepsLimits c'') :
    c.KeepsLimits c'' := Eq.trans second first

theorem KeepsLimits.modify (c : Cx) {f : TcpStream → TcpStream}
    (kept : (f c.st).limits = c.st.limits) : c.KeepsLimits (c.modify f) := kept

theorem Congests.limits (congests : c.Congests c') : c.KeepsLimits c' := by
  obtain ⟨cwnd, ssthresh, value⟩ := congests
  simp only [TcpStream.tuning, Tuning.congested, Tuning.mk.injEq] at value
  simp only [KeepsLimits, TcpStream.limits, value]

theorem Tunes.limits (tunes : Tunes acks seg c c') : c.KeepsLimits c' := by
  rcases tunes with ⟨-, tuned⟩ | ⟨paces, -⟩
  · exact tuned.limits
  · exact paces.limits

end Rules

section Handshake

variable (env : Env) (seg : Segment) (c : Cx)

theorem handleSynRcvd_limits : c.KeepsLimits (c.handleSynRcvd env seg) := by
  unfold handleSynRcvd
  split
  · split
    · exact (Paces.refl c).limits
    · dsimp only
      refine KeepsLimits.trans ?_ (raiseAcceptEvent_paces env _).limits
      refine KeepsLimits.trans ?_ (Paces.emit _ _).limits
      refine KeepsLimits.trans ?_ (Paces.modify _ rfl).limits
      refine KeepsLimits.trans ?_ (rtoListRemove_paces _).limits
      exact .modify c rfl
  · exact ((Paces.modify c rfl).trans (controlQueueAdd_paces env _)).limits

/-- The SYN-ACK: its options are read. -/
theorem handleActiveOpen_limits :
    (c.handleActiveOpen env seg).view.halted = true ∨
      ∃ s, c.st.readOptions env seg = some s ∧
        (c.handleActiveOpen env seg).st.limits = s.limits := by
  unfold handleActiveOpen
  dsimp only
  generalize opening : c.modify _ = c₁
  have kept : c₁.st.limits = c.st.limits := by
    rw [← opening]
    rfl
  have readsAlike := parseTcpOptions_limits env.curTs seg.options (seg.doff * 4 - 20)
    (seg.doff * 4 - 20 + 1) 0 kept
  rcases andThen_cases (c₁.parseOptions env seg) (fun c =>
    let c := c.modify fun s =>
      { s with
        cwnd := BitVec.ofNat 32 (if s.cwnd = 1 then s.mss * 2 else s.mss)
        ssthresh := BitVec.ofNat 32 (s.mss * 10)
        nrtx := 0 }
    let c := c.rtoListRemove.modify fun s => { s with state := .established }
    c.emit (.established c.st)) with ⟨halted, same⟩ | ⟨running, same⟩
  · rw [same]
    exact .inl halted
  · rw [same]
    refine .inr ?_
    have parsed : ∃ s, c.st.readOptions env seg = some s ∧
        (c₁.parseOptions env seg).st.limits = s.limits := by
      unfold parseOptions TcpStream.readOptions at *
      dsimp only at *
      generalize parseTcpOptions env.curTs seg.options (seg.doff * 4 - 20)
        (seg.doff * 4 - 20 + 1) 0 c₁.st = read₁ at readsAlike running ⊢
      generalize parseTcpOptions env.curTs seg.options (seg.doff * 4 - 20)
        (seg.doff * 4 - 20 + 1) 0 c.st = read at readsAlike ⊢
      cases read₁ with
      | none => cases running
      | some s₁ =>
          cases read with
          | none => cases readsAlike
          | some s => exact ⟨s, rfl, Option.some.inj readsAlike⟩
    obtain ⟨s, read, value⟩ := parsed
    refine ⟨s, read, ?_⟩
    rw [← value]
    dsimp only
    have removed := (rtoListRemove_paces ((c₁.parseOptions env seg).modify fun s =>
      { s with
        cwnd := BitVec.ofNat 32 (if s.cwnd = 1 then s.mss * 2 else s.mss)
        ssthresh := BitVec.ofNat 32 (s.mss * 10)
        nrtx := 0 })).limits
    exact removed

theorem handleActiveOpen_state :
    (c.handleActiveOpen env seg).view.halted = true ∨
      (c.handleActiveOpen env seg).st.state = .established := by
  unfold handleActiveOpen
  dsimp only
  unfold andThen
  split
  · rename_i halted
    exact .inl halted
  · exact .inr rfl

/-- In SYN_SENT the options are read when the SYN-ACK is accepted. -/
theorem handleSynSent_limits :
    (c.handleSynSent env seg).view.halted = true ∨ c.KeepsLimits (c.handleSynSent env seg) ∨
      (seg.syn = true ∧ seg.ack = true ∧ seg.rst = false ∧
        ∃ s, c.st.readOptions env seg = some s ∧
          (c.handleSynSent env seg).st.limits = s.limits ∧
          (c.handleSynSent env seg).st.state = .established) := by
  unfold handleSynSent
  split
  · split
    · exact .inr (.inl rfl)
    · exact .inl rfl
  dsimp only
  have kept : (if seg.ack = true then c.modify fun s => { s with sndUna := s.sndUna + 1 }
      else c).st.limits = c.st.limits := by
    split <;> rfl
  generalize (if seg.ack = true then c.modify fun s => { s with sndUna := s.sndUna + 1 }
    else c) = c₁ at kept ⊢
  have steady : ∀ {c' : Cx}, c₁.KeepsLimits c' → c.KeepsLimits c' :=
    fun same => KeepsLimits.trans (c := c) kept same
  cases rst : seg.rst with
  | true =>
      rw [if_pos rfl]
      refine .inr (.inl (steady ?_))
      split
      · split
        · exact KeepsLimits.trans (.modify c₁ rfl) (raiseEvent_paces _ _).limits
        · exact rfl
      · exact rfl
  | false =>
      rw [if_neg Bool.false_ne_true]
      cases syn : seg.syn with
      | false =>
          rw [if_neg Bool.false_ne_true]
          exact .inr (.inl (steady rfl))
      | true =>
          rw [if_pos rfl]
          cases ack : seg.ack with
          | false =>
              rw [if_neg Bool.false_ne_true]
              exact .inr (.inl (steady
                (KeepsLimits.trans (.modify c₁ rfl) (controlQueueAdd_paces env _).limits)))
          | true =>
              rw [if_pos rfl]
              have alike := parseTcpOptions_limits env.curTs seg.options (seg.doff * 4 - 20)
                (seg.doff * 4 - 20 + 1) 0 kept
              have opened := handleActiveOpen_limits env seg c₁
              have state := handleActiveOpen_state env seg c₁
              generalize c₁.handleActiveOpen env seg = c₂ at opened state
              unfold andThen
              split
              · rename_i halted
                exact .inl halted
              rename_i running
              obtain ⟨s₁, read₁, value⟩ := opened.resolve_left running
              dsimp only
              split
              · refine .inr (.inr ⟨rfl, rfl, rfl, ?_⟩)
                unfold TcpStream.readOptions at read₁ ⊢
                rw [read₁] at alike
                cases read : parseTcpOptions env.curTs seg.options (seg.doff * 4 - 20)
                    (seg.doff * 4 - 20 + 1) 0 c.st with
                | none =>
                    rw [read] at alike
                    cases alike
                | some s =>
                    rw [read] at alike
                    have paces := ((raiseEvent_paces c₂ .write).trans
                      (controlQueueAdd_paces env _)).trans (timeoutListAdd_paces env _)
                    have view : (((c₂.raiseEvent .write).controlQueueAdd env).timeoutListAdd
                        env).view = c₂.view := by
                      rw [view_timeoutListAdd, view_controlQueueAdd, view_raiseEvent]
                    refine ⟨s, rfl, ?_, ?_⟩
                    · have same : s₁.limits = s.limits := Option.some.inj alike
                      exact (Eq.trans paces.limits value).trans same
                    · exact (congrArg (fun v : View => v.state) view).trans
                        (state.resolve_left running)
              · exact .inl rfl

end Handshake

/-- What a segment does to the limits. -/
inductive LimitMove (c : Cx) (env : Env) (seg : Segment) (c' : Cx) : Prop
  | halted (halted : c'.view.halted = true)
  | kept (s : TcpStream) (read : c.st.optioned env seg = some s) (limits : c'.st.limits = s.limits)
  | synAcked (from_ : c.st.state = .synSent) (syn : seg.syn = true) (ack : seg.ack = true)
      (noRst : seg.rst = false) (s : TcpStream) (read : c.st.readOptions env seg = some s)
      (limits : c'.st.limits = s.limits) (now : c'.st.state = .established)

/-- **The limits change through the options of a SYN, and in no other way.** -/
theorem processSegment_limits (env : Env) (seg : Segment) (c : Cx) :
    LimitMove c env seg (c.processSegment env seg) := by
  cases processSegment_admission env seg c with
  | halted halted => exact .halted halted
  | dropped s read beyond outside paces => exact .kept s read (TcpStream.limits_of_tuning paces)
  | admitted s read inside c₁ st view result =>
      have now : c₁.st.state = c.st.state := congrArg (fun v : View => v.state) view
      have limits : c₁.st.limits = s.limits := by
        rw [st]
        rfl
      have kept : ∀ {c' : Cx}, c₁.KeepsLimits c' → LimitMove c env seg c' :=
        fun same => .kept s read (Eq.trans same limits)
      rw [result, ← now]
      clear result
      cases rst : (seg.rst && decide (TcpState.synSent.val < c₁.st.state.val)) with
      | true =>
          rw [if_pos rfl]
          exact kept (handleRst_paces c₁ seg).limits
      | false =>
          rw [if_neg Bool.false_ne_true]
          unfold handleSegment
          cases state : c₁.st.state with
          | listen => exact kept (handleListen_paces env c₁ seg).limits
          | synSent =>
              have from_ : c.st.state = .synSent := now.symm.trans state
              dsimp only
              rcases handleSynSent_limits env seg c₁ with halted | same | ⟨syn, ack, noRst, later⟩
              · exact .halted halted
              · exact kept same
              · obtain ⟨s₁, read₁, value, opened⟩ := later
                have unread : s = c.st := by
                  have skipped : c.st.optioned env seg = some c.st :=
                    TcpStream.optioned_skips fun reads => reads.2 from_
                  exact Option.some.inj (read.symm.trans skipped)
                rw [unread] at limits
                have alike := parseTcpOptions_limits env.curTs seg.options (seg.doff * 4 - 20)
                  (seg.doff * 4 - 20 + 1) 0 limits
                unfold TcpStream.readOptions at read₁
                rw [read₁] at alike
                cases again : c.st.readOptions env seg with
                | none =>
                    rw [TcpStream.readOptions] at again
                    rw [again] at alike
                    cases alike
                | some s₂ =>
                    have found := again
                    rw [TcpStream.readOptions] at again
                    rw [again] at alike
                    exact .synAcked from_ syn ack noRst s₂ found
                      (value.trans (Option.some.inj alike)) opened
          | synRcvd =>
              dsimp only
              split
              · exact kept (handleListen_paces env c₁ seg).limits
              · have first := handleSynRcvd_limits env seg c₁
                generalize c₁.handleSynRcvd env seg = c₂ at first ⊢
                unfold andThen
                split
                · rename_i halted
                  exact .halted halted
                · dsimp only
                  split
                  · exact kept (first.trans (handleEstablished_tunes env c₂ seg).limits)
                  · exact kept first
          | established => exact kept (handleEstablished_tunes env c₁ seg).limits
          | closeWait => exact kept (handleCloseWait_tunes env c₁ seg).limits
          | lastAck => exact kept (handleLastAck_tunes env c₁ seg).limits
          | finWait1 => exact kept (handleFinWait1_tunes env c₁ seg).limits
          | finWait2 => exact kept (handleFinWait2_tunes env c₁ seg).limits
          | closing => exact kept (handleClosing_tunes env c₁ seg).limits
          | timeWait => exact kept (handleTimeWait_paces env c₁).limits
          | closed => exact kept rfl

end Cx

/-- Between two segments the limits stay. -/
theorem Conn.serve_limits (s : Conn) (e : ConnEvent) (other : ∀ seg, e.call ≠ .packet seg) :
    (s.serve e).st.limits = s.st.limits := (s.serve_congests e other).1.limits

end QStack
