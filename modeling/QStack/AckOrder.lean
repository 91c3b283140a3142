/-
# QStack.AckOrder -- what an acknowledgement may do to the send variables

Over every run, `snd_una` should not be after `snd_nxt`, nor that after the end of what
was ever sent; `snd_una` should never move back; and the acknowledgement of something
that was never sent should change nothing.

The code tests an acknowledgement against what is buffered, not against what was sent
(`ack_beyond_sent`), takes an old one when `head_seq` lags behind `snd_una`, and moves
`snd_nxt` by one for every FIN it sends.  `AckOk` excludes the segments and the FINs for
which this matters.
-/
import QStack.Opening
import QStack.SendOrder

namespace QStack

set_option autoImplicit false

namespace Conn

/-- One more than the highest sequence number the connection has sent. -/
def sndMax (s : Conn) : Seq := QStack.sndMax s.view.iss s.view.sent

structure SendOrdered (s : Conn) : Prop where
  una_nxt : tcpSeqLeq s.st.sndUna s.st.sndNxt = true
  nxt_max : tcpSeqLeq s.st.sndNxt s.sndMax = true

/-- A call does not move `snd_una` back, and the acknowledgement of what was never sent moves
nothing. -/
structure AckKept (s : Conn) (e : ConnEvent) (s' : Conn) : Prop where
  forward : tcpSeqLeq s.st.sndUna s'.st.sndUna = true
  unsent : ∀ seg, e.call = .packet seg → seg.ack = true → tcpSeqGt seg.ackSeq s.sndMax = true →
    s'.st.sndUna = s.st.sndUna ∧ s'.st.sndNxt = s.st.sndNxt ∧ s'.st.sndbuf = s.st.sndbuf

/-- The acknowledgements a segment may bring. -/
structure PacketOk (s : Conn) (seg : Segment) : Prop where
  full : ¬ s.BareAck seg
  synSent : s.st.state = .synRcvd → seg.ack = true → seg.ackSeq = s.st.iss + 1 →
    tcpSeqLeq seg.ackSeq s.sndMax = true
  inOrder : s.st.reachesAck seg = true →
    s.st.acksTooMuch (s.st.adjustAck seg.ackSeq) = false →
    InOrder s.st.core s.sndMax (s.st.fastRetransmits seg) (s.st.adjustAck seg.ackSeq)
  lastAck : s.st.state = .lastAck → s.st.reachesAck seg = true → s.st.isFinSent = true →
    seg.ackSeq = s.st.fss + 1 →
    tcpSeqLt s.st.fss s.st.sndNxt = true ∧ s.st.fastRetransmits seg = false

instance PacketOk.decidable (s : Conn) (seg : Segment) : Decidable (s.PacketOk seg) :=
  decidable_of_iff (¬ s.BareAck seg ∧
      (s.st.state = .synRcvd → seg.ack = true → seg.ackSeq = s.st.iss + 1 →
        tcpSeqLeq seg.ackSeq s.sndMax = true) ∧
      (s.st.reachesAck seg = true → s.st.acksTooMuch (s.st.adjustAck seg.ackSeq) = false →
        InOrder s.st.core s.sndMax (s.st.fastRetransmits seg) (s.st.adjustAck seg.ackSeq)) ∧
      (s.st.state = .lastAck → s.st.reachesAck seg = true → s.st.isFinSent = true →
        seg.ackSeq = s.st.fss + 1 →
        tcpSeqLt s.st.fss s.st.sndNxt = true ∧ s.st.fastRetransmits seg = false))
    ⟨fun h => ⟨h.1, h.2.1, h.2.2.1, h.2.2.2⟩, fun h => ⟨h.full, h.synSent, h.inOrder, h.lastAck⟩⟩

/-- Besides, a FIN is sent only while `snd_nxt` has not passed it, or lags behind. -/
def AckOk (s : Conn) (e : ConnEvent) : Prop :=
  match e.call with
  | .packet seg => s.PacketOk seg
  | .serveControl => s.st.onControlQueue = true → s.view.sendsFin = true →
      tcpSeqLeq s.st.sndNxt s.st.fss = true ∨ tcpSeqLt s.st.sndNxt s.sndMax = true
  | _ => True

instance AckOk.decidable (s : Conn) : ∀ e : ConnEvent, Decidable (s.AckOk e)
  | ⟨.packet seg, _, _⟩ => inferInstanceAs (Decidable (s.PacketOk seg))
  | ⟨.serveControl, _, _⟩ => inferInstanceAs (Decidable (_ → _ → _ ∨ _))
  | ⟨.send _ _, _, _⟩ | ⟨.recv, _, _⟩ | ⟨.close, _, _⟩ | ⟨.handleClose, _, _⟩ | ⟨.serveSend, _, _⟩
  | ⟨.serveAck, _, _⟩ | ⟨.rto, _, _⟩ | ⟨.timewait, _, _⟩ | ⟨.timeout, _, _⟩ => .isTrue trivial

/-! ## One segment, once the connection is open -/

section Data

variable {size : Nat} {s : Conn} {p : Marks} {seg : Segment}

/-- A segment moves the positions forward, and not beyond what was sent. -/
structure Advanced (size : Nat) (s : Conn) (p : Marks) (v : View) (p' : Marks) : Prop where
  ord : v.Ordered size p'
  forward : p.una ≤ p'.una
  known : p'.una ≤ p.max

theorem Advanced.same (ord : s.view.Ordered size p) : Advanced size s p s.view p :=
  ⟨ord, le_rfl, le_trans ord.una_nxt ord.nxt_max⟩

/-- The acknowledgement of our FIN lies just behind the buffer. -/
theorem finAck_sent (ord : s.view.Ordered size p) (fin : s.st.state.isFin = true)
    (sent : s.st.isFinSent = true) :
    s.st.fss + 1 = tcpSeqAt s.view.iss (p.next + 1) ∧ p.next + 1 ≤ p.max := by
  refine ⟨?_, ord.finSent sent⟩
  rw [← tcpSeqAt_succ]
  exact congrArg (· + 1) ((ord.fss fin).trans ord.next)

theorem ordered_acked (ord : s.view.Ordered size p) (small : size < 2 ^ 29) (ok : s.PacketOk seg)
    (reach : s.st.reachesAck seg = true) :
    ∃ p', QStack.Ordered size (s.st.acked seg) (QStack.sndMax s.view.iss s.view.sent) p' ∧
      p.una ≤ p'.una ∧ p'.max = p.max ∧ p'.next = p.next ∧
      (s.st.fastRetransmits seg = false →
        tcpSeqGt (s.st.adjustAck seg.ackSeq) s.st.sndNxt = false → p'.nxt = p.nxt) := by
  unfold TcpStream.acked
  cases much : s.st.acksTooMuch (s.st.adjustAck seg.ackSeq) with
  | true =>
      have same : s.st.core.onAck (s.st.fastRetransmits seg) (s.st.adjustAck seg.ackSeq) =
        s.st.core := if_pos much
      rw [same]
      exact ⟨p, ord, le_rfl, rfl, rfl, fun _ _ => rfl⟩
  | false => exact QStack.Ordered.onAck ord small much (ok.inOrder reach much)

theorem acked_iss (s : TcpStream) (seg : Segment) : (s.acked seg).iss = s.iss :=
  Core.onAck_iss _ _ _

/-- Positions of a view that a segment left behind. -/
theorem ordered_of_core {k : Core} {r : RcvCore} {d : Bool} {p' : Marks}
    (ord : QStack.Ordered size k (QStack.sndMax s.view.iss s.view.sent) p')
    (iss : k.iss = s.view.iss) :
    (((s.view.withCore k).withRcv r).withDestroyed d).Ordered size p' := by
  change QStack.Ordered size k (QStack.sndMax k.iss s.view.sent) p'
  rw [iss]
  exact ord

theorem data_advances (ord : s.view.Ordered size p) (small : size < 2 ^ 29) (ok : s.PacketOk seg)
    {k : Core} {d : Bool} {r : RcvCore} (move : DataMove s.st seg k d) :
    ∃ p', Advanced size s p
      (((s.view.withCore k).withRcv r).withDestroyed (d || s.view.destroyed)) p' := by
  have known := le_trans ord.una_nxt ord.nxt_max
  cases move with
  | same => exact ⟨p, ordered_of_core ord rfl, le_rfl, known⟩
  | moved state legal =>
      obtain ⟨fin, opened, acked⟩ := TcpState.follows_groups legal
      exact ⟨p, ordered_of_core (QStack.Ordered.withState ord state fin opened acked) rfl, le_rfl, known⟩
  | reset =>
      exact ⟨p, ordered_of_core (QStack.Ordered.withState ord .closed nofun nofun fun _ => rfl) rfl,
        le_rfl, known⟩
  | acked state reach legal =>
      obtain ⟨fin, opened, acked⟩ := TcpState.follows_groups legal
      obtain ⟨p', ord', forward, max, -⟩ := ordered_acked ord small ok reach
      rw [← Cx.acked_state s.st seg] at fin opened acked
      refine ⟨p', ordered_of_core (ord'.withState state fin opened acked) (acked_iss s.st seg), forward, ?_⟩
      rw [← max]
      exact le_trans ord'.una_nxt ord'.nxt_max
  | finWait1 state reach from_ sent finAcked legal =>
      obtain ⟨p', ord', -, max', next', -⟩ := ordered_acked ord small ok reach
      obtain ⟨value, sentFin⟩ := finAck_sent ord (by rw [from_]; rfl) sent
      rw [← next', ← max'] at sentFin
      have iss := acked_iss s.st seg
      have known' := ord'.nxt_max
      have maxUna := ord'.max_una
      have unaNxt := ord'.una_nxt
      have unaNext := ord'.una_succ
      have ack : seg.ackSeq = tcpSeqAt (s.st.acked seg).iss (p'.next + 1) := by
        rw [finAcked, value, iss, next']
        rfl
      have nxt : ((s.st.acked seg).recover seg.ackSeq).sndNxt =
          tcpSeqAt (s.st.acked seg).iss (max p'.nxt (p'.next + 1)) := by
        rw [Core.recover, ack, ord'.nxt, tcpSeqGt_at _ (by omega) (by omega)]
        by_cases more : p'.nxt < p'.next + 1
        · rw [if_pos (decide_eq_true more), Nat.max_eq_right more.le]
        · rw [if_neg (by simpa using more), Nat.max_eq_left (by omega)]
          exact ord'.nxt
      have groups : state.finAcked = true ∧ (state.isFin = true → (s.st.acked seg).state.isFin = true) := by
        rw [Cx.acked_state, from_]
        revert legal
        cases state <;> decide
      have ended := ord'.finAck ((Core.onAck_isFinSent _ _ _).trans sent)
        (Nat.le_max_right p'.nxt (p'.next + 1)) (Nat.max_le.mpr ⟨known', sentFin⟩) groups.1 groups.2
      rw [← nxt, ← ack] at ended
      have result : { (s.st.acked seg).recover seg.ackSeq with
          sndUna := seg.ackSeq, state := state } = { s.st.acked seg with
            sndUna := seg.ackSeq
            sndNxt := ((s.st.acked seg).recover seg.ackSeq).sndNxt
            state := state } := by
        unfold Core.recover
        split <;> rfl
      refine ⟨_, ordered_of_core (result ▸ ended) ?_, ?_, ?_⟩
      · rw [result]
        exact iss
      · change p.una ≤ p'.next + 1
        rw [next']
        exact QStack.Ordered.una_succ ord
      · change p'.next + 1 ≤ p.max
        rw [← max']
        exact sentFin
  | closing reach from_ sent finAcked =>
      obtain ⟨p', ord', -, max', next', -⟩ := ordered_acked ord small ok reach
      obtain ⟨value, sentFin⟩ := finAck_sent ord (by rw [from_]; rfl) sent
      rw [← next', ← max'] at sentFin
      have iss := acked_iss s.st seg
      have ack : seg.ackSeq = tcpSeqAt (s.st.acked seg).iss (p'.next + 1) := by
        rw [finAcked, value, iss, next']
        rfl
      have acked : TcpState.timeWait.finAcked = true := rfl
      have ended := ord'.finAck ((Core.onAck_isFinSent _ _ _).trans sent) le_rfl sentFin acked
        (fun _ => by rw [Cx.acked_state, from_]; rfl)
      rw [← ack] at ended
      refine ⟨_, ordered_of_core ended iss, ?_, ?_⟩
      · change p.una ≤ p'.next + 1
        rw [next']
        exact QStack.Ordered.una_succ ord
      · change p'.next + 1 ≤ p.max
        rw [← max']
        exact sentFin
  | lastAck reach from_ sent finAcked =>
      obtain ⟨p', ord', forward, max', next', stays⟩ := ordered_acked ord small ok reach
      obtain ⟨beyond, plain⟩ := ok.lastAck from_ reach sent finAcked
      have maxUna := ord.max_una
      have unaNxt := ord.una_nxt
      have nxtMax := ord.nxt_max
      have headUna := ord.head_una
      have nextHead := ord.next_head
      have unaNext := QStack.Ordered.una_succ ord
      have fss : s.st.fss = tcpSeqAt s.view.iss p.next :=
        (ord.fss (show s.st.state.isFin = true by rw [from_]; rfl)).trans ord.next
      have nxt : s.st.sndNxt = tcpSeqAt s.view.iss p.nxt := ord.nxt
      -- `snd_nxt` stands behind the FIN, and the acknowledgement does not move it
      have behind : p.next < p.nxt := by
        rw [fss, nxt, tcpSeqLt_at _ (by omega) (by omega), decide_eq_true_eq] at beyond
        exact beyond
      have adjusted : s.st.adjustAck seg.ackSeq = tcpSeqAt s.view.iss p.next := by
        rw [TcpStream.adjustAck, from_, sent, finAcked]
        simp [fss]
      have kept : p'.nxt = p.nxt := by
        refine stays plain ?_
        rw [adjusted, nxt, tcpSeqGt_at _ (by omega) (by omega), decide_eq_false_iff_not]
        omega
      have due : p'.una ≤ p'.next := by
        rcases ord'.una_next with le | ⟨late, -⟩
        · exact le
        · rw [Cx.acked_state, from_] at late
          cases late
      refine ⟨_, ordered_of_core (ord'.lastAck due (by omega)) (acked_iss s.st seg), ?_, ?_⟩
      · change p.una ≤ p'.una + 1
        omega
      · change p'.una + 1 ≤ p.max
        omega

/-- What a call does to the positions. -/
theorem move_advances (ord : s.view.Ordered size p) (small : size < 2 ^ 29) (late : s.Late)
    {e : ConnEvent} (ok : s.AckOk e) {v : View} (move : Move s e.call v) :
    ∃ p', Advanced size s p v p' := by
  have known := le_trans ord.una_nxt ord.nxt_max
  have room := ord.head_una
  unfold AckOk at ok
  generalize e.call = call at ok move
  cases move with
  | same => exact ⟨p, .same ord⟩
  | syn early _ =>
      exfalso
      have group : s.st.state.isOpen = true ∨ s.st.state.isFin = true ∨ s.st.state = .closed := late
      revert group early
      cases s.st.state <;> decide
  | data _ move => exact data_advances ord small ok move
  | put opened =>
      obtain ⟨e', ord'⟩ := QStack.Ordered.put ord small opened (s.offered _ _)
      exact ⟨_, ord', le_rfl, known⟩
  | received _ => exact ⟨p, ord, le_rfl, known⟩
  | closed _ move =>
      cases move with
      | same closed =>
          have notFin : s.view.state.isFin = true → False := by
            rw [closed]
            nofun
          exact ⟨p, { ord with fss := fun now => (notFin now).elim }, le_rfl, known⟩
      | reset =>
          exact ⟨p, { QStack.Ordered.withState ord .closed nofun nofun (fun _ => rfl) with
            fss := nofun }, le_rfl, known⟩
      | closing =>
          have groups : (s.view.state.afterClose.isOpen = true → s.view.state.isOpen = true) ∧
              (s.view.state.finAcked = true → s.view.state.afterClose.finAcked = true) := by
            cases s.view.state <;> decide
          exact ⟨p, { ord with
            una_next := ord.una_next.imp_right fun acked => ⟨groups.2 acked.1, acked.2⟩
            fss := fun _ => rfl
            open_ := fun opened => ord.open_ (groups.1 opened) }, le_rfl, known⟩
  | control queued move =>
      have notSyn : s.view.state ≠ .synSent ∧ s.view.state ≠ .synRcvd := by
        have group : s.view.state.isOpen = true ∨ s.view.state.isFin = true ∨
          s.view.state = .closed := late
        revert group
        cases s.view.state <;> decide
      cases move with
      | same => exact ⟨p, .same ord⟩
      | syn from_ => exact absurd from_ notSyn.1
      | rewound from_ => exact absurd from_ notSyn.2
      | synAck from_ => exact absurd from_ notSyn.2
      | fin sends =>
          have fin : s.view.state.isFin = true := by
            unfold Core.sendsFin at sends
            revert sends
            cases s.view.state <;> first | exact fun _ => rfl | nofun
          exact ⟨_, ord.finished small fin (ok queued sends), le_rfl, known⟩
  | flushed _ _ open_ _ flushed =>
      obtain ⟨p', ord', una⟩ := View.Ordered.flushed flushed small ord open_
      exact ⟨p', ord', una.ge, una.le.trans known⟩
  | rto _ move =>
      cases move with
      | lost tries =>
          exact ⟨p, QStack.Ordered.withState ord .closed nofun nofun fun _ => rfl, le_rfl, known⟩
      | retransmit tries data =>
          have rolled := QStack.Ordered.jump ord (.reset _) (le_refl p.una) (by omega) known
          rw [← show s.view.sndUna = _ from ord.una] at rolled
          exact ⟨_, rolled, le_rfl, known⟩
      | control tries _ _ =>
          have rolled := QStack.Ordered.jump ord (.refl _) (le_refl p.una) (by omega) known
          rw [← show s.view.sndUna = _ from ord.una] at rolled
          exact ⟨_, rolled, le_rfl, known⟩
  | expired _ =>
      exact ⟨p, QStack.Ordered.withState ord .closed nofun nofun fun _ => rfl, le_rfl, known⟩

/-- What was never sent is not acknowledged. -/
theorem data_unsent (ord : s.view.Ordered size p) (small : size < 2 ^ 29) (ok : s.PacketOk seg)
    {k : Core} {d : Bool} (move : DataMove s.st seg k d)
    (beyond : tcpSeqGt seg.ackSeq s.sndMax = true) :
    k.sndUna = s.st.sndUna ∧ k.sndNxt = s.st.sndNxt ∧ k.sndbuf = s.st.sndbuf := by
  -- the acknowledgement of our FIN is for something that was sent
  have noFin : s.st.state.isFin = true → s.st.isFinSent = true → seg.ackSeq ≠ s.st.fss + 1 := by
    intro fin sent finAcked
    obtain ⟨value, known⟩ := finAck_sent ord fin sent
    have maxUna := ord.max_una
    have unaNext := QStack.Ordered.una_succ ord
    rw [finAcked, value, show s.sndMax = _ from ord.max, tcpSeqGt_at _ (by omega) (by omega),
      decide_eq_true_eq] at beyond
    omega
  have ignored : s.st.reachesAck seg = true → s.st.acked seg = s.st.core := by
    intro reach
    have adjusted : s.st.adjustAck seg.ackSeq = seg.ackSeq ∨ s.st.state = .closeWait := by
      unfold TcpStream.adjustAck
      split
      all_goals
        first
        | exact .inr ‹_›
        | exact .inl rfl
        | split
          · rename_i now both
            rw [Bool.and_eq_true, beq_iff_eq] at both
            exact absurd both.2 (noFin (by rw [now]; rfl) both.1)
          · exact .inl rfl
    have value : s.st.adjustAck seg.ackSeq = seg.ackSeq := by
      rcases adjusted with same | now
      · exact same
      · have open_ : s.st.isFinSent = false :=
          ord.open_ (show s.st.state.isOpen = true by rw [now]; rfl)
        rw [TcpStream.adjustAck, now, open_]
        rfl
    cases much : s.st.acksTooMuch (s.st.adjustAck seg.ackSeq) with
    | true => exact if_pos much
    | false =>
        have sent := (ok.inOrder reach much).sent
        rw [value] at sent
        rw [tcpSeqGt_eq, show tcpSeqLeq seg.ackSeq s.sndMax = true from sent] at beyond
        cases beyond
  cases move with
  | same | moved | reset => exact ⟨rfl, rfl, rfl⟩
  | acked state reach _ =>
      rw [ignored reach]
      exact ⟨rfl, rfl, rfl⟩
  | finWait1 state _ from_ sent finAcked _ => exact absurd finAcked (noFin (by rw [from_]; rfl) sent)
  | closing _ from_ sent finAcked => exact absurd finAcked (noFin (by rw [from_]; rfl) sent)
  | lastAck _ from_ sent finAcked => exact absurd finAcked (noFin (by rw [from_]; rfl) sent)

end Data

/-! ## The handshake -/

section Handshake

variable {n : Nat} {s : Conn}

/-- A SYN occupies one sequence number. -/
theorem sndMax_syn {iss : Seq} : ∀ {sent : List Sent}, (∀ p ∈ sent, p = synPacket iss) →
    QStack.sndMax iss sent = if sent = [] then iss else iss + 1
  | [], _ => rfl
  | p :: older, syns => by
      have first : p.seqEnd = iss + 1 := by
        rw [syns p List.mem_cons_self]
        rfl
      rw [QStack.sndMax, first, sndMax_syn fun q inside => syns q (List.mem_cons_of_mem _ inside),
        if_neg (List.cons_ne_nil _ _)]
      split
      · rw [if_pos]
        simp [tcpSeqGt, Lib.Serial.gt]
      · simp

theorem Unacked.sendOrdered (inv : s.view.Unacked n) : s.SendOrdered := by
  have max : s.sndMax = if s.view.sent = [] then s.view.iss else s.view.iss + 1 :=
    sndMax_syn inv.sent
  have una : s.st.sndUna = s.view.iss := inv.una
  have step : ∀ a : Seq, tcpSeqLeq a (a + 1) = true := by
    intro a
    rw [tcpSeqLeq, Lib.Serial.leq_iff_toNat]
    exact .inr (by bv_omega)
  rcases inv.nxt with nxt | ⟨nxt, some⟩
  · have nxt' : s.st.sndNxt = s.view.iss := nxt
    refine ⟨by rw [una, nxt']; simp, ?_⟩
    rw [nxt', max]
    split
    · simp
    · exact step _
  · have nxt' : s.st.sndNxt = s.view.iss + 1 := nxt
    rw [if_neg some] at max
    exact ⟨by rw [una, nxt']; exact step _, by rw [nxt', max]; simp⟩

theorem Opened.ordered (opened : s.view.Opened n) (some : s.view.sent ≠ []) (small : 1400 * n < 2 ^ 29) :
    s.view.Ordered (1400 * n) { una := 1, nxt := 1, max := 1, head := 1, next := 1 } := by
  have max : QStack.sndMax s.view.iss s.view.sent = s.view.iss + 1 := by
    rw [sndMax_syn opened.sent, if_neg some]
  have one : tcpSeqAt s.view.iss 1 = s.view.iss + 1 := rfl
  have buff : s.view.sndbuf = SndBuff.zero.sbInit n (s.view.iss + 1) := opened.buff
  have group := opened.state
  exact
    { una := opened.una
      nxt := opened.nxt
      max := max
      head := by rw [buff]; rfl
      next := by rw [buff]; rfl
      una_nxt := le_rfl
      nxt_max := le_rfl
      max_una := by dsimp only; omega
      head_next := le_rfl
      next_head := by dsimp only; omega
      head_una := by dsimp only; omega
      una_next := .inl le_rfl
      room := by rw [buff]; rfl
      holds := ⟨[], [], by rw [buff]; exact SndBuff.sbInit_holds _ _ _, by rw [buff]; exact le_rfl⟩
      chain := fun _ => ⟨1, [], [], by rw [buff]; rfl, trivial, rfl, by dsimp only; omega⟩
      finSent := fun sent => by
        rw [show s.view.isFinSent = false from opened.finSent] at sent
        cases sent
      fss := fun fin => by
        revert fin group
        cases s.view.state <;> simp [TcpState.isOpen, TcpState.isFin]
      open_ := fun _ => opened.finSent }

/-- What was never sent is not acknowledged during the handshake either. -/
theorem syn_unsent (inv : s.view.Handshaking n) {seg : Segment} (ok : s.PacketOk seg) {v : View}
    (move : SynMove s.st seg s.view v) (ack : seg.ack = true)
    (beyond : tcpSeqGt seg.ackSeq s.sndMax = true) :
    v.sndUna = s.st.sndUna ∧ v.sndNxt = s.st.sndNxt ∧ v.sndbuf = s.st.sndbuf := by
  have max : s.sndMax = if s.view.sent = [] then s.view.iss else s.view.iss + 1 :=
    sndMax_syn inv.sent
  have answered : s.st.acceptsSynAck seg = true → False := by
    intro accepts
    obtain ⟨-, acked, -, some⟩ := acceptsSynAck_eq inv accepts
    rw [max, if_neg some, acked] at beyond
    simp [tcpSeqGt, Lib.Serial.gt] at beyond
  cases move with
  | same | listened | refused => exact ⟨rfl, rfl, rfl⟩
  | rstAcked _ _ accepts => exact (answered accepts).elim
  | bareAcked _ accepts => exact (answered accepts).elim
  | synAcked _ _ accepts => exact (answered accepts).elim
  | simultaneous _ _ noAck =>
      rw [ack] at noAck
      cases noAck
  | noAck _ noAck =>
      rw [ack] at noAck
      cases noAck
  | acked st k r from_ _ exact_ =>
      rw [tcpSeqGt_eq, ok.synSent from_ ack exact_] at beyond
      cases beyond

end Handshake

/-! ## Runs -/

/-- The invariant of a run. -/
def AckInv (n : Nat) (s : Conn) : Prop :=
  s.view.halted = true ∨ s.Handshaking n ∨ (s.view.destroyed = true ∧ s.view.Unacked n) ∨
    (s.Late ∧ ∃ p, s.view.Ordered (1400 * n) p)

theorem AckInv.sendOrdered {n : Nat} {s : Conn} (inv : s.AckInv n) (small : 1400 * n < 2 ^ 29) :
    s.view.halted = true ∨ s.SendOrdered := by
  rcases inv with halted | handshaking | ⟨-, unacked⟩ | ⟨-, p, ord⟩
  · exact .inl halted
  · exact .inr (Unacked.sendOrdered handshaking.view.toUnacked)
  · exact .inr (Unacked.sendOrdered unacked)
  · have unaNxt := ord.una_nxt
    have nxtMax := ord.nxt_max
    have maxUna := ord.max_una
    refine .inr ⟨?_, ?_⟩
    · rw [show s.st.sndUna = _ from ord.una, show s.st.sndNxt = _ from ord.nxt,
        tcpSeqLeq_at _ (by omega) (by omega), decide_eq_true_eq]
      exact unaNxt
    · rw [show s.st.sndNxt = _ from ord.nxt, show s.sndMax = _ from ord.max,
        tcpSeqLeq_at _ (by omega) (by omega), decide_eq_true_eq]
      exact nxtMax

theorem ackOk_packet {s : Conn} {e : ConnEvent} (ok : s.AckOk e) {seg : Segment}
    (call : e.call = .packet seg) : s.PacketOk seg := by
  unfold AckOk at ok
  rw [call] at ok
  exact ok

theorem handshake_step {n : Nat} (small : 1400 * n < 2 ^ 29) {s : Conn} {e : ConnEvent}
    (inv : s.Handshaking n) (ok : s.AckOk e) (move : Move s e.call (s.serve e).view) :
    (s.serve e).AckInv n ∧ ((s.serve e).view.halted = true ∨ AckKept s e (s.serve e)) := by
  have iss : (s.serve e).view.iss = s.view.iss := move.iss
  have una : s.st.sndUna = s.view.iss := inv.view.una
  have unsent : ∀ seg, e.call = .packet seg → seg.ack = true →
      tcpSeqGt seg.ackSeq s.sndMax = true → (s.serve e).st.sndUna = s.st.sndUna ∧
        (s.serve e).st.sndNxt = s.st.sndNxt ∧ (s.serve e).st.sndbuf = s.st.sndbuf := by
    intro seg call ack beyond
    have packet := ackOk_packet ok call
    change (s.serve e).view.sndUna = _ ∧ (s.serve e).view.sndNxt = _ ∧ (s.serve e).view.sndbuf = _
    rw [call] at move
    generalize (s.serve e).view = v at move
    cases move with
    | same => exact ⟨rfl, rfl, rfl⟩
    | syn _ move => exact syn_unsent inv.view packet move ack beyond
    | data late _ =>
        have early := inv.view.early
        change s.st.state = .synSent ∨ s.st.state = .synRcvd at early
        rcases early with now | now
        · rw [now] at late
          rcases late with late | late <;> cases late
        · rw [now] at late
          rcases late with late | late <;> cases late
    | expired timer => rcases timer with timer | timer <;> cases timer
  have kept : ∀ value : (s.serve e).view.sndUna = (s.serve e).view.iss ∨
      (s.serve e).view.sndUna = (s.serve e).view.iss + 1, AckKept s e (s.serve e) := by
    intro value
    refine ⟨?_, unsent⟩
    rw [una]
    change tcpSeqLeq s.view.iss (s.serve e).view.sndUna = true
    rcases value with same | next
    · rw [same, iss]
      simp
    · rw [next, iss, tcpSeqLeq, Lib.Serial.leq_iff_toNat]
      exact .inr (by bv_omega)
  rcases inv.serve (fun seg call => (ackOk_packet ok call).full) with
    halted | handshaking | ⟨-, -, gone, unacked⟩ | ⟨-, opened, sent, answered⟩
  · exact ⟨.inl halted, .inl halted⟩
  · exact ⟨.inr (.inl handshaking), .inr (kept (.inl handshaking.view.una))⟩
  · exact ⟨.inr (.inr (.inl ⟨gone, unacked⟩)), .inr (kept (.inl unacked.una))⟩
  · have some : (s.serve e).view.sent ≠ [] := by
      rw [sent]
      rcases answered with some | ⟨seg, call, now, ack, exact_⟩
      · exact some
      · intro none
        have known := (ackOk_packet ok call).synSent now ack exact_
        rw [exact_, Conn.sndMax, none] at known
        change tcpSeqLeq (s.st.iss + 1) s.st.iss = true at known
        rw [tcpSeqLeq, Lib.Serial.leq_iff_toNat] at known
        rcases known with same | far
        · bv_omega
        · bv_omega
    refine ⟨.inr (.inr (.inr ⟨opened.state.imp_right .inr, _, Opened.ordered opened some small⟩)), ?_⟩
    exact .inr (kept (.inr opened.una))

theorem step_ackInv {n : Nat} (small : 1400 * n < 2 ^ 29) (s : Conn) (e : ConnEvent)
    (inv : s.AckInv n) (ok : s.AckOk e) :
    (s.step e).AckInv n ∧ ((s.step e).view.halted = true ∨ AckKept s e (s.step e)) := by
  unfold step
  split
  · exact ⟨inv, .inr ⟨by simp, fun _ _ _ _ => ⟨rfl, rfl, rfl⟩⟩⟩
  · rename_i running
    rcases serve_move s e with halted | move
    · exact ⟨.inl halted, .inl halted⟩
    rcases inv with halted | handshaking | ⟨gone, -⟩ | ⟨late, p, ord⟩
    · rw [ended, halted] at running
      exact absurd rfl running
    · exact handshake_step small handshaking ok move
    · rw [ended, gone, Bool.or_true] at running
      exact absurd rfl running
    · obtain ⟨p', advanced⟩ := move_advances ord small late ok move
      obtain ⟨-, -, group⟩ := late.move move
      refine ⟨.inr (.inr (.inr ⟨group, p', advanced.ord⟩)), .inr ⟨?_, ?_⟩⟩
      · have maxUna := ord.max_una
        have forward := advanced.forward
        have known := advanced.known
        rw [show s.st.sndUna = _ from ord.una, show (s.serve e).st.sndUna = _ from advanced.ord.una,
          show (s.serve e).view.iss = s.view.iss from move.iss,
          tcpSeqLeq_at _ (by omega) (by omega), decide_eq_true_eq]
        exact forward
      · intro seg call ack beyond
        have packet := ackOk_packet ok call
        rw [call] at move
        change (s.serve e).view.sndUna = _ ∧ (s.serve e).view.sndNxt = _ ∧
          (s.serve e).view.sndbuf = _
        generalize (s.serve e).view = v at move
        cases move with
        | same => exact ⟨rfl, rfl, rfl⟩
        | syn early _ =>
            exfalso
            have state : s.st.state.isOpen = true ∨ s.st.state.isFin = true ∨ s.st.state = .closed :=
              late
            revert state early
            cases s.st.state <;> decide
        | data _ move => exact data_unsent ord small packet move beyond
        | expired timer => rcases timer with timer | timer <;> cases timer

/-- **ACK acceptance.**  With a send buffer below 2^29 bytes, in a run whose acknowledgements
are in order and whose FINs are due, the send variables stay in order, `snd_una` never moves back,
and what was never sent is never acknowledged. -/
theorem ack_order {n : Nat} (small : 1400 * n < 2 ^ 29) {s : Conn} (start : Start n s)
    (es : List ConnEvent) (ok : Lib.Run.Allowed step AckOk s es) :
    Lib.Run.Along step (fun s => s.view.halted = true ∨ s.SendOrdered) s es ∧
      Lib.Run.Each step (fun s e s' => s'.view.halted = true ∨ AckKept s e s') s es := by
  have first : s.AckInv n := start.handshaking.imp_right .inl
  constructor
  · have along := Lib.Run.along_of_step (fun s e inv ok => (step_ackInv small s e inv ok).1) es s
      first ok
    exact Lib.Run.Along.mono (fun s inv => AckInv.sendOrdered inv small) es s along
  · exact Lib.Run.each_of_step (step_ackInv small) es s first ok

/-- A connect call that is answered; then 1000 bytes, sent and acknowledged. -/
def ackedRun : List ConnEvent :=
  [{ call := .serveControl, avail := 1 },
   { call := .packet { seq := 7000, ackSeq := 101, syn := true, ack := true, window := 65535 } },
   { call := .send 1000 false },
   { call := .serveSend },
   { call := .packet { seq := 7001, ackSeq := 1101, ack := true, window := 65535 } }]

theorem ack_order_ackedRun :
    Lib.Run.Along step (fun s => s.view.halted = true ∨ s.SendOrdered) (active 4 4 100 {}) ackedRun ∧
      Lib.Run.Each step (fun s e s' => s'.view.halted = true ∨ AckKept s e s')
        (active 4 4 100 {}) ackedRun :=
  ack_order (by decide) (.active 4 100 {}) ackedRun (by decide +kernel)

/-- The 1000 bytes are buffered but not sent when half of them is acknowledged. -/
def unsentRun : List ConnEvent :=
  [{ call := .serveControl, avail := 1 },
   { call := .packet { seq := 7000, ackSeq := 101, syn := true, ack := true, window := 65535 } },
   { call := .send 1000 false },
   { call := .packet { seq := 7001, ackSeq := 601, ack := true, window := 65535 } }]

/-- Nothing beyond 101 was sent, and `snd_una` becomes 601. -/
theorem ack_beyond_sent :
    ¬ (Lib.Run.Along step (fun s => s.view.halted = true ∨ s.SendOrdered)
        (active 4 4 100 {}) unsentRun ∧
      Lib.Run.Each step (fun s e s' => s'.view.halted = true ∨ AckKept s e s')
        (active 4 4 100 {}) unsentRun) := by
  rintro ⟨-, -, -, -, halted | kept, -⟩
  · revert halted
    decide +kernel
  · have same := (kept.unsent _ rfl rfl (by decide +kernel)).1
    revert same
    decide +kernel

end Conn

end QStack
