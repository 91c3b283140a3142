/- # QStack.OrderlyClose -- the FIN and the data before it

When the application closes, what it has handed over should go out before the FIN, be sent again if
it is lost, and the FIN should have the sequence number behind it, every time it is sent.  The code
sends the FIN as soon as the control queue is served: whatever waits or is not acknowledged by then
stays behind, since `flush_tcp_sending_buffer` returns at once when `is_fin_sent` is set
(`data_behind_fin`), and each further FIN moves `snd_nxt` by one.

`orderly_close` says when it is right: a FIN is sent when the buffer is empty and `snd_nxt` has not
passed `fss`, and nothing else has moved `snd_nxt` beyond it.  That an empty buffer means that
everything was sent comes from the accounts of the buffer (`QStack.SendAccounts`).
-/
import QStack.Retransmission
import QStack.SendAccounts

namespace QStack

set_option autoImplicit false

/-! ## The statement -/

namespace Conn

/-- Some continuation of the run transmits the mbuf again. -/
def Retransmittable (s : Conn) (id : MbufId) : Prop :=
  ∃ es newer, (Lib.Run.run step s es).view.halted = false ∧
    (Lib.Run.run step s es).view.sent = newer ++ s.view.sent ∧ ∃ p ∈ newer, p.data = some id

structure OrderlyClose (s : Conn) : Prop where
  /-- everything accepted is transmitted before the FIN -/
  dataFirst : ∀ newer fin older, s.view.sent = newer ++ fin :: older → fin.fin = true →
    ∀ a ∈ s.accepted, Carried a older
  /-- what is not acknowledged can be sent again after the FIN -/
  dataStays : s.st.isFinSent = true → s.ended = false →
    ∀ a ∈ s.accepted, a.1 ∈ s.acked ∨ s.Retransmittable a.1
  /-- every FIN has the sequence number behind the last byte -/
  finSeq : ∀ fin ∈ s.view.sent, fin.fin = true → fin.seq = s.st.fss ∧
    s.st.fss = tcpSeqAt s.st.iss (1 + octets s.accepted)
  /-- `snd_nxt` stays at the FIN or behind it -/
  bounded : s.st.state.isFin = true ∨ s.st.isFinSent = true →
    tcpSeqLeq s.st.sndNxt (s.st.fss + 1) = true

/-- A FIN is sent with the buffer empty and `snd_nxt` not beyond `fss`.  Besides, `snd_nxt` has not
passed the FIN when the stream is closed, no flush takes it there afterwards, and no segment
acknowledges the number that lies half the sequence space away from the end of the buffer. -/
def OrderlyOk (s : Conn) (e : ConnEvent) : Prop :=
  match e.call with
  | .packet seg => ¬ s.BareAck seg ∧
      (s.st.reachesAck seg = true → s.st.acksTooMuch (s.st.adjustAck seg.ackSeq) = false →
        tcpSeqLeq (s.st.adjustAck seg.ackSeq) (s.st.sndbuf.nextSeq + 1) = true)
  | .handleClose => s.closeQueued = true → s.st.state.isOpen = true →
      tcpSeqLeq s.st.sndNxt (s.st.sndbuf.nextSeq + 1) = true
  | .serveControl => s.st.onControlQueue = true → s.view.sendsFin = true →
      s.st.sndbuf.sbLen = 0 ∧ tcpSeqLeq s.st.sndNxt s.st.fss = true
  | .serveSend => s.served < s.cx.posted → s.st.state.isFin = true → s.st.state.flushes = true →
      s.st.isFinSent = false → s.st.sndbuf.sbLen ≠ 0 →
      tcpSeqLt s.st.sndNxt s.st.sndbuf.headSeq = false →
      EndsBy (s.st.sndUna + s.st.sendWindow) (s.st.fss + 1) s.st.sndNxt
        (s.st.sndbuf.retransList ++ s.st.sndbuf.husndQ.contents ++ s.st.sndbuf.usndQ.contents)
  | _ => True

instance OrderlyOk.decidable (s : Conn) : ∀ e : ConnEvent, Decidable (s.OrderlyOk e)
  | ⟨.packet _, _, _⟩ => inferInstanceAs (Decidable (¬ _ ∧ (_ → _ → _)))
  | ⟨.handleClose, _, _⟩ => inferInstanceAs (Decidable (_ → _ → _))
  | ⟨.serveControl, _, _⟩ => inferInstanceAs (Decidable (_ → _ → _ ∧ _))
  | ⟨.serveSend, _, _⟩ => inferInstanceAs (Decidable (_ → _ → _ → _ → _ → _ → _))
  | ⟨.send _ _, _, _⟩ | ⟨.recv, _, _⟩ | ⟨.close, _, _⟩ | ⟨.serveAck, _, _⟩ | ⟨.rto, _, _⟩
  | ⟨.timewait, _, _⟩ | ⟨.timeout, _, _⟩ => .isTrue trivial

end Conn

/-! ## The close, with its accounts -/

/-- Where `snd_una` is: not far below what was acknowledged, and not beyond the FIN. -/
def UnaWithin (size f e : Nat) (iss : Seq) (state : TcpState) (una : Seq) : Prop :=
  ∃ u, una = tcpSeqAt iss u ∧ f ≤ u + size ∧ (u ≤ e ∨ (state.finAcked = true ∧ u ≤ e + 1))

structure Closing (size : Nat) (acc freed lost : List (MbufId × Nat)) (holes : Nat) (v : View)
    (H N : List SndMbuf) : Prop where
  acct : Accounts size v.iss acc freed lost holes v.sndbuf v.sent H N
  una : UnaWithin size (1 + octets freed) (1 + octets acc + holes) v.iss v.state v.sndUna
  fss : v.state.isFin = true ∨ v.isFinSent = true → v.fss = v.sndbuf.nextSeq
  open_ : v.state.isOpen = true → v.isFinSent = false
  none : v.isFinSent = false → ∀ p ∈ v.sent, p.fin = false
  settled : v.isFinSent = true → octets acc + holes = octets freed
  first : ∀ newer fin older, v.sent = newer ++ fin :: older → fin.fin = true →
    fin.seq = v.fss ∧ ∀ a ∈ acc, Carried a older
  bounded : v.state.isFin = true ∨ v.isFinSent = true → tcpSeqLeq v.sndNxt (v.fss + 1) = true

namespace Closing

variable {size : Nat} {acc freed lost : List (MbufId × Nat)} {holes : Nat} {v : View}
  {H N : List SndMbuf}

/-- What moves the pointers and frees mbufs, and sends nothing. -/
theorem moved (closing : Closing size acc freed lost holes v H N) {v' : View}
    {new : List (MbufId × Nat)}
    (acct : Accounts size v'.iss acc (new ++ freed) lost holes v'.sndbuf v'.sent H N)
    (una : UnaWithin size (1 + octets (new ++ freed)) (1 + octets acc + holes) v'.iss v'.state
      v'.sndUna)
    (sent : v'.sent = v.sent) (fss : v'.fss = v.fss) (iss : v'.iss = v.iss)
    (finSent : v'.isFinSent = v.isFinSent) (fin : v'.state.isFin = true → v.state.isFin = true)
    (opened : v'.state.isOpen = true → v.state.isOpen = true)
    (bounded : v'.state.isFin = true ∨ v'.isFinSent = true →
      tcpSeqLeq v'.sndNxt (v'.fss + 1) = true) :
    Closing size acc (new ++ freed) lost holes v' H N where
  acct := acct
  una := una
  fss := fun now => by
    rw [acct.next, iss, ← closing.acct.next, fss]
    exact closing.fss (now.imp fin fun now => finSent ▸ now)
  open_ := fun now => finSent ▸ closing.open_ (opened now)
  none := by
    rw [finSent, sent]
    exact closing.none
  settled := fun now => by
    have before := closing.settled (finSent ▸ now)
    have sums := acct.sums
    rw [octets_append] at sums ⊢
    omega
  first := by
    rw [sent, fss]
    exact closing.first
  bounded := bounded

/-- What only moves the state and `snd_nxt`. -/
theorem stepped (closing : Closing size acc freed lost holes v H N) {v' : View}
    (buff : v'.sndbuf = v.sndbuf) (una : v'.sndUna = v.sndUna) (sent : v'.sent = v.sent)
    (fss : v'.fss = v.fss) (iss : v'.iss = v.iss) (finSent : v'.isFinSent = v.isFinSent)
    (fin : v'.state.isFin = true → v.state.isFin = true)
    (opened : v'.state.isOpen = true → v.state.isOpen = true)
    (acked : v.state.finAcked = true → v'.state.finAcked = true)
    (bounded : v'.state.isFin = true ∨ v'.isFinSent = true →
      tcpSeqLeq v'.sndNxt (v'.fss + 1) = true) :
    Closing size acc freed lost holes v' H N := by
  change Closing size acc ([] ++ freed) lost holes v' H N
  refine closing.moved ?_ ?_ sent fss iss finSent fin opened bounded
  · rw [buff, sent, iss]
    exact closing.acct
  · obtain ⟨u, value, below, above⟩ := closing.una
    rw [una, iss]
    exact ⟨u, value, below, above.imp_right fun late => ⟨acked late.1, late.2⟩⟩

/-- A stream that is closed, destroyed or not. -/
theorem ended (closing : Closing size acc freed lost holes v H N) {v' : View}
    (buff : v'.sndbuf = v.sndbuf) (una : v'.sndUna = v.sndUna) (nxt : v'.sndNxt = v.sndNxt)
    (sent : v'.sent = v.sent) (fss : v'.fss = v.fss) (iss : v'.iss = v.iss)
    (finSent : v'.isFinSent = v.isFinSent) (state : v'.state = .closed) :
    Closing size acc freed lost holes v' H N := by
  have group : v'.state.isFin = false ∧ v'.state.isOpen = false ∧ v'.state.finAcked = true := by
    rw [state]
    exact ⟨rfl, rfl, rfl⟩
  obtain ⟨fin, opened, acked⟩ := group
  refine closing.stepped buff una sent fss iss finSent (fun now => ?_) (fun now => ?_)
    (fun _ => acked) fun now => ?_
  · rw [fin] at now
    cases now
  · rw [opened] at now
    cases now
  · rw [nxt, fss]
    rw [fin, finSent] at now
    exact closing.bounded (.inr (now.resolve_left Bool.false_ne_true))

/-! ### Acknowledgements -/

theorem headSeq_add_sbLen (b : SndBuff) : b.headSeq + b.sbLen = b.nextSeq := by
  rw [SndBuff.sbLen, add_comm, sub_add_cancel]

/-- Two numbers that are each before the other are half the sequence space apart. -/
theorem tcpSeq_opposite {a b : Seq} (before : tcpSeqLt a b = true) (after : tcpSeqLt b a = true) :
    b = a + BitVec.ofNat 32 (2 ^ 31) := by
  rw [tcpSeqLt, Lib.Serial.lt_iff_toNat] at before after
  bv_omega

/-- The accounts after an acknowledgement, and what it did to `snd_nxt`. -/
theorem onAck (closing : Closing size acc freed lost holes v H N) (small : size < 2 ^ 30)
    (fast : Bool) {a : Seq} (near : tcpSeqGt a (v.sndbuf.headSeq + v.sndbuf.sbLen) = false →
      tcpSeqLeq a (v.sndbuf.nextSeq + 1) = true) :
    ∃ new, Accounts size v.iss acc (new ++ freed) lost holes (v.toCore.onAck fast a).sndbuf v.sent
        H N ∧
      UnaWithin size (1 + octets (new ++ freed)) (1 + octets acc + holes) v.iss v.state
        (v.toCore.onAck fast a).sndUna ∧
      ((v.toCore.onAck fast a).sndNxt = v.sndNxt ∨ ((v.toCore.onAck fast a).sndNxt = a ∧
        tcpSeqLeq a (v.sndbuf.nextSeq + 1) = true)) ∧
      ∀ x ∈ new, x.1 ∈ v.sndbuf.sentIds ∧ x.1 ∉ (v.toCore.onAck fast a).sndbuf.sentIds := by
  have acct := closing.acct
  have unchanged : ∀ k : Core, k.sndbuf = v.sndbuf ∨ k.sndbuf = v.sndbuf.sbResetRetrans.2 →
      k.sndUna = v.sndUna →
      Accounts size v.iss acc ([] ++ freed) lost holes k.sndbuf v.sent H N ∧
        UnaWithin size (1 + octets ([] ++ freed)) (1 + octets acc + holes) v.iss v.state
          k.sndUna := by
    intro k buff una
    rw [una]
    refine ⟨?_, closing.una⟩
    rcases buff with same | reset
    · rw [same]
      exact acct
    · rw [reset]
      exact acct.reset
  by_cases much : tcpSeqGt a (v.sndbuf.headSeq + v.sndbuf.sbLen) = true
  · rw [Core.onAck, if_pos much]
    obtain ⟨acct', una'⟩ := unchanged v.toCore (.inl rfl) rfl
    exact ⟨[], acct', una', .inl rfl, nofun⟩
  rw [Bool.not_eq_true] at much
  rw [Core.onAck, if_neg (by rw [much]; decide)]
  -- a loss, or the recovery from one, comes first
  obtain ⟨k, now, buff, una, nxt⟩ : ∃ k : Core,
      (if fast then v.toCore.rollback a else v.toCore).recover a = k ∧
      (k.sndbuf = v.sndbuf ∨ k.sndbuf = v.sndbuf.sbResetRetrans.2) ∧ k.sndUna = v.sndUna ∧
      (k.sndNxt = v.sndNxt ∨ k.sndNxt = a) := by
    rcases v.toCore.recover_cases fast a with ⟨same, -⟩ | ⟨b, result, ⟨rfl, -⟩ | ⟨rfl, -⟩⟩
    · exact ⟨_, same, .inl rfl, rfl, .inl rfl⟩
    · exact ⟨_, result, .inr rfl, rfl, .inr rfl⟩
    · exact ⟨_, result, .inl rfl, rfl, .inr rfl⟩
  have head : k.sndbuf.headSeq = v.sndbuf.headSeq := by
    rcases buff with same | reset
    · rw [same]
    · rw [reset, (SndBuff.sbResetRetrans_frame _).1]
  have ids : k.sndbuf.sentIds = v.sndbuf.sentIds := by
    rcases buff with same | reset
    · rw [same]
    · rw [reset, Accounts.sentIds_reset]
  obtain ⟨acct', una'⟩ := unchanged k buff una
  have inside := near much
  have nxt' : k.sndNxt = v.sndNxt ∨ (k.sndNxt = a ∧ tcpSeqLeq a (v.sndbuf.nextSeq + 1) = true) :=
    nxt.imp_right fun at_ => ⟨at_, inside⟩
  rw [now, Core.retire]
  split
  · exact ⟨[], acct', una', nxt', nofun⟩
  · rename_i fresh
    obtain ⟨new, retired, gone⟩ := acct'.removeAcked a
    refine ⟨new, retired, ?_, nxt', ?_⟩
    · -- the acknowledged number lies behind `head_seq`, and not behind `next_seq`
      have sums := retired.sums
      have bound := acct.bound
      have before := acct.sums
      rw [Bool.not_eq_true, tcpSeqGeq_eq, Bool.not_eq_false', head] at fresh
      have ahead : tcpSeqGeq a v.sndbuf.headSeq = true := by
        rw [tcpSeqGeq_eq, Bool.not_eq_true']
        by_contra other
        rw [Bool.not_eq_false] at other
        have value := tcpSeq_opposite fresh other
        rw [value, acct.head, acct.next, tcpSeqAt_add, tcpSeqAt_succ,
          tcpSeqLeq_at _ (by omega) (by omega), decide_eq_true_eq] at inside
        omega
      rw [acct.head] at ahead fresh
      obtain ⟨q, le, close, value⟩ := exists_tcpSeqAt ahead
      rw [value] at much fresh
      rw [headSeq_add_sbLen, acct.next, tcpSeqGt_at _ (by omega) (by omega),
        decide_eq_false_iff_not, Nat.not_lt] at much
      rw [tcpSeqLt_at _ (by omega) (by omega), decide_eq_true_eq] at fresh
      refine ⟨q, value, ?_, .inl much⟩
      change octets acc = octets (new ++ freed) + _ at sums
      omega
    · intro x inside
      obtain ⟨was, left⟩ := gone x inside
      exact ⟨ids ▸ was, left⟩

end Closing

namespace Conn

section Steps

variable {size : Nat} {acc freed lost : List (MbufId × Nat)} {holes : Nat} {s : Conn}
  {H N : List SndMbuf}

/-- What a segment does after the handshake. -/
theorem data_closing (closing : Closing size acc freed lost holes s.view H N)
    (small : size < 2 ^ 30) {seg : Segment}
    (near : s.st.reachesAck seg = true → s.st.acksTooMuch (s.st.adjustAck seg.ackSeq) = false →
      tcpSeqLeq (s.st.adjustAck seg.ackSeq) (s.st.sndbuf.nextSeq + 1) = true)
    {k : Core} {d d' : Bool} {r : RcvCore} (move : DataMove s.st seg k d) :
    ∃ new, Closing size acc (new ++ freed) lost holes
        (((s.view.withCore k).withRcv r).withDestroyed d') H N ∧
      ∀ x ∈ new, x.1 ∈ s.st.sndbuf.sentIds ∧ x.1 ∉ k.sndbuf.sentIds := by
  have fixed : ∀ k : Core, k = s.st.acked seg → k.iss = s.view.iss ∧ k.fss = s.view.fss ∧
      k.isFinSent = s.view.isFinSent := by
    rintro k rfl
    exact ⟨Core.onAck_iss _ _ _, Core.onAck_fss _ _ _, Core.onAck_isFinSent _ _ _⟩
  obtain ⟨iss, fss, finSent⟩ := fixed _ rfl
  have bounded := closing.bounded
  -- the end of the buffer is where the FIN goes
  have edge : s.st.state.isFin = true ∨ s.st.isFinSent = true →
      s.st.sndbuf.nextSeq = s.st.fss := fun now => (closing.fss now).symm
  have retired : s.st.reachesAck seg = true → ∃ new,
      Accounts size (s.st.acked seg).iss acc (new ++ freed) lost holes (s.st.acked seg).sndbuf
        s.view.sent H N ∧
      UnaWithin size (1 + octets (new ++ freed)) (1 + octets acc + holes) (s.st.acked seg).iss
        s.view.state (s.st.acked seg).sndUna ∧
      (∀ x ∈ new, x.1 ∈ s.st.sndbuf.sentIds ∧ x.1 ∉ (s.st.acked seg).sndbuf.sentIds) ∧
      (s.st.state.isFin = true ∨ s.st.isFinSent = true →
        tcpSeqLeq (s.st.acked seg).sndNxt (s.st.fss + 1) = true) := by
    intro reach
    obtain ⟨new, acct, una, nxt, gone⟩ :=
      closing.onAck small (s.st.fastRetransmits seg) (near reach)
    refine ⟨new, iss.symm ▸ acct, iss.symm ▸ una, gone, fun now => ?_⟩
    rcases nxt with same | ⟨moved, inside⟩
    · rw [show (s.st.acked seg).sndNxt = _ from same]
      exact bounded now
    · rw [show (s.st.acked seg).sndNxt = _ from moved]
      rw [show s.view.sndbuf.nextSeq = s.st.fss from edge now] at inside
      exact inside
  have none : ∀ x ∈ ([] : List (MbufId × Nat)), x.1 ∈ s.st.sndbuf.sentIds ∧
      x.1 ∉ s.st.sndbuf.sentIds := fun x inside => absurd inside List.not_mem_nil
  have closes : s.st.state.isFin = true → s.view.state.isFin = true := id
  -- the acknowledgement of the FIN lies one behind the buffer
  have finished : ∀ {new : List (MbufId × Nat)} {b : SndBuff} {iss : Seq} {state : TcpState},
      Accounts size iss acc (new ++ freed) lost holes b s.view.sent H N → s.st.isFinSent = true →
      state.finAcked = true →
      UnaWithin size (1 + octets (new ++ freed)) (1 + octets acc + holes) s.view.iss state
        (s.st.fss + 1) := by
    intro new b iss state acct sent acked
    refine ⟨1 + octets acc + holes + 1, ?_, ?_, .inr ⟨acked, le_rfl⟩⟩
    · rw [← edge (.inr sent), ← tcpSeqAt_succ]
      exact congrArg (· + 1) closing.acct.next
    · have sums := acct.sums
      omega
  cases move with
  | same => exact ⟨[], closing.stepped rfl rfl rfl rfl rfl rfl id id id bounded, none⟩
  | moved state legal =>
      obtain ⟨fin, opened, acked⟩ := TcpState.follows_groups legal
      exact ⟨[], closing.stepped rfl rfl rfl rfl rfl rfl fin opened acked
        (fun now => bounded (now.imp_left fin)), none⟩
  | reset =>
      exact ⟨[], closing.ended rfl rfl rfl rfl rfl rfl rfl rfl, none⟩
  | acked state reach legal =>
      obtain ⟨fin, opened, acked⟩ := TcpState.follows_groups legal
      obtain ⟨new, acct, una, gone, reached⟩ := retired reach
      refine ⟨new, closing.moved acct ?_ rfl fss iss finSent fin opened ?_, gone⟩
      · obtain ⟨u, value, below, above⟩ := una
        exact ⟨u, value, below, above.imp_right fun late => ⟨acked late.1, late.2⟩⟩
      · intro now
        change tcpSeqLeq (s.st.acked seg).sndNxt ((s.st.acked seg).fss + 1) = true
        rw [fss]
        exact reached (now.imp fin fun sent => finSent.symm.trans sent)
  | finWait1 state reach from_ sent finAcked legal =>
      obtain ⟨new, acct, -, gone, reached⟩ := retired reach
      have kept : ((s.st.acked seg).recover seg.ackSeq).sndbuf = (s.st.acked seg).sndbuf ∧
          ((s.st.acked seg).recover seg.ackSeq).fixed = (s.st.acked seg).fixed := by
        unfold Core.recover
        split <;> exact ⟨rfl, rfl⟩
      obtain ⟨buff, fixed⟩ := kept
      simp only [Core.fixed, Prod.mk.injEq] at fixed
      obtain ⟨-, sentSame, fssSame, issSame⟩ := fixed
      have groups : state.finAcked = true ∧ state.isOpen = false := by
        revert legal
        cases state <;> decide
      refine ⟨new, closing.moved ?_ ?_ rfl (fssSame.trans fss) (issSame.trans iss)
        (sentSame.trans finSent) (fun _ => closes (from_ ▸ rfl)) (fun opened => ?_) ?_, ?_⟩
      · change Accounts size ((s.st.acked seg).recover seg.ackSeq).iss _ _ _ _
          ((s.st.acked seg).recover seg.ackSeq).sndbuf _ _ _
        rw [issSame, buff]
        exact acct
      · change UnaWithin _ _ _ ((s.st.acked seg).recover seg.ackSeq).iss state seg.ackSeq
        rw [issSame, iss, finAcked]
        exact finished acct sent groups.1
      · change state.isOpen = true at opened
        rw [groups.2] at opened
        cases opened
      · intro _
        change tcpSeqLeq ((s.st.acked seg).recover seg.ackSeq).sndNxt
          (((s.st.acked seg).recover seg.ackSeq).fss + 1) = true
        rw [fssSame, fss, Core.recover]
        split
        · rw [finAcked]
          exact Lib.Serial.leq_self _
        · exact reached (.inr sent)
      · change ∀ x ∈ new, _ ∧ _ ∉ ((s.st.acked seg).recover seg.ackSeq).sndbuf.sentIds
        rw [buff]
        exact gone
  | closing reach from_ sent finAcked =>
      obtain ⟨new, acct, -, gone, -⟩ := retired reach
      refine ⟨new, closing.moved acct ?_ rfl fss iss finSent (fun _ => closes (from_ ▸ rfl))
        (fun opened => by cases opened) ?_, gone⟩
      · change UnaWithin _ _ _ (s.st.acked seg).iss TcpState.timeWait seg.ackSeq
        rw [iss, finAcked]
        exact finished acct sent rfl
      · intro _
        change tcpSeqLeq seg.ackSeq ((s.st.acked seg).fss + 1) = true
        rw [fss, finAcked]
        exact Lib.Serial.leq_self _
  | lastAck reach from_ sent finAcked =>
      obtain ⟨new, acct, una, gone, reached⟩ := retired reach
      refine ⟨new, closing.moved acct ?_ rfl fss iss finSent (fun fin => by cases fin)
        (fun opened => by cases opened) ?_, gone⟩
      · obtain ⟨u, value, below, above⟩ := una
        refine ⟨u + 1, ?_, by omega, .inr ⟨rfl, ?_⟩⟩
        · change (s.st.acked seg).sndUna + 1 = tcpSeqAt (s.st.acked seg).iss (u + 1)
          rw [value, tcpSeqAt_succ]
        · rcases above with before | ⟨already, -⟩
          · omega
          · rw [show s.view.state = .lastAck from from_] at already
            cases already
      · intro _
        change tcpSeqLeq (s.st.acked seg).sndNxt ((s.st.acked seg).fss + 1) = true
        rw [fss]
        exact reached (.inr sent)

/-- The application puts an mbuf; the state says that it has not closed the stream. -/
theorem put_closing (closing : Closing size acc freed lost holes s.view H N)
    (small : size < 2 ^ 30) (opened : s.st.state.isOpen = true) {m : SndMbuf}
    (fresh : ∀ a ∈ acc, a.1 ≠ m.id) :
    ∃ acc' holes' H' N', Closing size acc' freed lost holes'
        (s.view.setSndbuf (s.st.sndbuf.sbPut m).2) H' N' ∧
      acc' = if (s.st.sndbuf.sbPut m).1 ≤ 0 then acc
        else (m.id, (s.st.sndbuf.sbPut m).1.toNat) :: acc := by
  have open_ : s.st.isFinSent = false := closing.open_ opened
  have notFin : s.st.state.isFin = true ∨ s.st.isFinSent = true → False := by
    rintro (fin | sent)
    · rw [TcpState.isOpen_of_isFin fin] at opened
      cases opened
    · rw [open_] at sent
      cases sent
  have noFin : ∀ newer fin older, s.view.sent = newer ++ fin :: older → fin.fin = true → False := by
    intro newer fin older log isFin
    have plain := closing.none open_ fin (by rw [log]; simp)
    rw [plain] at isFin
    cases isFin
  -- before the close only the accounts matter
  have rest : ∀ {acc' : List (MbufId × Nat)} {holes' : Nat} {b : SndBuff} {H' N' : List SndMbuf},
      Accounts size s.view.iss acc' freed lost holes' b s.view.sent H' N' →
      octets acc + holes ≤ octets acc' + holes' →
      Closing size acc' freed lost holes' (s.view.setSndbuf b) H' N' := by
    intro acc' holes' b H' N' acct more
    refine ⟨acct, ?_, fun now => (notFin now).elim, fun _ => open_, closing.none,
      fun now => (notFin (.inr now)).elim, fun newer fin older log isFin =>
        (noFin newer fin older log isFin).elim, fun now => (notFin now).elim⟩
    obtain ⟨u, value, below, above⟩ := closing.una
    exact ⟨u, value, below, above.imp (fun le => by omega) fun late => ⟨late.1, by omega⟩⟩
  have accounts : Accounts size s.view.iss acc freed lost holes s.st.sndbuf s.view.sent H N :=
    closing.acct
  by_cases none : s.st.sndbuf.toPut m = 0
  · rw [SndBuff.sbPut_refused none]
    exact ⟨acc, holes, H, N, rest accounts le_rfl, rfl⟩
  cases full : s.st.sndbuf.targetFull m with
  | true =>
      obtain ⟨result, acct⟩ := accounts.put_full small none full
      rw [result]
      exact ⟨acc, _, H, N, rest acct (by omega), rfl⟩
  | false =>
      obtain ⟨result, H', N', acct⟩ := accounts.put_stored small fresh none full
      rw [result, if_neg (by omega)]
      exact ⟨_, holes, H', N', rest acct (by rw [octets_cons]; omega), rfl⟩

/-- The control queue sends the FIN, with everything acknowledged. -/
theorem fin_closing (closing : Closing size acc freed lost holes s.view H N)
    (small : size < 2 ^ 30) (sends : s.view.sendsFin = true) (empty : s.st.sndbuf.sbLen = 0)
    (before : tcpSeqLeq s.st.sndNxt s.st.fss = true) :
    Closing size acc freed lost holes (s.view.transmit { fin := true, ack := true } none 0)
      H N := by
  have settled := closing.acct.settled small empty
  obtain ⟨-, all⟩ := closing.acct.all_freed settled
  have fin : s.view.state.isFin = true := by
    revert sends
    rw [Core.sendsFin]
    cases s.view.state <;> simp [TcpState.isFin]
  have log : (s.view.transmit { fin := true, ack := true } none 0).sent =
      { seq := s.st.fss, len := 0, fin := true } :: s.view.sent := rfl
  refine
    { closing with
      acct := ?_
      fss := fun _ => closing.fss (.inl fin)
      open_ := fun opened => ?_
      none := fun unsent => ?_
      settled := fun _ => settled
      first := ?_
      bounded := fun _ => ?_ }
  · rw [log]
    exact closing.acct.logged _
  · change s.view.state.isOpen = true at opened
    rw [TcpState.isOpen_of_isFin fin] at opened
    cases opened
  · change (s.view.isFinSent || true) = false at unsent
    rw [Bool.or_true] at unsent
    cases unsent
  · intro newer p older split isFin
    rw [log] at split
    cases newer with
    | nil =>
        injection split with head rest
        subst head rest
        exact ⟨rfl, fun a accepted => closing.acct.gone a (all.mem_iff.mp accepted)⟩
    | cons q newer' =>
        injection split with _ rest
        exact closing.first newer' p older rest isFin
  · change tcpSeqLeq (s.st.sndNxt + 1) (s.st.fss + 1) = true
    rw [tcpSeqLeq, Lib.Serial.leq_iff_toNat] at before ⊢
    bv_omega

/-- The retransmission timer goes back to `snd_una`. -/
theorem rto_closing (closing : Closing size acc freed lost holes s.view H N)
    (small : size < 2 ^ 30) {v : View} (move : RtoMove s.st s.view v) :
    Closing size acc freed lost holes v H N := by
  -- `snd_una` is not beyond the FIN
  have una : s.st.state.isFin = true ∨ s.st.isFinSent = true →
      tcpSeqLeq s.st.sndUna (s.st.fss + 1) = true := by
    intro now
    obtain ⟨u, value, below, above⟩ := closing.una
    have sums := closing.acct.sums
    have bound := closing.acct.bound
    rw [show s.st.sndUna = _ from value, show s.st.fss = _ from closing.fss now,
      closing.acct.next, tcpSeqAt_succ, tcpSeqLeq_at _ (by omega) (by omega), decide_eq_true_eq]
    omega
  cases move with
  | lost =>
      exact closing.ended rfl rfl rfl rfl rfl rfl rfl rfl
  | retransmit =>
      change Closing size acc ([] ++ freed) lost holes _ H N
      exact closing.moved closing.acct.reset closing.una rfl rfl rfl rfl id id una
  | control => exact closing.stepped rfl rfl rfl rfl rfl rfl id id id una

/-- A FIN in the log says that it was sent. -/
theorem sent_of_fin (closing : Closing size acc freed lost holes s.view H N)
    {newer older : List Sent} {fin : Sent} (log : s.view.sent = newer ++ fin :: older)
    (isFin : fin.fin = true) : s.st.isFinSent = true := by
  by_contra unsent
  rw [Bool.not_eq_true] at unsent
  have plain := closing.none unsent fin (by rw [log]; simp)
  rw [plain] at isFin
  cases isFin

/-- The close call. -/
theorem closed_closing (closing : Closing size acc freed lost holes s.view H N)
    (before : s.st.state.isOpen = true → tcpSeqLeq s.st.sndNxt (s.st.sndbuf.nextSeq + 1) = true)
    {v : View} (move : CloseMove s.view v) : Closing size acc freed lost holes v H N := by
  -- where `fss` is known already, it is what the call writes
  have noted : ∀ {state : TcpState} {d : Bool},
      (s.view.state.finAcked = true → state.finAcked = true) →
      (state.isOpen = true → s.view.state.isOpen = true) →
      (state.isFin = true → s.view.state.isFin = true ∨ s.view.state.isOpen = true) →
      Closing size acc freed lost holes { s.view with
        fss := s.view.sndbuf.nextSeq, state := state, destroyed := d } H N := by
    intro state d acked opened fin
    refine
      { closing with
        acct := closing.acct
        una := ?_
        fss := fun _ => rfl
        open_ := fun now => closing.open_ (opened now)
        first := fun newer p older log isFin => ?_
        bounded := fun now => ?_ }
    · obtain ⟨u, value, below, above⟩ := closing.una
      exact ⟨u, value, below, above.imp_right fun late => ⟨acked late.1, late.2⟩⟩
    · have known := closing.fss (.inr (sent_of_fin closing log isFin))
      obtain ⟨seq, carried⟩ := closing.first newer p older log isFin
      exact ⟨seq.trans known, carried⟩
    · change tcpSeqLeq s.st.sndNxt (s.view.sndbuf.nextSeq + 1) = true
      have known : s.view.state.isFin = true ∨ s.view.isFinSent = true →
          tcpSeqLeq s.st.sndNxt (s.view.sndbuf.nextSeq + 1) = true := fun now =>
        closing.fss now ▸ closing.bounded now
      rcases now with now | sent
      · rcases fin now with fin | opened
        · exact known (.inl fin)
        · exact before opened
      · exact known (.inr sent)
  cases move with
  | same closed => exact noted id id .inl
  | reset => exact noted (fun _ => rfl) (fun opened => by cases opened) fun fin => by cases fin
  | closing =>
      refine noted ?_ ?_ ?_
      · cases s.view.state <;> decide
      · cases s.view.state <;> decide
      · cases s.view.state <;> decide

/-- A flush. -/
theorem flush_closing (closing : Closing size acc freed lost holes s.view H N) {v : View}
    (open_ : s.st.isFinSent = false)
    (flushed : Flushed s.st.sendWindow (s.st.sndbuf.waitingCount + 1) s.view v)
    (ends : s.st.state.isFin = true → tcpSeqLt s.st.sndNxt s.st.sndbuf.headSeq = false →
      EndsBy (s.st.sndUna + s.st.sendWindow) (s.st.fss + 1) s.st.sndNxt
        (s.st.sndbuf.retransList ++ H ++ N)) :
    ∃ lost' H' N', Closing size acc freed lost' holes v H' N' := by
  cases low : tcpSeqLt s.st.sndNxt s.st.sndbuf.headSeq with
  | true =>
      rw [flushed.of_low low]
      exact ⟨lost, H, N, closing⟩
  | false =>
      obtain ⟨newer, log, plain⟩ := flushed.plain
      have frame := flushed.frame
      obtain ⟨lost', H', N', acct, bounded⟩ := Accounts.flushed flushed closing.acct
      generalize v.sndNxt = nxt at frame bounded
      generalize v.sndbuf = b at frame acct
      generalize v.sent = sent at frame acct log
      subst frame
      have unsent : ∀ p ∈ sent, p.fin = false := by
        rw [log]
        intro p inside
        rcases List.mem_append.mp inside with new | old
        · exact plain p new
        · exact closing.none open_ p old
      have notSent : s.view.isFinSent = true → False := by
        intro sent
        rw [show s.view.isFinSent = false from open_] at sent
        cases sent
      refine ⟨lost', H', N', acct, closing.una, fun now => ?_, fun _ => open_, fun _ => unsent,
        fun now => (notSent now).elim, fun newer fin older split isFin => ?_, fun now => ?_⟩
      · rw [acct.next, ← closing.acct.next]
        exact closing.fss now
      · rw [unsent fin (by rw [show sent = _ from split]; simp)] at isFin
        cases isFin
      · have fin := now.resolve_right notSent
        exact bounded _ (closing.bounded (.inl fin)) (ends fin low)

end Steps

/-! ## Runs -/

/-- The accounts of a connection after the handshake. -/
structure Accounted (n : Nat) (s : Conn) (freed lost : List (MbufId × Nat)) (holes : Nat)
    (H N : List SndMbuf) : Prop where
  closing : Closing (1400 * n) s.accepted freed lost holes s.view H N
  acked : ∀ a ∈ freed, a.1 ∈ s.acked
  issued : ∀ a ∈ s.accepted, a.1 < s.fresh

section Runs

variable {n : Nat} {s : Conn} {e : ConnEvent}

/-- Only a send adds to what was accepted. -/
theorem serve_accepted (other : ∀ len highPri, e.call ≠ .send len highPri) :
    (s.serve e).accepted = s.accepted ∧ (s.serve e).fresh = s.fresh ∧
      ∀ id ∈ s.acked, id ∈ (s.serve e).acked := by
  unfold serve
  dsimp only
  cases call : e.call with
  | send len highPri => exact absurd call (other len highPri)
  | packet seg => exact ⟨rfl, rfl, fun id old => List.mem_append_right _ old⟩
  | recv | close | serveControl | serveAck => exact ⟨rfl, rfl, fun _ => id⟩
  | handleClose | serveSend | rto | timewait | timeout =>
      dsimp only
      split <;> exact ⟨rfl, rfl, fun _ => id⟩

/-- An mbuf that leaves the lists of sent mbufs when a segment comes was acknowledged. -/
theorem serve_acked {seg : Segment} (call : e.call = .packet seg) {id : MbufId}
    (was : id ∈ s.st.sndbuf.sentIds) (left : id ∉ (s.serve e).st.sndbuf.sentIds) :
    id ∈ (s.serve e).acked := by
  unfold serve at left ⊢
  dsimp only at left ⊢
  rw [call] at left ⊢
  refine List.mem_append_left _ (List.mem_filter.mpr ⟨was, ?_⟩)
  exact decide_eq_true left

/-- A send, which may be refused. -/
theorem send_accounted {freed lost : List (MbufId × Nat)} {holes : Nat} {H N : List SndMbuf}
    (small : 1400 * n < 2 ^ 30) (inv : s.Accounted n freed lost holes H N) {len : U32}
    {highPri : Bool} (call : e.call = .send len highPri) :
    ∃ holes' H' N', (s.serve e).Accounted n freed lost holes' H' N' := by
  have served : s.serve e = { s with
      cx := (s.sendCall e len highPri).2
      fresh := s.fresh + 1
      accepted := if 0 < (s.sendCall e len highPri).1 then
        (s.fresh, (s.sendCall e len highPri).1.toNat) :: s.accepted else s.accepted } := by
    unfold serve
    dsimp only
    rw [call]
    rfl
  rw [served]
  have younger : ∀ a ∈ s.accepted, a.1 < s.fresh + 1 := fun a old =>
    Nat.lt_succ_of_lt (inv.issued a old)
  rcases sendCall_cases s e len highPri with ⟨ret, refused, same⟩ | ⟨opened, view, ret⟩
  · rw [same]
    dsimp only
    rw [if_neg (by omega)]
    exact ⟨holes, H, N, inv.closing, inv.acked, younger⟩
  · obtain ⟨acc', holes', H', N', closing, accepted⟩ := put_closing inv.closing small opened
      (m := s.offered len highPri) (fun a old => Nat.ne_of_lt (inv.issued a old))
    refine ⟨holes', H', N', ?_, inv.acked, ?_⟩
    · change Closing _ _ freed lost holes' (s.sendCall e len highPri).2.view H' N'
      rw [view, ret]
      by_cases none : (s.st.sndbuf.sbPut (s.offered len highPri)).1 ≤ 0
      · rw [if_pos none] at accepted ⊢
        rw [if_neg (by decide), ← accepted]
        exact closing
      · rw [if_neg none] at accepted ⊢
        rw [if_pos (by omega)]
        rw [accepted] at closing
        exact closing
    · dsimp only
      split
      · intro a inside
        rcases List.mem_cons.mp inside with rfl | old
        · exact Nat.lt_succ_self _
        · exact younger a old
      · exact younger

/-- **One call after the handshake.** -/
theorem serve_accounted {freed lost : List (MbufId × Nat)} {holes : Nat} {H N : List SndMbuf}
    (small : 1400 * n < 2 ^ 30) (late : s.Late) (inv : s.Accounted n freed lost holes H N)
    (ok : s.OrderlyOk e) :
    (s.serve e).view.halted = true ∨
      ∃ freed' lost' holes' H' N', (s.serve e).Accounted n freed' lost' holes' H' N' := by
  by_cases send : ∃ len highPri, e.call = .send len highPri
  · obtain ⟨len, highPri, call⟩ := send
    obtain ⟨holes', H', N', inv'⟩ := send_accounted small inv call
    exact .inr ⟨freed, lost, holes', H', N', inv'⟩
  have other : ∀ len highPri, e.call ≠ .send len highPri := fun len highPri call =>
    send ⟨len, highPri, call⟩
  obtain ⟨accepted, fresh, acked⟩ := serve_accepted (s := s) other
  refine (serve_move s e).imp_right fun move => ?_
  have issued : ∀ a ∈ (s.serve e).accepted, a.1 < (s.serve e).fresh := by
    rw [accepted, fresh]
    exact inv.issued
  have stays : ∀ {lost' : List (MbufId × Nat)} {H' N' : List SndMbuf},
      Closing (1400 * n) s.accepted freed lost' holes (s.serve e).view H' N' →
      ∃ freed' lost' holes' H' N', (s.serve e).Accounted n freed' lost' holes' H' N' :=
    fun closing => ⟨freed, _, holes, _, _, accepted.symm ▸ closing,
      fun a old => acked a.1 (inv.acked a old), issued⟩
  have group : s.st.state.isOpen = true ∨ s.st.state.isFin = true ∨ s.st.state = .closed := late
  have closing := inv.closing
  unfold OrderlyOk at ok
  generalize view : (s.serve e).view = v at move stays
  generalize called : e.call = call at ok move
  cases move with
  | same => exact stays closing
  | syn early _ =>
      exfalso
      revert group early
      cases s.st.state <;> decide
  | data _ move =>
      obtain ⟨new, closing', gone⟩ := data_closing closing small ok.2 move
      refine ⟨new ++ freed, lost, holes, H, N, ?_, fun a inside => ?_, issued⟩
      · rw [accepted, view]
        exact closing'
      · rcases List.mem_append.mp inside with this | old
        · obtain ⟨was, left⟩ := gone a this
          refine serve_acked called was ?_
          change a.1 ∉ (s.serve e).view.sndbuf.sentIds
          rw [view]
          exact left
        · exact acked a.1 (inv.acked a old)
  | put _ => exact absurd called (other _ _)
  | received _ =>
      exact stays (closing.stepped rfl rfl rfl rfl rfl rfl id id id closing.bounded)
  | closed queued move => exact stays (closed_closing closing (ok queued) move)
  | control queued move =>
      have notSyn : s.view.state ≠ .synSent ∧ s.view.state ≠ .synRcvd := by
        change s.st.state ≠ .synSent ∧ s.st.state ≠ .synRcvd
        revert group
        cases s.st.state <;> decide
      cases move with
      | same => exact stays closing
      | syn from_ => exact absurd from_ notSyn.1
      | rewound from_ => exact absurd from_ notSyn.2
      | synAck from_ => exact absurd from_ notSyn.2
      | fin sends =>
          obtain ⟨empty, before⟩ := ok queued sends
          exact stays (fin_closing closing small sends empty before)
  | flushed due state open_ some flushed =>
      have holds : s.st.sndbuf.Holds H N := closing.acct.holds
      obtain ⟨lost', H', N', closing'⟩ := flush_closing closing open_ flushed fun fin above => by
        have ends := ok due fin state open_ some above
        rw [CircularQueue.contents_eq holds.high, CircularQueue.contents_eq holds.low] at ends
        exact ends
      exact stays closing'
  | rto _ move => exact stays (rto_closing closing small move)
  | expired _ =>
      exact stays (closing.ended rfl rfl rfl rfl rfl rfl rfl rfl)

/-- The accounts of a connection that has just been opened. -/
theorem Opened.accounted (opened : s.view.Opened n) (unused : s.unused) :
    s.Accounted n [] [] 0 [] [] := by
  have plain : ∀ p ∈ s.view.sent, p.fin = false := by
    intro p inside
    rw [opened.sent p inside]
    rfl
  have notFin : s.view.state.isFin = true ∨ s.view.isFinSent = true → False := by
    rintro (fin | sent)
    · have state := opened.state
      revert state fin
      cases s.view.state <;> decide
    · rw [opened.finSent] at sent
      cases sent
  refine ⟨⟨?_, ⟨1, opened.una, ?_, .inl ?_⟩, fun now => (notFin now).elim, fun _ => opened.finSent,
    fun _ => plain, fun now => (notFin (.inr now)).elim, fun newer fin older log isFin => ?_,
    fun now => (notFin now).elim⟩, nofun, ?_⟩
  · rw [unused.1, opened.buff]
    exact
      { holds := SndBuff.sbInit_holds n SndBuff.zero (s.view.iss + 1)
        parts := .nil
        payload := nofun
        nodup := List.nodup_nil
        room := rfl
        head := rfl
        next := rfl
        bound := Nat.zero_le _
        gone := nofun
        carried := nofun }
  · exact Nat.le_add_right _ _
  · rw [unused.1]
    exact le_rfl
  · rw [plain fin (by rw [log]; simp)] at isFin
    cases isFin
  · rw [unused.1]
    nofun

theorem Accounted.orderly {freed lost : List (MbufId × Nat)} {holes : Nat} {H N : List SndMbuf}
    (inv : s.Accounted n freed lost holes H N) : s.OrderlyClose where
  dataFirst := fun newer fin older log isFin => (inv.closing.first newer fin older log isFin).2
  dataStays := fun sent _ a accepted => by
    obtain ⟨-, all⟩ := inv.closing.acct.all_freed (inv.closing.settled sent)
    exact .inl (inv.acked a (all.mem_iff.mp accepted))
  finSeq := fun fin inside isFin => by
    obtain ⟨newer, older, log⟩ := List.mem_iff_append.mp inside
    have sent := sent_of_fin inv.closing log isFin
    obtain ⟨none, -⟩ := inv.closing.acct.all_freed (inv.closing.settled sent)
    refine ⟨(inv.closing.first newer fin older log isFin).1, ?_⟩
    have fss := (inv.closing.fss (.inr sent)).trans inv.closing.acct.next
    rw [none] at fss
    exact fss
  bounded := inv.closing.bounded

/-- Before a connection is open there is no FIN. -/
theorem Syn.orderly (syn : s.view.Syn n) (fin : s.view.state.isFin = false) :
    s.OrderlyClose := by
  have plain : ∀ p ∈ s.view.sent, p.fin = false := by
    intro p inside
    rw [syn.sent p inside]
    rfl
  have notFin : ∀ p ∈ s.view.sent, p.fin = true → False := by
    intro p inside isFin
    rw [plain p inside] at isFin
    cases isFin
  refine ⟨fun newer p older log isFin => (notFin p (by rw [log]; simp) isFin).elim, fun sent => ?_,
    fun p inside isFin => (notFin p inside isFin).elim, ?_⟩
  · rw [show s.st.isFinSent = false from syn.finSent] at sent
    cases sent
  · rintro (now | sent)
    · rw [show s.st.state.isFin = false from fin] at now
      cases now
    · rw [show s.st.isFinSent = false from syn.finSent] at sent
      cases sent

/-- The invariant of a run. -/
def OrderlyInv (n : Nat) (s : Conn) : Prop :=
  s.view.halted = true ∨ s.Handshaking n ∨
    (s.view.destroyed = true ∧ s.OrderlyClose) ∨
    (s.Late ∧ ∃ freed lost holes H N, s.Accounted n freed lost holes H N)

theorem OrderlyInv.orderly (inv : s.OrderlyInv n) : s.view.halted = true ∨ s.OrderlyClose := by
  rcases inv with halted | handshaking | ⟨-, orderly⟩ | ⟨-, freed, lost, holes, H, N, accounted⟩
  · exact .inl halted
  · refine .inr (Syn.orderly handshaking.view.toSyn ?_)
    rcases handshaking.view.early with now | now
    · rw [now]
      rfl
    · rw [now]
      rfl
  · exact .inr orderly
  · exact .inr accounted.orderly

theorem step_orderlyInv (small : 1400 * n < 2 ^ 30) (s : Conn) (e : ConnEvent)
    (inv : s.OrderlyInv n) (ok : s.OrderlyOk e) : (s.step e).OrderlyInv n := by
  unfold step
  split
  · exact inv
  · rename_i running
    rcases inv with halted | handshaking | ⟨gone, -⟩ | ⟨late, freed, lost, holes, H, N, accounted⟩
    · rw [ended, halted] at running
      exact absurd rfl running
    · have full : s.NoBareAck e := by
        intro seg call
        unfold OrderlyOk at ok
        rw [call] at ok
        exact ok.1
      rcases handshaking.serve full with
        halted | handshaking | ⟨-, state, gone, unacked⟩ | ⟨unused, opened, -, -⟩
      · exact .inl halted
      · exact .inr (.inl handshaking)
      · refine .inr (.inr (.inl ⟨gone, Syn.orderly unacked.toSyn ?_⟩))
        rw [state]
        rfl
      · exact .inr (.inr (.inr ⟨opened.state.imp_right .inr, _, _, _, _, _,
          Opened.accounted opened unused⟩))
    · rw [ended, gone, Bool.or_true] at running
      exact absurd rfl running
    · rcases serve_move s e with halted | move
      · exact .inl halted
      obtain ⟨-, -, group⟩ := late.move move
      exact (serve_accounted small late accounted ok).imp_right fun accounted =>
        .inr (.inr ⟨group, accounted⟩)

/-- **Orderly close.**  With a send buffer below 2^30 bytes, in a run that keeps to `OrderlyOk`,
all data is sent before the FIN, none is left behind it, every FIN has the sequence number behind
the data, and `snd_nxt` stays at the FIN or behind it. -/
theorem orderly_close (small : 1400 * n < 2 ^ 30) (start : Start n s) (es : List ConnEvent)
    (ok : Lib.Run.Allowed step OrderlyOk s es) :
    Lib.Run.Along step (fun s => s.view.halted = true ∨ s.OrderlyClose) s es := by
  have first : s.OrderlyInv n := start.handshaking.imp_right .inl
  have along := Lib.Run.along_of_step (step_orderlyInv small) es s first ok
  exact Lib.Run.Along.mono (fun s inv => OrderlyInv.orderly inv) es s along

end Runs

/-- Open, send 700 bytes. -/
def sentRun : List ConnEvent :=
  [{ call := .serveControl, avail := 1 },
   { call := .packet { seq := 7000, ackSeq := 101, syn := true, ack := true, window := 65535 } },
   { call := .send 700 false },
   { call := .serveSend }]

/-- The close of the application, up to the FIN. -/
def closeRun : List ConnEvent :=
  [{ call := .close }, { call := .handleClose }, { call := .serveControl, avail := 1 }]

def acknowledge (ackSeq : Seq) : ConnEvent :=
  { call := .packet { seq := 7001, ackSeq := ackSeq, ack := true, window := 65535 } }

/-- The data is acknowledged before the close, and the FIN after it. -/
theorem orderly_close_acked :
    Lib.Run.Along step (fun s => s.view.halted = true ∨ s.OrderlyClose) (active 4 4 100 {})
      (sentRun ++ acknowledge 801 :: (closeRun ++ [acknowledge 802])) :=
  orderly_close (n := 4) (by decide) (.active 4 100 {}) _ (by decide +kernel)

/-! ## No data after the FIN -/

/-- What is sent is no data. -/
def Silent (s s' : Conn) : Prop :=
  ∃ newer, s'.view.sent = newer ++ s.view.sent ∧ ∀ p ∈ newer, p.data = none

/-- Once the FIN has been sent, a call sends no data. -/
theorem serve_silent {s : Conn} {e : ConnEvent} (late : s.Late) (sent : s.st.isFinSent = true) :
    (s.serve e).view.halted = true ∨
      ((s.serve e).Late ∧ (s.serve e).st.isFinSent = true ∧ s.Silent (s.serve e)) := by
  refine (serve_move s e).imp_right fun move => ?_
  obtain ⟨-, -, group⟩ := late.move move
  refine ⟨group, ?_⟩
  change (s.serve e).view.isFinSent = true ∧
    ∃ newer, (s.serve e).view.sent = newer ++ s.view.sent ∧ _
  generalize (s.serve e).view = v at move
  generalize e.call = call at move
  have unchanged : v.sent = s.view.sent → ∃ newer, v.sent = newer ++ s.view.sent ∧
      ∀ p ∈ newer, p.data = none := fun same => ⟨[], same, nofun⟩
  cases move with
  | same => exact ⟨sent, unchanged rfl⟩
  | syn early _ =>
      exfalso
      have open_ : s.st.state.isOpen = true ∨ s.st.state.isFin = true ∨ s.st.state = .closed := late
      revert open_ early
      cases s.st.state <;> decide
  | data _ move =>
      refine ⟨?_, unchanged rfl⟩
      cases move with
      | same | moved | reset => exact sent
      | acked | closing | lastAck => exact (Core.onAck_isFinSent _ _ _).trans sent
      | finWait1 =>
          change (Core.recover _ _).isFinSent = true
          unfold Core.recover
          split <;> exact (Core.onAck_isFinSent _ _ _).trans sent
  | put _ => exact ⟨sent, unchanged rfl⟩
  | received _ => exact ⟨sent, unchanged rfl⟩
  | closed _ move => cases move <;> exact ⟨sent, unchanged rfl⟩
  | control _ move =>
      cases move with
      | same | rewound => exact ⟨sent, unchanged rfl⟩
      | syn => exact ⟨(Bool.or_false _).trans sent, [_], rfl, by simp⟩
      | synAck => exact ⟨(Bool.or_false _).trans sent, [_], rfl, by simp⟩
      | fin => exact ⟨Bool.or_true _, [_], rfl, by simp⟩
  | flushed _ _ open_ _ _ =>
      rw [sent] at open_
      cases open_
  | rto _ move => cases move <;> exact ⟨sent, unchanged rfl⟩
  | expired _ => exact ⟨sent, unchanged rfl⟩

/-- **Nothing is retransmittable once the FIN has been sent.** -/
theorem fin_silences {s : Conn} (late : s.Late) (sent : s.st.isFinSent = true) (id : MbufId) :
    ¬ s.Retransmittable id := by
  have silent : ∀ (es : List ConnEvent) (s : Conn), s.Late → s.st.isFinSent = true →
      (Lib.Run.run step s es).view.halted = false → s.Silent (Lib.Run.run step s es) := by
    intro es
    induction es with
    | nil => exact fun s _ _ _ => ⟨[], rfl, nofun⟩
    | cons e es ih =>
        intro s late sent runs
        rw [Lib.Run.run] at runs ⊢
        by_cases stopped : s.ended = true
        · rw [step_ended stopped] at runs ⊢
          exact ih s late sent runs
        have served : s.step e = s.serve e := if_neg stopped
        rw [served] at runs ⊢
        rcases serve_silent (e := e) late sent with halted | ⟨late', sent', newer, log, plain⟩
        · rw [run_ended (ended_of_halted halted), halted] at runs
          cases runs
        · obtain ⟨newer', log', plain'⟩ := ih _ late' sent' runs
          refine ⟨newer' ++ newer, by rw [log', log, List.append_assoc], fun p inside => ?_⟩
          exact (List.mem_append.mp inside).elim (plain' p) (plain p)
  rintro ⟨es, newer, runs, log, p, inside, data⟩
  obtain ⟨newer', log', plain⟩ := silent es s late sent runs
  rw [log'] at log
  rw [plain p (List.append_cancel_right log ▸ inside)] at data
  cases data

/-- 700 octets are on their way when the FIN goes out: if they are lost, they stay lost. -/
theorem data_behind_fin :
    ¬ Lib.Run.Along step (fun s => s.view.halted = true ∨ s.OrderlyClose) (active 4 4 100 {})
      (sentRun ++ closeRun) := by
  intro along
  rcases Lib.Run.Along.last _ _ along with halted | orderly
  · revert halted
    decide +kernel
  · rcases orderly.dataStays (by decide +kernel) (by decide +kernel) (0, 700) (by decide +kernel)
      with acked | again
    · revert acked
      decide +kernel
    · exact fin_silences (.inr (.inl (by decide +kernel))) (by decide +kernel) 0 again

end Conn

end QStack
