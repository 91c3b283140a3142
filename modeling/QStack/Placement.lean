/-
# QStack.Placement -- where the mbufs of a send buffer lie in the stream

The mbufs of `uack_list` and `retrans_list`, in this order, are the end of the stream
that has been sent, and `head_seq` is where they begin (`Laid`).  `snd_nxt` stands behind
`uack_list`, so that what is sent next, a lost mbuf or a new one, goes where it belongs
(`Placed`); or it is below `head_seq`, and then nothing is sent at all.

An acknowledgement that moves `snd_nxt` keeps this only if it ends where an mbuf ends
(`Lands`), and a timeout only if `snd_una` is such a place and the sent mbufs are marked
lost.
-/
import QStack.SentStream
import QStack.SendConservation
import QStack.SendOrder

namespace QStack

set_option autoImplicit false

/-! ## Mbufs in the stream -/

/-- The mbuf lies at `pos` of the stream, as it was first sent. -/
structure Lies (base : Seq) (sent : List Sent) (pos : Nat) (m : SndMbuf) : Prop where
  first : ∃ p ∈ sent, p.data = some m.id ∧ p.len = m.payloadLen
  place : streamPos m.id sent = pos
  seq : m.tcpSeq = tcpSeqAt base pos
  payload : m.payloadLen ≠ 0

/-- The mbufs lie one behind the other from `pos` on. -/
def Located (base : Seq) (sent : List Sent) : Nat → List SndMbuf → Prop
  | _, [] => True
  | pos, m :: rest => Lies base sent pos m ∧ Located base sent (pos + m.payloadLen) rest

namespace Located

variable {base : Seq} {sent : List Sent}

theorem append {A B : List SndMbuf} : ∀ {pos : Nat}, Located base sent pos (A ++ B) ↔
    Located base sent pos A ∧ Located base sent (pos + SndBuff.sumLen A) B := by
  induction A with
  | nil =>
      intro pos
      simp [Located]
  | cons m rest ih =>
      intro pos
      rw [List.cons_append, Located, Located, ih, SndBuff.sumLen_cons, and_assoc, Nat.add_assoc]

theorem lost {ms : List SndMbuf} : ∀ {pos : Nat}, Located base sent pos ms →
    Located base sent pos (ms.map fun m => { m with mbufState := .loss }) := by
  induction ms with
  | nil => exact id
  | cons m rest ih =>
      intro pos located
      exact ⟨⟨located.1.first, located.1.place, located.1.seq, located.1.payload⟩, ih located.2⟩

/-- Another packet does not move what was sent before. -/
theorem logged {ms : List SndMbuf} (p : Sent) : ∀ {pos : Nat}, Located base sent pos ms →
    Located base (p :: sent) pos ms := by
  induction ms with
  | nil => exact id
  | cons m rest ih =>
      intro pos located
      obtain ⟨q, inside, data, len⟩ := located.1.first
      have place := streamPos_cons p (transmitted_of_mem inside data)
      exact ⟨⟨⟨q, List.mem_cons_of_mem p inside, data, len⟩, place.trans located.1.place,
        located.1.seq, located.1.payload⟩, ih located.2⟩

theorem payload {ms : List SndMbuf} : ∀ {pos : Nat}, Located base sent pos ms →
    ∀ m ∈ ms, m.payloadLen ≠ 0 := by
  induction ms with
  | nil => nofun
  | cons m rest ih =>
      intro pos located m' inside
      rcases List.mem_cons.mp inside with rfl | inside
      · exact located.1.payload
      · exact ih located.2 m' inside

/-- Nothing is there when it has no bytes. -/
theorem eq_nil {ms : List SndMbuf} {pos : Nat} (located : Located base sent pos ms)
    (none : SndBuff.sumLen ms = 0) : ms = [] := by
  cases ms with
  | nil => rfl
  | cons m rest =>
      rw [SndBuff.sumLen_cons] at none
      exact absurd (by omega) located.1.payload

/-- An acknowledgement that ends where `A` ends frees exactly `A`. -/
theorem removeAcked_eq {A B : List SndMbuf} : ∀ {pos : Nat}, Located base sent pos (A ++ B) →
    SndBuff.sumLen (A ++ B) < 2 ^ 31 →
    SndBuff.removeAcked (tcpSeqAt base (pos + SndBuff.sumLen A)) (A ++ B) = (A, B) := by
  have seqEnd : ∀ {pos : Nat} {m : SndMbuf}, Lies base sent pos m →
      m.seqEnd = tcpSeqAt base (pos + m.payloadLen) := by
    intro pos m lies
    rw [SndMbuf.seqEnd, lies.seq]
    exact tcpSeqAt_add base pos m.payloadLen
  induction A with
  | nil =>
      intro pos located small
      rw [SndBuff.sumLen_nil, List.nil_append] at *
      cases B with
      | nil => rfl
      | cons m rest =>
          have payload := located.1.payload
          rw [SndBuff.sumLen_cons] at small
          rw [SndBuff.removeAcked, seqEnd located.1, tcpSeqLeq_at _ (by omega) (by omega),
            if_neg (by rw [decide_eq_true_eq]; omega)]
  | cons m rest ih =>
      intro pos located small
      rw [List.cons_append, SndBuff.sumLen_cons] at small
      rw [List.cons_append] at located
      have freed := ih located.2 (by omega)
      rw [SndBuff.sumLen_append] at small
      rw [List.cons_append, SndBuff.removeAcked, seqEnd located.1, SndBuff.sumLen_cons,
        ← Nat.add_assoc, tcpSeqLeq_at _ (by omega) (by omega),
        if_pos (by rw [decide_eq_true_eq]; omega), freed]

end Located

theorem SndBuff.sumLen_lost (ms : List SndMbuf) :
    sumLen (ms.map fun m => { m with mbufState := .loss }) = sumLen ms := by
  rw [sumLen, List.map_map]
  rfl

/-! ## The send buffer -/

/-- The buffer as a part of the stream that starts behind the SYN; `size` is its capacity, and
`bound` an mbuf that the application has not used yet. -/
structure Laid (size : Nat) (bound : MbufId) (k : Core) (sent : List Sent) (h : Nat)
    (H N : List SndMbuf) : Prop where
  head : k.sndbuf.headSeq = tcpSeqAt (k.iss + 1) h
  located : Located (k.iss + 1) sent h (k.sndbuf.uackList ++ k.sndbuf.retransList)
  total : h + SndBuff.sumLen (k.sndbuf.uackList ++ k.sndbuf.retransList) = streamLen sent
  holds : k.sndbuf.Holds H N
  unsent : ∀ m ∈ H ++ N, transmitted m.id sent = false ∧ m.id < bound
  nodup : ((H ++ N).map SndMbuf.id).Nodup
  issued : ∀ p ∈ sent, ∀ id, p.data = some id → id < bound
  bytes : SndBuff.sumLen (k.sndbuf.held H N) ≤ k.sndbuf.sbLen.toNat
  filled : k.sndbuf.sbLen.toNat ≤ size
  room : k.sndbuf.size = BitVec.ofNat 32 size
  fss : k.state.isFin = true → k.fss = k.sndbuf.nextSeq

/-- What is sent next goes where it belongs, or nothing is sent. -/
structure Placed (size : Nat) (bound : MbufId) (k : Core) (sent : List Sent) (h : Nat)
    (H N : List SndMbuf) : Prop extends Laid size bound k sent h H N where
  nxt : k.sndNxt = tcpSeqAt (k.iss + 1) (h + SndBuff.sumLen k.sndbuf.uackList) ∨
    (k.sndbuf.uackList = [] ∧ tcpSeqLt k.sndNxt k.sndbuf.headSeq = true)
  lists : k.sndbuf.uackList = [] ∨ k.sndbuf.retransList = []

namespace Laid

variable {size : Nat} {bound : MbufId} {k : Core} {sent : List Sent} {h : Nat}
  {H N : List SndMbuf}

theorem sumLen_sent (laid : Laid size bound k sent h H N) :
    SndBuff.sumLen k.sndbuf.uackList + SndBuff.sumLen k.sndbuf.retransList ≤
      k.sndbuf.sbLen.toNat := by
  have bytes := laid.bytes
  simp only [SndBuff.held, SndBuff.sumLen_append] at bytes
  omega

/-- An acknowledgement frees the front part `A` of what was sent. -/
theorem cut (laid : Laid size bound k sent h H N) {b : SndBuff} {A : List SndMbuf}
    (parts : k.sndbuf.uackList ++ k.sndbuf.retransList = A ++ (b.uackList ++ b.retransList))
    (head : b.headSeq = k.sndbuf.headSeq + BitVec.ofNat 32 (SndBuff.sumLen A))
    (next : b.nextSeq = k.sndbuf.nextSeq) (size' : b.size = k.sndbuf.size)
    (high : b.husndQ = k.sndbuf.husndQ) (low : b.usndQ = k.sndbuf.usndQ) :
    Laid size bound { k with sndbuf := b } sent (h + SndBuff.sumLen A) H N := by
  have bytes := laid.bytes
  have filled := laid.filled
  have sums := congrArg SndBuff.sumLen parts
  simp only [SndBuff.sumLen_append] at sums
  simp only [SndBuff.held, SndBuff.sumLen_append] at bytes
  have len : b.sbLen.toNat = k.sndbuf.sbLen.toNat - SndBuff.sumLen A := by
    have moved : b.sbLen = k.sndbuf.sbLen - BitVec.ofNat 32 (SndBuff.sumLen A) := by
      rw [SndBuff.sbLen, SndBuff.sbLen, head, next]
      bv_omega
    have fits := k.sndbuf.sbLen.isLt
    rw [moved, BitVec.toNat_sub_of_le, BitVec.toNat_ofNat, Nat.mod_eq_of_lt (by omega)]
    rw [BitVec.le_def, BitVec.toNat_ofNat, Nat.mod_eq_of_lt (by omega)]
    omega
  refine
    { laid with
      head := ?_
      located := ?_
      total := ?_
      holds := laid.holds.congr high low
      bytes := ?_
      filled := ?_
      room := size'.trans laid.room
      fss := fun fin => (laid.fss fin).trans next.symm }
  · rw [← tcpSeqAt_add]
    exact head.trans (congrArg (· + _) laid.head)
  · have located := laid.located
    rw [parts, Located.append] at located
    exact located.2
  · have total := laid.total
    rw [parts, SndBuff.sumLen_append] at total
    exact (Nat.add_assoc _ _ _).trans total
  · change SndBuff.sumLen (b.held H N) ≤ b.sbLen.toNat
    simp only [SndBuff.held, SndBuff.sumLen_append]
    omega
  · change b.sbLen.toNat ≤ size
    omega

/-- What was sent is marked lost; `sb_reset_retrans` refuses when something is lost already. -/
theorem lost (laid : Laid size bound k sent h H N)
    (lists : k.sndbuf.uackList = [] ∨ k.sndbuf.retransList = []) :
    Laid size bound { k with sndbuf := k.sndbuf.sbResetRetrans.2 } sent h H N ∧
      k.sndbuf.sbResetRetrans.2.uackList = [] ∧
      SndBuff.sumLen k.sndbuf.sbResetRetrans.2.retransList =
        SndBuff.sumLen (k.sndbuf.uackList ++ k.sndbuf.retransList) := by
  rcases SndBuff.sbResetRetrans_cases k.sndbuf with ⟨same, none⟩ | ⟨-, empty, moved⟩
  · have noUack : k.sndbuf.uackList = [] := by
      rcases lists with noU | noR
      · exact noU
      · rcases none with noU | some
        · exact noU
        · exact absurd noR some
    rw [same, noUack]
    exact ⟨laid, rfl, rfl⟩
  · have located := laid.located
    have total := laid.total
    have bytes := laid.bytes
    rw [empty, List.append_nil] at located total
    rw [SndBuff.held, empty, List.append_nil] at bytes
    rw [moved, empty, List.append_nil]
    refine ⟨{ laid with
        located := located.lost
        total := ?_
        holds := laid.holds.congr rfl rfl
        bytes := ?_ }, rfl, SndBuff.sumLen_lost _⟩
    · rw [List.nil_append, SndBuff.sumLen_lost]
      exact total
    · change SndBuff.sumLen ([] ++ List.map _ _ ++ H ++ N) ≤ k.sndbuf.sbLen.toNat
      simp only [List.nil_append, SndBuff.sumLen_append, SndBuff.sumLen_lost] at bytes ⊢
      exact bytes

/-- The front part of what was sent is, marked lost, the front part of `retrans_list`. -/
theorem lost_prefix (laid : Laid size bound k sent h H N)
    (lists : k.sndbuf.uackList = [] ∨ k.sndbuf.retransList = []) {A : List SndMbuf}
    (part : A <+: k.sndbuf.uackList ++ k.sndbuf.retransList) :
    ∃ A', A' <+: k.sndbuf.sbResetRetrans.2.retransList ∧ SndBuff.sumLen A' = SndBuff.sumLen A := by
  rcases SndBuff.sbResetRetrans_cases k.sndbuf with ⟨same, -⟩ | ⟨-, empty, moved⟩
  · have none := (laid.lost lists).2.1
    rw [same] at none ⊢
    rw [none, List.nil_append] at part
    exact ⟨A, part, rfl⟩
  · rw [empty, List.append_nil] at part
    rw [moved]
    exact ⟨_, part.map _, SndBuff.sumLen_lost A⟩

end Laid

/-! ## Acknowledgements -/

/-- Where an acknowledgement beyond `head_seq` that moves `snd_nxt` may end: at the end of an
mbuf that was sent, and behind `snd_nxt` if that is below `head_seq`. -/
structure Lands (b : SndBuff) (nxt a : Seq) : Prop where
  whole : ∃ A, A <+: b.uackList ++ b.retransList ∧
    a = b.headSeq + BitVec.ofNat 32 (SndBuff.sumLen A)
  ahead : tcpSeqLt nxt b.headSeq = true → tcpSeqGt a nxt = true

instance Lands.decidable (b : SndBuff) (nxt a : Seq) : Decidable (Lands b nxt a) :=
  decidable_of_iff ((∃ A ∈ (b.uackList ++ b.retransList).inits,
      a = b.headSeq + BitVec.ofNat 32 (SndBuff.sumLen A)) ∧
      (tcpSeqLt nxt b.headSeq = true → tcpSeqGt a nxt = true))
    ⟨fun h => ⟨h.1.imp fun _ part => ⟨(List.mem_inits _ _).mp part.1, part.2⟩, h.2⟩,
      fun h => ⟨h.whole.imp fun _ part => ⟨(List.mem_inits _ _).mpr part.1, part.2⟩, h.ahead⟩⟩

/-- The acknowledgement can move `snd_nxt`. -/
def Core.unsettled (k : Core) (fast : Bool) (a : Seq) : Bool :=
  fast || tcpSeqGt a k.sndNxt || tcpSeqLt k.sndNxt k.sndbuf.headSeq

namespace Placed

variable {size : Nat} {bound : MbufId} {k : Core} {sent : List Sent} {h : Nat}
  {H N : List SndMbuf}

/-- `snd_nxt` goes back to `head_seq`, or below it, when no sent mbuf waits. -/
theorem rewind (laid : Laid size bound k sent h H N) (none : k.sndbuf.uackList = []) {a : Seq}
    (back : a = k.sndbuf.headSeq ∨ tcpSeqLt a k.sndbuf.headSeq = true) :
    Placed size bound { k with sndNxt := a } sent h H N := by
  refine { laid with nxt := ?_, lists := .inl none }
  rcases back with rfl | below
  · refine .inl ?_
    change k.sndbuf.headSeq = tcpSeqAt (k.iss + 1) (h + SndBuff.sumLen k.sndbuf.uackList)
    rw [none]
    exact laid.head
  · exact .inr ⟨none, below⟩

/-- The same, with the sent mbufs marked lost. -/
theorem reset (placed : Placed size bound k sent h H N) {a : Seq}
    (back : a = k.sndbuf.headSeq ∨ tcpSeqLt a k.sndbuf.headSeq = true) :
    Placed size bound { k with sndNxt := a, sndbuf := k.sndbuf.sbResetRetrans.2 } sent h H N := by
  obtain ⟨laid, none, -⟩ := placed.toLaid.lost placed.lists
  refine rewind laid none ?_
  rw [k.sndbuf.sbResetRetrans_frame.1]
  exact back

/-- An acknowledgement up to `a`, the end of `A`, when everything sent is marked lost. -/
theorem retireLost (laid : Laid size bound k sent h H N) (small : size < 2 ^ 31)
    (none : k.sndbuf.uackList = []) {A : List SndMbuf} (part : A <+: k.sndbuf.retransList) {a : Seq}
    (whole : a = k.sndbuf.headSeq + BitVec.ofNat 32 (SndBuff.sumLen A)) :
    Placed size bound { k with
      sndNxt := a, sndbuf := (k.sndbuf.sbRemoveAcked a).2, sndUna := a } sent
      (h + SndBuff.sumLen A) H N := by
  obtain ⟨B, parts⟩ := part
  have located := laid.located
  have sums := laid.sumLen_sent
  have filled := laid.filled
  rw [none, List.nil_append, ← parts] at located
  rw [none, SndBuff.sumLen_nil, ← parts] at sums
  have freed := located.removeAcked_eq (by omega)
  rw [← tcpSeqAt_add, ← laid.head, ← whole, parts] at freed
  have uack : (k.sndbuf.sbRemoveAcked a).2.uackList = [] := by
    change (SndBuff.removeAcked a k.sndbuf.uackList).2 = []
    rw [none]
    rfl
  have retrans : (k.sndbuf.sbRemoveAcked a).2.retransList = B := congrArg Prod.snd freed
  have head : (k.sndbuf.sbRemoveAcked a).2.headSeq = a := by
    change k.sndbuf.headSeq + BitVec.ofNat 32 (SndBuff.sumLen
      (SndBuff.removeAcked a k.sndbuf.uackList).1) + BitVec.ofNat 32 (SndBuff.sumLen
        (SndBuff.removeAcked a k.sndbuf.retransList).1) = a
    rw [none, freed, whole]
    simp [SndBuff.removeAcked]
  have cut := laid.cut (A := A) (by rw [none, uack, retrans]; exact parts.symm) (head.trans whole)
    rfl rfl rfl rfl
  refine { cut with nxt := .inl ?_, lists := .inl uack }
  change a = tcpSeqAt (k.iss + 1)
    (h + SndBuff.sumLen A + SndBuff.sumLen (k.sndbuf.sbRemoveAcked a).2.uackList)
  rw [uack]
  exact head.symm.trans cut.head

/-- An acknowledgement that leaves `snd_nxt` alone, when nothing is marked lost. -/
theorem retireSent (placed : Placed size bound k sent h H N)
    (nxt : k.sndNxt = tcpSeqAt (k.iss + 1) (h + SndBuff.sumLen k.sndbuf.uackList))
    (none : k.sndbuf.retransList = []) (a : Seq) :
    ∃ h', Placed size bound { k with
      sndbuf := (k.sndbuf.sbRemoveAcked a).2, sndUna := a } sent h' H N := by
  have parts := SndBuff.removeAcked_append a k.sndbuf.uackList
  have retrans : (k.sndbuf.sbRemoveAcked a).2.retransList = [] := by
    change (SndBuff.removeAcked a k.sndbuf.retransList).2 = []
    rw [none]
    rfl
  have head : (k.sndbuf.sbRemoveAcked a).2.headSeq = k.sndbuf.headSeq +
      BitVec.ofNat 32 (SndBuff.sumLen (SndBuff.removeAcked a k.sndbuf.uackList).1) := by
    change k.sndbuf.headSeq + _ + BitVec.ofNat 32 (SndBuff.sumLen
      (SndBuff.removeAcked a k.sndbuf.retransList).1) = _
    rw [none]
    simp [SndBuff.removeAcked]
  have cut := placed.toLaid.cut (by rw [none, retrans, List.append_nil, List.append_nil]; exact parts.symm)
    head rfl rfl rfl rfl
  refine ⟨_, { cut with nxt := .inl ?_, lists := .inr retrans }⟩
  have sums := congrArg SndBuff.sumLen parts
  rw [SndBuff.sumLen_append] at sums
  change k.sndNxt = tcpSeqAt (k.iss + 1) (h + SndBuff.sumLen
    (SndBuff.removeAcked a k.sndbuf.uackList).1 + SndBuff.sumLen
      (SndBuff.removeAcked a k.sndbuf.uackList).2)
  rw [nxt, Nat.add_assoc, sums]

/-- An acknowledgement of nothing new can only move `snd_nxt` back, or up to `head_seq`. -/
theorem onOldAck (placed : Placed size bound k sent h H N) (small : size < 2 ^ 31) (fast : Bool)
    {a : Seq} (fits : tcpSeqGt a (k.sndbuf.headSeq + k.sndbuf.sbLen) = false)
    (old : tcpSeqGeq k.sndbuf.headSeq a = true) :
    Placed size bound ((if fast then k.rollback a else k).recover a) sent h H N := by
  have back : a = k.sndbuf.headSeq ∨ tcpSeqLt a k.sndbuf.headSeq = true := by
    rw [tcpSeqLt, Lib.Serial.lt_iff_toNat]
    rw [tcpSeqGeq_eq, Bool.not_eq_true', tcpSeqLt, Bool.eq_false_iff, Ne, Lib.Serial.lt_iff_toNat]
      at old
    by_cases same : a = k.sndbuf.headSeq
    · exact .inl same
    · refine .inr ?_
      bv_omega
  rcases k.recover_cases fast a with ⟨same, -⟩ | ⟨b, result, ⟨rfl, -⟩ | ⟨rfl, more⟩⟩
  · rw [same]
    exact placed
  · rw [result]
    exact placed.reset back
  · rw [result]
    rcases placed.nxt with nxt | ⟨none, -⟩
    · -- what is not beyond the buffer cannot pass `snd_nxt` from below `head_seq`
      exfalso
      have sums := placed.sumLen_sent
      have filled := placed.filled
      have head := placed.head
      rw [tcpSeqGt_eq, Bool.not_eq_false', tcpSeqLeq, Lib.Serial.leq_iff_toNat] at fits
      rw [tcpSeqGt_eq, Bool.not_eq_true', tcpSeqLeq, Bool.eq_false_iff, Ne,
        Lib.Serial.leq_iff_toNat, nxt, ← tcpSeqAt_add, ← head] at more
      rw [tcpSeqGeq_eq, Bool.not_eq_true', tcpSeqLt, Bool.eq_false_iff, Ne,
        Lib.Serial.lt_iff_toNat] at old
      bv_omega
    · exact rewind placed.toLaid none back

/-- **An acknowledgement keeps the mbufs in their places**, provided it lands where it should when
it moves `snd_nxt`. -/
theorem onAck (placed : Placed size bound k sent h H N) (small : size < 2 ^ 31) {fast : Bool}
    {a : Seq} (fits : tcpSeqGt a (k.sndbuf.headSeq + k.sndbuf.sbLen) = false)
    (lands : tcpSeqLt k.sndbuf.headSeq a = true → k.unsettled fast a = true →
      Lands k.sndbuf k.sndNxt a) :
    ∃ h', Placed size bound (k.onAck fast a) sent h' H N := by
  have unfolded : k.onAck fast a = ((if fast then k.rollback a else k).recover a).retire a := by
    unfold Core.onAck
    rw [if_neg (by rw [fits]; decide)]
  rw [unfolded]
  by_cases old : tcpSeqGeq k.sndbuf.headSeq a = true
  · have moved := placed.onOldAck small fast fits old
    have head : ((if fast then k.rollback a else k).recover a).sndbuf.headSeq =
        k.sndbuf.headSeq := by
      rcases k.recover_cases fast a with ⟨same, -⟩ | ⟨b, result, ⟨rfl, -⟩ | ⟨rfl, -⟩⟩
      · rw [same]
      · rw [result]
        exact k.sndbuf.sbResetRetrans_frame.1
      · rw [result]
    rw [Core.retire, if_pos (by rw [head]; exact old)]
    exact ⟨h, moved⟩
  have fresh : tcpSeqLt k.sndbuf.headSeq a = true := by
    rw [tcpSeqGeq_eq, Bool.not_eq_true', Bool.not_eq_false] at old
    exact old
  have sums := placed.sumLen_sent
  have filled := placed.filled
  rcases k.recover_cases fast a with ⟨same, reached⟩ | ⟨b, result, why⟩
  · -- `snd_nxt` stays, so that nothing is marked lost
    rw [same, Core.retire, if_neg old]
    have nxt : k.sndNxt = tcpSeqAt (k.iss + 1) (h + SndBuff.sumLen k.sndbuf.uackList) := by
      rcases placed.nxt with nxt | ⟨-, below⟩
      · exact nxt
      · have ahead := (lands fresh (by rw [Core.unsettled, below, Bool.or_true])).ahead below
        rw [reached] at ahead
        cases ahead
    refine placed.retireSent nxt ?_ a
    rcases placed.lists with none | none
    · by_contra some
      have positive : SndBuff.sumLen k.sndbuf.retransList ≠ 0 := by
        intro zero
        have located := placed.located
        rw [none] at located
        exact some (located.eq_nil zero)
      rw [nxt, none, SndBuff.sumLen_nil, Nat.add_zero, ← placed.head] at reached
      rw [tcpSeqGt_eq, Bool.not_eq_false', tcpSeqLeq, Lib.Serial.leq_iff_toNat] at fits reached
      rw [tcpSeqLt, Lib.Serial.lt_iff_toNat] at fresh
      bv_omega
    · exact none
  · have unsettled : k.unsettled fast a = true := by
      rw [Core.unsettled]
      rcases why with ⟨-, dup, -⟩ | ⟨-, more⟩
      · rw [dup]
        rfl
      · rw [more, Bool.or_true]
        rfl
    obtain ⟨⟨A, part, whole⟩, -⟩ := lands fresh unsettled
    rcases why with ⟨rfl, -, -⟩ | ⟨rfl, more⟩
    · obtain ⟨laid, none, -⟩ := placed.toLaid.lost placed.lists
      have head := k.sndbuf.sbResetRetrans_frame.1
      rw [result, Core.retire, if_neg (by exact head ▸ old)]
      obtain ⟨A', part', sum⟩ := placed.toLaid.lost_prefix placed.lists part
      rw [← sum, ← head] at whole
      exact ⟨_, retireLost laid small none part' whole⟩
    · rw [result, Core.retire, if_neg old]
      have none : k.sndbuf.uackList = [] := by
        rcases placed.lists with none | none
        · exact none
        · rcases placed.nxt with nxt | ⟨none, -⟩
          · -- otherwise `snd_nxt` is behind everything that was sent
            exfalso
            rw [none, List.append_nil] at part
            obtain ⟨B, parts⟩ := part
            have sum := congrArg SndBuff.sumLen parts
            rw [SndBuff.sumLen_append] at sum
            rw [tcpSeqGt_eq, Bool.not_eq_true', tcpSeqLeq, Bool.eq_false_iff, Ne,
              Lib.Serial.leq_iff_toNat, nxt, ← tcpSeqAt_add, ← placed.head, whole] at more
            bv_omega
          · exact none
      rw [none, List.nil_append] at part
      exact ⟨_, retireLost placed.toLaid small none part whole⟩

/-! ## The application puts data -/

theorem issue (placed : Placed size bound k sent h H N) :
    Placed size (bound + 1) k sent h H N :=
  { placed with
    unsent := fun m inside => ⟨(placed.unsent m inside).1, Nat.lt_succ_of_lt (placed.unsent m inside).2⟩
    issued := fun p inside id data => Nat.lt_succ_of_lt (placed.issued p inside id data) }

theorem put (placed : Placed size bound k sent h H N) (small : size < 2 ^ 31)
    (opened : k.state.isOpen = true) {m : SndMbuf} (new : m.id = bound) :
    ∃ H' N', Placed size (bound + 1) { k with sndbuf := (k.sndbuf.sbPut m).2 } sent h H' N' := by
  have filled := placed.filled
  have bytes := placed.bytes
  have notFin : k.state.isFin = true → False := by
    intro fin
    rw [TcpState.isOpen_of_isFin fin] at opened
    cases opened
  have room : k.sndbuf.toPut m ≤ size - k.sndbuf.sbLen.toNat := by
    unfold SndBuff.toPut
    refine le_trans (Nat.min_le_right _ _) ?_
    rw [placed.room, BitVec.toNat_sub_of_le, BitVec.toNat_ofNat]
    · omega
    · rw [BitVec.le_def, BitVec.toNat_ofNat, Nat.mod_eq_of_lt (by omega)]
      exact filled
  have len : ∀ b : SndBuff, b.headSeq = k.sndbuf.headSeq → b.nextSeq = (k.sndbuf.reserve m).nextSeq →
      b.sbLen.toNat = k.sndbuf.sbLen.toNat + k.sndbuf.toPut m := by
    intro b head next
    have moved : b.sbLen = k.sndbuf.sbLen + BitVec.ofNat 32 (k.sndbuf.toPut m) := by
      rw [SndBuff.sbLen, SndBuff.sbLen, head, next]
      change k.sndbuf.nextSeq + BitVec.ofNat 32 (k.sndbuf.toPut m) - k.sndbuf.headSeq = _
      bv_omega
    rw [moved, BitVec.toNat_add, BitVec.toNat_ofNat, Nat.mod_eq_of_lt (by omega : _ < 2 ^ 32),
      Nat.mod_eq_of_lt (by omega)]
  by_cases none : k.sndbuf.toPut m = 0
  · rw [SndBuff.sbPut_refused none]
    exact ⟨H, N, placed.issue⟩
  cases full : k.sndbuf.targetFull m with
  | true =>
      rw [SndBuff.sbPut_full none full]
      have grown := len (k.sndbuf.reserve m) rfl rfl
      refine ⟨H, N, { placed.issue with
        holds := placed.holds.congr rfl rfl
        bytes := ?_
        filled := ?_
        fss := fun fin => (notFin fin).elim }⟩
      · change SndBuff.sumLen (k.sndbuf.held H N) ≤ (k.sndbuf.reserve m).sbLen.toNat
        omega
      · change (k.sndbuf.reserve m).sbLen.toNat ≤ size
        omega
  | false =>
      obtain ⟨b, H', N', result, holds, perm, uack, retrans, size', head, next⟩ :=
        SndBuff.sbPut_stored placed.holds none full
      rw [result]
      have grown := len b head next
      -- the new mbuf is the only difference in the two rings
      have rings : (H' ++ N').Perm (k.sndbuf.stamped m :: (H ++ N)) := by
        rw [SndBuff.held, SndBuff.held, uack, retrans, List.append_assoc _ H' N',
          List.append_assoc _ H N] at perm
        exact (List.perm_append_left_iff _).mp (perm.trans List.perm_middle.symm)
      have same : b.uackList ++ b.retransList = k.sndbuf.uackList ++ k.sndbuf.retransList := by
        rw [uack, retrans]
      have fresh : transmitted bound sent = false := by
        rw [transmitted, List.any_eq_false]
        intro p inside data
        exact absurd (placed.issued p inside bound (by simpa using data)) (Nat.lt_irrefl _)
      refine ⟨H', N', { placed.issue with
        head := head.trans placed.head
        located := same ▸ placed.located
        total := same ▸ placed.total
        holds := holds
        unsent := ?_
        nodup := ?_
        bytes := ?_
        filled := ?_
        room := size'.trans placed.room
        fss := fun fin => (notFin fin).elim
        nxt := ?_
        lists := ?_ }⟩
      · intro m' inside
        rcases List.mem_cons.mp (rings.mem_iff.mp inside) with rfl | inside
        · rw [SndBuff.stamped, new]
          exact ⟨fresh, Nat.lt_succ_self _⟩
        · exact placed.issue.unsent m' inside
      · refine (rings.map SndMbuf.id).nodup_iff.mpr (List.nodup_cons.mpr ⟨?_, placed.nodup⟩)
        rw [SndBuff.stamped, new]
        intro inside
        obtain ⟨m', held, eq⟩ := List.mem_map.mp inside
        exact absurd (eq ▸ (placed.unsent m' held).2) (Nat.lt_irrefl _)
      · change SndBuff.sumLen (b.held H' N') ≤ b.sbLen.toNat
        rw [SndBuff.sumLen_perm perm, SndBuff.sumLen_cons, grown]
        change k.sndbuf.toPut m + _ ≤ _
        omega
      · change b.sbLen.toNat ≤ size
        omega
      · change k.sndNxt = tcpSeqAt (k.iss + 1) (h + SndBuff.sumLen b.uackList) ∨
          (b.uackList = [] ∧ tcpSeqLt k.sndNxt b.headSeq = true)
        rw [uack, head]
        exact placed.nxt
      · change b.uackList = [] ∨ b.retransList = []
        rw [uack, retrans]
        exact placed.lists

end Placed

/-! ## The flush -/

/-- The buffer in the middle of a flush whose window admits all that was lost. -/
structure Flowing (size : Nat) (bound : MbufId) (window : U32) (v : View) (h : Nat)
    (H N : List SndMbuf) : Prop where
  laid : Laid size bound v.toCore v.sent h H N
  tiled : Tiled (v.iss + 1) v.sent
  nxt : v.sndNxt = tcpSeqAt (v.iss + 1) (h + SndBuff.sumLen v.sndbuf.uackList)
  fits : SndRun.Fits (v.sndUna + window) v.sndNxt v.sndbuf.retransList

namespace Flowing

variable {size : Nat} {bound : MbufId} {window : U32} {v : View} {h : Nat} {H N : List SndMbuf}
  {m : SndMbuf} {b : SndBuff}

/-- The next mbuf is a lost one, or a new one when nothing is lost. -/
theorem pop_cases (flowing : Flowing size bound window v h H N)
    (pop : v.sndbuf.popWaiting = (some m, b)) :
    ∃ H' N', v.sndbuf.Popped H N m b H' N' ∧
      ((v.sndbuf.retransList = m :: b.retransList ∧ H ++ N = H' ++ N') ∨
        (v.sndbuf.retransList = [] ∧ b.retransList = [] ∧ H ++ N = m :: (H' ++ N'))) := by
  rcases SndBuff.popWaiting_cases flowing.laid.holds with ⟨none, -⟩ | ⟨m', b', H', N', some, popped⟩
  · change v.sndbuf.popWaiting = _ at none
    rw [none] at pop
    cases pop
  · change v.sndbuf.popWaiting = _ at some
    rw [some] at pop
    cases pop
    refine ⟨H', N', popped, ?_⟩
    have waiting := popped.waiting
    rw [List.append_assoc, List.append_assoc] at waiting
    rcases popped.retrans with lost | ⟨none, none'⟩
    · rw [lost, List.cons_append, List.cons.injEq] at waiting
      exact .inl ⟨lost, List.append_cancel_left waiting.2⟩
    · rw [none, none', List.nil_append, List.nil_append] at waiting
      exact .inr ⟨none, none', waiting⟩

/-- A new mbuf is taken out and not sent. -/
theorem dropNew (flowing : Flowing size bound window v h H N) {H' N' : List SndMbuf}
    (popped : v.sndbuf.Popped H N m b H' N') (none : v.sndbuf.retransList = [])
    (none' : b.retransList = []) (rest : H ++ N = m :: (H' ++ N')) :
    Flowing size bound window (v.setSndbuf b) h H' N' := by
  have laid := flowing.laid
  have bytes := laid.bytes
  have sums := congrArg SndBuff.sumLen rest
  have len : b.sbLen = v.sndbuf.sbLen := by
    rw [SndBuff.sbLen, SndBuff.sbLen, popped.head, popped.next]
  have sent : b.uackList ++ b.retransList = v.sndbuf.uackList ++ v.sndbuf.retransList := by
    rw [popped.uack, none, none']
  simp only [SndBuff.held, SndBuff.sumLen_append, SndBuff.sumLen_cons, none] at sums bytes
  refine ⟨{ laid with
      head := popped.head.trans laid.head
      located := sent ▸ laid.located
      total := sent ▸ laid.total
      holds := popped.holds
      unsent := fun m' inside => laid.unsent m' (by rw [rest]; exact List.mem_cons_of_mem m inside)
      nodup := ?_
      bytes := ?_
      filled := len ▸ laid.filled
      room := popped.size.trans laid.room
      fss := fun fin => (laid.fss fin).trans popped.next.symm }, flowing.tiled, ?_, ?_⟩
  · have nodup := laid.nodup
    rw [rest, List.map_cons] at nodup
    exact (List.nodup_cons.mp nodup).2
  · change SndBuff.sumLen (b.held H' N') ≤ b.sbLen.toNat
    simp only [SndBuff.held, SndBuff.sumLen_append, len, popped.uack, none', SndBuff.sumLen_nil]
    simp only [SndBuff.sumLen_nil] at bytes
    omega
  · change v.sndNxt = tcpSeqAt (v.iss + 1) (h + SndBuff.sumLen b.uackList)
    rw [popped.uack]
    exact flowing.nxt
  · change SndRun.Fits _ _ b.retransList
    rw [none']
    trivial

/-- A lost mbuf is sent again, in its place. -/
theorem sendLost (flowing : Flowing size bound window v h H N) {H' N' : List SndMbuf}
    (popped : v.sndbuf.Popped H N m b H' N')
    (lost : v.sndbuf.retransList = m :: b.retransList) (rest : H ++ N = H' ++ N') :
    Flowing size bound window (v.sendData m b) h H' N' := by
  have laid := flowing.laid
  have located := laid.located
  have total := laid.total
  have bytes := laid.bytes
  have fits := flowing.fits
  rw [lost, Located.append] at located
  rw [lost] at total fits
  obtain ⟨sentBefore, lies, later⟩ := located
  obtain ⟨q, known, data, len⟩ := lies.first
  have seq : q.seq = v.sndNxt := by
    rw [flowing.tiled.seq q known m.id data, lies.place]
    exact flowing.nxt.symm
  have sent := View.sendData_sent v b lies.payload
  have transmittedM := transmitted_of_mem known data
  have sbLen : (v.sendData m b).sndbuf.sbLen = v.sndbuf.sbLen := by
    change b.nextSeq - b.headSeq = v.sndbuf.nextSeq - v.sndbuf.headSeq
    rw [popped.head, popped.next]
  have uack : (v.sendData m b).sndbuf.uackList =
      v.sndbuf.uackList ++ [{ m with tcpSeq := v.sndNxt, mbufState := .sent }] :=
    congrArg (· ++ _) popped.uack
  have total' : streamLen (v.sendData m b).sent = streamLen v.sent := by
    rw [sent, streamLen]
    exact if_pos transmittedM
  refine ⟨?_, ?_, ?_, fits.2⟩
  · refine
      { head := popped.head.trans laid.head
        located := ?_
        total := ?_
        holds := ⟨popped.holds.high, popped.holds.low⟩
        unsent := ?_
        nodup := rest ▸ laid.nodup
        issued := ?_
        bytes := ?_
        filled := sbLen ▸ laid.filled
        room := popped.size.trans laid.room
        fss := fun fin => (laid.fss fin).trans popped.next.symm }
    · rw [uack, sent, List.append_assoc, List.singleton_append, Located.append]
      refine ⟨sentBefore.logged _, ⟨⟨q, List.mem_cons_of_mem _ known, data, len⟩, ?_, ?_, lies.payload⟩,
        later.logged _⟩
      · exact (streamPos_cons _ transmittedM).trans lies.place
      · exact flowing.nxt
    · rw [uack, total']
      simp only [SndBuff.sumLen_append, SndBuff.sumLen_cons, SndBuff.sumLen_nil] at total ⊢
      change h + (_ + (m.payloadLen + 0) + SndBuff.sumLen b.retransList) = _
      change h + (SndBuff.sumLen v.sndbuf.uackList + _) = _ at total
      omega
    · intro m' inside
      rw [← rest] at inside
      obtain ⟨new, issued⟩ := laid.unsent m' inside
      refine ⟨?_, issued⟩
      rw [sent, transmitted, List.any_cons, ← transmitted, new, Bool.or_false]
      rw [beq_eq_false_iff_ne]
      intro same
      rw [← Option.some.inj same, transmittedM] at new
      cases new
    · rw [sent]
      intro p inside id data'
      rcases List.mem_cons.mp inside with rfl | inside
      · cases data'
        exact laid.issued q known _ data
      · exact laid.issued p inside id data'
    · rw [sbLen]
      have sums := congrArg SndBuff.sumLen rest
      simp only [SndBuff.held, SndBuff.sumLen_append, uack] at bytes sums ⊢
      change SndBuff.sumLen v.sndbuf.uackList + SndBuff.sumLen v.sndbuf.retransList + _ + _ ≤
        v.sndbuf.sbLen.toNat at bytes
      rw [lost, SndBuff.sumLen_cons] at bytes
      change _ + (m.payloadLen + 0) + SndBuff.sumLen b.retransList + _ + _ ≤ _
      omega
  · rw [sent]
    exact flowing.tiled.again known data rfl seq.symm len.symm
  · rw [uack, SndBuff.sumLen_append, SndBuff.sumLen_cons, SndBuff.sumLen_nil, ← Nat.add_assoc,
      ← tcpSeqAt_add]
    exact congrArg (· + BitVec.ofNat 32 m.payloadLen) flowing.nxt

/-- A new mbuf is sent, at the end of the stream. -/
theorem sendNew (flowing : Flowing size bound window v h H N) {H' N' : List SndMbuf}
    (popped : v.sndbuf.Popped H N m b H' N') (payload : m.payloadLen ≠ 0)
    (none : v.sndbuf.retransList = []) (none' : b.retransList = [])
    (rest : H ++ N = m :: (H' ++ N')) : Flowing size bound window (v.sendData m b) h H' N' := by
  have dropped := flowing.dropNew popped none none' rest
  have laid := flowing.laid
  have total := laid.total
  have bytes := laid.bytes
  have located := laid.located
  rw [none, List.append_nil] at total located
  change h + SndBuff.sumLen v.sndbuf.uackList = _ at total
  obtain ⟨new, issued⟩ := laid.unsent m (by rw [rest]; exact List.mem_cons_self)
  have sent := View.sendData_sent v b payload
  have uack : (v.sendData m b).sndbuf.uackList =
      v.sndbuf.uackList ++ [{ m with tcpSeq := v.sndNxt, mbufState := .sent }] :=
    congrArg (· ++ _) popped.uack
  have retrans : (v.sendData m b).sndbuf.retransList = [] := none'
  have total' : streamLen (v.sendData m b).sent = streamLen v.sent + m.payloadLen := by
    rw [sent, streamLen]
    exact if_neg (by rw [new]; decide)
  have others : ∀ m' ∈ H' ++ N', m'.id ≠ m.id := by
    intro m' inside same
    have nodup := laid.nodup
    rw [rest, List.map_cons] at nodup
    exact (List.nodup_cons.mp nodup).1 (same ▸ List.mem_map_of_mem inside)
  refine ⟨{ dropped.laid with
      located := ?_
      total := ?_
      holds := ⟨popped.holds.high, popped.holds.low⟩
      unsent := ?_
      issued := ?_
      bytes := ?_ }, ?_, ?_, ?_⟩
  · rw [uack, retrans, List.append_nil, sent, Located.append]
    refine ⟨located.logged _, ⟨⟨_, List.mem_cons_self, rfl, rfl⟩, ?_, flowing.nxt, payload⟩, trivial⟩
    rw [streamPos, if_neg (by rw [new]; decide)]
    exact total.symm
  · rw [uack, retrans, total', ← total]
    simp only [SndBuff.sumLen_append, SndBuff.sumLen_cons, SndBuff.sumLen_nil]
    omega
  · intro m' inside
    obtain ⟨new', issued'⟩ := dropped.laid.unsent m' inside
    refine ⟨?_, issued'⟩
    rw [sent, transmitted, List.any_cons, ← transmitted]
    rw [show transmitted m'.id v.sent = false from new', Bool.or_false, beq_eq_false_iff_ne]
    intro same
    exact others m' inside (Option.some.inj same).symm
  · rw [sent]
    intro p inside id data
    rcases List.mem_cons.mp inside with rfl | inside
    · cases data
      exact issued
    · exact laid.issued p inside id data
  · have sums := congrArg SndBuff.sumLen rest
    have sbLen : (v.sendData m b).sndbuf.sbLen = v.sndbuf.sbLen := by
      change b.nextSeq - b.headSeq = v.sndbuf.nextSeq - v.sndbuf.headSeq
      rw [popped.head, popped.next]
    rw [sbLen]
    simp only [SndBuff.held, SndBuff.sumLen_append, SndBuff.sumLen_cons, SndBuff.sumLen_nil, uack,
      retrans] at bytes sums ⊢
    change SndBuff.sumLen v.sndbuf.uackList + _ + _ + _ ≤ v.sndbuf.sbLen.toNat at bytes
    omega
  · rw [sent]
    refine flowing.tiled.first new rfl ?_
    rw [← total]
    exact flowing.nxt
  · rw [uack, SndBuff.sumLen_append, SndBuff.sumLen_cons, SndBuff.sumLen_nil, ← Nat.add_assoc,
      ← tcpSeqAt_add]
    exact congrArg (· + BitVec.ofNat 32 m.payloadLen) flowing.nxt
  · rw [retrans]
    trivial

/-- The flush has come to its end. -/
theorem placed (flowing : Flowing size bound window v h H N) (none : v.sndbuf.retransList = []) :
    Placed size bound v.toCore v.sent h H N :=
  { flowing.laid with nxt := .inl flowing.nxt, lists := .inr none }

/-- **A flush whose window admits all that was lost sends every mbuf in its place.** -/
theorem flushed {rounds : Nat} {v v' : View} (flushed : Flushed window rounds v v')
    (small : size < 2 ^ 31) :
    ∀ {H N : List SndMbuf}, Flowing size bound window v h H N →
      (v.sndbuf.retransList ++ H ++ N).length < rounds →
      ∃ H' N', Placed size bound v'.toCore v'.sent h H' N' ∧ Tiled (v'.iss + 1) v'.sent := by
  induction flushed with
  | spent => exact fun _ short => absurd short (Nat.not_lt_zero _)
  | refused low =>
      intro H N flowing _
      exfalso
      have sums := flowing.laid.sumLen_sent
      have filled := flowing.laid.filled
      rw [flowing.nxt, ← tcpSeqAt_add, ← flowing.laid.head, tcpSeqLt, Lib.Serial.lt_iff_toNat] at low
      change SndBuff.sumLen _ + SndBuff.sumLen _ ≤ BitVec.toNat _ at sums
      bv_omega
  | empty _ pop =>
      intro H N flowing _
      rcases SndBuff.popWaiting_cases flowing.laid.holds with ⟨none, waiting⟩ | ⟨m, b', H', N', some, -⟩
      · rw [none] at pop
        cases pop
        refine ⟨H, N, flowing.placed ?_, flowing.tiled⟩
        exact (List.append_eq_nil_iff.mp (List.append_eq_nil_iff.mp waiting).1).1
      · rw [some] at pop
        cases pop
  | skip _ pop blank _ ih =>
      intro H N flowing short
      obtain ⟨H', N', popped, ⟨lost, -⟩ | ⟨none, none', rest⟩⟩ := flowing.pop_cases pop
      · have located := flowing.laid.located
        rw [lost, Located.append] at located
        exact absurd blank located.2.1.payload
      · exact ih (flowing.dropNew popped none none' rest) (popped.shorter short)
  | send _ pop payload _ _ ih =>
      intro H N flowing short
      obtain ⟨H', N', popped, cases_⟩ := flowing.pop_cases pop
      rcases cases_ with ⟨lost, rest⟩ | ⟨none, none', rest⟩
      · exact ih (flowing.sendLost popped lost rest) (popped.shorter short)
      · exact ih (flowing.sendNew popped payload none none' rest) (popped.shorter short)
  | drop _ pop payload outside =>
      intro H N flowing _
      obtain ⟨H', N', popped, ⟨lost, -⟩ | ⟨none, none', rest⟩⟩ := flowing.pop_cases pop
      · have fits := flowing.fits
        rw [lost] at fits
        rw [show View.outOfWindow _ _ _ = false from fits.1] at outside
        cases outside
      · exact ⟨H', N', (flowing.dropNew popped none none' rest).placed none', flowing.tiled⟩

end Flowing

end QStack
