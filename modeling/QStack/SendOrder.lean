/-
# QStack.SendOrder -- where the send variables stand

The send variables of a stream are positions in sequence space.  `Ordered` unwraps them:
counted from `iss`, `snd_una` is not after `snd_nxt`, that not after the end of what was
ever sent, and all of them, with both ends of the send buffer, lie within a few buffer
sizes of each other, so that the serial comparisons of the code are comparisons of
positions.

The bound on `snd_nxt` is the delicate one, since the window of the flush is not bounded.
It comes from `uack_list`: the mbufs sent since `snd_nxt` last jumped are the end of that
list and carry consecutive sequence numbers (`InSequence`), and the buffer holds no more than
its size.
-/
import QStack.SegmentData
import QStack.ServiceView

namespace QStack

set_option autoImplicit false

/-- One more than the highest sequence number ever sent. -/
def sndMax (iss : Seq) : List Sent → Seq
  | [] => iss
  | p :: older =>
      if tcpSeqGt p.seqEnd (sndMax iss older) then p.seqEnd else sndMax iss older

/-! ## Chains -/

/-- The mbufs carry consecutive sequence numbers from `seq` on. -/
def InSequence : Seq → List SndMbuf → Prop
  | _, [] => True
  | seq, m :: rest => m.tcpSeq = seq ∧ InSequence (seq + m.len) rest

namespace InSequence

theorem append_single {seq : Seq} {ms : List SndMbuf} {m : SndMbuf} (chain : InSequence seq ms)
    (next : m.tcpSeq = seq + BitVec.ofNat 32 (SndBuff.sumLen ms)) : InSequence seq (ms ++ [m]) := by
  induction ms generalizing seq with
  | nil =>
      refine ⟨?_, trivial⟩
      rw [next]
      simp
  | cons m' rest ih =>
      refine ⟨chain.1, ih chain.2 ?_⟩
      rw [next, SndBuff.sumLen_cons, BitVec.ofNat_add, ← add_assoc]
      rfl

theorem drop {seq : Seq} {done ms : List SndMbuf} (chain : InSequence seq (done ++ ms)) :
    InSequence (seq + BitVec.ofNat 32 (SndBuff.sumLen done)) ms := by
  induction done generalizing seq with
  | nil =>
      rw [SndBuff.sumLen_nil, BitVec.add_zero]
      exact chain
  | cons m rest ih =>
      rw [SndBuff.sumLen_cons, BitVec.ofNat_add, ← add_assoc]
      exact ih chain.2

end InSequence

namespace SndBuff

/-- Of a list that ends in a chain, an acknowledgement removes a part of the chain only up to
the acknowledged number. -/
theorem removeAcked_chain (a : Seq) (T : List SndMbuf) :
    ∀ (S : List SndMbuf) (seq : Seq), InSequence seq S →
      ∃ T' done S', S = done ++ S' ∧ (removeAcked a (T ++ S)).2 = T' ++ S' ∧
        (done = [] ∨ tcpSeqLeq (seq + BitVec.ofNat 32 (sumLen done)) a = true) := by
  induction T with
  | cons m rest ih =>
      intro S seq chain
      rw [List.cons_append, removeAcked]
      split
      · exact ih S seq chain
      · exact ⟨m :: rest, [], S, rfl, rfl, .inl rfl⟩
  | nil =>
      intro S
      induction S with
      | nil =>
          intro seq _
          exact ⟨[], [], [], rfl, rfl, .inl rfl⟩
      | cons m rest ih =>
          intro seq chain
          rw [List.nil_append, removeAcked]
          have seqEnd : m.seqEnd = seq + m.len := by rw [SndMbuf.seqEnd, chain.1]
          split
          · rename_i acked
            obtain ⟨T', done, S', parts, kept, bound⟩ := ih (seq + m.len) chain.2
            refine ⟨T', m :: done, S', by rw [parts]; rfl, kept, .inr ?_⟩
            rw [sumLen_cons, BitVec.ofNat_add, ← add_assoc]
            rcases bound with rfl | bound
            · rw [sumLen_nil, BitVec.add_zero]
              exact seqEnd ▸ acked
            · exact bound
          · exact ⟨[], [], m :: rest, rfl, rfl, .inl rfl⟩

/-- An acknowledgement frees some mbufs and moves `head_seq` by their lengths. -/
theorem sbRemoveAcked_spec (b : SndBuff) (a : Seq) (H N : List SndMbuf) :
    ∃ freed, (b.sbRemoveAcked a).2.headSeq = b.headSeq + BitVec.ofNat 32 freed ∧
      sumLen ((b.sbRemoveAcked a).2.held H N) + freed = sumLen (b.held H N) := by
  have splitU := congrArg sumLen (removeAcked_append a b.uackList)
  have splitR := congrArg sumLen (removeAcked_append a b.retransList)
  rw [sumLen_append] at splitU splitR
  refine ⟨sumLen (removeAcked a b.uackList).1 + sumLen (removeAcked a b.retransList).1, ?_, ?_⟩
  · rw [BitVec.ofNat_add, ← add_assoc]
    rfl
  · simp only [held, sumLen_append]
    change sumLen (removeAcked a b.uackList).2 + sumLen (removeAcked a b.retransList).2 + sumLen H +
      sumLen N + _ = _
    omega

theorem sumLen_reset (b : SndBuff) (H N : List SndMbuf) :
    sumLen (b.sbResetRetrans.2.held H N) = sumLen (b.held H N) := by
  rcases sbResetRetrans_cases b with ⟨same, -⟩ | ⟨-, empty, moved⟩
  · rw [same]
  · rw [moved]
    have lens : sumLen (b.uackList.map fun m => { m with mbufState := .loss }) = sumLen b.uackList := by
      rw [sumLen, List.map_map]
      rfl
    simp [held, empty, lens]

/-- The fields a loss does not touch. -/
theorem sbResetRetrans_frame (b : SndBuff) :
    b.sbResetRetrans.2.headSeq = b.headSeq ∧ b.sbResetRetrans.2.nextSeq = b.nextSeq ∧
      b.sbResetRetrans.2.size = b.size ∧ b.sbResetRetrans.2.husndQ = b.husndQ ∧
      b.sbResetRetrans.2.usndQ = b.usndQ := by
  rcases sbResetRetrans_cases b with ⟨same, -⟩ | ⟨-, -, moved⟩
  · rw [same]
    exact ⟨rfl, rfl, rfl, rfl, rfl⟩
  · rw [moved]
    exact ⟨rfl, rfl, rfl, rfl, rfl⟩

end SndBuff

/-! ## Positions -/

/-- Where the send variables stand, counted from `iss`. -/
structure Marks where
  una : Nat
  nxt : Nat
  max : Nat
  head : Nat
  next : Nat

/-- Our FIN has been acknowledged, or the stream is closed. -/
def TcpState.finAcked : TcpState → Bool
  | .finWait2 | .timeWait | .closed => true
  | _ => false

/-- What a segment respects of the groups of states. -/
theorem TcpState.follows_groups {state state' : TcpState} (legal : state.follows state' = true) :
    (state'.isFin = true → state.isFin = true) ∧ (state'.isOpen = true → state.isOpen = true) ∧
      (state.finAcked = true → state'.finAcked = true) := by
  revert legal
  cases state <;> cases state' <;> decide

/-- The positions of the send variables of `k`, for a buffer of `size` bytes. -/
structure Ordered (size : Nat) (k : Core) (max : Seq) (p : Marks) : Prop where
  una : k.sndUna = tcpSeqAt k.iss p.una
  nxt : k.sndNxt = tcpSeqAt k.iss p.nxt
  max : max = tcpSeqAt k.iss p.max
  head : k.sndbuf.headSeq = tcpSeqAt k.iss p.head
  next : k.sndbuf.nextSeq = tcpSeqAt k.iss p.next
  una_nxt : p.una ≤ p.nxt
  nxt_max : p.nxt ≤ p.max
  max_una : p.max ≤ p.una + 2 * size + 1
  head_next : p.head ≤ p.next
  next_head : p.next ≤ p.head + size
  head_una : p.head ≤ p.una + size
  una_next : p.una ≤ p.next ∨ (k.state.finAcked = true ∧ p.una ≤ p.next + 1)
  room : k.sndbuf.size = BitVec.ofNat 32 size
  holds : ∃ H N, k.sndbuf.Holds H N ∧ SndBuff.sumLen (k.sndbuf.held H N) ≤ p.next - p.head
  chain : k.isFinSent = false → ∃ x T S, k.sndbuf.uackList = T ++ S ∧ InSequence (tcpSeqAt k.iss x) S ∧
    p.nxt = x + SndBuff.sumLen S ∧ x ≤ p.una + size
  finSent : k.isFinSent = true → p.next + 1 ≤ p.max
  fss : k.state.isFin = true → k.fss = k.sndbuf.nextSeq
  open_ : k.state.isOpen = true → k.isFinSent = false

namespace Ordered

variable {size : Nat} {k : Core} {max : Seq} {p : Marks}

theorem sbLen (ord : Ordered size k max p) : k.sndbuf.sbLen = BitVec.ofNat 32 (p.next - p.head) := by
  rw [SndBuff.sbLen, ord.next, ord.head, tcpSeqAt_sub _ ord.head_next]

theorem una_succ (ord : Ordered size k max p) : p.una ≤ p.next + 1 := by
  rcases ord.una_next with le | ⟨-, le⟩
  · omega
  · exact le

theorem seqEnd (ord : Ordered size k max p) :
    k.sndbuf.headSeq + k.sndbuf.sbLen = tcpSeqAt k.iss p.next := by
  rw [ord.sbLen, ord.head, tcpSeqAt_add, Nat.add_sub_cancel' ord.head_next]

/-- What only changes the state keeps the order, as long as it respects the groups. -/
theorem withState (ord : Ordered size k max p) (state : TcpState)
    (fin : state.isFin = true → k.state.isFin = true)
    (opened : state.isOpen = true → k.state.isOpen = true)
    (acked : k.state.finAcked = true → state.finAcked = true) :
    Ordered size { k with state := state } max p :=
  { ord with
    una_next := ord.una_next.imp_right fun late => ⟨acked late.1, late.2⟩
    fss := fun now => ord.fss (fin now)
    open_ := fun now => ord.open_ (opened now) }

end Ordered

/-! ## Acknowledgements -/

/-- An acknowledgement the code should accept: for something that was sent, and nothing that was
acknowledged before is acknowledged again. -/
structure InOrder (k : Core) (max : Seq) (fast : Bool) (a : Seq) : Prop where
  sent : tcpSeqLeq a max = true
  forward : tcpSeqLt k.sndbuf.headSeq a = true → tcpSeqGeq a k.sndUna = true
  dup : fast = true → tcpSeqGeq a k.sndUna = true

instance InOrder.decidable (k : Core) (max : Seq) (fast : Bool) (a : Seq) :
    Decidable (InOrder k max fast a) :=
  decidable_of_iff (tcpSeqLeq a max = true ∧
      (tcpSeqLt k.sndbuf.headSeq a = true → tcpSeqGeq a k.sndUna = true) ∧
      (fast = true → tcpSeqGeq a k.sndUna = true))
    ⟨fun h => ⟨h.1, h.2.1, h.2.2⟩, fun h => ⟨h.sent, h.forward, h.dup⟩⟩

namespace Core

/-- A loss, or the recovery from one, moves `snd_nxt` to the acknowledged number. -/
theorem recover_cases (fast : Bool) (a : Seq) (k : Core) :
    ((if fast then k.rollback a else k).recover a = k ∧ tcpSeqGt a k.sndNxt = false) ∨
      ∃ b, (if fast then k.rollback a else k).recover a = { k with sndNxt := a, sndbuf := b } ∧
        ((b = k.sndbuf.sbResetRetrans.2 ∧ fast = true ∧ tcpSeqLt a k.sndNxt = true) ∨
          (b = k.sndbuf ∧ tcpSeqGt a k.sndNxt = true)) := by
  have plain : (k.recover a = k ∧ tcpSeqGt a k.sndNxt = false) ∨
      ∃ b, k.recover a = { k with sndNxt := a, sndbuf := b } ∧
        ((b = k.sndbuf.sbResetRetrans.2 ∧ fast = true ∧ tcpSeqLt a k.sndNxt = true) ∨
          (b = k.sndbuf ∧ tcpSeqGt a k.sndNxt = true)) := by
    unfold recover
    cases more : tcpSeqGt a k.sndNxt with
    | true => exact .inr ⟨_, rfl, .inr ⟨rfl, rfl⟩⟩
    | false => exact .inl ⟨rfl, rfl⟩
  cases fast with
  | false => exact plain
  | true =>
      rw [if_pos rfl]
      by_cases rolls : tcpSeqLt a k.sndNxt = true
      · refine .inr ⟨_, ?_, .inl ⟨rfl, rfl, rolls⟩⟩
        rw [rollback, if_pos rolls, recover, if_neg (by simp [Lib.Serial.gt])]
      · rw [rollback, if_neg rolls]
        exact plain

end Core

namespace Ordered

variable {size : Nat} {k : Core} {max : Seq} {p : Marks}

/-- A buffer that holds the same bytes elsewhere. -/
structure SameBytes (b b' : SndBuff) : Prop where
  head : b'.headSeq = b.headSeq
  next : b'.nextSeq = b.nextSeq
  size : b'.size = b.size
  high : b'.husndQ = b.husndQ
  low : b'.usndQ = b.usndQ
  lens : ∀ H N, SndBuff.sumLen (b'.held H N) = SndBuff.sumLen (b.held H N)

theorem SameBytes.refl (b : SndBuff) : SameBytes b b := ⟨rfl, rfl, rfl, rfl, rfl, fun _ _ => rfl⟩

theorem SameBytes.reset (b : SndBuff) : SameBytes b b.sbResetRetrans.2 := by
  obtain ⟨head, next, size, high, low⟩ := b.sbResetRetrans_frame
  exact ⟨head, next, size, high, low, b.sumLen_reset⟩

/-- `snd_nxt` jumps back, or forward to something that was sent already. -/
theorem jump (ord : Ordered size k max p) {b : SndBuff} (same : SameBytes k.sndbuf b) {q : Nat}
    (back : p.una ≤ q) (bound : q ≤ p.una + size) (sent : q ≤ p.max) :
    Ordered size { k with sndNxt := tcpSeqAt k.iss q, sndbuf := b } max { p with nxt := q } :=
  { ord with
    nxt := rfl
    head := same.head.trans ord.head
    next := same.next.trans ord.next
    una_nxt := back
    nxt_max := sent
    room := same.size.trans ord.room
    holds := by
      obtain ⟨H, N, holds, bytes⟩ := ord.holds
      exact ⟨H, N, holds.congr same.high same.low, (same.lens H N).trans_le bytes⟩
    chain := fun _ => ⟨q, b.uackList, [], (List.append_nil _).symm, trivial, rfl, bound⟩
    fss := fun now => (ord.fss now).trans same.next.symm }

/-- `snd_una` moves to the acknowledged position `q`, and the buffer frees what lies before it;
`snd_nxt` is at `t` by then. -/
theorem retire (ord : Ordered size k max p) (small : size < 2 ^ 29) {b : SndBuff}
    (same : SameBytes k.sndbuf b) {q t : Nat} (forward : p.una ≤ q) (sent : q ≤ t)
    (known : t ≤ p.max) (buffered : q ≤ p.next) (beyond : p.head < q)
    (chain : k.isFinSent = false → ∃ x T S, b.uackList = T ++ S ∧ InSequence (tcpSeqAt k.iss x) S ∧
      t = x + SndBuff.sumLen S ∧ x ≤ q + size) :
    ∃ h, Ordered size { k with
        sndNxt := tcpSeqAt k.iss t
        sndbuf := (b.sbRemoveAcked (tcpSeqAt k.iss q)).2
        sndUna := tcpSeqAt k.iss q } max { p with una := q, nxt := t, head := h } := by
  obtain ⟨H, N, holds, bytes⟩ := ord.holds
  obtain ⟨freed, head, lens⟩ := b.sbRemoveAcked_spec (tcpSeqAt k.iss q) H N
  rw [same.lens] at lens
  have headNext := ord.head_next
  have nextHead := ord.next_head
  have maxUna := ord.max_una
  have holds' := holds.congr same.high same.low
  refine ⟨p.head + freed,
    { ord with
      una := rfl
      nxt := rfl
      head := by rw [head, same.head, ord.head, tcpSeqAt_add]
      next := same.next.trans ord.next
      una_nxt := sent
      nxt_max := known
      max_una := le_trans maxUna ?_
      head_next := ?_
      next_head := le_trans nextHead ?_
      head_una := ?_
      una_next := .inl buffered
      room := same.size.trans ord.room
      holds := ⟨H, N, ⟨holds'.high, holds'.low⟩, ?_⟩
      chain := ?_
      fss := fun now => (ord.fss now).trans same.next.symm }⟩
  · change p.una + 2 * size + 1 ≤ q + 2 * size + 1
    omega
  · change p.head + freed ≤ p.next
    omega
  · change p.head + size ≤ p.head + freed + size
    omega
  · change p.head + freed ≤ q + size
    omega
  · change SndBuff.sumLen ((b.sbRemoveAcked (tcpSeqAt k.iss q)).2.held H N) ≤
      p.next - (p.head + freed)
    omega
  · intro running
    obtain ⟨x, T, S, uack, chain, nxt, bound⟩ := chain running
    obtain ⟨T', done, S', parts, kept, acked⟩ :=
      SndBuff.removeAcked_chain (tcpSeqAt k.iss q) T S _ chain
    rw [parts] at chain nxt
    rw [SndBuff.sumLen_append] at nxt
    refine ⟨x + SndBuff.sumLen done, T', S', ?_, ?_, ?_, ?_⟩
    · change (SndBuff.removeAcked (tcpSeqAt k.iss q) b.uackList).2 = T' ++ S'
      rw [uack, kept]
    · rw [← tcpSeqAt_add]
      exact chain.drop
    · change t = _
      omega
    · change x + SndBuff.sumLen done ≤ q + size
      rcases acked with rfl | acked
      · rw [SndBuff.sumLen_nil]
        exact bound
      · -- the freed part of the chain ends before the acknowledged position
        by_contra far
        rw [tcpSeqAt_add, tcpSeqLeq_at _ (by omega) (by omega), decide_eq_true_eq] at acked
        omega

/-- **An acknowledgement that is in order keeps the order**, and never moves `snd_una` back. -/
theorem onAck (ord : Ordered size k max p) (small : size < 2 ^ 29) {fast : Bool} {a : Seq}
    (fits : tcpSeqGt a (k.sndbuf.headSeq + k.sndbuf.sbLen) = false)
    (inOrder : InOrder k max fast a) :
    ∃ p', Ordered size (k.onAck fast a) max p' ∧ p.una ≤ p'.una ∧ p'.max = p.max ∧
      p'.next = p.next ∧ (fast = false → tcpSeqGt a k.sndNxt = false → p'.nxt = p.nxt) := by
  have maxUna := ord.max_una
  have nxtMax := ord.nxt_max
  have unaNxt := ord.una_nxt
  have headUna := ord.head_una
  have nextHead := ord.next_head
  have unaNext := ord.una_succ
  -- whatever is acknowledged was sent
  have located : ∀ {q : Nat}, p.una ≤ q → q < p.max + 2 ^ 31 → a = tcpSeqAt k.iss q →
      q ≤ p.max := by
    intro q le near value
    have sent := inOrder.sent
    rw [value, ord.max, tcpSeqLeq_at _ (by omega) (by omega), decide_eq_true_eq] at sent
    exact sent
  have stays : ∀ {q : Nat}, (fast = true ∧ tcpSeqLt a k.sndNxt = true) ∨ tcpSeqGt a k.sndNxt = true →
      fast = false → tcpSeqGt a k.sndNxt = false → q = p.nxt := by
    rintro q (⟨dup, -⟩ | more) plain reached
    · rw [dup] at plain
      cases plain
    · rw [more] at reached
      cases reached
  rw [ord.seqEnd] at fits
  have unfolded : k.onAck fast a = ((if fast then k.rollback a else k).recover a).retire a := by
    unfold Core.onAck
    rw [ord.seqEnd, if_neg (by rw [fits]; decide)]
  rw [unfolded]
  by_cases old : tcpSeqGeq k.sndbuf.headSeq a = true
  · -- nothing is freed: `snd_una` stays
    rcases k.recover_cases fast a with ⟨same, -⟩ | ⟨b, result, why⟩
    · rw [same, Core.retire, if_pos old]
      exact ⟨p, ord, le_rfl, rfl, rfl, fun _ _ => rfl⟩
    · have bytes : SameBytes k.sndbuf b := by
        rcases why with ⟨rfl, -⟩ | ⟨rfl, -⟩
        · exact .reset _
        · exact .refl _
      have placed : ∃ q, p.una ≤ q ∧ q < p.max + 2 ^ 31 ∧ a = tcpSeqAt k.iss q := by
        rcases why with ⟨-, dup, -⟩ | ⟨-, more⟩
        · have ahead := inOrder.dup dup
          rw [ord.una] at ahead
          obtain ⟨q, le, near, value⟩ := exists_tcpSeqAt ahead
          exact ⟨q, le, by omega, value⟩
        · have ahead := tcpSeqGeq_of_gt more
          rw [ord.nxt] at ahead
          obtain ⟨q, le, near, value⟩ := exists_tcpSeqAt ahead
          exact ⟨q, by omega, by omega, value⟩
      obtain ⟨q, le, near, value⟩ := placed
      have sent := located le near value
      have before : q ≤ p.head := by
        rw [tcpSeqGeq_eq, value, ord.head, tcpSeqLt_at _ (by omega) (by omega), Bool.not_eq_true',
          decide_eq_false_iff_not, Nat.not_lt] at old
        exact old
      refine ⟨{ p with nxt := q }, ?_, le_rfl, rfl, rfl, stays (why.imp And.right And.right)⟩
      rw [result, Core.retire, if_pos (by exact bytes.head ▸ old), value]
      exact ord.jump bytes le (by omega) sent
  · -- the buffer is freed up to the acknowledged position `q`
    have fresh : tcpSeqLt k.sndbuf.headSeq a = true := by
      rw [tcpSeqGeq_eq, Bool.not_eq_true', Bool.not_eq_false] at old
      exact old
    have ahead := inOrder.forward fresh
    rw [ord.una] at ahead
    obtain ⟨q, le, near, value⟩ := exists_tcpSeqAt ahead
    have sent := located le (by omega) value
    have beyond : p.head < q := by
      rw [value, ord.head, tcpSeqLt_at _ (by omega) (by omega), decide_eq_true_eq] at fresh
      exact fresh
    have buffered : q ≤ p.next := by
      rw [value, tcpSeqGt_at _ (by omega) (by omega), decide_eq_false_iff_not, Nat.not_lt] at fits
      exact fits
    rcases k.recover_cases fast a with ⟨same, more⟩ | ⟨b, result, why⟩
    · have reached : q ≤ p.nxt := by
        rw [value, ord.nxt, tcpSeqGt_at _ (by omega) (by omega), decide_eq_false_iff_not,
          Nat.not_lt] at more
        exact more
      have chain : k.isFinSent = false → ∃ x T S, k.sndbuf.uackList = T ++ S ∧
          InSequence (tcpSeqAt k.iss x) S ∧ p.nxt = x + SndBuff.sumLen S ∧ x ≤ q + size := by
        intro running
        obtain ⟨x, T, S, uack, chain, nxt, bound⟩ := ord.chain running
        exact ⟨x, T, S, uack, chain, nxt, by omega⟩
      obtain ⟨h, moved⟩ := ord.retire small (.refl _) le reached nxtMax buffered beyond chain
      rw [← ord.nxt, ← value] at moved
      refine ⟨{ p with una := q, head := h }, ?_, le, rfl, rfl, fun _ _ => rfl⟩
      rw [same, Core.retire, if_neg old]
      exact moved
    · have bytes : SameBytes k.sndbuf b := by
        rcases why with ⟨rfl, -⟩ | ⟨rfl, -⟩
        · exact .reset _
        · exact .refl _
      obtain ⟨h, moved⟩ := ord.retire small bytes le le_rfl sent buffered beyond
        fun _ => ⟨q, b.uackList, [], (List.append_nil _).symm, trivial, rfl, by omega⟩
      rw [← value] at moved
      refine ⟨{ p with una := q, nxt := q, head := h }, ?_, le, rfl, rfl,
        stays (why.imp And.right And.right)⟩
      rw [result, Core.retire, if_neg (by exact bytes.head ▸ old)]
      exact moved

/-- Our FIN is acknowledged, `snd_nxt` being at `t` by then. -/
theorem finAck (ord : Ordered size k max p) (sent : k.isFinSent = true) {t : Nat} {state : TcpState}
    (reached : p.next + 1 ≤ t) (known : t ≤ p.max) (acked : state.finAcked = true)
    (fin : state.isFin = true → k.state.isFin = true) :
    Ordered size { k with
      sndUna := tcpSeqAt k.iss (p.next + 1), sndNxt := tcpSeqAt k.iss t, state := state }
      max { p with una := p.next + 1, nxt := t } := by
  have maxUna := ord.max_una
  have headNext := ord.head_next
  have unaNext := ord.una_succ
  refine
    { ord with
      una := rfl
      nxt := rfl
      una_nxt := reached
      nxt_max := known
      max_una := ?_
      head_una := ?_
      una_next := .inr ⟨acked, le_rfl⟩
      chain := fun running => ?_
      fss := fun now => ord.fss (fin now)
      open_ := fun opened => ?_ }
  · change p.max ≤ p.next + 1 + 2 * size + 1
    omega
  · change p.head ≤ p.next + 1 + size
    omega
  · change k.isFinSent = false at running
    rw [sent] at running
    cases running
  · change state.isOpen = true at opened
    revert opened acked
    cases state <;> simp [TcpState.isOpen, TcpState.finAcked]

/-- LAST_ACK counts the acknowledgement of the FIN on top of that of the data. -/
theorem lastAck (ord : Ordered size k max p) (due : p.una ≤ p.next) (reached : p.una + 1 ≤ p.nxt) :
    Ordered size { k with sndUna := k.sndUna + 1, state := .closed } max
      { p with una := p.una + 1 } := by
  have maxUna := ord.max_una
  have headUna := ord.head_una
  refine
    { ord with
      una := ?_
      una_nxt := reached
      max_una := ?_
      head_una := ?_
      una_next := .inr ⟨rfl, ?_⟩
      chain := fun running => ?_
      fss := nofun
      open_ := nofun }
  · rw [← tcpSeqAt_succ]
    exact congrArg (· + 1) ord.una
  · change p.max ≤ p.una + 1 + 2 * size + 1
    omega
  · change p.head ≤ p.una + 1 + size
    omega
  · change p.una + 1 ≤ p.next + 1
    omega
  · obtain ⟨x, T, S, parts, chain, nxt, bound⟩ := ord.chain running
    exact ⟨x, T, S, parts, chain, nxt, le_trans bound (by
      change p.una + size ≤ p.una + 1 + size
      omega)⟩

/-! ## The application puts data -/

theorem put (ord : Ordered size k max p) (small : size < 2 ^ 29) (opened : k.state.isOpen = true)
    (m : SndMbuf) :
    ∃ e, Ordered size { k with sndbuf := (k.sndbuf.sbPut m).2 } max { p with next := e } := by
  have headNext := ord.head_next
  have nextHead := ord.next_head
  have notFin : k.state.isFin = true → False := by
    intro fin
    rw [TcpState.isOpen_of_isFin fin] at opened
    cases opened
  have room : k.sndbuf.toPut m ≤ size - (p.next - p.head) := by
    unfold SndBuff.toPut
    refine le_trans (Nat.min_le_right _ _) ?_
    rw [ord.room, ord.sbLen, BitVec.toNat_sub_of_le, BitVec.toNat_ofNat, BitVec.toNat_ofNat]
    · omega
    · rw [BitVec.le_def, BitVec.toNat_ofNat, BitVec.toNat_ofNat]
      omega
  obtain ⟨H, N, holds, bytes⟩ := ord.holds
  by_cases none : k.sndbuf.toPut m = 0
  · rw [SndBuff.sbPut_refused none]
    exact ⟨p.next, ord⟩
  have next : (k.sndbuf.reserve m).nextSeq = tcpSeqAt k.iss (p.next + k.sndbuf.toPut m) := by
    rw [← tcpSeqAt_add, ← ord.next]
    rfl
  -- whether the ring is full only matters for what is held
  have stored : ∀ (b : SndBuff) (H' N' : List SndMbuf), b.Holds H' N' →
      SndBuff.sumLen (b.held H' N') ≤ SndBuff.sumLen (k.sndbuf.held H N) + k.sndbuf.toPut m →
      b.uackList = k.sndbuf.uackList → b.size = k.sndbuf.size → b.headSeq = k.sndbuf.headSeq →
      b.nextSeq = (k.sndbuf.reserve m).nextSeq →
      Ordered size { k with sndbuf := b } max { p with next := p.next + k.sndbuf.toPut m } := by
    intro b H' N' holds' lens uack size' head next'
    refine
      { ord with
        head := head.trans ord.head
        next := next'.trans next
        head_next := ?_
        next_head := ?_
        una_next := ?_
        room := size'.trans ord.room
        holds := ⟨H', N', holds', ?_⟩
        chain := fun running => ?_
        finSent := fun sent => ?_
        fss := fun now => (notFin now).elim }
    · change p.head ≤ p.next + k.sndbuf.toPut m
      omega
    · change p.next + k.sndbuf.toPut m ≤ p.head + size
      omega
    · change p.una ≤ p.next + k.sndbuf.toPut m ∨ (_ ∧ p.una ≤ p.next + k.sndbuf.toPut m + 1)
      exact ord.una_next.imp (fun le => by omega) fun late => ⟨late.1, by omega⟩
    · change SndBuff.sumLen (b.held H' N') ≤ p.next + k.sndbuf.toPut m - p.head
      omega
    · obtain ⟨x, T, S, parts, chain, nxt, bound⟩ := ord.chain running
      exact ⟨x, T, S, uack.trans parts, chain, nxt, bound⟩
    · change k.isFinSent = true at sent
      rw [ord.open_ opened] at sent
      cases sent
  cases full : k.sndbuf.targetFull m with
  | true =>
      rw [SndBuff.sbPut_full none full]
      exact ⟨_, stored _ H N ⟨holds.high, holds.low⟩ (Nat.le_add_right _ _) rfl rfl rfl rfl⟩
  | false =>
      obtain ⟨b, H', N', result, holds', perm, uack, -, size', head, next'⟩ :=
        SndBuff.sbPut_stored holds none full
      rw [result]
      refine ⟨_, stored b H' N' holds' ?_ uack size' head next'⟩
      rw [SndBuff.sumLen_perm perm, SndBuff.sumLen_cons, Nat.add_comm]
      rfl

end Ordered

/-! ## Transmission -/

theorem sndMax_cons {iss : Seq} {sent : List Sent} {p : Sent} {m q : Nat}
    (before : sndMax iss sent = tcpSeqAt iss m) (seqEnd : p.seqEnd = tcpSeqAt iss q)
    (near : q < m + 2 ^ 31) (far : m ≤ q + 2 ^ 31) :
    sndMax iss (p :: sent) = tcpSeqAt iss (max m q) := by
  rw [sndMax, before, seqEnd, tcpSeqGt_at _ near far]
  by_cases more : m < q
  · rw [if_pos (decide_eq_true more), Nat.max_eq_right more.le]
  · rw [if_neg (by simpa using more), Nat.max_eq_left (by omega)]

namespace View

/-- The order of the view, with the log as the history of what was sent. -/
def Ordered (size : Nat) (v : View) (p : Marks) : Prop :=
  QStack.Ordered size v.toCore (sndMax v.iss v.sent) p

namespace Ordered

variable {size : Nat} {v : View} {p : Marks}

/-- Whatever waits can be popped without harm. -/
theorem popped (ord : v.Ordered size p) {m : SndMbuf} {b : SndBuff}
    (pop : v.sndbuf.popWaiting = (some m, b)) :
    ∃ H N H' N', v.sndbuf.Popped H N m b H' N' ∧
      SndBuff.sumLen (b.held H' N') + m.payloadLen ≤ p.next - p.head := by
  obtain ⟨H, N, holds, bytes⟩ := ord.holds
  rcases SndBuff.popWaiting_cases holds with ⟨none, -⟩ | ⟨m', b', H', N', some, popped⟩
  · rw [none] at pop
    cases pop
  · rw [some] at pop
    cases pop
    refine ⟨H, N, H', N', popped, ?_⟩
    have waiting := congrArg SndBuff.sumLen popped.waiting
    simp only [SndBuff.sumLen_append, SndBuff.sumLen_cons] at waiting
    simp only [SndBuff.held, SndBuff.sumLen_append, popped.uack] at bytes ⊢
    change SndBuff.sumLen v.sndbuf.uackList + _ + _ + _ ≤ _ at bytes
    omega

/-- An mbuf is taken out, to be skipped or dropped. -/
theorem dropped (ord : v.Ordered size p) {m : SndMbuf} {b : SndBuff}
    (pop : v.sndbuf.popWaiting = (some m, b)) : (v.setSndbuf b).Ordered size p := by
  obtain ⟨H, N, H', N', popped, bytes⟩ := ord.popped pop
  exact
    { ord with
      head := popped.head.trans ord.head
      next := popped.next.trans ord.next
      room := popped.size.trans ord.room
      holds := ⟨H', N', popped.holds, by
        change SndBuff.sumLen (b.held H' N') ≤ p.next - p.head
        omega⟩
      chain := fun running => by
        obtain ⟨x, T, S, parts, chain, nxt, bound⟩ := ord.chain running
        exact ⟨x, T, S, popped.uack.trans parts, chain, nxt, bound⟩
      fss := fun now => (ord.fss now).trans popped.next.symm }

theorem emptied (ord : v.Ordered size p) {b : SndBuff} (pop : v.sndbuf.popWaiting = (none, b)) :
    (v.setSndbuf b).Ordered size p := by
  obtain ⟨H, N, holds, -⟩ := ord.holds
  rcases SndBuff.popWaiting_cases holds with ⟨none, -⟩ | ⟨m', b', H', N', some, -⟩
  · rw [none] at pop
    cases pop
    exact ord
  · rw [some] at pop
    cases pop

/-- The flush sends one mbuf. -/
theorem sendData (ord : v.Ordered size p) (small : size < 2 ^ 29) (running : v.isFinSent = false)
    {m : SndMbuf} {b : SndBuff} (pop : v.sndbuf.popWaiting = (some m, b))
    (payload : m.payloadLen ≠ 0) :
    (v.sendData m b).Ordered size
      { p with nxt := p.nxt + m.payloadLen, max := max p.max (p.nxt + m.payloadLen) } := by
  obtain ⟨H, N, H', N', popped, bytes⟩ := ord.popped pop
  obtain ⟨x, T, S, parts, chain, nxt, bound⟩ := ord.chain running
  have maxUna := ord.max_una
  have unaNxt := ord.una_nxt
  have nextHead := ord.next_head
  have nxtMax := ord.nxt_max
  -- the chain of the mbufs sent since the last jump is part of what the buffer holds
  have held : SndBuff.sumLen S + m.payloadLen ≤ size := by
    have uack := congrArg SndBuff.sumLen (popped.uack.trans parts)
    rw [SndBuff.sumLen_append] at uack
    simp only [SndBuff.held, SndBuff.sumLen_append] at bytes
    omega
  have seqEnd : ({ seq := v.sndNxt, len := m.payloadLen, data := some m.id } : Sent).seqEnd =
      tcpSeqAt v.iss (p.nxt + m.payloadLen) := by
    rw [← tcpSeqAt_add, ← ord.nxt]
    rfl
  refine
    { ord with
      nxt := ?_
      max := ?_
      head := popped.head.trans ord.head
      next := popped.next.trans ord.next
      una_nxt := ?_
      nxt_max := Nat.le_max_right _ _
      max_una := ?_
      room := popped.size.trans ord.room
      holds := ⟨H', N', ⟨popped.holds.high, popped.holds.low⟩, ?_⟩
      chain := fun _ => ⟨x, T, S ++ [{ m with tcpSeq := v.sndNxt, mbufState := .sent }], ?_, ?_, ?_,
        bound⟩
      finSent := fun sent => ?_
      fss := fun now => (ord.fss now).trans popped.next.symm
      open_ := fun _ => ?_ }
  · rw [← tcpSeqAt_add]
    exact congrArg (· + BitVec.ofNat 32 m.payloadLen) ord.nxt
  · rw [View.sendData_sent v b payload]
    exact sndMax_cons ord.max seqEnd (by omega) (by omega)
  · change p.una ≤ p.nxt + m.payloadLen
    omega
  · change max p.max (p.nxt + m.payloadLen) ≤ p.una + 2 * size + 1
    omega
  · change SndBuff.sumLen (SndBuff.held { b with uackList := b.uackList ++ [_] } H' N') ≤ _
    simp only [SndBuff.held, SndBuff.sumLen_append, SndBuff.sumLen_cons, SndBuff.sumLen_nil]
      at bytes ⊢
    omega
  · change b.uackList ++ [_] = _
    rw [popped.uack, ← List.append_assoc]
    exact congrArg (· ++ _) parts
  · refine chain.append_single ?_
    change v.sndNxt = _
    rw [tcpSeqAt_add, ← nxt]
    exact ord.nxt
  · rw [SndBuff.sumLen_append, SndBuff.sumLen_cons, SndBuff.sumLen_nil]
    change p.nxt + m.payloadLen = x + (SndBuff.sumLen S + (m.payloadLen + 0))
    omega
  · change (v.isFinSent || false) = true at sent
    rw [running] at sent
    cases sent
  · change (v.isFinSent || false) = false
    rw [running]
    rfl

/-- A whole flush. -/
theorem flushed {window : U32} {rounds : Nat} {v' : View} (flushed : Flushed window rounds v v')
    (small : size < 2 ^ 29) :
    ∀ {p : Marks}, v.Ordered size p → v.isFinSent = false →
      ∃ p', v'.Ordered size p' ∧ p'.una = p.una := by
  induction flushed with
  | spent | refused => exact fun ord _ => ⟨_, ord, rfl⟩
  | empty _ pop => exact fun ord _ => ⟨_, ord.emptied pop, rfl⟩
  | skip _ pop _ _ ih => exact fun ord running => ih (ord.dropped pop) running
  | drop _ pop _ _ => exact fun ord _ => ⟨_, ord.dropped pop, rfl⟩
  | send _ pop payload _ _ ih =>
      intro p ord running
      obtain ⟨p', ord', una⟩ := ih (ord.sendData small running pop payload)
        ((Bool.or_false _).trans running)
      exact ⟨p', ord', una⟩

/-- A FIN goes out when `snd_nxt` has not passed it, or lags behind what was sent. -/
theorem finished (ord : v.Ordered size p) (small : size < 2 ^ 29) (fin : v.state.isFin = true)
    (due : tcpSeqLeq v.sndNxt v.fss = true ∨ tcpSeqLt v.sndNxt (sndMax v.iss v.sent) = true) :
    (v.transmit { fin := true, ack := true } none 0).Ordered size
      { p with nxt := p.nxt + 1, max := max p.max (p.next + 1) } := by
  have maxUna := ord.max_una
  have unaNxt := ord.una_nxt
  have nextHead := ord.next_head
  have headUna := ord.head_una
  have nxtMax := ord.nxt_max
  have unaNext := ord.una_succ
  have fss : v.fss = tcpSeqAt v.iss p.next := (ord.fss fin).trans ord.next
  have reached : p.nxt + 1 ≤ max p.max (p.next + 1) := by
    rcases due with before | behind
    · rw [show v.sndNxt = tcpSeqAt v.iss p.nxt from ord.nxt, fss,
        tcpSeqLeq_at _ (by omega) (by omega), decide_eq_true_eq] at before
      omega
    · rw [show v.sndNxt = tcpSeqAt v.iss p.nxt from ord.nxt,
        show sndMax v.iss v.sent = tcpSeqAt v.iss p.max from ord.max,
        tcpSeqLt_at _ (by omega) (by omega), decide_eq_true_eq] at behind
      omega
  refine
    { ord with
      nxt := ?_
      max := ?_
      una_nxt := ?_
      nxt_max := reached
      max_una := ?_
      chain := fun running => ?_
      finSent := fun _ => Nat.le_max_right _ _
      open_ := fun opened => ?_ }
  · rw [← tcpSeqAt_succ]
    exact congrArg (· + 1) ord.nxt
  · refine sndMax_cons (p := { seq := v.fss, len := 0, fin := true }) ord.max ?_ (by omega) (by omega)
    rw [← tcpSeqAt_succ]
    exact congrArg (· + 1) fss
  · change p.una ≤ p.nxt + 1
    omega
  · change max p.max (p.next + 1) ≤ p.una + 2 * size + 1
    omega
  · change (v.isFinSent || true) = false at running
    rw [Bool.or_true] at running
    cases running
  · change v.state.isOpen = true at opened
    rw [TcpState.isOpen_of_isFin fin] at opened
    cases opened

end Ordered

end View

end QStack
