/-
# QStack.AckTrim -- what sb_remove_acked frees

`sb_remove_acked` trims `uack_list` and then `retrans_list`, each from its front, and adds
every length it frees to `head_seq`.  When the two lists together are one contiguous run from
`head_seq` (`Contiguous`), the two loops do what one loop over the whole run would do
(`removeAcked_both`), and that loop stops at the first mbuf that does not end by the
acknowledged position (`removeAcked_stops`).

`remove_acked_exact` is the result: exactly the wholly acknowledged mbufs are freed, and what
is left is again a contiguous run from `head_seq`, with the same end.
-/
import QStack.SendOrder

namespace QStack

set_option autoImplicit false

namespace SndBuff

/-! ## Runs -/

/-- The mbufs that wait for an acknowledgement, the sent ones before the lost ones. -/
def unacked (b : SndBuff) : List SndMbuf := b.uackList ++ b.retransList

/-- They are one run of less than `2 ^ 31` bytes that starts at `head_seq`. -/
structure Contiguous (b : SndBuff) : Prop where
  chain : InSequence b.headSeq b.unacked
  short : sumLen b.unacked < 2 ^ 31

def runEnd (b : SndBuff) : Seq := tcpSeqAt b.headSeq (sumLen b.unacked)

/-- How far an acknowledgement is beyond `head_seq`. -/
def ackedBytes (b : SndBuff) (ackSeq : Seq) : Nat := (ackSeq - b.headSeq).toNat

/-- `b'` is `b` after the mbufs `freed` were freed for `ackSeq`. -/
structure Trimmed (b b' : SndBuff) (freed : List SndMbuf) (ackSeq : Seq) : Prop where
  /-- nothing is freed twice or lost, and the rest keeps its order -/
  parts : b.unacked = freed ++ b'.unacked
  uack : b'.uackList <:+ b.uackList
  retrans : b'.retransList <:+ b.retransList
  /-- an mbuf is among the freed ones exactly if its bytes end by `ackSeq` -/
  exactly : ∀ before m after, b.unacked = before ++ m :: after →
    (before.length < freed.length ↔ sumLen before + m.payloadLen ≤ b.ackedBytes ackSeq)
  head : b'.headSeq = (b'.unacked.head?.map SndMbuf.tcpSeq).getD b.runEnd
  reached : tcpSeqLeq b'.headSeq ackSeq = true
  rest : b'.Contiguous
  stop : b'.runEnd = b.runEnd
  others : b' = { b with
    uackList := b'.uackList, retransList := b'.retransList, headSeq := b'.headSeq }

/-! ## One loop -/

section Loop

variable {base : Seq} {k : Nat}

theorem seqEnd_at {p : Nat} {m : SndMbuf} (seq : m.tcpSeq = tcpSeqAt base p) :
    m.seqEnd = tcpSeqAt base (p + m.payloadLen) := by
  rw [SndMbuf.seqEnd, seq, SndMbuf.len, tcpSeqAt_add]

theorem InSequence.cons_at {p : Nat} {m : SndMbuf} {ms : List SndMbuf}
    (chain : InSequence (tcpSeqAt base p) (m :: ms)) :
    m.tcpSeq = tcpSeqAt base p ∧ InSequence (tcpSeqAt base (p + m.payloadLen)) ms := by
  refine ⟨chain.1, ?_⟩
  rw [← tcpSeqAt_add]
  exact chain.2

/-- The test of the loop compares positions. -/
theorem acked_iff {p : Nat} {m : SndMbuf} (seq : m.tcpSeq = tcpSeqAt base p) (small : k < 2 ^ 31)
    (bound : p + m.payloadLen < 2 ^ 31) :
    tcpSeqLeq m.seqEnd (tcpSeqAt base k) = true ↔ p + m.payloadLen ≤ k := by
  rw [seqEnd_at seq, tcpSeqLeq_at base (by omega) (by omega), decide_eq_true_eq]

/-- Beyond the acknowledged position nothing is freed. -/
theorem removeAcked_beyond {p : Nat} {ms : List SndMbuf}
    (chain : InSequence (tcpSeqAt base p) ms) (small : k < 2 ^ 31)
    (short : p + sumLen ms < 2 ^ 31) (beyond : k < p) :
    removeAcked (tcpSeqAt base k) ms = ([], ms) := by
  cases ms with
  | nil => rfl
  | cons m rest =>
      rw [sumLen_cons] at short
      have open_ := (acked_iff (InSequence.cons_at chain).1 small (by omega)).not.mpr (by omega)
      rw [removeAcked, if_neg open_]

/-- **The two loops do what one loop would.** -/
theorem removeAcked_both {ms' : List SndMbuf} (small : k < 2 ^ 31) :
    ∀ {ms : List SndMbuf} {p : Nat}, InSequence (tcpSeqAt base p) (ms ++ ms') →
      p + sumLen (ms ++ ms') < 2 ^ 31 →
      removeAcked (tcpSeqAt base k) (ms ++ ms') =
        ((removeAcked (tcpSeqAt base k) ms).1 ++ (removeAcked (tcpSeqAt base k) ms').1,
          (removeAcked (tcpSeqAt base k) ms).2 ++ (removeAcked (tcpSeqAt base k) ms').2) := by
  intro ms
  induction ms with
  | nil => intros; rfl
  | cons m rest ih =>
      intro p chain short
      rw [List.cons_append] at chain short ⊢
      rw [sumLen_cons, sumLen_append] at short
      obtain ⟨seq, later⟩ := InSequence.cons_at chain
      have test := acked_iff (k := k) seq small (by omega)
      by_cases acked : p + m.payloadLen ≤ k
      · have freed := test.mpr acked
        rw [removeAcked, if_pos freed, removeAcked, if_pos freed,
          ih later (by rw [sumLen_append]; omega)]
        rfl
      · have kept := test.not.mpr acked
        have tail := InSequence.drop later
        rw [tcpSeqAt_add] at tail
        rw [removeAcked, if_neg kept, removeAcked, if_neg kept,
          removeAcked_beyond tail small (by omega) (by omega)]
        rfl

/-- The loop frees an mbuf exactly if it ends by the acknowledged position. -/
theorem removeAcked_stops (small : k < 2 ^ 31) :
    ∀ {ms : List SndMbuf} {p : Nat}, InSequence (tcpSeqAt base p) ms → p + sumLen ms < 2 ^ 31 →
      ∀ before m after, ms = before ++ m :: after →
        (before.length < (removeAcked (tcpSeqAt base k) ms).1.length ↔
          p + sumLen before + m.payloadLen ≤ k) := by
  intro ms
  induction ms with
  | nil =>
      intro p _ _ before m after split
      exact absurd split.symm (by simp)
  | cons first rest ih =>
      intro p chain short before m after split
      rw [sumLen_cons] at short
      obtain ⟨seq, later⟩ := InSequence.cons_at chain
      have test := acked_iff (k := k) seq small (by omega)
      by_cases acked : p + first.payloadLen ≤ k
      · rw [removeAcked, if_pos (test.mpr acked)]
        cases before with
        | nil =>
            obtain ⟨rfl, -⟩ := List.cons.inj split
            simpa using acked
        | cons first' before =>
            obtain ⟨rfl, tail⟩ := List.cons.inj split
            have inner := ih later (by omega) before m after tail
            rw [List.length_cons, sumLen_cons, ← Nat.add_assoc, ← inner]
            exact Nat.succ_lt_succ_iff
      · rw [removeAcked, if_neg (test.not.mpr acked)]
        cases before with
        | nil =>
            obtain ⟨rfl, -⟩ := List.cons.inj split
            simpa using acked
        | cons first' before =>
            obtain ⟨rfl, -⟩ := List.cons.inj split
            rw [sumLen_cons]
            constructor
            · exact fun none => absurd none (Nat.not_lt_zero _)
            · intro within
              omega

/-- What the loop frees ends by the acknowledged position. -/
theorem removeAcked_within (small : k < 2 ^ 31) :
    ∀ {ms : List SndMbuf} {p : Nat}, InSequence (tcpSeqAt base p) ms → p + sumLen ms < 2 ^ 31 →
      p ≤ k → p + sumLen (removeAcked (tcpSeqAt base k) ms).1 ≤ k := by
  intro ms
  induction ms with
  | nil => intro p _ _ within; simpa [removeAcked] using within
  | cons m rest ih =>
      intro p chain short within
      rw [sumLen_cons] at short
      obtain ⟨seq, later⟩ := InSequence.cons_at chain
      rw [removeAcked]
      split
      · rename_i freed
        have reached := (acked_iff seq small (by omega)).mp freed
        have inner := ih later (by omega) reached
        rw [sumLen_cons]
        omega
      · simpa using within

theorem removeAcked_suffix (a : Seq) (ms : List SndMbuf) : (removeAcked a ms).2 <:+ ms :=
  ⟨(removeAcked a ms).1, removeAcked_append a ms⟩

/-- A run starts with its first mbuf, or ends where it starts. -/
theorem InSequence.start_eq {seq : Seq} {ms : List SndMbuf} (chain : InSequence seq ms) :
    seq = (ms.head?.map SndMbuf.tcpSeq).getD (tcpSeqAt seq (sumLen ms)) := by
  cases ms with
  | nil => simp
  | cons m rest => exact chain.1.symm

end Loop

/-! ## sb_remove_acked -/

/-- **`sb_remove_acked` frees exactly the acknowledged mbufs** of a contiguous run, for every
acknowledgement between its two ends. -/
theorem remove_acked_exact (b : SndBuff) (ackSeq : Seq) (run : b.Contiguous)
    (within : b.ackedBytes ackSeq ≤ sumLen b.unacked) :
    Trimmed b (b.sbRemoveAcked ackSeq).2 (b.sbRemoveAcked ackSeq).1 ackSeq := by
  obtain ⟨chain, short⟩ := run
  have small : b.ackedBytes ackSeq < 2 ^ 31 := Nat.lt_of_le_of_lt within short
  -- positions count from head_seq
  have target : ackSeq = tcpSeqAt b.headSeq (b.ackedBytes ackSeq) := by
    rw [tcpSeqAt, ackedBytes, BitVec.ofNat_toNat, BitVec.setWidth_eq, add_sub_cancel]
  have origin : InSequence (tcpSeqAt b.headSeq 0) b.unacked := by
    rw [tcpSeqAt_zero]
    exact chain
  have fits : 0 + sumLen b.unacked < 2 ^ 31 := by omega
  have both := removeAcked_both small origin fits
  have stops := removeAcked_stops small origin fits
  have reached := removeAcked_within small origin fits (Nat.zero_le _)
  rw [← target] at both stops reached
  have freed : (b.sbRemoveAcked ackSeq).1 = (removeAcked ackSeq b.unacked).1 :=
    (congrArg Prod.fst both).symm
  have left : (b.sbRemoveAcked ackSeq).2.unacked = (removeAcked ackSeq b.unacked).2 :=
    (congrArg Prod.snd both).symm
  have parts : b.unacked = (b.sbRemoveAcked ackSeq).1 ++ (b.sbRemoveAcked ackSeq).2.unacked := by
    rw [freed, left]
    exact (removeAcked_append ackSeq b.unacked).symm
  have total : sumLen b.unacked = sumLen (b.sbRemoveAcked ackSeq).1 +
      sumLen (b.sbRemoveAcked ackSeq).2.unacked := by
    rw [← sumLen_append, ← parts]
  have head : (b.sbRemoveAcked ackSeq).2.headSeq =
      tcpSeqAt b.headSeq (sumLen (b.sbRemoveAcked ackSeq).1) := by
    rw [tcpSeqAt, SndBuff.sbRemoveAcked]
    dsimp only
    rw [sumLen_append, BitVec.ofNat_add, add_assoc]
  have stop : (b.sbRemoveAcked ackSeq).2.runEnd = b.runEnd := by
    rw [runEnd, runEnd, head, tcpSeqAt, tcpSeqAt_add, total]
  have rest : InSequence (b.sbRemoveAcked ackSeq).2.headSeq (b.sbRemoveAcked ackSeq).2.unacked := by
    rw [head]
    rw [parts] at chain
    exact chain.drop
  rw [← freed] at stops reached
  refine ⟨parts, removeAcked_suffix _ _, removeAcked_suffix _ _, ?_, ?_, ?_, ⟨rest, by omega⟩, stop,
    rfl⟩
  · intro before m after split
    rw [stops before m after split, Nat.zero_add]
  · rw [← stop]
    exact InSequence.start_eq rest
  · have behind : tcpSeqLeq (tcpSeqAt b.headSeq (sumLen (b.sbRemoveAcked ackSeq).1))
        (tcpSeqAt b.headSeq (b.ackedBytes ackSeq)) = true := by
      rw [tcpSeqLeq_at b.headSeq (by omega) (by omega), decide_eq_true_eq]
      omega
    rwa [← head, ← target] at behind

/-- Two sent mbufs and a lost one that wrap around the sequence space, acknowledged in the middle
of the second. -/
def wrappedRun : SndBuff :=
  { SndBuff.zero with
    uackList := [{ id := 0, payloadLen := 100, tcpSeq := 4294967196 },
      { id := 1, payloadLen := 50, tcpSeq := 0 }]
    retransList := [{ id := 2, payloadLen := 10, tcpSeq := 50 }]
    headSeq := 4294967196 }

theorem remove_acked_exact_wrappedRun :
    Trimmed wrappedRun (wrappedRun.sbRemoveAcked 20).2 (wrappedRun.sbRemoveAcked 20).1 20 :=
  remove_acked_exact wrappedRun 20 ⟨⟨rfl, rfl, rfl, trivial⟩, by decide⟩ (by decide)

end SndBuff

end QStack
