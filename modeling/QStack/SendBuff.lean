/-
# QStack.SendBuff -- the send buffer of tcp_send_buff.c

Data written by the application waits in `usnd_q`, or in `husnd_q` when it has
priority; a transmitted mbuf is in `uack_list` until it is acknowledged, and moves
to `retrans_list` as a whole list when it has to be sent again.  An mbuf that the
application has sent belongs to the buffer alone, so the buffer carries its mbufs
by value; `id` is the address.

`sb_put` reserves the sequence range before it knows whether the ring has room:
a failed call leaves `next_seq` advanced (`sbPut_full`).
-/
import QStack.CircularQueue
import QStack.Mbuf

namespace QStack

set_option autoImplicit false

structure SndMbuf where
  id : MbufId
  payloadLen : Nat
  tcpSeq : Seq := 0
  priority : Bool := false
  mbufState : MbufState := .talloc
deriving DecidableEq, Repr

namespace SndMbuf

def len (m : SndMbuf) : Seq := BitVec.ofNat 32 m.payloadLen

def seqEnd (m : SndMbuf) : Seq := m.tcpSeq + m.len

end SndMbuf

structure SndBuff where
  /-- mbufs put by user and not processed -/
  usndQ : CircularQueue SndMbuf
  /-- high-priority send queue -/
  husndQ : CircularQueue SndMbuf
  /-- mbufs sent out but not acked -/
  uackList : List SndMbuf
  /-- mbufs to be retransmitted -/
  retransList : List SndMbuf
  size : Seq
  /-- sequence of the first unacked mbuf -/
  headSeq : Seq
  /-- sequence for the next mbuf put by user -/
  nextSeq : Seq

namespace SndBuff

def zeroQueue : CircularQueue SndMbuf := { head := 0, dQueue := fun _ => none, size := 0, tail := 0 }

def zero : SndBuff :=
  { usndQ := zeroQueue, husndQ := zeroQueue, uackList := [], retransList := [], size := 0,
    headSeq := 0, nextSeq := 0 }

/-- `sb_init`; `sndbufSize` is `CONFIG.sndbuf_size`. -/
def sbInit (sndbufSize : Nat) (b : SndBuff) (initSeq : Seq) : SndBuff :=
  { uackList := []
    retransList := []
    usndQ := b.usndQ.dirCirqInit
    husndQ := b.husndQ.dirCirqInit
    size := BitVec.ofNat 32 (1400 * sndbufSize)
    headSeq := initSeq
    nextSeq := initSeq }

def sbLen (b : SndBuff) : Seq := b.nextSeq - b.headSeq

/-- The length `sb_put` accepts of an mbuf. -/
def toPut (b : SndBuff) (m : SndMbuf) : Nat := min m.payloadLen (b.size - b.sbLen).toNat

def sbPut (b : SndBuff) (m : SndMbuf) : Int × SndBuff :=
  let toPut := b.toPut m
  if toPut = 0 then (failed, b)
  else
    let m := { m with payloadLen := toPut, tcpSeq := b.nextSeq, mbufState := .tbuffed }
    let b := { b with nextSeq := b.nextSeq + BitVec.ofNat 32 toPut }
    if m.priority then
      match b.husndQ.dirCirqAdd m with
      | (r, q) => if r = success then (toPut, { b with husndQ := q }) else (failed, b)
    else
      match b.usndQ.dirCirqAdd m with
      | (r, q) => if r = success then (toPut, { b with usndQ := q }) else (failed, b)

/-- The value after the marking loop is whatever the function leaves in the
return register; no caller reads it. -/
def sbResetRetrans (b : SndBuff) : Int × SndBuff :=
  if b.uackList = [] then (failed, b)
  else if b.retransList ≠ [] then (error, b)
  else
    (0, { b with
      retransList := b.uackList.map fun m => { m with mbufState := .loss }
      uackList := [] })

/-- One of the two loops of `sb_remove_acked`: the freed mbufs, then the kept ones. -/
def removeAcked (ackSeq : Seq) : List SndMbuf → List SndMbuf × List SndMbuf
  | [] => ([], [])
  | m :: rest =>
      if tcpSeqLeq m.seqEnd ackSeq then
        match removeAcked ackSeq rest with
        | (freed, kept) => (m :: freed, kept)
      else ([], m :: rest)

def sumLen (ms : List SndMbuf) : Nat := (ms.map SndMbuf.payloadLen).sum

def sbRemoveAcked (b : SndBuff) (ackSeq : Seq) : List SndMbuf × SndBuff :=
  match removeAcked ackSeq b.uackList, removeAcked ackSeq b.retransList with
  | (freedU, uack), (freedR, retrans) =>
      (freedU ++ freedR,
        { b with
          uackList := uack
          retransList := retrans
          headSeq := b.headSeq + BitVec.ofNat 32 (sumLen freedU) +
            BitVec.ofNat 32 (sumLen freedR) })

/-! ## Small facts -/

@[simp] theorem sumLen_nil : sumLen [] = 0 := rfl

@[simp] theorem sumLen_cons (m : SndMbuf) (ms : List SndMbuf) :
    sumLen (m :: ms) = m.payloadLen + sumLen ms := by
  simp [sumLen]

@[simp] theorem sumLen_append (ms ms' : List SndMbuf) :
    sumLen (ms ++ ms') = sumLen ms + sumLen ms' := by
  simp [sumLen]

theorem removeAcked_append (ackSeq : Seq) (ms : List SndMbuf) :
    (removeAcked ackSeq ms).1 ++ (removeAcked ackSeq ms).2 = ms := by
  induction ms with
  | nil => rfl
  | cons m rest ih =>
      rw [removeAcked]
      split
      · simpa using ih
      · rfl

/-- Only wholly acknowledged mbufs are freed. -/
theorem removeAcked_acked (ackSeq : Seq) (ms : List SndMbuf) :
    ∀ m ∈ (removeAcked ackSeq ms).1, tcpSeqLeq m.seqEnd ackSeq = true := by
  induction ms with
  | nil => simp [removeAcked]
  | cons m rest ih =>
      rw [removeAcked]
      split
      · rename_i acked
        intro m' h
        rcases List.mem_cons.mp h with rfl | h
        · exact acked
        · exact ih m' h
      · simp

/-! ## The lists a send buffer holds -/

/-- The two rings hold `H` and `N`. -/
structure Holds (b : SndBuff) (H N : List SndMbuf) : Prop where
  high : b.husndQ.Represents H
  low : b.usndQ.Represents N

theorem sbInit_holds (sndbufSize : Nat) (b : SndBuff) (initSeq : Seq) :
    (b.sbInit sndbufSize initSeq).Holds [] [] where
  high := CircularQueue.dirCirqInit_represents _
  low := CircularQueue.dirCirqInit_represents _

/-- Everything the buffer holds. -/
def held (b : SndBuff) (H N : List SndMbuf) : List SndMbuf :=
  b.uackList ++ b.retransList ++ H ++ N

theorem sumLen_perm {ms ms' : List SndMbuf} (perm : ms.Perm ms') : sumLen ms = sumLen ms' :=
  (perm.map SndMbuf.payloadLen).sum_nat

/-! ## The three operations, by cases -/

/-- The mbuf as `sb_put` enqueues it. -/
def stamped (b : SndBuff) (m : SndMbuf) : SndMbuf :=
  { m with payloadLen := b.toPut m, tcpSeq := b.nextSeq, mbufState := .tbuffed }

/-- The sequence range is reserved; whether the mbuf is enqueued is another matter. -/
def reserve (b : SndBuff) (m : SndMbuf) : SndBuff :=
  { b with nextSeq := b.nextSeq + BitVec.ofNat 32 (b.toPut m) }

def targetFull (b : SndBuff) (m : SndMbuf) : Bool :=
  if m.priority then b.husndQ.cirqFull else b.usndQ.cirqFull

theorem sbPut_refused {b : SndBuff} {m : SndMbuf} (none : b.toPut m = 0) :
    b.sbPut m = (failed, b) := by
  simp [sbPut, none]

theorem sbPut_full {b : SndBuff} {m : SndMbuf} (some : b.toPut m ≠ 0)
    (full : b.targetFull m = true) : b.sbPut m = (failed, b.reserve m) := by
  unfold targetFull at full
  unfold sbPut
  dsimp only
  rw [if_neg some]
  cases pri : m.priority with
  | true =>
      simp only [pri, if_true] at full ⊢
      rw [CircularQueue.dirCirqAdd_full full]
      rfl
  | false =>
      simp only [pri, Bool.false_eq_true, if_false] at full ⊢
      rw [CircularQueue.dirCirqAdd_full full]
      rfl

theorem sbPut_stored {b : SndBuff} {H N : List SndMbuf} {m : SndMbuf} (holds : b.Holds H N)
    (some : b.toPut m ≠ 0) (room : b.targetFull m = false) :
    ∃ b' H' N', b.sbPut m = ((b.toPut m : Int), b') ∧ b'.Holds H' N' ∧
      (b'.held H' N').Perm (b.stamped m :: b.held H N) ∧
      b'.uackList = b.uackList ∧ b'.retransList = b.retransList ∧ b'.size = b.size ∧
      b'.headSeq = b.headSeq ∧ b'.nextSeq = (b.reserve m).nextSeq := by
  unfold targetFull at room
  unfold sbPut
  dsimp only
  rw [if_neg some]
  cases pri : m.priority with
  | true =>
      simp only [pri, if_true] at room ⊢
      obtain ⟨ok, rep⟩ := CircularQueue.dirCirqAdd_success holds.high room (b.stamped m)
      rw [stamped, pri] at ok rep
      generalize b.husndQ.dirCirqAdd _ = added at ok rep ⊢
      obtain ⟨r, q⟩ := added
      simp only at ok rep
      subst ok
      refine ⟨_, _, N, rfl, ⟨rep, holds.low⟩, ?_, rfl, rfl, rfl, rfl, rfl⟩
      simp only [held, stamped, pri]
      rw [← List.append_assoc, List.append_assoc _ [_] N, List.singleton_append]
      exact List.perm_middle
  | false =>
      simp only [pri, Bool.false_eq_true, if_false] at room ⊢
      obtain ⟨ok, rep⟩ := CircularQueue.dirCirqAdd_success holds.low room (b.stamped m)
      rw [stamped, pri] at ok rep
      generalize b.usndQ.dirCirqAdd _ = added at ok rep ⊢
      obtain ⟨r, q⟩ := added
      simp only at ok rep
      subst ok
      refine ⟨_, H, _, rfl, ⟨holds.high, rep⟩, ?_, rfl, rfl, rfl, rfl, rfl⟩
      simp only [held, stamped, pri]
      rw [← List.append_assoc]
      exact List.perm_append_singleton _ _

/-- The lists move only when there is something to move and nothing in the way. -/
theorem sbResetRetrans_cases (b : SndBuff) :
    (b.sbResetRetrans.2 = b ∧ (b.uackList = [] ∨ b.retransList ≠ [])) ∨
    (b.uackList ≠ [] ∧ b.retransList = [] ∧
      b.sbResetRetrans.2 = { b with
        retransList := b.uackList.map fun m => { m with mbufState := .loss }
        uackList := [] }) := by
  unfold sbResetRetrans
  split
  · exact .inl ⟨rfl, .inl ‹_›⟩
  · split
    · exact .inl ⟨rfl, .inr ‹_›⟩
    · exact .inr ⟨‹_›, not_not.mp ‹_›, rfl⟩

theorem Holds.congr {b b' : SndBuff} {H N : List SndMbuf} (holds : b.Holds H N)
    (high : b'.husndQ = b.husndQ) (low : b'.usndQ = b.usndQ) : b'.Holds H N :=
  ⟨high ▸ holds.high, low ▸ holds.low⟩

end SndBuff

end QStack
