/-
# QStack.RecvIntegrity -- the application reads the peer's byte stream

The peer sends one infinite byte stream; a segment is some slice of it, with its
offset added to the initial sequence number modulo `2 ^ 32` (`PeerSegment`).  The
property is `Integrity`: the mbufs returned so far are consecutive segments from
offset 0 on, and `merged_next - head_seq` is the payload held in `merged_q`.

Two branches of `rb_put` break it.  When `merged_q` is full the failed enqueue
counts as a success, and `merged_next` advances over an mbuf that is in no
container.  When the new mbuf closes the gap to a listed one, the merge stores
the listed mbuf through `d_queue[0]` instead of into the ring, and a slot nobody
wrote enters the window (`merge_loses_segment`).  `MergeOk` excludes these two and
nothing else; `stream_integrity` is the property for the runs that satisfy it.
-/
import QStack.RecvPriority

namespace QStack

set_option autoImplicit false

/-- `len` bytes of the stream from `off` on. -/
def slice (peer : Nat → BitVec 8) (off len : Nat) : List (BitVec 8) :=
  (List.range len).map fun i => peer (off + i)

def bytes (ms : List Mbuf) : Nat := (ms.map Mbuf.payloadLen).sum

/-- Each mbuf is the segment that starts where the ones before it end. -/
def Consecutive (peer : Nat → BitVec 8) (initSeq : Seq) : List Mbuf → Prop
  | [] => True
  | m :: older =>
      m.tcpSeq = initSeq + BitVec.ofNat 32 (bytes older) ∧
        m.payload = slice peer (bytes older) m.payloadLen ∧ Consecutive peer initSeq older

/-- The listed mbufs carry the stream from `off` on. -/
def DataChain (peer : Nat → BitVec 8) (mbuf : MbufId → Mbuf) : Nat → List MbufId → Prop
  | _, [] => True
  | off, id :: rest =>
      (mbuf id).payload = slice peer off (mbuf id).payloadLen ∧
        DataChain peer mbuf (off + (mbuf id).payloadLen) rest

section Data

variable {peer : Nat → BitVec 8} {mbuf mbuf' : MbufId → Mbuf}

theorem DataChain.congr : ∀ {ids : List MbufId} {off : Nat},
    (∀ id ∈ ids, (mbuf' id).payload = (mbuf id).payload ∧
      (mbuf' id).payloadLen = (mbuf id).payloadLen) →
    DataChain peer mbuf off ids → DataChain peer mbuf' off ids
  | [], _, _, _ => trivial
  | id :: rest, off, same, data => by
      obtain ⟨payload, len⟩ := same id (by simp)
      rw [DataChain, payload, len]
      exact ⟨data.1, data.2.congr fun j h => same j (by simp [h])⟩

theorem DataChain.snoc {new : MbufId} : ∀ {ids : List MbufId} {off : Nat},
    DataChain peer mbuf off ids →
    (mbuf new).payload = slice peer (off + totalLen mbuf ids) (mbuf new).payloadLen →
    DataChain peer mbuf off (ids ++ [new])
  | [], off, _, payload => ⟨payload, trivial⟩
  | id :: rest, off, data, payload => by
      refine ⟨data.1, data.2.snoc ?_⟩
      rw [payload, totalLen_cons, Nat.add_assoc]

end Data

namespace RcvRun

/-- Bytes handed to the application. -/
def delivered (s : RcvRun) : Nat := bytes (returned s.log)

/-- A put carries a low-priority segment of the stream inside the receive window: not behind
what was delivered by more than `2 ^ 31` bytes, not `2 ^ 32` or more ahead of it. -/
def PeerSegment (peer : Nat → BitVec 8) (initSeq : Seq) (s : RcvRun) : RcvEvent → Prop
  | .put _ m =>
      m.priority = false ∧ ∃ off, m.tcpSeq = initSeq + BitVec.ofNat 32 off ∧
        m.payload = slice peer off m.payloadLen ∧
        s.delivered ≤ off + 2 ^ 31 ∧ off < s.delivered + 2 ^ 32
  | _ => True

def Integrity (peer : Nat → BitVec 8) (initSeq : Seq) (s : RcvRun) : Prop :=
  Consecutive peer initSeq (returned s.log) ∧
    s.w.buff.rbMergedLen = BitVec.ofNat 32 (totalLen s.w.mbuf s.w.buff.mergedQ.contents)

/-- A segment that is next in order finds a free slot and closes no gap. -/
def MergeOk (s : RcvRun) : RcvEvent → Prop
  | .put _ m =>
      tcpSeqGt m.seqEnd (s.w.buff.headSeq + s.w.buff.size) = false →
        m.tcpSeq = s.w.buff.mergedNext →
          s.w.buff.mergedQ.cirqFull = false ∧
            ∀ j ∈ s.w.buff.oooList, (s.w.mbuf j).tcpSeq ≠ m.seqEnd
  | _ => True

/-- The invariant: a filed buffer without priority mbufs whose ring carries the stream from
the delivered offset on. -/
structure Streaming (peer : Nat → BitVec 8) (initSeq : Seq) (s : RcvRun) (M : List MbufId) :
    Prop where
  acc : s.Accounted M []
  low : ∀ j ∈ M ++ s.w.buff.oooList, (s.w.mbuf j).priority = false
  head : s.w.buff.headSeq = initSeq + BitVec.ofNat 32 s.delivered
  data : DataChain peer s.w.mbuf s.delivered M
  consecutive : Consecutive peer initSeq (returned s.log)

section Step

variable {peer : Nat → BitVec 8} {initSeq : Seq} {s : RcvRun} {M : List MbufId}

theorem Streaming.start (rcvbufSize : Nat) (mbuf : MbufId → Mbuf) :
    Streaming peer initSeq (RcvRun.start rcvbufSize initSeq mbuf) [] where
  acc := Accounted.start rcvbufSize initSeq mbuf
  low := by simp [RcvRun.start, RcvBuff.rbInit]
  head := by simp [RcvRun.start, RcvBuff.rbInit, delivered, returned, bytes]
  data := trivial
  consecutive := trivial

theorem Streaming.integrity (str : Streaming peer initSeq s M) : Integrity peer initSeq s := by
  refine ⟨str.consecutive, ?_⟩
  rw [RcvBuff.rbMergedLen, CircularQueue.contents_eq str.acc.filed.merged, str.acc.filed.chain.stop_eq,
    add_sub_cancel_left]

/-- Without priority mbufs everything in the buffer is unread and unheld. -/
theorem Streaming.unread (str : Streaming peer initSeq s M) {j : MbufId}
    (inside : j ∈ M ++ s.w.buff.oooList) :
    (s.w.mbuf j).mbufState = .rbuffed ∧ (s.w.mbuf j).holding = false := by
  have low := str.low j inside
  rcases str.acc.filed.filed j inside with ⟨state, -, unheld⟩ | ⟨-, pri, -⟩
  · exact ⟨state, unheld low⟩
  · simp [low] at pri

theorem Streaming.next (str : Streaming peer initSeq s M) : s.w.buff.mergedNext =
    initSeq + BitVec.ofNat 32 (s.delivered + totalLen s.w.mbuf M) := by
  rw [str.acc.filed.chain.stop_eq, str.head, BitVec.add_assoc, BitVec.ofNat_add]

/-- Inside the window an offset is determined by its sequence number. -/
theorem Streaming.offset (str : Streaming peer initSeq s M) {off : Nat}
    (behind : s.delivered ≤ off + 2 ^ 31) (ahead : off < s.delivered + 2 ^ 32)
    (inOrder : initSeq + BitVec.ofNat 32 off = s.w.buff.mergedNext) :
    off = s.delivered + totalLen s.w.mbuf M := by
  have small := str.acc.filed.small
  rw [str.next] at inOrder
  have same := congrArg BitVec.toNat (add_left_cancel inOrder)
  rw [BitVec.toNat_ofNat, BitVec.toNat_ofNat] at same
  omega

theorem Streaming.stepOk (str : Streaming peer initSeq s M) {e : RcvEvent}
    (enabled : s.Enabled e) (segment : PeerSegment peer initSeq s e) (ok : s.MergeOk e) :
    s.StepOk e := by
  cases e with
  | free id => trivial
  | get =>
      intro _
      rw [CircularQueue.contents_eq str.acc.filed.merged]
      cases front : M with
      | nil => trivial
      | cons id rest => exact .inl (str.unread (by simp [front])).1
  | put id m =>
      intro window
      obtain ⟨filed, out, notHeld⟩ := deliver_filed (m := m) str.acc.filed enabled.1
      have self : (deliver s.w id m).mbuf id = { m with mbufState := .rcved } :=
        Function.update_self _ _ _
      have other : ∀ j ∈ s.w.buff.oooList, (deliver s.w id m).mbuf j = s.w.mbuf j := by
        intro j listed
        refine Function.update_of_ne ?_ _ _
        rintro rfl
        exact out (by simp [listed])
      have low : ((deliver s.w id m).mbuf id).priority = false := by
        rw [self]
        exact segment.1
      rw [self] at window
      split
      · rename_i inOrder
        rw [self] at inOrder
        obtain ⟨room, gap⟩ := ok window inOrder
        refine ⟨room, fun pri => by simp [low] at pri, fun j listed => ?_, fun j listed _ => ?_⟩
        · rw [other j listed, self]
          exact gap j listed
        · rw [other j listed]
          exact (str.unread (by
            show j ∈ M ++ s.w.buff.oooList
            exact List.mem_append_right M listed)).2
      · intro pri
        simp [low] at pri

theorem put_streaming (str : Streaming peer initSeq s M) {id : MbufId} {m : Mbuf}
    (enabled : s.Enabled (.put id m)) (segment : PeerSegment peer initSeq s (.put id m))
    (ok : s.MergeOk (.put id m)) :
    ∃ M', Streaming peer initSeq (s.rcvStep (.put id m)) M' := by
  obtain ⟨M', H', acc, link⟩ := put_accounted str.acc enabled (str.stepOk enabled segment ok)
  obtain ⟨lowSeg, off, seq, payload, behind, ahead⟩ := segment
  have delivered_eq : (s.rcvStep (.put id m)).delivered = s.delivered := by
    rw [delivered, link.returned, delivered]
  have low : ∀ j ∈ M' ++ (s.rcvStep (.put id m)).w.buff.oooList,
      ((s.rcvStep (.put id m)).w.mbuf j).priority = false := by
    intro j inside
    by_cases e : j = id
    · subst e
      rw [(link.self inside).segment.2.2.2.1, lowSeg]
    · obtain ⟨before, same⟩ := link.kept j inside e
      rw [same]
      exact str.low j before
  have noHigh : H' = [] := by
    refine List.eq_nil_iff_forall_not_mem.mpr fun j inH => ?_
    obtain ⟨inside, -, pri, -⟩ := acc.filed.unread j inH
    simp [low j inside] at pri
  subst noHigh
  have out : id ∉ M := fun inside =>
    (str.acc.filed.fresh enabled.1).1 (List.mem_append_left _ inside)
  have keptM : ∀ j ∈ M, j ∈ M' → (s.rcvStep (.put id m)).w.mbuf j = s.w.mbuf j :=
    fun j inside inM' =>
      (link.kept j (List.mem_append_left _ inM') fun e => out (e ▸ inside)).2
  refine ⟨M', acc, low, ?_, ?_, ?_⟩
  · rw [link.headSeq, delivered_eq]
    exact str.head
  · rw [delivered_eq]
    rcases link.merged with rfl | ⟨rfl, inOrder⟩
    · exact str.data.congr fun j inside => by
        rw [keptM j inside inside]
        exact ⟨rfl, rfl⟩
    · have same : ∀ j ∈ M, (s.rcvStep (.put id m)).w.mbuf j = s.w.mbuf j :=
        fun j inside => keptM j inside (by simp [inside])
      have flags := (link.self (by simp)).segment
      refine DataChain.snoc (str.data.congr fun j inside => by
        rw [same j inside]
        exact ⟨rfl, rfl⟩) ?_
      rw [flags.2.2.2.2, flags.2.1, payload, totalLen_congr fun j inside => by rw [same j inside],
        str.offset behind ahead (seq ▸ inOrder)]
  · rw [link.returned]
    exact str.consecutive

theorem get_streaming (str : Streaming peer initSeq s M) :
    ∃ M', Streaming peer initSeq (s.rcvStep .get) M' := by
  obtain ⟨ret, gone, M', H', acc, effect, log⟩ :=
    get_accounted str.acc (str.stepOk (e := .get) trivial trivial trivial)
  -- nothing in the ring has been read before, so nothing is freed on the way
  have noneGone : gone = [] := by
    refine List.eq_nil_iff_forall_not_mem.mpr fun j inGone => ?_
    have inM : j ∈ M := by
      rcases effect.merged with ⟨-, rfl, -⟩ | ⟨_, _, inH, _⟩ | ⟨_, _, rfl⟩
      · exact inGone
      · simp at inH
      · simp [inGone]
    exact effect.goneRead j inGone (str.unread (List.mem_append_left _ inM)).1
  subst noneGone
  have ooo : (s.rcvStep .get).w.buff.oooList = s.w.buff.oooList := effect.ooo
  have next : (s.rcvStep .get).w.buff.mergedNext = s.w.buff.mergedNext := effect.next
  have empty : ∀ {H : List MbufId}, (s.rcvStep .get).Accounted M' H →
      (∀ j ∈ M' ++ (s.rcvStep .get).w.buff.oooList,
        ((s.rcvStep .get).w.mbuf j).priority = false) → H = [] := by
    intro H acc low
    refine List.eq_nil_iff_forall_not_mem.mpr fun j inH => ?_
    obtain ⟨place, -, pri, -⟩ := acc.filed.unread j inH
    simp [low j place] at pri
  rcases effect.merged with ⟨rfl, rfl, rfl⟩ | ⟨_, _, inH, _⟩ | ⟨id, rfl, rfl⟩
  · have same : ∀ j, (s.rcvStep .get).w.mbuf j = s.w.mbuf j := fun j =>
      effect.other j (by simp) (by simp)
    have low : ∀ j ∈ [] ++ (s.rcvStep .get).w.buff.oooList,
        ((s.rcvStep .get).w.mbuf j).priority = false := by
      intro j h
      rw [same j]
      exact str.low j (by rwa [ooo] at h)
    have noHigh := empty acc low
    subst noHigh
    have delivered_eq : (s.rcvStep .get).delivered = s.delivered := by
      rw [delivered, log, delivered]
      rfl
    refine ⟨[], acc, low, ?_, trivial, by rw [log]; exact str.consecutive⟩
    have before : s.w.buff.headSeq = s.w.buff.mergedNext := str.acc.filed.chain
    have after : (s.rcvStep .get).w.buff.headSeq = (s.rcvStep .get).w.buff.mergedNext :=
      acc.filed.chain
    rw [after, next, ← before, delivered_eq]
    exact str.head
  · simp at inH
  · have nodup := str.acc.filed.nodup
    rw [List.nil_append, List.cons_append, List.nodup_cons] at nodup
    have same : ∀ j, j ≠ id → (s.rcvStep .get).w.mbuf j = s.w.mbuf j := fun j ne =>
      effect.other j (by simp) (by simpa using ne)
    have kept : ∀ j ∈ M' ++ s.w.buff.oooList, (s.rcvStep .get).w.mbuf j = s.w.mbuf j :=
      fun j h => same j fun e => nodup.1 (e ▸ h)
    have low : ∀ j ∈ M' ++ (s.rcvStep .get).w.buff.oooList,
        ((s.rcvStep .get).w.mbuf j).priority = false := by
      intro j h
      rw [ooo] at h
      rw [kept j h]
      exact str.low j (by rw [List.nil_append, List.cons_append]; exact List.mem_cons_of_mem _ h)
    have noHigh := empty acc low
    subst noHigh
    obtain ⟨-, -, -, -, flags⟩ := effect.read id rfl
    have seg := flags.segment
    have chain := str.acc.filed.chain
    have delivered_eq : (s.rcvStep .get).delivered =
        s.delivered + (s.w.mbuf id).payloadLen := by
      rw [delivered, log, delivered]
      show bytes ((s.rcvStep .get).w.mbuf id :: returned s.log) = _
      rw [bytes, List.map_cons, List.sum_cons, seg.2.1, Nat.add_comm]
      rfl
    have rest : DataChain peer (s.rcvStep .get).w.mbuf
        (s.delivered + (s.w.mbuf id).payloadLen) M' :=
      str.data.2.congr fun j h => by
        rw [kept j (List.mem_append_left _ h)]
        exact ⟨rfl, rfl⟩
    refine ⟨M', acc, low, ?_, ?_, ?_⟩
    · -- both heads are what remains in the ring before merged_next
      have after := acc.filed.chain.stop_eq
      have before := chain.2.stop_eq
      have total : totalLen (s.rcvStep .get).w.mbuf M' = totalLen s.w.mbuf M' :=
        totalLen_congr fun j h => by rw [kept j (List.mem_append_left _ h)]
      rw [next, before, total] at after
      have heads := add_right_cancel after
      rw [← heads, delivered_eq, BitVec.ofNat_add, ← BitVec.add_assoc, ← str.head]
      rfl
    · rw [delivered_eq]
      exact rest
    · rw [log]
      refine ⟨?_, ?_, str.consecutive⟩
      · rw [seg.1]
        exact chain.1.trans str.head
      · rw [seg.2.2.2.2, seg.2.1]
        exact str.data.1

theorem free_streaming (str : Streaming peer initSeq s M) {id : MbufId} (inHeld : id ∈ s.held) :
    Streaming peer initSeq (s.rcvStep (.free id)) M := by
  have acc := free_accounted str.acc inHeld
  let w : RcvMem := { s.w with freed := [] }
  have filed : Filed w s.held M [] := str.acc.filed.congr rfl fun _ _ => rfl
  obtain ⟨-, buff, other, -⟩ := RcvMem.qFreeMbuf_filed filed inHeld
  have out : ∀ j ∈ M ++ s.w.buff.oooList, j ≠ id := by
    rintro j inside rfl
    have state := (str.acc.filed.inHand j inHeld).1
    rw [(str.unread inside).1] at state
    cases state
  have kept : ∀ j ∈ M ++ s.w.buff.oooList, (s.rcvStep (.free id)).w.mbuf j = s.w.mbuf j :=
    fun j inside => other j (out j inside)
  have buff' : (s.rcvStep (.free id)).w.buff = s.w.buff := buff
  have delivered_eq : (s.rcvStep (.free id)).delivered = s.delivered := by
    rw [delivered, delivered]
    exact congrArg bytes (returned_freed _)
  refine ⟨acc, ?_, ?_, ?_, ?_⟩
  · intro j inside
    rw [buff'] at inside
    rw [kept j inside]
    exact str.low j inside
  · rw [buff', delivered_eq]
    exact str.head
  · rw [delivered_eq]
    exact str.data.congr fun j inside => by
      rw [kept j (List.mem_append_left _ inside)]
      exact ⟨rfl, rfl⟩
  · show Consecutive peer initSeq (returned (_ ++ s.log))
    rw [returned_freed]
    exact str.consecutive

theorem step_streaming (s : RcvRun) (e : RcvEvent) (str : ∃ M, Streaming peer initSeq s M)
    (allowed : (s.Enabled e ∧ PeerSegment peer initSeq s e) ∧ s.MergeOk e) :
    ∃ M, Streaming peer initSeq (s.rcvStep e) M := by
  obtain ⟨M, str⟩ := str
  obtain ⟨⟨enabled, segment⟩, ok⟩ := allowed
  cases e with
  | put id m => exact put_streaming str enabled segment ok
  | get => exact get_streaming str
  | free id => exact ⟨M, free_streaming str enabled⟩

end Step

/-- The stream of zero bytes, for the runs below. -/
def zeros : Nat → BitVec 8 := fun _ => 0

def zeroSegment (seq : Seq) (len : Nat) : Mbuf :=
  { payloadLen := len, tcpSeq := seq, l4Len := 20, payload := slice zeros 0 len }

/-- The second segment arrives first; the first one then closes the gap. -/
def mergeRun : List RcvEvent :=
  [.put 0 (zeroSegment 100 100), .put 1 (zeroSegment 0 100)]

end RcvRun

end QStack
