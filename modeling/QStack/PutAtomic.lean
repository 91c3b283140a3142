/-
# QStack.PutAtomic -- what a call of rb_put may leave behind, and what it returns

`PutAtomic` is what the header promises of one call: a refused mbuf leaves no trace, an
accepted one is in `merged_q` or `ooo_list`, and the result counts the newly readable mbufs.
Four branches of the code break it: a full `merged_q` counts as a success; the swapped call
of `ooo_insert` reports one; a duplicate with priority has already entered `high_q`; and the
merge stores outside the ring, or counts an mbuf the full ring did not take.

`rb_put_atomic` says that these are the only ones: the call is atomic exactly when
`PutAtomicOk` holds of the buffer and the mbuf before it.
-/
import QStack.RecvPut

namespace QStack

set_option autoImplicit false

/-- The listed mbufs that `try_merge_ooo` takes off as next in order, when `merged_next` is
`next`. -/
def mergeable (mbuf : MbufId → Mbuf) : Seq → List MbufId → List MbufId
  | _, [] => []
  | next, id :: rest =>
      if tcpSeqLeq (mbuf id).tcpSeq next then
        if (mbuf id).tcpSeq ≠ next then mergeable mbuf next rest
        else id :: mergeable mbuf (next + (mbuf id).len) rest
      else []

/-- How many of the mbufs have no priority. -/
def lowCount (mbuf : MbufId → Mbuf) (ids : List MbufId) : Nat :=
  ids.countP fun id => !(mbuf id).priority

namespace RcvMem

/-- The parts of the buffer a refused call must not change. -/
structure SameBuffer (b b' : RcvBuff) : Prop where
  high : b'.highQ.contents = b.highQ.contents
  merged : b'.mergedQ.contents = b.mergedQ.contents
  ooo : b'.oooList = b.oooList
  head : b'.headSeq = b.headSeq
  next : b'.mergedNext = b.mergedNext

/-- The listed mbufs that a call has moved into `merged_q`. -/
def moved (w w' : RcvMem) : List MbufId :=
  w.buff.oooList.filter fun j => j ∈ w'.buff.mergedQ.contents ∧ j ∉ w.buff.mergedQ.contents

/-- `ret` and `w'` are what a call of `rb_put` on the mbuf `id` should give. -/
structure PutAtomic (w : RcvMem) (id : MbufId) (ret : Int) (w' : RcvMem) : Prop where
  refused : ret = failed → SameBuffer w.buff w'.buff ∧
    (w'.mbuf id).mbufState = (w.mbuf id).mbufState ∧ (w'.mbuf id).holding = (w.mbuf id).holding
  stored : ret ≠ failed → id ∈ w'.buff.mergedQ.contents ++ w'.buff.oooList
  counts : ret ≠ failed → ret =
    (if id ∈ w'.buff.mergedQ.contents then 1 else 0) + lowCount w.mbuf (moved w w')
  /-- no store through a wrong pointer -/
  inside : w'.faults = w.faults

/-- The segment is next in order: there is a free slot for it, and no listed mbuf goes through
`cirq_add` with effect. -/
structure MergeCounts (w : RcvMem) (id : MbufId) : Prop where
  room : w.buff.mergedQ.cirqFull = false
  quiet : mergeable w.mbuf (w.mbuf id).seqEnd w.buff.oooList = [] ∨
    (w.buff.mergedQ.cirqCount + 2 = staticBuffSize ∧
      lowCount w.mbuf (mergeable w.mbuf (w.mbuf id).seqEnd w.buff.oooList) = 0)

/-- The segment is out of order: it is listed, or it is a duplicate that leaves no trace. -/
def AsideCounts (w : RcvMem) (id : MbufId) : Prop :=
  match oooInsert w.mbuf id w.buff.oooList with
  | .inserted _ => True
  | .swapped => False
  | .duplicate =>
      (w.mbuf id).holding = false ∧
        ((w.mbuf id).priority = true → w.buff.highQ.cirqFull = true)

def PutAtomicOk (w : RcvMem) (id : MbufId) : Prop :=
  tcpSeqGt (w.mbuf id).seqEnd (w.buff.headSeq + w.buff.size) = false →
    if (w.mbuf id).tcpSeq = w.buff.mergedNext then MergeCounts w id else AsideCounts w id

/-! ## The merge loop -/

theorem mergeable_congr {mbuf mbuf' : MbufId → Mbuf}
    (seqs : ∀ j, (mbuf' j).tcpSeq = (mbuf j).tcpSeq)
    (lens : ∀ j, (mbuf' j).len = (mbuf j).len) :
    ∀ (ids : List MbufId) (next : Seq), mergeable mbuf' next ids = mergeable mbuf next ids
  | [], _ => rfl
  | id :: rest, next => by
      rw [mergeable, mergeable, seqs id, lens id, mergeable_congr seqs lens rest,
        mergeable_congr seqs lens rest]

/-- Freeing an mbuf changes its state only. -/
theorem mbufFree_segment (mem : MbufMem) (id j : MbufId) :
    ((mem.mbufFree id).mbuf j).tcpSeq = (mem.mbuf j).tcpSeq ∧
      ((mem.mbufFree id).mbuf j).len = (mem.mbuf j).len ∧
      ((mem.mbufFree id).mbuf j).priority = (mem.mbuf j).priority := by
  by_cases same : j = id
  · subst same
    simp [Mbuf.len]
  · simp [MbufMem.modify_of_ne _ _ same]

theorem lowCount_cons (mbuf : MbufId → Mbuf) (id : MbufId) (ids : List MbufId) :
    lowCount mbuf (id :: ids) =
      lowCount mbuf ids + if (mbuf id).priority = true then 0 else 1 := by
  rw [lowCount, List.countP_cons, lowCount]
  cases (mbuf id).priority <;> rfl

theorem lowCount_congr {mbuf mbuf' : MbufId → Mbuf} (ids : List MbufId)
    (same : ∀ j, (mbuf' j).priority = (mbuf j).priority) :
    lowCount mbuf' ids = lowCount mbuf ids :=
  List.countP_congr fun j _ => by rw [same j]

section Loop

variable {w : RcvMem} {id : MbufId} {rest : List MbufId} {ret : Nat}

/-- The state after `cirq_add` was called for the mbuf taken off the list. -/
def mergeAdd (w : RcvMem) (id : MbufId) (rest : List MbufId) : RcvMem :=
  { w with
    buff := { w.buff with
      oooList := rest
      mergedQ := (w.buff.mergedQ.cirqAddDirect id).2.1
      mergedNext := w.buff.mergedNext + (w.mbuf id).len }
    faults :=
      ((w.buff.mergedQ.cirqAddDirect id).2.2.map RcvFault.stray).toList ++ w.faults }

/-- `cirq_add` gives no result that counts as false. -/
theorem truthy_cirqAddDirect (q : CircularQueue MbufId) (id : MbufId) :
    truthy (q.cirqAddDirect id).1 = true := by
  rw [CircularQueue.cirqAddDirect]
  split <;> rfl

theorem mergeLoop_drop (reached : tcpSeqLeq (w.mbuf id).tcpSeq w.buff.mergedNext = true)
    (stale : (w.mbuf id).tcpSeq ≠ w.buff.mergedNext) :
    mergeLoop (id :: rest) w ret =
      mergeLoop rest ((w.setBuff { w.buff with oooList := rest }).setMem (w.mbufFree id)) ret := by
  rw [mergeLoop, if_pos reached]
  exact if_pos stale

theorem mergeLoop_add (next : (w.mbuf id).tcpSeq = w.buff.mergedNext) :
    mergeLoop (id :: rest) w ret =
      mergeLoop rest (w.mergeAdd id rest) (if (w.mbuf id).priority then ret else ret + 1) := by
  have reached : tcpSeqLeq (w.mbuf id).tcpSeq w.buff.mergedNext = true := by
    rw [next]
    exact Lib.Serial.leq_self _
  rw [mergeLoop, if_pos reached]
  refine (if_neg (not_not.mpr next)).trans ?_
  exact if_pos (truthy_cirqAddDirect w.buff.mergedQ id)

end Loop

/-- The loop while the ring takes nothing: it counts all the same. -/
theorem mergeLoop_quiet : ∀ (ids : List MbufId) (w : RcvMem) (ret : Nat),
    (w.buff.mergedQ.cirqFull = true ∨ mergeable w.mbuf w.buff.mergedNext ids = []) →
    (mergeLoop ids w ret).1 = ret + lowCount w.mbuf (mergeable w.mbuf w.buff.mergedNext ids) ∧
      (mergeLoop ids w ret).2.buff.mergedQ = w.buff.mergedQ ∧
      (mergeLoop ids w ret).2.faults = w.faults
  | [], w, ret, _ => ⟨rfl, rfl, rfl⟩
  | id :: rest, w, ret, quiet => by
      rw [mergeable] at quiet ⊢
      by_cases reached : tcpSeqLeq (w.mbuf id).tcpSeq w.buff.mergedNext = true
      swap
      · rw [mergeLoop, if_neg reached, if_neg reached]
        exact ⟨rfl, rfl, rfl⟩
      rw [if_pos reached] at quiet ⊢
      by_cases stale : (w.mbuf id).tcpSeq ≠ w.buff.mergedNext
      · rw [if_pos stale] at quiet ⊢
        rw [mergeLoop_drop reached stale]
        let v : RcvMem := (w.setBuff { w.buff with oooList := rest }).setMem (w.mbufFree id)
        have kept : ∀ next, mergeable v.mbuf next rest = mergeable w.mbuf next rest :=
          mergeable_congr (fun j => (mbufFree_segment w.toMbufMem id j).1)
            (fun j => (mbufFree_segment w.toMbufMem id j).2.1) rest
        have later := mergeLoop_quiet rest v ret
          (quiet.imp_right fun none_ => (kept w.buff.mergedNext).trans none_)
        have low : ∀ ids, lowCount v.mbuf ids = lowCount w.mbuf ids := fun ids =>
          lowCount_congr ids fun j => (mbufFree_segment w.toMbufMem id j).2.2
        rw [low, kept] at later
        exact later
      · rw [if_neg stale] at quiet ⊢
        rw [mergeLoop_add (not_not.mp stale)]
        have full : w.buff.mergedQ.cirqFull = true := quiet.resolve_right (List.cons_ne_nil _ _)
        have add : w.buff.mergedQ.cirqAddDirect id = (failed, w.buff.mergedQ, none) := by
          rw [CircularQueue.cirqAddDirect, if_pos full]
        have ring : (w.mergeAdd id rest).buff.mergedQ = w.buff.mergedQ := by
          rw [mergeAdd, add]
        have faults : (w.mergeAdd id rest).faults = w.faults := by
          rw [mergeAdd, add]
          rfl
        obtain ⟨count, ring', faults'⟩ := mergeLoop_quiet rest (w.mergeAdd id rest)
          (if (w.mbuf id).priority then ret else ret + 1) (.inl (by rw [ring]; exact full))
        refine ⟨count.trans ?_, ring'.trans ring, faults'.trans faults⟩
        change _ + lowCount w.mbuf (mergeable w.mbuf (w.buff.mergedNext + (w.mbuf id).len) rest) = _
        rw [lowCount_cons]
        split <;> omega

/-- Stores are never taken back. -/
theorem mergeLoop_faults : ∀ (ids : List MbufId) (w : RcvMem) (ret : Nat),
    w.faults.length ≤ (mergeLoop ids w ret).2.faults.length
  | [], _, _ => le_rfl
  | id :: rest, w, ret => by
      by_cases reached : tcpSeqLeq (w.mbuf id).tcpSeq w.buff.mergedNext = true
      swap
      · rw [mergeLoop, if_neg reached]
      by_cases stale : (w.mbuf id).tcpSeq ≠ w.buff.mergedNext
      · rw [mergeLoop_drop reached stale]
        let v : RcvMem := (w.setBuff { w.buff with oooList := rest }).setMem (w.mbufFree id)
        exact mergeLoop_faults rest v ret
      · rw [mergeLoop_add (not_not.mp stale)]
        refine le_trans ?_ (mergeLoop_faults rest (w.mergeAdd id rest) _)
        rw [mergeAdd, List.length_append]
        exact Nat.le_add_left _ _

/-- A merge into a ring with room goes through `cirq_add`, which stores outside the ring. -/
theorem mergeLoop_stray : ∀ (ids : List MbufId) (w : RcvMem) (ret : Nat),
    w.buff.mergedQ.cirqFull = false → mergeable w.mbuf w.buff.mergedNext ids ≠ [] →
    w.faults.length < (mergeLoop ids w ret).2.faults.length
  | [], _, _, _, some_ => absurd rfl some_
  | id :: rest, w, ret, room, some_ => by
      rw [mergeable] at some_
      by_cases reached : tcpSeqLeq (w.mbuf id).tcpSeq w.buff.mergedNext = true
      swap
      · rw [if_neg reached] at some_
        exact absurd rfl some_
      rw [if_pos reached] at some_
      by_cases stale : (w.mbuf id).tcpSeq ≠ w.buff.mergedNext
      · rw [if_pos stale] at some_
        rw [mergeLoop_drop reached stale]
        let v : RcvMem := (w.setBuff { w.buff with oooList := rest }).setMem (w.mbufFree id)
        have kept : mergeable v.mbuf w.buff.mergedNext rest =
            mergeable w.mbuf w.buff.mergedNext rest :=
          mergeable_congr (fun j => (mbufFree_segment w.toMbufMem id j).1)
            (fun j => (mbufFree_segment w.toMbufMem id j).2.1) rest _
        exact mergeLoop_stray rest v ret room (kept ▸ some_)
      · rw [mergeLoop_add (not_not.mp stale)]
        refine lt_of_lt_of_le ?_ (mergeLoop_faults rest (w.mergeAdd id rest) _)
        have notFull : ¬ w.buff.mergedQ.cirqFull = true := by
          rw [room]
          exact Bool.false_ne_true
        rw [mergeAdd, CircularQueue.cirqAddDirect, if_neg notFull, List.length_append]
        exact Nat.lt_add_of_pos_left Nat.one_pos

/-! ## The pieces of the call -/

/-- `putHigh` takes the mbuf into `high_q`, or only clears its flag. -/
inductive HighEnd (w : RcvMem) (id : MbufId) : RcvMem → Prop
  | refused (out : (w.mbuf id).priority = false ∨ w.buff.highQ.cirqFull = true) :
      HighEnd w id (w.setMem (w.modify id fun m => { m with holding := false }))
  | taken (priority : (w.mbuf id).priority = true) (room : w.buff.highQ.cirqFull = false) :
      HighEnd w id ((w.setBuff { w.buff with highQ := (w.buff.highQ.dirCirqAdd id).2 }).setMem
        (w.modify id fun m => { m with holding := true, mbufState := .rbuffed }))

theorem putHigh_end (w : RcvMem) (id : MbufId) : HighEnd w id (w.putHigh id) := by
  by_cases out : (w.mbuf id).priority = false ∨ w.buff.highQ.cirqFull = true
  · rw [putHigh_refused out]
    exact .refused out
  · have priority : (w.mbuf id).priority = true :=
      Bool.not_eq_false _ ▸ fun none_ => out (.inl none_)
    have room : w.buff.highQ.cirqFull = false :=
      Bool.eq_false_iff.mpr fun full => out (.inr full)
    have added : (w.buff.highQ.dirCirqAdd id).1 = success := by
      simp [CircularQueue.dirCirqAdd, room]
    have taken : w.putHigh id = (w.setBuff
        { w.buff with highQ := (w.buff.highQ.dirCirqAdd id).2 }).setMem
          (w.modify id fun m => { m with holding := true, mbufState := .rbuffed }) := by
      simp [putHigh, setMem, setBuff, MbufMem.modify, priority, added]
    rw [taken]
    exact .taken priority room

theorem HighEnd.flagged {w v : RcvMem} {id : MbufId} (high : HighEnd w id v) :
    Flagged w v id ∧ v.faults = w.faults := by
  cases high with
  | refused => exact ⟨modify_flagged w id w.buff.highQ ⟨_, _, rfl⟩, rfl⟩
  | taken => exact ⟨modify_flagged w id _ ⟨_, _, rfl⟩, rfl⟩

@[simp] theorem putDone_faults (w : RcvMem) (id : MbufId) : (w.putDone id).faults = w.faults := by
  rw [putDone]
  split <;> rfl

/-- The loop takes mbufs off the list and adds none. -/
theorem mergeLoop_listed : ∀ (ids : List MbufId) (w : RcvMem) (ret : Nat),
    w.buff.oooList = ids → ∀ j ∈ (mergeLoop ids w ret).2.buff.oooList, j ∈ ids
  | [], w, _, here, j, inside => here ▸ inside
  | id :: rest, w, ret, here, j, inside => by
      by_cases reached : tcpSeqLeq (w.mbuf id).tcpSeq w.buff.mergedNext = true
      swap
      · rw [mergeLoop, if_neg reached] at inside
        exact here ▸ inside
      by_cases stale : (w.mbuf id).tcpSeq ≠ w.buff.mergedNext
      · rw [mergeLoop_drop reached stale] at inside
        let v : RcvMem := (w.setBuff { w.buff with oooList := rest }).setMem (w.mbufFree id)
        exact List.mem_cons_of_mem _ (mergeLoop_listed rest v ret rfl j inside)
      · rw [mergeLoop_add (not_not.mp stale)] at inside
        exact List.mem_cons_of_mem _ (mergeLoop_listed rest (w.mergeAdd id rest) _ rfl j inside)

end RcvMem

/-! ## The indices of a direct queue -/

namespace CircularQueue

/-- The indices of a direct queue are in range; its slots may hold anything. -/
structure Indexed {α : Type} (q : CircularQueue α) : Prop where
  size_eq : q.size = staticBuffSize
  head_lt : q.head < staticBuffSize
  tail_lt : q.tail < staticBuffSize

variable {α : Type} {q : CircularQueue α}

theorem Represents.indexed {xs : List α} (rep : q.Represents xs) : q.Indexed where
  size_eq := rep.size_eq
  head_lt := rep.size_eq ▸ rep.window.head_lt
  tail_lt := rep.tail_lt

theorem Indexed.count_lt (ok : q.Indexed) : q.cirqCount < staticBuffSize := by
  have head := ok.head_lt
  have tail := ok.tail_lt
  simp only [cirqCount, ok.size_eq]
  split <;> omega

theorem Indexed.head_eq (ok : q.Indexed) :
    q.head = Lib.Ring.index staticBuffSize q.tail q.cirqCount := by
  have head := ok.head_lt
  have tail := ok.tail_lt
  simp only [cirqCount, ok.size_eq, Lib.Ring.index]
  split
  · rw [Nat.mod_eq_of_lt (by omega)]
    omega
  · rw [Nat.mod_eq_sub_mod (by omega), Nat.mod_eq_of_lt (by omega)]
    omega

theorem Indexed.full_iff (ok : q.Indexed) :
    q.cirqFull = true ↔ q.cirqCount + 1 = staticBuffSize := by
  have head := ok.head_lt
  have tail := ok.tail_lt
  simp only [cirqFull, cirqSucc, cirqCount, ok.size_eq, beq_iff_eq]
  by_cases wraps : q.head + 1 = staticBuffSize
  · rw [wraps, Nat.mod_self]
    split <;> omega
  · rw [Nat.mod_eq_of_lt (by omega)]
    split <;> omega

section Added

variable (ok : q.Indexed) (room : q.cirqFull = false) (a : α)

include room in
theorem dirCirqAdd_room :
    q.dirCirqAdd a = (success,
      { q with
        dQueue := Function.update q.dQueue q.head (some a)
        head := q.cirqSucc q.head }) := by
  simp [dirCirqAdd, room]

include ok room

theorem Indexed.count_succ : (q.dirCirqAdd a).2.cirqCount = q.cirqCount + 1 := by
  have notLast : q.cirqCount + 1 ≠ staticBuffSize := fun last =>
    Bool.false_ne_true (room.symm.trans (ok.full_iff.mpr last))
  have head := ok.head_lt
  have tail := ok.tail_lt
  rw [dirCirqAdd_room room]
  simp only [cirqCount, cirqSucc, ok.size_eq] at notLast ⊢
  by_cases wraps : q.head + 1 = staticBuffSize
  · rw [wraps, Nat.mod_self]
    split at notLast <;> split <;> omega
  · rw [Nat.mod_eq_of_lt (by omega)]
    split at notLast <;> split <;> omega

theorem Indexed.added : (q.dirCirqAdd a).2.Indexed := by
  rw [dirCirqAdd_room room]
  refine ⟨ok.size_eq, ?_, ok.tail_lt⟩
  change (q.head + 1) % q.size < staticBuffSize
  rw [ok.size_eq]
  exact Nat.mod_lt _ staticBuffSize_pos

theorem Indexed.contents_snoc : (q.dirCirqAdd a).2.contents = q.contents ++ [a] := by
  have slots : ∀ i ∈ List.range q.cirqCount,
      (q.dirCirqAdd a).2.dQueue (Lib.Ring.index (q.dirCirqAdd a).2.size (q.dirCirqAdd a).2.tail i)
        = q.dQueue (Lib.Ring.index q.size q.tail i) := by
    intro i inside
    rw [List.mem_range] at inside
    rw [dirCirqAdd_room room]
    refine Function.update_of_ne (fun same => ?_) _ _
    rw [ok.head_eq, ok.size_eq] at same
    have := Lib.Ring.index_inj (inside.trans ok.count_lt) ok.count_lt same
    omega
  have last : (q.dirCirqAdd a).2.dQueue
      (Lib.Ring.index (q.dirCirqAdd a).2.size (q.dirCirqAdd a).2.tail q.cirqCount) = some a := by
    rw [dirCirqAdd_room room]
    change Function.update q.dQueue q.head (some a) (Lib.Ring.index q.size q.tail q.cirqCount) = _
    rw [ok.size_eq, ← ok.head_eq, Function.update_self]
  rw [contents, ok.count_succ room, List.range_succ, List.filterMap_append,
    List.filterMap_congr slots]
  simp [contents, last]

end Added

end CircularQueue

namespace RcvMem

/-! ## The three ends -/

section Call

variable {w : RcvMem} {id : MbufId}

theorem putAtomic_window
    (beyond : tcpSeqGt (w.mbuf id).seqEnd (w.buff.headSeq + w.buff.size) = true) :
    PutAtomic w id (w.rbPut id).1 (w.rbPut id).2 := by
  rw [rbPut_window beyond]
  exact ⟨fun _ => ⟨⟨rfl, rfl, rfl, rfl, rfl⟩, rfl, rfl⟩,
    fun accepted => absurd rfl accepted, fun accepted => absurd rfl accepted, rfl⟩

/-- Where `merged_q` holds at most the new mbuf besides, nothing was moved into it. -/
theorem moved_nil {w' : RcvMem} (unlisted : id ∉ w.buff.oooList)
    (merged : ∀ j ∈ w'.buff.mergedQ.contents, j ∈ w.buff.mergedQ.contents ∨ j = id) :
    moved w w' = [] := by
  rw [moved, List.filter_eq_nil_iff]
  intro j listed both
  obtain ⟨now, before⟩ := of_decide_eq_true both
  rcases merged j now with stayed | rfl
  · exact before stayed
  · exact unlisted listed

/-- `u` is the state in which the merge of a segment that was next in order starts. -/
structure Arrived (w : RcvMem) (id : MbufId) (u : RcvMem) : Prop where
  merged : u.buff.mergedQ = (w.buff.mergedQ.dirCirqAdd id).2
  ooo : u.buff.oooList = w.buff.oooList
  next : u.buff.mergedNext = (w.mbuf id).seqEnd
  head : u.buff.headSeq = w.buff.headSeq
  size : u.buff.size = w.buff.size
  high : u.buff.highQ = (w.putHigh id).buff.highQ
  faults : u.faults = w.faults
  mergeable : mergeable u.mbuf u.buff.mergedNext u.buff.oooList =
    mergeable w.mbuf (w.mbuf id).seqEnd w.buff.oooList
  low : ∀ ids, lowCount u.mbuf ids = lowCount w.mbuf ids

/-- Even a full ring gives a result that counts as true. -/
theorem truthy_dirCirqAdd (q : CircularQueue MbufId) (id : MbufId) :
    truthy (q.dirCirqAdd id).1 = true := by
  rw [CircularQueue.dirCirqAdd]
  split <;> rfl

theorem rbPut_arrived
    (window : tcpSeqGt (w.mbuf id).seqEnd (w.buff.headSeq + w.buff.size) = false)
    (inOrder : (w.mbuf id).tcpSeq = w.buff.mergedNext) :
    ∃ u, Arrived w id u ∧
      (w.rbPut id).1 = 1 + ((mergeLoop u.buff.oooList u 0).1 : Int) ∧
      (w.rbPut id).2 = (mergeLoop u.buff.oooList u 0).2.putDone id := by
  obtain ⟨flagged, faults⟩ := (putHigh_end w id).flagged
  have merged : (w.putHigh id).buff.mergedQ = w.buff.mergedQ := by
    rw [flagged.buff]
  have next : (w.putHigh id).buff.mergedNext = w.buff.mergedNext := by
    rw [flagged.buff]
  have ooo : (w.putHigh id).buff.oooList = w.buff.oooList := by
    rw [flagged.buff]
  have len : ∀ j, ((w.putHigh id).mbuf j).len = (w.mbuf j).len ∧
      ((w.putHigh id).mbuf j).priority = (w.mbuf j).priority := by
    intro j
    by_cases same : j = id
    · subst same
      obtain ⟨-, length, -, priority, -⟩ := flagged.self.segment
      exact ⟨by rw [Mbuf.len, length, Mbuf.len], priority⟩
    · rw [flagged.other j same]
      exact ⟨rfl, rfl⟩
  have added : (w.putHigh id).buff.mergedQ.dirCirqAdd id =
      ((w.buff.mergedQ.dirCirqAdd id).1, (w.buff.mergedQ.dirCirqAdd id).2) := by
    rw [merged]
  rw [rbPut_inOrder window (((flagged.seqs id).1.trans inOrder).trans next.symm) added
    (truthy_dirCirqAdd _ _)]
  refine ⟨(w.putHigh id).setBuff { (w.putHigh id).buff with
    mergedQ := (w.buff.mergedQ.dirCirqAdd id).2, mergedNext := (w.mbuf id).seqEnd },
    ⟨rfl, ooo, rfl, by rw [setBuff_buff, flagged.buff], by rw [setBuff_buff, flagged.buff], rfl,
      faults, ?_, fun ids => lowCount_congr ids fun j => (len j).2⟩, rfl, rfl⟩
  exact (mergeable_congr (fun j => (flagged.seqs j).1) (fun j => (len j).1) _ _).trans
    (congrArg _ ooo)

section InOrder

variable (unmerged : id ∉ w.buff.mergedQ.contents) (unlisted : id ∉ w.buff.oooList)
  (window : tcpSeqGt (w.mbuf id).seqEnd (w.buff.headSeq + w.buff.size) = false)
  (inOrder : (w.mbuf id).tcpSeq = w.buff.mergedNext)

include window inOrder

include unmerged unlisted in
/-- A full `merged_q` takes nothing, and the call reports a success. -/
theorem putAtomic_full (full : w.buff.mergedQ.cirqFull = true) :
    ¬ PutAtomic w id (w.rbPut id).1 (w.rbPut id).2 := by
  intro atomic
  obtain ⟨u, arrived, ret, after⟩ := rbPut_arrived window inOrder
  have ring : u.buff.mergedQ = w.buff.mergedQ := by
    rw [arrived.merged, CircularQueue.dirCirqAdd_full full]
  have accepted : (w.rbPut id).1 ≠ failed := by
    rw [ret, failed]
    omega
  have stays := (mergeLoop_quiet u.buff.oooList u 0 (.inl (by rw [ring]; exact full))).2.1
  rcases List.mem_append.mp (atomic.stored accepted) with inMerged | inList
  · rw [after, putDone_buff, stays, ring] at inMerged
    exact unmerged inMerged
  · rw [after, putDone_buff] at inList
    have listed := mergeLoop_listed u.buff.oooList u 0 rfl id inList
    rw [arrived.ooo] at listed
    exact unlisted listed

/-- A merge into a ring with room stores outside of it. -/
theorem putAtomic_stray (room : (w.buff.mergedQ.dirCirqAdd id).2.cirqFull = false)
    (some_ : mergeable w.mbuf (w.mbuf id).seqEnd w.buff.oooList ≠ []) :
    ¬ PutAtomic w id (w.rbPut id).1 (w.rbPut id).2 := by
  intro atomic
  obtain ⟨u, arrived, -, after⟩ := rbPut_arrived window inOrder
  have stray := mergeLoop_stray u.buff.oooList u 0 (by rw [arrived.merged]; exact room)
    (by rw [arrived.mergeable]; exact some_)
  have inside := atomic.inside
  rw [after, putDone_faults, ← arrived.faults] at inside
  rw [inside] at stray
  exact lt_irrefl _ stray

/-- Where `cirq_add` has no effect, the result is right when it was called for no mbuf that
counts. -/
theorem putAtomic_quiet (unlisted : id ∉ w.buff.oooList) (ok : w.buff.mergedQ.Indexed)
    (room : w.buff.mergedQ.cirqFull = false)
    (quiet : (w.buff.mergedQ.dirCirqAdd id).2.cirqFull = true ∨
      mergeable w.mbuf (w.mbuf id).seqEnd w.buff.oooList = []) :
    PutAtomic w id (w.rbPut id).1 (w.rbPut id).2 ↔
      lowCount w.mbuf (mergeable w.mbuf (w.mbuf id).seqEnd w.buff.oooList) = 0 := by
  obtain ⟨u, arrived, ret, after⟩ := rbPut_arrived window inOrder
  obtain ⟨count, stays, faults⟩ := mergeLoop_quiet u.buff.oooList u 0
    (by rw [arrived.merged, arrived.mergeable]; exact quiet)
  have contents : (w.rbPut id).2.buff.mergedQ.contents = w.buff.mergedQ.contents ++ [id] := by
    rw [after, putDone_buff, stays, arrived.merged, ok.contents_snoc room]
  have merged : id ∈ (w.rbPut id).2.buff.mergedQ.contents := by
    rw [contents]
    exact List.mem_append_right _ (List.mem_singleton_self id)
  have unmoved : moved w (w.rbPut id).2 = [] := by
    apply moved_nil unlisted
    intro j now
    rw [contents, List.mem_append, List.mem_singleton] at now
    exact now
  have accepted : (w.rbPut id).1 ≠ failed := by
    rw [ret, failed]
    omega
  rw [arrived.mergeable, arrived.low, Nat.zero_add] at count
  rw [count] at ret
  constructor
  · intro atomic
    have counts := atomic.counts accepted
    rw [if_pos merged, unmoved, ret] at counts
    have none_ : lowCount w.mbuf [] = 0 := rfl
    rw [none_] at counts
    omega
  · intro none_
    refine ⟨fun refused => absurd refused accepted, fun _ => List.mem_append_left _ merged,
      fun _ => ?_, ?_⟩
    · rw [if_pos merged, unmoved, ret, none_]
      rfl
    · rw [after, putDone_faults, faults, arrived.faults]

end InOrder

theorem putAtomic_inOrder (ok : w.buff.mergedQ.Indexed) (unmerged : id ∉ w.buff.mergedQ.contents)
    (unlisted : id ∉ w.buff.oooList)
    (window : tcpSeqGt (w.mbuf id).seqEnd (w.buff.headSeq + w.buff.size) = false)
    (inOrder : (w.mbuf id).tcpSeq = w.buff.mergedNext) :
    PutAtomic w id (w.rbPut id).1 (w.rbPut id).2 ↔ MergeCounts w id := by
  cases room : w.buff.mergedQ.cirqFull with
  | true =>
      refine ⟨fun atomic => absurd atomic (putAtomic_full unmerged unlisted window inOrder room),
        fun good => ?_⟩
      exact absurd (room.symm.trans good.room) Bool.noConfusion
  | false =>
      have last : (w.buff.mergedQ.dirCirqAdd id).2.cirqFull = true ↔
          w.buff.mergedQ.cirqCount + 2 = staticBuffSize := by
        rw [(ok.added room id).full_iff, ok.count_succ room]
      have none_ : lowCount w.mbuf [] = 0 := rfl
      constructor
      · intro atomic
        refine ⟨room, ?_⟩
        by_cases empty : mergeable w.mbuf (w.mbuf id).seqEnd w.buff.oooList = []
        · exact .inl empty
        · have full : (w.buff.mergedQ.dirCirqAdd id).2.cirqFull = true := by
            by_contra notFull
            exact putAtomic_stray window inOrder (Bool.eq_false_iff.mpr notFull) empty atomic
          exact .inr ⟨last.mp full,
            (putAtomic_quiet window inOrder unlisted ok room (.inl full)).mp atomic⟩
      · rintro ⟨-, empty | ⟨two, low⟩⟩
        · exact (putAtomic_quiet window inOrder unlisted ok room (.inr empty)).mpr
            (by rw [empty]; exact none_)
        · exact (putAtomic_quiet window inOrder unlisted ok room (.inl (last.mpr two))).mpr low

section OutOfOrder

variable (unmerged : id ∉ w.buff.mergedQ.contents) (unlisted : id ∉ w.buff.oooList)
  (window : tcpSeqGt (w.mbuf id).seqEnd (w.buff.headSeq + w.buff.size) = false)
  (early : (w.mbuf id).tcpSeq ≠ w.buff.mergedNext)

include window early in
/-- The three ends of a call for a segment that is not next in order. -/
theorem rbPut_aside :
    Flagged w (w.putHigh id) id ∧ (w.putHigh id).faults = w.faults ∧
      (∀ list, oooInsert w.mbuf id w.buff.oooList = .inserted list →
        w.rbPut id =
          (0, ((w.putHigh id).setBuff { (w.putHigh id).buff with oooList := list }).putDone id)) ∧
      (oooInsert w.mbuf id w.buff.oooList = .swapped →
        w.rbPut id = (0, ((w.putHigh id).fault (.swappedAddHead id)).putDone id)) ∧
      (oooInsert w.mbuf id w.buff.oooList = .duplicate →
        w.rbPut id = (failed, w.putHigh id)) := by
  obtain ⟨flagged, faults⟩ := (putHigh_end w id).flagged
  have ooo : (w.putHigh id).buff.oooList = w.buff.oooList := by
    rw [flagged.buff]
  have next : (w.putHigh id).buff.mergedNext = w.buff.mergedNext := by
    rw [flagged.buff]
  have same : oooInsert (w.putHigh id).mbuf id (w.putHigh id).buff.oooList =
      oooInsert w.mbuf id w.buff.oooList := by
    rw [ooo]
    exact oooInsert_congr (fun j => (flagged.seqs j).1) (fun j => (flagged.seqs j).2) _
  have apart : ((w.putHigh id).mbuf id).tcpSeq ≠ (w.putHigh id).buff.mergedNext := by
    rw [(flagged.seqs id).1, next]
    exact early
  have ends := rbPut_outOfOrder window apart
  rw [same] at ends
  refine ⟨flagged, faults, fun list found => ?_, fun found => ?_, fun found => ?_⟩
  · rw [found] at ends
    exact ends
  · rw [found] at ends
    exact ends
  · rw [found] at ends
    exact ends

/-- What a refused call leaves of `putHigh`. -/
theorem HighEnd.unchanged_iff (high : w.buff.highQ.Indexed) {v : RcvMem}
    (ended : HighEnd w id v) :
    (SameBuffer w.buff v.buff ∧ (v.mbuf id).mbufState = (w.mbuf id).mbufState ∧
      (v.mbuf id).holding = (w.mbuf id).holding) ↔
    ((w.mbuf id).holding = false ∧
      ((w.mbuf id).priority = true → w.buff.highQ.cirqFull = true)) := by
  cases ended with
  | refused out =>
      have idle : (w.mbuf id).priority = true → w.buff.highQ.cirqFull = true := fun priority =>
        out.resolve_left fun none_ => Bool.noConfusion (priority.symm.trans none_)
      simp only [setMem, MbufMem.modify_self]
      constructor
      · rintro ⟨-, -, cleared⟩
        exact ⟨cleared.symm, idle⟩
      · rintro ⟨cleared, -⟩
        exact ⟨⟨rfl, rfl, rfl, rfl, rfl⟩, trivial, cleared.symm⟩
  | taken priority room =>
      constructor
      · rintro ⟨same, -, -⟩
        have longer := congrArg List.length
          ((high.contents_snoc room id).symm.trans same.high)
        rw [List.length_append, List.length_singleton] at longer
        omega
      · rintro ⟨-, full⟩
        exact Bool.noConfusion (room.symm.trans (full priority))

include unmerged unlisted window early

theorem putAtomic_outOfOrder (high : w.buff.highQ.Indexed) :
    PutAtomic w id (w.rbPut id).1 (w.rbPut id).2 ↔ AsideCounts w id := by
  obtain ⟨flagged, faults, inserted, swapped, duplicate⟩ := rbPut_aside window early
  have merged : (w.putHigh id).buff.mergedQ = w.buff.mergedQ := by
    rw [flagged.buff]
  have ooo : (w.putHigh id).buff.oooList = w.buff.oooList := by
    rw [flagged.buff]
  rw [AsideCounts]
  cases found : oooInsert w.mbuf id w.buff.oooList with
  | inserted list =>
      rw [inserted list found]
      have accepted : (0 : Int) ≠ failed := by decide
      refine iff_of_true ⟨fun refused => absurd refused accepted, fun _ => ?_, fun _ => ?_, ?_⟩
        trivial
      · rw [putDone_buff]
        exact List.mem_append_right _ ((oooInsert_perm found).mem_iff.mpr List.mem_cons_self)
      · have unmoved : moved w
            (((w.putHigh id).setBuff { (w.putHigh id).buff with oooList := list }).putDone id) =
              [] := by
          apply moved_nil unlisted
          intro j now
          rw [putDone_buff] at now
          rw [← merged]
          exact .inl now
        rw [unmoved, putDone_buff, if_neg (by rw [setBuff_buff, merged]; exact unmerged)]
        rfl
      · rw [putDone_faults]
        exact faults
  | swapped =>
      rw [swapped found]
      refine iff_of_false (fun atomic => ?_) not_false
      have accepted : (0 : Int) ≠ failed := by decide
      have stored := atomic.stored accepted
      rw [putDone_buff] at stored
      rcases List.mem_append.mp stored with inMerged | inList
      · exact unmerged (merged ▸ inMerged)
      · exact unlisted (ooo ▸ inList)
  | duplicate =>
      rw [duplicate found]
      constructor
      · intro atomic
        exact ((putHigh_end w id).unchanged_iff high).mp (atomic.refused rfl)
      · intro good
        exact ⟨fun _ => ((putHigh_end w id).unchanged_iff high).mpr good,
          fun accepted => absurd rfl accepted, fun accepted => absurd rfl accepted, faults⟩

end OutOfOrder

end Call

/-- **rb_put is atomic and counts right exactly when `PutAtomicOk` holds**: for every buffer whose
two queues have their indices in range, and every mbuf that is in neither of the two containers
yet. -/
theorem rb_put_atomic (w : RcvMem) (id : MbufId) (merged : w.buff.mergedQ.Indexed)
    (high : w.buff.highQ.Indexed) (unmerged : id ∉ w.buff.mergedQ.contents)
    (unlisted : id ∉ w.buff.oooList) :
    PutAtomic w id (w.rbPut id).1 (w.rbPut id).2 ↔ PutAtomicOk w id := by
  rw [PutAtomicOk]
  cases window : tcpSeqGt (w.mbuf id).seqEnd (w.buff.headSeq + w.buff.size) with
  | true => exact iff_of_true (putAtomic_window window) fun inside => Bool.noConfusion inside
  | false =>
      by_cases inOrder : (w.mbuf id).tcpSeq = w.buff.mergedNext
      · rw [if_pos inOrder]
        exact (putAtomic_inOrder merged unmerged unlisted window inOrder).trans
          ⟨fun good _ => good, fun good => good rfl⟩
      · rw [if_neg inOrder]
        exact (putAtomic_outOfOrder unmerged unlisted window inOrder high).trans
          ⟨fun good _ => good, fun good => good rfl⟩

/-- A segment that arrives early, and a copy of it with priority. -/
def copiedSegment (id : MbufId) : Mbuf :=
  { mbufState := .rcved, tcpSeq := 100, payloadLen := 100, l4Len := 20, priority := id = 2 }

/-- The buffer after the first of the two. -/
def copiedRun : RcvMem :=
  (rbPut { mbuf := copiedSegment, buff := RcvBuff.zero.rbInit 4 0 } 1).2

theorem copiedRun_indexed : copiedRun.buff.mergedQ.Indexed ∧ copiedRun.buff.highQ.Indexed :=
  ⟨⟨by decide, by decide, by decide⟩, ⟨by decide, by decide, by decide⟩⟩

theorem rb_put_atomic_copied :
    PutAtomic copiedRun 2 (copiedRun.rbPut 2).1 (copiedRun.rbPut 2).2 ↔ PutAtomicOk copiedRun 2 :=
  rb_put_atomic copiedRun 2 copiedRun_indexed.1 copiedRun_indexed.2 (by decide) (by decide)

/-- The copy is refused, and stays in `high_q`. -/
theorem rb_put_refused_kept : ¬ ∀ (w : RcvMem) (id : MbufId), w.buff.mergedQ.Indexed →
    w.buff.highQ.Indexed → id ∉ w.buff.mergedQ.contents → id ∉ w.buff.oooList →
    PutAtomic w id (w.rbPut id).1 (w.rbPut id).2 := by
  intro all
  have atomic := all copiedRun 2 copiedRun_indexed.1 copiedRun_indexed.2 (by decide) (by decide)
  have refused : (copiedRun.rbPut 2).1 = failed := by decide
  have grown : (copiedRun.rbPut 2).2.buff.highQ.contents ≠ copiedRun.buff.highQ.contents := by
    decide
  exact grown (atomic.refused refused).1.high

end RcvMem

end QStack
