/-
# QStack.RecvPut -- what rb_put does to a filed buffer

`rb_put` has four ends: it refuses the mbuf, appends it to `merged_q`, lists it
in `ooo_list`, or loses it in the swapped `mbuf_list_add_head` call.  `PutOk` is
the condition on the buffer and the mbuf under which the first three do what
they are for, and `rbPut_cases` says what they do.  A priority mbuf must enter
`high_q` exactly when it is appended or listed; an mbuf appended to `merged_q`
must find a free slot there and must not make a listed mbuf mergeable, since the
merge goes through `cirq_add`.
-/
import Mathlib.Data.List.TakeWhile
import QStack.RecvFiled

namespace QStack

set_option autoImplicit false

/-! ## The out-of-order list -/

section Ooo

variable {mbuf mbuf' : MbufId → Mbuf} {new : MbufId}

theorem oooScan_congr (seqs : ∀ id, (mbuf' id).tcpSeq = (mbuf id).tcpSeq)
    (ends : ∀ id, (mbuf' id).seqEnd = (mbuf id).seqEnd) :
    ∀ list : List MbufId, oooScan mbuf' new list = oooScan mbuf new list
  | [] => rfl
  | [_] => rfl
  | p :: next :: rest => by
      rw [oooScan, oooScan, oooScan_congr seqs ends (next :: rest), ends p, ends new, seqs new,
        seqs next]

theorem oooInsert_congr (seqs : ∀ id, (mbuf' id).tcpSeq = (mbuf id).tcpSeq)
    (ends : ∀ id, (mbuf' id).seqEnd = (mbuf id).seqEnd) (list : List MbufId) :
    oooInsert mbuf' new list = oooInsert mbuf new list := by
  cases list with
  | nil => rfl
  | cons head rest =>
      rw [oooInsert, oooInsert, oooScan_congr seqs ends, ends (rest.getLastD head), ends new,
        seqs new, seqs head]

theorem oooScan_perm : ∀ {list list' : List MbufId}, oooScan mbuf new list = some list' →
    list'.Perm (new :: list)
  | p :: next :: rest, list', found => by
      simp only [oooScan] at found
      split at found
      · cases found
        exact List.Perm.swap _ _ _
      · obtain ⟨tail, inner, rfl⟩ := Option.map_eq_some_iff.mp found
        exact ((oooScan_perm inner).cons p).trans (List.Perm.swap _ _ _)

theorem oooInsert_perm {list list' : List MbufId}
    (inserted : oooInsert mbuf new list = .inserted list') : list'.Perm (new :: list) := by
  cases list with
  | nil =>
      cases inserted
      exact List.Perm.refl _
  | cons head rest =>
      simp only [oooInsert] at inserted
      split at inserted
      · cases inserted
        exact List.perm_append_singleton new (head :: rest)
      · split at inserted
        · cases inserted
        · split at inserted
          · rename_i found
            cases inserted
            exact oooScan_perm found
          · cases inserted

end Ooo

theorem RcvBuff.keep_ooo {buff : RcvBuff} {list : List MbufId} (here : buff.oooList = list) :
    { buff with oooList := list } = buff := by
  subst here
  rfl

namespace RcvMem

/-! ## The merge loop -/

/-- Listed mbufs that merging would drop as out of date. -/
def stale (w : RcvMem) (id : MbufId) : Bool := tcpSeqLeq (w.mbuf id).tcpSeq w.buff.mergedNext

def mbufFreeAll (mem : MbufMem) (ids : List MbufId) : MbufMem := ids.foldl MbufMem.mbufFree mem

theorem mbufFreeAll_of_not_mem (ids : List MbufId) (mem : MbufMem) {j : MbufId} (out : j ∉ ids) :
    (mbufFreeAll mem ids).mbuf j = mem.mbuf j := by
  induction ids generalizing mem with
  | nil => rfl
  | cons id rest ih =>
      simp only [List.mem_cons, not_or] at out
      rw [mbufFreeAll, List.foldl_cons]
      exact (ih (mem.mbufFree id) out.2).trans (by simp [MbufMem.modify_of_ne _ _ out.1])

theorem mbufFreeAll_freed (ids : List MbufId) (mem : MbufMem) :
    (mbufFreeAll mem ids).freed = ids.reverse ++ mem.freed := by
  induction ids generalizing mem with
  | nil => rfl
  | cons id rest ih =>
      rw [mbufFreeAll, List.foldl_cons]
      exact (ih (mem.mbufFree id)).trans (by simp)

/-- While no listed mbuf starts at `merged_next`, merging only drops stale ones. -/
theorem mergeLoop_stale : ∀ (list : List MbufId) (w : RcvMem) (ret : Nat),
    w.buff.oooList = list → (∀ id ∈ list, (w.mbuf id).tcpSeq ≠ w.buff.mergedNext) →
    mergeLoop list w ret =
      (ret, (w.setBuff { w.buff with oooList := list.dropWhile w.stale }).setMem
        (mbufFreeAll w.toMbufMem (list.takeWhile w.stale)))
  | [], w, ret, here, _ => by
      rw [mergeLoop, List.dropWhile_nil, List.takeWhile_nil, RcvBuff.keep_ooo here]
      rfl
  | id :: rest, w, ret, here, beyond => by
      rw [mergeLoop]
      by_cases first : w.stale id = true
      · have leq : tcpSeqLeq (w.mbuf id).tcpSeq w.buff.mergedNext = true := first
        rw [if_pos leq]
        have ne := beyond id (by simp)
        have seqs : ∀ j, ((w.mbufFree id).mbuf j).tcpSeq = (w.mbuf j).tcpSeq := by
          intro j
          by_cases e : j = id
          · subst e
            simp
          · simp [MbufMem.modify_of_ne _ _ e]
        let next : RcvMem :=
          (w.setBuff { w.buff with oooList := rest }).setMem (w.mbufFree id)
        have staleSame : next.stale = w.stale := funext fun j => by
          show tcpSeqLeq ((w.mbufFree id).mbuf j).tcpSeq w.buff.mergedNext = _
          rw [seqs j]
          rfl
        have later := mergeLoop_stale rest next ret rfl fun j hj => by
          show ((w.mbufFree id).mbuf j).tcpSeq ≠ w.buff.mergedNext
          rw [seqs j]
          exact beyond j (by simp [hj])
        rw [staleSame] at later
        rw [List.dropWhile_cons_of_pos first, List.takeWhile_cons_of_pos first]
        exact (if_pos ne).trans later
      · have later : ¬ tcpSeqLeq (w.mbuf id).tcpSeq w.buff.mergedNext = true := first
        rw [if_neg later, List.dropWhile_cons_of_neg first, List.takeWhile_cons_of_neg first,
          RcvBuff.keep_ooo here]
        rfl

/-! ## The condition -/

/-- An mbuf that is next in order has a free slot in `merged_q` (and in `high_q`,
if it needs one), closes no gap, and makes no mbuf stale that is still to be read
or still with the application. -/
structure InOrderOk (w : RcvMem) (id : MbufId) : Prop where
  room : w.buff.mergedQ.cirqFull = false
  highRoom : (w.mbuf id).priority = true → w.buff.highQ.cirqFull = false
  gap : ∀ j ∈ w.buff.oooList, (w.mbuf j).tcpSeq ≠ (w.mbuf id).seqEnd
  unheld : ∀ j ∈ w.buff.oooList, tcpSeqLeq (w.mbuf j).tcpSeq (w.mbuf id).seqEnd = true →
    (w.mbuf j).holding = false

/-- A priority mbuf that is out of order enters `high_q` exactly when it is
listed, and starts at no merged mbuf. -/
def OutOfOrderOk (w : RcvMem) (id : MbufId) : Prop :=
  match oooInsert w.mbuf id w.buff.oooList with
  | .inserted _ =>
      w.buff.highQ.cirqFull = false ∧
        ∀ j ∈ w.buff.mergedQ.contents, (w.mbuf j).tcpSeq ≠ (w.mbuf id).tcpSeq
  | .swapped => False
  | .duplicate => w.buff.highQ.cirqFull = true

def PutOk (w : RcvMem) (id : MbufId) : Prop :=
  tcpSeqGt (w.mbuf id).seqEnd (w.buff.headSeq + w.buff.size) = false →
    if (w.mbuf id).tcpSeq = w.buff.mergedNext then InOrderOk w id
    else (w.mbuf id).priority = true → OutOfOrderOk w id

/-! ## The flags of the new mbuf -/

/-- `m'` is `m` up to the two flags that track who has it. -/
def Reflagged (m m' : Mbuf) : Prop :=
  ∃ holding state, m' = { m with holding := holding, mbufState := state }

theorem Reflagged.segment {m m' : Mbuf} (flags : Reflagged m m') :
    m'.tcpSeq = m.tcpSeq ∧ m'.payloadLen = m.payloadLen ∧ m'.seqEnd = m.seqEnd ∧
      m'.priority = m.priority ∧ m'.payload = m.payload := by
  obtain ⟨holding, state, rfl⟩ := flags
  exact ⟨rfl, rfl, rfl, rfl, rfl⟩

/-- What `putDone` leaves in the mbuf. -/
def flagDone (m : Mbuf) : Mbuf := if m.priority then m else { m with mbufState := .rbuffed }

theorem flagDone_reflagged {m m' : Mbuf} (flags : Reflagged m m') : Reflagged m (flagDone m') := by
  obtain ⟨holding, state, rfl⟩ := flags
  rw [flagDone]
  split
  · exact ⟨holding, state, rfl⟩
  · exact ⟨holding, .rbuffed, rfl⟩

section Flags

variable {w : RcvMem} {id : MbufId}

@[simp] theorem putDone_buff : (w.putDone id).buff = w.buff := by
  rw [putDone]; split <;> rfl

@[simp] theorem putDone_freed : (w.putDone id).freed = w.freed := by
  rw [putDone]; split <;> rfl

@[simp] theorem putDone_self : (w.putDone id).mbuf id = flagDone (w.mbuf id) := by
  rw [putDone, flagDone]
  split
  · rfl
  · simp [setMem]

theorem putDone_other {j : MbufId} (ne : j ≠ id) : (w.putDone id).mbuf j = w.mbuf j := by
  rw [putDone]
  split
  · rfl
  · simp [setMem, MbufMem.modify_of_ne _ _ ne]

/-- `putHigh` changes `high_q` and the flags of the mbuf. -/
structure Flagged (w v : RcvMem) (id : MbufId) : Prop where
  buff : v.buff = { w.buff with highQ := v.buff.highQ }
  other : ∀ j, j ≠ id → v.mbuf j = w.mbuf j
  self : Reflagged (w.mbuf id) (v.mbuf id)
  freed : v.freed = w.freed

theorem Flagged.seqs {v : RcvMem} (flagged : Flagged w v id) (j : MbufId) :
    (v.mbuf j).tcpSeq = (w.mbuf j).tcpSeq ∧ (v.mbuf j).seqEnd = (w.mbuf j).seqEnd := by
  by_cases e : j = id
  · subst e
    exact ⟨flagged.self.segment.1, flagged.self.segment.2.2.1⟩
  · rw [flagged.other j e]
    exact ⟨rfl, rfl⟩

/-- An mbuf that `high_q` does not take, because it has no priority or the ring is full. -/
theorem putHigh_refused
    (out : (w.mbuf id).priority = false ∨ w.buff.highQ.cirqFull = true) :
    w.putHigh id = w.setMem (w.modify id fun m => { m with holding := false }) := by
  cases pri : (w.mbuf id).priority with
  | false => simp [putHigh, setMem, pri]
  | true =>
      have full : w.buff.highQ.cirqFull = true := by simpa [pri] using out
      simp [putHigh, setMem, pri, CircularQueue.dirCirqAdd_full full, failed, success]

theorem putHigh_taken {H : List MbufId} (pri : (w.mbuf id).priority = true)
    (rep : w.buff.highQ.Represents H) (room : w.buff.highQ.cirqFull = false) :
    w.putHigh id =
      (w.setBuff { w.buff with highQ := (w.buff.highQ.dirCirqAdd id).2 }).setMem
        (w.modify id fun m => { m with holding := true, mbufState := .rbuffed }) := by
  have added := (CircularQueue.dirCirqAdd_success rep room id).1
  simp [putHigh, setMem, setBuff, MbufMem.modify, pri, added]

theorem modify_flagged (w : RcvMem) (id : MbufId) (highQ : CircularQueue MbufId) {f : Mbuf → Mbuf}
    (flags : Reflagged (w.mbuf id) (f (w.mbuf id))) :
    Flagged w ((w.setBuff { w.buff with highQ := highQ }).setMem (w.modify id f)) id where
  buff := rfl
  other j ne := MbufMem.modify_of_ne _ _ ne
  self := by
    show Reflagged _ ((w.modify id f).mbuf id)
    rwa [MbufMem.modify_self]
  freed := rfl

/-- A priority mbuf that `high_q` has room for, or one without priority, ends up marked. -/
theorem putHigh_marked {H : List MbufId} (rep : w.buff.highQ.Represents H)
    (room : (w.mbuf id).priority = true → w.buff.highQ.cirqFull = false) :
    Flagged w (w.putHigh id) id ∧ ∃ H', (w.putHigh id).buff.highQ.Represents H' ∧
      Filed.Marked (flagDone ((w.putHigh id).mbuf id)) H H' id := by
  cases pri : (w.mbuf id).priority with
  | false =>
      rw [putHigh_refused (.inl pri)]
      refine ⟨modify_flagged w id w.buff.highQ ⟨_, _, rfl⟩, H, rep, ?_⟩
      simp only [setMem, MbufMem.modify_self, flagDone, pri]
      exact ⟨rfl, by simp, by simp⟩
  | true =>
      have free := room pri
      rw [putHigh_taken pri rep free]
      refine ⟨modify_flagged w id _ ⟨_, _, rfl⟩, H ++ [id],
        (CircularQueue.dirCirqAdd_success rep free id).2, ?_⟩
      simp only [setMem, MbufMem.modify_self, flagDone, pri, if_true]
      exact ⟨rfl, by simp, by simp⟩

end Flags

/-! ## rb_put -/

/-- What a call of `rb_put` may change. -/
structure PutEffect (w w' : RcvMem) (id : MbufId) (dropped : List MbufId) : Prop where
  other : ∀ j, j ≠ id → j ∉ dropped → w'.mbuf j = w.mbuf j
  self : Reflagged (w.mbuf id) (w'.mbuf id)
  headSeq : w'.buff.headSeq = w.buff.headSeq
  freed : w'.freed = dropped.reverse ++ w.freed

/-- The three good ends of `rb_put`, for a buffer whose `merged_q` held `M`. -/
inductive PutEnd (w w' : RcvMem) (id : MbufId) (M : List MbufId) : Int → List MbufId → Prop
  | merged (n : Nat) (inOrder : (w.mbuf id).tcpSeq = w.buff.mergedNext)
      (next : w'.buff.mergedNext = (w.mbuf id).seqEnd)
      (state : (w'.mbuf id).mbufState = .rbuffed) : PutEnd w w' id M (1 + n) (M ++ [id])
  | aside (next : w'.buff.mergedNext = w.buff.mergedNext)
      (state : (w'.mbuf id).mbufState = .rbuffed) : PutEnd w w' id M 0 M
  | refused (buff : w'.buff = w.buff)
      (state : (w'.mbuf id).mbufState = .rcved) : PutEnd w w' id M failed M

theorem PutEnd.kept {w w' : RcvMem} {id : MbufId} {M M' : List MbufId} {ret : Int}
    (ending : PutEnd w w' id M ret M') (state : (w'.mbuf id).mbufState = .rcved) :
    M' = M ∧ w'.buff = w.buff := by
  cases ending with
  | merged n inOrder next buffered => simp [buffered] at state
  | aside next buffered => simp [buffered] at state
  | refused buff _ => exact ⟨rfl, buff⟩

theorem PutEnd.accepted {w w' : RcvMem} {id : MbufId} {M M' : List MbufId} {ret : Int}
    (ending : PutEnd w w' id M ret M') (state : (w'.mbuf id).mbufState ≠ .rcved) :
    ret ≠ failed := by
  cases ending with
  | merged n inOrder next buffered => simp only [failed]; omega
  | aside next buffered => simp [failed]
  | refused buff rcved => exact absurd rcved state

theorem PutEnd.merged? {w w' : RcvMem} {id : MbufId} {M M' : List MbufId} {ret : Int}
    (ending : PutEnd w w' id M ret M') :
    M' = M ∨ (M' = M ++ [id] ∧ (w.mbuf id).tcpSeq = w.buff.mergedNext) := by
  cases ending with
  | merged n inOrder next buffered => exact .inr ⟨rfl, inOrder⟩
  | aside next buffered => exact .inl rfl
  | refused buff rcved => exact .inl rfl

section Put

variable {w : RcvMem} {held M H : List MbufId} {id : MbufId}

theorem rbPut_window
    (beyond : tcpSeqGt (w.mbuf id).seqEnd (w.buff.headSeq + w.buff.size) = true) :
    w.rbPut id = (failed, w) := by
  simp [rbPut, beyond]

theorem rbPut_inOrder (window : tcpSeqGt (w.mbuf id).seqEnd (w.buff.headSeq + w.buff.size) = false)
    (inOrder : ((w.putHigh id).mbuf id).tcpSeq = (w.putHigh id).buff.mergedNext) {r : Int}
    {q : CircularQueue MbufId} (added : (w.putHigh id).buff.mergedQ.dirCirqAdd id = (r, q))
    (nonzero : truthy r = true) :
    w.rbPut id =
      (1 + ((((w.putHigh id).setBuff { (w.putHigh id).buff with
          mergedQ := q, mergedNext := (w.mbuf id).seqEnd }).tryMergeOoo).1 : Int),
        (((w.putHigh id).setBuff { (w.putHigh id).buff with
          mergedQ := q, mergedNext := (w.mbuf id).seqEnd }).tryMergeOoo).2.putDone id) := by
  simp [rbPut, window, inOrder, added, nonzero]

theorem rbPut_outOfOrder
    (window : tcpSeqGt (w.mbuf id).seqEnd (w.buff.headSeq + w.buff.size) = false)
    (early : ((w.putHigh id).mbuf id).tcpSeq ≠ (w.putHigh id).buff.mergedNext) :
    w.rbPut id =
      match oooInsert (w.putHigh id).mbuf id (w.putHigh id).buff.oooList with
      | .inserted list =>
          (0, ((w.putHigh id).setBuff { (w.putHigh id).buff with oooList := list }).putDone id)
      | .swapped => (0, ((w.putHigh id).fault (.swappedAddHead id)).putDone id)
      | .duplicate => (failed, w.putHigh id) := by
  unfold rbPut
  dsimp only
  refine (if_neg (Bool.not_eq_true _ ▸ window)).trans ((if_neg early).trans ?_)
  cases oooInsert (w.putHigh id).mbuf id (w.putHigh id).buff.oooList with
  | inserted list => rfl
  | swapped => rfl
  | duplicate => rfl

/-- Refused before anything was done, or after `high_q` was full and the list had no place. -/
theorem put_refused (good : Filed w held M H) (out : id ∉ M ++ w.buff.oooList)
    (notHeld : id ∉ held) (state : (w.mbuf id).mbufState = .rcved) {w' : RcvMem}
    (flagged : Flagged w w' id) (buff : w'.buff = w.buff)
    (same : (w'.mbuf id).mbufState = (w.mbuf id).mbufState) :
    ∃ dropped M' H', PutEffect w w' id dropped ∧ Filed w' held M' H' ∧
      PutEnd w w' id M failed M' ∧
      ∀ j ∈ M' ++ w'.buff.oooList, j = id ∨ (j ∈ M ++ w.buff.oooList ∧ j ∉ dropped) := by
  refine ⟨[], M, H, ⟨fun j ne _ => flagged.other j ne, flagged.self, by rw [buff],
    flagged.freed⟩, ?_, .refused buff (same.trans state), ?_⟩
  · refine good.congr buff fun j inside => flagged.other j ?_
    rintro rfl
    rcases inside with inside | inside
    · exact out inside
    · exact notHeld inside
  · intro j inside
    rw [buff] at inside
    exact .inr ⟨inside, by simp⟩

/-- The mbuf is next in order. -/
theorem put_inOrder (good : Filed w held M H) (out : id ∉ M ++ w.buff.oooList)
    (notHeld : id ∉ held) (len : 0 < (w.mbuf id).payloadLen ∧ (w.mbuf id).payloadLen < 2 ^ 16)
    (window : tcpSeqGt (w.mbuf id).seqEnd (w.buff.headSeq + w.buff.size) = false)
    (inOrder : (w.mbuf id).tcpSeq = w.buff.mergedNext) (ok : InOrderOk w id) :
    ∃ dropped M' H', PutEffect w (w.rbPut id).2 id dropped ∧
      Filed (w.rbPut id).2 held M' H' ∧ PutEnd w (w.rbPut id).2 id M (w.rbPut id).1 M' ∧
      ∀ j ∈ M' ++ (w.rbPut id).2.buff.oooList,
        j = id ∨ (j ∈ M ++ w.buff.oooList ∧ j ∉ dropped) := by
  obtain ⟨flagged, H', repH, mark⟩ := putHigh_marked good.high ok.highRoom
  have ring : (w.putHigh id).buff.mergedQ = w.buff.mergedQ := by rw [flagged.buff]
  have list : (w.putHigh id).buff.oooList = w.buff.oooList := by rw [flagged.buff]
  obtain ⟨added, repM⟩ := CircularQueue.dirCirqAdd_success good.merged ok.room id
  -- the memory after the mbuf is appended, before merging
  let u := (w.putHigh id).setBuff { (w.putHigh id).buff with
    mergedQ := (w.buff.mergedQ.dirCirqAdd id).2, mergedNext := (w.mbuf id).seqEnd }
  have notListed : ∀ j ∈ w.buff.oooList, j ≠ id := fun j h e => out (by simp [← e, h])
  have beyond : ∀ j ∈ w.buff.oooList, (u.mbuf j).tcpSeq ≠ u.buff.mergedNext := by
    intro j h
    show ((w.putHigh id).mbuf j).tcpSeq ≠ (w.mbuf id).seqEnd
    rw [(flagged.seqs j).1]
    exact ok.gap j h
  have merge : u.tryMergeOoo =
      (0, (u.setBuff { u.buff with oooList := w.buff.oooList.dropWhile u.stale }).setMem
        (mbufFreeAll u.toMbufMem (w.buff.oooList.takeWhile u.stale))) := by
    have here : u.buff.oooList = w.buff.oooList := list
    rw [tryMergeOoo, here]
    exact mergeLoop_stale _ u 0 here beyond
  have result : w.rbPut id = (1 + ((0 : Nat) : Int),
      ((u.setBuff { u.buff with oooList := w.buff.oooList.dropWhile u.stale }).setMem
        (mbufFreeAll u.toMbufMem (w.buff.oooList.takeWhile u.stale))).putDone id) := by
    have steps := rbPut_inOrder (r := success) (q := (w.buff.mergedQ.dirCirqAdd id).2) window
      (by rw [(flagged.seqs id).1, inOrder, flagged.buff]) (by rw [ring, ← added]) rfl
    rw [steps]
    show (1 + (u.tryMergeOoo.1 : Int), u.tryMergeOoo.2.putDone id) = _
    rw [merge]
  have droppedListed : ∀ j ∈ w.buff.oooList.takeWhile u.stale, j ∈ w.buff.oooList :=
    fun j h => (List.takeWhile_sublist _).subset h
  have kept : id ∉ w.buff.oooList.takeWhile u.stale :=
    fun h => notListed id (droppedListed id h) rfl
  have self : (w.rbPut id).2.mbuf id = flagDone ((w.putHigh id).mbuf id) := by
    rw [result, putDone_self]
    exact congrArg flagDone (mbufFreeAll_of_not_mem _ _ kept)
  have flags : Reflagged (w.mbuf id) ((w.rbPut id).2.mbuf id) := by
    rw [self]
    exact flagDone_reflagged flagged.self
  have other : ∀ j, j ≠ id → j ∉ w.buff.oooList.takeWhile u.stale →
      (w.rbPut id).2.mbuf j = w.mbuf j := by
    intro j ne notDropped
    rw [result, putDone_other ne]
    exact (mbufFreeAll_of_not_mem _ _ notDropped).trans (flagged.other j ne)
  have buff : (w.rbPut id).2.buff = { w.buff with
      mergedQ := (w.buff.mergedQ.dirCirqAdd id).2
      mergedNext := ((w.rbPut id).2.mbuf id).seqEnd
      oooList := w.buff.oooList.dropWhile u.stale
      highQ := (w.putHigh id).buff.highQ } := by
    rw [flags.segment.2.2.1, result, putDone_buff]
    show ({ u.buff with oooList := w.buff.oooList.dropWhile u.stale } : RcvBuff) = _
    have first : u.buff = { w.buff with
        mergedQ := (w.buff.mergedQ.dirCirqAdd id).2
        mergedNext := (w.mbuf id).seqEnd
        highQ := (w.putHigh id).buff.highQ } := by
      show ({ (w.putHigh id).buff with
        mergedQ := (w.buff.mergedQ.dirCirqAdd id).2
        mergedNext := (w.mbuf id).seqEnd } : RcvBuff) = _
      rw [flagged.buff]
    rw [first]
  refine ⟨w.buff.oooList.takeWhile u.stale, M ++ [id], H', ⟨other, flags, by rw [buff], ?_⟩, ?_,
    ?_, ?_⟩
  · rw [result, putDone_freed]
    exact (mbufFreeAll_freed _ _).trans (congrArg _ flagged.freed)
  · refine good.appendMerged out notHeld List.takeWhile_append_dropWhile.symm ?_ ?_ buff repM
      repH (self ▸ mark) (flags.segment.1.trans inOrder) ?_ ?_ other
    · intro j h
      refine ok.unheld j (droppedListed j h) ?_
      have leq : u.stale j = true := List.mem_takeWhile_imp h
      rw [← (flagged.seqs j).1]
      exact leq
    · intro j h
      rw [flags.segment.2.2.1]
      exact ok.gap j h
    · rw [flags.segment.2.1]
      exact len
    · rw [flags.segment.2.2.1]
      exact window
  · rw [show (w.rbPut id).1 = 1 + ((0 : Nat) : Int) by rw [result]]
    refine .merged 0 inOrder ?_ ?_
    · rw [buff, flags.segment.2.2.1]
    · rw [self]
      exact mark.state
  · intro j inside
    rw [buff] at inside
    simp only [List.mem_append, List.mem_singleton] at inside
    have nodup := good.nodup
    rw [← List.takeWhile_append_dropWhile (p := u.stale) (l := w.buff.oooList)] at nodup
    have parts := List.nodup_append.mp nodup
    rcases inside with (inM | rfl) | inList
    · exact .inr ⟨by simp [inM], fun h => parts.2.2 j inM j (List.mem_append_left _ h) rfl⟩
    · exact .inl rfl
    · refine .inr ⟨by simp [(List.dropWhile_sublist _).subset inList], fun h => ?_⟩
      exact (List.nodup_append.mp parts.2.1).2.2 j h j inList rfl

/-- Listed in `ooo_list`. -/
theorem put_listed {H' list : List MbufId} (good : Filed w held M H)
    (out : id ∉ M ++ w.buff.oooList) (notHeld : id ∉ held)
    (early : (w.mbuf id).tcpSeq ≠ w.buff.mergedNext)
    (perm : list.Perm (id :: w.buff.oooList)) (flagged : Flagged w (w.putHigh id) id)
    (rep : (w.putHigh id).buff.highQ.Represents H')
    (mark : Filed.Marked (flagDone ((w.putHigh id).mbuf id)) H H' id)
    (apart : (w.mbuf id).priority = true → ∀ j ∈ M, (w.mbuf j).tcpSeq ≠ (w.mbuf id).tcpSeq) :
    let w' := ((w.putHigh id).setBuff { (w.putHigh id).buff with oooList := list }).putDone id
    ∃ dropped M' H', PutEffect w w' id dropped ∧ Filed w' held M' H' ∧ PutEnd w w' id M 0 M' ∧
      ∀ j ∈ M' ++ w'.buff.oooList, j = id ∨ (j ∈ M ++ w.buff.oooList ∧ j ∉ dropped) := by
  intro w'
  have buff : w'.buff =
      { w.buff with oooList := list, highQ := (w.putHigh id).buff.highQ } := by
    show (((w.putHigh id).setBuff _).putDone id).buff = _
    rw [putDone_buff]
    show ({ (w.putHigh id).buff with oooList := list } : RcvBuff) = _
    rw [flagged.buff]
  have self : w'.mbuf id = flagDone ((w.putHigh id).mbuf id) := putDone_self
  have flags : Reflagged (w.mbuf id) (w'.mbuf id) := by
    rw [self]
    exact flagDone_reflagged flagged.self
  have other : ∀ j, j ≠ id → w'.mbuf j = w.mbuf j := fun j ne =>
    (putDone_other ne).trans (flagged.other j ne)
  refine ⟨[], M, H', ⟨fun j ne _ => other j ne, flags, by rw [buff], ?_⟩, ?_, ?_, ?_⟩
  · exact putDone_freed.trans flagged.freed
  · refine good.insertOoo out notHeld perm buff rep (self ▸ mark) (fun pri => ?_) other
    rw [flags.segment.1]
    rw [flags.segment.2.2.2.1] at pri
    exact ⟨early, apart pri⟩
  · exact .aside (by rw [buff]) (by rw [self]; exact mark.state)
  · intro j inside
    rw [buff] at inside
    simp only [List.mem_append, perm.mem_iff, List.mem_cons] at inside ⊢
    tauto

/-- Lost in the swapped call; the buffer stays as it was. -/
theorem put_lost (good : Filed w held M H) (out : id ∉ M ++ w.buff.oooList)
    (notHeld : id ∉ held) (low : (w.mbuf id).priority = false) :
    let w' := ((w.putHigh id).fault (.swappedAddHead id)).putDone id
    ∃ dropped M' H', PutEffect w w' id dropped ∧ Filed w' held M' H' ∧ PutEnd w w' id M 0 M' ∧
      ∀ j ∈ M' ++ w'.buff.oooList, j = id ∨ (j ∈ M ++ w.buff.oooList ∧ j ∉ dropped) := by
  intro w'
  have memory : w.putHigh id = w.setMem (w.modify id fun m => { m with holding := false }) :=
    putHigh_refused (.inl low)
  have flagged : Flagged w (w.putHigh id) id := by
    rw [memory]
    exact modify_flagged w id w.buff.highQ ⟨_, _, rfl⟩
  have buff : w'.buff = w.buff := by
    refine putDone_buff.trans ?_
    show (w.putHigh id).buff = w.buff
    rw [memory]
    rfl
  have self : w'.mbuf id = flagDone ((w.putHigh id).mbuf id) := putDone_self
  have other : ∀ j, j ≠ id → w'.mbuf j = w.mbuf j := fun j ne =>
    (putDone_other ne).trans (flagged.other j ne)
  have stillLow : ((w.putHigh id).mbuf id).priority = false := by
    rw [flagged.self.segment.2.2.2.1, low]
  refine ⟨[], M, H, ⟨fun j ne _ => other j ne, ?_, by rw [buff],
    putDone_freed.trans flagged.freed⟩, ?_, .aside (by rw [buff]) ?_, ?_⟩
  · rw [self]
    exact flagDone_reflagged flagged.self
  · refine good.congr buff fun j inside => other j ?_
    rintro rfl
    rcases inside with inside | inside
    · exact out inside
    · exact notHeld inside
  · rw [self, flagDone, stillLow]
    rfl
  · intro j inside
    rw [buff] at inside
    exact .inr ⟨inside, by simp⟩

/-- The mbuf is out of order. -/
theorem put_outOfOrder (good : Filed w held M H) (out : id ∉ M ++ w.buff.oooList)
    (notHeld : id ∉ held) (state : (w.mbuf id).mbufState = .rcved)
    (window : tcpSeqGt (w.mbuf id).seqEnd (w.buff.headSeq + w.buff.size) = false)
    (early : (w.mbuf id).tcpSeq ≠ w.buff.mergedNext)
    (ok : (w.mbuf id).priority = true → OutOfOrderOk w id) :
    ∃ dropped M' H', PutEffect w (w.rbPut id).2 id dropped ∧
      Filed (w.rbPut id).2 held M' H' ∧ PutEnd w (w.rbPut id).2 id M (w.rbPut id).1 M' ∧
      ∀ j ∈ M' ++ (w.rbPut id).2.buff.oooList,
        j = id ∨ (j ∈ M ++ w.buff.oooList ∧ j ∉ dropped) := by
  -- the two tests of the code read the memory after the priority part
  have frame : Flagged w (w.putHigh id) id := by
    by_cases refused : (w.mbuf id).priority = false ∨ w.buff.highQ.cirqFull = true
    · rw [putHigh_refused refused]
      exact modify_flagged w id w.buff.highQ ⟨_, _, rfl⟩
    · simp only [not_or, Bool.not_eq_false, Bool.not_eq_true] at refused
      rw [putHigh_taken refused.1 good.high refused.2]
      exact modify_flagged w id _ ⟨_, _, rfl⟩
  have list : (w.putHigh id).buff.oooList = w.buff.oooList := by rw [frame.buff]
  have next : (w.putHigh id).buff.mergedNext = w.buff.mergedNext := by rw [frame.buff]
  have place : oooInsert (w.putHigh id).mbuf id (w.putHigh id).buff.oooList =
      oooInsert w.mbuf id w.buff.oooList := by
    rw [list]
    exact oooInsert_congr (fun j => (frame.seqs j).1) (fun j => (frame.seqs j).2) _
  rw [rbPut_outOfOrder window (by rw [(frame.seqs id).1, next]; exact early), place]
  cases result : oooInsert w.mbuf id w.buff.oooList with
  | inserted list' =>
      have room : (w.mbuf id).priority = true → w.buff.highQ.cirqFull = false ∧
          ∀ j ∈ w.buff.mergedQ.contents, (w.mbuf j).tcpSeq ≠ (w.mbuf id).tcpSeq := by
        intro pri
        have cond := ok pri
        rwa [OutOfOrderOk, result] at cond
      obtain ⟨flagged, H', rep, mark⟩ :=
        putHigh_marked good.high fun pri => (room pri).1
      exact put_listed good out notHeld early (oooInsert_perm result) flagged rep mark
        fun pri => by
          have apart := (room pri).2
          rwa [CircularQueue.contents_eq good.merged] at apart
  | swapped =>
      have low : (w.mbuf id).priority = false := by
        cases pri : (w.mbuf id).priority with
        | false => rfl
        | true =>
            have cond := ok pri
            rw [OutOfOrderOk, result] at cond
            exact cond.elim
      exact put_lost good out notHeld low
  | duplicate =>
      have refused : (w.mbuf id).priority = false ∨ w.buff.highQ.cirqFull = true := by
        cases pri : (w.mbuf id).priority with
        | false => exact .inl rfl
        | true =>
            have cond := ok pri
            rw [OutOfOrderOk, result] at cond
            exact .inr cond
      have memory := putHigh_refused refused
      refine put_refused good out notHeld state frame ?_ ?_
      · rw [memory]
        rfl
      · rw [memory]
        simp [setMem]

/-- **What `rb_put` does**, when the condition holds, to a filed buffer and a new mbuf. -/
theorem rbPut_filed (good : Filed w held M H) (out : id ∉ M ++ w.buff.oooList)
    (notHeld : id ∉ held) (state : (w.mbuf id).mbufState = .rcved)
    (len : 0 < (w.mbuf id).payloadLen ∧ (w.mbuf id).payloadLen < 2 ^ 16) (ok : PutOk w id) :
    ∃ dropped M' H', PutEffect w (w.rbPut id).2 id dropped ∧
      Filed (w.rbPut id).2 held M' H' ∧ PutEnd w (w.rbPut id).2 id M (w.rbPut id).1 M' ∧
      ∀ j ∈ M' ++ (w.rbPut id).2.buff.oooList,
        j = id ∨ (j ∈ M ++ w.buff.oooList ∧ j ∉ dropped) := by
  cases window : tcpSeqGt (w.mbuf id).seqEnd (w.buff.headSeq + w.buff.size) with
  | true =>
      rw [rbPut_window window]
      exact put_refused good out notHeld state
        ⟨rfl, fun _ _ => rfl, ⟨_, _, rfl⟩, rfl⟩ rfl rfl
  | false =>
      have cond := ok window
      by_cases inOrder : (w.mbuf id).tcpSeq = w.buff.mergedNext
      · rw [if_pos inOrder] at cond
        exact put_inOrder good out notHeld len window inOrder cond
      · rw [if_neg inOrder] at cond
        exact put_outOfOrder good out notHeld state window inOrder cond

end Put

end RcvMem

end QStack
