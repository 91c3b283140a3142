/-
# QStack.RecvGet -- what q_recv and q_free_mbuf do to a filed buffer

`rb_get` empties `high_q` first and then takes the front of `merged_q`, freeing
on its way the priority mbufs that were read from `high_q` before.  It frees them
whether or not the application has handed them back: `GetOk` asks that it has.
Under that condition `qRecv_filed` says that the mbuf it returns was buffered and
unread, and what has left the buffer.
-/
import QStack.RecvPut

namespace QStack

set_option autoImplicit false

namespace RcvMem

/-- The mbufs in front of the first unread one have been handed back. -/
def FrontUnheld (mbuf : MbufId → Mbuf) : List MbufId → Prop
  | [] => True
  | id :: rest =>
      (mbuf id).mbufState = .rbuffed ∨ ((mbuf id).holding = false ∧ FrontUnheld mbuf rest)

def GetOk (w : RcvMem) : Prop :=
  w.buff.highQ.cirqEmpty = true → FrontUnheld w.mbuf w.buff.mergedQ.contents

theorem FrontUnheld.congr {mbuf mbuf' : MbufId → Mbuf} : ∀ {ids : List MbufId},
    (∀ id ∈ ids, mbuf' id = mbuf id) → FrontUnheld mbuf ids → FrontUnheld mbuf' ids
  | [], _, _ => trivial
  | id :: rest, same, front => by
      rw [FrontUnheld, same id (by simp)]
      exact front.imp_right fun ⟨unheld, later⟩ =>
        ⟨unheld, later.congr fun j h => same j (by simp [h])⟩

/-- What a call of `q_recv` may change; `gone` are the mbufs it frees. -/
structure GetEffect (w w' : RcvMem) (ret : Option MbufId) (gone M H M' : List MbufId) : Prop where
  freed : w'.freed = gone.reverse ++ w.freed
  ooo : w'.buff.oooList = w.buff.oooList
  next : w'.buff.mergedNext = w.buff.mergedNext
  other : ∀ j, j ∉ gone → some j ≠ ret → w'.mbuf j = w.mbuf j
  goneRead : ∀ j ∈ gone, (w.mbuf j).mbufState ≠ .rbuffed
  merged : (ret = none ∧ M = gone ∧ M' = []) ∨
    (∃ id, ret = some id ∧ id ∈ H ∧ gone = [] ∧ M' = M) ∨
    ∃ id, ret = some id ∧ M = gone ++ id :: M'
  read : ∀ id, ret = some id → id ∈ M ++ w.buff.oooList ∧ id ∉ gone ∧
    (w.mbuf id).mbufState = .rbuffed ∧ (w'.mbuf id).mbufState = .rread ∧
    Reflagged (w.mbuf id) (w'.mbuf id)

theorem GetEffect.congr {w v v' : RcvMem} {ret : Option MbufId} {gone M H M' : List MbufId}
    (effect : GetEffect w v ret gone M H M') (buff : v'.buff = v.buff)
    (mem : v'.toMbufMem = v.toMbufMem) : GetEffect w v' ret gone M H M' := by
  refine ⟨?_, ?_, ?_, ?_, effect.goneRead, effect.merged, ?_⟩
  · rw [mem]; exact effect.freed
  · rw [buff]; exact effect.ooo
  · rw [buff]; exact effect.next
  · rw [mem]; exact effect.other
  · rw [mem]; exact effect.read

/-- `q_recv` marks the mbuf it got. -/
def markRead (w : RcvMem) (id : MbufId) : RcvMem :=
  w.setMem (w.modify id fun m => { m with mbufState := .rread })

@[simp] theorem markRead_buff (w : RcvMem) (id : MbufId) : (w.markRead id).buff = w.buff := rfl

@[simp] theorem markRead_freed (w : RcvMem) (id : MbufId) : (w.markRead id).freed = w.freed := rfl

@[simp] theorem markRead_self (w : RcvMem) (id : MbufId) :
    (w.markRead id).mbuf id = { w.mbuf id with mbufState := .rread } := by
  simp [markRead, setMem]

theorem markRead_other (w : RcvMem) {id j : MbufId} (ne : j ≠ id) :
    (w.markRead id).mbuf j = w.mbuf j := by
  simp [markRead, setMem, MbufMem.modify_of_ne _ _ ne]

@[simp] theorem checkPayload_buff (w : RcvMem) (id : MbufId) :
    (w.checkPayload id).buff = w.buff := by
  rw [checkPayload]; split <;> rfl

@[simp] theorem checkPayload_mem (w : RcvMem) (id : MbufId) :
    (w.checkPayload id).toMbufMem = w.toMbufMem := by
  rw [checkPayload]; split <;> rfl

section Get

variable {w : RcvMem} {held M H : List MbufId} {id : MbufId}

/-! ## high_q -/

theorem tryGetHigh_nil (rep : w.buff.highQ.Represents []) : w.tryGetHighMbuf = (none, w) := by
  simp only [tryGetHighMbuf, staticBuffSize, tryGetHigh, CircularQueue.dirCirqGet_nil rep]
  rfl

/-- An unread priority mbuf that starts at `head_seq` is the front of `merged_q`. -/
theorem high_is_front (good : Filed w held M (id :: H))
    (seq : (w.mbuf id).tcpSeq = w.buff.headSeq) : ∃ M', M = id :: M' := by
  obtain ⟨place, -⟩ := good.unread id (by simp)
  cases M with
  | nil =>
      have listed : id ∈ w.buff.oooList := by simpa using place
      have empty : w.buff.headSeq = w.buff.mergedNext := good.chain
      exact absurd (seq.trans empty) (good.apart id (by simp) listed).1
  | cons first rest =>
      have front : (w.mbuf first).tcpSeq = w.buff.headSeq := good.chain.1
      by_cases same : id = first
      · exact ⟨rest, by rw [same]⟩
      · rcases List.mem_append.mp place with inM | listed
        · have later : id ∈ rest := by simpa [same] using inM
          exact absurd seq (good.chain.later_ne (good.lens first (by simp)).1
            (lt_trans good.small (by decide)) id later)
        · exact absurd (front.trans seq.symm)
            ((good.apart id (by simp) listed).2 first (by simp))

theorem getHigh_filed (good : Filed w held M (id :: H)) :
    ∃ w' M', w.tryGetHighMbuf = (some id, w') ∧ Filed (w'.markRead id) (id :: held) M' H ∧
      GetEffect w (w'.markRead id) (some id) [] M (id :: H) M' := by
  obtain ⟨place, state, -, -⟩ := good.unread id (by simp)
  obtain ⟨first, rest⟩ := CircularQueue.dirCirqGet_cons good.high
  have notHeld : id ∉ held := fun h => by simp [(good.inHand id h).1] at state
  let v := w.setBuff { w.buff with highQ := w.buff.highQ.dirCirqGet.2 }
  by_cases seq : (w.mbuf id).tcpSeq = w.buff.headSeq
  · obtain ⟨M', rfl⟩ := high_is_front good seq
    obtain ⟨front, later⟩ := CircularQueue.dirCirqGet_cons good.merged
    let w' := (v.setBuff { v.buff with
      mergedQ := w.buff.mergedQ.dirCirqGet.2
      headSeq := w.buff.headSeq + (w.mbuf id).len }).setMem
        (w.modify id fun m => { m with holding := false })
    have result : w.tryGetHighMbuf = (some id, w') := by
      rw [tryGetHighMbuf, staticBuffSize, tryGetHigh,
        show w.buff.highQ.dirCirqGet = (some id, w.buff.highQ.dirCirqGet.2) from
          Prod.ext first rfl]
      show (if (w.mbuf id).mbufState = .rbuffed then _ else _) = _
      rw [if_pos state]
      show (if (w.mbuf id).tcpSeq = w.buff.headSeq then _ else _) = _
      rw [if_pos seq]
      have popped : (w.setBuff { w.buff with
          highQ := w.buff.highQ.dirCirqGet.2 }).buff.mergedQ.dirCirqGet =
            (some id, w.buff.mergedQ.dirCirqGet.2) := Prod.ext front rfl
      rw [popped]
      rfl
    have other : ∀ j, j ≠ id → (w'.markRead id).mbuf j = w.mbuf j := fun j ne =>
      (markRead_other w' ne).trans (by simp [w', MbufMem.modify_of_ne _ _ ne])
    have self : (w'.markRead id).mbuf id =
        { w.mbuf id with holding := false, mbufState := .rread } := by
      rw [markRead_self]
      simp [w', setMem]
    refine ⟨w', M', result, ?_, ?_⟩
    · exact good.takeMerged rfl later rest (.inr rfl) notHeld
        (.inr ⟨rfl, by rw [self], by rw [self]⟩) other
    · refine ⟨rfl, rfl, rfl, fun j _ ne => other j fun e => ne (by rw [e]), by simp,
        .inr (.inr ⟨id, rfl, rfl⟩), ?_⟩
      rintro _ ⟨rfl⟩
      exact ⟨place, by simp, state, by rw [self], ⟨_, _, self⟩⟩
  · have result : w.tryGetHighMbuf = (some id, v) := by
      rw [tryGetHighMbuf, staticBuffSize, tryGetHigh,
        show w.buff.highQ.dirCirqGet = (some id, w.buff.highQ.dirCirqGet.2) from
          Prod.ext first rfl]
      show (if (w.mbuf id).mbufState = .rbuffed then _ else _) = _
      rw [if_pos state]
      show (if (w.mbuf id).tcpSeq = w.buff.headSeq then _ else _) = _
      rw [if_neg seq]
    have other : ∀ j, j ≠ id → (v.markRead id).mbuf j = w.mbuf j := fun j ne =>
      markRead_other v ne
    have self : (v.markRead id).mbuf id = { w.mbuf id with mbufState := .rread } :=
      markRead_self v id
    refine ⟨v, M, result, good.readHigh rfl rest self other, ?_⟩
    refine ⟨rfl, rfl, rfl, fun j _ ne => other j fun e => ne (by rw [e]), by simp,
      .inr (.inl ⟨id, rfl, by simp, rfl, rfl⟩), ?_⟩
    rintro _ ⟨rfl⟩
    exact ⟨place, by simp, state, by rw [self], ⟨_, _, self⟩⟩

/-! ## merged_q -/

theorem tryGetMerged_nil (rep : w.buff.mergedQ.Represents []) (rounds : Nat) :
    tryGetMerged rounds w = (none, w) := by
  cases rounds with
  | zero => rfl
  | succ rounds =>
      rw [tryGetMerged, CircularQueue.dirCirqGet_nil rep]
      rfl

/-- The state after the front of `merged_q` has been taken out. -/
def popMerged (w : RcvMem) (id : MbufId) : RcvMem :=
  w.setBuff { w.buff with
    mergedQ := w.buff.mergedQ.dirCirqGet.2
    headSeq := w.buff.headSeq + (w.mbuf id).len }

theorem tryGetMerged_cons (rep : w.buff.mergedQ.Represents (id :: M)) (rounds : Nat) :
    tryGetMerged (rounds + 1) w =
      if (w.mbuf id).mbufState = .rbuffed then (some id, w.popMerged id)
      else tryGetMerged rounds ((w.popMerged id).setMem (w.mbufFree id)) := by
  rw [tryGetMerged,
    show w.buff.mergedQ.dirCirqGet = (some id, w.buff.mergedQ.dirCirqGet.2) from
      Prod.ext (CircularQueue.dirCirqGet_cons rep).1 rfl]
  rfl

/-- The loop of `try_get_merged_mbuf` frees read mbufs until it finds an unread one. -/
theorem getMerged_filed : ∀ {M : List MbufId} {w : RcvMem} {rounds : Nat}, M.length < rounds →
    Filed w held M [] → FrontUnheld w.mbuf M →
    (∃ w' gone, tryGetMerged rounds w = (none, w') ∧ Filed w' held [] [] ∧
      GetEffect w w' none gone M [] []) ∨
    ∃ id w' gone M', tryGetMerged rounds w = (some id, w') ∧
      Filed (w'.markRead id) (id :: held) M' [] ∧
      GetEffect w (w'.markRead id) (some id) gone M [] M'
  | [], w, rounds, _, good, _ => by
      refine .inl ⟨w, [], tryGetMerged_nil good.merged rounds, good, ?_⟩
      exact ⟨rfl, rfl, rfl, fun _ _ _ => rfl, by simp, .inl ⟨rfl, rfl, rfl⟩, by simp⟩
  | id :: M, w, rounds + 1, enough, good, front => by
      rw [tryGetMerged_cons good.merged]
      have later := (CircularQueue.dirCirqGet_cons good.merged).2
      by_cases state : (w.mbuf id).mbufState = .rbuffed
      · -- unread: without priority, since high_q is empty
        rw [if_pos state]
        have notHeld : id ∉ held := fun h => by simp [(good.inHand id h).1] at state
        have unheld : (w.mbuf id).holding = false := by
          rcases good.filed id (by simp) with ⟨-, pri, low⟩ | ⟨read, -⟩
          · exact low (by
              cases p : (w.mbuf id).priority with
              | false => rfl
              | true => exact absurd (pri p) (by simp))
          · simp [read] at state
        have other : ∀ j, j ≠ id → ((w.popMerged id).markRead id).mbuf j = w.mbuf j :=
          fun j ne => markRead_other _ ne
        have self : ((w.popMerged id).markRead id).mbuf id =
            { w.mbuf id with mbufState := .rread } := markRead_self _ id
        refine .inr ⟨id, w.popMerged id, [], M, rfl, ?_, ?_⟩
        · exact good.takeMerged rfl later good.high (.inl ⟨rfl, by simp⟩) notHeld
            (.inr ⟨rfl, by rw [self], by rw [self, ← unheld]⟩) other
        · refine ⟨rfl, rfl, rfl, fun j _ ne => other j fun e => ne (by rw [e]), by simp,
            .inr (.inr ⟨id, rfl, rfl⟩), ?_⟩
          rintro _ ⟨rfl⟩
          exact ⟨by simp, by simp, state, by rw [self], ⟨_, _, self⟩⟩
      · -- read before: freed, and the loop goes on
        rw [if_neg state]
        obtain ⟨unheld, rest⟩ : (w.mbuf id).holding = false ∧ FrontUnheld w.mbuf M := by
          rcases front with buffered | front
          · exact absurd buffered state
          · exact front
        have notHeld : id ∉ held := fun h => by
          have holding := (good.inHand id h).2.mpr (by simp)
          simp [unheld] at holding
        let v := (w.popMerged id).setMem (w.mbufFree id)
        have other : ∀ j, j ≠ id → v.mbuf j = w.mbuf j := fun j ne => by
          simp [v, popMerged, MbufMem.modify_of_ne _ _ ne]
        have nodup := good.nodup
        rw [List.cons_append, List.nodup_cons] at nodup
        have notM : ∀ j ∈ M, j ≠ id := fun j h e => nodup.1 (by simp [← e, h])
        have good' : Filed v held M [] :=
          good.takeMerged rfl later good.high (.inl ⟨rfl, by simp⟩) notHeld (.inl rfl) other
        have front' : FrontUnheld v.mbuf M := rest.congr fun j h => other j (notM j h)
        have goneRead : ∀ gone, (∀ j ∈ gone, (v.mbuf j).mbufState ≠ .rbuffed) →
            ∀ j ∈ id :: gone, (w.mbuf j).mbufState ≠ .rbuffed := by
          intro gone read j h
          by_cases e : j = id
          · rw [e]
            exact state
          · rw [← other j e]
            exact read j (by simpa [e] using h)
        rcases getMerged_filed (Nat.lt_of_succ_lt_succ enough) good' front' with
          ⟨w', gone, result, filed, effect⟩ | ⟨next, w', gone, M', result, filed, effect⟩
        · refine .inl ⟨w', id :: gone, result, filed, ⟨?_, effect.ooo, effect.next, ?_,
            goneRead gone effect.goneRead, ?_, by simp⟩⟩
          · rw [effect.freed]
            simp [v, setMem]
          · intro j h ne
            simp only [List.mem_cons, not_or] at h
            rw [effect.other j h.2 ne, other j h.1]
          · rcases effect.merged with ⟨-, rfl, -⟩ | ⟨_, none, _⟩ | ⟨_, none, _⟩
            · exact .inl ⟨rfl, rfl, rfl⟩
            · cases none
            · cases none
        · obtain ⟨inside, notGone, buffered, read, flags⟩ := effect.read next rfl
          have ne : next ≠ id := by
            rintro rfl
            exact nodup.1 inside
          rw [other next ne] at buffered flags
          refine .inr ⟨next, w', id :: gone, M', result, filed, ⟨?_, effect.ooo, effect.next, ?_,
            goneRead gone effect.goneRead, ?_, ?_⟩⟩
          · rw [effect.freed]
            simp [v, setMem]
          · intro j h ne
            simp only [List.mem_cons, not_or] at h
            rw [effect.other j h.2 ne, other j h.1]
          · rcases effect.merged with ⟨none, -⟩ | ⟨_, _, inH, _⟩ | ⟨_, some, rfl⟩
            · cases none
            · simp at inH
            · exact .inr (.inr ⟨_, some, rfl⟩)
          · rintro _ ⟨rfl⟩
            refine ⟨?_, by simp [ne, notGone], buffered, read, flags⟩
            rw [List.cons_append, List.mem_cons]
            exact .inr inside

/-- The marking of `q_recv` and the check of `rb_get` commute. -/
theorem checkPayload_markRead (w : RcvMem) (id : MbufId) :
    ((w.checkPayload id).markRead id).buff = (w.markRead id).buff ∧
      ((w.checkPayload id).markRead id).toMbufMem = (w.markRead id).toMbufMem := by
  rw [checkPayload]
  split <;> exact ⟨rfl, rfl⟩

/-- **What `q_recv` does**, when the condition holds, to a filed buffer. -/
theorem qRecv_filed (good : Filed w held M H) (ok : GetOk w) :
    ∃ gone M' H', GetEffect w w.qRecv.2 w.qRecv.1 gone M H M' ∧
      Filed w.qRecv.2 (w.qRecv.1.toList ++ held) M' H' := by
  cases H with
  | cons id H =>
      obtain ⟨w', M', result, filed, effect⟩ := getHigh_filed good
      have got : w.qRecv = (some id, (w'.checkPayload id).markRead id) := by
        simp only [qRecv, rbGet, result, markRead]
      obtain ⟨buff, mem⟩ := checkPayload_markRead w' id
      rw [got]
      exact ⟨[], M', H, effect.congr buff mem, filed.congr buff fun j _ => by rw [mem]⟩
  | nil =>
      have empty : w.buff.highQ.cirqEmpty = true := (CircularQueue.cirqEmpty_iff good.high).mpr rfl
      have front : FrontUnheld w.mbuf M := by
        have cond := ok empty
        rwa [CircularQueue.contents_eq good.merged] at cond
      rcases getMerged_filed good.merged.room good front with
        ⟨w', gone, result, filed, effect⟩ | ⟨id, w', gone, M', result, filed, effect⟩
      · have got : w.qRecv = (none, w') := by
          simp only [qRecv, rbGet, tryGetHigh_nil good.high, tryGetMergedMbuf, result]
        rw [got]
        exact ⟨gone, [], [], effect, filed⟩
      · have got : w.qRecv = (some id, (w'.checkPayload id).markRead id) := by
          simp only [qRecv, rbGet, tryGetHigh_nil good.high, tryGetMergedMbuf, result, markRead]
        obtain ⟨buff, mem⟩ := checkPayload_markRead w' id
        rw [got]
        exact ⟨gone, M', [], effect.congr buff mem, filed.congr buff fun j _ => by rw [mem]⟩

/-- **What `q_free_mbuf` does** to an mbuf the application holds. -/
theorem qFreeMbuf_filed (good : Filed w held M H) (inHeld : id ∈ held) :
    Filed (w.qFreeMbuf id) (held.erase id) M H ∧
      (w.qFreeMbuf id).buff = w.buff ∧ (∀ j, j ≠ id → (w.qFreeMbuf id).mbuf j = w.mbuf j) ∧
      ((w.qFreeMbuf id).mbuf id).mbufState ≠ .rbuffed ∧
      ((w.qFreeMbuf id).freed = w.freed ∨ (w.qFreeMbuf id).freed = id :: w.freed) := by
  obtain ⟨state, holding⟩ := good.inHand id inHeld
  cases last : (w.mbuf id).priority && (w.mbuf id).holding with
  | true =>
      have result : w.qFreeMbuf id =
          w.setMem (w.modify id fun m => { m with holding := false }) := by
        simp [qFreeMbuf, last]
      have other : ∀ j, j ≠ id → (w.qFreeMbuf id).mbuf j = w.mbuf j := fun j ne => by
        simp [result, MbufMem.modify_of_ne _ _ ne]
      have self : (w.qFreeMbuf id).mbuf id = { w.mbuf id with holding := false } := by
        simp [result]
      refine ⟨good.release inHeld (by rw [result]; rfl) (fun _ => self) other,
        by rw [result]; rfl, other, by simp [self, state], .inl (by rw [result]; rfl)⟩
  | false =>
      have result : w.qFreeMbuf id = w.setMem (w.mbufFree id) := by simp [qFreeMbuf, last]
      have other : ∀ j, j ≠ id → (w.qFreeMbuf id).mbuf j = w.mbuf j := fun j ne => by
        simp [result, MbufMem.modify_of_ne _ _ ne]
      have out : id ∉ M ++ w.buff.oooList := fun inside => by
        rcases good.filed id inside with ⟨buffered, -⟩ | ⟨-, pri, -⟩
        · simp [buffered] at state
        · simp [pri, holding.mpr inside] at last
      refine ⟨good.release inHeld (by rw [result]; rfl) (fun inside => absurd inside out) other,
        by rw [result]; rfl, other, ?_, .inr (by rw [result]; rfl)⟩
      rw [result]
      simp [setMem]

end Get

end RcvMem

end QStack
