/-
# QStack.RecvFiled -- where every mbuf of a receive buffer is

`Filed w held M H` describes a receive buffer whose rings hold the lists `M`
(`merged_q`) and `H` (`high_q`) while the application holds `held`: an mbuf is at
most once in `merged_q` or `ooo_list`, the mbufs of `merged_q` are consecutive
from `head_seq` to `merged_next`, a priority mbuf is in `high_q` exactly until it
is read, and `holding` marks the mbufs that the buffer still points to after the
application has read them.

The lemmas say what filing one more mbuf, taking one out and freeing one do to
that picture.  They speak of the memory after the operation, not of the
operation; `QStack.RecvPut` and `QStack.RecvGet` connect them to the code.
-/
import QStack.RecvRun

namespace QStack

set_option autoImplicit false

structure Filed (w : RcvMem) (held M H : List MbufId) : Prop where
  merged : w.buff.mergedQ.Represents M
  high : w.buff.highQ.Represents H
  nodup : (M ++ w.buff.oooList).Nodup
  highNodup : H.Nodup
  chain : Chain w.mbuf w.buff.headSeq M w.buff.mergedNext
  lens : ∀ id ∈ M, 0 < (w.mbuf id).payloadLen ∧ (w.mbuf id).payloadLen < 2 ^ 16
  fits : totalLen w.mbuf M ≤ w.buff.size.toNat
  /-- an unread priority mbuf out of order starts where no merged data does -/
  apart : ∀ id ∈ H, id ∈ w.buff.oooList →
    (w.mbuf id).tcpSeq ≠ w.buff.mergedNext ∧ ∀ j ∈ M, (w.mbuf j).tcpSeq ≠ (w.mbuf id).tcpSeq
  unread : ∀ id ∈ H, id ∈ M ++ w.buff.oooList ∧ (w.mbuf id).mbufState = .rbuffed ∧
    (w.mbuf id).priority = true ∧ (w.mbuf id).holding = true
  filed : ∀ id ∈ M ++ w.buff.oooList,
    ((w.mbuf id).mbufState = .rbuffed ∧ ((w.mbuf id).priority = true → id ∈ H) ∧
      ((w.mbuf id).priority = false → (w.mbuf id).holding = false)) ∨
    ((w.mbuf id).mbufState = .rread ∧ (w.mbuf id).priority = true ∧
      ((w.mbuf id).holding = true → id ∈ held))
  inHand : ∀ id ∈ held, (w.mbuf id).mbufState = .rread ∧
    ((w.mbuf id).holding = true ↔ id ∈ M ++ w.buff.oooList)
  heldNodup : held.Nodup

namespace Filed

variable {w w' : RcvMem} {held M H : List MbufId} {id : MbufId}

theorem start (rcvbufSize : Nat) (initSeq : Seq) (mbuf : MbufId → Mbuf) :
    Filed (RcvRun.start rcvbufSize initSeq mbuf).w [] [] [] where
  merged := CircularQueue.dirCirqInit_represents _
  high := CircularQueue.dirCirqInit_represents _
  nodup := List.nodup_nil
  highNodup := List.nodup_nil
  chain := rfl
  lens := by simp
  fits := by simp
  apart := by simp
  unread := by simp
  filed := by simp [RcvRun.start, RcvBuff.rbInit]
  inHand := by simp
  heldNodup := List.nodup_nil

/-- The picture depends only on the buffer and on the mbufs in it or in hand. -/
theorem congr (good : Filed w held M H) (buff : w'.buff = w.buff)
    (same : ∀ id, id ∈ M ++ w.buff.oooList ∨ id ∈ held → w'.mbuf id = w.mbuf id) :
    Filed w' held M H := by
  have inside : ∀ id ∈ M ++ w.buff.oooList, w'.mbuf id = w.mbuf id := fun id h => same id (.inl h)
  have inM : ∀ id ∈ M, w'.mbuf id = w.mbuf id := fun id h => inside id (by simp [h])
  have inH : ∀ id ∈ H, w'.mbuf id = w.mbuf id := fun id h => inside id (good.unread id h).1
  refine ⟨?_, ?_, ?_, good.highNodup, ?_, ?_, ?_, ?_, ?_, ?_, ?_, good.heldNodup⟩
  · rw [buff]; exact good.merged
  · rw [buff]; exact good.high
  · rw [buff]; exact good.nodup
  · rw [buff]
    exact good.chain.congr fun id h => by rw [inM id h]; exact ⟨rfl, rfl⟩
  · intro id h
    rw [inM id h]
    exact good.lens id h
  · rw [buff, totalLen_congr fun id h => by rw [inM id h]]
    exact good.fits
  · intro id h listed
    rw [buff] at listed ⊢
    rw [inH id h]
    obtain ⟨next, others⟩ := good.apart id h listed
    exact ⟨next, fun j hj => by rw [inM j hj]; exact others j hj⟩
  · intro id h
    rw [buff, inH id h]
    exact good.unread id h
  · intro id h
    rw [buff] at h
    rw [inside id h]
    exact good.filed id h
  · intro id h
    rw [buff, same id (.inr h)]
    exact good.inHand id h

/-- A free mbuf is nowhere. -/
theorem fresh (good : Filed w held M H) (free : (w.mbuf id).mbufState = .free) :
    id ∉ M ++ w.buff.oooList ∧ id ∉ H ∧ id ∉ held := by
  have out : id ∉ M ++ w.buff.oooList := by
    intro inside
    rcases good.filed id inside with ⟨state, _⟩ | ⟨state, _⟩ <;> simp [state] at free
  refine ⟨out, fun inH => out (good.unread id inH).1, fun inHeld => ?_⟩
  simp [(good.inHand id inHeld).1] at free

theorem small (good : Filed w held M H) : totalLen w.mbuf M < 2 ^ 20 := by
  have bound := totalLen_le fun id h => (good.lens id h).2
  have room : M.length < 8 := good.merged.room
  omega

/-! ## Filing an mbuf -/

/-- How `high_q` changes with a new mbuf: a priority mbuf is appended. -/
structure Marked (m : Mbuf) (H H' : List MbufId) (id : MbufId) : Prop where
  state : m.mbufState = .rbuffed
  holding : m.holding = m.priority
  high : H' = if m.priority then H ++ [id] else H

theorem Marked.mem {m : Mbuf} {H' : List MbufId} (mark : Marked m H H' id) {j : MbufId} :
    j ∈ H' ↔ j ∈ H ∨ (j = id ∧ m.priority = true) := by
  rw [mark.high]
  cases m.priority <;> simp

theorem Marked.nodup {m : Mbuf} {H' : List MbufId} (mark : Marked m H H' id)
    (nodup : H.Nodup) (out : id ∉ H) : H'.Nodup := by
  rw [mark.high]
  split
  · exact List.nodup_append.mpr ⟨nodup, by simp, by
      intro a ha b hb
      rw [List.mem_singleton] at hb
      subst hb
      exact fun same => out (same ▸ ha)⟩
  · exact nodup

/-- An mbuf filed out of order. -/
theorem insertOoo {H' list : List MbufId} {highQ : CircularQueue MbufId}
    (good : Filed w held M H) (out : id ∉ M ++ w.buff.oooList) (notHeld : id ∉ held)
    (perm : list.Perm (id :: w.buff.oooList))
    (buff : w'.buff = { w.buff with oooList := list, highQ := highQ })
    (rep : highQ.Represents H') (mark : Marked (w'.mbuf id) H H' id)
    (apart : (w'.mbuf id).priority = true → (w'.mbuf id).tcpSeq ≠ w.buff.mergedNext ∧
      ∀ j ∈ M, (w.mbuf j).tcpSeq ≠ (w'.mbuf id).tcpSeq)
    (same : ∀ j, j ≠ id → w'.mbuf j = w.mbuf j) :
    Filed w' held M H' := by
  have notM : id ∉ M := fun h => out (by simp [h])
  have notH : id ∉ H := fun h => out (good.unread id h).1
  have inM : ∀ j ∈ M, w'.mbuf j = w.mbuf j := fun j h => same j fun e => notM (e ▸ h)
  have mem : ∀ j, j ∈ M ++ list ↔ j ∈ M ++ w.buff.oooList ∨ j = id := by
    intro j
    simp only [List.mem_append, perm.mem_iff, List.mem_cons]
    tauto
  have old : ∀ j ∈ M ++ w.buff.oooList, j ≠ id := fun j h e => out (e ▸ h)
  refine ⟨?_, ?_, ?_, mark.nodup good.highNodup notH, ?_, ?_, ?_, ?_, ?_, ?_, ?_, good.heldNodup⟩
  · rw [buff]; exact good.merged
  · rw [buff]; exact rep
  · rw [buff]
    have moved : (M ++ list).Perm (id :: (M ++ w.buff.oooList)) :=
      (perm.append_left M).trans List.perm_middle
    exact moved.nodup_iff.mpr (List.nodup_cons.mpr ⟨out, good.nodup⟩)
  · rw [buff]
    exact good.chain.congr fun j h => by rw [inM j h]; exact ⟨rfl, rfl⟩
  · intro j h
    rw [inM j h]
    exact good.lens j h
  · rw [buff, totalLen_congr fun j h => by rw [inM j h]]
    exact good.fits
  · intro j h listed
    rw [buff] at listed ⊢
    rcases mark.mem.mp h with older | ⟨rfl, priority⟩
    · have ne : j ≠ id := fun e => notH (e ▸ older)
      have listedBefore : j ∈ w.buff.oooList := by
        simpa [ne] using perm.mem_iff.mp listed
      rw [same j ne]
      obtain ⟨next, others⟩ := good.apart j older listedBefore
      exact ⟨next, fun i hi => by rw [inM i hi]; exact others i hi⟩
    · obtain ⟨next, others⟩ := apart priority
      exact ⟨next, fun i hi => by rw [inM i hi]; exact others i hi⟩
  · intro j h
    rw [buff, mem]
    rcases mark.mem.mp h with older | ⟨rfl, priority⟩
    · have place := good.unread j older
      rw [same j (old j place.1)]
      exact ⟨.inl place.1, place.2⟩
    · exact ⟨.inr rfl, mark.state, priority, by rw [mark.holding, priority]⟩
  · intro j h
    rw [buff, mem] at h
    rcases h with older | rfl
    · rw [same j (old j older)]
      rcases good.filed j older with ⟨state, high, low⟩ | read
      · exact .inl ⟨state, fun p => mark.mem.mpr (.inl (high p)), low⟩
      · exact .inr read
    · exact .inl ⟨mark.state, fun p => mark.mem.mpr (.inr ⟨rfl, p⟩),
        fun low => by rw [mark.holding, low]⟩
  · intro j h
    have ne : j ≠ id := fun e => notHeld (e ▸ h)
    rw [buff, same j ne]
    obtain ⟨state, holding⟩ := good.inHand j h
    refine ⟨state, holding.trans ?_⟩
    rw [mem]
    simp [ne]

/-- An mbuf filed in order, while a part of `ooo_list` that nobody reads any more
is dropped. -/
theorem appendMerged {H' dropped list : List MbufId} {mergedQ highQ : CircularQueue MbufId}
    (good : Filed w held M H) (out : id ∉ M ++ w.buff.oooList) (notHeld : id ∉ held)
    (split : w.buff.oooList = dropped ++ list)
    (unheld : ∀ j ∈ dropped, (w.mbuf j).holding = false)
    (beyond : ∀ j ∈ w.buff.oooList, (w.mbuf j).tcpSeq ≠ (w'.mbuf id).seqEnd)
    (buff : w'.buff = { w.buff with
      mergedQ := mergedQ, mergedNext := (w'.mbuf id).seqEnd, oooList := list, highQ := highQ })
    (repM : mergedQ.Represents (M ++ [id])) (repH : highQ.Represents H')
    (mark : Marked (w'.mbuf id) H H' id)
    (inOrder : (w'.mbuf id).tcpSeq = w.buff.mergedNext)
    (len : 0 < (w'.mbuf id).payloadLen ∧ (w'.mbuf id).payloadLen < 2 ^ 16)
    (window : tcpSeqGt (w'.mbuf id).seqEnd (w.buff.headSeq + w.buff.size) = false)
    (same : ∀ j, j ≠ id → j ∉ dropped → w'.mbuf j = w.mbuf j) :
    Filed w' held (M ++ [id]) H' := by
  have notM : id ∉ M := fun h => out (by simp [h])
  have notH : id ∉ H := fun h => out (good.unread id h).1
  have nodup := good.nodup
  rw [split] at nodup
  have parts := List.nodup_append.mp nodup
  have parts' := List.nodup_append.mp parts.2.1
  have mDropped : ∀ j ∈ M, j ∉ dropped := fun j hj hd =>
    parts.2.2 j hj j (by simp [hd]) rfl
  have lDropped : ∀ j ∈ list, j ∉ dropped := fun j hj hd => parts'.2.2 j hd j hj rfl
  have hDropped : ∀ j ∈ H, j ∉ dropped := fun j hj hd => by
    have holding := (good.unread j hj).2.2.2
    simp [unheld j hd] at holding
  have heldDropped : ∀ j ∈ held, j ∉ dropped := fun j hj hd => by
    have holding := (good.inHand j hj).2.mpr (by simp [split, hd])
    simp [unheld j hd] at holding
  have inM : ∀ j ∈ M, w'.mbuf j = w.mbuf j := fun j h =>
    same j (fun e => notM (e ▸ h)) (mDropped j h)
  have kept : ∀ j, j ∈ M ++ list → j ∈ M ++ w.buff.oooList := by
    intro j
    simp only [split, List.mem_append]
    tauto
  have lost : ∀ j, j ∈ M ++ w.buff.oooList → j ∉ dropped → j ∈ M ++ list := by
    intro j
    simp only [split, List.mem_append]
    tauto
  have mem : ∀ j, j ∈ M ++ [id] ++ list ↔ j ∈ M ++ list ∨ j = id := by
    intro j
    simp only [List.mem_append, List.mem_singleton]
    tauto
  have old : ∀ j ∈ M ++ list, j ≠ id ∧ j ∉ dropped := by
    intro j h
    refine ⟨fun e => out (e ▸ kept j h), ?_⟩
    rcases List.mem_append.mp h with h | h
    · exact mDropped j h
    · exact lDropped j h
  have chain : Chain w'.mbuf w.buff.headSeq M w.buff.mergedNext :=
    good.chain.congr fun j h => by rw [inM j h]; exact ⟨rfl, rfl⟩
  refine ⟨?_, ?_, ?_, mark.nodup good.highNodup notH, ?_, ?_, ?_, ?_, ?_, ?_, ?_, good.heldNodup⟩
  · rw [buff]; exact repM
  · rw [buff]; exact repH
  · rw [buff]
    have moved : (M ++ [id] ++ list).Perm (id :: (M ++ list)) := by
      rw [List.append_assoc]
      exact List.perm_middle
    refine moved.nodup_iff.mpr (List.nodup_cons.mpr ⟨fun h => out (kept id h), ?_⟩)
    exact nodup.sublist (List.Sublist.append_left (List.sublist_append_right dropped list) M)
  · rw [buff]
    exact chain.snoc inOrder
  · intro j h
    rcases List.mem_append.mp h with h | h
    · rw [inM j h]
      exact good.lens j h
    · rw [List.mem_singleton.mp h]
      exact len
  · rw [buff]
    have small := good.small
    rw [← totalLen_congr fun j h => congrArg Mbuf.payloadLen (inM j h)] at small
    rw [(chain.snoc inOrder).stop_eq] at window
    refine Lib.Serial.le_of_not_gt _ _ ?_ window
    rw [totalLen_append, totalLen_cons, totalLen_nil]
    omega
  · intro j h listed
    rw [buff] at listed ⊢
    rcases mark.mem.mp h with older | ⟨rfl, _⟩
    · have place := old j (by simp [listed])
      rw [same j place.1 place.2]
      have before : j ∈ w.buff.oooList := by simp [split, listed]
      obtain ⟨next, others⟩ := good.apart j older before
      refine ⟨beyond j before, fun i hi => ?_⟩
      rcases List.mem_append.mp hi with hi | hi
      · rw [inM i hi]
        exact others i hi
      · rw [List.mem_singleton.mp hi, inOrder]
        exact next.symm
    · exact absurd (kept j (by simp [listed])) out
  · intro j h
    rw [buff, mem]
    rcases mark.mem.mp h with older | ⟨rfl, priority⟩
    · have place := good.unread j older
      have still := lost j place.1 (hDropped j older)
      rw [same j (old j still).1 (old j still).2]
      exact ⟨.inl still, place.2⟩
    · exact ⟨.inr rfl, mark.state, priority, by rw [mark.holding, priority]⟩
  · intro j h
    rw [buff, mem] at h
    rcases h with older | rfl
    · rw [same j (old j older).1 (old j older).2]
      rcases good.filed j (kept j older) with ⟨state, high, low⟩ | read
      · exact .inl ⟨state, fun p => mark.mem.mpr (.inl (high p)), low⟩
      · exact .inr read
    · exact .inl ⟨mark.state, fun p => mark.mem.mpr (.inr ⟨rfl, p⟩),
        fun low => by rw [mark.holding, low]⟩
  · intro j h
    have ne : j ≠ id := fun e => notHeld (e ▸ h)
    rw [buff, same j ne (heldDropped j h)]
    obtain ⟨state, holding⟩ := good.inHand j h
    refine ⟨state, holding.trans ?_⟩
    rw [mem]
    constructor
    · exact fun h' => .inl (lost j h' (heldDropped j h))
    · rintro (h' | h')
      · exact kept j h'
      · exact absurd h' ne

/-! ## Taking an mbuf out -/

/-- The application reads a priority mbuf that stays where it is filed. -/
theorem readHigh {highQ : CircularQueue MbufId} (good : Filed w held M (id :: H))
    (buff : w'.buff = { w.buff with highQ := highQ }) (rep : highQ.Represents H)
    (read : w'.mbuf id = { w.mbuf id with mbufState := .rread })
    (same : ∀ j, j ≠ id → w'.mbuf j = w.mbuf j) :
    Filed w' (id :: held) M H := by
  have notH : id ∉ H := (List.nodup_cons.mp good.highNodup).1
  obtain ⟨place, state, priority, holding⟩ := good.unread id (by simp)
  have notHeld : id ∉ held := fun h => by simp [(good.inHand id h).1] at state
  have seg : ∀ j, (w'.mbuf j).tcpSeq = (w.mbuf j).tcpSeq ∧
      (w'.mbuf j).payloadLen = (w.mbuf j).payloadLen := by
    intro j
    by_cases e : j = id
    · subst e
      simp [read]
    · simp [same j e]
  refine ⟨?_, ?_, ?_, (List.nodup_cons.mp good.highNodup).2, ?_, ?_, ?_, ?_, ?_, ?_, ?_,
    List.nodup_cons.mpr ⟨notHeld, good.heldNodup⟩⟩
  · rw [buff]; exact good.merged
  · rw [buff]; exact rep
  · rw [buff]; exact good.nodup
  · rw [buff]
    exact good.chain.congr fun j _ => seg j
  · intro j h
    rw [(seg j).2]
    exact good.lens j h
  · rw [buff, totalLen_congr fun j _ => (seg j).2]
    exact good.fits
  · intro j h listed
    rw [buff] at listed ⊢
    rw [(seg j).1]
    obtain ⟨next, others⟩ := good.apart j (by simp [h]) listed
    exact ⟨next, fun i hi => by rw [(seg i).1]; exact others i hi⟩
  · intro j h
    rw [buff, same j fun e => notH (e ▸ h)]
    exact good.unread j (by simp [h])
  · intro j h
    rw [buff] at h
    by_cases e : j = id
    · subst e
      exact .inr (by simp [read, priority])
    · rw [same j e]
      rcases good.filed j h with ⟨buffered, high, low⟩ | ⟨done, pri, hand⟩
      · exact .inl ⟨buffered, fun p => by simpa [e] using high p, low⟩
      · exact .inr ⟨done, pri, fun h' => by simp [hand h']⟩
  · intro j h
    rw [buff]
    rcases List.mem_cons.mp h with rfl | h
    · rw [read]
      exact ⟨rfl, by simpa [holding] using place⟩
    · rw [same j fun e => notHeld (e ▸ h)]
      exact good.inHand j h

/-- The first mbuf of `merged_q` leaves the buffer, for the application or for the pool. -/
theorem takeMerged {H' held' : List MbufId} {mergedQ highQ : CircularQueue MbufId}
    (good : Filed w held (id :: M) H)
    (buff : w'.buff = { w.buff with
      mergedQ := mergedQ, highQ := highQ, headSeq := w.buff.headSeq + (w.mbuf id).len })
    (repM : mergedQ.Represents M) (repH : highQ.Represents H')
    (high : H = H' ∧ id ∉ H ∨ H = id :: H') (notHeld : id ∉ held)
    (hand : held' = held ∨
      held' = id :: held ∧ (w'.mbuf id).mbufState = .rread ∧ (w'.mbuf id).holding = false)
    (same : ∀ j, j ≠ id → w'.mbuf j = w.mbuf j) :
    Filed w' held' M H' := by
  have nodup := good.nodup
  rw [List.cons_append, List.nodup_cons] at nodup
  have out : id ∉ M ++ w.buff.oooList := nodup.1
  have notH : id ∉ H' := by
    rcases high with ⟨rfl, h⟩ | rfl
    · exact h
    · exact (List.nodup_cons.mp good.highNodup).1
  have subH : ∀ j, j ∈ H' → j ∈ H := by
    rcases high with ⟨rfl, _⟩ | rfl <;> simp_all
  have supH : ∀ j, j ≠ id → j ∈ H → j ∈ H' := by
    rcases high with ⟨rfl, _⟩ | rfl <;> simp_all
  have old : ∀ j ∈ M ++ w.buff.oooList, j ≠ id := fun j h e => out (e ▸ h)
  have inM : ∀ j ∈ M, w'.mbuf j = w.mbuf j := fun j h => same j (old j (by simp [h]))
  have mem : ∀ j, j ≠ id → (j ∈ id :: M ++ w.buff.oooList ↔ j ∈ M ++ w.buff.oooList) := by
    intro j e
    simp [e]
  have before : ∀ j ∈ held, (w'.mbuf j).mbufState = .rread ∧
      ((w'.mbuf j).holding = true ↔ j ∈ M ++ w.buff.oooList) := by
    intro j h
    have e : j ≠ id := fun e => notHeld (e ▸ h)
    rw [same j e, ← mem j e]
    exact good.inHand j h
  refine ⟨?_, ?_, ?_, ?_, ?_, ?_, ?_, ?_, ?_, ?_, ?_, ?_⟩
  · rw [buff]; exact repM
  · rw [buff]; exact repH
  · rw [buff]; exact nodup.2
  · rcases high with ⟨rfl, _⟩ | rfl
    · exact good.highNodup
    · exact (List.nodup_cons.mp good.highNodup).2
  · rw [buff]
    exact good.chain.2.congr fun j h => by rw [inM j h]; exact ⟨rfl, rfl⟩
  · intro j h
    rw [inM j h]
    exact good.lens j (by simp [h])
  · rw [buff, totalLen_congr fun j h => by rw [inM j h]]
    have fits := good.fits
    rw [totalLen_cons] at fits
    exact le_trans (Nat.le_add_left _ _) fits
  · intro j h listed
    rw [buff] at listed ⊢
    rw [same j (old j (by simp [listed]))]
    obtain ⟨next, others⟩ := good.apart j (subH j h) listed
    exact ⟨next, fun i hi => by rw [inM i hi]; exact others i (by simp [hi])⟩
  · intro j h
    have e : j ≠ id := fun e => notH (e ▸ h)
    rw [buff, same j e, ← mem j e]
    exact good.unread j (subH j h)
  · intro j h
    rw [buff] at h
    have e := old j h
    rw [same j e]
    rcases good.filed j ((mem j e).mpr h) with ⟨buffered, pri, low⟩ | ⟨done, pri, held⟩
    · exact .inl ⟨buffered, fun p => supH j e (pri p), low⟩
    · refine .inr ⟨done, pri, fun h' => ?_⟩
      rcases hand with rfl | ⟨rfl, _⟩
      · exact held h'
      · simp [held h']
  · intro j h
    rw [buff]
    rcases hand with rfl | ⟨rfl, read, unheld⟩
    · exact before j h
    · rcases List.mem_cons.mp h with rfl | h
      · exact ⟨read, by simpa [unheld] using out⟩
      · exact before j h
  · rcases hand with rfl | ⟨rfl, _⟩
    · exact good.heldNodup
    · exact List.nodup_cons.mpr ⟨notHeld, good.heldNodup⟩

/-- The application hands an mbuf back. -/
theorem release (good : Filed w held M H) (inHeld : id ∈ held) (buff : w'.buff = w.buff)
    (kept : id ∈ M ++ w.buff.oooList → w'.mbuf id = { w.mbuf id with holding := false })
    (same : ∀ j, j ≠ id → w'.mbuf j = w.mbuf j) :
    Filed w' (held.erase id) M H := by
  obtain ⟨state, holding⟩ := good.inHand id inHeld
  have notH : id ∉ H := fun h => by simp [(good.unread id h).2.1] at state
  have notErased : ∀ j, j ∈ held.erase id ↔ j ≠ id ∧ j ∈ held := by
    intro j
    rw [good.heldNodup.mem_erase_iff]
  have seg : ∀ j ∈ M ++ w.buff.oooList, (w'.mbuf j).tcpSeq = (w.mbuf j).tcpSeq ∧
      (w'.mbuf j).payloadLen = (w.mbuf j).payloadLen := by
    intro j h
    by_cases e : j = id
    · subst e
      simp [kept h]
    · simp [same j e]
  have segM : ∀ j ∈ M, (w'.mbuf j).tcpSeq = (w.mbuf j).tcpSeq ∧
      (w'.mbuf j).payloadLen = (w.mbuf j).payloadLen := fun j h => seg j (by simp [h])
  refine ⟨?_, ?_, ?_, good.highNodup, ?_, ?_, ?_, ?_, ?_, ?_, ?_, good.heldNodup.erase id⟩
  · rw [buff]; exact good.merged
  · rw [buff]; exact good.high
  · rw [buff]; exact good.nodup
  · rw [buff]
    exact good.chain.congr segM
  · intro j h
    rw [(segM j h).2]
    exact good.lens j h
  · rw [buff, totalLen_congr fun j h => (segM j h).2]
    exact good.fits
  · intro j h listed
    rw [buff] at listed ⊢
    rw [(seg j (by simp [listed])).1]
    obtain ⟨next, others⟩ := good.apart j h listed
    exact ⟨next, fun i hi => by rw [(segM i hi).1]; exact others i hi⟩
  · intro j h
    rw [buff, same j fun e => notH (e ▸ h)]
    exact good.unread j h
  · intro j h
    rw [buff] at h
    by_cases e : j = id
    · subst e
      rw [kept h]
      rcases good.filed j h with ⟨buffered, _⟩ | ⟨done, pri, _⟩
      · simp [buffered] at state
      · exact .inr ⟨done, pri, by simp⟩
    · rw [same j e]
      rcases good.filed j h with buffered | ⟨done, pri, hand⟩
      · exact .inl buffered
      · exact .inr ⟨done, pri, fun h' => (notErased j).mpr ⟨e, hand h'⟩⟩
  · intro j h
    obtain ⟨e, inHeld⟩ := (notErased j).mp h
    rw [buff, same j e]
    exact good.inHand j inHeld

end Filed

end QStack
