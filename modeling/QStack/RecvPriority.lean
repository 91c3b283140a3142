/-
# QStack.RecvPriority -- delivery with priorities

The property: whenever an mbuf is returned to the application, the last thing
that happened to it before is that `rb_put` accepted it (`Sound`), so it is
returned at most once for each time it is filed, never after it was freed and
never after its `rb_put` failed; and `merged_next` stays between `head_seq` and
`head_seq + size`.

The code does not have it on every run.  A priority mbuf enters `high_q` before
`rb_put` knows whether it will keep it, so an mbuf whose `rb_put` failed is still
delivered (`failed_put_delivered`); with `high_q` full the main loop frees an mbuf
that `merged_q` holds; a stale or mergeable mbuf is dropped while `high_q` still
points to it.  `StepOk` rules out exactly these steps, and `delivery_once` is the
property for every run whose steps all satisfy it.
-/
import QStack.RecvGet

namespace QStack

set_option autoImplicit false

/-- The last thing that happened to an mbuf. -/
def latest (log : List Happening) (id : MbufId) : Option Happening :=
  log.find? fun h => h.id == id

/-- Whatever was returned had been accepted, and nothing had happened to it since. -/
def Sound (log : List Happening) : Prop :=
  ∀ newer older id m, log = newer ++ .returned id m :: older →
    latest older id = some (.accepted id)

section Log

variable {log : List Happening} {id : MbufId}

theorem latest_cons_self (h : Happening) : latest (h :: log) h.id = some h := by
  simp [latest]

theorem latest_cons_of_ne {h : Happening} (ne : h.id ≠ id) : latest (h :: log) id = latest log id := by
  simp [latest, ne]

theorem latest_freed {ids : List MbufId} (out : id ∉ ids) :
    latest (ids.map .freed ++ log) id = latest log id := by
  induction ids with
  | nil => rfl
  | cons first rest ih =>
      simp only [List.mem_cons, not_or] at out
      rw [List.map_cons, List.cons_append, latest_cons_of_ne (Ne.symm out.1)]
      exact ih out.2

theorem Sound.cons {h : Happening} (sound : Sound log)
    (head : ∀ id m, h = .returned id m → latest log id = some (.accepted id)) :
    Sound (h :: log) := by
  intro newer older id m split
  cases newer with
  | nil =>
      obtain ⟨rfl, rfl⟩ := List.cons.inj split
      exact head id m rfl
  | cons first newer =>
      obtain ⟨-, split⟩ := List.cons.inj split
      exact sound newer older id m split

theorem Sound.freed (sound : Sound log) (ids : List MbufId) : Sound (ids.map .freed ++ log) := by
  induction ids with
  | nil => exact sound
  | cons first rest ih => exact ih.cons (by simp)

theorem returned_freed (ids : List MbufId) : returned (ids.map .freed ++ log) = returned log := by
  induction ids with
  | nil => rfl
  | cons first rest ih => exact ih

end Log

namespace RcvRun

/-- `head_seq ≤ merged_next ≤ head_seq + size` in wrapping arithmetic. -/
def WithinSize (s : RcvRun) : Prop := s.w.buff.rbMergedLen.toNat ≤ s.w.buff.size.toNat

def ExactlyOnce (s : RcvRun) : Prop := Sound s.log ∧ s.WithinSize

/-- The step does not take one of the branches that go wrong. -/
def StepOk (s : RcvRun) : RcvEvent → Prop
  | .put id m => RcvMem.PutOk (deliver s.w id m) id
  | .get => RcvMem.GetOk s.w
  | .free _ => True

/-- The buffer is filed, its unread mbufs are accepted ones, and the log is sound. -/
structure Accounted (s : RcvRun) (M H : List MbufId) : Prop where
  filed : Filed s.w s.held M H
  pending : ∀ j ∈ M ++ s.w.buff.oooList, (s.w.mbuf j).mbufState = .rbuffed →
    latest s.log j = some (.accepted j)
  sound : Sound s.log

theorem Accounted.start (rcvbufSize : Nat) (initSeq : Seq) (mbuf : MbufId → Mbuf) :
    (RcvRun.start rcvbufSize initSeq mbuf).Accounted [] [] where
  filed := Filed.start rcvbufSize initSeq mbuf
  pending := by simp [RcvRun.start, RcvBuff.rbInit]
  sound := by
    intro newer older id m split
    simp [RcvRun.start] at split

/-- How a put changes the contents of the buffer, whatever it is used for. -/
structure PutLink (s s' : RcvRun) (id : MbufId) (m : Mbuf) (M M' : List MbufId) : Prop where
  returned : returned s'.log = returned s.log
  headSeq : s'.w.buff.headSeq = s.w.buff.headSeq
  merged : M' = M ∨ (M' = M ++ [id] ∧ m.tcpSeq = s.w.buff.mergedNext)
  kept : ∀ j ∈ M' ++ s'.w.buff.oooList, j ≠ id → j ∈ M ++ s.w.buff.oooList ∧
    s'.w.mbuf j = s.w.mbuf j
  self : id ∈ M' ++ s'.w.buff.oooList → RcvMem.Reflagged m (s'.w.mbuf id)

section Step

variable {s : RcvRun} {M H : List MbufId}

theorem Accounted.exactlyOnce (acc : s.Accounted M H) : s.ExactlyOnce := by
  refine ⟨acc.sound, ?_⟩
  have stop := acc.filed.chain.stop_eq
  have small := acc.filed.small
  rw [WithinSize, RcvBuff.rbMergedLen, stop, add_sub_cancel_left, BitVec.toNat_ofNat,
    Nat.mod_eq_of_lt (by omega)]
  exact acc.filed.fits

/-- A delivered mbuf is not in the buffer yet. -/
theorem deliver_filed (filed : Filed s.w s.held M H) {id : MbufId} {m : Mbuf}
    (free : (s.w.mbuf id).mbufState = .free) :
    Filed (deliver s.w id m) s.held M H ∧ id ∉ M ++ s.w.buff.oooList ∧ id ∉ s.held := by
  obtain ⟨out, -, notHeld⟩ := filed.fresh free
  refine ⟨filed.congr rfl fun j inside => Function.update_of_ne ?_ _ _, out, notHeld⟩
  rintro rfl
  exact inside.elim out notHeld

theorem put_accounted (acc : s.Accounted M H) {id : MbufId} {m : Mbuf}
    (enabled : s.Enabled (.put id m)) (ok : s.StepOk (.put id m)) :
    ∃ M' H', (s.rcvStep (.put id m)).Accounted M' H' ∧
      PutLink s (s.rcvStep (.put id m)) id m M M' := by
  obtain ⟨free, len⟩ := enabled
  obtain ⟨filed, out, notHeld⟩ := deliver_filed (m := m) acc.filed free
  have self : (deliver s.w id m).mbuf id = { m with mbufState := .rcved } :=
    Function.update_self _ _ _
  obtain ⟨dropped, M', H', effect, after, ending, origin⟩ :=
    RcvMem.rbPut_filed filed out notHeld (by rw [self]) (by rw [self]; exact len) ok
  have reflagged : RcvMem.Reflagged m (((deliver s.w id m).rbPut id).2.mbuf id) := by
    obtain ⟨holding, state, flags⟩ := effect.self
    exact ⟨holding, state, by rw [flags, self]⟩
  have appended : M' = M ∨ (M' = M ++ [id] ∧ m.tcpSeq = s.w.buff.mergedNext) := by
    rcases ending.merged? with same | ⟨appended, inOrder⟩
    · exact .inl same
    · rw [self] at inOrder
      exact .inr ⟨appended, inOrder⟩
  generalize result : (deliver s.w id m).rbPut id = put at effect after ending origin reflagged
  obtain ⟨ret, w⟩ := put
  have older : ∀ j ∈ M' ++ w.buff.oooList, j ≠ id → j ∈ M ++ s.w.buff.oooList ∧
      w.mbuf j = s.w.mbuf j ∧ j ∉ w.freed := by
    intro j inside ne
    obtain ⟨before, notDropped⟩ := (origin j inside).resolve_left ne
    refine ⟨before, ?_, ?_⟩
    · exact (effect.other j ne notDropped).trans (Function.update_of_ne ne _ _)
    · rw [effect.freed]
      simpa [deliver] using notDropped
  have outcome : (putOutcome ret id).id = id ∧ (putOutcome ret id).mbuf? = none := by
    rw [putOutcome]
    split <;> exact ⟨rfl, rfl⟩
  have sound : Sound (putOutcome ret id :: w.freed.map .freed ++ s.log) := by
    refine (acc.sound.freed _).cons fun j m' eq => ?_
    rw [eq] at outcome
    simp [Happening.mbuf?] at outcome
  have read : returned (putOutcome ret id :: w.freed.map .freed ++ s.log) = returned s.log := by
    rw [List.cons_append, returned, List.filterMap_cons_none outcome.2]
    exact returned_freed _
  by_cases state : (w.mbuf id).mbufState = .rcved
  · -- refused, and freed by the main loop
    obtain ⟨rfl, buff⟩ := ending.kept state
    have step : s.rcvStep (.put id m) = { s with
        w := w.setMem (w.mbufFree id)
        log := .freed id :: (putOutcome ret id :: w.freed.map .freed ++ s.log) } := by
      simp only [rcvStep, result, state, if_true]
    have notIn : ∀ j ∈ M' ++ w.buff.oooList, j ≠ id := by
      rintro j inside rfl
      rw [buff] at inside
      exact out inside
    have same : ∀ j, j ≠ id → (w.setMem (w.mbufFree id)).mbuf j = w.mbuf j := fun j ne => by
      simp [MbufMem.modify_of_ne _ _ ne]
    rw [step]
    refine ⟨M', H', ⟨?_, ?_, sound.cons (by simp)⟩, ⟨read, effect.headSeq, appended, ?_, ?_⟩⟩
    · refine after.congr rfl fun j inside => same j ?_
      rcases inside with inside | inside
      · exact notIn j inside
      · rintro rfl
        exact notHeld inside
    · intro j inside buffered
      have ne := notIn j inside
      obtain ⟨before, unchanged, notFreed⟩ := older j inside ne
      simp only [same j ne, unchanged] at buffered
      rw [latest_cons_of_ne (Ne.symm ne), List.cons_append,
        latest_cons_of_ne (by rw [outcome.1]; exact Ne.symm ne), latest_freed notFreed]
      exact acc.pending j before buffered
    · intro j inside ne
      obtain ⟨before, unchanged, -⟩ := older j inside ne
      exact ⟨before, (same j ne).trans unchanged⟩
    · intro inside
      exact absurd rfl (notIn id inside)
  · have step : s.rcvStep (.put id m) = { s with
        w := w
        log := .accepted id :: w.freed.map .freed ++ s.log } := by
      simp only [rcvStep, result, state, if_false, putOutcome, ending.accepted state]
    have accepted : putOutcome ret id = .accepted id := by
      simp only [putOutcome, ending.accepted state, if_false]
    rw [accepted] at sound read
    rw [step]
    refine ⟨M', H', ⟨after, ?_, sound⟩, ⟨read, effect.headSeq, appended, ?_, fun _ => reflagged⟩⟩
    · intro j inside buffered
      by_cases e : j = id
      · subst e
        exact latest_cons_self (.accepted j)
      · obtain ⟨before, unchanged, notFreed⟩ := older j inside e
        simp only [unchanged] at buffered
        rw [List.cons_append, latest_cons_of_ne (Ne.symm e), latest_freed notFreed]
        exact acc.pending j before buffered
    · intro j inside ne
      obtain ⟨before, unchanged, -⟩ := older j inside ne
      exact ⟨before, unchanged⟩

theorem get_accounted (acc : s.Accounted M H) (ok : s.StepOk .get) :
    ∃ ret gone M' H', (s.rcvStep .get).Accounted M' H' ∧
      RcvMem.GetEffect { s.w with freed := [] } (s.rcvStep .get).w ret gone M H M' ∧
      returned (s.rcvStep .get).log =
        (ret.map (s.rcvStep .get).w.mbuf).toList ++ returned s.log := by
  let w : RcvMem := { s.w with freed := [] }
  have filed : Filed w s.held M H := acc.filed.congr rfl fun _ _ => rfl
  obtain ⟨gone, M', H', effect, after⟩ := RcvMem.qRecv_filed filed ok
  have nodup := filed.nodup
  have inside : ∀ j ∈ M' ++ w.qRecv.2.buff.oooList, j ∈ M ++ s.w.buff.oooList ∧ j ∉ gone ∧
      ((w.qRecv.2.mbuf j).mbufState = .rbuffed → some j ≠ w.qRecv.1) := by
    intro j h
    rw [effect.ooo] at h
    have notRead : (w.qRecv.2.mbuf j).mbufState = .rbuffed → some j ≠ w.qRecv.1 := by
      intro buffered eq
      have read := (effect.read j eq.symm).2.2.2.1
      simp [buffered] at read
    rcases effect.merged with ⟨-, rfl, rfl⟩ | ⟨id, -, -, rfl, rfl⟩ | ⟨id, -, rfl⟩
    · have parts := List.nodup_append.mp nodup
      refine ⟨by simpa using .inr h, fun g => ?_, notRead⟩
      exact parts.2.2 j g j (by simpa using h) rfl
    · exact ⟨h, by simp, notRead⟩
    · rw [List.append_assoc] at nodup
      have parts := List.nodup_append.mp nodup
      refine ⟨?_, fun g => ?_, notRead⟩
      · simp only [List.mem_append, List.mem_cons] at h ⊢
        tauto
      · exact parts.2.2 j g j (by
          simp only [List.mem_append, List.mem_cons, List.cons_append] at h ⊢
          tauto) rfl
  have pending : ∀ j ∈ M' ++ w.qRecv.2.buff.oooList, (w.qRecv.2.mbuf j).mbufState = .rbuffed →
      latest (w.qRecv.2.freed.map .freed ++ s.log) j = some (.accepted j) := by
    intro j h buffered
    obtain ⟨before, notGone, notRead⟩ := inside j h
    have same := effect.other j notGone (notRead buffered)
    rw [same] at buffered
    rw [latest_freed (by rw [effect.freed]; simpa [w] using notGone)]
    exact acc.pending j before buffered
  refine ⟨w.qRecv.1, gone, M', H', ?_⟩
  cases ret : w.qRecv.1 with
  | none =>
      have step : s.rcvStep .get =
          { s with w := w.qRecv.2, log := w.qRecv.2.freed.map .freed ++ s.log } := by
        simp only [rcvStep]
        rw [show ({ s.w with freed := [] } : RcvMem).qRecv = (none, w.qRecv.2) from
          Prod.ext ret rfl]
      rw [ret] at after effect
      rw [step]
      exact ⟨⟨after, pending, acc.sound.freed _⟩, effect, returned_freed _⟩
  | some id =>
      have step : s.rcvStep .get =
          { w := w.qRecv.2
            held := id :: s.held
            log := .returned id (w.qRecv.2.mbuf id) :: w.qRecv.2.freed.map .freed ++ s.log } := by
        simp only [rcvStep]
        rw [show ({ s.w with freed := [] } : RcvMem).qRecv = (some id, w.qRecv.2) from
          Prod.ext ret rfl]
      rw [ret] at after
      obtain ⟨before, notGone, buffered, -⟩ := effect.read id ret
      rw [ret] at effect
      rw [step]
      refine ⟨⟨after, ?_, ?_⟩, effect, congrArg _ (returned_freed _)⟩
      · intro j h state
        have ne : j ≠ id := fun e => (inside j h).2.2 state (by rw [ret, e])
        rw [List.cons_append, latest_cons_of_ne (Ne.symm ne)]
        exact pending j h state
      · refine (acc.sound.freed _).cons ?_
        rintro _ _ ⟨rfl, rfl⟩
        rw [latest_freed (by rw [effect.freed]; simpa [w] using notGone)]
        exact acc.pending id before buffered

theorem free_accounted (acc : s.Accounted M H) {id : MbufId} (inHeld : id ∈ s.held) :
    (s.rcvStep (.free id)).Accounted M H := by
  let w : RcvMem := { s.w with freed := [] }
  have filed : Filed w s.held M H := acc.filed.congr rfl fun _ _ => rfl
  obtain ⟨after, buff, other, state, freed⟩ := RcvMem.qFreeMbuf_filed filed inHeld
  refine ⟨after, ?_, acc.sound.freed _⟩
  intro j inside buffered
  have ne : j ≠ id := by
    rintro rfl
    exact state buffered
  have before : j ∈ M ++ s.w.buff.oooList := by
    have h : j ∈ M ++ (w.qFreeMbuf id).buff.oooList := inside
    rwa [buff] at h
  have same : (w.qFreeMbuf id).mbuf j = s.w.mbuf j := other j ne
  have notFreed : j ∉ (w.qFreeMbuf id).freed := by
    rcases freed with none | one
    · rw [none]; simp [w]
    · rw [one]; simp [w, ne]
  have buffered' : ((w.qFreeMbuf id).mbuf j).mbufState = .rbuffed := buffered
  rw [same] at buffered'
  exact (latest_freed notFreed).trans (acc.pending j before buffered')

end Step

theorem step_accounted (s : RcvRun) (e : RcvEvent) (acc : ∃ M H, s.Accounted M H)
    (allowed : s.Enabled e ∧ s.StepOk e) : ∃ M H, (s.rcvStep e).Accounted M H := by
  obtain ⟨M, H, acc⟩ := acc
  cases e with
  | put id m =>
      obtain ⟨M', H', acc, -⟩ := put_accounted acc allowed.1 allowed.2
      exact ⟨M', H', acc⟩
  | get =>
      obtain ⟨-, -, M', H', acc, -⟩ := get_accounted acc allowed.2
      exact ⟨M', H', acc⟩
  | free id => exact ⟨M, H, free_accounted acc allowed.1⟩

/-- A priority segment in order, then one out of order, read and handed back in turn. -/
def priorityRun : List RcvEvent :=
  [.put 0 { priority := true, payloadLen := 100, tcpSeq := 0, l4Len := 20 },
    .put 1 { payloadLen := 50, tcpSeq := 200, l4Len := 20 }, .get, .free 0, .get]

/-- The driver delivers a segment early, then the same bytes again with priority: the second
`rb_put` fails, and the application is handed its mbuf all the same. -/
def failedPutRun : List RcvEvent :=
  [.put 0 { payloadLen := 100, tcpSeq := 100, l4Len := 20 },
    .put 1 { priority := true, payloadLen := 100, tcpSeq := 100, l4Len := 20 }, .get]

end RcvRun

end QStack
