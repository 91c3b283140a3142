/-
# QStack.RecvRun -- runs of one receive buffer

The buffer is driven by three parties.  The driver fills a free mbuf and the
stack files it with `rb_put`, after which the main loop frees it if its state is
still `MBUF_STATE_RCVED`; the application takes an mbuf with `q_recv` and hands
it back with `q_free_mbuf`.  `rcvStep` is one such action.  `log` records, latest
first, what happened to each mbuf, and `held` the mbufs the application has.

`Enabled` is what the parties promise: the driver only fills free mbufs, and the
application only frees what it holds.  Addresses are reused: a freed mbuf may
carry another segment later.
-/
import QStack.Lib.Run
import QStack.RecvBuff

namespace QStack

set_option autoImplicit false

inductive Happening where
  | accepted (id : MbufId)
  | failed (id : MbufId)
  | returned (id : MbufId) (m : Mbuf)
  | freed (id : MbufId)
deriving DecidableEq

namespace Happening

def id : Happening → MbufId
  | .accepted id | .failed id | .returned id _ | .freed id => id

def mbuf? : Happening → Option Mbuf
  | .returned _ m => some m
  | _ => none

end Happening

/-- The mbufs handed to the application, latest first. -/
def returned (log : List Happening) : List Mbuf := log.filterMap Happening.mbuf?

structure RcvRun where
  w : RcvMem
  held : List MbufId := []
  log : List Happening := []

inductive RcvEvent where
  | put (id : MbufId) (m : Mbuf)
  | get
  | free (id : MbufId)

namespace RcvRun

/-- A new buffer, over any contents of the memory. -/
def start (rcvbufSize : Nat) (initSeq : Seq) (mbuf : MbufId → Mbuf) : RcvRun :=
  { w := { mbuf := mbuf, buff := RcvBuff.zero.rbInit rcvbufSize initSeq } }

/-- The driver's side of a put: mbuf `id` now holds the segment `m`. -/
def deliver (w : RcvMem) (id : MbufId) (m : Mbuf) : RcvMem :=
  { w with mbuf := Function.update w.mbuf id { m with mbufState := .rcved }, freed := [] }

def putOutcome (ret : Int) (id : MbufId) : Happening :=
  if ret = QStack.failed then .failed id else .accepted id

def rcvStep (s : RcvRun) : RcvEvent → RcvRun
  | .put id m =>
      match (deliver s.w id m).rbPut id with
      | (ret, w) =>
          let log := putOutcome ret id :: w.freed.map .freed ++ s.log
          if (w.mbuf id).mbufState = .rcved then
            { s with w := w.setMem (w.mbufFree id), log := .freed id :: log }
          else { s with w := w, log := log }
  | .get =>
      match ({ s.w with freed := [] } : RcvMem).qRecv with
      | (some id, w) =>
          { w := w
            held := id :: s.held
            log := .returned id (w.mbuf id) :: w.freed.map .freed ++ s.log }
      | (none, w) => { s with w := w, log := w.freed.map .freed ++ s.log }
  | .free id =>
      let w := ({ s.w with freed := [] } : RcvMem).qFreeMbuf id
      { w := w, held := s.held.erase id, log := w.freed.map .freed ++ s.log }

/-- What the driver and the application promise. -/
def Enabled (s : RcvRun) : RcvEvent → Prop
  | .put id m =>
      (s.w.mbuf id).mbufState = .free ∧ 0 < m.payloadLen ∧ m.payloadLen < 2 ^ 16
  | .get => True
  | .free id => id ∈ s.held

end RcvRun

/-! ## Consecutive segments -/

/-- The mbufs of the list follow each other in sequence space from `start` to `stop`. -/
def Chain (mbuf : MbufId → Mbuf) : Seq → List MbufId → Seq → Prop
  | start, [], stop => start = stop
  | start, id :: rest, stop =>
      (mbuf id).tcpSeq = start ∧ Chain mbuf (start + (mbuf id).len) rest stop

def totalLen (mbuf : MbufId → Mbuf) (ids : List MbufId) : Nat :=
  (ids.map fun id => (mbuf id).payloadLen).sum

section Chain

variable {mbuf mbuf' : MbufId → Mbuf} {start stop : Seq} {ids : List MbufId}

@[simp] theorem totalLen_nil : totalLen mbuf [] = 0 := rfl

@[simp] theorem totalLen_cons (id : MbufId) :
    totalLen mbuf (id :: ids) = (mbuf id).payloadLen + totalLen mbuf ids := by
  simp [totalLen]

@[simp] theorem totalLen_append (more : List MbufId) :
    totalLen mbuf (ids ++ more) = totalLen mbuf ids + totalLen mbuf more := by
  simp [totalLen]

theorem totalLen_congr (same : ∀ id ∈ ids, (mbuf' id).payloadLen = (mbuf id).payloadLen) :
    totalLen mbuf' ids = totalLen mbuf ids := by
  rw [totalLen, totalLen, List.map_congr_left same]

theorem totalLen_le (short : ∀ id ∈ ids, (mbuf id).payloadLen < 2 ^ 16) :
    totalLen mbuf ids ≤ ids.length * 2 ^ 16 := by
  induction ids with
  | nil => simp
  | cons id rest ih =>
      have first := short id (by simp)
      have others := ih fun j hj => short j (by simp [hj])
      rw [totalLen_cons, List.length_cons, Nat.add_mul]
      omega

theorem Chain.congr : ∀ {ids : List MbufId} {start : Seq},
    (∀ id ∈ ids, (mbuf' id).tcpSeq = (mbuf id).tcpSeq ∧
      (mbuf' id).payloadLen = (mbuf id).payloadLen) →
    Chain mbuf start ids stop → Chain mbuf' start ids stop
  | [], _, _, chain => chain
  | id :: rest, start, same, chain => by
      obtain ⟨seq, len⟩ := same id (by simp)
      refine ⟨seq.trans chain.1, ?_⟩
      rw [Mbuf.len, len]
      exact Chain.congr (fun j hj => same j (by simp [hj])) chain.2

theorem Chain.stop_eq : ∀ {ids : List MbufId} {start : Seq}, Chain mbuf start ids stop →
    stop = start + BitVec.ofNat 32 (totalLen mbuf ids)
  | [], start, chain => by simpa [Chain] using chain.symm
  | id :: rest, start, chain => by
      rw [chain.2.stop_eq, totalLen_cons, BitVec.ofNat_add, Mbuf.len, BitVec.add_assoc]

theorem Chain.snoc : ∀ {ids : List MbufId} {start : Seq} {new : MbufId},
    Chain mbuf start ids stop → (mbuf new).tcpSeq = stop →
    Chain mbuf start (ids ++ [new]) (mbuf new).seqEnd
  | [], start, new, chain, seq => by
      have here : start = stop := chain
      exact ⟨seq.trans here.symm, by rw [Chain, Mbuf.seqEnd, seq, here]⟩
  | id :: rest, start, new, chain, seq => ⟨chain.1, chain.2.snoc seq⟩

/-- Where an mbuf of the chain starts. -/
theorem Chain.seq_eq : ∀ {ids : List MbufId} {start : Seq}, Chain mbuf start ids stop →
    ∀ id ∈ ids, ∃ before, before ≤ totalLen mbuf ids ∧
      (mbuf id).tcpSeq = start + BitVec.ofNat 32 before
  | first :: rest, start, chain, id, mem => by
      rcases List.mem_cons.mp mem with rfl | later
      · exact ⟨0, Nat.zero_le _, by simpa using chain.1⟩
      · obtain ⟨before, bound, seq⟩ := chain.2.seq_eq id later
        refine ⟨(mbuf first).payloadLen + before, by rw [totalLen_cons]; omega, ?_⟩
        rw [seq, BitVec.ofNat_add, Mbuf.len, BitVec.add_assoc]

/-- No later mbuf starts where a non-empty first one does. -/
theorem Chain.later_ne {first : MbufId} {rest : List MbufId}
    (chain : Chain mbuf start (first :: rest) stop) (nonempty : 0 < (mbuf first).payloadLen)
    (small : totalLen mbuf (first :: rest) < 2 ^ 32) :
    ∀ id ∈ rest, (mbuf id).tcpSeq ≠ start := by
  intro id mem same
  obtain ⟨before, bound, seq⟩ := chain.2.seq_eq id mem
  rw [totalLen_cons] at small
  rw [same, Mbuf.len, BitVec.add_assoc, ← BitVec.ofNat_add] at seq
  have zero : BitVec.ofNat 32 ((mbuf first).payloadLen + before) = 0#32 := by
    have moved := congrArg (fun x => x - start) seq
    simpa using moved.symm
  have value := congrArg BitVec.toNat zero
  rw [BitVec.toNat_ofNat, Nat.mod_eq_of_lt (by omega), BitVec.toNat_ofNat] at value
  omega

end Chain

end QStack
