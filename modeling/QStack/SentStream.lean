/-
# QStack.SentStream -- the stream of bytes that the packets of a connection spell out

Each data mbuf is a piece of the stream; its place is decided when it is first sent,
right behind everything sent before it (`streamPos`).  `Tiled` says that the sequence
numbers on the wire follow these places: a packet repeats an earlier one of its mbuf or
starts where the stream ends.  `Consistent` is what that is good for: an mbuf is always
sent under one sequence number, and two bytes that share one are 2^32 bytes apart.
-/
import QStack.SendFlush

namespace QStack

set_option autoImplicit false

/-- The mbuf `id` has been sent. -/
def transmitted (id : MbufId) (sent : List Sent) : Bool := sent.any fun p => p.data == some id

/-- How many bytes have been sent, each mbuf counted once. -/
def streamLen : List Sent → Nat
  | [] => 0
  | p :: older =>
      match p.data with
      | none => streamLen older
      | some id => if transmitted id older then streamLen older else streamLen older + p.len

/-- How many bytes had been sent before the mbuf `id` was sent for the first time. -/
def streamPos (id : MbufId) : List Sent → Nat
  | [] => 0
  | _ :: older => if transmitted id older then streamPos id older else streamLen older

/-- Transmissions of one mbuf agree, and different bytes with one sequence number are at least
2^32 bytes of the stream apart. -/
structure Consistent (sent : List Sent) : Prop where
  same : ∀ p ∈ sent, ∀ q ∈ sent, ∀ id, p.data = some id → q.data = some id →
    p.seq = q.seq ∧ p.len = q.len
  apart : ∀ p ∈ sent, ∀ q ∈ sent, ∀ a b, p.data = some a → q.data = some b →
    ∀ i < p.len, ∀ j < q.len, p.seq + BitVec.ofNat 32 i = q.seq + BitVec.ofNat 32 j →
      (a = b ∧ i = j) ∨ streamPos a sent + i + 2 ^ 32 ≤ streamPos b sent + j ∨
        streamPos b sent + j + 2 ^ 32 ≤ streamPos a sent + i

/-! ## Tiles -/

/-- The packets lie in the stream that starts at `base`, those of different mbufs apart. -/
structure Tiled (base : Seq) (sent : List Sent) : Prop where
  seq : ∀ p ∈ sent, ∀ id, p.data = some id → p.seq = tcpSeqAt base (streamPos id sent)
  len : ∀ p ∈ sent, ∀ q ∈ sent, ∀ id, p.data = some id → q.data = some id → p.len = q.len
  inside : ∀ p ∈ sent, ∀ id, p.data = some id → streamPos id sent + p.len ≤ streamLen sent
  apart : ∀ p ∈ sent, ∀ q ∈ sent, ∀ a b, p.data = some a → q.data = some b → a ≠ b →
    streamPos a sent + p.len ≤ streamPos b sent ∨ streamPos b sent + q.len ≤ streamPos a sent

theorem transmitted_of_mem {id : MbufId} {sent : List Sent} {p : Sent} (inside : p ∈ sent)
    (data : p.data = some id) : transmitted id sent = true := by
  rw [transmitted, List.any_eq_true]
  exact ⟨p, inside, by rw [data]; exact beq_self_eq_true _⟩

theorem streamPos_cons {id : MbufId} {older : List Sent} (p : Sent)
    (known : transmitted id older = true) : streamPos id (p :: older) = streamPos id older := by
  rw [streamPos, if_pos known]

namespace Tiled

variable {base : Seq} {older : List Sent} {p : Sent}

theorem nil (base : Seq) : Tiled base [] where
  seq := nofun
  len := nofun
  inside := nofun
  apart := nofun

/-- A packet without data. -/
theorem control (tiled : Tiled base older) (none : p.data = none) : Tiled base (p :: older) := by
  have old : ∀ q ∈ p :: older, ∀ id, q.data = some id →
      q ∈ older ∧ streamPos id (p :: older) = streamPos id older := by
    intro q inside id data
    rcases List.mem_cons.mp inside with rfl | inside
    · rw [none] at data
      cases data
    · exact ⟨inside, streamPos_cons p (transmitted_of_mem inside data)⟩
  have total : streamLen (p :: older) = streamLen older := by
    rw [streamLen, none]
  refine ⟨?_, ?_, ?_, ?_⟩
  · intro q inside id data
    obtain ⟨inside, pos⟩ := old q inside id data
    rw [pos]
    exact tiled.seq q inside id data
  · intro q inside q' inside' id data data'
    exact tiled.len q (old q inside id data).1 q' (old q' inside' id data').1 id data data'
  · intro q inside id data
    obtain ⟨inside, pos⟩ := old q inside id data
    rw [pos, total]
    exact tiled.inside q inside id data
  · intro q inside q' inside' a b data data' other
    obtain ⟨inside, pos⟩ := old q inside a data
    obtain ⟨inside', pos'⟩ := old q' inside' b data'
    rw [pos, pos']
    exact tiled.apart q inside q' inside' a b data data' other

/-- An mbuf is sent again. -/
theorem again (tiled : Tiled base older) {q : Sent} {id : MbufId} (known : q ∈ older)
    (before : q.data = some id) (data : p.data = some id) (seq : p.seq = q.seq)
    (len : p.len = q.len) : Tiled base (p :: older) := by
  -- every packet of the longer log has a twin in the shorter one
  have old : ∀ r ∈ p :: older, ∀ id, r.data = some id → ∃ r' ∈ older, r'.data = some id ∧
      r.seq = r'.seq ∧ r.len = r'.len ∧ streamPos id (p :: older) = streamPos id older := by
    intro r inside id' data'
    rcases List.mem_cons.mp inside with rfl | inside
    · rw [data] at data'
      cases data'
      exact ⟨q, known, before, seq, len, streamPos_cons r (transmitted_of_mem known before)⟩
    · exact ⟨r, inside, data', rfl, rfl, streamPos_cons p (transmitted_of_mem inside data')⟩
  have total : streamLen (p :: older) = streamLen older := by
    rw [streamLen, data]
    exact if_pos (transmitted_of_mem known before)
  refine ⟨?_, ?_, ?_, ?_⟩
  · intro r inside id data
    obtain ⟨r', inside', data', seq, -, pos⟩ := old r inside id data
    rw [seq, pos]
    exact tiled.seq r' inside' id data'
  · intro r inside t inside' id data data'
    obtain ⟨r', memR, dataR, -, lenR, -⟩ := old r inside id data
    obtain ⟨t', memT, dataT, -, lenT, -⟩ := old t inside' id data'
    rw [lenR, lenT]
    exact tiled.len r' memR t' memT id dataR dataT
  · intro r inside id data
    obtain ⟨r', inside', data', -, len, pos⟩ := old r inside id data
    rw [len, pos, total]
    exact tiled.inside r' inside' id data'
  · intro r inside t inside' a b data data' other
    obtain ⟨r', memR, dataR, -, lenR, posR⟩ := old r inside a data
    obtain ⟨t', memT, dataT, -, lenT, posT⟩ := old t inside' b data'
    rw [lenR, lenT, posR, posT]
    exact tiled.apart r' memR t' memT a b dataR dataT other

/-- A new mbuf is sent where the stream ends. -/
theorem first (tiled : Tiled base older) {id : MbufId} (new : transmitted id older = false)
    (data : p.data = some id) (seq : p.seq = tcpSeqAt base (streamLen older)) :
    Tiled base (p :: older) := by
  have place : streamPos id (p :: older) = streamLen older := by
    rw [streamPos, if_neg (by rw [new]; decide)]
  have total : streamLen (p :: older) = streamLen older + p.len := by
    rw [streamLen, data]
    exact if_neg (by rw [new]; decide)
  have cases_ : ∀ r ∈ p :: older, ∀ id', r.data = some id' →
      (r = p ∧ id' = id) ∨
        (r ∈ older ∧ id' ≠ id ∧ streamPos id' (p :: older) = streamPos id' older) := by
    intro r inside id' data'
    rcases List.mem_cons.mp inside with rfl | inside
    · rw [data] at data'
      cases data'
      exact .inl ⟨rfl, rfl⟩
    · have known := transmitted_of_mem inside data'
      refine .inr ⟨inside, ?_, streamPos_cons p known⟩
      rintro rfl
      rw [new] at known
      cases known
  refine ⟨?_, ?_, ?_, ?_⟩
  · intro r inside id' data'
    rcases cases_ r inside id' data' with ⟨rfl, rfl⟩ | ⟨inside, -, pos⟩
    · rw [place]
      exact seq
    · rw [pos]
      exact tiled.seq r inside id' data'
  · intro r inside t inside' id' data' data''
    rcases cases_ r inside id' data' with ⟨rfl, rfl⟩ | ⟨inside, other, -⟩
    · rcases cases_ t inside' id' data'' with ⟨rfl, -⟩ | ⟨-, other, -⟩
      · rfl
      · exact absurd rfl other
    · rcases cases_ t inside' id' data'' with ⟨-, rfl⟩ | ⟨inside', -, -⟩
      · exact absurd rfl other
      · exact tiled.len r inside t inside' id' data' data''
  · intro r inside id' data'
    rw [total]
    rcases cases_ r inside id' data' with ⟨rfl, rfl⟩ | ⟨inside, -, pos⟩
    · rw [place]
    · rw [pos]
      exact le_trans (tiled.inside r inside id' data') (Nat.le_add_right _ _)
  · intro r inside t inside' a b data' data'' other
    rcases cases_ r inside a data' with ⟨rfl, rfl⟩ | ⟨known, -, pos⟩
    · rcases cases_ t inside' b data'' with ⟨-, rfl⟩ | ⟨inside', -, pos⟩
      · exact absurd rfl other
      · rw [place, pos]
        exact .inr (tiled.inside t inside' b data'')
    · rcases cases_ t inside' b data'' with ⟨rfl, rfl⟩ | ⟨inside', -, pos'⟩
      · rw [place, pos]
        exact .inl (tiled.inside r known a data')
      · rw [pos, pos']
        exact tiled.apart r known t inside' a b data' data'' other

/-- **Tiles are sent consistently.** -/
theorem consistent {sent : List Sent} (tiled : Tiled base sent) : Consistent sent := by
  refine ⟨?_, ?_⟩
  · intro p inside q inside' id data data'
    refine ⟨?_, tiled.len p inside q inside' id data data'⟩
    rw [tiled.seq p inside id data, tiled.seq q inside' id data']
  · intro p inside q inside' a b data data' i below j below' same
    rw [tiled.seq p inside a data, tiled.seq q inside' b data', tcpSeqAt_add, tcpSeqAt_add] at same
    have congruent : (streamPos a sent + i) % 2 ^ 32 = (streamPos b sent + j) % 2 ^ 32 := by
      have offsets := congrArg BitVec.toNat (add_left_cancel same)
      rwa [BitVec.toNat_ofNat, BitVec.toNat_ofNat] at offsets
    rcases Nat.lt_trichotomy (streamPos a sent + i) (streamPos b sent + j) with less | equal | more
    · exact .inr (.inl (by omega))
    · refine .inl ?_
      by_cases one : a = b
      · subst one
        exact ⟨rfl, by omega⟩
      · exfalso
        rcases tiled.apart p inside q inside' a b data data' one with before | after
        · omega
        · omega
    · exact .inr (.inr (by omega))

end Tiled

end QStack
