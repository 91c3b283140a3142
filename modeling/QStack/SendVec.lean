/-
# QStack.SendVec -- q_sendv: a list of pieces packed into mbufs

`q_sendv` copies the pieces of an iovec one after the other into the mbuf it holds, and sends the
mbuf when the next piece does not fit.  What `q_get_wmbuf` and `q_send` answer is up to the rest of
the stack (`SendvWorld`).

Three things go wrong.  A piece longer than a packet is copied all the same, and beyond the end of
the mbuf.  When no mbuf is left, the loop ends and `q_send` is called with none.  And the results
of `q_send` are added up with their error codes among them, also for the empty mbuf that is sent
when there was nothing to copy.  `sendv_concatenates` says that there is nothing else.
-/
import QStack.Universal
import Mathlib.Data.List.Basic

namespace QStack

set_option autoImplicit false

/-- `*max_len` of `io_get_wmbuf` -/
def wmbufLen : Nat := 1460

/-- What `q_send` returns: how many bytes it put in the send buffer, `ERROR` or `FAILED`. -/
inductive SendAnswer where
  | put (n : Nat) (some_ : 0 < n)
  | error
  | failed
deriving DecidableEq

namespace SendAnswer

def ret : SendAnswer → Int
  | .put n _ => n
  | .error => QStack.error
  | .failed => QStack.failed

def accepted : SendAnswer → Nat
  | .put n _ => n
  | _ => 0

end SendAnswer

/-- The answers to the calls of one `q_sendv`, numbered from 0. -/
structure SendvWorld where
  /-- `q_get_wmbuf` finds an mbuf -/
  wmbuf : Nat → Bool
  /-- the socket has a stream when `q_send` looks -/
  connected : Nat → Bool
  /-- what `_q_tcp_send` returns for an mbuf -/
  send : Nat → SendAnswer

structure Sendv (α : Type) where
  /-- what was written from `buff` on -/
  buff : List α := []
  /-- a `uint32_t` -/
  offset : Nat := 0
  ret : BitVec 32 := 0
  /-- how often `q_get_wmbuf` was called -/
  gets : Nat := 0
  /-- the payloads of the mbufs that were passed to `q_send` -/
  sent : List (List α) := []
  answers : List SendAnswer := []
  /-- `q_send` dereferenced a null mbuf -/
  crashed : Bool := false
  /-- a copy went beyond the end of the mbuf -/
  overrun : Bool := false

namespace SendvWorld

/-- `q_send` of the `k`-th call; it looks into the mbuf once it has found the stream. -/
def qSend (w : SendvWorld) (k : Nat) (mbuf : Bool) : Option SendAnswer :=
  if !w.connected k then some .error else if mbuf then some (w.send k) else none

/-- The answer for an mbuf. -/
def answer (w : SendvWorld) (k : Nat) : SendAnswer := if w.connected k then w.send k else .error

end SendvWorld

namespace Sendv

variable {α : Type}

/-- `memcpy(buff + offset, piece)` and the new `offset` -/
def memcpy (piece : List α) (s : Sendv α) : Sendv α :=
  { s with
    buff := s.buff.take s.offset ++ piece ++ s.buff.drop (s.offset + piece.length)
    offset := (s.offset + piece.length) % 2 ^ 32
    overrun := s.overrun || decide (wmbufLen < s.offset + piece.length) }

/-- `ret += q_send(app, sockid, mbuf, offset, flags)` -/
def sendMbuf (w : SendvWorld) (mbuf : Bool) (s : Sendv α) : Sendv α :=
  match w.qSend s.answers.length mbuf with
  | none => { s with crashed := true }
  | some answer =>
      { s with
        ret := s.ret + BitVec.ofInt 32 answer.ret
        sent := if mbuf then s.sent ++ [s.buff.take s.offset] else s.sent
        answers := s.answers ++ [answer] }

/-- The packet is full: it is sent, and the next mbuf is fetched. -/
def nextMbuf (w : SendvWorld) (s : Sendv α) : Sendv α :=
  { s.sendMbuf w true with gets := s.gets + 1, buff := [], offset := 0 }

/-- The loop over the pieces; false when it ended without an mbuf. -/
def loop (w : SendvWorld) : List (List α) → Sendv α → Bool × Sendv α
  | [], s => (true, s)
  | piece :: iov, s =>
      if wmbufLen < s.offset + piece.length then
        if w.wmbuf s.gets then loop w iov ((s.nextMbuf w).memcpy piece)
        else (false, { s.sendMbuf w true with gets := s.gets + 1 })
      else loop w iov (s.memcpy piece)

end Sendv

/-- `q_sendv`: what it returns, if it does, and what it did. -/
def qSendv {α : Type} (w : SendvWorld) (iov : List (List α)) : Option Int × Sendv α :=
  let s : Sendv α := { gets := 1 }
  if w.wmbuf 0 then
    match s.loop w iov with
    | (mbuf, s) =>
        let s := s.sendMbuf w mbuf
        (if s.crashed then none else some s.ret.toInt, s)
  else (some (-1), s)

/-! ## The law -/

/-- The bytes `q_send` accepted. -/
def acceptedBytes (answers : List SendAnswer) : Nat := (answers.map SendAnswer.accepted).sum

/-- The call sends the concatenation of the pieces. -/
structure Concatenates {α : Type} (iov : List (List α)) (r : Option Int × Sendv α) : Prop where
  inside : r.2.overrun = false
  whole : r.2.sent.flatten = iov.flatten
  filled : [] ∉ r.2.sent
  total : r.1 = some (if acceptedBytes r.2.answers = 0 then -1 else (acceptedBytes r.2.answers : Int))

/-- How many mbufs the pieces need, `offset` bytes being in the first: a piece that does not fit
begins a new one. -/
def packets {α : Type} : Nat → List (List α) → Nat
  | _, [] => 1
  | offset, piece :: iov =>
      if wmbufLen < offset + piece.length then packets piece.length iov + 1
      else packets (offset + piece.length) iov

/-- The results of `q_send` add up: every mbuf is accepted, or there is one only, and the result
for it is -1. -/
def AddsUp (answers : List SendAnswer) : Prop :=
  ((∀ answer ∈ answers, 0 < answer.accepted) ∧ acceptedBytes answers < 2 ^ 31) ∨
    answers = [.error]

/-- There is something to send, every piece fits in a packet, there are mbufs for all of them, and
the results add up. -/
structure Packs {α : Type} (w : SendvWorld) (iov : List (List α)) : Prop where
  some_ : iov.flatten ≠ []
  fit : ∀ piece ∈ iov, piece.length ≤ wmbufLen
  wmbufs : ∀ k < packets 0 iov, w.wmbuf k = true
  answers : AddsUp ((List.range (packets 0 iov)).map w.answer)

def SendvOk {α : Type} (w : SendvWorld) (iov : List (List α)) : Prop :=
  Packs w iov ∨ (w.wmbuf 0 = false ∧ iov.flatten = [])

/-! ## The results of q_send -/

namespace SendAnswer

/-- What an answer takes off the sum. -/
def debt : SendAnswer → Nat
  | .put _ _ => 0
  | .error => 1
  | .failed => 2

theorem ret_eq (answer : SendAnswer) : answer.ret = answer.accepted - answer.debt := by
  cases answer <;> simp [ret, accepted, debt, QStack.error, QStack.failed]

theorem debt_eq_zero {answer : SendAnswer} : answer.debt = 0 ↔ 0 < answer.accepted := by
  cases answer with
  | put n some_ => simp [debt, accepted, some_]
  | error | failed => simp [debt, accepted]

end SendAnswer

/-- What all of them take off. -/
def debts (answers : List SendAnswer) : Nat := (answers.map SendAnswer.debt).sum

theorem sum_ret (answers : List SendAnswer) :
    (answers.map SendAnswer.ret).sum = (acceptedBytes answers : Int) - debts answers := by
  induction answers with
  | nil => rfl
  | cons answer answers ih =>
      have here := answer.ret_eq
      unfold acceptedBytes debts at ih ⊢
      simp only [List.map_cons, List.sum_cons]
      omega

theorem debts_eq_zero {answers : List SendAnswer} :
    debts answers = 0 ↔ ∀ answer ∈ answers, 0 < answer.accepted := by
  induction answers with
  | nil => simp [debts]
  | cons answer answers ih =>
      rw [List.forall_mem_cons, ← ih, ← SendAnswer.debt_eq_zero]
      unfold debts
      rw [List.map_cons, List.sum_cons, Nat.add_eq_zero_iff]

/-- An answer takes off two at most, and nothing if it brings something. -/
theorem debts_le (answers : List SendAnswer) :
    debts answers ≤ 2 * answers.length ∧
      (acceptedBytes answers ≠ 0 → debts answers + 2 ≤ 2 * answers.length) := by
  induction answers with
  | nil => exact ⟨Nat.le_refl 0, fun brought => absurd rfl brought⟩
  | cons answer answers ih =>
      unfold acceptedBytes debts at ih ⊢
      simp only [List.map_cons, List.sum_cons, List.length_cons]
      cases answer with
      | put n some_ => simp [SendAnswer.accepted, SendAnswer.debt]; omega
      | error | failed => simp only [SendAnswer.accepted, SendAnswer.debt]; omega

theorem eq_error_of_debts {answers : List SendAnswer} (one : debts answers = 1)
    (nothing : acceptedBytes answers = 0) : answers = [.error] := by
  cases answers with
  | nil => cases one
  | cons answer rest =>
      unfold acceptedBytes debts at *
      simp only [List.map_cons, List.sum_cons] at one nothing
      have paid : answer.debt ≠ 0 := fun free => by
        have := SendAnswer.debt_eq_zero.mp free
        omega
      cases answer with
      | put n some_ => exact absurd rfl paid
      | failed => simp only [SendAnswer.debt] at one; omega
      | error =>
          simp only [SendAnswer.debt, SendAnswer.accepted] at one nothing
          cases rest with
          | nil => rfl
          | cons answer' rest =>
              -- a second answer costs or brings something
              simp only [List.map_cons, List.sum_cons] at one nothing
              have free : answer'.debt = 0 := by omega
              have brought := SendAnswer.debt_eq_zero.mp free
              omega

theorem total_iff {answers : List SendAnswer} (some_ : answers ≠ [])
    (few : answers.length ≤ 2 ^ 31) :
    (BitVec.ofInt 32 (answers.map SendAnswer.ret).sum).toInt =
        (if acceptedBytes answers = 0 then -1 else (acceptedBytes answers : Int)) ↔
      AddsUp answers := by
  obtain ⟨le, brings⟩ := debts_le answers
  rw [sum_ret, BitVec.toInt_ofInt, AddsUp, ← debts_eq_zero]
  constructor
  · intro total
    rw [Int.bmod_def] at total
    by_cases nothing : acceptedBytes answers = 0
    · rw [if_pos nothing, nothing] at total
      refine .inr (eq_error_of_debts ?_ nothing)
      split at total <;> omega
    · have more := brings nothing
      rw [if_neg nothing] at total
      refine .inl ?_
      split at total <;> omega
  · rintro (⟨free, small⟩ | rfl)
    · have nonzero : acceptedBytes answers ≠ 0 := by
        intro nothing
        cases answers with
        | nil => exact some_ rfl
        | cons answer rest =>
            have first := debts_eq_zero.mp free answer List.mem_cons_self
            unfold acceptedBytes at nothing
            rw [List.map_cons, List.sum_cons] at nothing
            omega
      rw [if_neg nonzero, free, Int.bmod_def]
      split <;> omega
    · decide

/-! ## The loop -/

namespace Sendv

variable {α : Type} {w : SendvWorld}

/-- After `n` mbufs were sent all is well: the mbuf in hand holds what `offset` says, within its
bounds. -/
structure Packing (w : SendvWorld) (n : Nat) (s : Sendv α) : Prop where
  length : s.buff.length = s.offset
  fits : s.offset ≤ wmbufLen
  inside : s.overrun = false
  runs : s.crashed = false
  filled : [] ∉ s.sent
  answers : s.answers = (List.range n).map w.answer
  gets : s.gets = n + 1
  ret : s.ret = BitVec.ofInt 32 (s.answers.map SendAnswer.ret).sum

/-- The pieces that are left fit, and there are mbufs for them. -/
def Enough (w : SendvWorld) (n offset : Nat) (iov : List (List α)) : Prop :=
  (∀ piece ∈ iov, piece.length ≤ wmbufLen) ∧
    ∀ k, n < k → k < n + packets offset iov → w.wmbuf k = true

section Loop

variable {s : Sendv α} {n : Nat}

theorem Packing.memcpy (packing : s.Packing w n) {piece : List α}
    (room : s.offset + piece.length ≤ wmbufLen) :
    (s.memcpy piece).Packing w n ∧ (s.memcpy piece).buff = s.buff ++ piece ∧
      (s.memcpy piece).offset = s.offset + piece.length := by
  have offset : (s.memcpy piece).offset = s.offset + piece.length := by
    refine Nat.mod_eq_of_lt (Nat.lt_of_le_of_lt room ?_)
    decide
  have buff : (s.memcpy piece).buff = s.buff ++ piece := by
    have whole := packing.length
    change s.buff.take s.offset ++ piece ++ s.buff.drop (s.offset + piece.length) = _
    rw [List.take_of_length_le (by omega), List.drop_eq_nil_of_le (by omega), List.append_nil]
  refine ⟨⟨?_, ?_, ?_, packing.runs, packing.filled, packing.answers, packing.gets, packing.ret⟩,
    buff, offset⟩
  · rw [buff, offset, List.length_append, packing.length]
  · rw [offset]
    exact room
  · change (s.overrun || decide (wmbufLen < s.offset + piece.length)) = false
    rw [packing.inside, decide_eq_false (by omega)]
    rfl

theorem sendMbuf_mbuf (s : Sendv α) : s.sendMbuf w true =
    { s with
      ret := s.ret + BitVec.ofInt 32 (w.answer s.answers.length).ret
      sent := s.sent ++ [s.buff.take s.offset]
      answers := s.answers ++ [w.answer s.answers.length] } := by
  unfold sendMbuf SendvWorld.qSend SendvWorld.answer
  cases w.connected s.answers.length <;> rfl

/-- The mbuf in hand is sent. -/
theorem Packing.nextMbuf (packing : s.Packing w n) (some_ : s.buff ≠ []) :
    (s.nextMbuf w).sent = s.sent ++ [s.buff] ∧ (s.nextMbuf w).Packing w (n + 1) := by
  have count : s.answers.length = n := by
    rw [packing.answers, List.length_map, List.length_range]
  have whole : s.buff.take s.offset = s.buff :=
    List.take_of_length_le (Nat.le_of_eq packing.length)
  rw [Sendv.nextMbuf, sendMbuf_mbuf, whole, count]
  refine ⟨rfl, rfl, Nat.zero_le _, packing.inside, packing.runs, ?_, ?_, ?_, ?_⟩
  · intro empty
    rcases List.mem_append.mp empty with before | here
    · exact packing.filled before
    · exact some_ (List.mem_singleton.mp here).symm
  · rw [packing.answers, List.range_succ, List.map_append, List.map_singleton]
  · rw [packing.gets]
  · change s.ret + _ = _
    rw [packing.ret, List.map_append, List.sum_append, BitVec.ofInt_add]
    simp

theorem sendMbuf_overrun (mbuf : Bool) (s : Sendv α) :
    (s.sendMbuf w mbuf).overrun = s.overrun := by
  unfold sendMbuf
  split <;> rfl

/-- What was written beyond the end stays written. -/
theorem loop_overrun : ∀ (iov : List (List α)) {s : Sendv α}, s.overrun = true →
    (s.loop w iov).2.overrun = true := by
  intro iov
  induction iov with
  | nil => exact fun over_ => over_
  | cons piece iov ih =>
      intro s over_
      have sent : (s.sendMbuf w true).overrun = true := (sendMbuf_overrun true s).trans over_
      have copied : ∀ s : Sendv α, s.overrun = true → (s.memcpy piece).overrun = true :=
        fun s over_ => Bool.or_eq_true_iff.mpr (.inl over_)
      unfold loop
      split_ifs
      · exact ih (copied _ sent)
      · exact sent
      · exact ih (copied s over_)

theorem packets_pos (offset : Nat) (iov : List (List α)) : 0 < packets offset iov := by
  induction iov generalizing offset with
  | nil => exact Nat.zero_lt_one
  | cons piece iov ih =>
      rw [packets]
      split
      · exact Nat.succ_pos _
      · exact ih _

/-- A piece that fits goes into the mbuf in hand. -/
theorem enough_fits {offset : Nat} {piece : List α} {iov : List (List α)}
    (room : offset + piece.length ≤ wmbufLen) :
    Enough w n offset (piece :: iov) ↔ Enough w n (offset + piece.length) iov := by
  unfold Enough
  rw [packets, if_neg (Nat.not_lt.mpr room), List.forall_mem_cons]
  exact ⟨fun enough => ⟨enough.1.2, enough.2⟩, fun enough => ⟨⟨by omega, enough.1⟩, enough.2⟩⟩

/-- One that does not takes another mbuf. -/
theorem enough_next {offset : Nat} {piece : List α} {iov : List (List α)}
    (full : wmbufLen < offset + piece.length) :
    Enough w n offset (piece :: iov) ↔
      piece.length ≤ wmbufLen ∧ w.wmbuf (n + 1) = true ∧ Enough w (n + 1) piece.length iov := by
  have pos := packets_pos piece.length iov
  unfold Enough
  rw [packets, if_pos full, List.forall_mem_cons]
  constructor
  · rintro ⟨⟨fits, rest⟩, mbufs⟩
    exact ⟨fits, mbufs (n + 1) (by omega) (by omega), rest,
      fun k after before => mbufs k (by omega) (by omega)⟩
  · rintro ⟨fits, next, rest, mbufs⟩
    refine ⟨⟨fits, rest⟩, fun k after before => ?_⟩
    by_cases first : k = n + 1
    · rw [first]
      exact next
    · exact mbufs k (by omega) (by omega)

/-- The loop came to the end of the pieces with the `m`-th mbuf in hand, and nothing is lost. -/
structure Packed (w : SendvWorld) (m : Nat) (before : List α) (r : Bool × Sendv α) : Prop where
  mbuf : r.1 = true
  packing : r.2.Packing w m
  whole : r.2.sent.flatten ++ r.2.buff = before
  some_ : r.2.buff = [] → before = []

/-- Something is copied beyond the end of an mbuf, or the loop ends before the last piece. -/
def Fails (total : Nat) (r : Bool × Sendv α) : Prop :=
  r.2.overrun = true ∨ r.1 = false ∧ r.2.sent.flatten.length < total

/-- **The loop.**  If the pieces fit and there are mbufs for them, what was sent and what is in
hand is the concatenation; otherwise it fails. -/
theorem Packing.loop : ∀ (iov : List (List α)) {n : Nat} {s : Sendv α}, s.Packing w n →
    (s.buff = [] → s.sent = []) →
      (Enough w n s.offset iov ∧ ∃ m, n + packets s.offset iov = m + 1 ∧
          Packed w m (s.sent.flatten ++ s.buff ++ iov.flatten) (s.loop w iov)) ∨
        (¬ Enough w n s.offset iov ∧
          Fails (s.sent.flatten ++ s.buff ++ iov.flatten).length (s.loop w iov)) := by
  intro iov
  induction iov with
  | nil =>
      intro n s packing first
      refine .inl ⟨⟨by simp, fun k after before => ?_⟩, n, rfl, rfl, packing, by simp [Sendv.loop],
        fun none => ?_⟩
      · rw [packets] at before
        omega
      · have none : s.buff = [] := none
        simp [none, first none]
  | cons piece iov ih =>
      intro n s packing first
      by_cases full : wmbufLen < s.offset + piece.length
      · rw [Sendv.loop, if_pos full, enough_next full, ← packing.gets]
        by_cases left : w.wmbuf s.gets = true
        · rw [if_pos left]
          by_cases long : wmbufLen < piece.length
          · refine .inr ⟨fun enough => Nat.not_lt.mpr enough.1 long, .inl (loop_overrun iov ?_)⟩
            refine Bool.or_eq_true_iff.mpr (.inr (decide_eq_true ?_))
            change wmbufLen < 0 + piece.length
            omega
          · -- the piece begins the next mbuf
            have occupied : 0 < s.buff.length := by
              rw [packing.length]
              omega
            obtain ⟨sent, next⟩ := packing.nextMbuf (List.length_pos_iff.mp occupied)
            obtain ⟨copied, buff, offset⟩ := next.memcpy (show 0 + piece.length ≤ wmbufLen by omega)
            have buff : ((s.nextMbuf w).memcpy piece).buff = piece := buff
            have offset : ((s.nextMbuf w).memcpy piece).offset = piece.length :=
              offset.trans (Nat.zero_add _)
            have sent : ((s.nextMbuf w).memcpy piece).sent = s.sent ++ [s.buff] := sent
            have fresh : 0 < piece.length := by
              have := packing.fits
              omega
            have rest := ih copied fun none => by
              rw [buff] at none
              rw [none] at fresh
              cases fresh
            have same : (s.sent ++ [s.buff]).flatten ++ piece ++ iov.flatten =
                s.sent.flatten ++ s.buff ++ (piece :: iov).flatten := by simp
            rw [offset, sent, buff, same] at rest
            rw [packets, if_pos full, packing.gets]
            refine rest.imp (fun ⟨enough, m, count, packed⟩ => ?_) fun ⟨short, fails⟩ => ?_
            · exact ⟨⟨Nat.not_lt.mp long, packing.gets ▸ left, enough⟩, m, by omega, packed⟩
            · exact ⟨fun enough => short enough.2.2, fails⟩
        · rw [if_neg left]
          refine .inr ⟨fun enough => left enough.2.1, .inr ⟨rfl, ?_⟩⟩
          change (s.sendMbuf w true).sent.flatten.length < _
          have fits := packing.fits
          have shorter := List.length_take_le s.offset s.buff
          rw [sendMbuf_mbuf]
          simp only [List.flatten_append, List.length_append, List.flatten_cons, List.flatten_nil,
            List.append_nil, packing.length]
          omega
      · have room := Nat.le_of_not_lt full
        obtain ⟨copied, buff, offset⟩ := packing.memcpy room
        have sent : (s.memcpy piece).sent = s.sent := rfl
        have rest := ih copied fun none => by
          rw [buff] at none
          exact first (List.append_eq_nil_iff.mp none).1
        have same : s.sent.flatten ++ (s.buff ++ piece) ++ iov.flatten =
            s.sent.flatten ++ s.buff ++ (piece :: iov).flatten := by simp
        rw [offset, sent, buff, same] at rest
        rw [Sendv.loop, if_neg full, enough_fits room, packets, if_neg full]
        exact rest

end Loop

end Sendv

/-! ## The call -/

section Call

variable {α : Type} {w : SendvWorld} {iov : List (List α)}

theorem packets_le (iov : List (List α)) : ∀ offset, packets offset iov ≤ iov.length + 1 := by
  induction iov with
  | nil => exact fun _ => Nat.le_refl 1
  | cons piece iov ih =>
      intro offset
      have next := ih piece.length
      have same := ih (offset + piece.length)
      rw [packets, List.length_cons]
      split <;> omega

theorem first_packing (w : SendvWorld) : ({ gets := 1 } : Sendv α).Packing w 0 where
  length := rfl
  fits := Nat.zero_le _
  inside := rfl
  runs := rfl
  filled := List.not_mem_nil
  answers := rfl
  gets := rfl
  ret := rfl

/-- With all pieces copied, the last mbuf decides. -/
theorem packed_concatenates (count : iov.length < 2 ^ 31) {m : Nat} {s : Sendv α}
    (packed : Sendv.Packed w m iov.flatten (true, s)) (number : packets 0 iov = m + 1)
    (r : Option Int × Sendv α)
    (sends : r = (if (s.sendMbuf w true).crashed then none
      else some (s.sendMbuf w true).ret.toInt, s.sendMbuf w true)) :
    Concatenates iov r ↔
      iov.flatten ≠ [] ∧ AddsUp ((List.range (packets 0 iov)).map w.answer) := by
  have packing : s.Packing w m := packed.packing
  have last : s.buff.take s.offset = s.buff :=
    List.take_of_length_le (Nat.le_of_eq packing.length)
  have sent : (s.sendMbuf w true).sent = s.sent ++ [s.buff] := by
    rw [Sendv.sendMbuf_mbuf, last]
  have answers : (s.sendMbuf w true).answers = (List.range (packets 0 iov)).map w.answer := by
    rw [Sendv.sendMbuf_mbuf, number, List.range_succ, List.map_append, List.map_singleton,
      packing.answers, List.length_map, List.length_range]
  have ret : (s.sendMbuf w true).ret =
      BitVec.ofInt 32 ((s.sendMbuf w true).answers.map SendAnswer.ret).sum := by
    rw [Sendv.sendMbuf_mbuf]
    dsimp only
    rw [packing.ret, List.map_append, List.sum_append, BitVec.ofInt_add]
    simp
  have runs : (s.sendMbuf w true).crashed = false := by
    rw [Sendv.sendMbuf_mbuf]
    exact packing.runs
  have over_ := (Sendv.sendMbuf_overrun (w := w) true s).trans packing.inside
  have few : ((List.range (packets 0 iov)).map w.answer).length ≤ 2 ^ 31 := by
    have := packets_le iov 0
    rw [List.length_map, List.length_range]
    omega
  have some_ : (List.range (packets 0 iov)).map w.answer ≠ [] := by
    rw [number, List.range_succ, List.map_append]
    simp
  have total := total_iff some_ few
  rw [runs, if_neg Bool.false_ne_true] at sends
  rw [← answers, ← ret] at total
  rw [← answers]
  constructor
  · intro law
    rw [sends] at law
    refine ⟨fun empty => ?_, total.mp (Option.some.inj law.total)⟩
    have none : s.buff = [] := by
      have whole : s.sent.flatten ++ s.buff = iov.flatten := packed.whole
      rw [empty] at whole
      exact (List.append_eq_nil_iff.mp whole).2
    refine law.filled ?_
    change [] ∈ (s.sendMbuf w true).sent
    rw [sent, none]
    simp
  · rintro ⟨content, adds⟩
    rw [sends]
    refine ⟨over_, ?_, ?_, congrArg some (total.mpr adds)⟩
    · change (s.sendMbuf w true).sent.flatten = _
      rw [sent, ← packed.whole]
      simp
    · change [] ∉ (s.sendMbuf w true).sent
      rw [sent]
      intro empty
      rcases List.mem_append.mp empty with before | here
      · exact packing.filled before
      · exact content (packed.some_ (List.mem_singleton.mp here).symm)

/-- Nothing makes up for a loop that failed. -/
theorem fails_concatenates {mbuf : Bool} {s : Sendv α}
    (fails : Sendv.Fails iov.flatten.length (mbuf, s)) (ret : Option Int) :
    ¬ Concatenates iov (ret, s.sendMbuf w mbuf) := by
  intro law
  rcases fails with over_ | ⟨none, short⟩
  · have inside := law.inside
    rw [Sendv.sendMbuf_overrun] at inside
    exact Bool.false_ne_true (inside.symm.trans over_)
  · obtain rfl : mbuf = false := none
    have whole := law.whole
    have sent : (s.sendMbuf w false).sent = s.sent := by
      unfold Sendv.sendMbuf
      split <;> rfl
    change (s.sendMbuf w false).sent.flatten = _ at whole
    rw [sent] at whole
    rw [← whole] at short
    exact Nat.lt_irrefl _ short

/-- **q_sendv sends the concatenation** exactly when every piece fits in a packet, no mbuf is
missing and the results of `q_send` add up, or when there is nothing to send and no mbuf. -/
theorem sendv_concatenates (w : SendvWorld) (iov : List (List α)) (count : iov.length < 2 ^ 31) :
    Concatenates iov (qSendv w iov) ↔ SendvOk w iov := by
  unfold qSendv SendvOk
  dsimp only
  cases first : w.wmbuf 0 with
  | false =>
      rw [if_neg Bool.false_ne_true]
      constructor
      · exact fun law => .inr ⟨rfl, law.whole.symm⟩
      · rintro (packs | ⟨-, empty⟩)
        · have := packs.wmbufs 0 (Sendv.packets_pos 0 iov)
          rw [first] at this
          cases this
        · exact ⟨rfl, empty.symm, List.not_mem_nil, rfl⟩
  | true =>
      rw [if_pos rfl]
      have packs_iff : Packs w iov ↔ Sendv.Enough w 0 0 iov ∧ iov.flatten ≠ [] ∧
          AddsUp ((List.range (packets 0 iov)).map w.answer) := by
        constructor
        · intro packs
          exact ⟨⟨packs.fit, fun k _ before => packs.wmbufs k (by omega)⟩, packs.some_,
            packs.answers⟩
        · rintro ⟨⟨fit, mbufs⟩, some_, answers⟩
          refine ⟨some_, fit, fun k before => ?_, answers⟩
          cases k with
          | zero => exact first
          | succ k => exact mbufs (k + 1) (Nat.succ_pos k) (by omega)
      have never : ¬ (true = false ∧ iov.flatten = []) := fun both => Bool.noConfusion both.1
      have outcome := (@first_packing α w).loop iov fun _ => rfl
      rw [or_iff_left never, packs_iff]
      change (Sendv.Enough w 0 0 iov ∧ ∃ m, 0 + packets 0 iov = m + 1 ∧
          Sendv.Packed w m iov.flatten (Sendv.loop w iov { gets := 1 })) ∨
        (¬ Sendv.Enough w 0 0 iov ∧
          Sendv.Fails iov.flatten.length (Sendv.loop w iov { gets := 1 })) at outcome
      generalize Sendv.loop w iov { gets := 1 } = result at outcome ⊢
      obtain ⟨mbuf, s⟩ := result
      rcases outcome with ⟨enough, m, number, packed⟩ | ⟨short, fails⟩
      · obtain rfl : mbuf = true := packed.mbuf
        rw [and_iff_right enough]
        rw [Nat.zero_add] at number
        exact packed_concatenates count packed number _ rfl
      · exact ⟨fun law => absurd law (fails_concatenates fails _), fun ok => absurd ok.1 short⟩

end Call

/-- Every call succeeds. -/
def willing : SendvWorld :=
  { wmbuf := fun _ => true, connected := fun _ => true, send := fun _ => .put 2 (by decide) }

theorem sendv_concatenates_willing : [[1], [], [2]].length < 2 ^ 31 ∧
    Concatenates [[1], [], [2]] (qSendv willing [[1], [], [2]]) := by
  have small : packets 0 [[1], [], [2]] = 1 := by decide
  refine ⟨by decide, (sendv_concatenates willing [[1], [], [2]] (by decide)).mpr (.inl ?_)⟩
  refine ⟨by decide, by decide, fun _ _ => rfl, .inl ?_⟩
  rw [small]
  decide

/-- A piece of 1461 bytes: an empty mbuf is sent, and the next one is written beyond its end. -/
theorem long_piece_overruns :
    (qSendv willing [List.replicate 1461 0]).2.overrun = true ∧
      [] ∈ (qSendv willing [List.replicate 1461 0]).2.sent ∧
      ¬ Concatenates [List.replicate 1461 0] (qSendv willing [List.replicate 1461 0]) := by
  have over_ : (qSendv willing [List.replicate 1461 0]).2.overrun = true := by
    decide +kernel
  refine ⟨over_, by decide +kernel, fun law => ?_⟩
  exact Bool.false_ne_true (law.inside.symm.trans over_)

end QStack
