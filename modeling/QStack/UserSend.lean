/-
# QStack.UserSend -- _q_tcp_send with its error paths, and what each leaves behind

`qTcpSend` is what `_q_tcp_send` does to a stream; `userSend` adds the checks before it (the
socket, the mbuf) and the fate of the mbuf after it.  The last error path wants to free the mbuf:
it calls `q_free_mbuf` with the number of the core where the application is expected, and that
function reads the core number out of the application, at an address below the number of cores.

`send_all_or_nothing` says exactly when a call is all or nothing: when it is refused before
`send_from_user`, or has room for all of an mbuf whose length fits into `payload_len`.
-/
import QStack.PutAtomic
import QStack.TcpOut

namespace QStack

set_option autoImplicit false

/-- An mbuf of the application; `holding` is what the receive side left in it. -/
structure UserMbuf extends SndMbuf where
  holding : Bool := false
deriving DecidableEq, Repr

/-- The arguments of `_q_tcp_send`; `highPri` is `QFLAG_SEND_HIGHPRI` of the flags. -/
structure SendArgs where
  sockid : Int
  mbuf : Option UserMbuf
  len : U32
  highPri : Bool

/-- What the call leaves: `ret` is none when it does not return. -/
structure SendReturn where
  ret : Option Int
  stream : Option Cx
  mbuf : Option UserMbuf

namespace Cx

/-- The mbuf as `send_from_user` leaves it: `sb_put` writes to it before it tries the ring. -/
def usedBySend (m : UserMbuf) (c : Cx) : UserMbuf :=
  if min c.st.sndWnd.toInt m.payloadLen ≤ 0 ∨ c.st.sndbuf.toPut m.toSndMbuf = 0 then m
  else { m with toSndMbuf := c.st.sndbuf.stamped m.toSndMbuf }

/-- `q_free_mbuf` with a core number for the application. -/
def qFreeMbufOfCore (ret : Int) (m : UserMbuf) (c : Cx) : SendReturn :=
  if m.priority && m.holding then
    { ret := some ret, stream := some c, mbuf := some { m with holding := false } }
  else { ret := none, stream := some (c.emit (.halt .nullDeref)), mbuf := some m }

/-- `_q_tcp_send` from `send_from_user` on. -/
def sendUserMbuf (env : Env) (m : UserMbuf) (highPri : Bool) (c : Cx) : SendReturn :=
  match c.sendFromUser m.toSndMbuf with
  | (ret, c') =>
      if 0 < ret then
        { ret := some ret
          stream := some (c'.sendEventAdd env highPri)
          mbuf := some (c.usedBySend m) }
      else c'.qFreeMbufOfCore ret (c.usedBySend m)

end Cx

/-- `_q_tcp_send`; `maxConcurrency` is `CONFIG.max_concurrency` and `stream` what the socket has. -/
def userSend (env : Env) (maxConcurrency : Nat) (a : SendArgs) (stream : Option Cx) : SendReturn :=
  if a.sockid < 0 ∨ maxConcurrency ≤ a.sockid then ⟨some (-1), stream, a.mbuf⟩
  else
    match stream, a.mbuf with
    | none, mbuf => ⟨some (-1), none, mbuf⟩
    | some c, none => ⟨some (-1), some c, none⟩
    | some c, some m =>
        if m.mbufState ≠ .talloc then ⟨none, some c.exit, some m⟩
        else
          let m : UserMbuf :=
            { m with payloadLen := a.len.toNat % 2 ^ 16, priority := a.highPri }
          if c.st.state ≠ .established ∧ c.st.state ≠ .closeWait then
            ⟨some error, some c, some m⟩
          else if a.len = 0 then ⟨some (-1), some c, some m⟩
          else c.sendUserMbuf env m a.highPri

/-! ## All or nothing -/

namespace SndBuff

/-- `m` is the last of its ring now, and the sequence space up to its end is taken. -/
structure Appended (b b' : SndBuff) (m : SndMbuf) : Prop where
  high : b'.husndQ.contents = b.husndQ.contents ++ if m.priority then [m] else []
  low : b'.usndQ.contents = b.usndQ.contents ++ if m.priority then [] else [m]
  rest : b' =
    { b with nextSeq := b.nextSeq + m.len, husndQ := b'.husndQ, usndQ := b'.usndQ }

end SndBuff

/-- The send buffer of the stream, with its window. -/
def sendSide (stream : Option Cx) : Option (SndBuff × U32) :=
  stream.map fun c => (c.st.sndbuf, c.st.sndWnd)

structure AllOrNothing (a : SendArgs) (stream : Option Cx) (r : SendReturn) : Prop where
  /-- an mbuf that was sent before ends the process -/
  returns : (∀ m, a.mbuf = some m → m.mbufState = .talloc) → r.ret ≠ none
  whole : ∀ n, r.ret = some n → 0 < n → n = a.len.toNat ∧
    ∃ c c' m, stream = some c ∧ r.stream = some c' ∧ a.mbuf = some m ∧
      c.st.sndbuf.Appended c'.st.sndbuf
        { m.toSndMbuf with
          payloadLen := a.len.toNat
          priority := a.highPri
          tcpSeq := c.st.sndbuf.nextSeq
          mbufState := .tbuffed }
  untouched : ∀ n, r.ret = some n → n ≤ 0 → sendSide r.stream = sendSide stream
  /-- the caller still has the mbuf, or it went back to its pool -/
  owned : ∀ n, r.ret = some n → n ≤ 0 → ∀ m', r.mbuf = some m' →
    m'.mbufState = .free ∨ ∃ m, a.mbuf = some m ∧ m'.mbufState = m.mbufState

/-- The call goes as far as `send_from_user`. -/
structure SendReaches (maxConcurrency : Nat) (a : SendArgs) (c : Cx) (m : UserMbuf) : Prop where
  sockid : 0 ≤ a.sockid ∧ a.sockid < maxConcurrency
  talloc : m.mbufState = .talloc
  sends : c.st.state = .established ∨ c.st.state = .closeWait
  some_ : a.len ≠ 0

/-- The mbuf, cut to 16 bits, as it goes into `send_from_user`. -/
def SendArgs.cut (a : SendArgs) (m : UserMbuf) : UserMbuf :=
  { m with payloadLen := a.len.toNat % 2 ^ 16, priority := a.highPri }

/-- There is room for the whole mbuf, in the buffer and in the ring. -/
structure SendFits (a : SendArgs) (c : Cx) (m : UserMbuf) : Prop where
  window : 0 < c.st.sndWnd.toInt
  short : a.len.toNat < 2 ^ 16
  room : a.len.toNat ≤ (c.st.sndbuf.size - c.st.sndbuf.sbLen).toNat
  ring : c.st.sndbuf.targetFull (a.cut m).toSndMbuf = false

/-- Nothing is sent, and `q_free_mbuf` only clears a flag. -/
def SendHeld (a : SendArgs) (c : Cx) (m : UserMbuf) : Prop :=
  a.highPri = true ∧ m.holding = true ∧
    (c.st.sndWnd.toInt ≤ 0 ∨ a.len.toNat % 2 ^ 16 = 0)

def SendOk (maxConcurrency : Nat) (a : SendArgs) (stream : Option Cx) : Prop :=
  ∀ c m, stream = some c → a.mbuf = some m → SendReaches maxConcurrency a c m →
    SendFits a c m ∨ SendHeld a c m

/-! ## sb_put -/

namespace SndBuff

variable {b : SndBuff} {m : SndMbuf}

theorem sbPut_appended (high : b.husndQ.Indexed) (low : b.usndQ.Indexed) (some_ : b.toPut m ≠ 0)
    (room : b.targetFull m = false) :
    (b.sbPut m).1 = b.toPut m ∧ b.Appended (b.sbPut m).2 (b.stamped m) := by
  unfold sbPut
  dsimp only
  rw [if_neg some_]
  obtain ⟨id, payloadLen, tcpSeq, priority, mbufState⟩ := m
  cases priority with
  | true =>
      have contents := high.contents_snoc room (b.stamped ⟨id, payloadLen, tcpSeq, true, mbufState⟩)
      have added := CircularQueue.dirCirqAdd_room room
        (b.stamped ⟨id, payloadLen, tcpSeq, true, mbufState⟩)
      simp only [stamped] at contents added ⊢
      rw [added] at contents
      simp only [added, if_true]
      exact ⟨trivial, ⟨contents, by simp, rfl⟩⟩
  | false =>
      have contents := low.contents_snoc room (b.stamped ⟨id, payloadLen, tcpSeq, false, mbufState⟩)
      have added := CircularQueue.dirCirqAdd_room room
        (b.stamped ⟨id, payloadLen, tcpSeq, false, mbufState⟩)
      simp only [stamped] at contents added ⊢
      rw [added] at contents
      simp only [added, if_true, Bool.false_eq_true, if_false]
      exact ⟨trivial, ⟨by simp, contents, rfl⟩⟩

/-- A reservation that is not nothing moves `next_seq`. -/
theorem reserve_ne (some_ : b.toPut m ≠ 0) : b.reserve m ≠ b := by
  intro same
  have next : b.nextSeq + BitVec.ofNat 32 (b.toPut m) = b.nextSeq := congrArg nextSeq same
  have none_ : BitVec.ofNat 32 (b.toPut m) = 0 := by
    rw [← add_sub_cancel_left b.nextSeq (BitVec.ofNat 32 (b.toPut m)), next, sub_self]
  have bound : b.toPut m < 2 ^ 32 := lt_of_le_of_lt (min_le_right _ _) (BitVec.isLt _)
  have value := congrArg BitVec.toNat none_
  rw [BitVec.toNat_ofNat, Nat.mod_eq_of_lt bound] at value
  exact some_ value

end SndBuff

/-! ## send_from_user -/

namespace Cx

/-- The stream after `sb_put` was called: the window is measured anew, whatever it returned. -/
def afterPut (c : Cx) (b : SndBuff) : Cx :=
  c.modify fun s => { s with sndbuf := b, sndWnd := b.size - b.sbLen }

/-- The ends of `send_from_user`. -/
inductive SendEnd (m : SndMbuf) (c : Cx) : Int × Cx → Prop
  | idle (idle : c.st.sndWnd.toInt ≤ 0 ∨ m.payloadLen = 0) : SendEnd m c (failed, c)
  | noRoom (window : 0 < c.st.sndWnd.toInt) (some_ : m.payloadLen ≠ 0)
      (none_ : c.st.sndbuf.size - c.st.sndbuf.sbLen = 0) :
      SendEnd m c (failed, c.afterPut c.st.sndbuf)
  | ringFull (window : 0 < c.st.sndWnd.toInt) (some_ : m.payloadLen ≠ 0)
      (reserved : c.st.sndbuf.toPut m ≠ 0) (full : c.st.sndbuf.targetFull m = true) :
      SendEnd m c (failed, c.afterPut (c.st.sndbuf.reserve m))
  | put (window : 0 < c.st.sndWnd.toInt) (some_ : c.st.sndbuf.toPut m ≠ 0)
      (room : c.st.sndbuf.targetFull m = false) (b : SndBuff)
      (appended : c.st.sndbuf.Appended b (c.st.sndbuf.stamped m)) :
      SendEnd m c ((c.st.sndbuf.toPut m : Int), c.afterPut b)

theorem sendFromUser_end (m : SndMbuf) (c : Cx) (high : c.st.sndbuf.husndQ.Indexed)
    (low : c.st.sndbuf.usndQ.Indexed) : SendEnd m c (c.sendFromUser m) := by
  unfold sendFromUser
  by_cases idle : min c.st.sndWnd.toInt m.payloadLen ≤ 0
  · rw [if_pos idle]
    rcases min_le_iff.mp idle with closed | none_
    · exact .idle (.inl closed)
    · exact .idle (.inr (by omega))
  rw [if_neg idle]
  have window : 0 < c.st.sndWnd.toInt := by omega
  have some_ : m.payloadLen ≠ 0 := by omega
  by_cases none_ : c.st.sndbuf.toPut m = 0
  · rw [SndBuff.sbPut_refused none_]
    have room : c.st.sndbuf.size - c.st.sndbuf.sbLen = 0 := by
      rw [SndBuff.toPut] at none_
      have value : (c.st.sndbuf.size - c.st.sndbuf.sbLen).toNat = 0 := by omega
      exact BitVec.eq_of_toNat_eq value
    exact .noRoom window some_ room
  cases room : c.st.sndbuf.targetFull m with
  | true =>
      rw [SndBuff.sbPut_full none_ room]
      exact .ringFull window some_ none_ room
  | false =>
      obtain ⟨ret, appended⟩ := SndBuff.sbPut_appended high low none_ room
      generalize c.st.sndbuf.sbPut m = result at ret appended
      obtain ⟨r, b⟩ := result
      dsimp only at ret appended ⊢
      rw [ret, if_neg (by omega)]
      exact .put window none_ room b appended

end Cx

/-! ## The call from send_from_user on -/

section Reached

variable {a : SendArgs} {c : Cx} {m : UserMbuf}

theorem sendSide_afterPut (b : SndBuff) :
    sendSide (some (c.afterPut b)) = some (b, b.size - b.sbLen) := rfl

/-- A call that goes into `q_free_mbuf` returns, with the mbuf, when the flag stops it there. -/
theorem qFreeMbufOfCore_iff (mbuf : a.mbuf = some m) (talloc : m.mbufState = .talloc) (c' : Cx)
    (m' : UserMbuf) (used : m'.priority = a.highPri ∧ m'.holding = m.holding) :
    AllOrNothing a (some c) (c'.qFreeMbufOfCore failed m') ↔
      a.highPri = true ∧ m.holding = true ∧ sendSide (some c') = sendSide (some c) ∧
        (m'.mbufState = .free ∨ m'.mbufState = .talloc) := by
  have negative : ¬ (0 : Int) < failed := by decide
  unfold Cx.qFreeMbufOfCore
  rw [used.1, used.2]
  cases kept : a.highPri && m.holding with
  | true =>
      rw [Bool.and_eq_true] at kept
      rw [if_pos rfl]
      constructor
      · intro good
        have quiet : failed ≤ 0 := by decide
        refine ⟨kept.1, kept.2, good.untouched failed rfl quiet,
          (good.owned failed rfl quiet { m' with holding := false } rfl).imp_right ?_⟩
        rintro ⟨m'', same, state⟩
        rw [mbuf] at same
        cases same
        exact state.trans talloc
      · rintro ⟨-, -, same, owned⟩
        refine ⟨fun _ => Option.some_ne_none _, fun n ret positive => ?_, fun _ _ _ => same,
          fun _ _ _ m'' now => ?_⟩
        · cases ret
          exact absurd positive negative
        · cases now
          exact owned.imp_right fun state => ⟨m, mbuf, state.trans talloc.symm⟩
  | false =>
      rw [if_neg Bool.false_ne_true]
      constructor
      · intro good
        refine absurd rfl (good.returns fun m'' same => ?_)
        rw [mbuf] at same
        cases same
        exact talloc
      · rintro ⟨pri, held, -⟩
        rw [pri, held] at kept
        exact Bool.noConfusion kept

/-- The mbuf as `sb_put` stamps it, where it takes all of it. -/
theorem stamped_whole (whole : c.st.sndbuf.toPut (a.cut m).toSndMbuf = a.len.toNat) :
    c.st.sndbuf.stamped (a.cut m).toSndMbuf =
      { m.toSndMbuf with
        payloadLen := a.len.toNat
        priority := a.highPri
        tcpSeq := c.st.sndbuf.nextSeq
        mbufState := .tbuffed } := by
  rw [SndBuff.stamped, whole]
  rfl

theorem usedBySend_flags :
    (c.usedBySend (a.cut m)).priority = a.highPri ∧
      (c.usedBySend (a.cut m)).holding = m.holding := by
  unfold Cx.usedBySend
  split <;> exact ⟨rfl, rfl⟩

theorem sendUserMbuf_iff (env : Env) (mbuf : a.mbuf = some m) (talloc : m.mbufState = .talloc)
    (some_ : a.len ≠ 0) (high : c.st.sndbuf.husndQ.Indexed) (low : c.st.sndbuf.usndQ.Indexed) :
    AllOrNothing a (some c) (c.sendUserMbuf env (a.cut m) a.highPri) ↔
      SendFits a c m ∨ SendHeld a c m := by
  have positive : a.len.toNat ≠ 0 := fun none_ => some_ (BitVec.eq_of_toNat_eq none_)
  have cut : (a.cut m).payloadLen = a.len.toNat % 2 ^ 16 := rfl
  have negative : ¬ (0 : Int) < failed := by decide
  unfold Cx.sendUserMbuf
  have ended := c.sendFromUser_end (a.cut m).toSndMbuf high low
  generalize c.sendFromUser (a.cut m).toSndMbuf = result at ended
  cases ended with
  | idle idle =>
      dsimp only
      rw [if_neg negative, qFreeMbufOfCore_iff mbuf talloc _ _ usedBySend_flags]
      rw [cut] at idle
      constructor
      · rintro ⟨pri, held, -⟩
        exact .inr ⟨pri, held, idle⟩
      · rintro (fits | ⟨pri, held, -⟩)
        · exfalso
          have window := fits.window
          have short := fits.short
          rcases idle with closed | none_
          · omega
          · rw [Nat.mod_eq_of_lt short] at none_
            exact positive none_
        · refine ⟨pri, held, rfl, .inr ?_⟩
          have early : min c.st.sndWnd.toInt (a.cut m).payloadLen ≤ 0 := by
            rw [cut]
            omega
          rw [Cx.usedBySend, if_pos (.inl early)]
          exact talloc
  | noRoom window some_ none_ =>
      dsimp only
      rw [if_neg negative, qFreeMbufOfCore_iff mbuf talloc _ _ usedBySend_flags]
      constructor
      · rintro ⟨-, -, same, -⟩
        rw [sendSide_afterPut, none_] at same
        have measured : (0 : U32) = c.st.sndWnd := congrArg Prod.snd (Option.some.inj same)
        rw [← measured] at window
        exact absurd window (by decide)
      · rintro (fits | ⟨-, -, closed | short⟩)
        · have room := fits.room
          rw [none_] at room
          exact absurd (Nat.le_zero.mp room) positive
        · omega
        · exact absurd short some_
  | ringFull window some_ reserved full =>
      dsimp only
      rw [if_neg negative, qFreeMbufOfCore_iff mbuf talloc _ _ usedBySend_flags]
      constructor
      · rintro ⟨-, -, same, -⟩
        rw [sendSide_afterPut] at same
        exact absurd (congrArg Prod.fst (Option.some.inj same)) (SndBuff.reserve_ne reserved)
      · rintro (fits | ⟨-, -, closed | short⟩)
        · exact Bool.noConfusion (full.symm.trans fits.ring)
        · omega
        · exact absurd short some_
  | put window some_ room b appended =>
      have sent : (0 : Int) < c.st.sndbuf.toPut (a.cut m).toSndMbuf := by omega
      have payload : (a.cut m).payloadLen ≠ 0 := fun none_ => some_ (by
        rw [SndBuff.toPut, none_, Nat.zero_min])
      have buffer : ((c.afterPut b).sendEventAdd env a.highPri).st.sndbuf = b := by
        unfold Cx.sendEventAdd
        split <;> rfl
      dsimp only
      rw [if_pos sent]
      constructor
      · intro good
        obtain ⟨whole, -⟩ := good.whole _ rfl sent
        have whole' : c.st.sndbuf.toPut (a.cut m).toSndMbuf = a.len.toNat := by omega
        rw [SndBuff.toPut, cut] at whole'
        exact .inl ⟨window, by omega, by omega, room⟩
      · rintro (fits | ⟨-, -, closed | none_⟩)
        · have short := fits.short
          have inside := fits.room
          have whole : c.st.sndbuf.toPut (a.cut m).toSndMbuf = a.len.toNat := by
            rw [SndBuff.toPut, cut, Nat.mod_eq_of_lt short]
            exact Nat.min_eq_left inside
          refine ⟨fun _ => Option.some_ne_none _, fun n ret _ => ?_, fun n ret refused => ?_,
            fun n ret refused => ?_⟩
          · cases ret
            refine ⟨by rw [whole], c, _, m, rfl, rfl, mbuf, ?_⟩
            rw [buffer, ← stamped_whole whole]
            exact appended
          · cases ret
            omega
          · cases ret
            omega
        · omega
        · exact absurd none_ payload

end Reached

/-- A call that is refused before it touched anything. -/
theorem allOrNothing_refused {a : SendArgs} {stream : Option Cx} {n : Int} {mbuf' : Option UserMbuf}
    (refused : n ≤ 0)
    (left : ∀ m', mbuf' = some m' → ∃ m, a.mbuf = some m ∧ m'.mbufState = m.mbufState) :
    AllOrNothing a stream ⟨some n, stream, mbuf'⟩ where
  returns _ := Option.some_ne_none _
  whole n' ret positive := by
    cases ret
    omega
  untouched _ _ _ := rfl
  owned _ _ _ m' now := .inr (left m' now)

/-- **Exactly when a call of `_q_tcp_send` is all or nothing**: for every socket, stream, mbuf and
length, where the two rings of the stream have their indices in range. -/
theorem send_all_or_nothing (env : Env) (maxConcurrency : Nat) (a : SendArgs) (stream : Option Cx)
    (rings : ∀ c, stream = some c → c.st.sndbuf.husndQ.Indexed ∧ c.st.sndbuf.usndQ.Indexed) :
    AllOrNothing a stream (userSend env maxConcurrency a stream) ↔
      SendOk maxConcurrency a stream := by
  unfold userSend
  by_cases outside : a.sockid < 0 ∨ maxConcurrency ≤ a.sockid
  · rw [if_pos outside]
    refine iff_of_true (allOrNothing_refused (by decide) fun m' now => ⟨m', now, rfl⟩) ?_
    intro c m _ _ reaches
    have inside := reaches.sockid
    omega
  rw [if_neg outside]
  cases stream with
  | none =>
      refine iff_of_true (allOrNothing_refused (by decide) fun m' now => ⟨m', now, rfl⟩) ?_
      intro c m here
      cases here
  | some c =>
      obtain ⟨high, low⟩ := rings c rfl
      cases mbuf : a.mbuf with
      | none =>
          refine iff_of_true (allOrNothing_refused (by decide) fun m' now => ?_) ?_
          · cases now
          · intro c m _ here
            rw [mbuf] at here
            cases here
      | some m =>
          have ok_iff : SendOk maxConcurrency a (some c) ↔
              (SendReaches maxConcurrency a c m → SendFits a c m ∨ SendHeld a c m) := by
            constructor
            · intro ok
              exact ok c m rfl mbuf
            · intro ok c' m' same same'
              rw [mbuf] at same'
              cases same
              cases same'
              exact ok
          rw [ok_iff]
          dsimp only
          by_cases talloc : m.mbufState = .talloc
          swap
          · rw [if_pos talloc]
            refine iff_of_true ⟨fun all => absurd (all m mbuf) talloc, ?_, ?_, ?_⟩
              fun reaches => absurd reaches.talloc talloc
            · intro n ret
              cases ret
            · intro n ret
              cases ret
            · intro n ret
              cases ret
          rw [if_neg (not_not.mpr talloc)]
          have left : ∀ m', some (a.cut m) = some m' →
              ∃ m, a.mbuf = some m ∧ m'.mbufState = m.mbufState := by
            intro m' now
            cases now
            exact ⟨m, mbuf, rfl⟩
          by_cases wrong : c.st.state ≠ .established ∧ c.st.state ≠ .closeWait
          · rw [if_pos wrong]
            exact iff_of_true (allOrNothing_refused (by decide) left)
              fun reaches => (reaches.sends.elim wrong.1 wrong.2).elim
          rw [if_neg wrong]
          by_cases none_ : a.len = 0
          · rw [if_pos none_]
            exact iff_of_true (allOrNothing_refused (by decide) left)
              fun reaches => absurd none_ reaches.some_
          rw [if_neg none_]
          have reaches : SendReaches maxConcurrency a c m := by
            refine ⟨by omega, talloc, ?_, none_⟩
            by_contra neither
            exact wrong (not_or.mp neither)
          exact (sendUserMbuf_iff env mbuf talloc none_ high low).trans
            ⟨fun ok _ => ok, fun ok => ok reaches⟩

/-- A call that returns did to the stream what `qTcpSend` says. -/
theorem userSend_qTcpSend (env : Env) {maxConcurrency : Nat} {a : SendArgs} {c : Cx} {m : UserMbuf}
    (mbuf : a.mbuf = some m) (sockid : 0 ≤ a.sockid ∧ a.sockid < maxConcurrency) {n : Int}
    (returned : (userSend env maxConcurrency a (some c)).ret = some n) :
    ∃ c', (userSend env maxConcurrency a (some c)).stream = some c' ∧
      c.qTcpSend env m.toSndMbuf a.len a.highPri = (n, c') := by
  unfold userSend at returned ⊢
  rw [if_neg (by omega), mbuf] at returned ⊢
  unfold Cx.qTcpSend
  dsimp only at returned ⊢
  by_cases talloc : m.mbufState ≠ .talloc
  · rw [if_pos talloc] at returned
    cases returned
  rw [if_neg talloc] at returned ⊢
  rw [if_neg talloc]
  by_cases wrong : c.st.state ≠ .established ∧ c.st.state ≠ .closeWait
  · rw [if_pos wrong] at returned ⊢
    rw [if_pos wrong]
    cases returned
    exact ⟨c, rfl, rfl⟩
  rw [if_neg wrong] at returned ⊢
  rw [if_neg wrong]
  by_cases none_ : a.len = 0
  · rw [if_pos none_] at returned ⊢
    rw [if_pos none_]
    cases returned
    exact ⟨c, rfl, rfl⟩
  rw [if_neg none_] at returned ⊢
  rw [if_neg none_]
  unfold Cx.sendUserMbuf at returned ⊢
  dsimp only at returned ⊢
  generalize c.sendFromUser _ = result at returned ⊢
  obtain ⟨ret, c'⟩ := result
  dsimp only at returned ⊢
  by_cases sent : 0 < ret
  · rw [if_pos sent] at returned ⊢
    rw [if_pos sent]
    cases returned
    exact ⟨_, rfl, rfl⟩
  · rw [if_neg sent] at returned ⊢
    rw [if_neg sent]
    unfold Cx.qFreeMbufOfCore at returned ⊢
    split at returned
    · rename_i held
      rw [if_pos held]
      cases returned
      exact ⟨_, rfl, rfl⟩
    · cases returned

/-- A connection that was opened with room for 2800 bytes. -/
def sendingCx : Cx :=
  { st := { state := .established, sndbuf := SndBuff.zero.sbInit 2 0, sndWnd := 2800 } }

def wmbuf (id : MbufId) : UserMbuf := { id := id, payloadLen := 0 }

theorem sendingCx_rings : ∀ c, some sendingCx = some c →
    c.st.sndbuf.husndQ.Indexed ∧ c.st.sndbuf.usndQ.Indexed := by
  intro c same
  cases same
  exact ⟨(CircularQueue.dirCirqInit_represents _).indexed,
    (CircularQueue.dirCirqInit_represents _).indexed⟩

theorem send_all_or_nothing_plain :
    AllOrNothing ⟨3, some (wmbuf 1), 1460, false⟩ (some sendingCx)
        (userSend {} 8 ⟨3, some (wmbuf 1), 1460, false⟩ (some sendingCx)) ↔
      SendOk 8 ⟨3, some (wmbuf 1), 1460, false⟩ (some sendingCx) :=
  send_all_or_nothing {} 8 _ _ sendingCx_rings

/-- 2801 bytes into a buffer with room for 2800. -/
theorem send_cut_short : ¬ ∀ (env : Env) (maxConcurrency : Nat) (a : SendArgs) (stream : Option Cx),
    (∀ c, stream = some c → c.st.sndbuf.husndQ.Indexed ∧ c.st.sndbuf.usndQ.Indexed) →
    AllOrNothing a stream (userSend env maxConcurrency a stream) := by
  intro all
  have good := all {} 8 ⟨3, some (wmbuf 1), 2801, false⟩ (some sendingCx) sendingCx_rings
  have ret : (userSend {} 8 ⟨3, some (wmbuf 1), 2801, false⟩ (some sendingCx)).ret = some 2800 := by
    decide
  have whole := (good.whole 2800 ret (by decide)).1
  exact absurd whole (by decide)

end QStack
