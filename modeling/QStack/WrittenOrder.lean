/-
# QStack.WrittenOrder -- mbufs go out in the order in which they were written

What the application has written stands in a line: first the mbufs that have been sent, in the order
of their first transmission, then those that wait in the ring (`Lined`).  Acknowledgements and
timeouts move mbufs between the lists of sent mbufs only, a send joins the line at its end, and a
flush moves its middle.  Two things break the line: an mbuf of high priority overtakes, and a flush
loses the mbuf that does not fit into its window.  `InTurn` excludes them.

With that, what the application of the peer has read is a prefix of what was written
(`read_prefix_of_written`).
-/
import QStack.Transfer
import QStack.AckTrim
import QStack.OrderlyClose

namespace QStack

set_option autoImplicit false

/-! ## First transmissions -/

/-- The mbufs that were sent, with the bytes they carried, in the order of their first packets. -/
def firstSent : List Sent → List (MbufId × Nat)
  | [] => []
  | p :: older =>
      match p.data with
      | none => firstSent older
      | some id =>
          if transmitted id older then firstSent older else firstSent older ++ [(id, p.len)]

/-- The bytes of mbufs, one after the other. -/
def mbufBytes (content : MbufId → Nat → BitVec 8) (ms : List (MbufId × Nat)) : List (BitVec 8) :=
  ms.flatMap fun a => slice (content a.1) 0 a.2

section First

variable {sent : List Sent} {p : Sent}

theorem firstSent_control (none : p.data = none) : firstSent (p :: sent) = firstSent sent := by
  rw [firstSent, none]

theorem firstSent_again {id : MbufId} (data : p.data = some id)
    (known : transmitted id sent = true) : firstSent (p :: sent) = firstSent sent := by
  rw [firstSent, data]
  exact if_pos known

theorem firstSent_new {id : MbufId} (data : p.data = some id)
    (new : transmitted id sent = false) :
    firstSent (p :: sent) = firstSent sent ++ [(id, p.len)] := by
  rw [firstSent, data]
  exact if_neg (by rw [new]; decide)

theorem mem_firstSent {id : MbufId} (known : transmitted id sent = true) :
    id ∈ (firstSent sent).map Prod.fst := by
  induction sent with
  | nil => cases known
  | cons p older ih =>
      rw [firstSent]
      rw [transmitted, List.any_cons, ← transmitted, Bool.or_eq_true, beq_iff_eq] at known
      cases data : p.data with
      | none =>
          rw [data] at known
          exact ih (known.resolve_left (by simp))
      | some other =>
          dsimp only
          split
          · rename_i again
            refine ih (known.elim (fun now => ?_) fun old => old)
            rw [data, Option.some.injEq] at now
            rwa [← now]
          · rw [List.map_append, List.mem_append]
            refine known.symm.imp ih fun now => ?_
            rw [data, Option.some.injEq] at now
            simp [now]

theorem sentBytes_eq (content : MbufId → Nat → BitVec 8) (sent : List Sent) :
    sentBytes content sent = mbufBytes content (firstSent sent) := by
  induction sent with
  | nil => rfl
  | cons p older ih =>
      rw [sentBytes, firstSent]
      cases p.data with
      | none => exact ih
      | some id =>
          dsimp only
          split
          · exact ih
          · rw [ih]
            simp [mbufBytes]

end First

/-! ## The line -/

/-- What an acknowledgement or a timeout may do to the send buffer: the rings stay, and an mbuf
that is on a list of sent mbufs was on one before. -/
structure SndBuff.Settles (b b' : SndBuff) : Prop where
  high : b'.husndQ = b.husndQ
  low : b'.usndQ = b.usndQ
  sent : ∀ id ∈ b'.sentIds, id ∈ b.sentIds

namespace SndBuff

variable {b b' b'' : SndBuff}

theorem Settles.refl (b : SndBuff) : b.Settles b := ⟨rfl, rfl, fun _ => id⟩

theorem Settles.trans (first : b.Settles b') (second : b'.Settles b'') : b.Settles b'' where
  high := second.high.trans first.high
  low := second.low.trans first.low
  sent := fun id inside => first.sent id (second.sent id inside)

theorem reset_settles (b : SndBuff) : b.Settles b.sbResetRetrans.2 := by
  have ids : b.sbResetRetrans.2.sentIds = b.sentIds := Accounts.sentIds_reset b
  rcases b.sbResetRetrans_cases with ⟨same, -⟩ | ⟨-, -, moved⟩
  · rw [same]
    exact .refl b
  · refine ⟨?_, ?_, fun id inside => ids ▸ inside⟩
    · rw [moved]
    · rw [moved]

theorem removeAcked_settles (b : SndBuff) (ackSeq : Seq) :
    b.Settles (b.sbRemoveAcked ackSeq).2 := by
  refine ⟨rfl, rfl, fun id inside => ?_⟩
  obtain ⟨m, kept, rfl⟩ := List.mem_map.mp inside
  refine List.mem_map_of_mem ?_
  rcases List.mem_append.mp kept with uack | retrans
  · exact List.mem_append_left _ ((removeAcked_suffix ackSeq _).subset uack)
  · exact List.mem_append_right _ ((removeAcked_suffix ackSeq _).subset retrans)

end SndBuff

theorem Core.onAck_settles (fast : Bool) (ackSeq : Seq) (k : Core) :
    k.sndbuf.Settles (k.onAck fast ackSeq).sndbuf := by
  have rollback : k.sndbuf.Settles (k.rollback ackSeq).sndbuf := by
    unfold Core.rollback
    split
    · exact SndBuff.reset_settles _
    · exact .refl _
  have recover : ∀ k : Core, (k.recover ackSeq).sndbuf = k.sndbuf := by
    intro k
    unfold Core.recover
    split <;> rfl
  have retire : ∀ k : Core, k.sndbuf.Settles (k.retire ackSeq).sndbuf := by
    intro k
    unfold Core.retire
    split
    · exact .refl _
    · exact SndBuff.removeAcked_settles _ _
  unfold Core.onAck
  split
  · exact .refl _
  · refine SndBuff.Settles.trans ?_ (retire _)
    rw [recover]
    split
    · exact rollback
    · exact .refl _

/-- All that was accepted, the oldest first: what was sent, and then what waits in the ring `N`.
Nothing waits with high priority. -/
structure Lined (acc : List (MbufId × Nat)) (b : SndBuff) (sent : List Sent) (N : List SndMbuf) :
    Prop where
  holds : b.Holds [] N
  order : acc.reverse = firstSent sent ++ N.map SndBuff.tag
  payload : ∀ a ∈ acc, a.2 ≠ 0
  nodup : (acc.map Prod.fst).Nodup
  known : ∀ id ∈ b.sentIds, transmitted id sent = true

namespace Lined

variable {acc : List (MbufId × Nat)} {b b' : SndBuff} {sent : List Sent} {N : List SndMbuf}

theorem settles (lined : Lined acc b sent N) (settles : b.Settles b') : Lined acc b' sent N :=
  { lined with
    holds := lined.holds.congr settles.high settles.low
    known := fun id inside => lined.known id (settles.sent id inside) }

/-- A packet without data. -/
theorem control (lined : Lined acc b sent N) {p : Sent} (none : p.data = none) :
    Lined acc b (p :: sent) N :=
  { lined with
    order := by rw [firstSent_control none]; exact lined.order
    known := fun id inside => by
      rw [transmitted, List.any_cons, ← transmitted, lined.known id inside, Bool.or_true] }

/-- What waits has not been sent. -/
theorem unsent (lined : Lined acc b sent N) {m : SndMbuf} (waits : m ∈ N) :
    transmitted m.id sent = false := by
  rw [Bool.eq_false_iff]
  intro known
  have ids : ((firstSent sent ++ N.map SndBuff.tag).map Prod.fst).Nodup := by
    rw [← lined.order, List.map_reverse, List.nodup_reverse]
    exact lined.nodup
  rw [List.map_append, List.nodup_append] at ids
  refine ids.2.2 m.id (mem_firstSent known) m.id ?_ rfl
  exact List.mem_map_of_mem (List.mem_map_of_mem (f := SndBuff.tag) waits)

theorem written (lined : Lined acc b sent N) {m : SndMbuf} (waits : m ∈ N) :
    SndBuff.tag m ∈ acc := by
  rw [← List.mem_reverse, lined.order]
  exact List.mem_append_right _ (List.mem_map_of_mem waits)

/-- A put without priority: refused, or at the end of the line. -/
theorem put (lined : Lined acc b sent N) {m : SndMbuf} (low : m.priority = false)
    (fresh : ∀ a ∈ acc, a.1 ≠ m.id) :
    ∃ N', Lined (if (b.sbPut m).1 ≤ 0 then acc else (m.id, (b.sbPut m).1.toNat) :: acc)
      (b.sbPut m).2 sent N' := by
  by_cases none : b.toPut m = 0
  · rw [SndBuff.sbPut_refused none]
    exact ⟨N, lined⟩
  cases full : b.targetFull m with
  | true =>
      rw [SndBuff.sbPut_full none full]
      exact ⟨N, { lined with holds := lined.holds.congr rfl rfl }⟩
  | false =>
      have room : b.usndQ.cirqFull = false := by
        rwa [SndBuff.targetFull, low, if_neg Bool.false_ne_true] at full
      obtain ⟨ok, rep⟩ := CircularQueue.dirCirqAdd_success lined.holds.low room (b.stamped m)
      have put : b.sbPut m = ((b.toPut m : Int), { b with
          usndQ := (b.usndQ.dirCirqAdd (b.stamped m)).2
          nextSeq := b.nextSeq + BitVec.ofNat 32 (b.toPut m) }) := by
        rw [SndBuff.stamped, low] at ok ⊢
        unfold SndBuff.sbPut
        dsimp only
        rw [if_neg none, low, if_neg Bool.false_ne_true]
        generalize b.usndQ.dirCirqAdd _ = added at ok ⊢
        obtain ⟨r, q⟩ := added
        simp only at ok
        subst ok
        rfl
      rw [put]
      dsimp only
      rw [if_neg (by omega), Int.toNat_natCast]
      refine ⟨N ++ [b.stamped m], ⟨lined.holds.high, rep⟩, ?_, ?_, ?_, lined.known⟩
      · rw [List.reverse_cons, lined.order, List.map_append, List.append_assoc]
        rfl
      · intro a inside
        rcases List.mem_cons.mp inside with rfl | old
        · exact none
        · exact lined.payload a old
      · refine List.nodup_cons.mpr ⟨fun old => ?_, lined.nodup⟩
        obtain ⟨a, inside, same⟩ := List.mem_map.mp old
        exact fresh a inside same

end Lined

/-! ## The flush -/

namespace SndBuff

/-- What the flush takes when nothing waits with high priority. -/
theorem popWaiting_low {b : SndBuff} {N : List SndMbuf} (holds : b.Holds [] N) :
    (b.popWaiting = (none, b) ∧ b.retransList = [] ∧ N = []) ∨
      (∃ m rest, b.retransList = m :: rest ∧
        b.popWaiting = (some m, { b with retransList := rest })) ∨
      ∃ m N' q, b.retransList = [] ∧ N = m :: N' ∧ q.Represents N' ∧
        b.popWaiting = (some m, { b with usndQ := q }) := by
  obtain ⟨low, high, uack, retrans, size, head, next⟩ := b
  obtain ⟨repHigh, repLow⟩ := holds
  dsimp only at repHigh repLow ⊢
  unfold popWaiting
  dsimp only
  cases retrans with
  | cons m rest => exact .inr (.inl ⟨m, rest, rfl, rfl⟩)
  | nil =>
      dsimp only
      rw [CircularQueue.dirCirqGet_nil repHigh]
      dsimp only
      cases N with
      | nil =>
          rw [CircularQueue.dirCirqGet_nil repLow]
          exact .inl ⟨rfl, rfl, rfl⟩
      | cons m N' =>
          obtain ⟨front, later⟩ := CircularQueue.dirCirqGet_cons repLow
          generalize low.dirCirqGet = got at front later ⊢
          obtain ⟨item, q⟩ := got
          subst front
          exact .inr (.inr ⟨m, N', q, rfl, rfl, later, rfl⟩)

end SndBuff

namespace Lined

variable {acc : List (MbufId × Nat)}

/-- An mbuf leaves the waiting line of a flush: it is behind the window, or sent. -/
theorem popped {b b' : SndBuff} {sent : List Sent} {N : List SndMbuf}
    (lined : Lined acc b sent N) {m : SndMbuf} (pop : b.popWaiting = (some m, b')) :
    (m.payloadLen = 0 → b.retransList = m :: b'.retransList ∧ Lined acc b' sent N) ∧
      ∀ seq, ∃ N', b.retransList ++ N = m :: (b'.retransList ++ N') ∧
        Lined acc
          { b' with uackList := b'.uackList ++ [{ m with tcpSeq := seq, mbufState := .sent }] }
          ({ seq := seq, len := m.payloadLen, data := some m.id } :: sent) N' := by
  rcases SndBuff.popWaiting_low lined.holds with
    ⟨none, -⟩ | ⟨m', rest, lost, some⟩ | ⟨m', N', q, empty, rfl, rep, some⟩
  · rw [none] at pop
    cases pop
  · rw [some] at pop
    cases pop
    have old : transmitted m.id sent = true := by
      refine lined.known m.id (List.mem_map_of_mem (List.mem_append_right _ ?_))
      rw [lost]
      exact List.mem_cons_self
    have left : ∀ id ∈ SndBuff.sentIds { b with retransList := rest }, id ∈ b.sentIds := by
      intro id inside
      obtain ⟨m', kept, rfl⟩ := List.mem_map.mp inside
      refine List.mem_map_of_mem ?_
      rw [lost]
      exact (List.Sublist.append_left (List.sublist_cons_self m rest) _).subset kept
    refine ⟨fun _ => ⟨lost, lined.settles ⟨rfl, rfl, left⟩⟩, fun seq =>
      ⟨N, by rw [lost]; rfl, { lined with
        holds := lined.holds.congr rfl rfl
        order := by rw [firstSent_again rfl old]; exact lined.order
        known := ?_ }⟩⟩
    intro id inside
    rw [transmitted, List.any_cons, ← transmitted, Bool.or_eq_true]
    obtain ⟨m', kept, rfl⟩ := List.mem_map.mp inside
    refine .inr ?_
    rcases List.mem_append.mp kept with uack | retrans
    · rcases List.mem_append.mp uack with before | now
      · exact lined.known _ (List.mem_map_of_mem (List.mem_append_left _ before))
      · rw [List.mem_singleton.mp now]
        exact old
    · exact lined.known _ (left _ (List.mem_map_of_mem (List.mem_append_right _ retrans)))
  · rw [some] at pop
    cases pop
    have new : transmitted m.id sent = false := lined.unsent List.mem_cons_self
    refine ⟨fun blank => absurd blank (lined.payload _ (lined.written List.mem_cons_self)),
      fun seq => ⟨N', by rw [empty]; rfl, { lined with
        holds := ⟨lined.holds.high, rep⟩
        order := ?_
        known := ?_ }⟩⟩
    · rw [firstSent_new rfl new, lined.order, List.append_assoc]
      rfl
    · intro id inside
      rw [transmitted, List.any_cons, ← transmitted, Bool.or_eq_true, beq_iff_eq]
      obtain ⟨m', kept, rfl⟩ := List.mem_map.mp inside
      rcases List.mem_append.mp kept with uack | retrans
      · rcases List.mem_append.mp uack with before | now
        · exact .inr (lined.known _ (List.mem_map_of_mem (List.mem_append_left _ before)))
        · rw [List.mem_singleton.mp now]
          exact .inl rfl
      · exact .inr (lined.known _ (List.mem_map_of_mem (List.mem_append_right _ retrans)))

/-- A flush whose window takes all that waits. -/
theorem flushed {window : U32} {rounds : Nat} {v v' : View} (flushed : Flushed window rounds v v') :
    ∀ {N : List SndMbuf}, Lined acc v.sndbuf v.sent N →
      SndRun.Fits (v.sndUna + window) v.sndNxt (v.sndbuf.retransList ++ N) →
      ∃ N', Lined acc v'.sndbuf v'.sent N' := by
  induction flushed with
  | spent | refused => exact fun lined _ => ⟨_, lined⟩
  | empty _ pop =>
      intro N lined _
      rcases SndBuff.popWaiting_low lined.holds with
        ⟨none, -⟩ | ⟨m, _, -, some⟩ | ⟨m, _, _, -, -, -, some⟩
      · rw [none] at pop
        cases pop
        exact ⟨N, lined⟩
      · rw [some] at pop
        cases pop
      · rw [some] at pop
        cases pop
  | @skip rounds v v' m b _ pop blank _ ih =>
      intro N lined fits
      obtain ⟨lost, next⟩ := (lined.popped pop).1 blank
      rw [lost] at fits
      have after := fits.2
      rw [SndMbuf.len, blank, BitVec.add_zero] at after
      exact ih next after
  | @send rounds v v' m b _ pop payload inside _ ih =>
      intro N lined fits
      obtain ⟨N', waiting, next⟩ := (lined.popped pop).2 v.sndNxt
      rw [← View.sendData_sent v b payload] at next
      refine ih next ?_
      rw [waiting] at fits
      exact fits.2
  | @drop rounds v m b _ pop _ outside =>
      intro N lined fits
      obtain ⟨N', waiting, -⟩ := (lined.popped pop).2 0
      rw [waiting] at fits
      rw [View.outOfWindow, fits.1] at outside
      cases outside

end Lined

/-! ## A connection -/

namespace Conn

/-- Nothing is sent with high priority, and the window of a flush that goes on takes all that
waits. -/
def InTurn (s : Conn) (e : ConnEvent) : Prop :=
  match e.call with
  | .send _ highPri => highPri = false
  | .serveSend => s.served < s.cx.posted → s.st.state.flushes = true → s.st.isFinSent = false →
      s.st.sndbuf.sbLen ≠ 0 →
      SndRun.Fits (s.st.sndUna + s.st.sendWindow) s.st.sndNxt
        (s.st.sndbuf.retransList ++ s.st.sndbuf.usndQ.contents)
  | _ => True

instance InTurn.decidable (s : Conn) : ∀ e : ConnEvent, Decidable (s.InTurn e)
  | ⟨.send _ highPri, _, _⟩ => inferInstanceAs (Decidable (highPri = false))
  | ⟨.serveSend, _, _⟩ => inferInstanceAs (Decidable (_ → _ → _ → _ → _))
  | ⟨.packet _, _, _⟩ | ⟨.recv, _, _⟩ | ⟨.close, _, _⟩ | ⟨.handleClose, _, _⟩
  | ⟨.serveControl, _, _⟩ | ⟨.serveAck, _, _⟩ | ⟨.rto, _, _⟩ | ⟨.timewait, _, _⟩
  | ⟨.timeout, _, _⟩ => .isTrue trivial

/-- What was accepted stands in line. -/
def Stands (s : Conn) : Prop :=
  (∃ N, Lined s.accepted s.st.sndbuf s.view.sent N) ∧ ∀ a ∈ s.accepted, a.1 < s.fresh

/-- Other than a put, a call keeps the line if a flush does. -/
theorem Move.lined {s : Conn} {e : ConnEvent} {v : View} (move : Move s e.call v)
    {acc : List (MbufId × Nat)} {N : List SndMbuf} (inTurn : s.InTurn e)
    (other : ∀ len highPri, e.call ≠ .send len highPri)
    (lined : Lined acc s.st.sndbuf s.view.sent N) : ∃ N', Lined acc v.sndbuf v.sent N' := by
  generalize call : e.call = c at move
  cases move with
  | same | received | expired => exact ⟨N, lined⟩
  | put => exact absurd call (other _ _)
  | @syn seg _ _ move =>
      cases move with
      | same | listened | refused | rstAcked | bareAcked | simultaneous | noAck => exact ⟨N, lined⟩
      | synAcked => exact ⟨N, lined⟩
      | acked st k r _ _ _ core _ after =>
          have buff : st.core.sndbuf = s.st.sndbuf := by
            rw [core]
            rfl
          obtain ⟨state, -, same | ⟨fast, processed⟩⟩ := after
          · rw [same]
            exact ⟨N, lined.settles ⟨by rw [← buff]; rfl, by rw [← buff]; rfl,
              fun id inside => by rw [← buff]; exact inside⟩⟩
          · rw [processed]
            have settles := Core.onAck_settles fast seg.ackSeq st.core
            rw [buff] at settles
            exact ⟨N, lined.settles settles⟩
  | @data seg _ _ _ _ move =>
      cases move with
      | same | moved | reset => exact ⟨N, lined⟩
      | acked | closing | lastAck => exact ⟨N, lined.settles (Core.onAck_settles _ _ s.st.core)⟩
      | finWait1 =>
          have settles :=
            Core.onAck_settles (s.st.fastRetransmits seg) (s.st.adjustAck seg.ackSeq) s.st.core
          refine ⟨N, lined.settles (settles.trans ?_)⟩
          change SndBuff.Settles _ (Core.recover _ _).sndbuf
          unfold Core.recover
          split <;> exact .refl _
  | closed _ move => cases move <;> exact ⟨N, lined⟩
  | control _ move =>
      cases move with
      | same | rewound => exact ⟨N, lined⟩
      | syn | synAck | fin => exact ⟨N, lined.control rfl⟩
  | flushed due state open_ some flushed =>
      refine lined.flushed flushed ?_
      unfold InTurn at inTurn
      rw [call] at inTurn
      have fits := inTurn due state open_ some
      rwa [CircularQueue.contents_eq lined.holds.low] at fits
  | rto _ move =>
      cases move with
      | lost | control => exact ⟨N, lined⟩
      | retransmit => exact ⟨N, lined.settles (SndBuff.reset_settles _)⟩

theorem serve_stands {s : Conn} {e : ConnEvent} (stands : s.Stands) (inTurn : s.InTurn e) :
    (s.serve e).view.halted = true ∨ (s.serve e).Stands := by
  obtain ⟨⟨N, lined⟩, issued⟩ := stands
  by_cases sends : ∃ len highPri, e.call = .send len highPri
  · obtain ⟨len, highPri, call⟩ := sends
    refine .inr ?_
    have low : highPri = false := by
      unfold InTurn at inTurn
      rwa [call] at inTurn
    have served : s.serve e = { s with
        cx := (s.sendCall e len highPri).2
        fresh := s.fresh + 1
        accepted := if 0 < (s.sendCall e len highPri).1 then
          (s.fresh, (s.sendCall e len highPri).1.toNat) :: s.accepted else s.accepted } := by
      unfold serve
      dsimp only
      rw [call]
      rfl
    rw [served]
    constructor
    · rcases sendCall_cases s e len highPri with ⟨ret, refused, same⟩ | ⟨-, view, ret⟩
      · rw [same]
        dsimp only
        rw [if_neg (by omega)]
        exact ⟨N, lined⟩
      · obtain ⟨N', next⟩ := lined.put (m := s.offered len highPri) low
          fun a old => Nat.ne_of_lt (issued a old)
        refine ⟨N', ?_⟩
        change Lined _ (s.sendCall e len highPri).2.view.sndbuf
          (s.sendCall e len highPri).2.view.sent N'
        rw [view, ret]
        by_cases none : (s.st.sndbuf.sbPut (s.offered len highPri)).1 ≤ 0
        · rw [if_pos none] at next ⊢
          rw [if_neg (by decide)]
          exact next
        · rw [if_neg none] at next ⊢
          rw [if_pos (by omega)]
          exact next
    · dsimp only
      split
      · intro a inside
        rcases List.mem_cons.mp inside with rfl | old
        · exact Nat.lt_succ_self _
        · exact Nat.lt_succ_of_lt (issued a old)
      · exact fun a old => Nat.lt_succ_of_lt (issued a old)
  · have other : ∀ len highPri, e.call ≠ .send len highPri :=
      fun len highPri call => sends ⟨len, highPri, call⟩
    obtain ⟨accepted, fresh, -⟩ := serve_accepted (s := s) other
    refine (serve_move s e).imp_right fun move => ?_
    rw [Stands, accepted, fresh]
    exact ⟨move.lined inTurn other lined, issued⟩

/-- The invariant of a run. -/
def TurnInv (s : Conn) : Prop := s.view.halted = true ∨ s.Stands

theorem step_turnInv (s : Conn) (e : ConnEvent) (inv : s.TurnInv) (inTurn : s.InTurn e) :
    (s.step e).TurnInv := by
  unfold step
  split
  · exact inv
  · rename_i running
    rcases inv with halted | stands
    · rw [ended, halted] at running
      exact absurd rfl running
    · exact serve_stands stands inTurn

theorem Start.turnInv {n : Nat} {s : Conn} (start : Start n s) : s.TurnInv := by
  rcases start.handshaking with halted | handshaking
  · exact .inl halted
  · refine .inr ?_
    have syn := handshaking.view.toSyn
    have none : ∀ sent : List Sent, (∀ p ∈ sent, p.data = none) → firstSent sent = [] := by
      intro sent
      induction sent with
      | nil => exact fun _ => rfl
      | cons p older ih =>
          intro control
          rw [firstSent_control (control p List.mem_cons_self)]
          exact ih fun q inside => control q (.tail _ inside)
    have buff : s.st.sndbuf = SndBuff.zero.sbInit n (s.view.iss + 1) := syn.buff
    rw [Stands, handshaking.unused.1, buff]
    refine ⟨⟨[], SndBuff.sbInit_holds n _ _, ?_, nofun, List.nodup_nil, nofun⟩, nofun⟩
    rw [none _ (Syn.tiled syn).2.2]
    rfl

/-- What was sent so far is the beginning of what was accepted. -/
theorem Stands.sent_first {s : Conn} (stands : s.Stands) :
    firstSent s.view.sent <+: s.accepted.reverse := by
  obtain ⟨⟨N, lined⟩, -⟩ := stands
  exact ⟨N.map SndBuff.tag, lined.order.symm⟩

/-- **Nothing is sent before what was written before it.**  In every run of a connection in which no
mbuf has high priority and every flush that goes on has room for all that waits, the mbufs that
have been sent, in the order of their first packets, are the first of those that the sends
accepted, with the same bytes, in every state reached, until the process ends. -/
theorem sent_in_order {n : Nat} {s : Conn} (start : Start n s) (events : List ConnEvent)
    (inTurn : Lib.Run.Allowed step InTurn s events) :
    Lib.Run.Along step
      (fun t => t.view.halted = true ∨ firstSent t.view.sent <+: t.accepted.reverse) s events :=
  Lib.Run.Along.mono (fun _ inv => inv.imp_right Stands.sent_first) events s
    (Lib.Run.along_of_step step_turnInv events s start.turnInv inTurn)

/-- Two sends, a flush, a third send, a timeout, and the flush that sends the rest. -/
def written : List ConnEvent :=
  [{ call := .serveControl, avail := 1 },
   { call := .packet { seq := 7000, ackSeq := 101, syn := true, ack := true } },
   { call := .send 3 false }, { call := .send 2 false }, { call := .serveSend },
   { call := .send 4 false }, { call := .rto }, { call := .serveSend }]

theorem sent_in_order_written :
    Lib.Run.Along step
      (fun t => t.view.halted = true ∨ firstSent t.view.sent <+: t.accepted.reverse)
      (active 4 4 100 {}) written :=
  sent_in_order (.active 4 100 {}) written (by decide +kernel)

end Conn

/-! ## The system -/

namespace Transfer

variable {content : MbufId → Nat → BitVec 8} {n : Nat} {t : Transfer}

/-- The sender keeps the line. -/
def InTurn (t : Transfer) : Event → Prop
  | .sender e => t.sender.InTurn e
  | .deliver _ _ _ | .read | .free _ => True

instance InTurn.decidable (t : Transfer) : ∀ e : Event, Decidable (t.InTurn e)
  | .sender e => inferInstanceAs (Decidable (t.sender.InTurn e))
  | .deliver _ _ _ | .read | .free _ => .isTrue trivial

theorem step_turnInv (t : Transfer) (e : Event) (inv : t.sender.TurnInv) (inTurn : t.InTurn e) :
    (step content t e).sender.TurnInv := by
  rcases step_sender content t e with same | ⟨e', rfl, moved⟩
  · rwa [same]
  · rw [moved]
    exact Conn.step_turnInv t.sender e' inv inTurn

/-- The bytes of a beginning are a beginning of the bytes. -/
theorem mbufBytes_prefix {first ms : List (MbufId × Nat)} (begins : first <+: ms) :
    mbufBytes content first <+: mbufBytes content ms := by
  obtain ⟨rest, rfl⟩ := begins
  exact ⟨mbufBytes content rest, by simp [mbufBytes]⟩

end Transfer

end QStack
