/-
# QStack.SendConservation -- no step of the send side loses an mbuf

A run is any sequence of `sb_put`, `flush_tcp_sending_buffer`, `sb_remove_acked` and
`sb_reset_retrans` on one stream; between them the rest of the stack may set every
other variable of the stream to anything (`SndEvent.tune`).  The buffer is meant to
hold exactly the bytes between `head_seq` and `next_seq`, and every accepted mbuf in
one of its four containers until it is wholly acknowledged (`Conserved`).

Two steps break this.  A put into a full ring fails after it has moved `next_seq`
(`SndBuff.sbPut_full`), and a flush drops the first mbuf that does not fit into the
window (`flush_drops_mbuf`).  `SndOk` excludes these two.
-/
import QStack.SendFlush
import QStack.Lib.Run

namespace QStack

set_option autoImplicit false

/-! ## Runs of the send side -/

structure SndRun where
  cx : Cx
  /-- mbufs `sb_put` returned a positive length for -/
  accepted : List MbufId := []
  /-- mbufs that an acknowledgement has covered to their last byte -/
  acked : List MbufId := []
  /-- the address of the next mbuf of the application -/
  fresh : MbufId := 0

inductive SndEvent where
  | put (len : Nat) (priority : Bool)
  | flush (env : Env)
  | removeAcked (ackSeq : Seq)
  | resetRetrans
  /-- everything but the send buffer is set by the rest of the stack -/
  | tune (s : TcpStream) (avail : Nat)

namespace SndRun

abbrev buff (s : SndRun) : SndBuff := s.cx.st.sndbuf

def sndCall (s : SndRun) : SndEvent → SndRun
  | .put len priority =>
      match s.buff.sbPut { id := s.fresh, payloadLen := len, priority := priority } with
      | (ret, b) =>
          { s with
            cx := s.cx.setSndbuf b
            accepted := if 0 < ret then s.fresh :: s.accepted else s.accepted
            fresh := s.fresh + 1 }
  | .flush env => { s with cx := (s.cx.flushTcpSendingBuffer env).2 }
  | .removeAcked ackSeq =>
      { s with
        cx := s.cx.setSndbuf (s.buff.sbRemoveAcked ackSeq).2
        acked := ((s.buff.uackList ++ s.buff.retransList).filter
          fun m => tcpSeqLeq m.seqEnd ackSeq).map SndMbuf.id ++ s.acked }
  | .resetRetrans => { s with cx := s.cx.setSndbuf s.buff.sbResetRetrans.2 }
  | .tune st avail =>
      { s with cx := { s.cx with st := { st with sndbuf := s.buff }, avail := avail } }

/-- A call; once the process has exited nothing happens any more. -/
def sndStep (s : SndRun) (e : SndEvent) : SndRun := if s.cx.view.halted then s else s.sndCall e

def start (st : TcpStream) (sndbufSize : Nat) (initSeq : Seq) : SndRun :=
  { cx := { st := { st with sndbuf := SndBuff.zero.sbInit sndbufSize initSeq } } }

/-- The mbufs in the four containers. -/
def containers (s : SndRun) : List SndMbuf :=
  s.buff.held s.buff.husndQ.contents s.buff.usndQ.contents

structure Conserved (s : SndRun) : Prop where
  length : s.buff.sbLen = BitVec.ofNat 32 (SndBuff.sumLen s.containers)
  kept : ∀ id ∈ s.accepted, id ∈ s.acked ∨ (s.containers.map SndMbuf.id).count id = 1

/-- Sent one after the other from `nxt` on, the mbufs stay inside the window. -/
def Fits (edge : Seq) : Seq → List SndMbuf → Prop
  | _, [] => True
  | nxt, m :: rest => tcpSeqGt (nxt + m.len) edge = false ∧ Fits edge (nxt + m.len) rest

instance Fits.decidable (edge : Seq) : ∀ (nxt : Seq) (ms : List SndMbuf), Decidable (Fits edge nxt ms)
  | _, [] => .isTrue trivial
  | nxt, m :: rest =>
      have := Fits.decidable edge (nxt + m.len) rest
      inferInstanceAs (Decidable (_ ∧ _))

/-- A put finds a free slot, and a flush that starts has room for all that waits. -/
def SndOk (s : SndRun) : SndEvent → Prop
  | .put len priority =>
      let m : SndMbuf := { id := s.fresh, payloadLen := len, priority := priority }
      s.buff.toPut m ≠ 0 → s.buff.targetFull m = false
  | .flush _ =>
      s.cx.st.isFinSent = true ∨ s.buff.sbLen = 0 ∨
        tcpSeqLt s.cx.st.sndNxt s.buff.headSeq = true ∨
        Fits (s.cx.st.sndUna + s.cx.st.sendWindow) s.cx.st.sndNxt
          (s.buff.retransList ++ s.buff.husndQ.contents ++ s.buff.usndQ.contents)
  | _ => True

end SndRun

/-! ## The invariant -/

namespace SndBuff

/-- The identity and the length of an mbuf; sending and losing an mbuf keep both. -/
def tag (m : SndMbuf) : MbufId × Nat := (m.id, m.payloadLen)

theorem sumLen_tags (ms : List SndMbuf) : sumLen ms = ((ms.map tag).map Prod.snd).sum := by
  rw [List.map_map]
  rfl

theorem ids_tags (ms : List SndMbuf) : ms.map SndMbuf.id = (ms.map tag).map Prod.fst := by
  rw [List.map_map]
  rfl

end SndBuff

namespace SndRun

/-- The bytes between `head_seq` and `next_seq` are held, each accepted mbuf once. -/
structure Stored (s : SndRun) (H N : List SndMbuf) : Prop where
  holds : s.buff.Holds H N
  length : s.buff.sbLen = BitVec.ofNat 32 (SndBuff.sumLen (s.buff.held H N))
  nodup : ((s.buff.held H N).map SndMbuf.id).Nodup
  older : ∀ m ∈ s.buff.held H N, m.id < s.fresh ∧ m.payloadLen ≠ 0
  kept : ∀ id ∈ s.accepted, id ∈ s.acked ∨ id ∈ (s.buff.held H N).map SndMbuf.id
  issued : ∀ id ∈ s.accepted, id < s.fresh

section Stored

variable {s : SndRun} {H N : List SndMbuf}

theorem Stored.containers (stored : s.Stored H N) : s.containers = s.buff.held H N := by
  rw [SndRun.containers, CircularQueue.contents_eq stored.holds.high,
    CircularQueue.contents_eq stored.holds.low]

theorem Stored.conserved (stored : s.Stored H N) : s.Conserved where
  length := by rw [stored.containers]; exact stored.length
  kept := by
    intro id accepted
    rw [stored.containers]
    exact (stored.kept id accepted).imp_right (List.count_eq_one_of_mem stored.nodup)

/-- A step that only moves mbufs between the containers. -/
theorem Stored.moved {b : SndBuff} {H' N' : List SndMbuf} (stored : s.Stored H N) (cx : Cx)
    (buffer : cx.st.sndbuf = b) (holds : b.Holds H' N') (len : b.sbLen = s.buff.sbLen)
    (same : (b.held H' N').map SndBuff.tag = (s.buff.held H N).map SndBuff.tag) :
    Stored { s with cx := cx } H' N' where
  holds := by rw [buff, buffer]; exact holds
  length := by
    rw [buff, buffer, len, stored.length, SndBuff.sumLen_tags, SndBuff.sumLen_tags, same]
  nodup := by
    rw [buff, buffer, SndBuff.ids_tags, same, ← SndBuff.ids_tags]
    exact stored.nodup
  older := by
    intro m inside
    rw [buff, buffer] at inside
    have tagged : SndBuff.tag m ∈ (s.buff.held H N).map SndBuff.tag := by
      rw [← same]
      exact List.mem_map_of_mem inside
    obtain ⟨m', inside', eq⟩ := List.mem_map.mp tagged
    obtain ⟨issued, payload⟩ := stored.older m' inside'
    injection eq with idEq lenEq
    exact ⟨idEq ▸ issued, lenEq ▸ payload⟩
  kept := by
    rw [buff, buffer, SndBuff.ids_tags, same, ← SndBuff.ids_tags]
    exact stored.kept
  issued := stored.issued

theorem start_stored (st : TcpStream) (sndbufSize : Nat) (initSeq : Seq) :
    (start st sndbufSize initSeq).Stored [] [] where
  holds := SndBuff.sbInit_holds sndbufSize SndBuff.zero initSeq
  length := by simp [start, SndBuff.sbInit, SndBuff.sbLen, SndBuff.held]
  nodup := List.nodup_nil
  older := by simp [start, SndBuff.sbInit, SndBuff.held]
  kept := by simp [start]
  issued := by simp [start]

theorem put_stored (stored : s.Stored H N) (len : Nat) (priority : Bool)
    (ok : s.SndOk (.put len priority)) :
    ∃ H' N', (s.sndCall (.put len priority)).Stored H' N' := by
  let m : SndMbuf := { id := s.fresh, payloadLen := len, priority := priority }
  by_cases none : s.buff.toPut m = 0
  · refine ⟨H, N, ?_⟩
    rw [sndCall, SndBuff.sbPut_refused none]
    exact ⟨stored.holds, stored.length, stored.nodup,
      fun m' inside => ⟨Nat.lt_succ_of_lt (stored.older m' inside).1, (stored.older m' inside).2⟩,
      stored.kept, fun id accepted => Nat.lt_succ_of_lt (stored.issued id accepted)⟩
  · obtain ⟨b, H', N', result, holds, perm, -, -, -, head, next⟩ :=
      SndBuff.sbPut_stored stored.holds none (ok none)
    refine ⟨H', N', ?_⟩
    rw [sndCall, result]
    have positive : (0 : Int) < (s.buff.toPut m : Int) := by omega
    dsimp only
    rw [if_pos positive]
    have ids : ((b.held H' N').map SndMbuf.id).Perm (s.fresh :: (s.buff.held H N).map SndMbuf.id) :=
      perm.map SndMbuf.id
    refine ⟨holds, ?_, ?_, ?_, ?_, ?_⟩
    · change b.sbLen = BitVec.ofNat 32 (SndBuff.sumLen (b.held H' N'))
      have before := stored.length
      rw [SndBuff.sumLen_perm perm, SndBuff.sumLen_cons, BitVec.ofNat_add, ← before,
        SndBuff.sbLen, SndBuff.sbLen, head, next]
      change s.buff.nextSeq + BitVec.ofNat 32 (s.buff.toPut m) - s.buff.headSeq =
        BitVec.ofNat 32 (s.buff.toPut m) + (s.buff.nextSeq - s.buff.headSeq)
      bv_omega
    · refine ids.nodup_iff.mpr (List.nodup_cons.mpr ⟨?_, stored.nodup⟩)
      intro inside
      obtain ⟨m', held, eq⟩ := List.mem_map.mp inside
      exact absurd (eq ▸ (stored.older m' held).1) (Nat.lt_irrefl s.fresh)
    · intro m' inside
      rcases List.mem_cons.mp (perm.mem_iff.mp inside) with rfl | held
      · exact ⟨Nat.lt_succ_self s.fresh, none⟩
      · exact ⟨Nat.lt_succ_of_lt (stored.older m' held).1, (stored.older m' held).2⟩
    · intro id accepted
      rcases List.mem_cons.mp accepted with rfl | accepted
      · exact .inr (ids.mem_iff.mpr (List.mem_cons_self))
      · exact (stored.kept id accepted).imp_right
          fun held => ids.mem_iff.mpr (List.mem_cons_of_mem _ held)
    · intro id accepted
      rcases List.mem_cons.mp accepted with rfl | accepted
      · exact Nat.lt_succ_self s.fresh
      · exact Nat.lt_succ_of_lt (stored.issued id accepted)

theorem resetRetrans_stored (stored : s.Stored H N) : (s.sndCall .resetRetrans).Stored H N := by
  rw [sndCall]
  rcases SndBuff.sbResetRetrans_cases s.buff with ⟨same, -⟩ | ⟨-, empty, moved⟩
  · rw [same]
    exact stored.moved _ rfl stored.holds rfl rfl
  · rw [moved]
    refine stored.moved _ rfl ⟨stored.holds.high, stored.holds.low⟩ rfl ?_
    change (([] ++ List.map _ s.buff.uackList) ++ H ++ N).map SndBuff.tag =
      (s.buff.uackList ++ s.buff.retransList ++ H ++ N).map SndBuff.tag
    simp [empty, Function.comp_def, SndBuff.tag]

theorem tune_stored (stored : s.Stored H N) (st : TcpStream) (avail : Nat) :
    (s.sndCall (.tune st avail)).Stored H N :=
  stored.moved _ rfl stored.holds rfl rfl

theorem removeAcked_stored (stored : s.Stored H N) (ackSeq : Seq) :
    (s.sndCall (.removeAcked ackSeq)).Stored H N := by
  have splitU := SndBuff.removeAcked_append ackSeq s.buff.uackList
  have splitR := SndBuff.removeAcked_append ackSeq s.buff.retransList
  have ackedU := SndBuff.removeAcked_acked ackSeq s.buff.uackList
  have ackedR := SndBuff.removeAcked_acked ackSeq s.buff.retransList
  rw [sndCall, SndBuff.sbRemoveAcked]
  generalize SndBuff.removeAcked ackSeq s.buff.uackList = cutU at splitU ackedU
  generalize SndBuff.removeAcked ackSeq s.buff.retransList = cutR at splitR ackedR
  obtain ⟨freedU, keptU⟩ := cutU
  obtain ⟨freedR, keptR⟩ := cutR
  dsimp only at splitU splitR ackedU ackedR ⊢
  -- what stays is a sublist, and what goes was covered by this acknowledgement
  have parted : (s.buff.held H N).Perm ((freedU ++ freedR) ++ (keptU ++ keptR ++ H ++ N)) := by
    rw [SndBuff.held, ← splitU, ← splitR]
    simp only [List.append_assoc]
    refine List.Perm.append_left freedU ?_
    rw [← List.append_assoc keptU, ← List.append_assoc freedR]
    exact List.Perm.append_right _ List.perm_append_comm
  have ids := parted.map SndMbuf.id
  rw [List.map_append] at ids
  refine ⟨⟨stored.holds.high, stored.holds.low⟩, ?_, ?_, ?_, ?_, stored.issued⟩
  · have before := stored.length
    rw [SndBuff.sumLen_perm parted, SndBuff.sumLen_append, SndBuff.sumLen_append,
      BitVec.ofNat_add, BitVec.ofNat_add, SndBuff.sbLen] at before
    change s.buff.nextSeq - (s.buff.headSeq + BitVec.ofNat 32 (SndBuff.sumLen freedU) +
      BitVec.ofNat 32 (SndBuff.sumLen freedR)) =
        BitVec.ofNat 32 (SndBuff.sumLen (keptU ++ keptR ++ H ++ N))
    bv_omega
  · exact (List.nodup_append.mp (ids.nodup_iff.mp stored.nodup)).2.1
  · intro m inside
    exact stored.older m (parted.mem_iff.mpr (List.mem_append_right _ inside))
  · intro id accepted
    rcases stored.kept id accepted with acked | held
    · exact .inl (List.mem_append_right _ acked)
    · rcases List.mem_append.mp (ids.mem_iff.mp held) with freed | kept
      · refine .inl (List.mem_append_left _ ?_)
        obtain ⟨m, inside, rfl⟩ := List.mem_map.mp freed
        refine List.mem_map_of_mem (List.mem_filter.mpr ?_)
        rw [← splitU, ← splitR]
        rcases List.mem_append.mp inside with u | r
        · exact ⟨by simp [u], ackedU m u⟩
        · exact ⟨by simp [r], ackedR m r⟩
      · exact .inr kept

/-! ## The flush -/

/-- What holds before each round of a flush that has room for all that waits. -/
def FlushInv (s : SndRun) (H N : List SndMbuf) (window : U32) (v : View) : Prop :=
  ∃ H' N', v.sndbuf.Holds H' N' ∧ v.sndbuf.sbLen = s.buff.sbLen ∧
    (v.sndbuf.held H' N').map SndBuff.tag = (s.buff.held H N).map SndBuff.tag ∧
    Fits (v.sndUna + window) v.sndNxt (v.sndbuf.retransList ++ H' ++ N')

theorem FlushInv.popped {window : U32} {v : View} {m : SndMbuf} {b : SndBuff}
    (inv : FlushInv s H N window v) (pop : v.sndbuf.popWaiting = (some m, b)) :
    ∃ H' N' H'' N'', v.sndbuf.Popped H' N' m b H'' N'' ∧ v.sndbuf.sbLen = s.buff.sbLen ∧
      (v.sndbuf.held H' N').map SndBuff.tag = (s.buff.held H N).map SndBuff.tag ∧
      Fits (v.sndUna + window) v.sndNxt (m :: (b.retransList ++ H'' ++ N'')) := by
  obtain ⟨H', N', holds, len, tags, fits⟩ := inv
  rcases SndBuff.popWaiting_cases holds with ⟨none, -⟩ | ⟨m', b', H'', N'', some, popped⟩
  · rw [none] at pop
    cases pop
  · rw [some] at pop
    cases pop
    exact ⟨H', N', H'', N'', popped, len, tags, popped.waiting ▸ fits⟩

/-- No mbuf of the buffer is empty. -/
theorem FlushInv.payload {window : U32} {v : View} {m : SndMbuf} {b : SndBuff}
    (inv : FlushInv s H N window v) (stored : s.Stored H N)
    (pop : v.sndbuf.popWaiting = (some m, b)) : m.payloadLen ≠ 0 := by
  obtain ⟨H', N', H'', N'', popped, -, tags, -⟩ := inv.popped pop
  have inside : SndBuff.tag m ∈ (s.buff.held H N).map SndBuff.tag := by
    rw [← tags]
    refine List.mem_map_of_mem ?_
    rw [SndBuff.held, List.append_assoc, List.append_assoc, ← List.append_assoc _ H' N',
      popped.waiting]
    simp
  obtain ⟨m', held, eq⟩ := List.mem_map.mp inside
  injection eq with _ len
  exact len ▸ (stored.older m' held).2

theorem FlushInv.send {window : U32} {v : View} {m : SndMbuf} {b : SndBuff}
    (inv : FlushInv s H N window v) (pop : v.sndbuf.popWaiting = (some m, b)) :
    v.outOfWindow window m = false ∧ FlushInv s H N window (v.sendData m b) := by
  obtain ⟨H', N', H'', N'', popped, len, tags, fits⟩ := inv.popped pop
  refine ⟨fits.1, H'', N'', ⟨popped.holds.high, popped.holds.low⟩, ?_, ?_, fits.2⟩
  · rw [← len]
    change b.nextSeq - b.headSeq = v.sndbuf.nextSeq - v.sndbuf.headSeq
    rw [popped.head, popped.next]
  · rw [← tags]
    have waiting := congrArg (List.map SndBuff.tag) popped.waiting
    simp only [List.map_append, List.map_cons, List.append_assoc] at waiting
    simp only [View.sendData, View.setSndbuf, SndBuff.held, List.map_append, List.append_assoc,
      waiting, popped.uack]
    rfl

/-- A flush that has room for all that waits only moves mbufs between the containers. -/
theorem FlushInv.flushed {window : U32} {rounds : Nat} {v v' : View}
    (flushed : Flushed window rounds v v') (stored : s.Stored H N) :
    FlushInv s H N window v →
      ∃ H' N', v'.sndbuf.Holds H' N' ∧ v'.sndbuf.sbLen = s.buff.sbLen ∧
        (v'.sndbuf.held H' N').map SndBuff.tag = (s.buff.held H N).map SndBuff.tag := by
  induction flushed with
  | spent | refused =>
      rintro ⟨H', N', holds, len, tags, -⟩
      exact ⟨H', N', holds, len, tags⟩
  | empty _ pop =>
      rintro ⟨H', N', holds, len, tags, -⟩
      rcases SndBuff.popWaiting_cases holds with ⟨none, -⟩ | ⟨m, b', H'', N'', some, -⟩
      · rw [none] at pop
        cases pop
        exact ⟨H', N', holds, len, tags⟩
      · rw [some] at pop
        cases pop
  | skip _ pop blank _ _ => exact fun inv => absurd blank (inv.payload stored pop)
  | send _ pop _ _ _ ih => exact fun inv => ih (inv.send pop).2
  | drop _ pop _ outside =>
      intro inv
      rw [(inv.send pop).1] at outside
      cases outside

theorem flush_stored (stored : s.Stored H N) (env : Env) (ok : s.SndOk (.flush env)) :
    (s.sndCall (.flush env)).cx.view.halted = true ∨
      ∃ H' N', (s.sndCall (.flush env)).Stored H' N' := by
  rw [sndCall, Cx.flushTcpSendingBuffer]
  have unchanged : ∃ H' N', Stored { s with cx := s.cx } H' N' := ⟨H, N, stored⟩
  split
  · exact .inr unchanged
  rename_i notFin
  split
  · exact .inr unchanged
  rename_i some
  by_cases below : tcpSeqLt s.cx.st.sndNxt s.buff.headSeq = true
  · rw [Cx.flushLoop]
    dsimp only
    rw [if_pos below]
    exact .inr unchanged
  have fits := ((ok.resolve_left notFin).resolve_left some).resolve_left below
  rw [CircularQueue.contents_eq stored.holds.high,
    CircularQueue.contents_eq stored.holds.low] at fits
  have start : FlushInv s H N s.cx.st.sendWindow s.cx.view :=
    ⟨H, N, stored.holds, rfl, rfl, fits⟩
  refine (Cx.flushLoop_flushed env _ (s.buff.waitingCount + 1) 0 s.cx rfl).imp_right ?_
  intro flushed
  obtain ⟨H', N', holds, len, tags⟩ := FlushInv.flushed flushed stored start
  exact ⟨H', N', stored.moved _ rfl holds len tags⟩

theorem call_stored (stored : s.Stored H N) (e : SndEvent) (ok : s.SndOk e) :
    (s.sndCall e).cx.view.halted = true ∨ ∃ H' N', (s.sndCall e).Stored H' N' := by
  cases e with
  | put len priority => exact .inr (put_stored stored len priority ok)
  | flush env => exact flush_stored stored env ok
  | removeAcked ackSeq => exact .inr ⟨H, N, removeAcked_stored stored ackSeq⟩
  | resetRetrans => exact .inr ⟨H, N, resetRetrans_stored stored⟩
  | tune st avail => exact .inr ⟨H, N, tune_stored stored st avail⟩

end Stored

/-! ## Runs -/

/-- **Send-buffer conservation.**  As long as every put finds a free slot and every flush has
room for all that waits, the buffer holds exactly the bytes it accounts for, and each accepted
mbuf in exactly one container until it is acknowledged. -/
theorem conservation (st : TcpStream) (sndbufSize : Nat) (initSeq : Seq) (es : List SndEvent)
    (ok : Lib.Run.Allowed sndStep SndOk (start st sndbufSize initSeq) es) :
    Lib.Run.Along sndStep (fun s => s.cx.view.halted = true ∨ s.Conserved)
      (start st sndbufSize initSeq) es := by
  have along := Lib.Run.along_of_step
    (P := fun s => s.cx.view.halted = true ∨ ∃ H N, s.Stored H N) ?_ es
    (start st sndbufSize initSeq) (.inr ⟨[], [], start_stored st sndbufSize initSeq⟩) ok
  · refine Lib.Run.Along.mono ?_ es _ along
    rintro s (exited | ⟨H, N, stored⟩)
    · exact .inl exited
    · exact .inr stored.conserved
  · intro s e inv allowed
    rw [sndStep]
    split
    · exact inv
    · obtain ⟨H, N, stored⟩ := inv.resolve_left ‹_›
      exact call_stored stored e allowed

/-- An established stream with the smallest window. -/
def narrow : TcpStream := { state := .established, mss := 1460, cwnd := 1460, peerWnd := 1460 }

/-- Two mbufs are put, sent and acknowledged. -/
def acknowledgedRun : List SndEvent :=
  [.put 700 false, .put 700 true, .flush {}, .removeAcked 1400]

theorem conservation_acknowledgedRun :
    Lib.Run.Along sndStep (fun s => s.cx.view.halted = true ∨ s.Conserved)
      (start narrow 4 0) acknowledgedRun := by
  refine conservation narrow 4 0 acknowledgedRun ⟨?_, ?_, ?_, ?_, trivial⟩
  · intro _
    decide
  · intro _
    decide
  · exact .inr (.inr (.inr (by decide +kernel)))
  · trivial

/-- Two mbufs of 1000 bytes against a window of 1500. -/
def droppedRun : List SndEvent := [.put 1000 false, .put 1000 false, .flush {}]

/-- The second mbuf is accepted, never acknowledged, and in no container. -/
theorem flush_drops_mbuf :
    ¬ Lib.Run.Along sndStep (fun s => s.cx.view.halted = true ∨ s.Conserved)
      (start narrow 4 0) droppedRun := by
  intro along
  have last := Lib.Run.Along.last _ _ along
  rcases last with exited | conserved
  · revert exited
    decide +kernel
  · have kept := conserved.kept 1 (by decide +kernel)
    revert kept
    decide +kernel

end SndRun

end QStack
