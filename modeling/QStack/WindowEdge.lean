/-
# QStack.WindowEdge -- the right edge of the advertised window

A stream is created with `rcv_wnd = TCP_INITIAL_WINDOW`; the size of its receive buffer is
`1400 * rcvbuf_size` and is computed elsewhere.  The first `rb_put` or `q_recv` replaces the window
by what is left of the buffer, and from then on the right edge `rcv_nxt + rcv_wnd` is
`head_seq + size`, which `head_seq` only moves to the right.  So everything depends on that first
replacement: the edge jumps from `head_seq + TCP_INITIAL_WINDOW` to `head_seq + size`
(`Slides`).  With the default `rcvbuf_size` it jumps back.

`window_edge` is the exact condition on the configuration.
-/
import QStack.FinConsumption
import Mathlib.Tactic.Abel

namespace QStack

set_option autoImplicit false

namespace RcvCore

/-- The first sequence number the peer may not use. -/
def edge (r : RcvCore) : Seq := r.rcvNxt + r.rcvWnd

/-- What `rb_put` accepts ends here at the latest. -/
def limit (r : RcvCore) : Seq := r.rcvbuf.headSeq + r.rcvbuf.size

/-- Every byte of the window passes the bound of `rb_put`. -/
def WindowFits (r : RcvCore) : Prop :=
  ∀ p : Seq, tcpSeqGeq p r.rcvNxt = true → tcpSeqLt p r.edge = true →
    tcpSeqGt (p + 1) r.limit = false

/-- No payload was stored and nothing was read yet. -/
structure Fresh (r : RcvCore) : Prop where
  wnd : r.rcvWnd = tcpInitialWindow
  next : r.rcvbuf.headSeq = r.rcvbuf.mergedNext
  merged : r.rcvbuf.mergedQ.cirqEmpty = true
  high : r.rcvbuf.highQ.cirqEmpty = true

/-- The window is what is left of the buffer. -/
def Measured (r : RcvCore) : Prop := r.rcvWnd = r.rcvbuf.size - r.rcvbuf.rbMergedLen

variable {r : RcvCore}

theorem Fresh.edge_eq (fresh : r.Fresh) (next : r.rcvNxt = r.rcvbuf.mergedNext) :
    r.edge = r.rcvbuf.headSeq + tcpInitialWindow := by
  rw [edge, next, fresh.wnd, fresh.next]

theorem Measured.edge_eq (measured : r.Measured) (next : r.rcvNxt = r.rcvbuf.mergedNext) :
    r.edge = r.limit := by
  rw [edge, limit, next, measured, RcvBuff.rbMergedLen]
  abel

end RcvCore

/-! ## The buffer size against the initial window -/

/-- The buffer takes the whole initial window. -/
def SizeFits (size : Seq) : Prop :=
  tcpInitialWindow.toNat ≤ size.toNat ∧ size.toNat ≤ 2 ^ 31 + 1

theorem SizeFits.forward {size : Seq} (fits : SizeFits size) (head : Seq) :
    tcpSeqGeq (head + size) (head + tcpInitialWindow) = true := by
  obtain ⟨large, small⟩ := fits
  rw [tcpSeqGeq_eq, Bool.not_eq_true', Bool.eq_false_iff, tcpSeqLt, Ne, Lib.Serial.lt_iff_toNat,
    add_sub_add_left_eq_sub]
  have difference : (size - tcpInitialWindow).toNat = size.toNat - tcpInitialWindow.toNat :=
    BitVec.toNat_sub_of_le large
  have initial : tcpInitialWindow.toNat = 14600 := rfl
  omega

/-- In the initial window the condition is also needed. -/
theorem windowFits_initial {r : RcvCore} (next : r.rcvNxt = r.rcvbuf.headSeq)
    (wnd : r.rcvWnd = tcpInitialWindow) : r.WindowFits ↔ SizeFits r.rcvbuf.size := by
  have bound (p : Seq) : tcpSeqGt (p + 1) r.limit = false ↔
      p - r.rcvNxt + 1 = r.rcvbuf.size ∨ 2 ^ 32 ≤ 2 * (p - r.rcvNxt + 1 - r.rcvbuf.size).toNat := by
    have shifted : p + 1 - r.limit = p - r.rcvNxt + 1 - r.rcvbuf.size := by
      rw [RcvCore.limit, next]
      abel
    rw [tcpSeqGt_eq, Bool.not_eq_false', tcpSeqLeq, Lib.Serial.leq_iff_toNat, shifted,
      ← sub_eq_zero, shifted, sub_eq_zero]
  have inside (p : Seq) : (tcpSeqGeq p r.rcvNxt = true ∧ tcpSeqLt p r.edge = true) ↔
      (p - r.rcvNxt).toNat < tcpInitialWindow.toNat := by
    have shifted : p - r.edge = p - r.rcvNxt - tcpInitialWindow := by
      rw [RcvCore.edge, wnd]
      abel
    rw [tcpSeqGeq_eq, Bool.not_eq_true', Bool.eq_false_iff, tcpSeqLt, tcpSeqLt, Ne,
      Lib.Serial.lt_iff_toNat, Lib.Serial.lt_iff_toNat, shifted]
    generalize p - r.rcvNxt = k
    simp only [tcpInitialWindow]
    bv_omega
  constructor
  · intro fits
    have first := (bound r.rcvNxt).mp (fits r.rcvNxt ((inside r.rcvNxt).mpr (by simp; decide)).1
      ((inside r.rcvNxt).mpr (by simp; decide)).2)
    have offset : r.rcvNxt + 14599 - r.rcvNxt = 14599 := by abel
    have isIn := (inside (r.rcvNxt + 14599)).mpr (by rw [offset]; decide)
    have last := (bound _).mp (fits (r.rcvNxt + 14599) isIn.1 isIn.2)
    rw [offset] at last
    rw [sub_self] at first
    generalize r.rcvbuf.size = size at first last
    simp only [SizeFits, tcpInitialWindow]
    bv_omega
  · intro fits p after before
    have near := (inside p).mp ⟨after, before⟩
    rw [bound]
    generalize r.rcvbuf.size = size at fits
    generalize p - r.rcvNxt = k at near
    obtain ⟨large, small⟩ := fits
    simp only [tcpInitialWindow] at near large
    bv_omega

/-! ## What the buffer operations leave alone -/

namespace MbufMem

/-- `payload_len` has sixteen bits. -/
def Short (mem : MbufMem) : Prop := ∀ id, (mem.mbuf id).payloadLen < 2 ^ 16

/-- The payload of every mbuf stays as long as it is. -/
def SameLens (mem mem' : MbufMem) : Prop :=
  ∀ id, (mem'.mbuf id).payloadLen = (mem.mbuf id).payloadLen

theorem SameLens.refl (mem : MbufMem) : mem.SameLens mem := fun _ => rfl

theorem SameLens.trans {mem mem' mem'' : MbufMem} (first : mem.SameLens mem')
    (second : mem'.SameLens mem'') : mem.SameLens mem'' := fun id =>
  (second id).trans (first id)

theorem SameLens.short {mem mem' : MbufMem} (same : mem.SameLens mem') (short : mem.Short) :
    mem'.Short := by
  intro id
  rw [same id]
  exact short id

theorem modify_sameLens (mem : MbufMem) (id : MbufId) {f : Mbuf → Mbuf}
    (kept : ∀ m, (f m).payloadLen = m.payloadLen) : mem.SameLens (mem.modify id f) := by
  intro j
  by_cases here : j = id
  · subst here
    rw [modify_self, kept]
  · rw [modify_of_ne mem f here]

theorem mbufFree_sameLens (mem : MbufMem) (id : MbufId) : mem.SameLens (mem.mbufFree id) := by
  intro j
  rw [mbufFree_mbuf]
  exact modify_sameLens mem id (f := fun m => { m with mbufState := .free }) (fun _ => rfl) j

theorem foldl_mbufFree_sameLens (ids : List MbufId) (mem : MbufMem) :
    mem.SameLens (ids.foldl mbufFree mem) := by
  induction ids generalizing mem with
  | nil => exact .refl mem
  | cons id ids ih => exact (mbufFree_sameLens mem id).trans (ih (mem.mbufFree id))

end MbufMem

namespace RcvMem

/-- The size stays, and `head_seq` passes at most `n` mbufs. -/
structure Advances (n : Nat) (w w' : RcvMem) : Prop where
  lens : w.SameLens w'.toMbufMem
  size : w'.buff.size = w.buff.size
  head : w.Short → ∃ k ≤ n * 2 ^ 16, w'.buff.headSeq = w.buff.headSeq + BitVec.ofNat 32 k

section Advances

variable {n m : Nat} {w w' w'' : RcvMem}

theorem Advances.still (lens : w.SameLens w'.toMbufMem) (size : w'.buff.size = w.buff.size)
    (head : w'.buff.headSeq = w.buff.headSeq) : Advances n w w' :=
  ⟨lens, size, fun _ => ⟨0, Nat.zero_le _, by rw [head]; simp⟩⟩

theorem Advances.refl (w : RcvMem) : Advances n w w := .still (.refl _) rfl rfl

theorem Advances.trans (first : Advances n w w') (second : Advances m w' w'') :
    Advances (n + m) w w'' := by
  refine ⟨first.lens.trans second.lens, second.size.trans first.size, fun short => ?_⟩
  obtain ⟨k, few, head⟩ := first.head short
  obtain ⟨l, fewer, head'⟩ := second.head (first.lens.short short)
  refine ⟨k + l, by omega, ?_⟩
  rw [head', head, BitVec.ofNat_add, add_assoc]

theorem Advances.mono (le : n ≤ m) (moved : Advances n w w') : Advances m w w' := by
  refine ⟨moved.lens, moved.size, fun short => ?_⟩
  obtain ⟨k, few, head⟩ := moved.head short
  exact ⟨k, few.trans (Nat.mul_le_mul_right _ le), head⟩

theorem Advances.head_eq (still : Advances 0 w w') (short : w.Short) :
    w'.buff.headSeq = w.buff.headSeq := by
  obtain ⟨k, none, head⟩ := still.head short
  have zero : k = 0 := by omega
  rw [head, zero]
  simp

end Advances

/-- An operation on the flags and the containers. -/
theorem modify_advances (w : RcvMem) (id : MbufId) {f : Mbuf → Mbuf}
    (kept : ∀ m, (f m).payloadLen = m.payloadLen) : Advances 0 w (w.setMem (w.modify id f)) :=
  .still (w.modify_sameLens id kept) rfl rfl

theorem mbufFree_advances (w : RcvMem) (id : MbufId) : Advances 0 w (w.setMem (w.mbufFree id)) :=
  .still (w.mbufFree_sameLens id) rfl rfl

theorem putHigh_advances (w : RcvMem) (id : MbufId) : Advances 0 w (w.putHigh id) := by
  have unheld := modify_advances w id (f := fun m => { m with holding := false }) fun _ => rfl
  unfold putHigh
  dsimp only
  generalize w.setMem _ = v at unheld ⊢
  split
  · generalize v.buff.highQ.dirCirqAdd id = added
    obtain ⟨r, q⟩ := added
    dsimp only
    split
    · let u := v.setBuff { v.buff with highQ := q }
      have filed : Advances 0 v u := .still (.refl _) rfl rfl
      apply (unheld.trans filed).trans (m := 0)
      apply modify_advances
      intro m
      rfl
    · exact unheld
  · exact unheld

theorem putDone_advances (w : RcvMem) (id : MbufId) : Advances 0 w (w.putDone id) := by
  unfold putDone
  split
  · exact .refl w
  · exact modify_advances w id fun _ => rfl

theorem mergeLoop_advances (ids : List MbufId) (w : RcvMem) (ret : Nat) :
    Advances 0 w (mergeLoop ids w ret).2 := by
  induction ids generalizing w ret with
  | nil => exact .refl w
  | cons id rest ih =>
      unfold mergeLoop
      dsimp only
      split
      · have listed : Advances 0 w (w.setBuff { w.buff with oooList := rest }) :=
          .still (.refl _) rfl rfl
        split
        · exact (listed.trans (mbufFree_advances _ id)).trans (ih _ ret)
        · generalize CircularQueue.cirqAddDirect _ id = added
          obtain ⟨r, q, stray⟩ := added
          dsimp only
          split
          · refine Advances.trans (m := 0) ?_ (ih _ _)
            exact .still (.refl _) rfl rfl
          · refine .still ?_ rfl rfl
            exact MbufMem.mbufFree_sameLens _ id
      · exact .refl w

/-- `rb_put` moves neither `head_seq` nor the size. -/
theorem rbPut_advances (w : RcvMem) (id : MbufId) : Advances 0 w (w.rbPut id).2 := by
  have high := putHigh_advances w id
  unfold rbPut
  dsimp only
  split
  · exact .refl w
  · generalize w.putHigh id = v at high
    split
    · generalize v.buff.mergedQ.dirCirqAdd id = added
      obtain ⟨r, q⟩ := added
      dsimp only
      split
      · let u := v.setBuff { v.buff with mergedQ := q, mergedNext := (w.mbuf id).seqEnd }
        have filed : Advances 0 v u := .still (.refl _) rfl rfl
        have merged : Advances 0 u u.tryMergeOoo.2 := mergeLoop_advances _ u 0
        exact ((high.trans filed).trans merged).trans (putDone_advances _ id)
      · exact high
    · generalize oooInsert v.mbuf id v.buff.oooList = inserted
      cases inserted with
      | inserted list =>
          have filed : Advances 0 v (v.setBuff { v.buff with oooList := list }) :=
            .still (.refl _) rfl rfl
          exact (high.trans filed).trans (putDone_advances _ id)
      | swapped =>
          have noted : Advances 0 v (v.fault (.swappedAddHead id)) := .still (.refl _) rfl rfl
          exact (high.trans noted).trans (putDone_advances _ id)
      | duplicate => exact high

theorem mbufqClear_sameLens (rounds : Nat) (q : CircularQueue MbufId) (mem : MbufMem) :
    mem.SameLens (mbufqClear rounds q mem).2 := by
  induction rounds generalizing q mem with
  | zero => exact .refl mem
  | succ rounds ih =>
      unfold mbufqClear
      generalize q.dirCirqGet = got
      obtain ⟨id, q'⟩ := got
      cases id with
      | none => exact .refl mem
      | some id => exact (mem.mbufFree_sameLens id).trans (ih q' _)

theorem rbClear_advances (w : RcvMem) : Advances 0 w w.rbClear := by
  have merged := mbufqClear_sameLens staticBuffSize w.buff.mergedQ w.toMbufMem
  unfold rbClear
  generalize mbufqClear staticBuffSize w.buff.mergedQ w.toMbufMem = cleared at merged
  obtain ⟨q, mem⟩ := cleared
  dsimp only at merged ⊢
  have listed := merged.trans (MbufMem.foldl_mbufFree_sameLens w.buff.oooList mem)
  have high := listed.trans (mbufqClear_sameLens staticBuffSize w.buff.highQ _)
  exact .still high rfl rfl

/-! ## q_recv -/

/-- `head_seq` passes an mbuf. -/
theorem pass_advances (w : RcvMem) (id : MbufId) (q : CircularQueue MbufId) :
    Advances 1 w (w.setBuff { w.buff with
      mergedQ := q
      headSeq := w.buff.headSeq + (w.mbuf id).len }) :=
  ⟨.refl _, rfl, fun short => ⟨(w.mbuf id).payloadLen, by have := short id; omega, rfl⟩⟩

theorem tryGetHigh_advances (rounds : Nat) (w : RcvMem) : Advances 1 w (w.tryGetHigh rounds).2 := by
  induction rounds generalizing w with
  | zero => exact .refl w
  | succ rounds ih =>
      unfold tryGetHigh
      generalize w.buff.highQ.dirCirqGet = got
      obtain ⟨id, q⟩ := got
      cases id with
      | none => exact .still (.refl _) rfl rfl
      | some id =>
          let v := w.setBuff { w.buff with highQ := q }
          have popped : Advances 0 w v := .still (.refl _) rfl rfl
          dsimp only
          split
          · split
            · generalize CircularQueue.dirCirqGet _ = front
              obtain ⟨first, q'⟩ := front
              cases first with
              | none => exact .still (.refl _) rfl rfl
              | some first =>
                  apply (popped.trans (pass_advances v id q')).trans (m := 0)
                  apply modify_advances
                  intro m
                  rfl
            · exact .still (.refl _) rfl rfl
          · exact (popped.trans (mbufFree_advances v id)).trans (ih _)

theorem tryGetMerged_advances (rounds : Nat) (w : RcvMem) :
    Advances rounds w (w.tryGetMerged rounds).2 := by
  induction rounds generalizing w with
  | zero => exact .refl w
  | succ rounds ih =>
      unfold tryGetMerged
      generalize w.buff.mergedQ.dirCirqGet = got
      obtain ⟨id, q⟩ := got
      cases id with
      | none => exact .still (.refl _) rfl rfl
      | some id =>
          have passed := pass_advances w id q
          dsimp only
          split
          · exact passed.mono (Nat.le_add_left 1 rounds)
          · rw [Nat.add_comm rounds 1]
            exact (passed.trans (mbufFree_advances _ id)).trans (ih _)

theorem checkPayload_advances (w : RcvMem) (id : MbufId) : Advances 0 w (w.checkPayload id) := by
  unfold checkPayload
  split
  · exact .still (.refl _) rfl rfl
  · exact .refl w

/-- `q_recv` takes one mbuf by its priority, or the front of `merged_q` after what was read. -/
theorem qRecv_advances (w : RcvMem) : Advances (1 + staticBuffSize) w w.qRecv.2 := by
  have got : Advances (1 + staticBuffSize) w w.rbGet.2 := by
    have high := tryGetHigh_advances staticBuffSize w
    unfold rbGet tryGetHighMbuf
    generalize w.tryGetHigh staticBuffSize = result at high
    obtain ⟨id, w₁⟩ := result
    dsimp only at high
    have merged := high.trans (tryGetMerged_advances staticBuffSize w₁)
    cases id with
    | some id => exact (high.trans (checkPayload_advances w₁ id)).mono (Nat.le_add_right 1 _)
    | none =>
        dsimp only
        unfold tryGetMergedMbuf
        generalize w₁.tryGetMerged staticBuffSize = result at merged
        obtain ⟨id, w₂⟩ := result
        cases id with
        | some id => exact merged.trans (checkPayload_advances w₂ id)
        | none => exact merged
  unfold qRecv
  generalize w.rbGet = result at got
  obtain ⟨id, w₁⟩ := result
  cases id with
  | some id =>
      apply got.trans (m := 0)
      apply modify_advances
      intro m
      rfl
  | none => exact got

/-- With both queues empty it takes nothing. -/
theorem qRecv_nothing (w : RcvMem) (merged : w.buff.mergedQ.cirqEmpty = true)
    (high : w.buff.highQ.cirqEmpty = true) : w.qRecv.2 = w := by
  have noHigh : w.tryGetHighMbuf = (none, w) := by
    unfold tryGetHighMbuf staticBuffSize tryGetHigh CircularQueue.dirCirqGet
    rw [if_pos high]
    rfl
  have noMerged : w.tryGetMergedMbuf = (none, w) := by
    unfold tryGetMergedMbuf staticBuffSize tryGetMerged CircularQueue.dirCirqGet
    rw [if_pos merged]
    rfl
  unfold qRecv rbGet
  rw [noHigh]
  dsimp only
  rw [noMerged]

end RcvMem

/-! ## The receiving side -/

namespace RecvSide

/-- `rcv_nxt` is where `Inv` has it, and the window is the initial one or measured. -/
structure WindowInv (size : Seq) (r : RecvSide) : Prop extends r.Inv where
  short : r.mem.Short
  size_eq : r.rcv.rcvbuf.size = size
  fresh : r.state.isSyn = true → r.rcv.Fresh
  window : r.rcv.Fresh ∨ r.rcv.Measured
  isOpen : r.state.receives = true → r.opened ≠ []

/-- What a segment does to the window of an open connection. -/
def Slides (r r' : RecvSide) : Prop :=
  r.state.isSyn = false → r'.state.isSyn = false ∧ (r'.state.receives = true →
    r.state.receives = true ∧ r'.rcv.rcvbuf.headSeq = r.rcv.rcvbuf.headSeq ∧
      (r'.rcv.edge = r.rcv.edge ∨ r'.rcv.edge = r.rcv.limit))

section Window

variable {size : Seq} {r r' r'' : RecvSide}

theorem WindowInv.next (inv : r.WindowInv size) (receives : r.state.receives = true) :
    r.rcv.rcvNxt = r.rcv.rcvbuf.mergedNext :=
  (inv.receives receives (inv.isOpen receives)).next

theorem Slides.refl (r : RecvSide) : r.Slides r := fun late =>
  ⟨late, fun receives => ⟨receives, rfl, .inl rfl⟩⟩

theorem Slides.trans (inv : r.WindowInv size) (inv' : r'.WindowInv size) (first : r.Slides r')
    (second : r'.Slides r'') : r.Slides r'' := by
  intro late
  obtain ⟨late', before⟩ := first late
  obtain ⟨late'', after⟩ := second late'
  refine ⟨late'', fun receives => ?_⟩
  obtain ⟨receives', head', edge'⟩ := after receives
  obtain ⟨receives, head, edge⟩ := before receives'
  have limit : r'.rcv.limit = r.rcv.limit := by
    rw [RcvCore.limit, RcvCore.limit, head, inv.size_eq, inv'.size_eq]
  refine ⟨receives, head'.trans head, ?_⟩
  rcases edge' with same | reset
  · rw [same]
    exact edge
  · exact .inr (reset.trans limit)

/-- A connection that has not opened is fresh, and has no edge to keep. -/
theorem WindowInv.opens (inv : r.WindowInv size) (early : r.state.isSyn = true) (base : r'.Inv)
    (mem : r'.mem = r.mem) (same : r'.rcv.rcvbuf.size = r.rcv.rcvbuf.size) (fresh : r'.rcv.Fresh)
    (isOpen : r'.state.receives = true → r'.opened ≠ []) :
    r'.WindowInv size ∧ r.Slides r' := by
  refine ⟨⟨base, ?_, same.trans inv.size_eq, fun _ => fresh, .inl fresh, isOpen⟩, fun late => ?_⟩
  · rw [mem]
    exact inv.short
  · rw [early] at late
    cases late

/-- **Every move of a segment keeps the edge, or takes it to the limit of `rb_put`.** -/
theorem WindowInv.move (move : RecvMove r r') (inv : r.WindowInv size) :
    r'.WindowInv size ∧ r.Slides r' := by
  have base : r'.Inv := (inv.toInv.move move).1
  cases move with
  | aside state syn receives =>
      refine ⟨⟨base, inv.short, inv.size_eq, fun early => inv.fresh (syn early), inv.window,
        fun now => inv.isOpen (receives now)⟩, fun late => ⟨?_, fun now => ?_⟩⟩
      · cases early : state.isSyn with
        | true => exact (late.symm.trans (syn early)).symm
        | false => rfl
      · exact ⟨receives now, rfl, .inl rfl⟩
  | listened next early =>
      obtain ⟨wnd, next, merged, high⟩ := inv.fresh early
      exact inv.opens early base rfl rfl ⟨wnd, next, merged, high⟩ nofun
  | synced seq st early =>
      obtain ⟨wnd, -, merged, high⟩ := inv.fresh early
      exact inv.opens early base rfl rfl ⟨wnd, rfl, merged, high⟩ (fun _ => by simp)
  | acked st early =>
      obtain ⟨wnd, next, merged, high⟩ := inv.fresh early
      exact inv.opens early base rfl rfl ⟨wnd, next, merged, high⟩ (fun _ => by simp)
  | stored id w irs receives put =>
      have stays : RcvMem.Advances 0 r.buffered w := by
        have putStays := RcvMem.rbPut_advances r.buffered id
        rcases put with rfl | rfl
        · exact putStays
        · exact putStays.trans (RcvMem.rbClear_advances _)
      have head : w.buff.headSeq = r.rcv.rcvbuf.headSeq := stays.head_eq inv.short
      have sameSize : w.buff.size = r.rcv.rcvbuf.size := stays.size
      have late : r.state.isSyn = false := by
        revert receives
        cases r.state <;> decide
      refine ⟨⟨base, stays.lens.short inv.short, sameSize.trans inv.size_eq, ?_, .inr rfl,
        inv.isOpen⟩, fun _ => ⟨late, fun _ => ⟨receives, head, .inr ?_⟩⟩⟩
      · intro early
        exact absurd (late.symm.trans early) nofun
      · apply (RcvCore.Measured.edge_eq ?_ ?_).trans
        · exact congrArg₂ (· + ·) head sameSize
        · rfl
        · rfl
  | fin position state receives here late left =>
      refine ⟨⟨base, inv.short, inv.size_eq, fun early => absurd (late.symm.trans early) nofun,
        ?_, fun back => absurd (left.symm.trans back) nofun⟩,
        fun _ => ⟨late, fun back => absurd (left.symm.trans back) nofun⟩⟩
      rcases inv.window with ⟨wnd, next, merged, high⟩ | measured
      · exact .inl ⟨wnd, next, merged, high⟩
      · exact .inr measured

theorem WindowInv.path (path : RecvPath r r') (inv : r.WindowInv size) :
    r'.WindowInv size ∧ r.Slides r' :=
  path.keeps Slides.refl (fun _ _ _ => Slides.trans) (fun _ _ => WindowInv.move) inv

/-- Filling in the mbuf of a segment does not touch the window. -/
theorem WindowInv.receive (inv : r.WindowInv size) {seg : Segment}
    (arrives : seg.payloadLen < 2 ^ 16) : (r.receive seg).WindowInv size := by
  refine ⟨(inv.toInv.receive seg).1, ?_, inv.size_eq, inv.fresh, inv.window, inv.isOpen⟩
  intro id
  unfold RecvSide.receive
  dsimp only
  by_cases here : id = seg.id
  · rw [here, Function.update_self]
    exact arrives
  · rw [Function.update_of_ne here]
    exact inv.short id

theorem created_window (rcvbufSize : Nat) (seq : Seq) :
    (created rcvbufSize seq).WindowInv (BitVec.ofNat 32 (1400 * rcvbufSize)) := by
  have fresh : (created rcvbufSize seq).rcv.Fresh := ⟨rfl, rfl, rfl, rfl⟩
  refine ⟨created_inv rcvbufSize seq, ?_, rfl, fun _ => fresh, .inl fresh, nofun⟩
  intro id
  exact Nat.two_pow_pos 16

/-- `q_recv` may do both: it takes the edge to the limit, and the limit forward. -/
theorem WindowInv.read (inv : r.WindowInv size) (late : r.state.isSyn = false) :
    r.read.WindowInv size := by
  have moved := RcvMem.qRecv_advances r.buffered
  exact ⟨(inv.toInv.read late).1, moved.lens.short inv.short, moved.size.trans inv.size_eq,
    fun early => absurd (late.symm.trans early) nofun, .inr rfl, inv.isOpen⟩

/-! ## The edge -/

/-- An edge that goes to the limit does not go back. -/
theorem WindowInv.edge_limit (fits : SizeFits size) (inv : r.WindowInv size)
    (receives : r.state.receives = true) : tcpSeqGeq r.rcv.limit r.rcv.edge = true := by
  have next := inv.next receives
  rcases inv.window with fresh | measured
  · rw [fresh.edge_eq next, RcvCore.limit, inv.size_eq]
    exact fits.forward _
  · rw [measured.edge_eq next, tcpSeqGeq_eq]
    simp

theorem Slides.edge (fits : SizeFits size) (inv : r.WindowInv size) (slides : r.Slides r')
    (receives : r.state.receives = true) (receives' : r'.state.receives = true) :
    tcpSeqGeq r'.rcv.edge r.rcv.edge = true := by
  have late : r.state.isSyn = false := by
    revert receives
    cases r.state <;> decide
  obtain ⟨-, -, same | reset⟩ := (slides late).2 receives'
  · rw [same, tcpSeqGeq_eq]
    simp
  · rw [reset]
    exact inv.edge_limit fits receives

/-- A fresh connection has nothing to read; later the limit is the edge. -/
theorem WindowInv.read_edge (fits : SizeFits size) (inv : r.WindowInv size)
    (receives : r.state.receives = true) : tcpSeqGeq r.read.rcv.edge r.rcv.edge = true := by
  have late : r.state.isSyn = false := by
    revert receives
    cases r.state <;> decide
  have next := inv.next receives
  have readEdge : r.read.rcv.edge = r.read.rcv.limit :=
    RcvCore.Measured.edge_eq rfl ((inv.read late).next receives)
  rw [readEdge]
  rcases inv.window with fresh | measured
  · have nothing : r.buffered.qRecv.2 = r.buffered :=
      RcvMem.qRecv_nothing r.buffered fresh.merged fresh.high
    have same : r.read.rcv.limit = r.rcv.limit := by
      rw [RecvSide.read, nothing]
      rfl
    rw [same]
    exact inv.edge_limit fits receives
  · obtain ⟨k, few, head⟩ := (RcvMem.qRecv_advances r.buffered).head inv.short
    have limit : r.read.rcv.limit = r.rcv.limit + BitVec.ofNat 32 k := by
      have sameSize : r.read.rcv.rcvbuf.size = r.rcv.rcvbuf.size :=
        (RcvMem.qRecv_advances r.buffered).size
      rw [RcvCore.limit, sameSize, RcvCore.limit, add_right_comm]
      exact congrArg (· + r.rcv.rcvbuf.size) head
    rw [limit, measured.edge_eq next, tcpSeqGeq_eq, Bool.not_eq_true', Bool.eq_false_iff, tcpSeqLt,
      Ne, Lib.Serial.lt_iff_toNat, add_sub_cancel_left, BitVec.toNat_ofNat]
    have small : (1 + staticBuffSize) * 2 ^ 16 < 2 ^ 31 := by decide
    have value := Nat.mod_le k (2 ^ 32)
    omega

theorem WindowInv.windowFits (fits : SizeFits size) (inv : r.WindowInv size)
    (receives : r.state.receives = true) : r.rcv.WindowFits := by
  have next := inv.next receives
  rcases inv.window with fresh | measured
  · rw [windowFits_initial (next.trans fresh.next.symm) fresh.wnd, inv.size_eq]
    exact fits
  · intro p _ before
    rw [measured.edge_eq next] at before
    rw [tcpSeqGt_eq, Bool.not_eq_false']
    exact Lib.Serial.leq_succ_of_lt before

end Window

end RecvSide

/-! ## Runs -/

namespace ConnEvent

/-- The length of a payload has sixteen bits. -/
def Arrives (e : ConnEvent) : Prop := ∀ seg, e.call = .packet seg → seg.payloadLen < 2 ^ 16

end ConnEvent

namespace Conn

/-- The connections of a stack with this `rcvbuf_size`. -/
inductive Configured (rcvbufSize : Nat) : Conn → Prop
  | passive (sndbufSize : Nat) (iss : Seq) (env : Env) (seg : Segment) (syn : seg.syn = true)
      (noAck : seg.ack = false) (arrives : seg.payloadLen < 2 ^ 16) :
      Configured rcvbufSize (passive rcvbufSize sndbufSize iss env seg)
  | active (sndbufSize : Nat) (iss : Seq) (env : Env) :
      Configured rcvbufSize (active rcvbufSize sndbufSize iss env)

/-- In ESTABLISHED the buffer takes the whole window. -/
def WindowLaw (s : Conn) : Prop :=
  s.view.halted = false → s.st.state = .established → s.view.rcv.WindowFits

/-- In ESTABLISHED the right edge does not move left. -/
def EdgeKept (s : Conn) (_ : ConnEvent) (s' : Conn) : Prop :=
  s'.view.halted = false → s.st.state = .established → s'.st.state = .established →
    tcpSeqGeq s'.view.rcv.edge s.view.rcv.edge = true

/-- The process has ended, or the window is in order. -/
def WndInv (size : Seq) (s : Conn) : Prop :=
  s.view.halted = true ∨ s.cx.recvSide.WindowInv size

theorem WndInv.law {size : Seq} (fits : SizeFits size) {s : Conn} (inv : s.WndInv size) :
    s.WindowLaw := by
  intro running established
  rcases inv with halted | inv
  · rw [running] at halted
    cases halted
  · have receives : s.cx.recvSide.state.receives = true := by
      rw [show s.cx.recvSide.state = .established from established]
      rfl
    have same : s.view.rcv = s.cx.recvSide.rcv := rfl
    rw [same]
    exact inv.windowFits fits receives

theorem entered_window {size : Seq} {s : Conn} {e : ConnEvent} (arrives : e.Arrives)
    (inv : s.cx.recvSide.WindowInv size) :
    (s.entered e).WindowInv size ∧ (s.entered e).rcv = s.cx.recvSide.rcv ∧
      (s.entered e).state = s.cx.recvSide.state := by
  unfold entered
  cases call : e.call with
  | packet seg => exact ⟨inv.receive (arrives seg call), rfl, rfl⟩
  | send | recv | close | handleClose | serveControl | serveSend | serveAck | rto | timewait
  | timeout => exact ⟨inv, rfl, rfl⟩

theorem step_window {size : Seq} (fits : SizeFits size) (s : Conn) (e : ConnEvent)
    (inv : s.WndInv size) (arrives : e.Arrives) :
    (s.step e).WndInv size ∧ s.EdgeKept e (s.step e) := by
  have established {state : TcpState} (same : state = .established) : state.receives = true := by
    rw [same]
    rfl
  unfold step
  split
  · refine ⟨inv, fun _ _ _ => ?_⟩
    rw [tcpSeqGeq_eq]
    simp
  · rename_i running
    have alive : s.view.halted ≠ true := by
      intro halted
      simp [ended, halted] at running
    have before := inv.resolve_left alive
    rcases serve_leads s e with halted | path | ⟨late, read⟩
    · refine ⟨.inl halted, fun up => ?_⟩
      rw [halted] at up
      cases up
    · obtain ⟨inv₁, rcv, state⟩ := entered_window arrives before
      obtain ⟨inv₂, slides⟩ := inv₁.path path
      refine ⟨.inr inv₂, fun _ isIn isStill => ?_⟩
      have kept := slides.edge fits inv₁ (established (state.trans isIn)) (established isStill)
      rw [rcv] at kept
      exact kept
    · unfold WndInv EdgeKept
      have after := before.read late
      rw [← read] at after
      refine ⟨.inr after, fun _ isIn _ => ?_⟩
      have kept := before.read_edge fits (established isIn)
      rw [← read] at kept
      exact kept

theorem Configured.wndInv {rcvbufSize : Nat} {s : Conn} (start : Configured rcvbufSize s) :
    s.WndInv (BitVec.ofNat 32 (1400 * rcvbufSize)) := by
  cases start with
  | passive sndbufSize iss env seg syn noAck arrives =>
      have received := (RecvSide.created_window rcvbufSize seg.seq).receive arrives
      exact (passive_leads rcvbufSize sndbufSize iss env seg).imp_right fun path =>
        (received.path path).1
  | active sndbufSize iss env =>
      have created := RecvSide.created_window rcvbufSize 0
      exact .inr (created.path (active_leads rcvbufSize sndbufSize iss env)).1

/-- The SYN of a peer, and the acknowledgement that completes the handshake. -/
def peerSyn : Segment := { seq := 99, syn := true }

def handshakeAck : ConnEvent := { call := .packet { seq := 100, ackSeq := 501, ack := true } }

/-- Completing a handshake opens the connection with the initial window. -/
theorem handshake_window (rcvbufSize : Nat) :
    ((passive rcvbufSize 10 500 {} peerSyn).step handshakeAck).view.halted = false ∧
      ((passive rcvbufSize 10 500 {} peerSyn).step handshakeAck).st.state = .established ∧
      ((passive rcvbufSize 10 500 {} peerSyn).step handshakeAck).view.rcv =
        { irs := 99
          rcvNxt := 100
          rcvWnd := tcpInitialWindow
          rcvbuf := RcvBuff.zero.rbInit rcvbufSize 100
          fins := [] } :=
  ⟨rfl, rfl, rfl⟩

/-- **The right edge.**  In every run of a stack with this `rcvbuf_size` the right edge of an
ESTABLISHED connection never moves left and every byte of its window passes the bound of `rb_put`,
if and only if the buffer takes the initial window and is not larger than the comparison of
sequence numbers can tell. -/
theorem window_edge (rcvbufSize : Nat) :
    (∀ s, Configured rcvbufSize s → ∀ es, Lib.Run.Allowed step (fun _ e => e.Arrives) s es →
      Lib.Run.Along step WindowLaw s es ∧ Lib.Run.Each step EdgeKept s es) ↔
    SizeFits (BitVec.ofNat 32 (1400 * rcvbufSize)) := by
  constructor
  · intro holds
    have arrives : Lib.Run.Allowed step (fun _ e => e.Arrives)
        (passive rcvbufSize 10 500 {} peerSyn) [handshakeAck] := by
      refine ⟨fun seg call => ?_, trivial⟩
      cases call
      decide
    have law := (holds _ (.passive 10 500 {} peerSyn rfl rfl (by decide)) [handshakeAck] arrives).1
    obtain ⟨running, established, rcv⟩ := handshake_window rcvbufSize
    have fits := law.2 running established
    rw [rcv, windowFits_initial rfl rfl] at fits
    exact fits
  · intro fits s start es arrives
    constructor
    · have along := Lib.Run.along_of_step
        (fun s e inv ok => (step_window fits s e inv ok).1) es s start.wndInv arrives
      exact Lib.Run.Along.mono (fun _ => WndInv.law fits) es s along
    · exact Lib.Run.each_of_step (step_window fits) es s start.wndInv arrives

/-- The first seven bytes of the peer. -/
def firstBytes : ConnEvent :=
  { call := .packet
      { seq := 100, ackSeq := 501, ack := true, payloadLen := 7, id := 1
        mbuf := { mbufState := .rcved, l4Len := 20 } } }

/-- A connection of a stack with the default `rcvbuf_size`, right after its handshake. -/
def defaultOpen : Conn := (passive staticBuffSize 8 500 {} peerSyn).step handshakeAck

/-- With the default configuration the first payload takes the edge back by 3400, and bytes the
peer was allowed to send are out of the buffer. -/
theorem edge_moves_left :
    defaultOpen.st.state = .established ∧ (defaultOpen.step firstBytes).st.state = .established ∧
      (defaultOpen.step firstBytes).view.halted = false ∧ defaultOpen.view.rcv.edge = 14700 ∧
      (defaultOpen.step firstBytes).view.rcv.edge = 11300 ∧
      ¬ EdgeKept defaultOpen firstBytes (defaultOpen.step firstBytes) ∧
      ¬ defaultOpen.WindowLaw := by
  have running : (defaultOpen.step firstBytes).view.halted = false := by decide +kernel
  have before : defaultOpen.st.state = .established := by decide +kernel
  have after : (defaultOpen.step firstBytes).st.state = .established := by decide +kernel
  have edge : defaultOpen.view.rcv.edge = 14700 := by decide +kernel
  have edge' : (defaultOpen.step firstBytes).view.rcv.edge = 11300 := by decide +kernel
  refine ⟨before, after, running, edge, edge', fun kept => ?_, fun law => ?_⟩
  · have moved := kept running before after
    rw [edge, edge'] at moved
    exact absurd moved (by decide)
  · have fits := law (by decide +kernel) before
    have beyond := fits 12000 (by decide +kernel) (by decide +kernel)
    exact absurd beyond (by decide +kernel)

end Conn

end QStack
