/-
# QStack.TxBurst -- the slots of pkts_txburst that dpdk_check_tx_ring fills

`pkts_txburst` has room for `MAX_PKT_BURST` packets.  A call drains it as soon as it holds
`MAX_PKT_TX_BURST`, so that it fills no slot from there on, but the first: a packet is stored before
`num` is looked at, and what the NIC has left is carried into the next call.  Every call that finds
a packet while the NIC takes nothing moves `tx_num` up by one, and nothing bounds it.

`stores` lists the slots one call fills.  `stores_lt_iff` says when they are all in the array: when
`tx_num` is below the length of it or nothing is queued.  `txNum_stalls` counts what gets there: 64,
and one for each call whose first burst finds the NIC busy.
-/
import QStack.TxRing

namespace QStack

set_option autoImplicit false

/-- The length of `pkts_txburst`. -/
def maxPktBurst : Nat := 256

/-! ## The slots of one call -/

namespace TxCall

variable {α : Type}

/-- The indices `num` under which `highLoop` stores. -/
def highStores : Nat → TxCall α → List Nat
  | 0, _ => []
  | rounds + 1, c =>
      if c.thMbufs.cirqEmpty then []
      else
        match c.thMbufs.cirqGet with
        | (none, _) => [c.num]
        | (some pkt, q) =>
            let loaded := ({ c with thMbufs := q }.load (some pkt)).count
            c.num ::
              if maxPktTxBurst ≤ loaded.num then
                match loaded.burstLoop maxTxCheckBatch with
                | (true, _) => []
                | (false, c) => highStores rounds c
              else highStores rounds loaded

/-- Those of `lowLoop`. -/
def lowStores : Nat → TxCall α → List Nat
  | 0, _ => []
  | rounds + 1, c =>
      if c.tlMbufs.cirqEmpty then []
      else
        match c.tlMbufs.cirqGet with
        | (none, _) => [c.num]
        | (some pkt, q) =>
            let loaded := ({ c with tlMbufs := q }.load (some pkt)).count
            c.num :: if maxPktTxBurst ≤ loaded.num then [] else lowStores rounds loaded

end TxCall

namespace TxRing

variable {α : Type}

/-- The indices under which a call of `dpdk_check_tx_ring` stores packets. -/
def stores (nic : List Nat) (s : TxRing α) : List Nat :=
  let c : TxCall α := { toTxRing := s, num := s.txNum, nic := nic }
  c.highStores c.thMbufs.cirqCount ++
    match c.highLoop c.thMbufs.cirqCount with
    | (true, _) => []
    | (false, c) => c.lowStores c.tlMbufs.cirqCount

/-- The next packet, if there is one, has a slot. -/
def HasSlot (s : TxRing α) : Prop :=
  s.txNum < maxPktBurst ∨ s.thMbufs.cirqEmpty = true ∧ s.tlMbufs.cirqEmpty = true

end TxRing

/-! ## The loops -/

namespace TxCall

variable {α : Type} {c : TxCall α}

@[simp] theorem num_moveDown (c : TxCall α) (nbTx : Nat) : (c.moveDown nbTx).num = c.num := rfl

@[simp] theorem num_sent (c : TxCall α) (nbTx : Nat) : (c.sent nbTx).num = c.num - nbTx := rfl

@[simp] theorem num_forget (c : TxCall α) (nbTx : Nat) : (c.forget nbTx).num = c.num := rfl

/-- The inner loop returns, or drains the array. -/
theorem burstLoop_drains : ∀ (rounds : Nat) (c : TxCall α), 0 < rounds →
    maxTxCheckBatch ≤ c.loopTime + rounds → (c.burstLoop rounds).1 = false →
      (c.burstLoop rounds).2.num = 0 := by
  intro rounds
  induction rounds with
  | zero => exact fun _ none _ _ => absurd none (Nat.lt_irrefl 0)
  | succ rounds ih =>
      intro c _ enough stays
      rw [burstLoop] at stays ⊢
      dsimp only at stays ⊢
      split_ifs at stays ⊢ with drained limit
      · exact drained
      · change ¬ maxTxCheckBatch ≤ c.loopTime + 1 at limit
        refine ih _ (by omega) ?_ stays
        change maxTxCheckBatch ≤ c.loopTime + 1 + rounds
        omega

theorem burstLoop_num : ∀ (rounds : Nat) (c : TxCall α), (c.burstLoop rounds).2.num ≤ c.num := by
  intro rounds
  induction rounds with
  | zero => exact fun c => Nat.le_refl _
  | succ rounds ih =>
      intro c
      rw [burstLoop]
      dsimp only
      split_ifs
      · exact Nat.le_refl _
      · exact Nat.sub_le _ _
      · exact (ih _).trans (Nat.sub_le _ _)

/-- **The first queue.**  When the first packet has a slot, so has every other, and so will the
second queue have for its first. -/
theorem highStores_lt : ∀ (rounds : Nat) {c : TxCall α}, c.num < maxPktBurst →
    (∀ i ∈ c.highStores rounds, i < maxPktBurst) ∧
      ((c.highLoop rounds).1 = false → (c.highLoop rounds).2.num < maxPktBurst) := by
  intro rounds
  induction rounds with
  | zero => exact fun room => ⟨fun i mem => absurd mem List.not_mem_nil, fun _ => room⟩
  | succ rounds ih =>
      intro c room
      rw [highStores, highLoop]
      cases empty : c.thMbufs.cirqEmpty with
      | true => exact ⟨fun i mem => absurd mem List.not_mem_nil, fun _ => room⟩
      | false =>
          rw [if_neg Bool.false_ne_true, if_neg Bool.false_ne_true]
          generalize c.thMbufs.cirqGet = got
          obtain ⟨pkt, q⟩ := got
          cases pkt with
          | none => exact ⟨by simpa using room, fun stays => by cases stays⟩
          | some pkt =>
              dsimp only
              generalize loaded : ({ c with thMbufs := q }.load (some pkt)).count = d
              have rest : d.num < maxPktTxBurst ∨ maxPktTxBurst ≤ d.num := Nat.lt_or_ge _ _
              rcases rest with few | many
              · rw [if_neg (Nat.not_le.mpr few), if_neg (Nat.not_le.mpr few)]
                obtain ⟨stores, stays⟩ := ih (few.trans (by decide))
                exact ⟨List.forall_mem_cons.mpr ⟨room, stores⟩, stays⟩
              · rw [if_pos many, if_pos many]
                have drains := burstLoop_drains maxTxCheckBatch d (by decide)
                  (Nat.le_add_left _ _)
                generalize d.burstLoop maxTxCheckBatch = result at drains ⊢
                obtain ⟨returned, d'⟩ := result
                cases returned with
                | true => exact ⟨by simpa using room, fun stays => by cases stays⟩
                | false =>
                    have drained : d'.num = 0 := drains rfl
                    obtain ⟨stores, stays⟩ := ih (c := d') (by rw [drained]; decide)
                    exact ⟨List.forall_mem_cons.mpr ⟨room, stores⟩, stays⟩

theorem lowStores_lt : ∀ (rounds : Nat) {c : TxCall α}, c.num < maxPktBurst →
    ∀ i ∈ c.lowStores rounds, i < maxPktBurst := by
  intro rounds
  induction rounds with
  | zero => exact fun _ => nofun
  | succ rounds ih =>
      intro c room
      rw [lowStores]
      cases empty : c.tlMbufs.cirqEmpty with
      | true => exact nofun
      | false =>
          rw [if_neg Bool.false_ne_true]
          generalize c.tlMbufs.cirqGet = got
          obtain ⟨pkt, q⟩ := got
          cases pkt with
          | none => simpa using room
          | some pkt =>
              dsimp only
              generalize ({ c with tlMbufs := q }.load (some pkt)).count = d
              split_ifs with many
              · simpa using room
              · exact List.forall_mem_cons.mpr
                  ⟨room, ih ((Nat.not_le.mp many).trans (by decide))⟩

/-- A queue that is not empty is stored from at once. -/
theorem num_mem_highStores {rounds : Nat} (stocked : c.thMbufs.cirqEmpty = false)
    (some_ : 0 < rounds) : c.num ∈ c.highStores rounds := by
  obtain ⟨rounds, rfl⟩ := Nat.exists_eq_succ_of_ne_zero (Nat.ne_of_gt some_)
  rw [highStores, if_neg (by rw [stocked]; exact Bool.false_ne_true)]
  generalize c.thMbufs.cirqGet = got
  obtain ⟨pkt, q⟩ := got
  cases pkt <;> exact List.mem_cons_self

theorem num_mem_lowStores {rounds : Nat} (stocked : c.tlMbufs.cirqEmpty = false)
    (some_ : 0 < rounds) : c.num ∈ c.lowStores rounds := by
  obtain ⟨rounds, rfl⟩ := Nat.exists_eq_succ_of_ne_zero (Nat.ne_of_gt some_)
  rw [lowStores, if_neg (by rw [stocked]; exact Bool.false_ne_true)]
  generalize c.tlMbufs.cirqGet = got
  obtain ⟨pkt, q⟩ := got
  cases pkt <;> exact List.mem_cons_self

/-- 1 when the first burst that is to come finds the NIC busy. -/
def busy (c : TxCall α) : Nat := if c.nic.headD 0 = 0 then 1 else 0

/-- Where a call that begins with `num` packets in the array leaves it at most. -/
def level (c : TxCall α) : Nat := max maxPktTxBurst (c.num + c.busy)

theorem level_of_few (few : c.num < maxPktTxBurst) : c.level = maxPktTxBurst := by
  have one : c.busy ≤ 1 := by
    unfold busy
    split <;> omega
  exact Nat.max_eq_left (by omega)

theorem burst_num (some_ : 0 < c.num) : c.num - c.rteEthTxBurst.1 + 1 ≤ c.num + c.busy := by
  change c.num - min (c.nic.headD 0) c.num + 1 ≤ c.num + c.busy
  unfold busy
  split <;> omega

theorem burstLoop_first {rounds : Nat} (some_ : 0 < c.num) :
    (c.burstLoop (rounds + 1)).2.num + 1 ≤ c.num + c.busy := by
  have first := burst_num some_
  rw [burstLoop, if_neg (Nat.ne_of_gt some_)]
  dsimp only
  split_ifs
  · exact first
  · exact (Nat.succ_le_succ (burstLoop_num _ _)).trans first

/-- The first queue goes round with fewer than 64 packets, or finds nothing at all. -/
theorem highLoop_num : ∀ (rounds : Nat) (c : TxCall α), (c.highLoop rounds).2.num ≤ c.level ∧
    ((c.highLoop rounds).1 = false →
      (c.highLoop rounds).2.num < maxPktTxBurst ∨ (c.highLoop rounds).2 = c) := by
  intro rounds
  induction rounds with
  | zero =>
      exact fun c => ⟨(Nat.le_add_right _ _).trans (Nat.le_max_right _ _), fun _ => .inr rfl⟩
  | succ rounds ih =>
      intro c
      have now : c.num ≤ c.level := (Nat.le_add_right _ _).trans (Nat.le_max_right _ _)
      have least : maxPktTxBurst ≤ c.level := Nat.le_max_left _ _
      -- after a packet has been stored, with fewer than 64 in the array
      have next : ∀ d : TxCall α, d.num < maxPktTxBurst → (d.highLoop rounds).2.num ≤ c.level ∧
          ((d.highLoop rounds).1 = false →
            (d.highLoop rounds).2.num < maxPktTxBurst ∨ (d.highLoop rounds).2 = c) := by
        intro d few
        obtain ⟨bound, stays⟩ := ih d
        rw [level_of_few few] at bound
        refine ⟨bound.trans least, fun goes => .inl ?_⟩
        rcases stays goes with fewer | same
        · exact fewer
        · rw [same]
          exact few
      rw [highLoop]
      cases empty : c.thMbufs.cirqEmpty with
      | true => exact ⟨now, fun _ => .inr rfl⟩
      | false =>
          rw [if_neg Bool.false_ne_true]
          generalize c.thMbufs.cirqGet = got
          obtain ⟨pkt, q⟩ := got
          cases pkt with
          | none => exact ⟨now, fun stays => by cases stays⟩
          | some pkt =>
              dsimp only
              have first : (({ c with thMbufs := q }.load (some pkt)).count.burstLoop
                  maxTxCheckBatch).2.num + 1 ≤ c.num + 1 + c.busy :=
                burstLoop_first (Nat.succ_pos _)
              have drains := burstLoop_drains maxTxCheckBatch
                ({ c with thMbufs := q }.load (some pkt)).count (by decide) (Nat.le_add_left _ _)
              split_ifs with many
              · generalize burstLoop maxTxCheckBatch _ = result at first drains ⊢
                obtain ⟨returned, d⟩ := result
                cases returned with
                | true =>
                    have bound : d.num ≤ c.num + c.busy := by
                      change d.num + 1 ≤ _ at first
                      omega
                    exact ⟨bound.trans (Nat.le_max_right _ _), fun stays => by cases stays⟩
                | false =>
                    have drained : d.num = 0 := drains rfl
                    exact next d (by rw [drained]; decide)
              · exact next _ (Nat.not_le.mp many)

theorem lowLoop_num : ∀ (rounds : Nat) (c : TxCall α), (c.lowLoop rounds).num ≤ c.level := by
  intro rounds
  induction rounds with
  | zero => exact fun c => (Nat.le_add_right _ _).trans (Nat.le_max_right _ _)
  | succ rounds ih =>
      intro c
      have now : c.num ≤ c.level := (Nat.le_add_right _ _).trans (Nat.le_max_right _ _)
      rw [lowLoop]
      cases empty : c.tlMbufs.cirqEmpty with
      | true => exact now
      | false =>
          rw [if_neg Bool.false_ne_true]
          generalize c.tlMbufs.cirqGet = got
          obtain ⟨pkt, q⟩ := got
          cases pkt with
          | none => exact now
          | some pkt =>
              dsimp only
              have first := burst_num
                (c := ({ c with tlMbufs := q }.load (some pkt)).count) (Nat.succ_pos _)
              split_ifs with many
              · refine (?_ : _ ≤ c.num + c.busy).trans (Nat.le_max_right _ _)
                exact Nat.le_of_succ_le_succ (first.trans_eq (Nat.succ_add _ _))
              · refine (ih _).trans ?_
                rw [level_of_few (Nat.not_le.mp many)]
                exact Nat.le_max_left _ _

theorem lastBurst_num (c : TxCall α) : c.lastBurst.num ≤ c.num := by
  unfold lastBurst
  split
  · exact Nat.sub_le _ _
  · exact Nat.le_refl _

/-! ## The other slots -/

theorem moveDown_frame {i nbTx : Nat} (beyond : c.num ≤ i) :
    (c.moveDown nbTx).pktsTxburst i = c.pktsTxburst i :=
  (moved_slots c.pktsTxburst nbTx c.num i).trans (if_neg (Nat.not_lt.mpr beyond))

theorem burstLoop_frame {i : Nat} : ∀ (rounds : Nat) {c : TxCall α}, c.num ≤ i →
    (c.burstLoop rounds).2.pktsTxburst i = c.pktsTxburst i := by
  intro rounds
  induction rounds with
  | zero => exact fun _ => rfl
  | succ rounds ih =>
      intro c beyond
      have fewer : c.num - c.rteEthTxBurst.1 ≤ i := (Nat.sub_le _ _).trans beyond
      have kept := @moveDown_frame α ({ c.rteEthTxBurst.2 with
        loopTime := c.rteEthTxBurst.2.loopTime + 1 }.sent c.rteEthTxBurst.1) i c.rteEthTxBurst.1
        fewer
      rw [burstLoop]
      dsimp only
      split_ifs
      · rfl
      · exact kept
      · exact (ih fewer).trans kept

theorem load_frame {i : Nat} {pkt : Option α} (other : c.num ≠ i) :
    (c.load pkt).pktsTxburst i = c.pktsTxburst i := Function.update_of_ne other.symm _ _

/-- A slot behind all that the loop fills is left alone. -/
theorem highLoop_frame {i : Nat} : ∀ (rounds : Nat) {c : TxCall α}, c.num ≤ i →
    (∀ j ∈ c.highStores rounds, j < i) →
      (c.highLoop rounds).2.pktsTxburst i = c.pktsTxburst i ∧ (c.highLoop rounds).2.num ≤ i := by
  intro rounds
  induction rounds with
  | zero => exact fun beyond _ => ⟨rfl, beyond⟩
  | succ rounds ih =>
      intro c beyond stores
      rw [highStores] at stores
      rw [highLoop]
      cases empty : c.thMbufs.cirqEmpty with
      | true => exact ⟨rfl, beyond⟩
      | false =>
          rw [empty, if_neg Bool.false_ne_true] at stores
          rw [if_neg Bool.false_ne_true]
          generalize c.thMbufs.cirqGet = got at stores ⊢
          obtain ⟨pkt, q⟩ := got
          cases pkt with
          | none => exact ⟨load_frame (Nat.ne_of_lt (stores _ List.mem_cons_self)), beyond⟩
          | some pkt =>
              dsimp only at stores ⊢
              obtain ⟨here, later⟩ := List.forall_mem_cons.mp stores
              have kept : ({ c with thMbufs := q }.load (some pkt)).count.pktsTxburst i =
                  c.pktsTxburst i := load_frame (Nat.ne_of_lt here)
              have num : ({ c with thMbufs := q }.load (some pkt)).count.num ≤ i := here
              generalize ({ c with thMbufs := q }.load (some pkt)).count = d at later kept num ⊢
              split_ifs with many
              · rw [if_pos many] at later
                have bursts := burstLoop_frame maxTxCheckBatch num
                have fewer := burstLoop_num maxTxCheckBatch d
                generalize d.burstLoop maxTxCheckBatch = result at later bursts fewer ⊢
                obtain ⟨returned, d'⟩ := result
                cases returned with
                | true => exact ⟨bursts.trans kept, fewer.trans num⟩
                | false =>
                    obtain ⟨same, bound⟩ := ih (fewer.trans num) later
                    exact ⟨same.trans (bursts.trans kept), bound⟩
              · rw [if_neg many] at later
                obtain ⟨same, bound⟩ := ih num later
                exact ⟨same.trans kept, bound⟩

theorem lowLoop_frame {i : Nat} : ∀ (rounds : Nat) {c : TxCall α}, c.num ≤ i →
    (∀ j ∈ c.lowStores rounds, j < i) →
      (c.lowLoop rounds).pktsTxburst i = c.pktsTxburst i ∧ (c.lowLoop rounds).num ≤ i := by
  intro rounds
  induction rounds with
  | zero => exact fun beyond _ => ⟨rfl, beyond⟩
  | succ rounds ih =>
      intro c beyond stores
      rw [lowStores] at stores
      rw [lowLoop]
      cases empty : c.tlMbufs.cirqEmpty with
      | true => exact ⟨rfl, beyond⟩
      | false =>
          rw [empty, if_neg Bool.false_ne_true] at stores
          rw [if_neg Bool.false_ne_true]
          generalize c.tlMbufs.cirqGet = got at stores ⊢
          obtain ⟨pkt, q⟩ := got
          cases pkt with
          | none => exact ⟨load_frame (Nat.ne_of_lt (stores _ List.mem_cons_self)), beyond⟩
          | some pkt =>
              dsimp only at stores ⊢
              obtain ⟨here, later⟩ := List.forall_mem_cons.mp stores
              have kept : ({ c with tlMbufs := q }.load (some pkt)).count.pktsTxburst i =
                  c.pktsTxburst i := load_frame (Nat.ne_of_lt here)
              have num : ({ c with tlMbufs := q }.load (some pkt)).count.num ≤ i := here
              generalize ({ c with tlMbufs := q }.load (some pkt)).count = d at later kept num ⊢
              split_ifs with many
              · have fewer : d.num - d.rteEthTxBurst.1 ≤ i := (Nat.sub_le _ _).trans num
                exact ⟨(moveDown_frame fewer).trans kept, fewer⟩
              · rw [if_neg many] at later
                obtain ⟨same, bound⟩ := ih num later
                exact ⟨same.trans kept, bound⟩

theorem lastBurst_frame {i : Nat} (beyond : c.num ≤ i) :
    c.lastBurst.pktsTxburst i = c.pktsTxburst i := by
  unfold lastBurst
  split
  · have taken : c.rteEthTxBurst.1 ≤ i := (burst_le c).trans beyond
    refine (moveDown_frame ((Nat.sub_le _ _).trans beyond)).trans ?_
    exact (forgotten_slots c.pktsTxburst c.rteEthTxBurst.1 i).trans
      (if_neg (Nat.not_lt.mpr taken))
  · rfl

end TxCall

namespace TxRing

variable {α : Type} {s : TxRing α} {nic : List Nat}

/-! ## One call -/

/-- **One call stays in the array** exactly when its first packet has a slot. -/
theorem stores_lt_iff (conserves : s.Conserves) (nic : List Nat) :
    (∀ i ∈ s.stores nic, i < maxPktBurst) ↔ s.HasSlot := by
  obtain ⟨H, L, taken, moves⟩ := conserves.moves nic
  have high : s.thMbufs.cirqCount = H.length := moves.high.count_eq
  have low : s.tlMbufs.cirqCount = L.length := moves.low.count_eq
  constructor
  · intro inside
    rw [HasSlot, moves.high.empty_iff, moves.low.empty_iff]
    by_contra none_
    obtain ⟨full, some_⟩ := not_or.mp none_
    refine full (inside s.txNum (List.mem_append.mpr ?_))
    cases H with
    | cons a H =>
        refine .inl (TxCall.num_mem_highStores ?_ ?_)
        · exact Bool.eq_false_iff.mpr fun empty => by
            cases moves.high.empty_iff.mp empty
        · change 0 < s.thMbufs.cirqCount
          rw [high]
          exact Nat.succ_pos _
    | nil =>
        have stocked : L ≠ [] := fun empty => some_ ⟨rfl, empty⟩
        rw [show s.thMbufs.cirqCount = 0 from high]
        refine .inr (TxCall.num_mem_lowStores ?_ ?_)
        · exact Bool.eq_false_iff.mpr fun empty => stocked (moves.low.empty_iff.mp empty)
        · change 0 < s.tlMbufs.cirqCount
          rw [low]
          exact List.length_pos_iff.mpr stocked
  · rintro (room | ⟨none_, noLow⟩) i mem
    · have high := TxCall.highStores_lt s.thMbufs.cirqCount
        (c := { toTxRing := s, num := s.txNum, nic := nic }) room
      rcases List.mem_append.mp mem with mem | mem
      · exact high.1 i mem
      · generalize TxCall.highLoop _ _ = result at high mem
        obtain ⟨returned, c⟩ := result
        cases returned with
        | true => cases mem
        | false => exact TxCall.lowStores_lt _ (high.2 rfl) i mem
    · obtain rfl := moves.high.empty_iff.mp none_
      obtain rfl := moves.low.empty_iff.mp noLow
      have count : s.thMbufs.cirqCount = 0 := high
      have lowCount : s.tlMbufs.cirqCount = 0 := low
      rw [stores] at mem
      dsimp only at mem
      rw [count] at mem
      change i ∈ [] ++ TxCall.lowStores s.tlMbufs.cirqCount _ at mem
      rw [lowCount] at mem
      cases mem

/-- What is behind every slot a call fills is not written. -/
theorem check_frame {i : Nat} (conserves : s.Conserves) (beyond : s.txNum ≤ i)
    (stores : ∀ j ∈ s.stores nic, j < i) :
    (s.dpdkCheckTxRing nic).2.txNum ≤ i ∧
      (s.dpdkCheckTxRing nic).2.pktsTxburst i = s.pktsTxburst i := by
  obtain ⟨H, L, taken, moves⟩ := conserves.moves nic
  obtain ⟨H', taken', highMoves⟩ := TxCall.highLoop_moves s.thMbufs.cirqCount moves
  have high := TxCall.highLoop_frame s.thMbufs.cirqCount
    (c := { toTxRing := s, num := s.txNum, nic := nic }) beyond
    fun j mem => stores j (List.mem_append_left _ mem)
  have low := fun j mem => stores j (List.mem_append_right _ mem)
  unfold dpdkCheckTxRing
  dsimp only at low ⊢
  generalize TxCall.highLoop _ _ = result at high low highMoves ⊢
  obtain ⟨returned, c⟩ := result
  cases returned with
  | true => exact ⟨highMoves.num.trans_le high.2, high.1⟩
  | false =>
      obtain ⟨same, bound⟩ := TxCall.lowLoop_frame c.tlMbufs.cirqCount high.2 low
      obtain ⟨L', taken'', lowMoves⟩ := TxCall.lowLoop_moves c.tlMbufs.cirqCount highMoves
      have num := (TxCall.lastBurst_moves lowMoves).num
      exact ⟨num.trans_le ((TxCall.lastBurst_num _).trans bound),
        (TxCall.lastBurst_frame bound).trans (same.trans high.1)⟩

/-- A call whose first burst finds the NIC busy leaves one packet more, any other none. -/
theorem check_txNum (conserves : s.Conserves) (nic : List Nat) :
    (s.dpdkCheckTxRing nic).2.txNum ≤
      max maxPktTxBurst (s.txNum + if nic.headD 0 = 0 then 1 else 0) := by
  obtain ⟨H, L, taken, moves⟩ := conserves.moves nic
  unfold dpdkCheckTxRing
  dsimp only
  obtain ⟨H', taken', high⟩ := TxCall.highLoop_moves s.thMbufs.cirqCount moves
  have bound := TxCall.highLoop_num s.thMbufs.cirqCount
    { toTxRing := s, num := s.txNum, nic := nic }
  generalize TxCall.highLoop _ _ = result at high bound ⊢
  obtain ⟨returned, c⟩ := result
  cases returned with
  | true => exact high.num.trans_le bound.1
  | false =>
      obtain ⟨L', taken'', low⟩ := TxCall.lowLoop_moves c.tlMbufs.cirqCount high
      have last := (TxCall.lastBurst_moves low).num
      refine last.trans_le ((TxCall.lastBurst_num _).trans ((TxCall.lowLoop_num _ c).trans ?_))
      rcases bound.2 rfl with few | same
      · rw [TxCall.level_of_few few]
        exact Nat.le_max_left _ _
      · exact (congrArg TxCall.level same).le

/-! ## The law -/

/-- The calls that find the NIC busy. -/
def stalls (es : List (Event α)) : Nat :=
  es.countP fun e =>
    match e with
    | .check nic => nic.headD 0 == 0
    | .txSend .. => false

/-- Every slot a call fills is in the array. -/
def InArray (s : TxRing α) (e : Event α) (_ : TxRing α) : Prop :=
  ∀ nic, e = .check nic → s.exited = false → ∀ i ∈ s.stores nic, i < maxPktBurst

def SlotOk (s : TxRing α) (e : Event α) : Prop :=
  ∀ nic, e = .check nic → s.exited = false → s.HasSlot

theorem inArray_iff (conserves : s.Conserves) (e : Event α) :
    s.InArray e (s.step e) ↔ s.SlotOk e :=
  forall_congr' fun nic => forall_congr' fun _ => forall_congr' fun _ =>
    stores_lt_iff conserves nic

/-- **The burst array.**  A run stays in the array exactly when each of its calls finds `tx_num`
below the length of the array, or nothing to send. -/
theorem burst_array_law {size : Nat} (room : 0 < size) (es : List (Event α)) :
    Lib.Run.Each step InArray (init size) es ↔ Lib.Run.Allowed step SlotOk (init size) es :=
  Lib.Run.each_iff_allowed (fun _ e conserves => (step_conserves conserves e).1)
    (fun _ e conserves => inArray_iff conserves e) es _ (init_conserves room)

theorem burst_array_law_two : 0 < 2 ∧
    (Lib.Run.Each step InArray (init 2) [.txSend .high 7, .check [0], .check [1]] ↔
      Lib.Run.Allowed step SlotOk (init 2) [.txSend .high 7, .check [0], .check [1]]) :=
  ⟨by decide, burst_array_law (by decide) [.txSend .high 7, .check [0], .check [1]]⟩

/-- What a run that stays in the array keeps: nothing behind the array is written. -/
structure Kept (s : TxRing α) : Prop where
  conserves : s.Conserves
  num : s.txNum ≤ maxPktBurst
  behind : ∀ i, maxPktBurst ≤ i → s.pktsTxburst i = none

theorem send_slots (s : TxRing α) (level : TxLevel) (pkt : α) :
    (s.dpdkTxSend level pkt).txNum = s.txNum ∧
      (s.dpdkTxSend level pkt).pktsTxburst = s.pktsTxburst := by
  unfold dpdkTxSend
  cases level <;> dsimp only <;> split <;> exact ⟨rfl, rfl⟩

theorem kept_step (kept : s.Kept) (e : Event α) (ok : s.SlotOk e) : (s.step e).Kept := by
  have slots : (s.step e).txNum ≤ maxPktBurst ∧
      ∀ i, maxPktBurst ≤ i → (s.step e).pktsTxburst i = none := by
    unfold step
    split
    · exact ⟨kept.num, kept.behind⟩
    · rename_i runs
      cases e with
      | txSend level pkt =>
          obtain ⟨num, slots⟩ := send_slots s level pkt
          exact ⟨num.trans_le kept.num, fun i far => (congrFun slots i).trans (kept.behind i far)⟩
      | check nic =>
          have inside := (stores_lt_iff kept.conserves nic).mpr
            (ok nic rfl (Bool.eq_false_iff.mpr runs))
          have frame := fun (i : Nat) (far : maxPktBurst ≤ i) =>
            check_frame kept.conserves (kept.num.trans far) fun j mem => (inside j mem).trans_le far
          exact ⟨(frame maxPktBurst (Nat.le_refl _)).1,
            fun i far => (frame i far).2.trans (kept.behind i far)⟩
  exact ⟨(step_conserves kept.conserves e).1, slots.1, slots.2⟩

/-- **Nothing behind the array is written** in such a run. -/
theorem behind_kept {size : Nat} (room : 0 < size) {es : List (Event α)}
    (allowed : Lib.Run.Allowed step SlotOk (init size) es) :
    Lib.Run.Along step Kept (init size) es :=
  Lib.Run.along_of_step (fun _ e kept ok => kept_step kept e ok) es _
    ⟨init_conserves room, Nat.zero_le _, fun _ _ => rfl⟩ allowed

/-- What fewer than 192 stalls leave behind is no more than a call can take. -/
theorem stalls_kept : ∀ (es : List (Event α)) {s : TxRing α}, s.Conserves →
    s.txNum + stalls es < maxPktBurst → maxPktTxBurst + stalls es < maxPktBurst →
      Lib.Run.Allowed step SlotOk s es := by
  intro es
  induction es with
  | nil => exact fun _ _ _ => trivial
  | cons e es ih =>
      intro s conserves few least
      have next := (step_conserves conserves e).1
      have count : stalls (e :: es) = stalls es + stalls [e] := by
        rw [stalls, stalls, stalls, List.countP_cons, List.countP_singleton]
      rw [count] at few least
      refine ⟨fun _ _ _ => .inl (by omega), ih next ?_ (by omega)⟩
      have bound : (s.step e).txNum ≤ max maxPktTxBurst (s.txNum + stalls [e]) := by
        unfold step
        split
        · exact (Nat.le_add_right _ _).trans (Nat.le_max_right _ _)
        · cases e with
          | txSend level pkt =>
              exact (send_slots s level pkt).1.trans_le ((Nat.le_add_right _ _).trans (Nat.le_max_right _ _))
          | check nic =>
              refine (check_txNum conserves nic).trans_eq ?_
              rw [stalls, List.countP_singleton]
              simp only [beq_iff_eq]
      omega

/-- **A NIC that is seldom busy.**  A run with fewer than 192 calls whose first burst finds the NIC
busy stays in the array. -/
theorem few_stalls {size : Nat} (room : 0 < size) {es : List (Event α)}
    (few : maxPktTxBurst + stalls es < maxPktBurst) :
    Lib.Run.Each step InArray (init size) es := by
  refine (Lib.Run.each_iff_allowed (P := Conserves)
    (fun _ e conserves => (step_conserves conserves e).1)
    (fun _ e conserves => inArray_iff conserves e) es _ (init_conserves room)).mpr ?_
  refine stalls_kept es (init_conserves room) ?_ few
  change 0 + stalls es < maxPktBurst
  omega

end TxRing

/-! ## A NIC that takes nothing -/

namespace TxCall

variable {α : Type} {c : TxCall α}

/-- The packets wait, and the rest of the context is as before. -/
structure Waits (n : Nat) (c d : TxCall α) : Prop where
  num : d.num = n
  txNum : d.txNum = n
  nic : d.nic = []
  high : d.thMbufs = c.thMbufs
  low : d.tlMbufs = c.tlMbufs
  exited : d.exited = c.exited

theorem burst_busy (busy : c.nic = []) : c.rteEthTxBurst.1 = 0 := by
  rw [rteEthTxBurst, busy]
  exact Nat.zero_min _

theorem burstLoop_busy : ∀ (rounds : Nat) {c : TxCall α}, 0 < rounds → c.nic = [] → 0 < c.num →
    maxTxCheckBatch ≤ c.loopTime + rounds →
      (c.burstLoop rounds).1 = true ∧ Waits c.num c (c.burstLoop rounds).2 := by
  intro rounds
  induction rounds with
  | zero => exact fun none _ _ _ => absurd none (Nat.lt_irrefl 0)
  | succ rounds ih =>
      intro c _ busy some_ enough
      have num : c.num - c.rteEthTxBurst.1 = c.num := by rw [burst_busy busy, Nat.sub_zero]
      have nic : c.nic.tail = [] := by rw [busy]; rfl
      have loops := @ih (({ c.rteEthTxBurst.2 with
        loopTime := c.rteEthTxBurst.2.loopTime + 1 }.sent c.rteEthTxBurst.1).moveDown
          c.rteEthTxBurst.1)
      rw [burstLoop, if_neg (Nat.ne_of_gt some_)]
      dsimp only
      split_ifs with limit
      · exact ⟨rfl, num, num, nic, rfl, rfl, rfl⟩
      · change ¬ maxTxCheckBatch ≤ c.loopTime + 1 at limit
        obtain ⟨returns, waits⟩ := loops (by omega) nic (some_.trans_eq num.symm) (by
          change maxTxCheckBatch ≤ c.loopTime + 1 + rounds
          omega)
        exact ⟨returns, waits.num.trans num, waits.txNum.trans num, waits.nic, waits.high,
          waits.low, waits.exited⟩

theorem lastBurst_busy (busy : c.nic = []) (txNum : c.txNum = c.num) :
    Waits c.num c c.lastBurst := by
  have num : c.num - c.rteEthTxBurst.1 = c.num := by rw [burst_busy busy, Nat.sub_zero]
  unfold lastBurst
  split
  · exact ⟨num, num, by change c.nic.tail = []; rw [busy]; rfl, rfl, rfl, rfl⟩
  · exact ⟨rfl, txNum, busy, rfl, rfl, rfl⟩

end TxCall

namespace TxRing

/-- Both queues are empty, and `n` packets wait in the array. -/
structure Stalled (n : Nat) (s : TxRing Nat) : Prop where
  runs : s.exited = false
  num : s.txNum = n
  size : s.thMbufs.size = 2
  high : s.thMbufs.Window []
  low : s.tlMbufs.Window []

variable {n : Nat} {s : TxRing Nat}

theorem Stalled.init : Stalled 0 (init 2) where
  runs := rfl
  num := rfl
  size := rfl
  high := CircularQueue.cirqInit_window (by decide)
  low := CircularQueue.cirqInit_window (by decide)

/-- The next packet is queued. -/
structure Queued (n : Nat) (s : TxRing Nat) : Prop where
  runs : s.exited = false
  num : s.txNum = n
  size : s.thMbufs.size = 2
  high : s.thMbufs.Window [0]
  low : s.tlMbufs.Window []

theorem Stalled.send (stalled : Stalled n s) : Queued n (s.step (.txSend .high 0)) := by
  have room : s.thMbufs.cirqFull = false := Bool.eq_false_iff.mpr fun full => by
    have last := stalled.high.full_iff.mp full
    rw [stalled.size] at last
    cases last
  have sent : s.step (.txSend .high 0) = { s with
      thMbufs := (s.thMbufs.cirqAdd 0).2
      queued := s.queued ++ [(.high, 0)] } := by
    rw [step, if_neg (by rw [stalled.runs]; exact Bool.false_ne_true)]
    exact if_neg (by rw [room]; exact Bool.false_ne_true)
  rw [sent]
  refine ⟨stalled.runs, stalled.num, ?_, stalled.high.cirqAdd room 0, stalled.low⟩
  rw [CircularQueue.cirqAdd_room room]
  exact stalled.size

/-- **A busy NIC leaves one packet more.** -/
theorem Queued.check (queued : Queued n s) : Stalled (n + 1) (s.step (.check [])) := by
  have stocked : s.thMbufs.cirqEmpty = false :=
    Bool.eq_false_iff.mpr fun empty => by cases queued.high.empty_iff.mp empty
  obtain ⟨a, rest, same, got, window⟩ := queued.high.cirqGet stocked
  obtain ⟨rfl, rfl⟩ := List.cons.inj same
  have count : s.thMbufs.cirqCount = 1 := queued.high.count_eq
  have size : s.thMbufs.cirqGet.2.size = 2 := by
    rw [CircularQueue.cirqGet, if_neg (by rw [stocked]; exact Bool.false_ne_true)]
    exact queued.size
  rw [step, if_neg (by rw [queued.runs]; exact Bool.false_ne_true)]
  change Stalled (n + 1) (s.dpdkCheckTxRing []).2
  unfold dpdkCheckTxRing
  dsimp only
  rw [count, TxCall.highLoop, if_neg (by rw [stocked]; exact Bool.false_ne_true)]
  generalize s.thMbufs.cirqGet = result at got window size ⊢
  obtain ⟨_, q⟩ := result
  obtain rfl : _ = some 0 := got
  dsimp only at window size ⊢
  have loaded := TxCall.Waits.mk (c := { toTxRing := { s with thMbufs := q }, num := n, nic := [] })
    (d := (TxCall.load (some 0)
      { toTxRing := { s with thMbufs := q }, num := s.txNum, nic := [] }).count)
    (congrArg (· + 1) queued.num) (congrArg (· + 1) queued.num) rfl rfl rfl rfl
  change TxCall.Waits (n + 1) _ _ at loaded
  have ends : ∀ d : TxCall Nat, d.txNum = n + 1 → d.thMbufs = q → d.tlMbufs = s.tlMbufs →
      d.exited = s.exited → Stalled (n + 1) d.toTxRing := by
    intro d num high low exited
    exact ⟨exited.trans queued.runs, num, high ▸ size, high ▸ window, low ▸ queued.low⟩
  have few : (TxCall.load (some 0)
      { toTxRing := { s with thMbufs := q }, num := s.txNum, nic := [] }).count.loopTime = 0 := rfl
  generalize (TxCall.load (some 0)
    { toTxRing := { s with thMbufs := q }, num := s.txNum, nic := [] }).count = d at loaded few ⊢
  have some_ : 0 < d.num := loaded.num ▸ Nat.succ_pos n
  split_ifs with many
  · obtain ⟨returns, waits⟩ := TxCall.burstLoop_busy maxTxCheckBatch (by decide) loaded.nic some_
      (by rw [few]; decide)
    generalize d.burstLoop maxTxCheckBatch = result at returns waits ⊢
    obtain ⟨_, d'⟩ := result
    obtain rfl : _ = true := returns
    exact ends d' (waits.txNum.trans loaded.num) (waits.high.trans loaded.high)
      (waits.low.trans loaded.low) (waits.exited.trans loaded.exited)
  · rw [TxCall.highLoop]
    dsimp only
    have lowCount : d.tlMbufs.cirqCount = 0 := by
      rw [loaded.low]
      exact queued.low.count_eq
    rw [lowCount, TxCall.lowLoop]
    have waits := TxCall.lastBurst_busy loaded.nic (loaded.txNum.trans loaded.num.symm)
    exact ends _ (waits.txNum.trans loaded.num) (waits.high.trans loaded.high)
      (waits.low.trans loaded.low) (waits.exited.trans loaded.exited)

/-- `n` times a packet is queued and the NIC is busy. -/
def busyRounds : Nat → List (Event Nat)
  | 0 => []
  | n + 1 => busyRounds n ++ [.txSend .high 0, .check []]

theorem busyRounds_stalled : ∀ n, Stalled n (Lib.Run.run step (init 2) (busyRounds n)) := by
  intro n
  induction n with
  | zero => exact .init
  | succ n ih =>
      rw [busyRounds, Lib.Run.run_append]
      exact ih.send.check

theorem Queued.stores (queued : Queued n s) : n ∈ s.stores [] := by
  rw [← queued.num]
  have mem := TxCall.num_mem_highStores (c := { toTxRing := s, num := s.txNum, nic := [] })
    (Bool.eq_false_iff.mpr fun empty => by cases queued.high.empty_iff.mp empty)
    (Nat.zero_lt_of_lt (Nat.lt_of_lt_of_eq Nat.zero_lt_one queued.high.count_eq.symm))
  exact List.mem_append_left _ mem

/-- The 257th packet that finds the NIC busy is stored behind the array. -/
theorem busy_overruns : ¬ ∀ size : Nat, 0 < size → ∀ es : List (Event Nat),
    Lib.Run.Each step InArray (init size) es := by
  intro always
  have inside : ∀ n, n < maxPktBurst := by
    intro n
    have queued := (busyRounds_stalled n).send
    have each := always 2 (by decide) (busyRounds n ++ .txSend .high 0 :: [.check []])
    rw [← List.singleton_append, ← List.append_assoc] at each
    have last := Lib.Run.Each.at_run _ _ each [] rfl
    rw [Lib.Run.run_append] at last
    exact last queued.runs n queued.stores
  exact absurd (inside 256) (by decide)

end TxRing

end QStack
