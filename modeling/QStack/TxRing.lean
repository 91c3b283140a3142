/-
# QStack.TxRing -- the packets between the send queues and the NIC

`dpdk_tx_send` puts a packet on `th_mbufs` or `tl_mbufs`.  `dpdk_check_tx_ring` moves them to
`pkts_txburst` and offers that to the NIC, which takes a prefix of its own choice; the packets it
leaves are moved to the front and wait there for the next burst, or the next call.  The same loop
stands in the source three times, with a return, a break, and at the end of the function.

`Conserves` is the law of the ring: what the NIC has and what waits in `pkts_txburst` is, in this
order, what was taken from the two queues, and each queue holds the rest.  Every burst keeps it
(`Moves.burst`), whatever prefix the NIC takes, and the sum a call returns is what the NIC took
(`tx_conservation`).  The array is as large as it has to be here.
-/
import QStack.SpscRing
import QStack.Lib.Drain

namespace QStack

set_option autoImplicit false

/-! ## An ordinary queue -/

namespace CircularQueue

variable {α : Type} {q : CircularQueue α} {xs : List α}

def cirqAdd (q : CircularQueue α) (item : α) : Int × CircularQueue α :=
  if q.cirqFull then (failed, q)
  else
    (success,
      { q with
        dQueue := Function.update q.dQueue q.head (some item)
        head := q.cirqSucc q.head })

def cirqGet (q : CircularQueue α) : Option α × CircularQueue α :=
  if q.cirqEmpty then (none, q)
  else (q.dQueue q.tail, { q with tail := q.cirqSucc q.tail })

theorem cirqInit_window {size : Nat} (room : 0 < size) :
    (cirqInit size : CircularQueue α).Window [] where
  tail_lt := room
  room := room
  head_eq := (Nat.zero_mod size).symm
  holds := Lib.Ring.holds_nil _ _

theorem cirqAdd_full (full : q.cirqFull = true) (a : α) : q.cirqAdd a = (failed, q) := if_pos full

theorem cirqAdd_room (room : q.cirqFull = false) (a : α) :
    q.cirqAdd a = (success,
      { q with
        dQueue := Function.update q.dQueue q.head (some a)
        head := q.cirqSucc q.head }) := if_neg (by rw [room]; exact Bool.false_ne_true)

theorem Window.cirqAdd (window : q.Window xs) (room : q.cirqFull = false) (a : α) :
    (q.cirqAdd a).2.Window (xs ++ [a]) := by
  have notLast : xs.length + 1 ≠ q.size := fun last => by
    simp [window.full_iff.mpr last] at room
  have bound := window.room
  rw [cirqAdd_room room]
  exact (window.store (some a)).push (by change xs.length + 1 < q.size; omega)
    (Function.update_self _ _ _)

/-- A queue that is not empty gives its first item. -/
theorem Window.cirqGet (window : q.Window xs) (some_ : q.cirqEmpty = false) :
    ∃ a rest, xs = a :: rest ∧ q.cirqGet.1 = some a ∧ q.cirqGet.2.Window rest := by
  cases xs with
  | nil =>
      rw [window.empty_iff.mpr rfl] at some_
      cases some_
  | cons a rest =>
      refine ⟨a, rest, rfl, ?_⟩
      simp only [CircularQueue.cirqGet, some_, Bool.false_eq_true, if_false]
      exact ⟨window.first, window.pop⟩

end CircularQueue

/-! ## The private context -/

/-- `mbuf->priority`, which names the queue. -/
inductive TxLevel where
  | low | high
deriving DecidableEq, Repr

def maxPktTxBurst : Nat := 64

def maxTxCheckBatch : Nat := 5

structure TxRing (α : Type) where
  thMbufs : CircularQueue α
  tlMbufs : CircularQueue α
  pktsTxburst : Nat → Option α := fun _ => none
  txNum : Nat := 0
  /-- `TRACE_EXIT` -/
  exited : Bool := false
  /-- history: the packets put on the queues, the latest last -/
  queued : List (TxLevel × α) := []
  /-- history: what the NIC accepted, the latest last -/
  accepted : List (Option α) := []

/-- A call of `dpdk_check_tx_ring` with its local variables. -/
structure TxCall (α : Type) extends TxRing α where
  num : Nat
  txSum : Nat := 0
  loopTime : Nat := 0
  /-- how many packets the NIC will take of each burst that is to come -/
  nic : List Nat

namespace TxCall

variable {α : Type}

/-- `rte_eth_tx_burst` of the packets `pkts_txburst[0..num)` -/
def rteEthTxBurst (c : TxCall α) : Nat × TxCall α :=
  let nbTx := min (c.nic.headD 0) c.num
  (nbTx,
    { c with
      nic := c.nic.tail
      accepted := c.accepted ++ (List.range nbTx).map c.pktsTxburst })

/-- What every copy of the loop does with the result of a burst. -/
def sent (nbTx : Nat) (c : TxCall α) : TxCall α :=
  { c with txSum := c.txSum + nbTx, num := c.num - nbTx, txNum := c.num - nbTx }

/-- `pkts_txburst[i] = pkts_txburst[i + nb_tx]` for every `i` below `num` -/
def moveDown (nbTx : Nat) (c : TxCall α) : TxCall α :=
  { c with
    pktsTxburst := (List.range c.num).foldl
      (fun pkts i => Function.update pkts i (pkts (i + nbTx))) c.pktsTxburst }

/-- `pkts_txburst[i] = NULL` for every `i` below `nb_tx` -/
def forget (nbTx : Nat) (c : TxCall α) : TxCall α :=
  { c with
    pktsTxburst := (List.range nbTx).foldl (fun pkts i => Function.update pkts i none)
      c.pktsTxburst }

/-- `pkts_txburst[num]` is filled. -/
def load (pkt : Option α) (c : TxCall α) : TxCall α :=
  { c with pktsTxburst := Function.update c.pktsTxburst c.num pkt }

def count (c : TxCall α) : TxCall α := { c with num := c.num + 1, txNum := c.num + 1 }

/-- The inner loop of the first queue; true when the call returns out of it, which it does after
`MAX_TX_CHECK_BATCH` rounds. -/
def burstLoop : Nat → TxCall α → Bool × TxCall α
  | 0, c => (false, c)
  | rounds + 1, c =>
      if c.num = 0 then (false, c)
      else
        match c.rteEthTxBurst with
        | (nbTx, c) =>
            let c := ({ c with loopTime := c.loopTime + 1 }.sent nbTx).moveDown nbTx
            if maxTxCheckBatch ≤ c.loopTime then (true, c) else burstLoop rounds c

/-- The loop over `th_mbufs`, which holds `rounds` packets. -/
def highLoop : Nat → TxCall α → Bool × TxCall α
  | 0, c => (false, c)
  | rounds + 1, c =>
      if c.thMbufs.cirqEmpty then (false, c)
      else
        match c.thMbufs.cirqGet with
        | (none, q) => (true, { c with thMbufs := q, exited := true }.load none)
        | (some pkt, q) =>
            let c := ({ c with thMbufs := q }.load (some pkt)).count
            if maxPktTxBurst ≤ c.num then
              match c.burstLoop maxTxCheckBatch with
              | (true, c) => (true, c)
              | (false, c) => highLoop rounds c
            else highLoop rounds c

/-- The loop over `tl_mbufs`, which holds `rounds` packets. -/
def lowLoop : Nat → TxCall α → TxCall α
  | 0, c => c
  | rounds + 1, c =>
      if c.tlMbufs.cirqEmpty then c
      else
        match c.tlMbufs.cirqGet with
        | (none, q) => { c with tlMbufs := q }.load none
        | (some pkt, q) =>
            let c := ({ c with tlMbufs := q }.load (some pkt)).count
            if maxPktTxBurst ≤ c.num then
              match c.rteEthTxBurst with
              | (nbTx, c) => (c.sent nbTx).moveDown nbTx
            else lowLoop rounds c

/-- The end of the function. -/
def lastBurst (c : TxCall α) : TxCall α :=
  if c.num ≠ 0 then
    match c.rteEthTxBurst with
    | (nbTx, c) => ((c.forget nbTx).sent nbTx).moveDown nbTx
  else c

end TxCall

namespace TxRing

variable {α : Type}

def init (size : Nat) : TxRing α :=
  { thMbufs := CircularQueue.cirqInit size, tlMbufs := CircularQueue.cirqInit size }

/-- What `dpdk_tx_send` does with one packet. -/
def dpdkTxSend (level : TxLevel) (pkt : α) (s : TxRing α) : TxRing α :=
  match level with
  | .low =>
      if s.tlMbufs.cirqFull then { s with exited := true }
      else { s with tlMbufs := (s.tlMbufs.cirqAdd pkt).2, queued := s.queued ++ [(level, pkt)] }
  | .high =>
      if s.thMbufs.cirqFull then { s with exited := true }
      else { s with thMbufs := (s.thMbufs.cirqAdd pkt).2, queued := s.queued ++ [(level, pkt)] }

/-- `dpdk_check_tx_ring`, with what the NIC will take of its bursts -/
def dpdkCheckTxRing (nic : List Nat) (s : TxRing α) : Nat × TxRing α :=
  let c : TxCall α := { toTxRing := s, num := s.txNum, nic := nic }
  match c.highLoop c.thMbufs.cirqCount with
  | (true, c) => (c.txSum, c.toTxRing)
  | (false, c) =>
      let c := (c.lowLoop c.tlMbufs.cirqCount).lastBurst
      (c.txSum, c.toTxRing)

inductive Event (α : Type) where
  | txSend (level : TxLevel) (pkt : α)
  | check (nic : List Nat)

def step (s : TxRing α) (e : Event α) : TxRing α :=
  if s.exited then s
  else
    match e with
    | .txSend level pkt => s.dpdkTxSend level pkt
    | .check nic => (s.dpdkCheckTxRing nic).2

end TxRing

/-! ## The array -/

section Array

variable {α : Type}

theorem moved_slots (pkts : Nat → Option α) (nbTx num i : Nat) :
    (List.range num).foldl (fun pkts i => Function.update pkts i (pkts (i + nbTx))) pkts i =
      if i < num then pkts (i + nbTx) else pkts i := by
  induction num generalizing i with
  | zero => rfl
  | succ num ih =>
      rw [List.range_succ, List.foldl_append, List.foldl_cons, List.foldl_nil]
      by_cases last : i = num
      · subst last
        -- the loop reads ahead of what it has written
        rw [Function.update_self, ih, if_neg (by omega), if_pos (by omega)]
      · rw [Function.update_of_ne last, ih]
        have same : i < num ↔ i < num + 1 := by omega
        rw [if_congr same rfl rfl]

theorem forgotten_slots (pkts : Nat → Option α) (nbTx i : Nat) :
    (List.range nbTx).foldl (fun pkts i => Function.update pkts i none) pkts i =
      if i < nbTx then none else pkts i := by
  induction nbTx with
  | zero => rfl
  | succ nbTx ih =>
      rw [List.range_succ, List.foldl_append, List.foldl_cons, List.foldl_nil]
      by_cases last : i = nbTx
      · subst last
        rw [Function.update_self, if_pos (by omega)]
      · rw [Function.update_of_ne last, ih]
        have same : i < nbTx ↔ i < nbTx + 1 := by omega
        rw [if_congr same rfl rfl]

end Array

namespace TxCall

variable {α : Type}

/-- What would be offered to the NIC now. -/
def waiting (c : TxCall α) : List (Option α) := (List.range c.num).map c.pktsTxburst

/-- A prefix goes, and the rest is what the loop moves down. -/
theorem waiting_split (c : TxCall α) {nbTx : Nat} (le : nbTx ≤ c.num) :
    c.waiting = (List.range nbTx).map c.pktsTxburst ++
      (List.range (c.num - nbTx)).map fun i => c.pktsTxburst (i + nbTx) := by
  obtain ⟨left, split⟩ := Nat.exists_eq_add_of_le le
  rw [waiting, split, Nat.add_sub_cancel_left, List.range_add, List.map_append, List.map_map]
  congr 1
  refine List.map_congr_left fun i _ => ?_
  rw [Function.comp, Nat.add_comm]

theorem waiting_moveDown (c : TxCall α) (nbTx : Nat) :
    (c.moveDown nbTx).waiting = (List.range c.num).map fun i => c.pktsTxburst (i + nbTx) := by
  refine List.map_congr_left fun i inside => ?_
  exact (moved_slots c.pktsTxburst nbTx c.num i).trans (if_pos (List.mem_range.mp inside))

/-- The packets of one level, where they are after leaving their queue. -/
def held (H L : List α) : TxLevel → List α
  | .high => H
  | .low => L

/-- `taken` lists what was taken from the queues in this order: the NIC has accepted a prefix of
it, and the rest waits in the array. -/
structure Moves (c : TxCall α) (base : Nat) (H L : List α) (taken : List (TxLevel × α)) :
    Prop where
  high : c.thMbufs.Window H
  low : c.tlMbufs.Window L
  slots : c.accepted ++ c.waiting = taken.map fun e => some e.2
  parts : ∀ level, Lib.Drain.takenFrom level c.queued =
    Lib.Drain.takenFrom level taken ++ held H L level
  num : c.txNum = c.num
  sum : c.accepted.length = base + c.txSum

section Moves

variable {c : TxCall α} {base : Nat} {H L : List α} {taken : List (TxLevel × α)}

theorem burst_le (c : TxCall α) : c.rteEthTxBurst.1 ≤ c.num := Nat.min_le_right _ _

/-- **A burst keeps the law, whatever prefix the NIC takes.**  What stands in the slots of the
packets that are gone does not matter. -/
theorem Moves.burst (moves : c.Moves base H L taken) {d : TxCall α}
    (offered : d.toTxRing = { c.rteEthTxBurst.2.toTxRing with pktsTxburst := d.pktsTxburst })
    (same : ∀ i, c.rteEthTxBurst.1 ≤ i → d.pktsTxburst i = c.pktsTxburst i)
    (num : d.num = c.num) (sum : d.txSum = c.txSum) :
    ((d.sent c.rteEthTxBurst.1).moveDown c.rteEthTxBurst.1).Moves base H L taken := by
  have le := burst_le c
  have accepted : d.accepted =
      c.accepted ++ (List.range c.rteEthTxBurst.1).map c.pktsTxburst := by rw [offered]; rfl
  have th : d.thMbufs = c.thMbufs := by rw [offered]; rfl
  have tl : d.tlMbufs = c.tlMbufs := by rw [offered]; rfl
  have queued : d.queued = c.queued := by rw [offered]; rfl
  generalize c.rteEthTxBurst.1 = nbTx at le accepted same ⊢
  refine ⟨?_, ?_, ?_, ?_, rfl, ?_⟩
  · exact th ▸ moves.high
  · exact tl ▸ moves.low
  · rw [← moves.slots, waiting_moveDown]
    change d.accepted ++ (List.range (d.num - nbTx)).map _ = _
    have moved : (List.range (d.num - nbTx)).map (fun i => (d.sent nbTx).pktsTxburst (i + nbTx)) =
        (List.range (c.num - nbTx)).map fun i => c.pktsTxburst (i + nbTx) := by
      rw [num]
      exact List.map_congr_left fun i _ => same (i + nbTx) (by omega)
    rw [moved, accepted, waiting_split c le, List.append_assoc]
  · intro level
    change Lib.Drain.takenFrom level d.queued = _
    rw [queued]
    exact moves.parts level
  · change d.accepted.length = base + (d.txSum + nbTx)
    rw [accepted, List.length_append, List.length_map, List.length_range, moves.sum, sum]
    omega

theorem burstLoop_moves : ∀ (rounds : Nat) {c : TxCall α}, c.Moves base H L taken →
    (c.burstLoop rounds).2.Moves base H L taken := by
  intro rounds
  induction rounds with
  | zero => exact fun moves => moves
  | succ rounds ih =>
      intro c moves
      have next := moves.burst (d := { c.rteEthTxBurst.2 with
        loopTime := c.rteEthTxBurst.2.loopTime + 1 }) rfl (fun _ _ => rfl) rfl rfl
      unfold burstLoop
      dsimp only
      split_ifs
      · exact moves
      · exact next
      · exact ih next

/-- The array is filled up by one packet. -/
theorem waiting_load (c : TxCall α) (pkt : Option α) :
    (c.load pkt).count.waiting = c.waiting ++ [pkt] := by
  change (List.range (c.num + 1)).map (Function.update c.pktsTxburst c.num pkt) = _
  rw [List.range_succ, List.map_append, List.map_singleton, Function.update_self, waiting]
  congr 1
  refine List.map_congr_left fun i inside => ?_
  exact Function.update_of_ne (Nat.ne_of_lt (List.mem_range.mp inside)) _ _

theorem Moves.takeHigh {a : α} (moves : c.Moves base (a :: H) L taken) {q : CircularQueue α}
    (window : q.Window H) :
    ({ c with thMbufs := q }.load (some a)).count.Moves base H L (taken ++ [(TxLevel.high, a)]) := by
  refine ⟨window, moves.low, ?_, fun level => ?_, rfl, moves.sum⟩
  · rw [waiting_load, List.map_append, ← moves.slots, List.append_assoc]
    rfl
  · have before := moves.parts level
    change Lib.Drain.takenFrom level c.queued = _
    rw [before, Lib.Drain.takenFrom_append, Lib.Drain.takenFrom_single]
    cases level <;> simp [held]

theorem Moves.takeLow {a : α} (moves : c.Moves base H (a :: L) taken) {q : CircularQueue α}
    (window : q.Window L) :
    ({ c with tlMbufs := q }.load (some a)).count.Moves base H L (taken ++ [(TxLevel.low, a)]) := by
  refine ⟨moves.high, window, ?_, fun level => ?_, rfl, moves.sum⟩
  · rw [waiting_load, List.map_append, ← moves.slots, List.append_assoc]
    rfl
  · have before := moves.parts level
    change Lib.Drain.takenFrom level c.queued = _
    rw [before, Lib.Drain.takenFrom_append, Lib.Drain.takenFrom_single]
    cases level <;> simp [held]

theorem highLoop_moves : ∀ (rounds : Nat) {c : TxCall α} {H : List α} {taken},
    c.Moves base H L taken → ∃ H' taken', (c.highLoop rounds).2.Moves base H' L taken' := by
  intro rounds
  induction rounds with
  | zero => exact fun moves => ⟨_, _, moves⟩
  | succ rounds ih =>
      intro c H taken moves
      unfold highLoop
      cases empty : c.thMbufs.cirqEmpty with
      | true => exact ⟨_, _, moves⟩
      | false =>
          obtain ⟨a, rest, rfl, got, window⟩ := moves.high.cirqGet empty
          have next := moves.takeHigh window
          generalize c.thMbufs.cirqGet = result at got next ⊢
          obtain ⟨_, q⟩ := result
          obtain rfl : _ = some a := got
          dsimp only at next ⊢
          rw [if_neg Bool.false_ne_true]
          split_ifs
          · have burst := burstLoop_moves maxTxCheckBatch next
            generalize burstLoop _ _ = result at burst ⊢
            obtain ⟨returned, c'⟩ := result
            cases returned with
            | true => exact ⟨_, _, burst⟩
            | false => exact ih burst
          · exact ih next

theorem lowLoop_moves : ∀ (rounds : Nat) {c : TxCall α} {L : List α} {taken},
    c.Moves base H L taken → ∃ L' taken', (c.lowLoop rounds).Moves base H L' taken' := by
  intro rounds
  induction rounds with
  | zero => exact fun moves => ⟨_, _, moves⟩
  | succ rounds ih =>
      intro c L taken moves
      unfold lowLoop
      cases empty : c.tlMbufs.cirqEmpty with
      | true => exact ⟨_, _, moves⟩
      | false =>
          obtain ⟨a, rest, rfl, got, window⟩ := moves.low.cirqGet empty
          have next := moves.takeLow window
          generalize c.tlMbufs.cirqGet = result at got next ⊢
          obtain ⟨_, q⟩ := result
          obtain rfl : _ = some a := got
          dsimp only at next ⊢
          rw [if_neg Bool.false_ne_true]
          split_ifs
          · exact ⟨_, _, next.burst rfl (fun _ _ => rfl) rfl rfl⟩
          · exact ih next

theorem lastBurst_moves (moves : c.Moves base H L taken) :
    c.lastBurst.Moves base H L taken := by
  unfold lastBurst
  split
  · refine moves.burst (d := c.rteEthTxBurst.2.forget c.rteEthTxBurst.1) rfl (fun i after => ?_)
      rfl rfl
    exact (forgotten_slots c.pktsTxburst c.rteEthTxBurst.1 i).trans (if_neg (by omega))
  · exact moves

/-! ## The loops end as those of the source do -/

theorem burstLoop_enough (more : Nat) : ∀ (rounds : Nat) (c : TxCall α), 0 < rounds →
    maxTxCheckBatch ≤ c.loopTime + rounds → c.burstLoop (rounds + more) = c.burstLoop rounds := by
  intro rounds
  induction rounds with
  | zero => exact fun _ none _ => absurd none (Nat.lt_irrefl 0)
  | succ rounds ih =>
      intro c _ enough
      rw [Nat.succ_add, burstLoop, burstLoop]
      dsimp only
      split_ifs with done limit
      · rfl
      · rfl
      · -- a round that does not return leaves another one to make
        change ¬ maxTxCheckBatch ≤ c.loopTime + 1 at limit
        refine ih _ (by omega) ?_
        change maxTxCheckBatch ≤ c.loopTime + 1 + rounds
        omega

theorem highLoop_enough (more : Nat) : ∀ (rounds : Nat) {c : TxCall α} {H : List α} {taken},
    c.Moves base H L taken → H.length ≤ rounds →
      c.highLoop (rounds + more) = c.highLoop rounds := by
  intro rounds
  induction rounds with
  | zero =>
      intro c H taken moves enough
      obtain rfl := List.eq_nil_of_length_eq_zero (Nat.le_zero.mp enough)
      have empty := moves.high.empty_iff.mpr rfl
      cases more with
      | zero => rfl
      | succ more => rw [Nat.zero_add, highLoop, highLoop, if_pos empty]
  | succ rounds ih =>
      intro c H taken moves enough
      rw [Nat.succ_add, highLoop, highLoop]
      cases empty : c.thMbufs.cirqEmpty with
      | true => rfl
      | false =>
          obtain ⟨a, rest, rfl, got, window⟩ := moves.high.cirqGet empty
          have next := moves.takeHigh window
          rw [List.length_cons] at enough
          have left : rest.length ≤ rounds := by omega
          generalize c.thMbufs.cirqGet = result at got next ⊢
          obtain ⟨_, q⟩ := result
          obtain rfl : _ = some a := got
          dsimp only at next ⊢
          rw [if_neg Bool.false_ne_true, if_neg Bool.false_ne_true]
          split_ifs
          · have burst := burstLoop_moves maxTxCheckBatch next
            generalize burstLoop _ _ = result at burst ⊢
            obtain ⟨returned, c'⟩ := result
            cases returned with
            | true => rfl
            | false => exact ih burst left
          · exact ih next left

theorem lowLoop_enough (more : Nat) : ∀ (rounds : Nat) {c : TxCall α} {L : List α} {taken},
    c.Moves base H L taken → L.length ≤ rounds →
      c.lowLoop (rounds + more) = c.lowLoop rounds := by
  intro rounds
  induction rounds with
  | zero =>
      intro c L taken moves enough
      obtain rfl := List.eq_nil_of_length_eq_zero (Nat.le_zero.mp enough)
      have empty := moves.low.empty_iff.mpr rfl
      cases more with
      | zero => rfl
      | succ more => rw [Nat.zero_add, lowLoop, lowLoop, if_pos empty]
  | succ rounds ih =>
      intro c L taken moves enough
      rw [Nat.succ_add, lowLoop, lowLoop]
      cases empty : c.tlMbufs.cirqEmpty with
      | true => rfl
      | false =>
          obtain ⟨a, rest, rfl, got, window⟩ := moves.low.cirqGet empty
          have next := moves.takeLow window
          rw [List.length_cons] at enough
          have left : rest.length ≤ rounds := by omega
          generalize c.tlMbufs.cirqGet = result at got next ⊢
          obtain ⟨_, q⟩ := result
          obtain rfl : _ = some a := got
          dsimp only at next ⊢
          rw [if_neg Bool.false_ne_true, if_neg Bool.false_ne_true]
          split_ifs
          · rfl
          · exact ih next left

end Moves

end TxCall

namespace TxRing

variable {α : Type}

/-! ## The law -/

/-- The packets of one queue. -/
def queue (s : TxRing α) : TxLevel → CircularQueue α
  | .high => s.thMbufs
  | .low => s.tlMbufs

/-- What the NIC has and what waits in `pkts_txburst[0..tx_num)` is, in order, what was taken from
the two queues; each queue gave what it had in its own order, and still holds the rest. -/
def Conserves (s : TxRing α) : Prop :=
  ∃ taken : List (TxLevel × α),
    s.accepted ++ (List.range s.txNum).map s.pktsTxburst = taken.map (fun e => some e.2) ∧
      ∀ level, ∃ rest, (s.queue level).Window rest ∧
        Lib.Drain.takenFrom level s.queued = Lib.Drain.takenFrom level taken ++ rest

/-- What a call returns is how many packets the NIC took from it. -/
def Counts (s : TxRing α) (e : Event α) (s' : TxRing α) : Prop :=
  ∀ nic, e = .check nic → s.exited = false →
    s'.accepted.length = s.accepted.length + (s.dpdkCheckTxRing nic).1

theorem Conserves.moves {s : TxRing α} (conserves : s.Conserves) (nic : List Nat) :
    ∃ H L taken, TxCall.Moves { toTxRing := s, num := s.txNum, nic := nic }
      s.accepted.length H L taken := by
  obtain ⟨taken, slots, queues⟩ := conserves
  obtain ⟨H, high, highParts⟩ := queues .high
  obtain ⟨L, low, lowParts⟩ := queues .low
  refine ⟨H, L, taken, high, low, slots, fun level => ?_, rfl, rfl⟩
  cases level with
  | high => exact highParts
  | low => exact lowParts

theorem Conserves.of_moves {c : TxCall α} {base : Nat} {H L : List α} {taken}
    (moves : c.Moves base H L taken) : c.toTxRing.Conserves := by
  refine ⟨taken, by rw [moves.num]; exact moves.slots, fun level => ?_⟩
  cases level with
  | high => exact ⟨H, moves.high, moves.parts .high⟩
  | low => exact ⟨L, moves.low, moves.parts .low⟩

theorem check_conserves {s : TxRing α} (conserves : s.Conserves) (nic : List Nat) :
    (s.dpdkCheckTxRing nic).2.Conserves ∧
      (s.dpdkCheckTxRing nic).2.accepted.length =
        s.accepted.length + (s.dpdkCheckTxRing nic).1 := by
  obtain ⟨H, L, taken, moves⟩ := conserves.moves nic
  unfold dpdkCheckTxRing
  dsimp only
  obtain ⟨H', taken', high⟩ := TxCall.highLoop_moves s.thMbufs.cirqCount moves
  generalize TxCall.highLoop _ _ = result at high ⊢
  obtain ⟨returned, c⟩ := result
  cases returned with
  | true => exact ⟨.of_moves high, high.sum⟩
  | false =>
      obtain ⟨L', taken'', low⟩ := TxCall.lowLoop_moves c.tlMbufs.cirqCount high
      have last := TxCall.lastBurst_moves low
      exact ⟨.of_moves last, last.sum⟩

theorem send_conserves {s : TxRing α} (conserves : s.Conserves) (level : TxLevel) (pkt : α) :
    (s.dpdkTxSend level pkt).Conserves := by
  obtain ⟨taken, slots, queues⟩ := conserves
  have queued : ∀ other : TxLevel, Lib.Drain.takenFrom other (s.queued ++ [(level, pkt)]) =
      Lib.Drain.takenFrom other s.queued ++ if level = other then [pkt] else [] := by
    intro other
    rw [Lib.Drain.takenFrom_append, Lib.Drain.takenFrom_single]
  unfold dpdkTxSend
  cases level with
  | low =>
      cases full : s.tlMbufs.cirqFull with
      | true => exact ⟨taken, slots, queues⟩
      | false =>
          refine ⟨taken, slots, fun other => ?_⟩
          obtain ⟨rest, window, parts⟩ := queues other
          cases other with
          | low => exact ⟨_, window.cirqAdd full pkt, by simp [queued, parts]⟩
          | high => exact ⟨_, window, by simp [queued, parts]⟩
  | high =>
      cases full : s.thMbufs.cirqFull with
      | true => exact ⟨taken, slots, queues⟩
      | false =>
          refine ⟨taken, slots, fun other => ?_⟩
          obtain ⟨rest, window, parts⟩ := queues other
          cases other with
          | high => exact ⟨_, window.cirqAdd full pkt, by simp [queued, parts]⟩
          | low => exact ⟨_, window, by simp [queued, parts]⟩

theorem init_conserves {size : Nat} (room : 0 < size) : (init size : TxRing α).Conserves := by
  refine ⟨[], rfl, fun level => ⟨[], ?_, rfl⟩⟩
  cases level <;> exact CircularQueue.cirqInit_window room

theorem step_conserves {s : TxRing α} (conserves : s.Conserves) (e : Event α) :
    (s.step e).Conserves ∧ s.Counts e (s.step e) := by
  unfold step
  split
  · rename_i exited
    refine ⟨conserves, fun nic _ runs => ?_⟩
    rw [exited] at runs
    cases runs
  · cases e with
    | txSend level pkt => exact ⟨send_conserves conserves level pkt, fun nic check => by cases check⟩
    | check nic =>
        have checked := check_conserves conserves nic
        refine ⟨checked.1, fun nic' check _ => ?_⟩
        cases check
        exact checked.2

/-- **The transmit ring.**  Over every sequence of packets put on the queues and calls of
`dpdk_check_tx_ring`, with whatever prefixes the NIC takes: each packet is with the NIC, in
`pkts_txburst` or in its queue, once; the packets of a queue reach the NIC in the order they were
queued; and every call returns the number the NIC took. -/
theorem tx_conservation {size : Nat} (room : 0 < size) (es : List (Event α)) :
    Lib.Run.Along step Conserves (init size) es ∧ Lib.Run.Each step Counts (init size) es :=
  ⟨Lib.Run.along_of_step (fun _ e conserves _ => (step_conserves conserves e).1) es _
      (init_conserves room) (Lib.Run.allowed_always es _),
    Lib.Run.each_of_step (P := Conserves) (fun _ e conserves _ => step_conserves conserves e) es _
      (init_conserves room) (Lib.Run.allowed_always es _)⟩

/-- Three packets on two queues, and a NIC that takes one of them and later the rest. -/
def partialBurst : List (Event Nat) :=
  [.txSend .low 1, .txSend .high 2, .txSend .high 3, .check [1], .txSend .low 4, .check [2, 1]]

theorem tx_conservation_partialBurst : 0 < 8 ∧
    Lib.Run.Along step Conserves (init 8) partialBurst ∧
      Lib.Run.Each step Counts (init 8) partialBurst :=
  ⟨by decide, tx_conservation (by decide) partialBurst⟩

end TxRing

end QStack
