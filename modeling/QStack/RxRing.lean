/-
# QStack.RxRing -- the packets between the NIC and the main loop

`dpdk_check_rx_ring` takes bursts from the NIC until one is empty, and puts each packet on
`rh_mbufs` or `rl_mbufs`, as the filter of the application says.  The main loop then receives up to
`MAX_RECV_BATCH` of them, the ones on `rh_mbufs` first.  `io_recv_check` is called from other places
as well; it makes the queues longer and nothing else.

`rx_serves` says what each step does over every run: the batch is the front of the high queue with
the low one behind it, and the process ends in a check that brings more packets than a queue has
room for, and never in a receive.  `rx_conserves` is the law of the ring: of the packets of each
level, those received and those that wait are, in this order, those that arrived.  A packet of any
other level is on neither queue, and nobody frees it.  `rx_high_latency` bounds how long a packet of
high priority waits, in rounds of the main loop.

A full queue ends the process (`TRACE_EXIT`), and so does a receive from empty ones.  The mbufs are
values here; time stamps, statistics and the release of what the stack has sent back are left out.
-/
import QStack.TxRing
import QStack.Lib.Run

namespace QStack

set_option autoImplicit false

/-- `MAX_RECV_BATCH` -/
def maxRecvBatch : Nat := 32

/-- What the receive path uses of `struct dpdk_private_context` -/
structure RxRing (α : Type) where
  rhMbufs : CircularQueue α
  rlMbufs : CircularQueue α
  /-- `TRACE_EXIT` -/
  exited : Bool := false
  /-- history: the packets the main loop received, the latest last -/
  received : List α := []

namespace RxRing

variable {α : Type}

/-- `init_dpdk_private_context`, both queues of `MAX_FLOW_PSTACK` -/
def init (size : Nat) : RxRing α where
  rhMbufs := CircularQueue.cirqInit size
  rlMbufs := CircularQueue.cirqInit size

section Filter

-- `driver_pri_filter`
variable (filter : α → Int)

/-- The body of the loop over a burst -/
def place (ptr : α) (s : RxRing α) : RxRing α :=
  if filter ptr = 0 then
    if (s.rlMbufs.cirqAdd ptr).1 ≠ success then { s with exited := true }
    else { s with rlMbufs := (s.rlMbufs.cirqAdd ptr).2 }
  else if filter ptr = 1 then
    if (s.rhMbufs.cirqAdd ptr).1 ≠ success then { s with exited := true }
    else { s with rhMbufs := (s.rhMbufs.cirqAdd ptr).2 }
  else s

def burstLoop : List α → RxRing α → RxRing α
  | [], s => s
  | ptr :: rest, s =>
      let s := s.place filter ptr
      if s.exited then s else burstLoop rest s

/-- From `again` on; the NIC has nothing left after the last burst. -/
def checkLoop : List (List α) → RxRing α → RxRing α
  | [], s => s
  | burst :: bursts, s =>
      let s := s.burstLoop filter burst
      if s.exited ∨ burst = [] then s else checkLoop bursts s

def dpdkCheckRxRing (bursts : List (List α)) (s : RxRing α) : Nat × RxRing α :=
  let s := s.checkLoop filter bursts
  (s.rhMbufs.cirqCount + s.rlMbufs.cirqCount, s)

/-- `dpdk_rx_receive_one` -/
def dpdkRxReceiveOne (level : Int) (s : RxRing α) : Option α × RxRing α :=
  match if level = 1 then s.rhMbufs.cirqGet else (none, s.rhMbufs) with
  | (some tag, rh) => (some tag, { s with rhMbufs := rh })
  | (none, _) =>
      match s.rlMbufs.cirqGet with
      | (some tag, rl) => (some tag, { s with rlMbufs := rl })
      | (none, _) => (none, { s with exited := true })

/-- `io_recv_mbuf`.  The second try, at level 0, is never reached: the first one looks at both
queues, and ends the process if they are empty. -/
def ioRecvMbuf (s : RxRing α) : RxRing α :=
  match s.dpdkRxReceiveOne 1 with
  | (some point, s) => { s with received := s.received ++ [point] }
  | (none, s) => s

def recvLoop : Nat → RxRing α → RxRing α
  | 0, s => s
  | rcvNum + 1, s =>
      let s := s.ioRecvMbuf
      if s.exited then s else recvLoop rcvNum s

/-- What the NIC holds at a call of `io_recv_check`, in bursts -/
inductive Event (α : Type) where
  /-- a call outside of the main loop, or an extra one in it -/
  | check (bursts : List (List α))
  /-- the check of the main loop and the receives after it -/
  | round (bursts : List (List α))

def serve (s : RxRing α) : Event α → RxRing α
  | .check bursts => (s.dpdkCheckRxRing filter bursts).2
  | .round bursts =>
      let (rcvNum, s) := s.dpdkCheckRxRing filter bursts
      if s.exited then s else s.recvLoop (min maxRecvBatch rcvNum)

def step (s : RxRing α) (e : Event α) : RxRing α := if s.exited then s else s.serve filter e

/-! ## The law of a step -/

/-- Until a burst is empty -/
def taken : List (List α) → List α
  | [] => []
  | burst :: bursts => if burst = [] then [] else burst ++ taken bursts

/-- What a step takes from the NIC -/
def Event.arrivals : Event α → List α
  | .check bursts => taken bursts
  | .round bursts => taken bursts

/-- How many packets it may receive -/
def Event.batch : Event α → Nat
  | .check _ => 0
  | .round _ => maxRecvBatch

def highs (pkts : List α) : List α := pkts.filter fun p => decide (filter p = 1)
def lows (pkts : List α) : List α := pkts.filter fun p => decide (filter p = 0)

/-- The two queues hold these, and are as large as they were made. -/
structure Queues (s : RxRing α) (size : Nat) (H L : List α) : Prop where
  high : s.rhMbufs.Window H
  low : s.rlMbufs.Window L
  highSize : s.rhMbufs.size = size
  lowSize : s.rlMbufs.size = size
  running : s.exited = false

end Filter

variable {filter : α → Int} {s : RxRing α} {size : Nat} {H L : List α}

theorem Queues.high_full (queues : s.Queues size H L) :
    s.rhMbufs.cirqFull = true ↔ H.length + 1 = size := by
  rw [queues.high.full_iff, queues.highSize]

theorem Queues.low_full (queues : s.Queues size H L) :
    s.rlMbufs.cirqFull = true ↔ L.length + 1 = size := by
  rw [queues.low.full_iff, queues.lowSize]

theorem highs_one (ptr : α) : highs filter [ptr] = if filter ptr = 1 then [ptr] else [] := by
  by_cases high : filter ptr = 1 <;> simp [highs, high]

theorem lows_one (ptr : α) : lows filter [ptr] = if filter ptr = 0 then [ptr] else [] := by
  by_cases low : filter ptr = 0 <;> simp [lows, low]

theorem failed_ne_success : failed ≠ success := by decide

/-- One packet: it goes behind those of its level, unless there is no room. -/
theorem Queues.place (queues : s.Queues size H L) (ptr : α) :
    (s.place filter ptr).received = s.received ∧
      if size ≤ (H ++ highs filter [ptr]).length ∨ size ≤ (L ++ lows filter [ptr]).length then
        (s.place filter ptr).exited = true
      else (s.place filter ptr).Queues size (H ++ highs filter [ptr]) (L ++ lows filter [ptr]) := by
  have highRoom := queues.highSize ▸ queues.high.room
  have lowRoom := queues.lowSize ▸ queues.low.room
  rw [RxRing.place, highs_one, lows_one]
  by_cases low : filter ptr = 0
  · have notHigh : ¬ filter ptr = 1 := by
      rw [low]
      decide
    rw [if_pos low, if_pos low, if_neg notHigh, List.append_nil, List.length_append,
      List.length_singleton]
    cases full : s.rlMbufs.cirqFull with
    | true =>
        have last := queues.low_full.mp full
        rw [CircularQueue.cirqAdd_full full, if_pos failed_ne_success, if_pos (by omega)]
        exact ⟨rfl, rfl⟩
    | false =>
        have room : ¬ L.length + 1 = size := fun last => by
          rw [queues.low_full.mpr last] at full
          cases full
        have window := queues.low.cirqAdd full ptr
        rw [CircularQueue.cirqAdd_room full] at window ⊢
        rw [if_neg (not_not_intro rfl), if_neg (by omega)]
        exact ⟨rfl, queues.high, window, queues.highSize, queues.lowSize, queues.running⟩
  · rw [if_neg low, if_neg low, List.append_nil]
    by_cases high : filter ptr = 1
    · rw [if_pos high, if_pos high, List.length_append, List.length_singleton]
      cases full : s.rhMbufs.cirqFull with
      | true =>
          have last := queues.high_full.mp full
          rw [CircularQueue.cirqAdd_full full, if_pos failed_ne_success, if_pos (by omega)]
          exact ⟨rfl, rfl⟩
      | false =>
          have room : ¬ H.length + 1 = size := fun last => by
            rw [queues.high_full.mpr last] at full
            cases full
          have window := queues.high.cirqAdd full ptr
          rw [CircularQueue.cirqAdd_room full] at window ⊢
          rw [if_neg (not_not_intro rfl), if_neg (by omega)]
          exact ⟨rfl, window, queues.low, queues.highSize, queues.lowSize, queues.running⟩
    · rw [if_neg high, if_neg high, List.append_nil, if_neg (by omega)]
      exact ⟨rfl, queues⟩

theorem highs_append (xs ys : List α) :
    highs filter (xs ++ ys) = highs filter xs ++ highs filter ys := List.filter_append _ _

theorem lows_append (xs ys : List α) :
    lows filter (xs ++ ys) = lows filter xs ++ lows filter ys := List.filter_append _ _

/-- What becomes of the queues when `arrivals` are put on them -/
def Loaded (filter : α → Int) (size : Nat) (H L arrivals : List α) (s s' : RxRing α) : Prop :=
  s'.received = s.received ∧
    if size ≤ (H ++ highs filter arrivals).length ∨ size ≤ (L ++ lows filter arrivals).length then
      s'.exited = true
    else s'.Queues size (H ++ highs filter arrivals) (L ++ lows filter arrivals)

theorem Loaded.nil (queues : s.Queues size H L) : Loaded filter size H L [] s s := by
  have highRoom := queues.highSize ▸ queues.high.room
  have lowRoom := queues.lowSize ▸ queues.low.room
  refine ⟨rfl, ?_⟩
  rw [show highs filter ([] : List α) = [] from rfl, show lows filter ([] : List α) = [] from rfl,
    List.append_nil, List.append_nil, if_neg (by omega)]
  exact queues

/-- The loops: the rest is loaded only if the process has not ended. -/
theorem Loaded.append {first rest : List α} {s' s'' : RxRing α}
    (loaded : Loaded filter size H L first s s')
    (next : ∀ {H L : List α}, s'.Queues size H L → Loaded filter size H L rest s' s'') :
    Loaded filter size H L (first ++ rest) s (if s'.exited = true then s' else s'') := by
  obtain ⟨received, outcome⟩ := loaded
  rw [Loaded, highs_append, lows_append, ← List.append_assoc, ← List.append_assoc]
  split at outcome
  · next full =>
      rw [if_pos outcome, if_pos (by simp only [List.length_append] at full ⊢; omega)]
      exact ⟨received, outcome⟩
  · next room =>
      rw [if_neg (by rw [outcome.running]; decide)]
      have loadedRest := next outcome
      exact ⟨loadedRest.1.trans received, loadedRest.2⟩

theorem Queues.burstLoop : ∀ (burst : List α) {s : RxRing α} {H L : List α},
    s.Queues size H L → Loaded filter size H L burst s (s.burstLoop filter burst)
  | [], _, _, _, queues => Loaded.nil queues
  | ptr :: rest, s, H, L, queues => by
      have one : Loaded filter size H L [ptr] s (s.place filter ptr) := queues.place ptr
      exact one.append fun next => Queues.burstLoop rest next

theorem Queues.checkLoop : ∀ (bursts : List (List α)) {s : RxRing α} {H L : List α},
    s.Queues size H L → Loaded filter size H L (taken bursts) s (s.checkLoop filter bursts)
  | [], _, _, _, queues => Loaded.nil queues
  | burst :: bursts, s, _, _, queues => by
      rw [RxRing.checkLoop, taken]
      by_cases last : burst = []
      · subst last
        rw [if_pos rfl, if_pos (Or.inr rfl)]
        exact Loaded.nil queues
      · rw [if_neg last]
        have both := (queues.burstLoop burst).append fun next => Queues.checkLoop bursts next
        simpa only [last, or_false] using both

/-- A receive from queues that are not both empty takes the first packet of high priority, and one
of low priority only if there is none. -/
theorem Queues.ioRecvMbuf (queues : s.Queues size H L) (some_ : 0 < H.length + L.length) :
    s.ioRecvMbuf.received = s.received ++ (H ++ L).take 1 ∧
      s.ioRecvMbuf.Queues size (H.drop 1) (L.drop (1 - H.length)) := by
  rw [RxRing.ioRecvMbuf, dpdkRxReceiveOne, if_pos rfl]
  cases empty : s.rhMbufs.cirqEmpty with
  | false =>
      obtain ⟨a, rest, rfl, got, window⟩ := queues.high.cirqGet empty
      have whole : s.rhMbufs.cirqGet = (some a, s.rhMbufs.cirqGet.2) := Prod.ext got rfl
      have sized : s.rhMbufs.cirqGet.2.size = size := by
        rw [CircularQueue.cirqGet, if_neg (by rw [empty]; decide)]
        exact queues.highSize
      rw [whole]
      exact ⟨rfl, window, by simpa using queues.low, sized, queues.lowSize, queues.running⟩
  | true =>
      obtain rfl := queues.high.empty_iff.mp empty
      have notEmpty : s.rlMbufs.cirqEmpty = false := by
        cases lowEmpty : s.rlMbufs.cirqEmpty with
        | false => rfl
        | true =>
            rw [queues.low.empty_iff.mp lowEmpty] at some_
            cases some_
      obtain ⟨a, rest, rfl, got, window⟩ := queues.low.cirqGet notEmpty
      have whole : s.rlMbufs.cirqGet = (some a, s.rlMbufs.cirqGet.2) := Prod.ext got rfl
      have none_ : s.rhMbufs.cirqGet = (none, s.rhMbufs) := if_pos empty
      have sized : s.rlMbufs.cirqGet.2.size = size := by
        rw [CircularQueue.cirqGet, if_neg (by rw [notEmpty]; decide)]
        exact queues.lowSize
      rw [none_]
      dsimp only
      rw [whole]
      exact ⟨rfl, queues.high, window, queues.highSize, sized, queues.running⟩

theorem Queues.recvLoop : ∀ (n : Nat) {s : RxRing α} {H L : List α}, s.Queues size H L →
    n ≤ H.length + L.length →
    (s.recvLoop n).received = s.received ++ (H ++ L).take n ∧
      (s.recvLoop n).Queues size (H.drop n) (L.drop (n - H.length))
  | 0, s, H, L, queues, _ => by
      simp only [RxRing.recvLoop, List.take_zero, List.append_nil, List.drop_zero, Nat.zero_sub,
        true_and]
      exact queues
  | n + 1, s, H, L, queues, enough => by
      obtain ⟨received, next⟩ := queues.ioRecvMbuf (by omega)
      have left : n ≤ (H.drop 1).length + (L.drop (1 - H.length)).length := by
        rw [List.length_drop, List.length_drop]
        omega
      obtain ⟨receivedRest, rest⟩ := Queues.recvLoop n next left
      rw [RxRing.recvLoop, if_neg (by rw [next.running]; decide), receivedRest, received,
        List.append_assoc]
      constructor
      · rw [← List.drop_append, Nat.add_comm n 1, List.take_add]
      · rw [List.drop_drop, List.drop_drop, List.length_drop] at rest
        have lowDrop : 1 - H.length + (n - (H.length - 1)) = n + 1 - H.length := by omega
        rw [Nat.add_comm 1 n, lowDrop] at rest
        exact rest

/-- What a step does that finds `H` and `L`, with what has arrived, on the queues: the batch is the
front of the high queue with the low queue behind it. -/
def Served (size : Nat) (H L : List α) (batch : Nat) (s s' : RxRing α) : Prop :=
  if size ≤ H.length ∨ size ≤ L.length then s'.exited = true ∧ s'.received = s.received
  else
    s'.received = s.received ++ (H ++ L).take batch ∧
      s'.Queues size (H.drop batch) (L.drop (batch - H.length))

/-- The batch of a round is bounded by what there is. -/
theorem Queues.recvBatch (queues : s.Queues size H L) (batch : Nat) :
    (s.recvLoop (min batch (s.rhMbufs.cirqCount + s.rlMbufs.cirqCount))).received =
        s.received ++ (H ++ L).take batch ∧
      (s.recvLoop (min batch (s.rhMbufs.cirqCount + s.rlMbufs.cirqCount))).Queues size
        (H.drop batch) (L.drop (batch - H.length)) := by
  rw [queues.high.count_eq, queues.low.count_eq]
  obtain ⟨received, left⟩ :=
    queues.recvLoop (min batch (H.length + L.length)) (Nat.min_le_right _ _)
  by_cases all : batch ≤ H.length + L.length
  · rw [Nat.min_eq_left all] at received left ⊢
    exact ⟨received, left⟩
  · have more : H.length + L.length ≤ batch := by omega
    rw [Nat.min_eq_right more] at received left ⊢
    have whole : (H ++ L).length = H.length + L.length := List.length_append
    have highNone : H.drop (H.length + L.length) = [] := List.drop_of_length_le (by omega)
    have lowNone : L.drop (H.length + L.length - H.length) = [] :=
      List.drop_of_length_le (by omega)
    have everything : (H ++ L).take (H.length + L.length) = H ++ L :=
      List.take_of_length_le (le_of_eq whole)
    rw [everything] at received
    rw [highNone, lowNone] at left
    rw [List.take_of_length_le (by omega), List.drop_of_length_le (by omega),
      List.drop_of_length_le (by omega)]
    exact ⟨received, left⟩

theorem Queues.step (queues : s.Queues size H L) (e : Event α) :
    Served size (H ++ highs filter e.arrivals) (L ++ lows filter e.arrivals) e.batch s
      (s.step filter e) := by
  rw [RxRing.step, if_neg (by rw [queues.running]; decide), Served]
  cases e with
  | check bursts =>
      obtain ⟨received, outcome⟩ : Loaded filter size H L (taken bursts) s _ :=
        queues.checkLoop bursts
      rw [Event.arrivals]
      split at outcome
      · next full =>
          rw [if_pos full]
          exact ⟨outcome, received⟩
      · next room =>
          rw [if_neg room]
          simp only [Event.batch, List.take_zero, List.append_nil, List.drop_zero, Nat.zero_sub]
          exact ⟨received, outcome⟩
  | round bursts =>
      obtain ⟨received, outcome⟩ : Loaded filter size H L (taken bursts) s _ :=
        queues.checkLoop bursts
      rw [Event.arrivals, serve, dpdkCheckRxRing]
      dsimp only
      split at outcome
      · next full =>
          rw [if_pos full, if_pos outcome]
          exact ⟨outcome, received⟩
      · next room =>
          rw [if_neg room, if_neg (by rw [outcome.running]; decide), ← received]
          exact outcome.recvBatch maxRecvBatch

/-! ## Runs -/

/-- The process has ended, or the queues are in order. -/
def Sound (size : Nat) (s : RxRing α) : Prop := s.exited = true ∨ ∃ H L, s.Queues size H L

theorem Served.sound {batch : Nat} {s' : RxRing α} (served : Served size H L batch s s') :
    s'.Sound size := by
  rw [Served] at served
  split at served
  · exact Or.inl served.1
  · exact Or.inr ⟨_, _, served.2⟩

theorem step_ended (ended : s.exited = true) (e : Event α) : s.step filter e = s := by
  rw [step, if_pos ended]

theorem step_sound (sound : s.Sound size) (e : Event α) : (s.step filter e).Sound size := by
  rcases sound with ended | ⟨H, L, queues⟩
  · rw [step_ended ended]
    exact Or.inl ended
  · exact (queues.step e).sound

theorem init_queues (room : 0 < size) : (init size : RxRing α).Queues size [] [] where
  high := CircularQueue.cirqInit_window room
  low := CircularQueue.cirqInit_window room
  highSize := rfl
  lowSize := rfl
  running := rfl

/-- What a step of a running process does, in terms of what the queues hold -/
def Serves (filter : α → Int) (size : Nat) (s : RxRing α) (e : Event α) (s' : RxRing α) : Prop :=
  s.exited = false →
    let H := s.rhMbufs.contents ++ highs filter e.arrivals
    let L := s.rlMbufs.contents ++ lows filter e.arrivals
    if size ≤ H.length ∨ size ≤ L.length then s'.exited = true ∧ s'.received = s.received
    else
      s'.exited = false ∧ s'.received = s.received ++ (H ++ L).take e.batch ∧
        s'.rhMbufs.contents = H.drop e.batch ∧ s'.rlMbufs.contents = L.drop (e.batch - H.length)

theorem Sound.serves (sound : s.Sound size) (e : Event α) :
    Serves filter size s e (s.step filter e) := by
  intro running
  rcases sound with ended | ⟨H, L, queues⟩
  · rw [running] at ended
    cases ended
  · have served : Served size _ _ _ s (s.step filter e) := queues.step e
    rw [queues.high.contents, queues.low.contents]
    rw [Served] at served
    dsimp only
    split at served
    · next full =>
        rw [if_pos full]
        exact served
    · next room =>
        rw [if_neg room]
        exact ⟨served.2.running, served.1, served.2.high.contents, served.2.low.contents⟩

/-- Over every run, each round of the main loop receives the first `MAX_RECV_BATCH` of the packets
that wait, the ones of high priority before the others and each level in the order of arrival; a
check receives nothing; and the process ends exactly when more packets arrive than a queue holds. -/
theorem rx_serves (filter : α → Int) {size : Nat} (room : 0 < size) (events : List (Event α)) :
    Lib.Run.Each (step filter) (Serves filter size) (init size) events :=
  Lib.Run.each_of_step (fun _ e sound _ => ⟨step_sound sound e, sound.serves e⟩) events (init size)
    (Or.inr ⟨[], [], init_queues room⟩) (Lib.Run.allowed_always events (init size))

/-- Two levels by parity, and a third one that is neither -/
def parity (n : Nat) : Int := if n < 100 then n % 2 else 2

def twoRounds : List (Event Nat) := [.check [[2, 3, 200], [5]], .round [[7, 4]]]

theorem rx_serves_two : Lib.Run.Each (step parity) (Serves parity 8) (init 8) twoRounds :=
  rx_serves parity (by decide) twoRounds

/-! ### Conservation -/

/-- The queues hold packets of their own level, and with what was received these are all that
arrived. -/
structure Accounts (filter : α → Int) (arrived H L : List α) (s : RxRing α) : Prop where
  high : ∀ p ∈ H, filter p = 1
  low : ∀ p ∈ L, filter p = 0
  highs_eq : highs filter arrived = highs filter s.received ++ H
  lows_eq : lows filter arrived = lows filter s.received ++ L
  received : ∀ p ∈ s.received, filter p = 0 ∨ filter p = 1

theorem highs_high {H : List α} (high : ∀ p ∈ H, filter p = 1) : highs filter H = H :=
  List.filter_eq_self.mpr fun p mem => decide_eq_true (high p mem)

theorem lows_low {L : List α} (low : ∀ p ∈ L, filter p = 0) : lows filter L = L :=
  List.filter_eq_self.mpr fun p mem => decide_eq_true (low p mem)

theorem highs_low {L : List α} (low : ∀ p ∈ L, filter p = 0) : highs filter L = [] :=
  List.filter_eq_nil_iff.mpr fun p mem => by simp [low p mem]

theorem lows_high {H : List α} (high : ∀ p ∈ H, filter p = 1) : lows filter H = [] :=
  List.filter_eq_nil_iff.mpr fun p mem => by simp [high p mem]

theorem high_arrivals {H : List α} (high : ∀ p ∈ H, filter p = 1) (arrivals : List α) :
    ∀ p ∈ H ++ highs filter arrivals, filter p = 1 := by
  intro p mem
  rcases List.mem_append.mp mem with old | new
  · exact high p old
  · exact of_decide_eq_true (List.mem_filter.mp new).2

theorem low_arrivals {L : List α} (low : ∀ p ∈ L, filter p = 0) (arrivals : List α) :
    ∀ p ∈ L ++ lows filter arrivals, filter p = 0 := by
  intro p mem
  rcases List.mem_append.mp mem with old | new
  · exact low p old
  · exact of_decide_eq_true (List.mem_filter.mp new).2

/-- The packets of high priority in a batch -/
theorem highs_batch {H L : List α} (high : ∀ p ∈ H, filter p = 1) (low : ∀ p ∈ L, filter p = 0)
    (batch : Nat) : highs filter ((H ++ L).take batch) = H.take batch := by
  rw [List.take_append, highs_append, highs_high fun p mem => high p (List.mem_of_mem_take mem),
    highs_low fun p mem => low p (List.mem_of_mem_take mem), List.append_nil]

theorem lows_batch {H L : List α} (high : ∀ p ∈ H, filter p = 1) (low : ∀ p ∈ L, filter p = 0)
    (batch : Nat) : lows filter ((H ++ L).take batch) = L.take (batch - H.length) := by
  rw [List.take_append, lows_append, lows_high fun p mem => high p (List.mem_of_mem_take mem),
    lows_low fun p mem => low p (List.mem_of_mem_take mem), List.nil_append]

theorem Accounts.step {arrived : List α} (accounts : Accounts filter arrived H L s)
    (queues : s.Queues size H L) (e : Event α) (running : (s.step filter e).exited = false) :
    let H' := H ++ highs filter e.arrivals
    let L' := L ++ lows filter e.arrivals
    (s.step filter e).received = s.received ++ (H' ++ L').take e.batch ∧
      (s.step filter e).Queues size (H'.drop e.batch) (L'.drop (e.batch - H'.length)) ∧
      Accounts filter (arrived ++ e.arrivals) (H'.drop e.batch) (L'.drop (e.batch - H'.length))
        (s.step filter e) := by
  intro H' L'
  have served : Served size _ _ _ s (s.step filter e) := queues.step e
  have high := high_arrivals accounts.high e.arrivals
  have low := low_arrivals accounts.low e.arrivals
  rw [Served] at served
  split at served
  · rw [running] at served
    cases served.1
  · obtain ⟨received, left⟩ := served
    refine ⟨received, left, fun p mem => high p (List.mem_of_mem_drop mem),
      fun p mem => low p (List.mem_of_mem_drop mem), ?_, ?_, ?_⟩
    · rw [received, highs_append, highs_append, highs_batch high low, List.append_assoc,
        List.take_append_drop, accounts.highs_eq, List.append_assoc]
    · rw [received, lows_append, lows_append, lows_batch high low, List.append_assoc,
        List.take_append_drop, accounts.lows_eq, List.append_assoc]
    · intro p mem
      rw [received] at mem
      rcases List.mem_append.mp mem with old | new
      · exact accounts.received p old
      · rcases List.mem_append.mp (List.mem_of_mem_take new) with isHigh | isLow
        · exact Or.inr (high p isHigh)
        · exact Or.inl (low p isLow)

theorem run_ended (ended : s.exited = true) (events : List (Event α)) :
    Lib.Run.run (step filter) s events = s := by
  induction events with
  | nil => rfl
  | cons e events ih =>
      rw [Lib.Run.run, step_ended ended]
      exact ih

theorem run_accounts (room : 0 < size) (events : List (Event α)) :
    (Lib.Run.run (step filter) (init size) events).exited = false →
      ∃ H L, (Lib.Run.run (step filter) (init size) events).Queues size H L ∧
        Accounts filter (events.flatMap Event.arrivals) H L
          (Lib.Run.run (step filter) (init size) events) := by
  induction events using List.reverseRecOn with
  | nil =>
      intro _
      exact ⟨[], [], init_queues room, ⟨by simp, by simp, rfl, rfl, by simp [Lib.Run.run, init]⟩⟩
  | append_singleton events e ih =>
      rw [Lib.Run.run_append, List.flatMap_append, List.flatMap_singleton]
      intro running
      cases before : (Lib.Run.run (step filter) (init size) events).exited with
      | true =>
          rw [run_ended before [e], before] at running
          cases running
      | false =>
          obtain ⟨H, L, queues, accounts⟩ := ih before
          exact ⟨_, _, (accounts.step queues e running).2⟩

/-- As long as the process runs, the packets of each level that were received and those that wait
on its queue are, in this order, those that arrived; nothing of another level is ever received. -/
theorem rx_conserves (filter : α → Int) {size : Nat} (room : 0 < size) (events : List (Event α))
    {s : RxRing α} (reached : Lib.Run.run (step filter) (init size) events = s)
    (running : s.exited = false) :
    highs filter (events.flatMap Event.arrivals) =
        highs filter s.received ++ s.rhMbufs.contents ∧
      lows filter (events.flatMap Event.arrivals) =
        lows filter s.received ++ s.rlMbufs.contents ∧
      ∀ p ∈ s.received, filter p = 0 ∨ filter p = 1 := by
  subst reached
  obtain ⟨H, L, queues, accounts⟩ := run_accounts room events running
  rw [queues.high.contents, queues.low.contents]
  exact ⟨accounts.highs_eq, accounts.lows_eq, accounts.received⟩

theorem rx_conserves_two :
    (Lib.Run.run (step parity) (init 8) twoRounds).received = [3, 5, 7, 2, 4] ∧
      highs parity (twoRounds.flatMap Event.arrivals) =
        highs parity (Lib.Run.run (step parity) (init 8) twoRounds).received ++
          (Lib.Run.run (step parity) (init 8) twoRounds).rhMbufs.contents :=
  ⟨by decide, (rx_conserves parity (by decide) twoRounds rfl (by decide)).1⟩

/-! ### How long a packet waits -/

/-- The batches of a run, added up -/
def batches (events : List (Event α)) : Nat := (events.map Event.batch).sum

/-- What waits on the high queue goes in the order in which it waits, a batch in each round. -/
theorem run_high : ∀ (later : List (Event α)) {s : RxRing α} {arrived H L : List α},
    s.Queues size H L → Accounts filter arrived H L s →
    (Lib.Run.run (step filter) s later).exited = false →
    ∃ more, (Lib.Run.run (step filter) s later).received = s.received ++ more ∧
      H.take (batches later) <+: highs filter more
  | [], s, _, H, L, _, _, _ => ⟨[], (List.append_nil _).symm, by
      rw [batches, List.map_nil, List.sum_nil, List.take_zero]
      exact List.nil_prefix⟩
  | e :: later, s, _, H, L, queues, accounts, running => by
      rw [Lib.Run.run] at running ⊢
      cases goesOn : (s.step filter e).exited with
      | true =>
          rw [run_ended goesOn, goesOn] at running
          cases running
      | false =>
          obtain ⟨received, queues', accounts'⟩ := accounts.step queues e goesOn
          obtain ⟨more, receivedMore, first⟩ := run_high later queues' accounts' running
          refine ⟨_, by rw [receivedMore, received, List.append_assoc], ?_⟩
          rw [highs_append,
            highs_batch (high_arrivals accounts.high _) (low_arrivals accounts.low _)]
          have whole : H.take (batches (e :: later)) <+:
              (H ++ highs filter e.arrivals).take (e.batch + batches later) := by
            rw [batches, List.map_cons, List.sum_cons]
            exact (List.prefix_append H _).take _
          rw [List.take_add] at whole
          exact whole.trans ((List.prefix_append_right_inj _).mpr first)

/-- From any reachable state, what waits on the high queue has been received, in its order, after as
many rounds of the main loop as it has batches, whatever arrives in the meantime. -/
theorem rx_high_latency (filter : α → Int) {size : Nat} (room : 0 < size)
    (events later : List (Event α)) {s s' : RxRing α}
    (reached : Lib.Run.run (step filter) (init size) events = s)
    (goesOn : Lib.Run.run (step filter) s later = s') (running : s'.exited = false) :
    ∃ more, s'.received = s.received ++ more ∧
      s.rhMbufs.contents.take (batches later) <+: highs filter more := by
  subst goesOn
  have before : s.exited = false := by
    cases ended : s.exited with
    | false => rfl
    | true =>
        rw [run_ended ended, ended] at running
        cases running
  subst reached
  obtain ⟨H, L, queues, accounts⟩ := run_accounts room events before
  rw [queues.high.contents]
  exact run_high later queues accounts running

theorem rx_high_latency_two :
    ∃ more, (Lib.Run.run (step parity) (init 8) twoRounds).received = [] ++ more ∧
      [3, 5].take (batches [Event.round [[7, 4]]]) <+: highs parity more :=
  rx_high_latency parity (by decide) [.check [[2, 3, 200], [5]]] [.round [[7, 4]]] rfl rfl
    (by decide)

end RxRing

end QStack
