/-
# QStack.N21Queue -- many producers, one consumer: n21_queue.h

An n21 queue is an array of circular queues, one for each producer, and a cursor of the
consumer.  A dequeue sweeps the queues from the cursor on until one yields an item or the
cursor is back where the sweep began; the cursor moves on after every `cirq_get`, also
after a successful one.  This is the shipped build, without ready flags, counters or
prefetch.

Every sub-queue is the ring of `QStack.SpscRing` with its own producer, so the order and
the conservation of the items are inherited from there.  What is new is the consumer: a
sweep that returns NULL has found every queue empty, and an item at the head of its queue
waits for at most one item of every other queue (`ahead`).
-/
import QStack.SpscRing
import Mathlib.Data.List.ReduceOption

namespace QStack

set_option autoImplicit false

/-- Where the consumer of an n21 queue stands. -/
inductive N21At (α : Type) where
  | idle
  /-- in `cirq_get` on the queue at the cursor, in the sweep that began at `start` -/
  | sweeping (start : Nat)
  /-- `cirq_get` has returned, the cursor is to move -/
  | moving (start : Nat) (ret : Option α)
deriving DecidableEq, Repr

structure N21 (α : Type) where
  /-- a `uint8_t` -/
  queueNum : Nat
  queuePoint : Nat
  queues : Nat → Spsc α
  consumer : N21At α := .idle
  /-- history: the queues the current sweep has found empty -/
  swept : List Nat := []
  /-- history: what was enqueued successfully under each `q_id` -/
  enqueued : Nat → List α := fun _ => []
  /-- history: the items taken, with their queues, the oldest first -/
  taken : List (Nat × α) := []
  /-- history: what the calls of `n21q_dequeue` have returned -/
  returned : List (Option α) := []

inductive N21Event (α : Type) where
  /-- `n21q_enqueue` under `qId` makes its full test -/
  | enqueue (qId : Nat) (item : α)
  /-- the next step of the producer `qId` -/
  | produce (qId : Nat)
  /-- `n21q_dequeue` is called -/
  | dequeue
  /-- the next step of the consumer -/
  | consume
deriving DecidableEq, Repr

/-- `n21q_succ` -/
def n21qSucc (queueNum p : Nat) : Nat :=
  let p := (p + 1) % 256
  if p = queueNum then 0 else p

namespace N21

variable {α : Type}

def init (queueNum size : Nat) : N21 α :=
  { queueNum := queueNum, queuePoint := 0, queues := fun _ => Spsc.init size }

/-- A memory step on one sub-queue. -/
def ringStep (s : N21 α) (id : Nat) (e : SpscEvent α) : N21 α :=
  { s with queues := Function.update s.queues id ((s.queues id).step e) }

/-- The step of the consumer inside `cirq_get`. -/
def sweep (s : N21 α) (start : Nat) : N21 α :=
  match (s.queues s.queuePoint).consumer with
  | .idle =>
      match (s.queues s.queuePoint).observe .get with
      | .nothing => { s with consumer := .moving start none, swept := s.queuePoint :: s.swept }
      | _ => s.ringStep s.queuePoint .get
  | .admitted => s.ringStep s.queuePoint .consume
  | .loaded ret =>
      { s.ringStep s.queuePoint .consume with
        consumer := .moving start ret
        taken := s.taken ++ (ret.map fun x => (s.queuePoint, x)).toList }

/-- The end of a round: the cursor moves, and the sweep ends with an item or where it began. -/
def move (s : N21 α) (start : Nat) (ret : Option α) : N21 α :=
  let point := n21qSucc s.queueNum s.queuePoint
  if ret.isNone && start != point then { s with queuePoint := point, consumer := .sweeping start }
  else { s with queuePoint := point, consumer := .idle, returned := s.returned ++ [ret] }

def step (s : N21 α) : N21Event α → N21 α
  | .enqueue qId item => if qId < s.queueNum then s.ringStep qId (.add item) else s
  | .produce qId =>
      match (s.queues qId).observe .produce with
      | .added item =>
          { s.ringStep qId .produce with
            enqueued := Function.update s.enqueued qId (s.enqueued qId ++ [item]) }
      | _ => s.ringStep qId .produce
  | .dequeue =>
      match s.consumer with
      | .idle => { s with consumer := .sweeping s.queuePoint, swept := [] }
      | _ => s
  | .consume =>
      match s.consumer with
      | .idle => s
      | .sweeping start => s.sweep start
      | .moving start ret => s.move start ret

/-! ## What is promised -/

/-- What was taken from one queue. -/
def takenFrom (id : Nat) (taken : List (Nat × α)) : List α :=
  (taken.filter fun p => p.1 == id).map Prod.snd

/-- The item of a dequeue that has taken one and not returned yet. -/
def inHand (s : N21 α) : List α :=
  match s.consumer with
  | .moving _ ret => ret.toList
  | _ => []

/-- Every enqueued item is taken once, in order, or still queued; and what is taken is returned. -/
structure Delivers (s : N21 α) : Prop where
  fifo : ∀ id, s.enqueued id = takenFrom id s.taken ++ (s.queues id).queued
  handed : s.taken.map Prod.snd = s.returned.reduceOption ++ s.inHand

/-- A queue counts as swept only if it was found empty, and only a sweep of all returns NULL. -/
structure SweepsHonestly (s s' : N21 α) : Prop where
  empty : ∀ id, s'.swept = id :: s.swept → (s.queues id).queued = []
  null : s'.returned = s.returned ++ [none] → ∀ id < s.queueNum, id ∈ s.swept

/-! ## The cursor -/

/-- How many queues lie between `a` and `id`, in the order of the sweep. -/
def distance (n a id : Nat) : Nat := if a ≤ id then id - a else id + n - a

section Cursor

variable {n a id : Nat}

/-- The `uint8_t` does not wrap before the comparison. -/
theorem n21qSucc_eq (inside : a < n) (byte : n < 256) :
    n21qSucc n a = if a + 1 = n then 0 else a + 1 := by
  unfold n21qSucc
  dsimp only
  rw [Nat.mod_eq_of_lt (by omega)]

theorem n21qSucc_lt (inside : a < n) (byte : n < 256) : n21qSucc n a < n := by
  rw [n21qSucc_eq inside byte]
  split <;> omega

theorem distance_lt (inside : a < n) (inside' : id < n) : distance n a id < n := by
  unfold distance
  split <;> omega

theorem distance_inj (inside : a < n) {i j : Nat} (inside' : i < n) (inside'' : j < n)
    (same : distance n a i = distance n a j) : i = j := by
  unfold distance at same
  split_ifs at same <;> omega

/-- Moving the cursor brings it closer to every queue but the one it leaves. -/
theorem distance_succ (byte : n < 256) (inside : a < n) (inside' : id < n) (other : id ≠ a) :
    distance n (n21qSucc n a) id + 1 = distance n a id := by
  rw [n21qSucc_eq inside byte]
  unfold distance
  split_ifs <;> omega

/-- Seen from the start of a sweep, the cursor moves away by one, until it is back. -/
theorem distance_from (byte : n < 256) (inside : a < n) (inside' : id < n)
    (away : n21qSucc n a ≠ id) : distance n id (n21qSucc n a) = distance n id a + 1 := by
  rw [n21qSucc_eq inside byte] at away ⊢
  unfold distance
  split_ifs at away ⊢ <;> omega

/-- The cursor is back at the start only from the last queue of the sweep. -/
theorem distance_last (byte : n < 256) (inside : a < n) (inside' : id < n)
    (back : n21qSucc n a = id) : distance n id a = n - 1 := by
  rw [n21qSucc_eq inside byte] at back
  unfold distance
  split_ifs at back ⊢ <;> omega

end Cursor

/-! ## The invariant -/

/-- What the current sweep has found empty so far. -/
def SweptSoFar (n : Nat) (s : N21 α) : N21At α → Prop
  | .idle => True
  | .sweeping start => start < n ∧
      ∀ id < n, distance n start id < distance n start s.queuePoint → id ∈ s.swept
  | .moving _ (some _) => True
  | .moving start none => start < n ∧
      ∀ id < n, distance n start id ≤ distance n start s.queuePoint → id ∈ s.swept

structure Inv (n : Nat) (s : N21 α) : Prop where
  num : s.queueNum = n
  point : s.queuePoint < n
  rings : ∀ id, (s.queues id).Shared (s.queues id).queued
  parked : ∀ id, (s.queues id).consumer ≠ .idle →
    id = s.queuePoint ∧ ∃ start, s.consumer = .sweeping start
  delivers : s.Delivers
  swept : SweptSoFar n s s.consumer

theorem takenFrom_append (id : Nat) (taken taken' : List (Nat × α)) :
    takenFrom id (taken ++ taken') = takenFrom id taken ++ takenFrom id taken' := by
  rw [takenFrom, List.filter_append, List.map_append]
  rfl

theorem init_inv {n size : Nat} (one : 1 ≤ n) (two : 2 ≤ size) : (init n size : N21 α).Inv n where
  num := rfl
  point := one
  rings := by
    intro id
    change (Spsc.init size).Shared (Spsc.init size).queued
    rw [(Spsc.init_shared two).queued_eq]
    exact Spsc.init_shared two
  parked := fun id busy => absurd rfl busy
  delivers :=
    { fifo := fun id => ((Spsc.init_shared two).queued_eq).symm
      handed := rfl }
  swept := trivial

section Step

variable {n : Nat} {s : N21 α}

/-- The queues after a memory step on queue `id`. -/
theorem ringStep_queues (s : N21 α) (id : Nat) (e : SpscEvent α) (j : Nat) :
    (s.ringStep id e).queues j = if j = id then (s.queues id).step e else s.queues j := by
  rw [ringStep]
  exact Function.update_apply _ _ _ _

theorem Inv.ringStep_shared (inv : s.Inv n) (id : Nat) (e : SpscEvent α) (j : Nat) :
    ((s.ringStep id e).queues j).Shared ((s.ringStep id e).queues j).queued := by
  rw [ringStep_queues]
  split
  · exact ((inv.rings id).next e).1
  · exact inv.rings j

/-- A memory step that queues nothing and takes nothing. -/
theorem Inv.quiet (inv : s.Inv n) {id : Nat} {e : SpscEvent α}
    (label : (s.queues id).observe e = .internal ∨ (s.queues id).observe e = .refused ∨
      (s.queues id).observe e = .nothing)
    (parked : ((s.queues id).step e).consumer ≠ .idle →
      id = s.queuePoint ∧ ∃ start, s.consumer = .sweeping start) :
    (s.ringStep id e).Inv n ∧ ∀ j, ((s.ringStep id e).queues j).queued = (s.queues j).queued := by
  have same : ∀ j, ((s.ringStep id e).queues j).queued = (s.queues j).queued := by
    intro j
    rw [ringStep_queues]
    split
    · rename_i here
      rw [here]
      exact ((inv.rings id).next e).2.1.same label
    · rfl
  refine ⟨{ inv with rings := inv.ringStep_shared id e, parked := ?_, delivers := ?_ }, same⟩
  · intro j busy
    rw [ringStep_queues] at busy
    split at busy
    · rename_i here
      rw [here]
      exact parked busy
    · exact inv.parked j busy
  · refine ⟨fun j => ?_, inv.delivers.handed⟩
    rw [same]
    exact inv.delivers.fifo j

/-- What one step can do. -/
inductive Move (s : N21 α) : N21 α → Prop
  | same : Move s s
  | quiet {id : Nat} {e : SpscEvent α}
      (label : (s.queues id).observe e = .internal ∨ (s.queues id).observe e = .refused ∨
        (s.queues id).observe e = .nothing)
      (parked : ((s.queues id).step e).consumer ≠ .idle →
        id = s.queuePoint ∧ ∃ start, s.consumer = .sweeping start) : Move s (s.ringStep id e)
  | enqueued {id : Nat} {item : α} (label : (s.queues id).observe .produce = .added item)
      (parked : ((s.queues id).step .produce).consumer = (s.queues id).consumer) :
      Move s { s.ringStep id .produce with
        enqueued := Function.update s.enqueued id (s.enqueued id ++ [item]) }
  | called (idle : s.consumer = .idle) :
      Move s { s with consumer := .sweeping s.queuePoint, swept := [] }
  | passed {start : Nat} (at_ : s.consumer = .sweeping start)
      (idle : (s.queues s.queuePoint).consumer = .idle)
      (empty : (s.queues s.queuePoint).queued = []) :
      Move s { s with consumer := .moving start none, swept := s.queuePoint :: s.swept }
  | took {start : Nat} {x : α} (at_ : s.consumer = .sweeping start)
      (first : (s.queues s.queuePoint).queued =
        x :: ((s.queues s.queuePoint).step .consume).queued)
      (idle : ((s.queues s.queuePoint).step .consume).consumer = .idle) :
      Move s { s.ringStep s.queuePoint .consume with
        consumer := .moving start (some x), taken := s.taken ++ [(s.queuePoint, x)] }
  | advanced {start : Nat} (at_ : s.consumer = .moving start none)
      (away : n21qSucc s.queueNum s.queuePoint ≠ start) :
      Move s { s with
        queuePoint := n21qSucc s.queueNum s.queuePoint, consumer := .sweeping start }
  | ended {start : Nat} {ret : Option α} (at_ : s.consumer = .moving start ret)
      (done : ret = none → n21qSucc s.queueNum s.queuePoint = start) :
      Move s { s with
        queuePoint := n21qSucc s.queueNum s.queuePoint
        consumer := .idle
        returned := s.returned ++ [ret] }

theorem sweep_move (inv : s.Inv n) {start : Nat} (at_ : s.consumer = .sweeping start) :
    Move s (s.sweep start) := by
  have busy : ∀ e : SpscEvent α, ((s.queues s.queuePoint).step e).consumer ≠ .idle →
      s.queuePoint = s.queuePoint ∧ ∃ start, s.consumer = .sweeping start :=
    fun _ _ => ⟨rfl, start, at_⟩
  have shared := inv.rings s.queuePoint
  unfold sweep
  cases pc : (s.queues s.queuePoint).consumer with
  | idle =>
      have label : (s.queues s.queuePoint).observe .get = .nothing ∨
          (s.queues s.queuePoint).observe .get = .internal := by
        unfold Spsc.observe
        rw [pc]
        dsimp only
        split
        · exact .inl rfl
        · exact .inr rfl
      dsimp only
      rcases label with empty | found
      · rw [empty]
        refine .passed at_ pc ?_
        have fifo := (shared.next .get).2.1
        rw [empty] at fifo
        generalize (s.queues s.queuePoint).queued = xs at fifo
        generalize ((s.queues s.queuePoint).step .get).queued = xs' at fifo
        cases fifo
        rfl
      · rw [found]
        exact .quiet (.inl found) (busy _)
  | admitted =>
      refine .quiet (.inl ?_) (busy _)
      unfold Spsc.observe
      rw [pc]
  | loaded ret =>
      have label : (s.queues s.queuePoint).observe .consume = .got ret := by
        unfold Spsc.observe
        rw [pc]
      have fifo := (shared.next .consume).2.1
      rw [label] at fifo
      dsimp only
      generalize before : (s.queues s.queuePoint).queued = xs at fifo
      generalize after : ((s.queues s.queuePoint).step .consume).queued = xs' at fifo
      cases fifo with
      | got =>
          refine .took at_ ?_ ?_
          · rw [before, after]
          · unfold Spsc.step
            rw [pc]

theorem step_move (inv : s.Inv n) (e : N21Event α) : Move s (s.step e) := by
  cases e with
  | enqueue qId item =>
      unfold step
      dsimp only
      split
      · refine .quiet ?_ ?_
        · unfold Spsc.observe
          dsimp only
          split
          · split
            · exact .inr (.inl rfl)
            · exact .inl rfl
          · exact .inl rfl
        · intro busy
          refine inv.parked qId (fun idle => busy ?_)
          unfold Spsc.step
          dsimp only
          split
          · split <;> exact idle
          · exact idle
      · exact .same
  | produce qId =>
      have consumer : ((s.queues qId).step .produce).consumer = (s.queues qId).consumer := by
        unfold Spsc.step
        dsimp only
        split
        · rfl
        · rfl
        · split <;> rfl
        · rfl
      have quiet : (∀ item, (s.queues qId).observe .produce ≠ .added item) →
          Move s (s.ringStep qId .produce) := by
        intro none
        refine .quiet ?_ (fun busy => inv.parked qId (consumer ▸ busy))
        unfold Spsc.observe at none ⊢
        cases pc : (s.queues qId).producer with
        | idle | admitted => exact .inl rfl
        | slotted =>
            dsimp only
            split
            · exact .inr (.inl rfl)
            · exact .inl rfl
        | stored item =>
            rw [pc] at none
            exact absurd rfl (none item)
      unfold step
      dsimp only
      split
      · exact .enqueued ‹_› consumer
      · rename_i none
        exact quiet fun item added => none item added
  | dequeue =>
      unfold step
      dsimp only
      split
      · exact .called ‹_›
      · exact .same
  | consume =>
      unfold step
      dsimp only
      split
      · exact .same
      · exact sweep_move inv ‹_›
      · rename_i start ret at_
        unfold move
        dsimp only
        split
        · rename_i more
          rw [Bool.and_eq_true, Option.isNone_iff_eq_none, bne_iff_ne] at more
          obtain ⟨rfl, away⟩ := more
          exact .advanced at_ away.symm
        · rename_i done
          refine .ended at_ ?_
          rintro rfl
          by_contra away
          refine done ?_
          rw [Bool.and_eq_true, bne_iff_ne]
          exact ⟨rfl, fun back => away back.symm⟩

/-! ## What a step keeps -/

theorem Inv.move (inv : s.Inv n) (byte : n < 256) {s' : N21 α} (move : Move s s') : s'.Inv n := by
  have num := inv.num
  have point := inv.point
  have nowhere : (∀ start, s.consumer ≠ .sweeping start) → ∀ id, (s.queues id).consumer = .idle := by
    intro other id
    by_contra busy
    obtain ⟨-, start, sweeping⟩ := inv.parked id busy
    exact other start sweeping
  have next : n21qSucc s.queueNum s.queuePoint < n := num.symm ▸ n21qSucc_lt point byte
  cases move with
  | same => exact inv
  | quiet label parked => exact (inv.quiet label parked).1
  | @enqueued id item label parked =>
      refine { inv with rings := inv.ringStep_shared id .produce, parked := ?_, delivers := ?_ }
      · intro j busy
        change ((s.ringStep id .produce).queues j).consumer ≠ .idle at busy
        rw [ringStep_queues] at busy
        split at busy
        · rename_i here
          rw [parked] at busy
          rw [here]
          exact inv.parked id busy
        · exact inv.parked j busy
      · refine ⟨fun j => ?_, inv.delivers.handed⟩
        change Function.update s.enqueued id (s.enqueued id ++ [item]) j = takenFrom j s.taken ++
          ((s.ringStep id .produce).queues j).queued
        rw [ringStep_queues, Function.update_apply]
        split
        · rename_i here
          have fifo := ((inv.rings id).next .produce).2.1
          rw [label] at fifo
          rw [here, inv.delivers.fifo id]
          generalize (s.queues id).queued = xs at fifo
          generalize ((s.queues id).step .produce).queued = xs' at fifo
          cases fifo
          exact List.append_assoc _ _ _
        · exact inv.delivers.fifo j
  | called idle =>
      refine { inv with parked := ?_, delivers := ?_, swept := ?_ }
      · intro id busy
        exact absurd (nowhere (by rw [idle]; nofun) id) busy
      · refine ⟨inv.delivers.fifo, ?_⟩
        have handed := inv.delivers.handed
        rw [inHand, idle] at handed
        exact handed
      · refine ⟨point, fun id inside before => ?_⟩
        change distance n s.queuePoint id < distance n s.queuePoint s.queuePoint at before
        rw [distance, distance, if_pos le_rfl] at before
        omega
  | @passed start at_ idle empty =>
      refine { inv with parked := ?_, delivers := ?_, swept := ?_ }
      · intro id busy
        obtain ⟨rfl, -⟩ := inv.parked id busy
        exact absurd idle busy
      · refine ⟨inv.delivers.fifo, ?_⟩
        have handed := inv.delivers.handed
        rw [inHand, at_] at handed
        exact handed
      · have swept := inv.swept
        rw [at_] at swept
        refine ⟨swept.1, fun id inside before => ?_⟩
        change distance n start id ≤ distance n start s.queuePoint at before
        rcases Nat.lt_or_ge (distance n start id) (distance n start s.queuePoint) with less | same
        · exact List.mem_cons_of_mem _ (swept.2 id inside less)
        · have here : id = s.queuePoint := by
            have started := swept.1
            unfold distance at before same
            split_ifs at before same <;> omega
          rw [here]
          exact List.mem_cons_self
  | @took start x at_ first idle =>
      refine { inv with rings := inv.ringStep_shared s.queuePoint .consume, parked := ?_,
                        delivers := ?_, swept := trivial }
      · intro id busy
        change ((s.ringStep s.queuePoint .consume).queues id).consumer ≠ .idle at busy
        rw [ringStep_queues] at busy
        split at busy
        · exact absurd idle busy
        · rename_i other
          exact absurd (inv.parked id busy).1 other
      · refine ⟨fun j => ?_, ?_⟩
        · change s.enqueued j = takenFrom j (s.taken ++ [(s.queuePoint, x)]) ++
            ((s.ringStep s.queuePoint .consume).queues j).queued
          rw [ringStep_queues, takenFrom_append, inv.delivers.fifo j]
          split
          · rename_i here
            rw [here, first, List.append_assoc]
            simp [takenFrom]
          · rename_i other
            have none : takenFrom j [(s.queuePoint, x)] = [] := by
              have away : ¬ s.queuePoint = j := fun same => other same.symm
              simp [takenFrom, away]
            rw [none, List.append_nil]
        · have handed := inv.delivers.handed
          rw [inHand, at_, List.append_nil] at handed
          change (s.taken ++ [(s.queuePoint, x)]).map Prod.snd = s.returned.reduceOption ++ [x]
          rw [List.map_append, handed]
          rfl
  | @advanced start at_ away =>
      refine { inv with point := next, parked := ?_, delivers := ?_, swept := ?_ }
      · intro id busy
        exact absurd (nowhere (by rw [at_]; nofun) id) busy
      · refine ⟨inv.delivers.fifo, ?_⟩
        have handed := inv.delivers.handed
        rw [inHand, at_] at handed
        exact handed
      · have swept := inv.swept
        rw [at_] at swept
        refine ⟨swept.1, fun id inside before => ?_⟩
        change distance n start id < distance n start (n21qSucc s.queueNum s.queuePoint) at before
        rw [num] at before away
        rw [distance_from byte point swept.1 away] at before
        exact swept.2 id inside (Nat.le_of_lt_succ before)
  | @ended start ret at_ done =>
      refine { inv with point := next, parked := ?_, delivers := ?_, swept := trivial }
      · intro id busy
        exact absurd (nowhere (by rw [at_]; nofun) id) busy
      · refine ⟨inv.delivers.fifo, ?_⟩
        have handed := inv.delivers.handed
        rw [inHand, at_] at handed
        change s.taken.map Prod.snd = (s.returned ++ [ret]).reduceOption ++ []
        rw [handed, List.append_nil, List.reduceOption_append]
        cases ret with
        | none => rw [List.reduceOption_cons_of_none]; rfl
        | some x => rw [List.reduceOption_cons_of_some]; rfl

theorem Inv.honest (inv : s.Inv n) (byte : n < 256) {s' : N21 α} (move : Move s s') :
    SweepsHonestly s s' := by
  have same : ∀ id : Nat, s.swept ≠ id :: s.swept :=
    fun id grown => absurd (congrArg List.length grown) (by simp)
  have silent : s.returned ≠ s.returned ++ [none] :=
    fun grown => absurd (congrArg List.length grown) (by simp)
  cases move with
  | same | quiet | enqueued | took | advanced =>
      exact ⟨fun id grown => absurd grown (same id), fun grown => absurd grown silent⟩
  | called =>
      exact ⟨fun id grown => absurd (congrArg List.length grown) (by simp),
        fun grown => absurd grown silent⟩
  | passed at_ idle empty =>
      refine ⟨fun id grown => ?_, fun grown => absurd grown silent⟩
      obtain rfl := List.head_eq_of_cons_eq grown
      exact empty
  | @ended start ret at_ done =>
      refine ⟨fun id grown => absurd grown (same id), fun grown id inside => ?_⟩
      change s.returned ++ [ret] = s.returned ++ [none] at grown
      obtain rfl : ret = none := by simpa using grown
      have swept := inv.swept
      rw [at_] at swept
      have back := done rfl
      have num := inv.num
      rw [num] at back inside
      refine swept.2 id inside ?_
      rw [distance_last byte inv.point swept.1 back]
      have near := distance_lt swept.1 inside
      omega

/-- Nothing that was taken is forgotten. -/
theorem Move.taken_grows {s' : N21 α} (move : Move s s') : s.taken <+: s'.taken := by
  cases move with
  | took => exact List.prefix_append _ _
  | same | quiet | enqueued | called | passed | advanced | ended => exact List.prefix_rfl

/-! ## Fairness -/

/-- The queue the consumer will look at next, or is looking at. -/
def nextPoint (s : N21 α) : Nat :=
  match s.consumer with
  | .moving _ _ => n21qSucc s.queueNum s.queuePoint
  | _ => s.queuePoint

/-- How many queues are looked at before `id`. -/
def ahead (s : N21 α) (id : Nat) : Nat := distance s.queueNum s.nextPoint id

/-- An item at the head of its queue: what was taken since, and the queues still before it. -/
structure Waits (s s' : N21 α) (id : Nat) (x : α) (since : List (Nat × α)) : Prop where
  head : (s'.queues id).queued.head? = some x
  taken : s'.taken = s.taken ++ since
  closer : since.length + s'.ahead id ≤ s.ahead id

/-- A step takes the item, or the item is still at the head, and no further from its turn. -/
theorem Inv.waits (inv : s.Inv n) (byte : n < 256) {s' : N21 α} (move : Move s s') {id : Nat}
    (inside : id < n) {x : α} (first : (s.queues id).queued.head? = some x) :
    s'.taken = s.taken ++ [(id, x)] ∨ ∃ since, Waits s s' id x since := by
  have num := inv.num
  have leaves : id ≠ s.queuePoint →
      distance s.queueNum (n21qSucc s.queueNum s.queuePoint) id + 1 =
        distance s.queueNum s.queuePoint id := by
    intro other
    rw [num]
    exact distance_succ byte inv.point inside other
  cases move with
  | same => exact .inr ⟨[], first, (List.append_nil _).symm, by simp⟩
  | quiet label parked =>
      refine .inr ⟨[], ?_, (List.append_nil _).symm, by simp [ahead, nextPoint, ringStep]⟩
      rw [(inv.quiet label parked).2 id]
      exact first
  | @enqueued j item label parked =>
      refine .inr ⟨[], ?_, (List.append_nil _).symm, by simp [ahead, nextPoint, ringStep]⟩
      change ((s.ringStep j .produce).queues id).queued.head? = some x
      rw [ringStep_queues]
      split
      · rename_i here
        rw [here] at first
        have fifo := ((inv.rings j).next .produce).2.1
        rw [label] at fifo
        generalize (s.queues j).queued = xs at fifo first
        generalize ((s.queues j).step .produce).queued = xs' at fifo
        cases fifo
        rw [List.head?_append, first, Option.some_or]
      · exact first
  | called idle => exact .inr ⟨[], first, (List.append_nil _).symm, by simp [ahead, nextPoint, idle]⟩
  | @passed start at_ idle empty =>
      have other : id ≠ s.queuePoint := by
        rintro rfl
        rw [empty] at first
        exact nomatch first
      refine .inr ⟨[], first, (List.append_nil _).symm, ?_⟩
      have closer := leaves other
      simp only [ahead, nextPoint, at_, List.length_nil]
      omega
  | @took start y at_ next idle =>
      by_cases here : id = s.queuePoint
      · subst here
        rw [next, List.head?_cons] at first
        obtain rfl := Option.some.inj first
        exact .inl rfl
      · refine .inr ⟨[(s.queuePoint, y)], ?_, rfl, ?_⟩
        · change ((s.ringStep s.queuePoint .consume).queues id).queued.head? = some x
          rw [ringStep_queues, if_neg here]
          exact first
        · have closer := leaves here
          simp only [ahead, nextPoint, at_, ringStep, List.length_singleton]
          omega
  | advanced at_ away => exact .inr ⟨[], first, (List.append_nil _).symm, by simp [ahead, nextPoint, at_]⟩
  | ended at_ done => exact .inr ⟨[], first, (List.append_nil _).symm, by simp [ahead, nextPoint, at_]⟩

end Step

section Run

variable {n : Nat}

theorem Inv.run (byte : n < 256) (es : List (N21Event α)) {s : N21 α} (inv : s.Inv n) :
    Lib.Run.Along step (Inv n) s es :=
  Lib.Run.along_of_step (fun _ e inv _ => inv.move byte (step_move inv e)) es s inv
    (Lib.Run.allowed_always es s)

theorem Inv.taken_grows (byte : n < 256) : ∀ (es : List (N21Event α)) {s : N21 α}, s.Inv n →
    s.taken <+: (Lib.Run.run step s es).taken
  | [], s, _ => List.prefix_rfl
  | e :: es, s, inv => by
      have move := step_move inv e
      exact move.taken_grows.trans (Inv.taken_grows byte es (inv.move byte move))

/-- While the item waits, at most one item of every queue before its own is taken. -/
theorem Inv.turn (byte : n < 256) {id : Nat} (inside : id < n) {x : α} :
    ∀ (es : List (N21Event α)) {s : N21 α}, s.Inv n → (s.queues id).queued.head? = some x →
      ∃ since, (Lib.Run.run step s es).taken = s.taken ++ since ∧
        ((id, x) ∈ since.take (s.ahead id + 1) ∨ since.length ≤ s.ahead id)
  | [], s, _, _ => ⟨[], (List.append_nil _).symm, .inr (Nat.zero_le _)⟩
  | e :: es, s, inv, first => by
      have move := step_move inv e
      have inv' := inv.move byte move
      rcases inv.waits byte move inside first with now | ⟨before, waits⟩
      · obtain ⟨more, later⟩ := Inv.taken_grows byte es inv'
        refine ⟨(id, x) :: more, ?_, .inl List.mem_cons_self⟩
        change (Lib.Run.run step (s.step e) es).taken = _
        rw [← later, now, List.append_assoc]
        rfl
      · obtain ⟨since, later, turn⟩ := Inv.turn byte inside es inv' waits.head
        have closer := waits.closer
        refine ⟨before ++ since, ?_, ?_⟩
        · change (Lib.Run.run step (s.step e) es).taken = _
          rw [later, waits.taken, List.append_assoc]
        · rcases turn with soon | few
          · refine .inl ?_
            have reach : (s.step e).ahead id + 1 ≤ s.ahead id + 1 - before.length := by omega
            rw [List.take_append]
            exact List.mem_append_right _ (List.take_subset_take_left _ reach soon)
          · refine .inr ?_
            rw [List.length_append]
            omega

/-- Of the next `n` items taken, one is the item at the head of queue `id`. -/
def Fair (n : Nat) (es later : List (N21Event α)) (s : N21 α) : Prop :=
  ∀ id < n, ∀ x, ((Lib.Run.run step s es).queues id).queued.head? = some x →
    ∃ since, (Lib.Run.run step s (es ++ later)).taken =
        (Lib.Run.run step s es).taken ++ since ∧
      (n ≤ since.length → (id, x) ∈ since.take n)

/-- **The n21 queue delivers, sweeps honestly and is fair** for every number of sub-queues the
`uint8_t` can hold, whatever the interleaving. -/
theorem n21_delivers {n size : Nat} (one : 1 ≤ n) (byte : n < 256) (two : 2 ≤ size)
    (es later : List (N21Event α)) :
    Lib.Run.Along step Delivers (init n size) es ∧
      Lib.Run.Each step (fun s _ s' => SweepsHonestly s s') (init n size) es ∧
      Fair n es later (init n size) := by
  have start : (init n size : N21 α).Inv n := init_inv one two
  have along := Inv.run byte es start
  refine ⟨Lib.Run.Along.mono (fun s inv => inv.delivers) es _ along, ?_, ?_⟩
  · refine Lib.Run.each_of_step (P := Inv n) ?_ es _ start (Lib.Run.allowed_always es _)
    intro s e inv _
    have move := step_move inv e
    exact ⟨inv.move byte move, inv.honest byte move⟩
  · intro id inside x first
    have inv : (Lib.Run.run step (init n size : N21 α) es).Inv n := Lib.Run.Along.last es _ along
    obtain ⟨since, taken, turn⟩ := Inv.turn byte inside later inv first
    have near : (Lib.Run.run step (init n size : N21 α) es).ahead id < n := by
      unfold ahead nextPoint
      rw [inv.num]
      split
      · exact distance_lt (n21qSucc_lt inv.point byte) inside
      · exact distance_lt inv.point inside
    refine ⟨since, ?_, fun enough => ?_⟩
    · rw [Lib.Run.run_append]
      exact taken
    · rcases turn with soon | few
      · exact List.take_subset_take_left _ near soon
      · omega

/-- Three queues, two of them filled: the dequeue that starts at the first passes it and takes
from the second. -/
theorem n21_delivers_three :
    (Lib.Run.run step (init 3 2) [.enqueue 1 7, .produce 1, .produce 1, .dequeue, .consume,
      .consume, .consume, .consume, .consume, .consume]).returned = [some 7] ∧
    Lib.Run.Along step Delivers (init 3 2) [.enqueue 1 7, .produce 1, .produce 1, .dequeue,
      .consume, .consume, .consume, .consume, .consume, .consume] :=
  ⟨by decide, (n21_delivers (by decide) (by decide) (by decide) _ []).1⟩

end Run

end N21

end QStack
