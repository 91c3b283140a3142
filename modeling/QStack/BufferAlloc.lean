/-
# QStack.BufferAlloc -- the buffers of q_get_wmbuf

`dpdk_alloc_mbuf` takes a buffer that came back through an n21 queue, or else one of the packet
pool.  For the stack it tries once.  For the application it goes on until it has one: a buffer
whose `udata64` is 2 is put aside, which here means that nobody has it any more, and an empty pool
is asked again.

`take` is one attempt, and `take_spec` all that it does.  `alloc_returns_iff` says when the loop
ends: when some buffer is not marked.  `alloc_law` says when the function is what its contract
promises: when the first buffer it meets is there and is not marked.  `stack_alloc_law` says that
the single attempt of the stack always is.
-/
import QStack.TxRing
import QStack.N21Queue
import QStack.Mbuf

namespace QStack

set_option autoImplicit false

/-! ## An n21 queue used by one thread -/

/-- The rings of an n21 queue and the cursor of its consumer. -/
structure N21Rings (α : Type) where
  /-- a `uint8_t` -/
  queueNum : Nat
  queuePoint : Nat
  queues : Nat → CircularQueue α

namespace N21Rings

variable {α : Type}

/-- One round of the loop, on the queue at the cursor. -/
def round (q : N21Rings α) : Option α × N21Rings α :=
  let got := (q.queues q.queuePoint).cirqGet
  (got.1,
    { q with
      queues := Function.update q.queues q.queuePoint got.2
      queuePoint := n21qSucc q.queueNum q.queuePoint })

/-- `__n21q_dequeue_strong`, the loop: it ends with an item, or where it began. -/
def dequeueLoop (start : Nat) : Nat → N21Rings α → Option α × N21Rings α
  | 0, q => (none, q)
  | rounds + 1, q =>
      let next := q.round
      if next.1.isNone && start != next.2.queuePoint then dequeueLoop start rounds next.2 else next

def n21qDequeue (q : N21Rings α) : Option α × N21Rings α :=
  q.dequeueLoop q.queuePoint q.queueNum

/-- What the queue `id` holds. -/
def held (q : N21Rings α) (id : Nat) : List α := (q.queues id).contents

/-- The queues are rings, and the cursor is on one of them. -/
structure Valid (q : N21Rings α) : Prop where
  byte : q.queueNum < 256
  point : q.queuePoint < q.queueNum
  rings : ∀ id < q.queueNum, (q.queues id).Window (q.held id)

def items (q : N21Rings α) : List α := (List.range q.queueNum).flatMap q.held

/-- The first item from the cursor on. -/
def IsNext (q : N21Rings α) (x : α) : Prop :=
  ∃ id < q.queueNum, (∃ rest, q.held id = x :: rest) ∧
    ∀ other < q.queueNum,
      N21.distance q.queueNum q.queuePoint other < N21.distance q.queueNum q.queuePoint id →
        q.held other = []

end N21Rings

/-! ## The buffers -/

/-- The fields of a packet buffer that its allocation looks at. -/
structure WMbuf where
  id : MbufId
  /-- 2 marks a buffer that the application has -/
  udata64 : Nat := 0
  mbufState : MbufState := .free
  score : Nat := 0
  refcnt : Nat := 1
  payloadLen : Nat := 0
  tcpSeq : Seq := 0
deriving DecidableEq, Repr

/-- An n21 queue that buffers come back through, with the pool behind it. -/
structure BufSource where
  queue : N21Rings WMbuf
  pool : List WMbuf

/-- The private context of the driver; its two pools exist. -/
structure DpdkContext where
  cpu : Nat
  /-- `free_queue` and `tx_pktmbuf_pool` -/
  stack : BufSource
  /-- `nofree_queue` and `pktmbuf_alloc_pool` -/
  user : BufSource
  uwgetNum : Nat := 0

namespace BufSource

def rtePktmbufAlloc (s : BufSource) : Option WMbuf × BufSource :=
  match s.pool with
  | [] => (none, s)
  | m :: rest => (some m, { s with pool := rest })

/-- The queue is asked first. -/
def take (s : BufSource) : Option WMbuf × BufSource :=
  match s.queue.n21qDequeue with
  | (some m, queue) => (some m, { s with queue := queue })
  | (none, queue) => { s with queue := queue }.rtePktmbufAlloc

def buffers (s : BufSource) : List WMbuf := s.queue.items ++ s.pool

/-- The buffer that is met first: the next one of the queue, or of the pool when that is empty. -/
def IsFirst (s : BufSource) (m : WMbuf) : Prop :=
  s.queue.IsNext m ∨ s.queue.items = [] ∧ s.pool.head? = some m

end BufSource

namespace DpdkContext

/-- `dpdk_alloc_mbuf(core_id, 0)`: one attempt. -/
def allocStackMbuf (c : DpdkContext) : Option WMbuf × DpdkContext :=
  match c.stack.take with
  | (none, stack) => (none, { c with stack := stack })
  | (some m, stack) =>
      (some { m with score := c.cpu, payloadLen := 0, tcpSeq := 0 }, { c with stack := stack })

/-- `dpdk_alloc_mbuf(core_id, 1)`, if its loop ends within `rounds` rounds. -/
def allocUserMbuf (coreId : Nat) : Nat → DpdkContext → Option (Option WMbuf × DpdkContext)
  | 0, _ => none
  | rounds + 1, c =>
      match c.user.take with
      | (none, user) => allocUserMbuf coreId rounds { c with user := user }
      | (some m, user) =>
          if m.udata64 = 2 then allocUserMbuf coreId rounds { c with user := user }
          else
            some (some { m with udata64 := 2, score := coreId, refcnt := 2 },
              { c with user := user, uwgetNum := c.uwgetNum + 1 })

/-- How `q_get_wmbuf` ends. -/
inductive GetEnd where
  /-- `TRACE_ERROR` -/
  | exits
  | returns (mbuf : Option WMbuf) (maxLen : Nat)
deriving DecidableEq, Repr

/-- `io_get_wmbuf` with `hold` set, the `max_len` of the caller being `maxLen` before. -/
def qGetWmbuf (coreId maxLen rounds : Nat) (c : DpdkContext) : Option (GetEnd × DpdkContext) :=
  match c.allocUserMbuf coreId rounds with
  | none => none
  | some (none, c) => some (.returns none maxLen, c)
  | some (some m, c) =>
      if m.mbufState ≠ .free then some (.exits, c)
      else some (.returns (some { m with mbufState := .talloc }) 1460, c)

end DpdkContext

/-! ## One dequeue -/

namespace N21Rings

variable {α : Type} {q : N21Rings α}

theorem round_empty (valid : q.Valid) (empty : q.held q.queuePoint = []) :
    q.round = (none, { q with queuePoint := n21qSucc q.queueNum q.queuePoint }) := by
  have window := valid.rings q.queuePoint valid.point
  rw [empty] at window
  have same : (q.queues q.queuePoint).cirqGet = (none, q.queues q.queuePoint) :=
    if_pos (window.empty_iff.mpr rfl)
  rw [round, same]
  dsimp only
  rw [Function.update_eq_self]

/-- The ring at the cursor gives its first item. -/
structure Takes (q : N21Rings α) (id : Nat) (x : α) (q' : N21Rings α) : Prop where
  inside : id < q.queueNum
  first : ∃ rest, q.held id = x :: rest ∧ q'.held = Function.update q.held id rest
  num : q'.queueNum = q.queueNum
  valid : q'.Valid

theorem round_takes (valid : q.Valid) (some_ : q.held q.queuePoint ≠ []) :
    ∃ x, q.round.1 = some x ∧ q.Takes q.queuePoint x q.round.2 := by
  have window := valid.rings q.queuePoint valid.point
  obtain ⟨x, rest, here, got, popped⟩ := window.cirqGet
    (Bool.eq_false_iff.mpr fun empty => some_ (window.empty_iff.mp empty))
  have held : q.round.2.held = Function.update q.held q.queuePoint rest := by
    funext id
    by_cases same : id = q.queuePoint
    · subst same
      rw [Function.update_self]
      change (Function.update q.queues _ _ _).contents = rest
      rw [Function.update_self]
      exact popped.contents
    · rw [Function.update_of_ne same]
      change (Function.update q.queues _ _ _).contents = _
      rw [Function.update_of_ne same]
      rfl
  refine ⟨x, got, valid.point, ⟨rest, here, held⟩, rfl, valid.byte,
    N21.n21qSucc_lt valid.point valid.byte, fun id inside => ?_⟩
  rw [held]
  change (Function.update q.queues q.queuePoint _ id).Window _
  by_cases same : id = q.queuePoint
  · subst same
    rw [Function.update_self, Function.update_self]
    exact popped
  · rw [Function.update_of_ne same, Function.update_of_ne same]
    exact valid.rings id inside

/-- **The sweep.**  `start` is where it began, and what is before the cursor is empty. -/
theorem dequeueLoop_spec {start : Nat} : ∀ (rounds : Nat) {q : N21Rings α}, q.Valid →
    start < q.queueNum →
    q.queueNum ≤ rounds + N21.distance q.queueNum start q.queuePoint →
    (∀ id < q.queueNum, N21.distance q.queueNum start id <
      N21.distance q.queueNum start q.queuePoint → q.held id = []) →
    (q.dequeueLoop start rounds = (none, { q with queuePoint := start }) ∧
        ∀ id < q.queueNum, q.held id = []) ∨
      ∃ id x, (q.dequeueLoop start rounds).1 = some x ∧
        q.Takes id x (q.dequeueLoop start rounds).2 ∧
        ∀ other < q.queueNum, N21.distance q.queueNum start other <
          N21.distance q.queueNum start id → q.held other = [] := by
  intro rounds
  induction rounds with
  | zero =>
      intro q valid started enough _
      have bound := N21.distance_lt started valid.point
      omega
  | succ rounds ih =>
      intro q valid started enough before
      by_cases empty : q.held q.queuePoint = []
      · rw [dequeueLoop, round_empty valid empty]
        dsimp only
        rw [Option.isNone_none, Bool.true_and]
        have swept : ∀ id < q.queueNum, N21.distance q.queueNum start id ≤
            N21.distance q.queueNum start q.queuePoint → q.held id = [] := by
          intro id inside le
          rcases Nat.lt_or_eq_of_le le with less | same
          · exact before id inside less
          · rw [N21.distance_inj started inside valid.point same]
            exact empty
        by_cases back : n21qSucc q.queueNum q.queuePoint = start
        · refine .inl ⟨?_, fun id inside => swept id inside ?_⟩
          · rw [if_neg (by simp [back]), back]
          · rw [N21.distance_last valid.byte valid.point started back]
            have bound := N21.distance_lt started inside
            omega
        · rw [if_pos (by simpa using fun same => back same.symm)]
          have next := N21.distance_from valid.byte valid.point started back
          have rest := @ih { q with queuePoint := n21qSucc q.queueNum q.queuePoint }
            ⟨valid.byte, N21.n21qSucc_lt valid.point valid.byte, valid.rings⟩ started ?_ ?_
          · rcases rest with ⟨null, empty⟩ | ⟨id, x, got, takes, before⟩
            · exact .inl ⟨null, empty⟩
            · exact .inr ⟨id, x, got, ⟨takes.inside, takes.first, takes.num, takes.valid⟩, before⟩
          · change q.queueNum ≤ rounds + N21.distance q.queueNum start (n21qSucc _ _)
            rw [next]
            omega
          · intro id inside less
            refine swept id inside ?_
            change _ < N21.distance q.queueNum start (n21qSucc _ _) at less
            rw [next] at less
            exact Nat.lt_succ_iff.mp less
      · obtain ⟨x, got, takes⟩ := round_takes valid empty
        have ends : q.dequeueLoop start (rounds + 1) = q.round := by
          rw [dequeueLoop, got]
          exact if_neg Bool.false_ne_true
        rw [ends]
        exact .inr ⟨q.queuePoint, x, got, takes, before⟩

/-- A queue of the array gives one item. -/
theorem perm_pop {held : Nat → List α} {id : Nat} {x : α} {rest : List α}
    (here : held id = x :: rest) : ∀ n, id < n →
    (x :: (List.range n).flatMap (Function.update held id rest)).Perm
      ((List.range n).flatMap held) := by
  intro n
  induction n with
  | zero => exact fun inside => absurd inside (Nat.not_lt_zero _)
  | succ n ih =>
      intro inside
      rw [List.range_succ, List.flatMap_append, List.flatMap_append, List.flatMap_singleton,
        List.flatMap_singleton]
      by_cases last : id = n
      · subst last
        have others : (List.range id).flatMap (Function.update held id rest) =
            (List.range id).flatMap held := by
          rw [List.flatMap_def, List.flatMap_def]
          congr 1
          refine List.map_congr_left fun j below => ?_
          exact Function.update_of_ne (Nat.ne_of_lt (List.mem_range.mp below)) _ _
        rw [others, Function.update_self, here]
        exact List.perm_middle.symm
      · rw [Function.update_of_ne (Ne.symm last)]
        exact (ih (by omega)).append_right (held n)

theorem items_nil (q : N21Rings α) : q.items = [] ↔ ∀ id < q.queueNum, q.held id = [] := by
  rw [items, List.flatMap_eq_nil_iff]
  exact forall_congr' fun id => by rw [List.mem_range]

theorem IsNext.items {x : α} (next : q.IsNext x) : q.items ≠ [] := by
  obtain ⟨id, inside, ⟨rest, here⟩, -⟩ := next
  intro none_
  rw [(items_nil q).mp none_ id inside] at here
  cases here

theorem IsNext.unique {x y : α} (valid : q.Valid) (first : q.IsNext x) (second : q.IsNext y) :
    x = y := by
  obtain ⟨id, inside, ⟨rest, here⟩, before⟩ := first
  obtain ⟨id', inside', ⟨rest', here'⟩, before'⟩ := second
  have same : id = id' := by
    refine N21.distance_inj valid.point inside inside' (Nat.le_antisymm ?_ ?_)
    · refine Nat.not_lt.mp fun less => ?_
      rw [before id' inside' less] at here'
      cases here'
    · refine Nat.not_lt.mp fun less => ?_
      rw [before' id inside less] at here
      cases here
  subst same
  exact (List.cons.inj (here.symm.trans here')).1

/-- **`n21q_dequeue` by one thread.**  It gives the first item from the cursor on, and NULL when
there is none. -/
theorem n21qDequeue_spec (valid : q.Valid) :
    (q.n21qDequeue = (none, q) ∧ q.items = []) ∨
      ∃ x, q.n21qDequeue.1 = some x ∧ q.IsNext x ∧ q.n21qDequeue.2.Valid ∧
        (x :: q.n21qDequeue.2.items).Perm q.items := by
  have none_ : ∀ id, ¬ N21.distance q.queueNum q.queuePoint id <
      N21.distance q.queueNum q.queuePoint q.queuePoint := by
    intro id
    rw [N21.distance, N21.distance, if_pos (Nat.le_refl _), Nat.sub_self]
    exact Nat.not_lt_zero _
  rcases dequeueLoop_spec q.queueNum valid valid.point (Nat.le_add_right _ _)
    (fun id _ less => absurd less (none_ id)) with ⟨null, empty⟩ | ⟨id, x, got, takes, before⟩
  · exact .inl ⟨null, (items_nil q).mpr empty⟩
  · obtain ⟨rest, here, held⟩ := takes.first
    refine .inr ⟨x, got, ⟨id, takes.inside, ⟨rest, here⟩, before⟩, takes.valid, ?_⟩
    have after : q.n21qDequeue.2.items =
        (List.range q.queueNum).flatMap (Function.update q.held id rest) :=
      congrArg₂ (fun n held => (List.range n).flatMap held) takes.num held
    rw [after]
    exact perm_pop here _ takes.inside

end N21Rings

/-! ## One attempt -/

namespace BufSource

variable {s : BufSource}

/-- **One attempt** gives the first buffer, and loses none; it fails only without buffers. -/
theorem take_spec (valid : s.queue.Valid) :
    (s.take = (none, s) ∧ s.buffers = []) ∨
      ∃ m, s.take.1 = some m ∧ s.IsFirst m ∧ s.take.2.queue.Valid ∧
        (m :: s.take.2.buffers).Perm s.buffers := by
  unfold take
  rcases N21Rings.n21qDequeue_spec valid with ⟨null, empty⟩ | ⟨m, got, next, valid', perm⟩
  · obtain ⟨queue, pool⟩ := s
    dsimp only at null empty valid ⊢
    rw [null]
    cases pool with
    | nil => exact .inl ⟨rfl, (congrArg (· ++ []) empty).trans (List.append_nil [])⟩
    | cons m rest =>
        have same : ∀ pool, buffers { queue := queue, pool := pool } = pool := fun pool =>
          congrArg (· ++ pool) empty
        refine .inr ⟨m, rfl, .inr ⟨empty, rfl⟩, valid, ?_⟩
        rw [same]
        exact .of_eq (congrArg (m :: ·) (same rest))
  · generalize s.queue.n21qDequeue = result at got valid' perm ⊢
    obtain ⟨_, queue⟩ := result
    obtain rfl : _ = some m := got
    exact .inr ⟨m, rfl, .inl next, valid', perm.append_right s.pool⟩

theorem IsFirst.unique (valid : s.queue.Valid) {m m' : WMbuf} (first : s.IsFirst m)
    (second : s.IsFirst m') : m = m' := by
  rcases first with next | ⟨empty, head⟩
  · rcases second with next' | ⟨empty', -⟩
    · exact next.unique valid next'
    · exact absurd empty' next.items
  · rcases second with next' | ⟨-, head'⟩
    · exact absurd empty next'.items
    · exact Option.some.inj (head.symm.trans head')

end BufSource

/-! ## The loop -/

namespace DpdkContext

variable {c : DpdkContext} {coreId : Nat}

/-- Without buffers the loop does not end. -/
theorem alloc_spins (valid : c.user.queue.Valid) (empty : c.user.buffers = []) (rounds : Nat) :
    c.allocUserMbuf coreId rounds = none := by
  induction rounds with
  | zero => rfl
  | succ rounds ih =>
      rcases BufSource.take_spec valid with ⟨null, -⟩ | ⟨m, -, -, -, perm⟩
      · rw [allocUserMbuf, null]
        exact ih
      · rw [empty] at perm
        cases perm.symm.nil_eq

/-- The first buffer is handed out, unless it is marked. -/
theorem alloc_first (coreId : Nat) (valid : c.user.queue.Valid) {m : WMbuf} (first : c.user.IsFirst m)
    (usable : m.udata64 ≠ 2) (rounds : Nat) :
    ∃ c', c.allocUserMbuf coreId (rounds + 1) =
        some (some { m with udata64 := 2, score := coreId, refcnt := 2 }, c') ∧
      (m :: c'.user.buffers).Perm c.user.buffers := by
  rw [allocUserMbuf]
  rcases BufSource.take_spec valid with ⟨-, empty⟩ | ⟨m', got, first', -, perm⟩
  · rcases first with next | ⟨-, head⟩
    · exact absurd (List.append_eq_nil_iff.mp empty).1 next.items
    · rw [(List.append_eq_nil_iff.mp empty).2] at head
      cases head
  · obtain rfl := first.unique valid first'
    generalize c.user.take = result at got perm ⊢
    obtain ⟨_, user⟩ := result
    obtain rfl : _ = some m := got
    exact ⟨_, if_neg usable, perm⟩

/-- Then the loop goes on without it. -/
theorem alloc_marked (coreId : Nat) (valid : c.user.queue.Valid) {m : WMbuf} (first : c.user.IsFirst m)
    (marked : m.udata64 = 2) :
    ∃ c' : DpdkContext, c'.user.queue.Valid ∧ (m :: c'.user.buffers).Perm c.user.buffers ∧
      ∀ rounds, c.allocUserMbuf coreId (rounds + 1) = c'.allocUserMbuf coreId rounds := by
  rcases BufSource.take_spec valid with ⟨-, empty⟩ | ⟨m', got, first', valid', perm⟩
  · rcases first with next | ⟨-, head⟩
    · exact absurd (List.append_eq_nil_iff.mp empty).1 next.items
    · rw [(List.append_eq_nil_iff.mp empty).2] at head
      cases head
  · obtain rfl := first.unique valid first'
    refine ⟨{ c with user := c.user.take.2 }, valid', perm, fun rounds => ?_⟩
    rw [allocUserMbuf]
    generalize c.user.take = result at got ⊢
    obtain ⟨_, user⟩ := result
    obtain rfl : _ = some m := got
    exact if_pos marked

theorem first_exists (valid : c.user.queue.Valid) (some_ : c.user.buffers ≠ []) :
    ∃ m ∈ c.user.buffers, c.user.IsFirst m := by
  rcases BufSource.take_spec valid with ⟨-, empty⟩ | ⟨m, -, first, -, perm⟩
  · exact absurd empty some_
  · exact ⟨m, perm.mem_iff.mp List.mem_cons_self, first⟩

/-- **Termination.**  The loop ends exactly when some buffer is not marked. -/
theorem alloc_returns_iff (valid : c.user.queue.Valid) :
    (∃ rounds, (c.allocUserMbuf coreId rounds).isSome = true) ↔
      ∃ m ∈ c.user.buffers, m.udata64 ≠ 2 := by
  induction size : c.user.buffers.length generalizing c with
  | zero =>
      have empty := List.eq_nil_of_length_eq_zero size
      refine iff_of_false ?_ ?_
      · rintro ⟨rounds, returned⟩
        rw [alloc_spins valid empty] at returned
        cases returned
      · rintro ⟨m, mem, -⟩
        rw [empty] at mem
        cases mem
  | succ n ih =>
      obtain ⟨m, mem, first⟩ := first_exists valid fun empty => by
        rw [empty] at size
        cases size
      by_cases marked : m.udata64 = 2
      · obtain ⟨c', valid', perm, goes⟩ := alloc_marked coreId valid first marked
        have fewer : c'.user.buffers.length = n := by
          have length := perm.length_eq
          rw [List.length_cons] at length
          omega
        have shift : (∃ rounds, (c.allocUserMbuf coreId rounds).isSome = true) ↔
            ∃ rounds, (c'.allocUserMbuf coreId rounds).isSome = true := by
          constructor
          · rintro ⟨_ | rounds, returned⟩
            · cases returned
            · exact ⟨rounds, goes rounds ▸ returned⟩
          · rintro ⟨rounds, returned⟩
            exact ⟨rounds + 1, (goes rounds).symm ▸ returned⟩
        rw [shift, ih valid' fewer]
        have same := fun m' : WMbuf => perm.mem_iff (a := m')
        simp only [List.mem_cons] at same
        constructor
        · rintro ⟨m', mem', usable⟩
          exact ⟨m', (same m').mp (.inr mem'), usable⟩
        · rintro ⟨m', mem', usable⟩
          rcases (same m').mpr mem' with rfl | mem'
          · exact absurd marked usable
          · exact ⟨m', mem', usable⟩
      · obtain ⟨c', returned, -⟩ := alloc_first coreId valid first marked 0
        exact iff_of_true ⟨1, by rw [returned]; rfl⟩ ⟨m, mem, marked⟩

/-- What the loop ends with: a buffer, which is one of those that are gone. -/
theorem alloc_length : ∀ (rounds : Nat) {c c' : DpdkContext} {ret : Option WMbuf},
    c.user.queue.Valid → c.allocUserMbuf coreId rounds = some (ret, c') →
      ret.isSome = true ∧ c'.user.buffers.length < c.user.buffers.length := by
  intro rounds
  induction rounds with
  | zero =>
      intro c c' ret _ returned
      cases returned
  | succ rounds ih =>
      intro c c' ret valid returned
      have some_ : c.user.buffers ≠ [] := fun empty => by
        rw [alloc_spins valid empty] at returned
        cases returned
      obtain ⟨m, mem, first⟩ := first_exists valid some_
      by_cases marked : m.udata64 = 2
      · obtain ⟨c₁, valid₁, perm, goes⟩ := alloc_marked coreId valid first marked
        rw [goes] at returned
        obtain ⟨isSome, fewer⟩ := ih valid₁ returned
        have length := perm.length_eq
        rw [List.length_cons] at length
        exact ⟨isSome, by omega⟩
      · obtain ⟨c₁, got, perm⟩ := alloc_first coreId valid first marked rounds
        rw [got] at returned
        obtain ⟨rfl, rfl⟩ := Prod.mk.inj (Option.some.inj returned)
        have length := perm.length_eq
        rw [List.length_cons] at length
        exact ⟨rfl, by omega⟩

/-! ## The contract -/

/-- No buffer is lost: what was there is there still, or is returned. -/
def Keeps (c : DpdkContext) (ret : Option WMbuf) (c' : DpdkContext) : Prop :=
  ((ret.toList ++ c'.user.buffers).map WMbuf.id).Perm (c.user.buffers.map WMbuf.id)

/-- `dpdk_alloc_mbuf(core_id, 1)` returns, with NULL when there is no usable buffer. -/
def AllocOk (coreId : Nat) (c : DpdkContext) : Prop :=
  ∃ rounds ret c', c.allocUserMbuf coreId rounds = some (ret, c') ∧
    ((∀ m ∈ c.user.buffers, m.udata64 = 2) → ret = none) ∧ c.Keeps ret c'

/-- So does `q_get_wmbuf`. -/
def GetOk (coreId maxLen : Nat) (c : DpdkContext) : Prop :=
  ∃ rounds ret len c', c.qGetWmbuf coreId maxLen rounds = some (.returns ret len, c') ∧
    ((∀ m ∈ c.user.buffers, m.udata64 = 2) → ret = none) ∧ c.Keeps ret c'

/-- **The stack's allocation** keeps the contract whatever there is: it returns NULL exactly if
there is no buffer, and none is lost. -/
theorem stack_alloc_law (valid : c.stack.queue.Valid) :
    (c.allocStackMbuf.1 = none ↔ c.stack.buffers = []) ∧
      ((c.allocStackMbuf.1.toList ++ c.allocStackMbuf.2.stack.buffers).map WMbuf.id).Perm
        (c.stack.buffers.map WMbuf.id) := by
  unfold allocStackMbuf
  rcases BufSource.take_spec valid with ⟨null, empty⟩ | ⟨m, got, -, -, perm⟩
  · rw [null]
    exact ⟨iff_of_true rfl empty, .refl _⟩
  · generalize c.stack.take = result at got perm ⊢
    obtain ⟨_, stack⟩ := result
    obtain rfl : _ = some m := got
    refine ⟨iff_of_false (fun none_ => by cases none_) fun empty => ?_, perm.map WMbuf.id⟩
    rw [empty] at perm
    cases perm.symm.nil_eq

/-- A result that keeps the contract is the first buffer, at once. -/
theorem keeps_first (valid : c.user.queue.Valid) {rounds : Nat} {ret : Option WMbuf}
    {c' : DpdkContext} (returned : c.allocUserMbuf coreId rounds = some (ret, c'))
    (keeps : c.Keeps ret c') :
    ∃ m, c.user.IsFirst m ∧ m.udata64 ≠ 2 ∧
      ret = some { m with udata64 := 2, score := coreId, refcnt := 2 } := by
  obtain ⟨isSome, fewer⟩ := alloc_length rounds valid returned
  obtain ⟨m, mem, first⟩ := first_exists valid (List.ne_nil_of_length_pos (by omega))
  obtain ⟨rounds, rfl⟩ : ∃ r, rounds = r + 1 := by
    cases rounds with
    | zero => cases returned
    | succ rounds => exact ⟨rounds, rfl⟩
  have unmarked : m.udata64 ≠ 2 := by
    intro marked
    -- the marked buffer is gone, and so is what is returned
    obtain ⟨c₁, valid₁, perm, goes⟩ := alloc_marked coreId valid first marked
    rw [goes] at returned
    obtain ⟨-, fewer₁⟩ := alloc_length rounds valid₁ returned
    have length := perm.length_eq
    have total := keeps.length_eq
    obtain ⟨m', rfl⟩ := Option.isSome_iff_exists.mp isSome
    simp only [List.length_map, Option.toList_some, List.singleton_append,
      List.length_cons] at length total
    omega
  obtain ⟨c₁, got, -⟩ := alloc_first coreId valid first unmarked rounds
  rw [got] at returned
  exact ⟨m, first, unmarked, (Prod.mk.inj (Option.some.inj returned)).1.symm⟩

/-- **Allocation.**  The two functions keep their contract exactly when the first buffer is there
and not marked, for `q_get_wmbuf` in state FREE besides. -/
theorem alloc_law (valid : c.user.queue.Valid) (coreId maxLen : Nat) :
    (c.AllocOk coreId ↔ ∃ m, c.user.IsFirst m ∧ m.udata64 ≠ 2) ∧
      (c.GetOk coreId maxLen ↔ ∃ m, c.user.IsFirst m ∧ m.udata64 ≠ 2 ∧ m.mbufState = .free) := by
  have keeps : ∀ {m m' : WMbuf} {c' : DpdkContext}, m'.id = m.id →
      (m :: c'.user.buffers).Perm c.user.buffers → c.Keeps (some m') c' := by
    intro m m' c' same perm
    have ids := perm.map WMbuf.id
    rw [List.map_cons, ← same] at ids
    exact ids
  have usable : ∀ {m : WMbuf}, c.user.IsFirst m → m.udata64 ≠ 2 → ∀ ret : Option WMbuf,
      (∀ m ∈ c.user.buffers, m.udata64 = 2) → ret = none := by
    intro m first unmarked ret all
    have mem : m ∈ c.user.buffers := by
      rcases first with ⟨id, inside, ⟨rest, here⟩, -⟩ | ⟨-, head⟩
      · refine List.mem_append_left _ (List.mem_flatMap.mpr ⟨id, List.mem_range.mpr inside, ?_⟩)
        rw [here]
        exact List.mem_cons_self
      · exact List.mem_append_right _ (List.mem_of_mem_head? head)
    exact absurd (all m mem) unmarked
  constructor
  · constructor
    · rintro ⟨rounds, ret, c', returned, -, kept⟩
      obtain ⟨m, first, unmarked, -⟩ := keeps_first valid returned kept
      exact ⟨m, first, unmarked⟩
    · rintro ⟨m, first, unmarked⟩
      obtain ⟨c', got, perm⟩ := alloc_first coreId valid first unmarked 0
      exact ⟨1, _, c', got, usable first unmarked _, keeps (m := m) rfl perm⟩
  · constructor
    · rintro ⟨rounds, ret, len, c', returned, -, kept⟩
      unfold qGetWmbuf at returned
      cases allocated : c.allocUserMbuf coreId rounds with
      | none =>
          rw [allocated] at returned
          cases returned
      | some result =>
          obtain ⟨got, c₁⟩ := result
          obtain ⟨isSome, -⟩ := alloc_length rounds valid allocated
          obtain ⟨m', rfl⟩ := Option.isSome_iff_exists.mp isSome
          rw [allocated] at returned
          dsimp only at returned
          split at returned
          · cases returned
          · rename_i state
            cases returned
            obtain ⟨m, first, unmarked, same⟩ := keeps_first valid allocated kept
            obtain rfl := Option.some.inj same
            exact ⟨m, first, unmarked, not_not.mp state⟩
    · rintro ⟨m, first, unmarked, state⟩
      obtain ⟨c', got, perm⟩ := alloc_first coreId valid first unmarked 0
      refine ⟨1, some { m with
          udata64 := 2
          score := coreId
          refcnt := 2
          mbufState := .talloc }, 1460, c', ?_, usable first unmarked _,
          keeps (m := m) rfl perm⟩
      rw [qGetWmbuf, got]
      exact if_neg (not_not.mpr state)

/-- A driver without buffers. -/
def noBuffers : DpdkContext :=
  let source : BufSource :=
    { queue := { queueNum := 1, queuePoint := 0, queues := fun _ => .cirqInit 2 }, pool := [] }
  { cpu := 0, stack := source, user := source }

theorem noBuffers_valid : noBuffers.user.queue.Valid where
  byte := by decide
  point := by decide
  rings := fun _ _ => by
    have window : (CircularQueue.cirqInit 2 : CircularQueue WMbuf).Window [] :=
      CircularQueue.cirqInit_window (by decide)
    change (CircularQueue.cirqInit 2).Window (CircularQueue.cirqInit 2).contents
    rw [window.contents]
    exact window

theorem alloc_law_noBuffers : noBuffers.user.queue.Valid ∧
    (noBuffers.AllocOk 0 ↔ ∃ m, noBuffers.user.IsFirst m ∧ m.udata64 ≠ 2) ∧
      (noBuffers.GetOk 0 0 ↔
        ∃ m, noBuffers.user.IsFirst m ∧ m.udata64 ≠ 2 ∧ m.mbufState = .free) :=
  ⟨noBuffers_valid, alloc_law noBuffers_valid 0 0⟩

/-- With an empty queue and an empty pool the call does not return. -/
theorem no_buffers_spin : ¬ ∀ c : DpdkContext, c.user.queue.Valid → ∀ coreId maxLen : Nat,
    c.AllocOk coreId ∧ c.GetOk coreId maxLen := by
  intro always
  obtain ⟨rounds, ret, c', returned, -⟩ := (always noBuffers noBuffers_valid 0 0).1
  have empty : noBuffers.user.buffers = [] := by decide
  rw [alloc_spins noBuffers_valid empty] at returned
  cases returned

end DpdkContext

end QStack
