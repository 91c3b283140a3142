/-
# QStack.ChunkPool -- mempool_alloc_chunk and mempool_free_chunk

Chunks of streams and listeners.  Every core has a private `rte_mempool`; when that is empty
it takes chunks from its l-list, and fills the l-list with a batch of the public pool when that
is empty too.  A chunk of the public pool goes back to the s-list of the core that frees it, and
the s-list goes back to the public pool when it is as long as a batch.  The two lists of all cores
are linked through the same field of the chunks.

`rte_mempool` itself is not in this repository; `RteMempool` is what the code relies on.
`chunks_conserved` says that every chunk is always in exactly one place.
-/
import QStack.Lib.LinkedQueue
import QStack.Lib.Run
import Mathlib.Data.List.Nodup

namespace QStack

set_option autoImplicit false

/-- `rte_mempool`: a finite set of objects, kept in an order of its own. -/
structure RteMempool (α : Type) where
  get : List α → Option (α × List α)
  getBulk : Nat → List α → Option (List α × List α)
  put : List α → α → List α
  putBulk : List α → List α → List α
  get_some : ∀ {pool x rest}, get pool = some (x, rest) → pool.Perm (x :: rest)
  getBulk_some : ∀ {n pool xs rest}, getBulk n pool = some (xs, rest) →
    xs.length = n ∧ pool.Perm (xs ++ rest)
  put_perm : ∀ pool x, (put pool x).Perm (x :: pool)
  putBulk_perm : ∀ pool xs, (putBulk pool xs).Perm (xs ++ pool)

/-- A pool that hands out what was put last. -/
def RteMempool.stack {α : Type} : RteMempool α where
  get := fun pool => pool.head?.map fun x => (x, pool.tail)
  getBulk := fun n pool => if n ≤ pool.length then some (pool.take n, pool.drop n) else none
  put := fun pool x => x :: pool
  putBulk := fun pool xs => xs ++ pool
  get_some := by
    intro pool x rest taken
    cases pool with
    | nil => exact nomatch taken
    | cons y ys =>
        obtain ⟨rfl, rfl⟩ := Prod.mk.inj (Option.some.inj taken)
        exact List.Perm.refl _
  getBulk_some := by
    intro n pool xs rest taken
    split_ifs at taken with enough
    obtain ⟨rfl, rfl⟩ := Prod.mk.inj (Option.some.inj taken)
    refine ⟨List.length_take_of_le enough, ?_⟩
    rw [List.take_append_drop]
  put_perm := fun _ _ => List.Perm.refl _
  putBulk_perm := fun _ _ => List.Perm.refl _

/-- The pool a chunk was made for (`none` is the public one) and its number there. -/
structure Chunk (k : Nat) where
  pool : Option (Fin k)
  id : Nat
deriving DecidableEq, Repr

/-- `l_hpkt`, `l_pkt`, `l_len` and `s_hpkt`, `s_pkt`, `s_len` of every core. -/
inductive ListId (k : Nat) where
  | l (core : Fin k)
  | s (core : Fin k)
deriving DecidableEq, Repr

structure ChunkPool (k : Nat) where
  /-- `chunk_head.next`, and the lists -/
  links : Lib.LinkedQueue.Mem (ListId k) (Chunk k)
  /-- `mempool_p` -/
  priv : Fin k → List (Chunk k)
  /-- `mempool_s` -/
  pub : List (Chunk k)
  /-- an assertion has failed, or a null pointer was followed -/
  failed : Bool := false
  /-- history: the chunks that were handed out and not freed yet -/
  used : List (Chunk k) := []

namespace ChunkPool

variable {k : Nat}

def allocNum : Nat := 1024
def testArr : Nat := 1024

/-- `mempool_create` -/
def create (pPoolSize sPoolSize : Nat) : ChunkPool k :=
  { links := { next := fun _ => none, queue := fun _ => {} }
    priv := fun core => (List.range pPoolSize).map fun i => ⟨some core, i⟩
    pub := (List.range sPoolSize).map fun i => ⟨none, i⟩ }

def fail (p : ChunkPool k) : ChunkPool k := { p with failed := true }

variable (rte : RteMempool (Chunk k))

/-- `chunk_alloc_notype` with type 1: the private pool, then the l-list. -/
def allocPrivate (core : Fin k) (p : ChunkPool k) : Option (Chunk k) × ChunkPool k :=
  match rte.get (p.priv core) with
  | some (targ, rest) => (some targ, { p with priv := Function.update p.priv core rest })
  | none =>
      match (p.links.queue (.l core)).head with
      | none => (none, p)
      | some targ => (some targ, { p with links := p.links.pop (.l core) targ })

/-- The loop over a batch: the last chunk is returned, the others go to the l-list. -/
def fill (core : Fin k) : List (Chunk k) → ChunkPool k → Option (Chunk k) × ChunkPool k
  | [], p => (none, p)
  | [targ], p => (some targ, p)
  | targ :: next :: rest, p =>
      match p.links.push (.l core) targ with
      | some links => fill core (next :: rest) { p with links := links }
      | none => (none, p.fail)

/-- `chunk_alloc_notype` with another type: a batch of the public pool. -/
def allocPublic (core : Fin k) (p : ChunkPool k) : Option (Chunk k) × ChunkPool k :=
  match rte.getBulk allocNum p.pub with
  | none => (none, p)
  | some (objs, rest) => fill core objs { p with pub := rest }

def mempoolAllocChunk (core : Fin k) (p : ChunkPool k) : Option (Chunk k) × ChunkPool k :=
  match p.allocPrivate rte core with
  | (some targ, p) => (some targ, p)
  | (none, p) => p.allocPublic rte core

/-- The append to the s-list; it clears the link of the new chunk before it links it. -/
def sAppend (core : Fin k) (targ : Chunk k) (m : Lib.LinkedQueue.Mem (ListId k) (Chunk k)) :
    Option (Lib.LinkedQueue.Mem (ListId k) (Chunk k)) :=
  let q := m.queue (.s core)
  if q.len = 0 then
    some { next := Function.update m.next targ none
           queue := Function.update m.queue (.s core)
             { head := some targ, tail := some targ, len := 1 } }
  else
    q.tail.map fun point =>
      { next := Function.update (Function.update m.next targ none) point (some targ)
        queue := Function.update m.queue (.s core) { q with tail := some targ, len := q.len + 1 } }

/-- The s-list goes back as a batch; `assert(point->pool == targ->pool)` for every chunk. -/
def flush (core : Fin k) (targ : Chunk k) (p : ChunkPool k) : ChunkPool k :=
  let array := Lib.LinkedQueue.walk p.links.next testArr (p.links.queue (.s core)).head
  if array.length = testArr ∧ ∀ point ∈ array, point.pool = targ.pool then
    { p with pub := rte.putBulk p.pub array, links := p.links.reset (.s core) }
  else p.fail

/-- `chunk_free_notype` -/
def mempoolFreeChunk (core : Fin k) (targ : Chunk k) (p : ChunkPool k) : ChunkPool k :=
  match targ.pool with
  | none =>
      match sAppend core targ p.links with
      | none => p.fail
      | some links =>
          if (p.links.queue (.s core)).len ≠ 0 ∧ (links.queue (.s core)).len = testArr then
            flush rte core targ { p with links := links }
          else { p with links := links }
  | some owner => { p with priv := Function.update p.priv owner (rte.put (p.priv owner) targ) }

/-! ## Runs -/

inductive Call (k : Nat) where
  | alloc (core : Fin k)
  /-- whoever holds the chunk frees it, on any core -/
  | free (core : Fin k) (chunk : Chunk k)
deriving DecidableEq, Repr

def step (p : ChunkPool k) : Call k → ChunkPool k
  | .alloc core =>
      match p.mempoolAllocChunk rte core with
      | (some targ, p') => { p' with used := targ :: p'.used }
      | (none, p') => p'
  | .free core chunk =>
      if chunk ∈ p.used then
        { p.mempoolFreeChunk rte core chunk with used := p.used.erase chunk }
      else p

/-! ## Where the chunks are -/

inductive Place (k : Nat) where
  | used
  | priv (core : Fin k)
  | pub
  | list (id : ListId k)
deriving DecidableEq, Repr

/-- The chunks `mempool_create` makes. -/
def Exists (pPoolSize sPoolSize : Nat) (c : Chunk k) : Prop :=
  c.id < if c.pool = none then sPoolSize else pPoolSize

/-- Where a chunk may be: the pools and lists keep private and public chunks apart. -/
def Fits (c : Chunk k) : Place k → Prop
  | .used => True
  | .priv core => c.pool = some core
  | .pub | .list _ => c.pool = none

/-- Every chunk is in one place, once, and nothing else is there. -/
structure Stored (pPoolSize sPoolSize : Nat) (held : Place k → List (Chunk k)) : Prop where
  apart : Lib.Apart held
  all : ∀ c, (∃ place, c ∈ held place) ↔ Exists pPoolSize sPoolSize c
  fits : ∀ place, ∀ c ∈ held place, Fits c place

/-- The places, given what is on the lists. -/
def places (p : ChunkPool k) (lists : ListId k → List (Chunk k)) : Place k → List (Chunk k)
  | .used => p.used
  | .priv core => p.priv core
  | .pub => p.pub
  | .list id => lists id

structure Holding (pPoolSize sPoolSize : Nat) (p : ChunkPool k)
    (lists : ListId k → List (Chunk k)) : Prop where
  /-- the pointers and the recorded lengths are those of the lists -/
  links : Lib.LinkedQueue.Holds p.links lists
  stored : Stored pPoolSize sPoolSize (p.places lists)
  sound : p.failed = false

def Conserved (pPoolSize sPoolSize : Nat) (p : ChunkPool k) : Prop :=
  ∃ lists, Holding pPoolSize sPoolSize p lists

/-- A batch changes its place. -/
theorem Stored.move {pPoolSize sPoolSize : Nat} {held : Place k → List (Chunk k)}
    (stored : Stored pPoolSize sPoolSize held) (a b : Place k) (moved left arrived : List (Chunk k))
    (other : a ≠ b) (leaves : (held a).Perm (moved ++ left))
    (arrives : arrived.Perm (moved ++ held b)) (fit : ∀ c ∈ moved, Fits c b) :
    Stored pPoolSize sPoolSize (Function.update (Function.update held a left) b arrived) where
  apart := stored.apart.move other leaves arrives
  all := fun c => (Lib.Apart.move_mem other leaves arrives).trans (stored.all c)
  fits := by
    intro place c within
    by_cases here : place = b
    · subst here
      rw [Function.update_self, arrives.mem_iff, List.mem_append] at within
      exact within.elim (fit c) (stored.fits place c)
    · rw [Function.update_of_ne here] at within
      by_cases there : place = a
      · subst there
        rw [Function.update_self] at within
        exact stored.fits place c (leaves.mem_iff.mpr (List.mem_append_right _ within))
      · rw [Function.update_of_ne there] at within
        exact stored.fits place c within

section Places

variable (p : ChunkPool k) (lists : ListId k → List (Chunk k)) (xs : List (Chunk k))

theorem places_used : { p with used := xs }.places lists =
    Function.update (p.places lists) .used xs := by
  funext place
  cases place <;> simp [places, Function.update]

theorem places_pub : { p with pub := xs }.places lists =
    Function.update (p.places lists) .pub xs := by
  funext place
  cases place <;> simp [places, Function.update]

theorem places_priv (core : Fin k) : { p with priv := Function.update p.priv core xs }.places lists =
    Function.update (p.places lists) (.priv core) xs := by
  funext place
  cases place <;> simp [places, Function.update]

theorem places_list (id : ListId k) : p.places (Function.update lists id xs) =
    Function.update (p.places lists) (.list id) xs := by
  funext place
  cases place <;> simp [places, Function.update]

theorem places_links (links : Lib.LinkedQueue.Mem (ListId k) (Chunk k)) :
    { p with links := links }.places lists = p.places lists := by
  funext place
  cases place <;> rfl

theorem places_handed (links : Lib.LinkedQueue.Mem (ListId k) (Chunk k)) (id : ListId k)
    (used : List (Chunk k)) :
    { p with links := links, used := used }.places (Function.update lists id xs) =
      Function.update (Function.update (p.places lists) (.list id) xs) .used used := by
  funext place
  cases place <;> simp [places, Function.update]

end Places

section Conservation

variable {pPoolSize sPoolSize : Nat} {p : ChunkPool k} {lists : ListId k → List (Chunk k)}

theorem create_holding (pPoolSize sPoolSize : Nat) :
    Holding pPoolSize sPoolSize (create pPoolSize sPoolSize : ChunkPool k) fun _ => [] := by
  refine ⟨?_, ?_, rfl⟩
  · exact ⟨fun _ => rfl, fun _ some_ => absurd rfl some_, fun _ => rfl, .empty⟩
  · have ranged : ∀ (pool : Option (Fin k)) (n : Nat),
        ((List.range n).map fun i => (⟨pool, i⟩ : Chunk k)).Nodup := by
      intro pool n
      refine List.Nodup.map ?_ List.nodup_range
      intro i j same
      exact congrArg Chunk.id same
    have mem : ∀ (pool : Option (Fin k)) (n : Nat) (c : Chunk k),
        (c ∈ (List.range n).map fun i => (⟨pool, i⟩ : Chunk k)) ↔ c.pool = pool ∧ c.id < n := by
      rintro pool n ⟨pool', i⟩
      simp [and_comm, eq_comm]
    have fits : ∀ place, ∀ c ∈ (create pPoolSize sPoolSize : ChunkPool k).places (fun _ => []) place,
        (place = .pub ∧ c.pool = none ∧ c.id < sPoolSize) ∨
          ∃ core, place = .priv core ∧ c.pool = some core ∧ c.id < pPoolSize := by
      intro place c within
      cases place with
      | used => exact absurd within List.not_mem_nil
      | priv core => exact .inr ⟨core, rfl, (mem _ _ c).mp within⟩
      | pub => exact .inl ⟨rfl, (mem _ _ c).mp within⟩
      | list id => exact absurd within List.not_mem_nil
    constructor
    · constructor
      · intro place
        cases place with
        | used => exact List.nodup_nil
        | priv core => exact ranged _ _
        | pub => exact ranged _ _
        | list id => exact List.nodup_nil
      · intro place place' c within within'
        rcases fits place c within with ⟨rfl, pool, -⟩ | ⟨core, rfl, pool, -⟩ <;>
          rcases fits place' c within' with ⟨rfl, pool', -⟩ | ⟨core', rfl, pool', -⟩
        · rfl
        · exact nomatch pool.symm.trans pool'
        · exact nomatch pool.symm.trans pool'
        · rw [Option.some.inj (pool.symm.trans pool')]
    · intro c
      constructor
      · rintro ⟨place, within⟩
        rcases fits place c within with ⟨-, pool, bound⟩ | ⟨core, -, pool, bound⟩
        · simpa [Exists, pool] using bound
        · simpa [Exists, pool] using bound
      · intro there
        cases pool : c.pool with
        | none => exact ⟨.pub, (mem _ _ c).mpr ⟨pool, by simpa [Exists, pool] using there⟩⟩
        | some core =>
            exact ⟨.priv core, (mem _ _ c).mpr ⟨pool, by simpa [Exists, pool] using there⟩⟩
    · intro place c within
      rcases fits place c within with ⟨rfl, pool, -⟩ | ⟨core, rfl, pool, -⟩
      · exact pool
      · exact pool

theorem sAppend_eq {core : Fin k} {targ : Chunk k}
    {m : Lib.LinkedQueue.Mem (ListId k) (Chunk k)}
    (other : (m.queue (.s core)).len ≠ 0 → (m.queue (.s core)).tail ≠ some targ) :
    sAppend core targ m = m.push (.s core) targ := by
  unfold sAppend Lib.LinkedQueue.Mem.push
  dsimp only
  split_ifs with empty
  · rfl
  · cases tail : (m.queue (.s core)).tail with
    | none => rfl
    | some point =>
        have away : targ ≠ point := by
          rintro rfl
          exact other empty tail
        rw [Option.map_some, Option.map_some, Function.update_comm away]

/-- The batch loop: what is not returned is on the l-list. -/
theorem fill_spec (core : Fin k) (last : Chunk k) :
    ∀ (objs : List (Chunk k)) {lists : ListId k → List (Chunk k)} (p : ChunkPool k),
      Lib.LinkedQueue.Holds p.links lists → objs.Nodup → (∀ c ∈ objs, ∀ id, c ∉ lists id) →
      ∃ links, fill core (objs ++ [last]) p = (some last, { p with links := links }) ∧
        Lib.LinkedQueue.Holds links
          (Function.update lists (.l core) (lists (.l core) ++ objs))
  | [], lists, p, holds, _, _ => by
      refine ⟨p.links, rfl, ?_⟩
      rw [List.append_nil, Function.update_eq_self]
      exact holds
  | c :: objs, lists, p, holds, nodup, fresh => by
      obtain ⟨outside, nodup⟩ := List.nodup_cons.mp nodup
      obtain ⟨links, pushed, holds'⟩ := holds.push (fresh c List.mem_cons_self) (.l core)
      have unfolded : fill core (c :: objs ++ [last]) p =
          fill core (objs ++ [last]) { p with links := links } := by
        cases objs <;> simp [fill, pushed]
      have fresh' : ∀ c' ∈ objs, ∀ id,
          c' ∉ Function.update lists (.l core) (lists (.l core) ++ [c]) id := by
        intro c' within id there
        rcases Lib.Apart.mem_enter (List.perm_append_singleton _ _) there with before | ⟨same, -⟩
        · exact fresh c' (List.mem_cons_of_mem _ within) id before
        · exact outside (same ▸ within)
      obtain ⟨links', filled, holds''⟩ := fill_spec core last objs { p with links := links } holds' nodup fresh'
      refine ⟨links', unfolded.trans filled, ?_⟩
      rw [Function.update_self, Function.update_idem, List.append_assoc] at holds''
      exact holds''

/-- The chunk is handed out, and nobody had it. -/
def HandsOut (pPoolSize sPoolSize : Nat) (p : ChunkPool k) (targ : Chunk k) (p' : ChunkPool k) :
    Prop :=
  targ ∉ p.used ∧ Conserved pPoolSize sPoolSize { p' with used := targ :: p'.used }

theorem Stored.elsewhere {held : Place k → List (Chunk k)} (stored : Stored pPoolSize sPoolSize held)
    (a b : Place k) (other : a ≠ b) {c : Chunk k} (within : c ∈ held a) : c ∉ held b :=
  fun there => other (stored.apart.apart a b c within there)

theorem Holding.fromPrivate (holding : Holding pPoolSize sPoolSize p lists) {core : Fin k}
    {targ : Chunk k} {rest : List (Chunk k)} (taken : rte.get (p.priv core) = some (targ, rest)) :
    HandsOut pPoolSize sPoolSize p targ { p with priv := Function.update p.priv core rest } := by
  have perm := rte.get_some taken
  have within : targ ∈ p.places lists (.priv core) := perm.mem_iff.mpr List.mem_cons_self
  refine ⟨holding.stored.elsewhere (.priv core) .used nofun within, lists, holding.links, ?_, holding.sound⟩
  rw [places_used, places_priv]
  exact holding.stored.move _ _ [targ] _ _ nofun perm (List.Perm.refl _) fun _ _ => trivial

theorem Holding.fromList (holding : Holding pPoolSize sPoolSize p lists) {core : Fin k}
    {targ : Chunk k} {rest : List (Chunk k)} (split : lists (.l core) = targ :: rest) :
    targ ∉ p.used ∧
      Holding pPoolSize sPoolSize
        { p with links := p.links.pop (.l core) targ, used := targ :: p.used }
        (Function.update lists (.l core) rest) := by
  have perm : (p.places lists (.list (.l core))).Perm (targ :: rest) := by
    change (lists (.l core)).Perm (targ :: rest)
    rw [split]
  have within : targ ∈ p.places lists (.list (.l core)) := perm.mem_iff.mpr List.mem_cons_self
  refine ⟨holding.stored.elsewhere (.list (.l core)) .used nofun within,
    holding.links.pop split, ?_, holding.sound⟩
  rw [places_handed]
  exact holding.stored.move _ _ [targ] _ _ nofun perm (List.Perm.refl _) fun _ _ => trivial

theorem Holding.fromPublic (holding : Holding pPoolSize sPoolSize p lists) (core : Fin k)
    {objs rest : List (Chunk k)} (taken : rte.getBulk allocNum p.pub = some (objs, rest)) :
    ∃ before targ links, objs = before ++ [targ] ∧
      fill core objs { p with pub := rest } = (some targ, { p with pub := rest, links := links }) ∧
      targ ∉ p.used ∧
      Holding pPoolSize sPoolSize
        { p with pub := rest, links := links, used := targ :: p.used }
        (Function.update lists (.l core) (lists (.l core) ++ before)) := by
  obtain ⟨length, perm⟩ := rte.getBulk_some taken
  have some_ : objs ≠ [] := by
    rintro rfl
    exact nomatch length
  obtain ⟨before, targ, rfl⟩ : ∃ before targ, objs = before ++ [targ] :=
    ⟨_, _, (List.dropLast_append_getLast some_).symm⟩
  have nodup : (before ++ [targ]).Nodup :=
    (List.nodup_append.mp (perm.nodup_iff.mp (holding.stored.apart.nodup .pub))).1
  have within : ∀ c ∈ before ++ [targ], c ∈ p.places lists .pub := fun c inside =>
    perm.mem_iff.mpr (List.mem_append_left _ inside)
  obtain ⟨links, filled, holds⟩ := fill_spec core targ before { p with pub := rest } holding.links
    (List.nodup_append.mp nodup).1 fun c inside id there =>
      holding.stored.elsewhere .pub (.list id) nofun (within c (List.mem_append_left _ inside)) there
  refine ⟨before, targ, links, rfl, filled, ?_, holds, ?_, holding.sound⟩
  · exact holding.stored.elsewhere .pub .used nofun (within targ (by simp))
  · -- first the batch without its last chunk, then the last one
    have batch := holding.stored.move .pub (.list (.l core)) before (targ :: rest)
      (lists (.l core) ++ before) nofun (by rw [List.append_assoc] at perm; exact perm)
      List.perm_append_comm fun c inside =>
        holding.stored.fits .pub c (within c (List.mem_append_left _ inside))
    have handed := batch.move .pub .used [targ] rest (targ :: p.used) nofun (List.Perm.refl _)
      (List.Perm.refl _) fun _ _ => trivial
    have same : Function.update (Function.update (Function.update (Function.update
        (p.places lists) .pub (targ :: rest)) (.list (.l core)) (lists (.l core) ++ before)) .pub rest)
          .used (targ :: p.used) =
        Function.update (Function.update (Function.update (p.places lists) .pub rest)
          (.list (.l core)) (lists (.l core) ++ before)) .used (targ :: p.used) := by
      have other : Place.pub ≠ .list (.l core) := nofun
      rw [Function.update_comm other, Function.update_idem, Function.update_comm other]
    rw [same, ← places_pub, ← places_handed] at handed
    exact handed

theorem Conserved.alloc (conserved : p.Conserved pPoolSize sPoolSize) (core : Fin k) :
    (∀ targ p', p.mempoolAllocChunk rte core = (some targ, p') →
      HandsOut pPoolSize sPoolSize p targ p') ∧
    (∀ p', p.mempoolAllocChunk rte core = (none, p') → p'.Conserved pPoolSize sPoolSize) := by
  obtain ⟨lists, holding⟩ := conserved
  unfold mempoolAllocChunk allocPrivate
  cases got : rte.get (p.priv core) with
  | some pair =>
      refine ⟨?_, nofun⟩
      rintro targ p' ⟨⟩
      exact holding.fromPrivate rte got
  | none =>
      cases first : (p.links.queue (.l core)).head with
      | some targ =>
          refine ⟨?_, nofun⟩
          rintro targ p' ⟨⟩
          rw [holding.links.head_eq] at first
          obtain ⟨rest, split⟩ := List.head?_eq_some_iff.mp first
          obtain ⟨unused, next⟩ := holding.fromList split
          exact ⟨unused, _, next⟩
      | none =>
          dsimp only
          unfold allocPublic
          cases bulk : rte.getBulk allocNum p.pub with
          | none =>
              refine ⟨nofun, ?_⟩
              rintro p' ⟨⟩
              exact ⟨lists, holding⟩
          | some pair =>
              obtain ⟨before, targ, links, -, filled, unused, next⟩ :=
                holding.fromPublic rte core bulk
              dsimp only
              rw [filled]
              refine ⟨?_, nofun⟩
              rintro targ p' ⟨⟩
              exact ⟨unused, _, next⟩

/-- What `mempool_free_chunk` does with a chunk of the public pool: it goes to the s-list, and a
full s-list to the pool. -/
theorem Holding.freeShared (holding : Holding pPoolSize sPoolSize p lists) {targ : Chunk k}
    (within : targ ∈ p.used) (shared : targ.pool = none) (core : Fin k) :
    ∃ links, Lib.LinkedQueue.Holds links
        (Function.update lists (.s core) (lists (.s core) ++ [targ])) ∧
      p.mempoolFreeChunk rte core targ =
        if (lists (.s core)).length + 1 = testArr then
          { p with pub := rte.putBulk p.pub (lists (.s core) ++ [targ])
                   links := links.reset (.s core) }
        else { p with links := links } := by
  have fresh : ∀ id, targ ∉ lists id := fun id =>
    holding.stored.elsewhere .used (.list id) nofun within
  obtain ⟨links, pushed, holds⟩ := holding.links.push fresh (.s core)
  have apart : (p.links.queue (.s core)).len ≠ 0 → (p.links.queue (.s core)).tail ≠ some targ := by
    intro some_ last
    have tail := holding.links.tail (.s core) (by
      intro nil
      rw [holding.links.len, nil] at some_
      exact some_ rfl)
    exact fresh (.s core) (List.mem_of_getLast? (tail.symm.trans last))
  have chain := holds.chain (.s core)
  have len := holds.len (.s core)
  rw [Function.update_self] at chain len
  have before := holding.links.len (.s core)
  refine ⟨links, holds, ?_⟩
  unfold mempoolFreeChunk
  rw [shared]
  dsimp only
  rw [sAppend_eq apart, pushed]
  dsimp only
  rw [List.length_append, List.length_singleton] at len
  have full : ((p.links.queue (.s core)).len ≠ 0 ∧ (links.queue (.s core)).len = testArr) ↔
      (lists (.s core)).length + 1 = testArr := by
    have size : testArr = 1024 := rfl
    omega
  by_cases whole : (lists (.s core)).length + 1 = testArr
  · rw [if_pos (full.mpr whole), if_pos whole]
    have array : Lib.LinkedQueue.walk links.next testArr (links.queue (.s core)).head =
        lists (.s core) ++ [targ] := by
      rw [← whole, ← List.length_singleton (a := targ), ← List.length_append]
      exact chain.walk_eq
    have pools : ∀ point ∈ lists (.s core) ++ [targ], point.pool = targ.pool := by
      intro point inside
      rw [shared]
      rcases List.mem_append.mp inside with before | here
      · exact holding.stored.fits (.list (.s core)) point before
      · rw [List.mem_singleton.mp here]
        exact shared
    unfold flush
    dsimp only
    rw [array, if_pos ⟨by rw [List.length_append, List.length_singleton, whole], pools⟩]
  · rw [if_neg (fun is => whole (full.mp is)), if_neg whole]

/-- The chunk is on the s-list then, or the list in the pool. -/
theorem Holding.toList (holding : Holding pPoolSize sPoolSize p lists) {targ : Chunk k}
    (within : targ ∈ p.used) (shared : targ.pool = none) (core : Fin k) :
    Holding pPoolSize sPoolSize
      { p.mempoolFreeChunk rte core targ with used := p.used.erase targ }
      (Function.update lists (.s core)
        (if (lists (.s core)).length + 1 = testArr then [] else lists (.s core) ++ [targ])) := by
  obtain ⟨links, holds, freed⟩ := holding.freeShared rte within shared core
  have stored := holding.stored.move .used (.list (.s core)) [targ] (p.used.erase targ)
    (lists (.s core) ++ [targ]) nofun (List.perm_cons_erase within) List.perm_append_comm (by
      intro c inside
      rw [List.mem_singleton.mp inside]
      exact shared)
  have other : Place.used ≠ .list (.s core) := nofun
  rw [Function.update_comm other] at stored
  rw [freed]
  by_cases whole : (lists (.s core)).length + 1 = testArr
  · rw [if_pos whole, if_pos whole]
    have reset := holds.reset (.s core)
    rw [Function.update_idem] at reset
    refine ⟨reset, ?_, holding.sound⟩
    have emptied := stored.move (.list (.s core)) .pub (lists (.s core) ++ [targ]) []
      (rte.putBulk p.pub (lists (.s core) ++ [targ])) nofun (by
        rw [Function.update_of_ne other.symm, Function.update_self, List.append_nil])
      (rte.putBulk_perm _ _) (fun c inside => by
        rcases List.mem_append.mp inside with before | here
        · exact holding.stored.fits (.list (.s core)) c before
        · rw [List.mem_singleton.mp here]
          exact shared)
    have same : Function.update (Function.update (Function.update (Function.update (p.places lists)
        (.list (.s core)) (lists (.s core) ++ [targ])) .used (p.used.erase targ)) (.list (.s core)) [])
          .pub (rte.putBulk p.pub (lists (.s core) ++ [targ])) =
        Function.update (Function.update (Function.update (p.places lists) .pub
          (rte.putBulk p.pub (lists (.s core) ++ [targ]))) (.list (.s core)) [])
            .used (p.used.erase targ) := by
      have list_pub : Place.list (.s core) ≠ .pub := nofun
      have used_pub : (Place.used : Place k) ≠ .pub := nofun
      rw [Function.update_comm other.symm, Function.update_idem, Function.update_comm list_pub,
        Function.update_comm used_pub, Function.update_comm other]
    rw [same] at emptied
    rw [places_used, places_list]
    have pub := places_pub { p with links := links.reset (.s core) } lists
      (rte.putBulk p.pub (lists (.s core) ++ [targ]))
    rw [places_links] at pub
    rw [pub]
    exact emptied
  · rw [if_neg whole, if_neg whole]
    refine ⟨holds, ?_, holding.sound⟩
    rw [places_used, places_links, places_list]
    exact stored

theorem Conserved.free (conserved : p.Conserved pPoolSize sPoolSize) {targ : Chunk k}
    (within : targ ∈ p.used) (core : Fin k) :
    Conserved pPoolSize sPoolSize
      { p.mempoolFreeChunk rte core targ with used := p.used.erase targ } := by
  obtain ⟨lists, holding⟩ := conserved
  cases pool : targ.pool with
  | none => exact ⟨_, holding.toList rte within pool core⟩
  | some owner =>
      have stored := holding.stored.move .used (.priv owner) [targ] (p.used.erase targ)
        (rte.put (p.priv owner) targ) nofun (List.perm_cons_erase within) (rte.put_perm _ _) (by
          intro c inside
          rw [List.mem_singleton.mp inside]
          exact pool)
      have other : Place.used ≠ .priv owner := nofun
      rw [Function.update_comm other] at stored
      unfold mempoolFreeChunk
      rw [pool]
      refine ⟨lists, holding.links, ?_, holding.sound⟩
      rw [places_used, places_priv]
      exact stored

theorem Conserved.step (conserved : p.Conserved pPoolSize sPoolSize) (call : Call k) :
    (p.step rte call).Conserved pPoolSize sPoolSize := by
  cases call with
  | alloc core =>
      obtain ⟨handed, refused⟩ := conserved.alloc rte core
      unfold ChunkPool.step
      dsimp only
      split
      · exact (handed _ _ ‹_›).2
      · exact refused _ ‹_›
  | free core chunk =>
      unfold ChunkPool.step
      dsimp only
      split_ifs with within
      · exact conserved.free rte within core
      · exact conserved

end Conservation

/-- What one call promises: an allocation hands out a chunk that is not in use. -/
def NotTwice (p : ChunkPool k) : Call k → Prop
  | .alloc core => ∀ targ, (p.mempoolAllocChunk rte core).1 = some targ → targ ∉ p.used
  | .free _ _ => True

/-- **Chunks are conserved**: after any sequence of allocations and frees by any cores every chunk
of `mempool_create` is in exactly one place, the lists are as long as recorded, and no chunk is
handed out that is in use. -/
theorem chunks_conserved (pPoolSize sPoolSize : Nat) (calls : List (Call k)) :
    Lib.Run.Along (step rte) (Conserved pPoolSize sPoolSize) (create pPoolSize sPoolSize) calls ∧
      Lib.Run.Each (step rte) (fun p call _ => p.NotTwice rte call) (create pPoolSize sPoolSize)
        calls := by
  have start : (create pPoolSize sPoolSize : ChunkPool k).Conserved pPoolSize sPoolSize :=
    ⟨_, create_holding pPoolSize sPoolSize⟩
  constructor
  · exact Lib.Run.along_of_step (fun _ call conserved _ => conserved.step rte call) calls _ start
      (Lib.Run.allowed_always calls _)
  · refine Lib.Run.each_of_step (P := Conserved pPoolSize sPoolSize) ?_ calls _ start
      (Lib.Run.allowed_always calls _)
    intro p call conserved _
    refine ⟨conserved.step rte call, ?_⟩
    cases call with
    | alloc core =>
        intro targ handed
        exact ((conserved.alloc rte core).1 targ _ (Prod.ext handed rfl)).1
    | free => trivial

/-! ### A batch goes round -/

section Batch

variable {pPoolSize sPoolSize : Nat} {p : ChunkPool k} {lists : ListId k → List (Chunk k)}

theorem step_alloc {core : Fin k} {targ : Chunk k} {p' : ChunkPool k}
    (handed : p.mempoolAllocChunk rte core = (some targ, p')) :
    p.step rte (.alloc core) = { p' with used := targ :: p'.used } := by
  unfold step
  dsimp only
  rw [handed]

/-- With the private pool and the l-list empty a batch leaves the public pool. -/
theorem Holding.alloc_batch (holding : Holding pPoolSize sPoolSize p lists) (core : Fin k)
    (private_ : rte.get (p.priv core) = none) (list : lists (.l core) = [])
    {objs rest : List (Chunk k)} (taken : rte.getBulk allocNum p.pub = some (objs, rest)) :
    ∃ before targ, objs = before ++ [targ] ∧
      Holding pPoolSize sPoolSize (p.step rte (.alloc core))
        (Function.update lists (.l core) before) ∧
      (p.step rte (.alloc core)).used = targ :: p.used ∧
      (p.step rte (.alloc core)).pub = rest ∧ (p.step rte (.alloc core)).priv = p.priv := by
  obtain ⟨before, targ, links, split, filled, -, next⟩ := holding.fromPublic rte core taken
  have none : (p.links.queue (.l core)).head = none := by rw [holding.links.head_eq, list]; rfl
  have handed : p.mempoolAllocChunk rte core =
      (some targ, { p with pub := rest, links := links }) := by
    unfold mempoolAllocChunk allocPrivate
    rw [private_]
    dsimp only
    rw [none]
    dsimp only
    rw [allocPublic, taken]
    exact filled
  rw [list, List.nil_append] at next
  rw [step_alloc rte handed]
  exact ⟨before, targ, split, next, rfl, rfl, rfl⟩

/-- Then the l-list is handed out from its head. -/
theorem Holding.alloc_list {core : Fin k} : ∀ (xs : List (Chunk k)) {p : ChunkPool k}
    {lists : ListId k → List (Chunk k)}, Holding pPoolSize sPoolSize p lists →
    rte.get (p.priv core) = none → lists (.l core) = xs →
    Holding pPoolSize sPoolSize
        (Lib.Run.run (step rte) p (List.replicate xs.length (.alloc core)))
        (Function.update lists (.l core) []) ∧
      (Lib.Run.run (step rte) p (List.replicate xs.length (.alloc core))).used =
        xs.reverse ++ p.used ∧
      (Lib.Run.run (step rte) p (List.replicate xs.length (.alloc core))).pub = p.pub := by
  intro xs
  induction xs with
  | nil =>
      intro p lists holding _ list
      have same : Function.update lists (.l core) [] = lists := by
        rw [← list, Function.update_eq_self]
      rw [same]
      exact ⟨holding, rfl, rfl⟩
  | cons targ rest ih =>
      intro p lists holding private_ list
      have first : (p.links.queue (.l core)).head = some targ := by
        rw [holding.links.head_eq, list]
        rfl
      have handed : p.mempoolAllocChunk rte core =
          (some targ, { p with links := p.links.pop (.l core) targ }) := by
        unfold mempoolAllocChunk allocPrivate
        rw [private_]
        dsimp only
        rw [first]
      have next := (holding.fromList list).2
      obtain ⟨after, used, pub⟩ := ih next private_ (Function.update_self ..)
      rw [Function.update_idem] at after
      rw [List.length_cons, List.replicate_succ, Lib.Run.run, step_alloc rte handed]
      refine ⟨after, used.trans ?_, pub⟩
      rw [List.reverse_cons, List.append_assoc]
      rfl

/-- The free that makes the s-list as long as a batch puts the whole list back. -/
theorem Holding.free_batch (core : Fin k) : ∀ (ys : List (Chunk k)) {p : ChunkPool k}
    {lists : ListId k → List (Chunk k)}, Holding pPoolSize sPoolSize p lists → ys ≠ [] →
    ys.Nodup → (∀ c ∈ ys, c ∈ p.used ∧ c.pool = none) →
    (lists (.s core)).length + ys.length = testArr →
    (Lib.Run.run (step rte) p (ys.map (.free core))).pub =
      rte.putBulk p.pub (lists (.s core) ++ ys) := by
  intro ys
  induction ys with
  | nil => exact fun _ some_ => absurd rfl some_
  | cons c ys ih =>
      intro p lists holding _ nodup free whole
      obtain ⟨within, shared⟩ := free c List.mem_cons_self
      obtain ⟨outside, nodup⟩ := List.nodup_cons.mp nodup
      obtain ⟨links, -, freed⟩ := holding.freeShared rte within shared core
      have next := holding.toList rte within shared core
      have stepped : p.step rte (.free core c) =
          { p.mempoolFreeChunk rte core c with used := p.used.erase c } := if_pos within
      rw [List.length_cons] at whole
      rw [List.map_cons, Lib.Run.run, stepped]
      cases ys with
      | nil =>
          rw [if_pos (by simpa using whole)] at freed
          rw [freed]
          rfl
      | cons c' ys =>
          have short : (lists (.s core)).length + 1 ≠ testArr := by
            rw [List.length_cons] at whole
            omega
          rw [if_neg short] at freed next
          have rest := ih next (List.cons_ne_nil c' ys) nodup (fun d inside => ?_) ?_
          · rw [rest, Function.update_self, List.append_assoc, freed]
            rfl
          · obtain ⟨used, pool⟩ := free d (List.mem_cons_of_mem c inside)
            have other : d ≠ c := ne_of_mem_of_not_mem inside outside
            exact ⟨(List.mem_erase_of_ne other).mpr used, pool⟩
          · rw [Function.update_self, List.length_append, List.length_singleton]
            omega

end Batch

/-- The public pool that is made. -/
def batch : List (Chunk 2) := (List.range 1024).map fun i => ⟨none, i⟩

/-- One core takes all the chunks there are, the other frees them. -/
def takes : List (Call 2) := List.replicate 1024 (.alloc 0)

def goesRound : List (Call 2) := takes ++ batch.map (.free 1)

theorem chunks_conserved_two :
    Lib.Run.Along (step .stack) (Conserved 0 1024) (create 0 1024) goesRound ∧
      (Lib.Run.run (step .stack) (create 0 1024) takes).pub = [] ∧
      (Lib.Run.run (step .stack) (create 0 1024) goesRound).pub = batch := by
  refine ⟨(chunks_conserved .stack 0 1024 goesRound).1, ?_⟩
  have taken : RteMempool.stack.getBulk allocNum (create 0 1024 : ChunkPool 2).pub =
      some (batch, []) := by
    simp [RteMempool.stack, create, allocNum, batch, List.take_of_length_le]
  obtain ⟨before, targ, split, next, used, pub, priv⟩ :=
    Holding.alloc_batch .stack (create_holding 0 1024) 0 rfl rfl taken
  have length : before.length = 1023 := by
    have whole := congrArg List.length split
    rw [List.length_append, List.length_singleton] at whole
    simpa [batch] using whole.symm
  obtain ⟨after, used', pub'⟩ := Holding.alloc_list .stack before next (by rw [priv]; rfl)
    (Function.update_self ..)
  have all : takes = .alloc 0 :: List.replicate before.length (.alloc 0) := by
    rw [length]
    rfl
  rw [goesRound, Lib.Run.run_append, all, Lib.Run.run]
  refine ⟨pub'.trans pub, ?_⟩
  have free : ∀ c ∈ batch, c ∈ (Lib.Run.run (step .stack) (step .stack (create 0 1024) (.alloc 0))
      (List.replicate before.length (.alloc 0))).used ∧ c.pool = none := by
    intro c inside
    constructor
    · rw [used', used]
      rw [split, List.mem_append, List.mem_singleton] at inside
      rcases inside with earlier | rfl
      · exact List.mem_append_left _ (List.mem_reverse.mpr earlier)
      · exact List.mem_append_right _ List.mem_cons_self
    · obtain ⟨i, -, rfl⟩ := List.mem_map.mp inside
      rfl
  have nodup : batch.Nodup :=
    List.Nodup.map (fun i j same => congrArg Chunk.id same) List.nodup_range
  have size : batch.length = testArr := by simp [batch, testArr]
  have back := Holding.free_batch .stack 1 batch after (by simp [batch]) nodup free
    (by simpa using size)
  rw [back, pub', pub]
  simp [RteMempool.stack]

end ChunkPool

end QStack
