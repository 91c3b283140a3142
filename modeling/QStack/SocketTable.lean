/-
# QStack.SocketTable -- the sockets and their free lists

`socket_table_init` deals the sockets out to the stacks, `MAX_SOCKET_NUM / stack_thread` to each,
and a public list gets `PUB_SOCKET_NUM` more.  `q_socket` and a passive open take one off a list,
and `tcp_stream_destroy` gives the socket of its stream back to the list of the stack it runs on.
`q_connect` only puts the socket on the queue of a stack; the stream is made when
`handle_connect_call` gets to it, so a second `q_connect` in between passes the check that the
socket has no stream.  Both calls are then served, and the socket has two streams that give it
back.  And when `stack_thread` does not divide `MAX_SOCKET_NUM`, the sockets that are left over
are on no list at all, nor are those of a fifth stack: there are `MAX_STACK_NUM` lists, and the
configuration does not check that `stack_thread` is no more.

The calls run one at a time, each as a whole.  `exit` is set where the program ends.

* `SockInv`: which lists a socket is on, and that a live stream has a socket of its own;
* `sockets_partitioned`: over every sequence of calls in which a connect call is served for a
  socket that is in use and has no stream, and a stream is destroyed while it lives;
* `socket_freed_twice`: the second stream of a socket is destroyed.
-/
import QStack.Lib.Run
import Mathlib.Data.List.Nodup
import Mathlib.Data.List.Range
import Mathlib.Logic.Function.Basic

namespace QStack

set_option autoImplicit false

/-- `enum socket_type` -/
inductive SockType where
  | unused
  | stream
  | listener
deriving DecidableEq, Repr

/-- The union of `stream` and `listener` in a socket. -/
inductive SockRef where
  | null
  | stream (chunk : Nat)
  | listener
deriving DecidableEq, Repr

/-- `struct socket` -/
structure Socket where
  socktype : SockType := .unused
  ref : SockRef := .null
  /-- `opts & SOCK_OPT_ADDR_BIND` -/
  addrBind : Bool := false
  /-- neither the port nor the address of `saddr` is the wildcard -/
  addrSet : Bool := false
deriving DecidableEq, Repr

/-- A chunk of `mp_stream`.  Its memory outlives the stream. -/
structure StreamChunk where
  live : Bool := false
  /-- `stream->socket` -/
  socket : Option Nat := none
deriving DecidableEq, Repr

/-- `MAX_STACK_NUM` -/
def maxStackNum : Nat := 4

/-- `free_socket[core]` and `free_socket_public` -/
inductive FreeList where
  | stack (core : Nat)
  | pub
deriving DecidableEq, Repr

/-- Where the program ends. -/
inductive SockExit where
  /-- `TRACE_TODO` -/
  | todo
  /-- `handle_passive_open` follows the `NULL` of `socket_alloc` -/
  | nullSocket
  /-- `tcp_stream_create` got no chunk -/
  | noStream
  /-- "The socket to be freed should not be UNUSED!" -/
  | unusedFreed
deriving DecidableEq, Repr

/-- `struct socket_table`, with the streams and the connect queues of the stacks. -/
structure Sockets where
  stackThread : Nat
  maxSocketNum : Nat
  pubSocketNum : Nat
  maxConcurrency : Nat
  sockets : Nat → Socket
  free : FreeList → List Nat
  /-- `free_num[core]` and `free_public_num` -/
  num : FreeList → Int
  streams : Nat → StreamChunk
  connectQueue : Nat → List Nat
  exit : Option SockExit

inductive SockCall where
  /-- `q_socket` of an application that `get_sock_pool_map` gives the pool `core` -/
  | qSocket (core : Nat)
  /-- `q_bind` to an address without (`addrSet`) or with a wildcard -/
  | qBind (sockid : Nat) (addrSet : Bool)
  /-- `q_listen`, and whether it goes as far as the new listener -/
  | qListen (sockid : Nat) (inserted : Bool)
  /-- `q_connect`, to a peer that RSS maps to the stack `core`; `room` in its queue -/
  | qConnect (sockid core : Nat) (room : Bool)
  /-- a SYN opens a connection; `chunk` is what `mempool_alloc_chunk` gives -/
  | passiveOpen (core : Nat) (chunk : Option Nat)
  /-- `handle_connect_call` for the first socket of the connect queue -/
  | connectCall (core : Nat) (chunk : Option Nat)
  /-- `tcp_stream_destroy` -/
  | destroy (core chunk : Nat)
deriving DecidableEq, Repr

/-- Where `free_socket[core]` lies.  What follows the array is `free_socket_public`, and
`free_public_num` follows `free_num`, so the entry `MAX_STACK_NUM` is the public list.  An entry
behind that would lie in the counters; here it is the public list as well, and what is proved about
the lists asks for `stack_thread ≤ MAX_STACK_NUM`. -/
def FreeList.ofCore (core : Nat) : FreeList := if core < maxStackNum then .stack core else .pub

namespace Sockets

/-! ## The calls -/

/-- `socket_table_init`.  The table is zeroed memory.  What a stack has put on the public list is
lost when that list is initialised after the others. -/
def socketTableInit (stackThread maxSocketNum pubSocketNum maxConcurrency : Nat) : Sockets :=
  let chunkNum := maxSocketNum / stackThread
  { stackThread := stackThread
    maxSocketNum := maxSocketNum
    pubSocketNum := pubSocketNum
    maxConcurrency := maxConcurrency
    sockets := fun _ => {}
    free := fun
      | .stack core =>
          if core < stackThread ∧ core < maxStackNum then List.range' (core * chunkNum) chunkNum
          else []
      | .pub => List.range' maxSocketNum pubSocketNum
    num := fun
      | .stack core => if core < stackThread ∧ core < maxStackNum then chunkNum else 0
      | .pub => pubSocketNum
    streams := fun _ => {}
    connectQueue := fun _ => []
    exit := none }

/-- The list that `socket_alloc` takes from. -/
def pool (s : Sockets) (core : Nat) : FreeList :=
  if s.stackThread ≤ core then .pub else .ofCore core

def setSocket (s : Sockets) (id : Nat) (socket : Socket) : Sockets :=
  { s with sockets := Function.update s.sockets id socket }

def socketAlloc (s : Sockets) (core : Nat) (socktype : SockType) : Option Nat × Sockets :=
  let l := s.pool core
  match s.free l with
  | [] => (none, s)
  | id :: rest =>
      (some id, { s with
        free := Function.update s.free l rest
        num := Function.update s.num l (s.num l - 1)
        sockets := Function.update s.sockets id { socktype := socktype } })

def socketFree (s : Sockets) (core id : Nat) : Sockets :=
  let l := FreeList.ofCore core
  if (s.sockets id).socktype = .unused then { s with exit := some .unusedFreed }
  else
    { s with
      sockets := Function.update s.sockets id
        { s.sockets id with socktype := .unused, ref := .null }
      free := Function.update s.free l (s.free l ++ [id])
      num := Function.update s.num l (s.num l + 1) }

/-- `tcp_stream_create` for the socket `id`. -/
def tcpStreamCreate (s : Sockets) (id : Nat) : Option Nat → Sockets
  | none => { s with exit := some .noStream }
  | some chunk =>
      { s.setSocket id { s.sockets id with ref := .stream chunk } with
        streams := Function.update s.streams chunk { live := true, socket := some id } }

def tcpStreamDestroy (s : Sockets) (core chunk : Nat) : Sockets :=
  let freed :=
    match (s.streams chunk).socket with
    | some id => s.socketFree core id
    | none => s
  { freed with
    streams := Function.update freed.streams chunk { freed.streams chunk with live := false } }

def qSocket (s : Sockets) (core : Nat) : Sockets := (s.socketAlloc core .stream).2

def qBind (s : Sockets) (sockid : Nat) (addrSet : Bool) : Sockets :=
  if sockid < s.maxConcurrency ∧ (s.sockets sockid).socktype ≠ .unused ∧
      (s.sockets sockid).addrBind = false then
    s.setSocket sockid { s.sockets sockid with addrBind := true, addrSet := addrSet }
  else s

def qListen (s : Sockets) (sockid : Nat) (inserted : Bool) : Sockets :=
  if sockid < s.maxConcurrency ∧ (s.sockets sockid).socktype ≠ .unused then
    s.setSocket sockid { s.sockets sockid with
      socktype := .listener
      ref := if inserted then .listener else (s.sockets sockid).ref }
  else s

def qConnect (s : Sockets) (sockid core : Nat) (room : Bool) : Sockets :=
  if sockid < s.maxConcurrency ∧ (s.sockets sockid).socktype = .stream ∧
      (s.sockets sockid).ref = .null then
    if (s.sockets sockid).addrBind ∧ (s.sockets sockid).addrSet then
      if room then
        { s with connectQueue :=
            Function.update s.connectQueue core (s.connectQueue core ++ [sockid]) }
      else s
    else { s with exit := some .todo }
  else s

def handlePassiveOpen (s : Sockets) (core : Nat) (chunk : Option Nat) : Sockets :=
  match s.socketAlloc core .stream with
  | (none, s) => { s with exit := some .nullSocket }
  | (some id, s) => s.tcpStreamCreate id chunk

def handleConnectCall (s : Sockets) (id : Nat) (chunk : Option Nat) : Sockets :=
  if (s.sockets id).addrSet then s.tcpStreamCreate id chunk else { s with exit := some .todo }

/-- The pool hands out a chunk of which no stream is made. -/
def Fresh (s : Sockets) (chunk : Option Nat) : Prop := ∀ c ∈ chunk, (s.streams c).live = false

instance (s : Sockets) : (chunk : Option Nat) → Decidable (s.Fresh chunk)
  | none => .isTrue nofun
  | some c =>
      decidable_of_iff ((s.streams c).live = false)
        ⟨fun dead _ same => Option.some.inj same ▸ dead, fun fresh => fresh c rfl⟩

def step (s : Sockets) (call : SockCall) : Sockets :=
  if s.exit.isSome then s
  else
    match call with
    | .qSocket core => s.qSocket core
    | .qBind sockid addrSet => s.qBind sockid addrSet
    | .qListen sockid inserted => s.qListen sockid inserted
    | .qConnect sockid core room => if core < s.stackThread then s.qConnect sockid core room else s
    | .passiveOpen core chunk =>
        if core < s.stackThread ∧ s.Fresh chunk then s.handlePassiveOpen core chunk else s
    | .connectCall core chunk =>
        match s.connectQueue core with
        | [] => s
        | id :: rest =>
            if s.Fresh chunk then
              { s with connectQueue := Function.update s.connectQueue core rest }.handleConnectCall
                id chunk
            else s
    | .destroy core chunk => if core < s.stackThread then s.tcpStreamDestroy core chunk else s

/-! ## The law -/

/-- The free lists there are. -/
def IsList (s : Sockets) : FreeList → Prop
  | .stack core => core < s.stackThread ∧ core < maxStackNum
  | .pub => True

def InTable (s : Sockets) (id : Nat) : Prop := id < s.maxSocketNum + s.pubSocketNum

/-- On exactly one free list, and once. -/
def OnOne (s : Sockets) (id : Nat) : Prop :=
  ∃ l, s.IsList l ∧ (s.free l).count id = 1 ∧ ∀ l', s.IsList l' → l' ≠ l → id ∉ s.free l'

structure TableLaw (s : Sockets) : Prop where
  place : ∀ id, s.InTable id →
    (s.sockets id).socktype = .unused ∧ s.OnOne id ∨
      (s.sockets id).socktype ≠ .unused ∧ ∀ l, s.IsList l → id ∉ s.free l
  counts : ∀ l, s.IsList l → s.num l = (s.free l).length
  alloc : ∀ core socktype id, (s.socketAlloc core socktype).1 = some id →
    (s.sockets id).socktype = .unused
  reached : s.exit ≠ some .unusedFreed

/-- A connect call is served for a socket in use that has no stream; a stream is destroyed while
it lives. -/
def StepOk (s : Sockets) : SockCall → Prop
  | .connectCall core _ =>
      ∀ id ∈ (s.connectQueue core).head?,
        (s.sockets id).socktype ≠ .unused ∧ (s.sockets id).ref = .null
  | .destroy _ chunk => (s.streams chunk).live = true
  | _ => True

instance (s : Sockets) : (call : SockCall) → Decidable (s.StepOk call)
  | .connectCall core _ =>
      match first : (s.connectQueue core).head? with
      | none => .isTrue fun _ mem => by rw [first] at mem; cases mem
      | some id =>
          decidable_of_iff ((s.sockets id).socktype ≠ .unused ∧ (s.sockets id).ref = .null)
            ⟨fun ready _ mem => Option.some.inj (first.symm.trans mem) ▸ ready,
              fun all => all id first⟩
  | .destroy _ chunk => inferInstanceAs (Decidable ((s.streams chunk).live = true))
  | .qSocket _ | .qBind _ _ | .qListen _ _ | .qConnect _ _ _ | .passiveOpen _ _ => .isTrue trivial

/-! ## The invariant -/

structure SockInv (s : Sockets) : Prop where
  nodup : ∀ l, s.IsList l → (s.free l).Nodup
  apart : ∀ l l' id, s.IsList l → s.IsList l' → id ∈ s.free l → id ∈ s.free l' → l = l'
  unused : ∀ l id, s.IsList l → id ∈ s.free l → (s.sockets id).socktype = .unused
  listed : ∀ id, s.InTable id → (s.sockets id).socktype = .unused → ∃ l, s.IsList l ∧ id ∈ s.free l
  counts : ∀ l, s.IsList l → s.num l = (s.free l).length
  /-- the socket of a stream is in use, and says so -/
  held : ∀ c id, (s.streams c).live = true → (s.streams c).socket = some id →
    (s.sockets id).socktype ≠ .unused ∧ (s.sockets id).ref ≠ .null
  /-- and is its own -/
  sole : ∀ c c' id, (s.streams c).live = true → (s.streams c').live = true →
    (s.streams c).socket = some id → (s.streams c').socket = some id → c = c'
  reached : s.exit ≠ some .unusedFreed

section Inv

variable {s : Sockets}

/-- Whichever list a stack gives back to, it is one of them. -/
theorem isList_ofCore (s : Sockets) {core : Nat} (inside : core < s.stackThread) :
    s.IsList (.ofCore core) := by
  unfold FreeList.ofCore
  split
  · rename_i within
    exact ⟨inside, within⟩
  · trivial

theorem isList_pool (s : Sockets) (core : Nat) : s.IsList (s.pool core) := by
  unfold pool
  split
  · trivial
  · rename_i inside
    exact s.isList_ofCore (Nat.lt_of_not_le inside)

/-- What `socket_alloc` returns is the head of its list. -/
theorem socketAlloc_cases (s : Sockets) (core : Nat) (socktype : SockType) :
    s.socketAlloc core socktype = (none, s) ∨
      ∃ id rest, s.free (s.pool core) = id :: rest ∧
        s.socketAlloc core socktype = (some id, { s with
          free := Function.update s.free (s.pool core) rest
          num := Function.update s.num (s.pool core) (s.num (s.pool core) - 1)
          sockets := Function.update s.sockets id { socktype := socktype } }) := by
  cases list : s.free (s.pool core) with
  | nil => exact .inl (by simp only [socketAlloc, list])
  | cons id rest => exact .inr ⟨id, rest, rfl, by simp only [socketAlloc, list]⟩

/-- The invariant is the law, and more. -/
theorem SockInv.law (inv : s.SockInv) : s.TableLaw where
  place := by
    intro id inTable
    by_cases unused : (s.sockets id).socktype = .unused
    · obtain ⟨l, isList, mem⟩ := inv.listed id inTable unused
      refine .inl ⟨unused, l, isList, List.count_eq_one_of_mem (inv.nodup l isList) mem, ?_⟩
      intro l' isList' other mem'
      exact other (inv.apart l' l id isList' isList mem' mem)
    · refine .inr ⟨unused, fun l isList mem => ?_⟩
      exact unused (inv.unused l id isList mem)
  counts := inv.counts
  alloc := by
    intro core socktype id got
    rcases socketAlloc_cases s core socktype with none | ⟨first, rest, list, some⟩
    · rw [none] at got
      cases got
    · rw [some] at got
      obtain rfl := Option.some.inj got
      apply inv.unused (s.pool core) first (isList_pool s core)
      rw [list]
      exact List.mem_cons_self
  reached := inv.reached

/-- The connect queues are not in the invariant, nor is an exit elsewhere. -/
theorem SockInv.aside (inv : s.SockInv) (queue : Nat → List Nat) {exit : Option SockExit}
    (elsewhere : exit ≠ some .unusedFreed) :
    SockInv { s with connectQueue := queue, exit := exit } :=
  ⟨inv.nodup, inv.apart, inv.unused, inv.listed, inv.counts, inv.held, inv.sole, elsewhere⟩

/-- A call that changes neither the lists nor a stream, and leaves a socket in use that was, with
what it refers to. -/
theorem SockInv.setSocket (inv : s.SockInv) {id : Nat} {socket : Socket}
    (was : (s.sockets id).socktype ≠ .unused) (inUse : socket.socktype ≠ .unused)
    (ref : (s.sockets id).ref ≠ .null → socket.ref ≠ .null) : (s.setSocket id socket).SockInv where
  nodup := inv.nodup
  apart := inv.apart
  counts := inv.counts
  sole := inv.sole
  reached := inv.reached
  unused := by
    intro l other isList mem
    have unused := inv.unused l other isList mem
    have apart : other ≠ id := by
      rintro rfl
      exact was unused
    simpa [Sockets.setSocket, apart] using unused
  listed := by
    intro other inTable unused
    have apart : other ≠ id := by
      rintro rfl
      simp [Sockets.setSocket, inUse] at unused
    exact inv.listed other inTable (by simpa [Sockets.setSocket, apart] using unused)
  held := by
    intro c other live socketOf
    obtain ⟨used, refers⟩ := inv.held c other live socketOf
    by_cases same : other = id
    · subst same
      simpa [Sockets.setSocket, inUse] using ref refers
    · simpa [Sockets.setSocket, same] using ⟨used, refers⟩

/-- `socket_alloc`: the head of a list is taken into use. -/
theorem SockInv.alloc (inv : s.SockInv) {core id : Nat} {rest : List Nat}
    (list : s.free (s.pool core) = id :: rest) {socktype : SockType}
    (inUse : socktype ≠ .unused) :
    SockInv { s with
      free := Function.update s.free (s.pool core) rest
      num := Function.update s.num (s.pool core) (s.num (s.pool core) - 1)
      sockets := Function.update s.sockets id { socktype := socktype } } := by
  have isList := isList_pool s core
  have first : id ∈ s.free (s.pool core) := by
    rw [list]
    exact List.mem_cons_self
  have whole := inv.nodup _ isList
  rw [list] at whole
  have sub : ∀ l, (Function.update s.free (s.pool core) rest l).Sublist (s.free l) := by
    intro l
    by_cases same : l = s.pool core
    · subst same
      rw [Function.update_self, list]
      exact List.sublist_cons_self id rest
    · rw [Function.update_of_ne same]
  -- the socket is on no list any more
  have gone : ∀ l, s.IsList l → id ∉ Function.update s.free (s.pool core) rest l := by
    intro l isList' mem
    have same := inv.apart l _ id isList' isList ((sub l).subset mem) first
    subst same
    rw [Function.update_self] at mem
    exact (List.nodup_cons.mp whole).1 mem
  refine ⟨?_, ?_, ?_, ?_, ?_, ?_, inv.sole, inv.reached⟩
  · intro l isList'
    exact (inv.nodup l isList').sublist (sub l)
  · intro l l' x isL isL' mem mem'
    exact inv.apart l l' x isL isL' ((sub l).subset mem) ((sub l').subset mem')
  · intro l x isL mem
    have apart : x ≠ id := by
      rintro rfl
      exact gone l isL mem
    simpa [apart] using inv.unused l x isL ((sub l).subset mem)
  · intro x inTable unused
    have apart : x ≠ id := by
      rintro rfl
      simp [inUse] at unused
    obtain ⟨l, isL, mem⟩ := inv.listed x inTable (by simpa [apart] using unused)
    refine ⟨l, isL, ?_⟩
    by_cases same : l = s.pool core
    · subst same
      rw [list] at mem
      simpa [apart] using mem
    · simpa [same] using mem
  · intro l isL
    by_cases same : l = s.pool core
    · subst same
      have count := inv.counts _ isL
      rw [list, List.length_cons] at count
      simp only [Function.update_self]
      omega
    · simpa [same] using inv.counts l isL
  · intro c x live socketOf
    obtain ⟨used, refers⟩ := inv.held c x live socketOf
    have apart : x ≠ id := by
      rintro rfl
      exact used (inv.unused _ x isList first)
    simpa [apart] using ⟨used, refers⟩

/-- `tcp_stream_create`: a stream for a socket that has none. -/
theorem SockInv.create (inv : s.SockInv) {id : Nat} {chunk : Option Nat}
    (used : (s.sockets id).socktype ≠ .unused) (null : (s.sockets id).ref = .null)
    (fresh : s.Fresh chunk) : (s.tcpStreamCreate id chunk).SockInv := by
  cases chunk with
  | none => exact inv.aside _ nofun
  | some chunk =>
      have base : (s.setSocket id { s.sockets id with ref := .stream chunk }).SockInv :=
        inv.setSocket used used fun _ => nofun
      -- no live stream has this socket, for its sockets refer to it
      have unheld : ∀ c, (s.streams c).live = true → (s.streams c).socket ≠ some id := by
        intro c live socketOf
        exact (inv.held c id live socketOf).2 null
      refine { base with held := ?_, sole := ?_ }
      · intro c x live socketOf
        by_cases same : c = chunk
        · subst same
          obtain rfl : id = x := by simpa [tcpStreamCreate] using socketOf
          simpa [tcpStreamCreate, Sockets.setSocket] using used
        · simp [tcpStreamCreate, same] at live socketOf
          exact base.held c x live socketOf
      · intro c c' x live live' socketOf socketOf'
        by_cases same : c = chunk
        · by_cases same' : c' = chunk
          · rw [same, same']
          · subst same
            obtain rfl : id = x := by simpa [tcpStreamCreate] using socketOf
            simp [tcpStreamCreate, same'] at live' socketOf'
            exact absurd socketOf' (unheld c' live')
        · by_cases same' : c' = chunk
          · subst same'
            obtain rfl : id = x := by simpa [tcpStreamCreate] using socketOf'
            simp [tcpStreamCreate, same] at live socketOf
            exact absurd socketOf (unheld c live)
          · simp [tcpStreamCreate, same, same'] at live live' socketOf socketOf'
            exact inv.sole c c' x live live' socketOf socketOf'

/-- `socket_free` of a socket in use that no live stream has. -/
theorem SockInv.freed (inv : s.SockInv) {core id : Nat} (inside : core < s.stackThread)
    (used : (s.sockets id).socktype ≠ .unused)
    (unheld : ∀ c, (s.streams c).live = true → (s.streams c).socket ≠ some id) :
    (s.socketFree core id).SockInv := by
  have isList := s.isList_ofCore inside
  rw [socketFree, if_neg used]
  generalize FreeList.ofCore core = back at isList ⊢
  have off : ∀ l, s.IsList l → id ∉ s.free l := fun l isL mem => used (inv.unused l id isL mem)
  have mem_iff : ∀ l x, x ∈ Function.update s.free back (s.free back ++ [id]) l ↔
      x ∈ s.free l ∨ l = back ∧ x = id := by
    intro l x
    by_cases same : l = back
    · subst same
      simp
    · simp [same]
  have nodup : ∀ l, s.IsList l →
      (Function.update s.free back (s.free back ++ [id]) l).Nodup := by
    intro l isL
    by_cases same : l = back
    · subst same
      rw [Function.update_self]
      exact (inv.nodup _ isL).append (List.nodup_singleton id) (by simpa using off _ isL)
    · rw [Function.update_of_ne same]
      exact inv.nodup l isL
  refine ⟨nodup, ?_, ?_, ?_, ?_, ?_, inv.sole, inv.reached⟩
  · intro l l' x isL isL' mem mem'
    rcases (mem_iff l x).mp mem with old | ⟨rfl, rfl⟩
    · rcases (mem_iff l' x).mp mem' with old' | ⟨rfl, rfl⟩
      · exact inv.apart l l' x isL isL' old old'
      · exact absurd old (off l isL)
    · rcases (mem_iff l' x).mp mem' with old' | ⟨rfl, -⟩
      · exact absurd old' (off l' isL')
      · rfl
  · intro l x isL mem
    by_cases same : x = id
    · subst same
      simp
    · rcases (mem_iff l x).mp mem with old | ⟨-, is⟩
      · simpa [same] using inv.unused l x isL old
      · exact absurd is same
  · intro x inTable unused
    by_cases same : x = id
    · exact ⟨back, isList, (mem_iff _ x).mpr (.inr ⟨rfl, same⟩)⟩
    · obtain ⟨l, isL, mem⟩ := inv.listed x inTable (by simpa [same] using unused)
      exact ⟨l, isL, (mem_iff l x).mpr (.inl mem)⟩
  · intro l isL
    by_cases same : l = back
    · subst same
      have count := inv.counts _ isList
      simp only [Function.update_self, List.length_append, List.length_singleton]
      omega
    · simpa [same] using inv.counts l isL
  · intro c x live socketOf
    have apart : x ≠ id := by
      rintro rfl
      exact unheld c live socketOf
    simpa [apart] using inv.held c x live socketOf

/-- A stream that is no more holds nothing. -/
theorem SockInv.dead (inv : s.SockInv) (chunk : Nat) :
    SockInv { s with
      streams := Function.update s.streams chunk { s.streams chunk with live := false } } := by
  have alive : ∀ c, (Function.update s.streams chunk
      { s.streams chunk with live := false } c).live = true →
      c ≠ chunk ∧ (s.streams c).live = true := by
    intro c live
    by_cases same : c = chunk
    · subst same
      simp at live
    · exact ⟨same, by simpa [same] using live⟩
  refine { inv with held := ?_, sole := ?_ }
  · intro c x live socketOf
    obtain ⟨apart, live⟩ := alive c live
    exact inv.held c x live (by simpa [apart] using socketOf)
  · intro c c' x live live' socketOf socketOf'
    obtain ⟨apart, live⟩ := alive c live
    obtain ⟨apart', live'⟩ := alive c' live'
    exact inv.sole c c' x live live' (by simpa [apart] using socketOf)
      (by simpa [apart'] using socketOf')

/-- `tcp_stream_destroy` of a live stream gives its socket back. -/
theorem SockInv.destroy (inv : s.SockInv) {core chunk : Nat} (inside : core < s.stackThread)
    (live : (s.streams chunk).live = true) : (s.tcpStreamDestroy core chunk).SockInv := by
  unfold tcpStreamDestroy
  cases socketOf : (s.streams chunk).socket with
  | none => exact inv.dead chunk
  | some id =>
      have used := (inv.held chunk id live socketOf).1
      -- the order of the two writes does not matter
      have swap : ({ s.socketFree core id with
          streams := Function.update (s.socketFree core id).streams chunk
            { (s.socketFree core id).streams chunk with live := false } } : Sockets) =
          Sockets.socketFree { s with
            streams := Function.update s.streams chunk { s.streams chunk with live := false } }
            core id := by
        simp only [socketFree, if_neg used]
      refine swap ▸ (inv.dead chunk).freed inside used ?_
      intro c alive holds
      by_cases same : c = chunk
      · subst same
        simp at alive
      · simp [same] at alive holds
        exact same (inv.sole c chunk id alive live holds socketOf)

/-- **One call.** -/
theorem step_inv {call : SockCall} (inv : s.SockInv) (ok : s.StepOk call) :
    (s.step call).SockInv := by
  unfold step
  split
  · exact inv
  · cases call with
    | qSocket core =>
        dsimp only [qSocket]
        rcases socketAlloc_cases s core .stream with none | ⟨id, rest, list, some⟩
        · rw [none]
          exact inv
        · rw [some]
          exact inv.alloc list (show SockType.stream ≠ .unused from nofun)
    | qBind sockid addrSet =>
        dsimp only [qBind]
        split
        · rename_i bind
          exact inv.setSocket bind.2.1 bind.2.1 id
        · exact inv
    | qListen sockid inserted =>
        dsimp only [qListen]
        split
        · rename_i listen
          refine inv.setSocket listen.2 nofun fun refers => ?_
          cases inserted with
          | true => exact nofun
          | false => exact refers
        · exact inv
    | qConnect sockid core room =>
        dsimp only [qConnect]
        split
        · split
          · split
            · split
              · exact inv.aside _ inv.reached
              · exact inv
            · exact inv.aside _ nofun
          · exact inv
        · exact inv
    | passiveOpen core chunk =>
        dsimp only
        split
        · rename_i opens
          unfold handlePassiveOpen
          rcases socketAlloc_cases s core .stream with none | ⟨id, rest, list, some⟩
          · rw [none]
            exact inv.aside _ nofun
          · rw [some]
            have taken := inv.alloc list (show SockType.stream ≠ .unused from nofun)
            exact taken.create (by simp) (by simp) opens.2
        · exact inv
    | connectCall core chunk =>
        dsimp only
        split
        · exact inv
        · rename_i id rest queue
          split
          · rename_i fresh
            have ready := ok id (by rw [queue]; rfl)
            have dequeued := inv.aside (Function.update s.connectQueue core rest) inv.reached
            unfold handleConnectCall
            split
            · exact dequeued.create ready.1 ready.2 fresh
            · exact inv.aside _ nofun
          · exact inv
    | destroy core chunk =>
        dsimp only
        split
        · rename_i inside
          exact inv.destroy inside ok
        · exact inv

end Inv

/-! ## The table at the start -/

section Init

variable {stackThread maxSocketNum pubSocketNum maxConcurrency : Nat}

/-- A stack's list has sockets of its own block. -/
theorem of_mem_stack_init {core id : Nat} (inside : core < stackThread)
    (mem : id ∈
      (socketTableInit stackThread maxSocketNum pubSocketNum maxConcurrency).free (.stack core)) :
    id < maxSocketNum ∧ id / (maxSocketNum / stackThread) = core := by
  have listed : core < stackThread ∧ core < maxStackNum := by
    by_contra none
    simp [socketTableInit, none] at mem
  simp only [socketTableInit, listed, and_self, if_true, List.mem_range'_1] at mem
  obtain ⟨low, high⟩ := mem
  have block : (core + 1) * (maxSocketNum / stackThread) ≤
      stackThread * (maxSocketNum / stackThread) := Nat.mul_le_mul_right _ inside
  have whole := Nat.mul_div_le maxSocketNum stackThread
  rw [Nat.add_mul, Nat.one_mul] at block
  refine ⟨by omega, Nat.div_eq_of_lt_le low ?_⟩
  rw [Nat.add_mul, Nat.one_mul]
  exact high

/-- Without a rest, it has all of them. -/
theorem mem_stack_init (divides : stackThread ∣ maxSocketNum) {core id : Nat}
    (inside : core < stackThread) (within : core < maxStackNum) (below : id < maxSocketNum)
    (block : id / (maxSocketNum / stackThread) = core) :
    id ∈ (socketTableInit stackThread maxSocketNum pubSocketNum maxConcurrency).free
      (.stack core) := by
  obtain ⟨chunkNum, rfl⟩ := divides
  have positive : 0 < stackThread := by omega
  rw [Nat.mul_div_cancel_left chunkNum positive] at block
  simp only [socketTableInit, inside, within, and_self, if_true,
    Nat.mul_div_cancel_left chunkNum positive, List.mem_range'_1]
  have some : 0 < chunkNum := by
    apply Nat.pos_of_ne_zero
    rintro rfl
    omega
  have split := Nat.div_add_mod' id chunkNum
  have less := Nat.mod_lt id some
  rw [block] at split
  omega

theorem mem_pub_init {id : Nat} :
    id ∈ (socketTableInit stackThread maxSocketNum pubSocketNum maxConcurrency).free .pub ↔
      maxSocketNum ≤ id ∧ id < maxSocketNum + pubSocketNum := by
  simp [socketTableInit, List.mem_range'_1]

theorem nodup_init (l : FreeList) :
    ((socketTableInit stackThread maxSocketNum pubSocketNum maxConcurrency).free l).Nodup := by
  cases l with
  | stack core =>
      simp only [socketTableInit]
      split
      · exact List.nodup_range'
      · exact List.nodup_nil
  | pub => exact List.nodup_range'

/-- The blocks are apart, whatever is left over. -/
theorem apart_init {l l' : FreeList} {id : Nat}
    (isL : (socketTableInit stackThread maxSocketNum pubSocketNum maxConcurrency).IsList l)
    (isL' : (socketTableInit stackThread maxSocketNum pubSocketNum maxConcurrency).IsList l')
    (mem : id ∈ (socketTableInit stackThread maxSocketNum pubSocketNum maxConcurrency).free l)
    (mem' : id ∈ (socketTableInit stackThread maxSocketNum pubSocketNum maxConcurrency).free l') :
    l = l' := by
  cases l with
  | stack core =>
      have block := of_mem_stack_init isL.1 mem
      cases l' with
      | stack core' =>
          have block' := of_mem_stack_init isL'.1 mem'
          rw [← block.2, ← block'.2]
      | pub =>
          have above := mem_pub_init.mp mem'
          omega
  | pub =>
      have above := mem_pub_init.mp mem
      cases l' with
      | stack core' =>
          have block' := of_mem_stack_init isL'.1 mem'
          omega
      | pub => rfl

theorem counts_init (l : FreeList)
    (isL : (socketTableInit stackThread maxSocketNum pubSocketNum maxConcurrency).IsList l) :
    (socketTableInit stackThread maxSocketNum pubSocketNum maxConcurrency).num l =
      ((socketTableInit stackThread maxSocketNum pubSocketNum maxConcurrency).free l).length := by
  cases l with
  | stack core =>
      have inside : core < stackThread ∧ core < maxStackNum := isL
      simp [socketTableInit, inside]
  | pub => simp [socketTableInit]

/-- The sockets are dealt out without a rest, to stacks that have a list. -/
theorem init_inv (lists : stackThread ≤ maxStackNum) (divides : stackThread ∣ maxSocketNum) :
    (socketTableInit stackThread maxSocketNum pubSocketNum maxConcurrency).SockInv where
  nodup l _ := nodup_init l
  apart _ _ _ := apart_init
  unused _ _ _ _ := rfl
  listed := by
    intro id inTable _
    have bound : id < maxSocketNum + pubSocketNum := inTable
    by_cases below : id < maxSocketNum
    · have inside : id / (maxSocketNum / stackThread) < stackThread := by
        obtain ⟨chunkNum, rfl⟩ := divides
        have positive : 0 < stackThread := by
          apply Nat.pos_of_ne_zero
          rintro rfl
          omega
        rw [Nat.mul_div_cancel_left chunkNum positive]
        exact Nat.div_lt_of_lt_mul (by rwa [Nat.mul_comm] at below)
      have within : id / (maxSocketNum / stackThread) < maxStackNum := by omega
      exact ⟨.stack _, ⟨inside, within⟩, mem_stack_init divides inside within below rfl⟩
    · exact ⟨.pub, trivial, mem_pub_init.mpr ⟨by omega, bound⟩⟩
  counts := counts_init
  held _ _ live := nomatch live
  sole _ _ _ live := nomatch live
  reached := nofun

end Init

/-- **The socket table over every sequence of calls**, whatever the configuration deals out
without a rest to no more stacks than there are lists: a socket is unused and on one list, or in
use and on none, the numbers are the lengths, an allocation returns an unused socket, and none is
freed that is unused. -/
theorem sockets_partitioned {stackThread maxSocketNum : Nat} (pubSocketNum maxConcurrency : Nat)
    (lists : stackThread ≤ maxStackNum) (divides : stackThread ∣ maxSocketNum)
    (calls : List SockCall)
    (allowed : Lib.Run.Allowed step StepOk
      (socketTableInit stackThread maxSocketNum pubSocketNum maxConcurrency) calls) :
    Lib.Run.Along step TableLaw
      (socketTableInit stackThread maxSocketNum pubSocketNum maxConcurrency) calls := by
  apply Lib.Run.Along.mono fun s => SockInv.law
  have kept : ∀ s call, SockInv s → StepOk s call → SockInv (step s call) :=
    fun _ _ inv ok => step_inv inv ok
  exact Lib.Run.along_of_step kept calls _ (init_inv lists divides) allowed

/-- A client that binds a socket and connects, until its stream is destroyed. -/
def client : List SockCall :=
  [.qSocket 0, .qBind 0 true, .qConnect 0 0 true, .connectCall 0 (some 7), .passiveOpen 1 (some 8),
    .destroy 1 7]

theorem sockets_partitioned_client :
    Lib.Run.Along step TableLaw (socketTableInit 2 8 0 8) client :=
  sockets_partitioned 0 8 (by decide) (by decide) client (by decide)

/-- A socket that the pools leave out is on no list. -/
theorem not_law_of_unlisted {s : Sockets} {id : Nat} (inTable : s.InTable id)
    (unused : (s.sockets id).socktype = .unused) (off : ∀ l, s.IsList l → id ∉ s.free l) :
    ¬ TableLaw s := by
  intro law
  rcases law.place id inTable with ⟨-, l, isList, once, -⟩ | ⟨used, -⟩
  · exact off l isList (List.one_le_count_iff.mp once.ge)
  · exact used unused

/-- **Two calls of `q_connect` before the first is served**: both get a stream, and the second
stream to be destroyed frees a socket that is unused.  Of the sockets there are, 3 stacks leave
two on no list, and the fifth of 5 stacks has no list of its own. -/
theorem socket_freed_twice :
    ¬ TableLaw (Lib.Run.run step (socketTableInit 1 8 0 8)
        [.qSocket 0, .qBind 0 true, .qConnect 0 0 true, .qConnect 0 0 true,
          .connectCall 0 (some 7), .connectCall 0 (some 8), .destroy 0 7, .destroy 0 8]) ∧
      ¬ TableLaw (socketTableInit 3 14000000 0 8) ∧
      ¬ TableLaw (socketTableInit 5 14000000 0 8) := by
  refine ⟨fun law => law.reached (by decide), ?_, ?_⟩
  · refine not_law_of_unlisted (show InTable _ 13999999 from ?_) rfl fun l isList mem => ?_
    · show 13999999 < 14000000 + 0
      omega
    · cases l with
      | stack core =>
          have inside : core < 3 ∧ core < maxStackNum := isList
          simp [socketTableInit, inside, List.mem_range'_1] at mem
          omega
      | pub => simp [socketTableInit] at mem
  · refine not_law_of_unlisted (show InTable _ 13999999 from ?_) rfl fun l isList mem => ?_
    · show 13999999 < 14000000 + 0
      omega
    · cases l with
      | stack core =>
          have inside : core < 5 ∧ core < maxStackNum := isList
          have last : maxStackNum = 4 := rfl
          simp [socketTableInit, inside, List.mem_range'_1] at mem
          omega
      | pub => simp [socketTableInit] at mem

end Sockets

end QStack
