/-
# QStack.FlowTable -- the streams of a stack and its flow hash table

`tcp_stream_create` puts a stream into `stream_ht` of its stack under the four-tuple of the
connection and counts it in `flow_cnt`; `tcp_stream_destroy` takes it out.  A SYN creates one when
`StreamHTSearch` finds none; `handle_connect_call` creates one without looking.  The table is a map
of bounded size (`AList`): an insertion under a key that is there replaces the value, and into a
full table it fails, which `tcp_stream_create` does not notice.

The sockets are those of `SocketTable`; a call does to them what it does there (`step_sock`).

* `FlowInv`: the table holds the live streams, each under its own four-tuple;
* `flows_consistent`: over every sequence of calls in which a stream is created for a four-tuple
  that is not in the table, with room in it, and for a socket that has none, and destroyed while
  it lives;
* `flow_not_found`: two connect calls for one socket, and a full table.
-/
import QStack.SocketTable
import Mathlib.Data.List.AList

namespace QStack

set_option autoImplicit false

/-- An address with its port. -/
structure SockAddr where
  addr : BitVec 32 := 0
  port : BitVec 16 := 0
deriving DecidableEq, Repr

/-- `struct ipv4_5tuple`, the protocol being TCP; the local host is the source. -/
structure Flow where
  src : SockAddr
  dst : SockAddr
deriving DecidableEq, Repr

/-- `struct rte_hash` with the streams as data. -/
abbrev FlowHash := AList fun _ : Flow => Nat

/-- `INT_MAX` -/
def intMax : Nat := 2147483647

structure Flows where
  sock : Sockets
  /-- `saddr` and `daddr` of a socket -/
  saddr : Nat → SockAddr
  daddr : Nat → SockAddr
  /-- the four-tuple of a stream -/
  flow : Nat → Flow
  /-- `stream->qstack` -/
  home : Nat → Nat
  streamHt : Nat → FlowHash
  /-- `flow_cnt`, a `uint32_t` -/
  flowCnt : Nat → BitVec 32
  /-- the entries `stream_ht` was created with, an `int` -/
  entries : Nat → Nat

inductive FlowCall where
  | qSocket (core : Nat)
  | qBind (sockid : Nat) (addr : SockAddr)
  | qListen (sockid : Nat) (inserted : Bool)
  /-- `q_connect` to a peer that RSS maps to the stack `core`; `room` in its queue -/
  | qConnect (sockid : Nat) (addr : SockAddr) (core : Nat) (room : Bool)
  /-- a SYN that the listener lets through -/
  | syn (core : Nat) (flow : Flow) (chunk : Option Nat)
  /-- `handle_connect_call` for the first socket of the connect queue -/
  | connectCall (core : Nat) (chunk : Option Nat)
  | destroy (chunk : Nat)
deriving DecidableEq, Repr

namespace SockAddr

/-- Neither `INADDR_ANY` nor `INPORT_ANY`. -/
def isSet (a : SockAddr) : Bool := a.addr != 0 && a.port != 0

end SockAddr

namespace Flows

/-! ## The hash table -/

def streamHTSearch (ht : FlowHash) (flow : Flow) : Option Nat := ht.lookup flow

/-- `rte_hash_add_key_data` -/
def htInsert (entries : Nat) (ht : FlowHash) (flow : Flow) (chunk : Nat) : FlowHash :=
  if flow ∈ ht ∨ ht.keys.length < entries then ht.insert flow chunk else ht

def htDelete (ht : FlowHash) (flow : Flow) : FlowHash := ht.erase flow

/-! ## The calls -/

def tcpStreamCreate (s : Flows) (core id : Nat) (flow : Flow) (chunk : Option Nat) : Flows :=
  let s := { s with sock := s.sock.tcpStreamCreate id chunk }
  match chunk with
  | none => s
  | some c =>
      { s with
        flow := Function.update s.flow c flow
        home := Function.update s.home c core
        streamHt := Function.update s.streamHt core
          (htInsert (s.entries core) (s.streamHt core) flow c)
        flowCnt := Function.update s.flowCnt core (s.flowCnt core + 1) }

def tcpStreamDestroy (s : Flows) (c : Nat) : Flows :=
  let core := s.home c
  { s with
    sock := s.sock.tcpStreamDestroy core c
    streamHt := Function.update s.streamHt core (htDelete (s.streamHt core) (s.flow c))
    flowCnt := Function.update s.flowCnt core (s.flowCnt core - 1) }

/-- The addresses of a socket that `socket_alloc` hands out are zeroed. -/
def clearAddr (s : Flows) (id : Option Nat) : Flows :=
  match id with
  | none => s
  | some id =>
      { s with saddr := Function.update s.saddr id {}, daddr := Function.update s.daddr id {} }

def qSocket (s : Flows) (core : Nat) : Flows :=
  match s.sock.socketAlloc core .stream with
  | (id, sock) => { s with sock := sock }.clearAddr id

def qBind (s : Flows) (sockid : Nat) (addr : SockAddr) : Flows :=
  { s with
    sock := s.sock.qBind sockid addr.isSet
    saddr :=
      if sockid < s.sock.maxConcurrency ∧ (s.sock.sockets sockid).socktype ≠ .unused ∧
          (s.sock.sockets sockid).addrBind = false then
        Function.update s.saddr sockid addr
      else s.saddr }

def qConnect (s : Flows) (sockid : Nat) (addr : SockAddr) (core : Nat) (room : Bool) : Flows :=
  { s with
    sock := s.sock.qConnect sockid core room
    daddr :=
      if sockid < s.sock.maxConcurrency ∧ (s.sock.sockets sockid).socktype = .stream ∧
          (s.sock.sockets sockid).ref = .null then
        Function.update s.daddr sockid addr
      else s.daddr }

def handlePassiveOpen (s : Flows) (core : Nat) (flow : Flow) (chunk : Option Nat) : Flows :=
  match s.sock.socketAlloc core .stream with
  | (none, sock) => { s with sock := { sock with exit := some .nullSocket } }
  | (some id, sock) =>
      ({ s with sock := sock }.clearAddr (some id)).tcpStreamCreate core id flow chunk

def handleConnectCall (s : Flows) (core id : Nat) (chunk : Option Nat) : Flows :=
  if (s.sock.sockets id).addrSet then
    s.tcpStreamCreate core id ⟨s.saddr id, s.daddr id⟩ chunk
  else { s with sock := { s.sock with exit := some .todo } }

def step (s : Flows) (call : FlowCall) : Flows :=
  if s.sock.exit.isSome then s
  else
    match call with
    | .qSocket core => s.qSocket core
    | .qBind sockid addr => s.qBind sockid addr
    | .qListen sockid inserted => { s with sock := s.sock.qListen sockid inserted }
    | .qConnect sockid addr core room =>
        if core < s.sock.stackThread then s.qConnect sockid addr core room else s
    | .syn core flow chunk =>
        match streamHTSearch (s.streamHt core) flow with
        | some _ => s
        | none =>
            if core < s.sock.stackThread ∧ s.sock.Fresh chunk then
              s.handlePassiveOpen core flow chunk
            else s
    | .connectCall core chunk =>
        match s.sock.connectQueue core with
        | [] => s
        | id :: rest =>
            if s.sock.Fresh chunk then
              { s with sock := { s.sock with
                  connectQueue := Function.update s.sock.connectQueue core rest }
                }.handleConnectCall core id chunk
            else s
    | .destroy chunk =>
        if s.home chunk < s.sock.stackThread then s.tcpStreamDestroy chunk else s

/-- `global_init`: the tables are empty. -/
def start (stackThread maxSocketNum pubSocketNum maxConcurrency : Nat) (entries : Nat → Nat) :
    Flows :=
  { sock := Sockets.socketTableInit stackThread maxSocketNum pubSocketNum maxConcurrency
    saddr := fun _ => {}
    daddr := fun _ => {}
    flow := fun _ => ⟨{}, {}⟩
    home := fun _ => 0
    streamHt := fun _ => ∅
    flowCnt := fun _ => 0
    entries := entries }

/-! ## The law -/

/-- A live stream of the stack. -/
def On (s : Flows) (core c : Nat) : Prop := (s.sock.streams c).live = true ∧ s.home c = core

/-- **Flow-table consistency.** -/
structure FlowLaw (s : Flows) : Prop where
  found : ∀ core c, s.On core c → streamHTSearch (s.streamHt core) (s.flow c) = some c
  flows : ∀ core c c', s.On core c → s.On core c' → s.flow c = s.flow c' → c = c'
  sockets : ∀ core c c' id, s.On core c → s.On core c' → (s.sock.streams c).socket = some id →
    (s.sock.streams c').socket = some id → c = c'
  counted : ∀ core, ∃ live : List Nat, live.Nodup ∧ (∀ c, c ∈ live ↔ s.On core c) ∧
    (s.flowCnt core).toNat = live.length

/-- The four-tuple for which the next connect call is served. -/
def nextFlow (s : Flows) (id : Nat) : Flow := ⟨s.saddr id, s.daddr id⟩

/-- The table is not full. -/
def Room (s : Flows) (core : Nat) : Prop := (s.streamHt core).keys.length < s.entries core

/-- A stream is created with room in the table, by a connect call only for a socket in use that has
no stream and a four-tuple that has none; it is destroyed while it lives. -/
def FlowOk (s : Flows) : FlowCall → Prop
  | .syn core flow _ => streamHTSearch (s.streamHt core) flow = none → s.Room core
  | .connectCall core _ =>
      ∀ id ∈ (s.sock.connectQueue core).head?,
        (s.sock.sockets id).socktype ≠ .unused ∧ (s.sock.sockets id).ref = .null ∧
          streamHTSearch (s.streamHt core) (s.nextFlow id) = none ∧ s.Room core
  | .destroy chunk => (s.sock.streams chunk).live = true
  | _ => True

/-! ## The table and the streams -/

/-- The table holds the live streams of its stack under their four-tuples, and they are counted. -/
structure Tabled (s : Flows) : Prop where
  holds : ∀ core flow c, (s.streamHt core).lookup flow = some c ↔ s.On core c ∧ s.flow c = flow
  counted : ∀ core, s.flowCnt core = BitVec.ofNat 32 (s.streamHt core).keys.length
  bounded : ∀ core, (s.streamHt core).keys.length ≤ s.entries core

section Tabled

variable {s : Flows}

/-- A call that neither creates nor destroys a stream. -/
theorem Tabled.aside (tabled : s.Tabled) {sock : Sockets} (streams : sock.streams = s.sock.streams)
    (saddr daddr : Nat → SockAddr) :
    Tabled { s with sock := sock, saddr := saddr, daddr := daddr } := by
  refine ⟨?_, tabled.counted, tabled.bounded⟩
  intro core flow c
  rw [tabled.holds core flow c]
  simp only [On, streams]

/-- A stream is created that is not in the table. -/
theorem Tabled.create (tabled : s.Tabled) {core id c : Nat} {flow : Flow}
    (dead : (s.sock.streams c).live = false) (absent : flow ∉ s.streamHt core)
    (room : s.Room core) : (s.tcpStreamCreate core id flow (some c)).Tabled := by
  have table : ∀ core', (s.tcpStreamCreate core id flow (some c)).streamHt core' =
      if core' = core then (s.streamHt core).insert flow c else s.streamHt core' := by
    intro core'
    by_cases same : core' = core
    · subst same
      simp only [tcpStreamCreate, Function.update_self, htInsert, if_true]
      exact if_pos (.inr room)
    · simp only [tcpStreamCreate, Function.update_of_ne same, if_neg same]
  have on : ∀ core' x, (s.tcpStreamCreate core id flow (some c)).On core' x ↔
      if x = c then core = core' else s.On core' x := by
    intro core' x
    by_cases same : x = c
    · subst same
      simp [On, tcpStreamCreate, Sockets.tcpStreamCreate, Sockets.setSocket]
    · simp [On, tcpStreamCreate, Sockets.tcpStreamCreate, Sockets.setSocket, same]
  have tuple : ∀ x, (s.tcpStreamCreate core id flow (some c)).flow x =
      if x = c then flow else s.flow x := by
    intro x
    by_cases same : x = c
    · subst same
      simp [tcpStreamCreate]
    · simp [tcpStreamCreate, same]
  have longer : ((s.streamHt core).insert flow c).keys.length =
      (s.streamHt core).keys.length + 1 := by
    rw [AList.keys_insert, List.erase_of_not_mem absent, List.length_cons]
  refine ⟨?_, ?_, ?_⟩
  · intro core' flow' x
    rw [table, on, tuple]
    have unlisted : ∀ core'' flow'', (s.streamHt core'').lookup flow'' ≠ some c := by
      intro core'' flow'' found
      have live := ((tabled.holds core'' flow'' c).mp found).1.1
      rw [dead] at live
      cases live
    by_cases same : x = c
    · subst same
      rw [if_pos rfl, if_pos rfl]
      split
      · rename_i here
        by_cases key : flow' = flow
        · subst key
          simp [here]
        · rw [AList.lookup_insert_ne key]
          constructor
          · exact fun found => absurd found (unlisted _ _)
          · exact fun is => absurd is.2.symm key
      · rename_i other
        constructor
        · exact fun found => absurd found (unlisted _ _)
        · exact fun is => absurd is.1.symm other
    · rw [if_neg same, if_neg same, ← tabled.holds core' flow' x]
      split
      · rename_i here
        subst here
        by_cases key : flow' = flow
        · subst key
          rw [AList.lookup_insert, AList.lookup_eq_none.mpr absent]
          simp only [Option.some.injEq, reduceCtorEq, iff_false]
          exact fun is => same is.symm
        · rw [AList.lookup_insert_ne key]
      · exact Iff.rfl
  · intro core'
    rw [table]
    by_cases here : core' = core
    · subst here
      rw [if_pos rfl, longer]
      simp only [tcpStreamCreate, Function.update_self, tabled.counted core', BitVec.ofNat_add]
      rfl
    · rw [if_neg here]
      simp only [tcpStreamCreate, Function.update_of_ne here]
      exact tabled.counted core'
  · intro core'
    rw [table]
    split
    · rename_i here
      rw [longer, here]
      exact room
    · exact tabled.bounded core'

theorem streams_destroy (s : Sockets) (core c : Nat) :
    (s.tcpStreamDestroy core c).streams =
      Function.update s.streams c { s.streams c with live := false } := by
  have freed : ∀ id, (s.socketFree core id).streams = s.streams := by
    intro id
    unfold Sockets.socketFree
    split <;> rfl
  unfold Sockets.tcpStreamDestroy
  cases socket : (s.streams c).socket with
  | none => simp [socket]
  | some id => simp [freed, socket]

/-- A live stream is destroyed. -/
theorem Tabled.destroy (tabled : s.Tabled) {c : Nat} (live : (s.sock.streams c).live = true) :
    (s.tcpStreamDestroy c).Tabled := by
  have here : (s.streamHt (s.home c)).lookup (s.flow c) = some c :=
    (tabled.holds (s.home c) (s.flow c) c).mpr ⟨⟨live, rfl⟩, rfl⟩
  have present : s.flow c ∈ s.streamHt (s.home c) :=
    AList.lookup_isSome.mp (by rw [here]; rfl)
  have table : ∀ core, (s.tcpStreamDestroy c).streamHt core =
      if core = s.home c then (s.streamHt (s.home c)).erase (s.flow c) else s.streamHt core := by
    intro core
    by_cases same : core = s.home c
    · subst same
      simp [tcpStreamDestroy, htDelete]
    · simp [tcpStreamDestroy, same]
  have on : ∀ core x, (s.tcpStreamDestroy c).On core x ↔ x ≠ c ∧ s.On core x := by
    intro core x
    have streams : (s.tcpStreamDestroy c).sock.streams = _ := streams_destroy s.sock (s.home c) c
    by_cases same : x = c
    · subst same
      simp [On, streams]
    · simp only [On, streams, Function.update_of_ne same, ne_eq, same, not_false_eq_true, true_and]
      exact Iff.rfl
  have shorter : ((s.streamHt (s.home c)).erase (s.flow c)).keys.length + 1 =
      (s.streamHt (s.home c)).keys.length := by
    rw [AList.keys_erase]
    exact List.length_erase_add_one present
  refine ⟨?_, ?_, ?_⟩
  · intro core flow x
    rw [table, on]
    have tuple : (s.tcpStreamDestroy c).flow x = s.flow x := rfl
    rw [tuple, and_assoc, ← tabled.holds core flow x]
    split
    · rename_i core_eq
      subst core_eq
      by_cases key : flow = s.flow c
      · subst key
        rw [AList.lookup_erase, here]
        simp only [reduceCtorEq, Option.some.injEq, false_iff, not_and]
        exact fun other same => other same.symm
      · rw [AList.lookup_erase_ne key]
        constructor
        · intro found
          refine ⟨?_, found⟩
          rintro rfl
          exact key (((tabled.holds _ _ _).mp found).2).symm
        · exact fun found => found.2
    · rename_i other
      constructor
      · intro found
        refine ⟨?_, found⟩
        rintro rfl
        exact other (((tabled.holds _ _ _).mp found).1.2).symm
      · exact fun found => found.2
  · intro core
    rw [table]
    by_cases same : core = s.home c
    · subst same
      rw [if_pos rfl]
      simp only [tcpStreamDestroy, Function.update_self, tabled.counted (s.home c), ← shorter,
        BitVec.ofNat_add]
      exact BitVec.add_sub_cancel _ _
    · rw [if_neg same]
      simp only [tcpStreamDestroy, Function.update_of_ne same]
      exact tabled.counted core
  · intro core
    rw [table]
    split
    · rename_i same
      subst same
      have bounded : _ ≤ s.entries (s.home c) := tabled.bounded (s.home c)
      change _ ≤ s.entries (s.home c)
      omega
    · exact tabled.bounded core

end Tabled

/-! ## The sockets -/

end Flows

namespace Sockets

/-- The table with no socket that would have to be on a list: no call depends on the two numbers,
and what is left of the invariant does not depend on the division. -/
def unlisted (s : Sockets) : Sockets := { s with maxSocketNum := 0, pubSocketNum := 0 }

theorem socketAlloc_unlisted (s : Sockets) (core : Nat) (socktype : SockType) :
    s.unlisted.socketAlloc core socktype =
      ((s.socketAlloc core socktype).1, (s.socketAlloc core socktype).2.unlisted) := by
  have same : s.unlisted.free (s.unlisted.pool core) = s.free (s.pool core) := rfl
  unfold socketAlloc
  dsimp only
  rw [same]
  cases s.free (s.pool core) with
  | nil => rfl
  | cons id rest => rfl

theorem tcpStreamCreate_unlisted (s : Sockets) (id : Nat) (chunk : Option Nat) :
    s.unlisted.tcpStreamCreate id chunk = (s.tcpStreamCreate id chunk).unlisted := by
  cases chunk with
  | none => rfl
  | some c => rfl

theorem tcpStreamDestroy_unlisted (s : Sockets) (core c : Nat) :
    s.unlisted.tcpStreamDestroy core c = (s.tcpStreamDestroy core c).unlisted := by
  have freed : ∀ id, s.unlisted.socketFree core id = (s.socketFree core id).unlisted := by
    intro id
    unfold socketFree
    rw [apply_ite unlisted]
    rfl
  unfold tcpStreamDestroy
  rw [show s.unlisted.streams = s.streams from rfl]
  cases (s.streams c).socket with
  | none => rfl
  | some id =>
      dsimp only
      rw [freed]
      rfl

theorem step_unlisted (s : Sockets) (call : SockCall) :
    s.unlisted.step call = (s.step call).unlisted := by
  unfold step
  rw [show s.unlisted.exit = s.exit from rfl, show s.unlisted.stackThread = s.stackThread from rfl,
    show s.unlisted.connectQueue = s.connectQueue from rfl, apply_ite unlisted]
  split
  · rfl
  cases call with
  | qSocket core =>
      dsimp only [qSocket]
      rw [socketAlloc_unlisted]
  | qBind sockid addrSet =>
      dsimp only [qBind]
      rw [apply_ite unlisted]
      rfl
  | qListen sockid inserted =>
      dsimp only [qListen]
      rw [apply_ite unlisted]
      rfl
  | qConnect sockid core room =>
      dsimp only [qConnect]
      rw [apply_ite unlisted, apply_ite unlisted, apply_ite unlisted, apply_ite unlisted]
      rfl
  | passiveOpen core chunk =>
      have opened : s.unlisted.handlePassiveOpen core chunk =
          (s.handlePassiveOpen core chunk).unlisted := by
        unfold handlePassiveOpen
        rw [socketAlloc_unlisted]
        generalize s.socketAlloc core .stream = result
        obtain ⟨id, t⟩ := result
        cases id with
        | none => rfl
        | some id => exact tcpStreamCreate_unlisted t id chunk
      dsimp only
      rw [apply_ite unlisted, opened]
      rfl
  | connectCall core chunk =>
      dsimp only
      cases s.connectQueue core with
      | nil => rfl
      | cons id rest =>
          have served : ∀ t : Sockets, t.unlisted.handleConnectCall id chunk =
              (t.handleConnectCall id chunk).unlisted := by
            intro t
            unfold handleConnectCall
            rw [apply_ite unlisted, tcpStreamCreate_unlisted]
            rfl
          dsimp only
          rw [apply_ite unlisted, ← served]
          rfl
  | destroy core chunk =>
      dsimp only
      rw [apply_ite unlisted, tcpStreamDestroy_unlisted]

theorem init_unlisted (stackThread maxSocketNum pubSocketNum maxConcurrency : Nat) :
    (socketTableInit stackThread maxSocketNum pubSocketNum maxConcurrency).unlisted.SockInv where
  nodup l _ := @nodup_init _ _ _ maxConcurrency l
  apart _ _ _ isL isL' := @apart_init _ _ _ maxConcurrency _ _ _ isL isL'
  unused _ _ _ _ := rfl
  listed _ inTable := absurd inTable (Nat.not_lt_zero _)
  counts := @counts_init _ _ _ maxConcurrency
  held _ _ live := nomatch live
  sole _ _ _ live := nomatch live
  reached := nofun

end Sockets

namespace Flows

/-- What the call is for the sockets. -/
def sockCall (s : Flows) : FlowCall → SockCall
  | .qSocket core => .qSocket core
  | .qBind sockid addr => .qBind sockid addr.isSet
  | .qListen sockid inserted => .qListen sockid inserted
  | .qConnect sockid _ core room => .qConnect sockid core room
  | .syn core _ chunk => .passiveOpen core chunk
  | .connectCall core chunk => .connectCall core chunk
  | .destroy chunk => .destroy (s.home chunk) chunk

theorem sock_clearAddr (s : Flows) (id : Option Nat) : (s.clearAddr id).sock = s.sock := by
  cases id <;> rfl

theorem sock_tcpStreamCreate (s : Flows) (core id : Nat) (flow : Flow) (chunk : Option Nat) :
    (s.tcpStreamCreate core id flow chunk).sock = s.sock.tcpStreamCreate id chunk := by
  cases chunk <;> rfl

/-- **A call does to the sockets what it does in `SocketTable`**, but for a SYN whose stream is
found. -/
theorem step_sock (s : Flows) (call : FlowCall) :
    (s.step call).sock = s.sock ∨ (s.step call).sock = s.sock.step (s.sockCall call) := by
  unfold step Sockets.step
  rw [apply_ite Flows.sock]
  split
  · exact .inl rfl
  cases call with
  | qSocket core =>
      refine .inr ?_
      dsimp only [qSocket, sockCall, Sockets.qSocket]
      rw [sock_clearAddr]
  | qBind sockid addr => exact .inr rfl
  | qListen sockid inserted => exact .inr rfl
  | qConnect sockid addr core room =>
      refine .inr ?_
      dsimp only [sockCall]
      rw [apply_ite Flows.sock]
      rfl
  | syn core flow chunk =>
      dsimp only [sockCall]
      cases streamHTSearch (s.streamHt core) flow with
      | some _ => exact .inl rfl
      | none =>
          refine .inr ?_
          dsimp only
          rw [apply_ite Flows.sock]
          have opened : (s.handlePassiveOpen core flow chunk).sock =
              s.sock.handlePassiveOpen core chunk := by
            unfold handlePassiveOpen Sockets.handlePassiveOpen
            generalize s.sock.socketAlloc core .stream = result
            obtain ⟨id, t⟩ := result
            cases id with
            | none => rfl
            | some id => exact sock_tcpStreamCreate _ core id flow chunk
          rw [opened]
  | connectCall core chunk =>
      refine .inr ?_
      dsimp only [sockCall]
      cases s.sock.connectQueue core with
      | nil => rfl
      | cons id rest =>
          have served : ∀ t : Flows, (t.handleConnectCall core id chunk).sock =
              t.sock.handleConnectCall id chunk := by
            intro t
            unfold handleConnectCall Sockets.handleConnectCall
            rw [apply_ite Flows.sock, sock_tcpStreamCreate]
          dsimp only
          rw [apply_ite Flows.sock, served]
  | destroy chunk =>
      refine .inr ?_
      dsimp only [sockCall]
      rw [apply_ite Flows.sock]
      rfl

/-! ## The invariant -/

structure FlowInv (s : Flows) : Prop extends s.Tabled where
  sock : s.sock.unlisted.SockInv

section Inv

variable {s : Flows}

/-- The streams that the table holds, as a list. -/
theorem Tabled.live (tabled : s.Tabled) (core : Nat) :
    ∃ live : List Nat, live.Nodup ∧ (∀ c, c ∈ live ↔ s.On core c) ∧
      live.length = (s.streamHt core).keys.length := by
  have entry : ∀ e ∈ (s.streamHt core).entries, s.On core e.2 ∧ s.flow e.2 = e.1 :=
    fun e mem => (tabled.holds core e.1 e.2).mp (AList.mem_lookup_iff.mpr mem)
  refine ⟨(s.streamHt core).entries.map Sigma.snd, ?_, ?_, ?_⟩
  · apply List.Nodup.map_on _ (List.NodupKeys.nodup (s.streamHt core).nodupKeys)
    rintro ⟨flow, c⟩ mem ⟨flow', c'⟩ mem' same
    obtain rfl : c = c' := same
    have key : s.flow c = flow := (entry _ mem).2
    have key' : s.flow c = flow' := (entry _ mem').2
    rw [← key, ← key']
  · intro c
    rw [List.mem_map]
    constructor
    · rintro ⟨e, mem, rfl⟩
      exact (entry e mem).1
    · intro on
      have found := (tabled.holds core (s.flow c) c).mpr ⟨on, rfl⟩
      exact ⟨⟨s.flow c, c⟩, AList.mem_lookup_iff.mp found, rfl⟩
  · simp [AList.keys, List.keys]

theorem FlowInv.law (inv : s.FlowInv) (fits : ∀ core, s.entries core ≤ intMax) : s.FlowLaw where
  found core c on := (inv.holds core (s.flow c) c).mpr ⟨on, rfl⟩
  flows := by
    intro core c c' on on' same
    have found := (inv.holds core (s.flow c) c).mpr ⟨on, rfl⟩
    have found' := (inv.holds core (s.flow c) c').mpr ⟨on', same.symm⟩
    exact Option.some.inj (found.symm.trans found')
  sockets core c c' id on on' := inv.sock.sole c c' id on.1 on'.1
  counted := by
    intro core
    obtain ⟨live, nodup, mem, length⟩ := inv.toTabled.live core
    refine ⟨live, nodup, mem, ?_⟩
    have bounded := inv.bounded core
    have fit := fits core
    rw [inv.counted core, length, BitVec.toNat_ofNat, Nat.mod_eq_of_lt]
    unfold intMax at fit
    omega

/-- The sockets of a call that is allowed. -/
theorem FlowInv.next_sock (inv : s.FlowInv) {call : FlowCall} (ok : s.FlowOk call) :
    (s.step call).sock.unlisted.SockInv := by
  rcases step_sock s call with same | next
  · rw [same]
    exact inv.sock
  · rw [next, ← Sockets.step_unlisted]
    apply Sockets.step_inv inv.sock
    cases call with
    | qSocket | qBind | qListen | qConnect | syn => trivial
    | connectCall core chunk => exact fun id first => ⟨(ok id first).1, (ok id first).2.1⟩
    | destroy chunk => exact ok

/-- A stream is created for a four-tuple that is not in the table, or there was no chunk. -/
theorem Tabled.opened (tabled : s.Tabled) {core id : Nat} {flow : Flow} {chunk : Option Nat}
    (fresh : s.sock.Fresh chunk) (absent : (s.streamHt core).lookup flow = none)
    (room : s.Room core) : (s.tcpStreamCreate core id flow chunk).Tabled := by
  cases chunk with
  | none =>
      refine tabled.aside ?_ s.saddr s.daddr
      rfl
  | some c => exact tabled.create (fresh c rfl) (AList.lookup_eq_none.mp absent) room

theorem Tabled.clearAddr (tabled : s.Tabled) {sock : Sockets}
    (streams : sock.streams = s.sock.streams) (id : Option Nat) :
    ({ s with sock := sock }.clearAddr id).Tabled := by
  cases id with
  | none => exact tabled.aside streams s.saddr s.daddr
  | some id => exact tabled.aside streams _ _

theorem streams_socketAlloc (s : Sockets) (core : Nat) (socktype : SockType) :
    (s.socketAlloc core socktype).2.streams = s.streams := by
  rcases Sockets.socketAlloc_cases s core socktype with none | ⟨id, rest, -, some⟩
  · rw [none]
  · rw [some]

theorem step_tabled (tabled : s.Tabled) {call : FlowCall} (ok : s.FlowOk call) :
    (s.step call).Tabled := by
  unfold step
  split
  · exact tabled
  cases call with
  | qSocket core =>
      exact tabled.clearAddr (streams_socketAlloc s.sock core .stream) _
  | qBind sockid addr =>
      refine tabled.aside ?_ _ _
      dsimp only [Sockets.qBind]
      split <;> rfl
  | qListen sockid inserted =>
      refine tabled.aside ?_ _ _
      dsimp only [Sockets.qListen]
      split <;> rfl
  | qConnect sockid addr core room =>
      dsimp only
      split
      · refine tabled.aside ?_ _ _
        unfold Sockets.qConnect
        split
        · split
          · split <;> rfl
          · rfl
        · rfl
      · exact tabled
  | syn core flow chunk =>
      dsimp only
      cases found : streamHTSearch (s.streamHt core) flow with
      | some _ => exact tabled
      | none =>
          dsimp only
          split
          · rename_i opens
            have room := ok found
            have streams := streams_socketAlloc s.sock core .stream
            unfold handlePassiveOpen
            generalize s.sock.socketAlloc core .stream = result at streams ⊢
            obtain ⟨id, t⟩ := result
            cases id with
            | none =>
                refine tabled.aside ?_ s.saddr s.daddr
                exact streams
            | some id =>
                apply (tabled.clearAddr streams (some id)).opened
                · intro c is
                  rw [sock_clearAddr]
                  dsimp only at streams ⊢
                  rw [streams]
                  exact opens.2 c is
                · exact found
                · exact room
          · exact tabled
  | connectCall core chunk =>
      dsimp only
      cases queue : s.sock.connectQueue core with
      | nil => exact tabled
      | cons id rest =>
          dsimp only
          split
          · rename_i fresh
            obtain ⟨-, -, absent, room⟩ := ok id (by rw [queue]; rfl)
            have dequeued : Tabled { s with sock := { s.sock with
                connectQueue := Function.update s.sock.connectQueue core rest } } := by
              refine tabled.aside ?_ s.saddr s.daddr
              rfl
            unfold handleConnectCall
            split
            · exact dequeued.opened fresh absent room
            · refine tabled.aside ?_ s.saddr s.daddr
              rfl
          · exact tabled
  | destroy chunk =>
      dsimp only
      split
      · exact tabled.destroy ok
      · exact tabled

end Inv

theorem entries_tcpStreamCreate (s : Flows) (core id : Nat) (flow : Flow) (chunk : Option Nat) :
    (s.tcpStreamCreate core id flow chunk).entries = s.entries := by
  cases chunk <;> rfl

theorem entries_clearAddr (s : Flows) (id : Option Nat) : (s.clearAddr id).entries = s.entries := by
  cases id <;> rfl

/-- The size of the tables is fixed. -/
theorem entries_step (s : Flows) (call : FlowCall) : (s.step call).entries = s.entries := by
  unfold step
  split
  · rfl
  cases call with
  | qSocket core => exact entries_clearAddr _ _
  | qBind sockid addr => rfl
  | qListen sockid inserted => rfl
  | qConnect sockid addr core room =>
      dsimp only
      split <;> rfl
  | syn core flow chunk =>
      dsimp only
      split
      · rfl
      split
      · unfold handlePassiveOpen
        split
        · rfl
        · rw [entries_tcpStreamCreate, entries_clearAddr]
      · rfl
  | connectCall core chunk =>
      dsimp only
      split
      · rfl
      split
      · unfold handleConnectCall
        split
        · rw [entries_tcpStreamCreate]
        · rfl
      · rfl
  | destroy chunk =>
      dsimp only
      split <;> rfl

/-- **Over every sequence of calls that meets `FlowOk` the flow table is consistent**: every live
stream is found under its four-tuple, no two have the same four-tuple or the same socket, and
`flow_cnt` is their number. -/
theorem flows_consistent (stackThread maxSocketNum pubSocketNum maxConcurrency : Nat)
    (entries : Nat → Nat) (fits : ∀ core, entries core ≤ intMax) (calls : List FlowCall)
    (allowed : Lib.Run.Allowed step FlowOk
      (start stackThread maxSocketNum pubSocketNum maxConcurrency entries) calls) :
    Lib.Run.Along step FlowLaw
      (start stackThread maxSocketNum pubSocketNum maxConcurrency entries) calls := by
  have first : (start stackThread maxSocketNum pubSocketNum maxConcurrency entries).FlowInv := by
    refine ⟨⟨?_, fun _ => rfl, fun _ => Nat.zero_le _⟩, Sockets.init_unlisted _ _ _ _⟩
    intro core flow c
    constructor
    · intro found
      cases found
    · rintro ⟨⟨live, -⟩, -⟩
      cases live
  have kept : ∀ (s : Flows) call, (s.FlowInv ∧ s.entries = entries) → s.FlowOk call →
      (s.step call).FlowInv ∧ (s.step call).entries = entries := by
    rintro s call ⟨inv, size⟩ ok
    exact ⟨⟨step_tabled inv.toTabled ok, inv.next_sock ok⟩, (entries_step s call).trans size⟩
  have lawful : ∀ s : Flows, (s.FlowInv ∧ s.entries = entries) → s.FlowLaw := by
    rintro s ⟨inv, size⟩
    exact inv.law (by rw [size]; exact fits)
  apply Lib.Run.Along.mono lawful
  exact Lib.Run.along_of_step kept calls _ ⟨first, rfl⟩ allowed

instance FlowOk.decidable (s : Flows) : ∀ call : FlowCall, Decidable (s.FlowOk call)
  | .syn _ _ _ => inferInstanceAs (Decidable (_ = none → _ < _))
  | .connectCall core _ =>
      inferInstanceAs (Decidable (∀ id ∈ (s.sock.connectQueue core).head?,
        _ ≠ _ ∧ _ = _ ∧ _ = none ∧ _ < _))
  | .destroy _ => inferInstanceAs (Decidable (_ = true))
  | .qSocket _ | .qBind _ _ | .qListen _ _ | .qConnect _ _ _ _ => .isTrue trivial

/-- The address of a client, and a server. -/
def clientAddr : SockAddr := ⟨10, 2000⟩

def serverAddr : SockAddr := ⟨20, 80⟩

/-- A client connects, a SYN arrives, and the first stream is destroyed. -/
def connectsOnce : List FlowCall :=
  [.qSocket 0, .qBind 0 clientAddr, .qConnect 0 serverAddr 0 true, .connectCall 0 (some 7),
    .syn 0 ⟨⟨10, 80⟩, ⟨30, 4000⟩⟩ (some 8), .destroy 7]

theorem flows_consistent_client :
    Lib.Run.Along step FlowLaw (start 1 8 0 8 fun _ => 100) connectsOnce :=
  flows_consistent 1 8 0 8 (fun _ => 100) (fun _ => by decide) connectsOnce (by decide +kernel)

/-- **`q_connect` twice, before the first call is served**: the second stream takes the place of the
first in the table.  **A full table**: the stream of the second SYN is not found. -/
theorem flow_not_found :
    ¬ FlowLaw (Lib.Run.run step (start 1 8 0 8 fun _ => 100)
        [.qSocket 0, .qBind 0 clientAddr, .qConnect 0 serverAddr 0 true,
          .qConnect 0 serverAddr 0 true, .connectCall 0 (some 7), .connectCall 0 (some 8)]) ∧
      ¬ FlowLaw (Lib.Run.run step (start 1 8 0 8 fun _ => 1)
        [.syn 0 ⟨⟨10, 80⟩, ⟨30, 4000⟩⟩ (some 7), .syn 0 ⟨⟨10, 80⟩, ⟨30, 4001⟩⟩ (some 8)]) := by
  constructor
  · intro law
    exact absurd (law.found 0 7 ⟨by decide +kernel, by decide +kernel⟩) (by decide +kernel)
  · intro law
    exact absurd (law.found 0 8 ⟨by decide +kernel, by decide +kernel⟩) (by decide +kernel)

end Flows

end QStack
