/-
# QStack.ListenConnect -- q_listen and q_connect, with all their error exits

`q_listen` makes the socket a listener before it looks at the backlog, the port and the listener
pool, and hangs the new listener on the socket before it looks for room in the listener table.
`q_connect` stores the destination before it looks for room in the connect queue.  None of the
later exits takes these changes back.

`atomic_on_error` says exactly which failed calls leave everything as it was.  What comes out of
the listener pool and where a connection is served is up to the rest (`Mempool`, `softrss`).
-/
import QStack.SocketTable
import QStack.TxRing
import QStack.TcpOut

namespace QStack

set_option autoImplicit false

/-- `struct sockaddr_in`, in network order -/
structure SockaddrIn where
  sinPort : BitVec 16
  sAddr : BitVec 32
deriving DecidableEq, Repr

def inportAny : BitVec 16 := 0

def inaddrAny : BitVec 32 := 0

def sockOptAddrBind : BitVec 32 := 2

def ApiCtx.qEpollin : BitVec 32 := 1

inductive Errno where
  | ebadf | enotsock | einval | eaddrinuse | efault | eafnosupport | eisconn | ealready | eagain
  | einprogress
deriving DecidableEq, Repr

/-- `mempool_alloc_chunk` and `mempool_free_chunk` of a pool in state `π`, by the core. -/
structure Mempool (π χ : Type) where
  alloc : Nat → π → Option (χ × π)
  free : Nat → χ → π → π

/-- The pointer that is `stream` or `listener` of a socket. -/
inductive SocketPtr (χ : Type) where
  | stream (chunk : Nat)
  | listener (chunk : χ)
deriving DecidableEq, Repr

/-- `struct socket` -/
structure ApiSocket (χ : Type) where
  socktype : SockType := .unused
  opts : BitVec 32 := 0
  epoll : BitVec 32 := 0
  ptr : Option (SocketPtr χ) := none
  saddr : SockaddrIn := ⟨0, 0⟩
  daddr : SockaddrIn := ⟨0, 0⟩
deriving DecidableEq, Repr

/-- `struct tcp_listener` -/
structure TcpListener (χ : Type) where
  chunk : χ
  sockid : Nat
  backlog : Int
  port : BitVec 16
  acceptPoint : Nat := 0
deriving DecidableEq, Repr

/-- What the two calls reach from the global context. -/
structure ApiCtx (π χ : Type) where
  maxConcurrency : Nat
  maxSocketNum : Nat
  stackThread : Nat
  sockets : Nat → ApiSocket χ
  /-- `listeners->table[0..num)` -/
  listeners : List (TcpListener χ) := []
  mpListener : π
  /-- `connect_queue` of every stack, with a queue for every core -/
  connectQueue : Nat → Nat → CircularQueue Nat
  /-- `state` where a pointer leads to -/
  streamState : SocketPtr χ → TcpState
  /-- `rte_softrss` of the two addresses -/
  softrss : SockaddrIn → SockaddrIn → Nat

/-- What a call returns and sets `errno` to; no result where the process ends. -/
structure ApiReturn where
  ret : Option Int
  errno : Option Errno := none
deriving DecidableEq, Repr

/-- The swap of two bytes. -/
def ntohs (x : BitVec 16) : BitVec 16 := (x >>> 8) ||| (x <<< 8)

namespace ApiCtx

variable {π χ : Type}

def setSocket (s : ApiCtx π χ) (id : Nat) (socket : ApiSocket χ) : ApiCtx π χ :=
  { s with sockets := Function.update s.sockets id socket }

def listenersSearch (s : ApiCtx π χ) (port : BitVec 16) : Option (TcpListener χ) :=
  s.listeners.find? fun listener => (s.sockets listener.sockid).saddr.sinPort == port

def listenersInsert (listener : TcpListener χ) (s : ApiCtx π χ) : Int × ApiCtx π χ :=
  if s.listeners.length < s.maxSocketNum then
    (success, { s with listeners := s.listeners ++ [listener] })
  else (failed, s)

/-- `get_rss_core` -/
def getRssCore (s : ApiCtx π χ) (saddr daddr : SockaddrIn) : Nat :=
  s.softrss saddr daddr % s.stackThread

/-- `q_listen` from the new listener on. -/
def insertListener (mp : Mempool π χ) (app : Option Nat) (id : Nat) (backlog : Int) (chunk : χ)
    (s : ApiCtx π χ) : ApiReturn × ApiCtx π χ :=
  let socket := s.sockets id
  let listener : TcpListener χ :=
    { chunk := chunk, sockid := id, backlog := backlog, port := ntohs socket.saddr.sinPort }
  let s := s.setSocket id
    { socket with epoll := socket.epoll ||| qEpollin, ptr := some (.listener chunk) }
  match s.listenersInsert listener with
  | (ret, s) =>
      if ret ≠ success then
        match app with
        | none => (⟨none, none⟩, s)
        | some coreId => (⟨some (-1), none⟩, { s with mpListener := mp.free coreId chunk s.mpListener })
      else (⟨some 0, none⟩, s)

/-- `app` is the core of the application, if one is passed. -/
def qListen (mp : Mempool π χ) (app : Option Nat) (sockid backlog : Int) (s : ApiCtx π χ) :
    ApiReturn × ApiCtx π χ :=
  if sockid < 0 ∨ s.maxConcurrency ≤ sockid then (⟨some (-1), some .ebadf⟩, s)
  else
    let id := sockid.toNat
    let socket := s.sockets id
    if socket.socktype = .unused then (⟨some (-1), some .ebadf⟩, s)
    else
      let s :=
        if socket.socktype = .stream then s.setSocket id { socket with socktype := .listener }
        else s
      if (s.sockets id).socktype ≠ .listener then (⟨some (-1), some .enotsock⟩, s)
      else if backlog ≤ 0 ∨ s.maxConcurrency < backlog then (⟨some (-1), some .einval⟩, s)
      else if (s.listenersSearch (s.sockets id).saddr.sinPort).isSome then
        (⟨some (-1), some .eaddrinuse⟩, s)
      else
        match mp.alloc 0 s.mpListener with
        | none => (⟨some (-1), none⟩, s)
        | some (chunk, pool) => { s with mpListener := pool }.insertListener mp app id backlog chunk

/-- The destination of a `q_connect`. -/
structure ConnectAddr where
  addr : SockaddrIn
  /-- `sa_family == AF_INET` and `addrlen` covers a `sockaddr_in` -/
  inet : Bool := true
deriving DecidableEq, Repr

def qConnect (app : Option Nat) (sockid : Int) (addr : Option ConnectAddr) (s : ApiCtx π χ) :
    ApiReturn × ApiCtx π χ :=
  if sockid < 0 ∨ s.maxConcurrency ≤ sockid then (⟨some error, some .ebadf⟩, s)
  else
    let id := sockid.toNat
    let socket := s.sockets id
    if socket.socktype = .unused then (⟨some failed, some .ebadf⟩, s)
    else if socket.socktype ≠ .stream then (⟨some failed, some .enotsock⟩, s)
    else
      match addr with
      | none => (⟨some error, some .efault⟩, s)
      | some addr =>
          if !addr.inet then (⟨some failed, some .eafnosupport⟩, s)
          else
            match socket.ptr with
            | some ptr =>
                if TcpState.established.val ≤ (s.streamState ptr).val then
                  (⟨some failed, some .eisconn⟩, s)
                else (⟨some failed, some .ealready⟩, s)
            | none =>
                let s := s.setSocket id { socket with daddr := addr.addr }
                if socket.opts &&& sockOptAddrBind ≠ 0 ∧ socket.saddr.sinPort ≠ inportAny ∧
                    socket.saddr.sAddr ≠ inaddrAny then
                  let rssCore := s.getRssCore socket.saddr addr.addr
                  match app with
                  | none => (⟨none, none⟩, s)
                  | some coreId =>
                      match (s.connectQueue rssCore coreId).cirqAdd id with
                      | (ret, q) =>
                          if ret < 0 then (⟨some failed, some .eagain⟩, s)
                          else
                            (⟨some success, some .einprogress⟩,
                              { s with
                                connectQueue := Function.update s.connectQueue rssCore
                                  (Function.update (s.connectQueue rssCore) coreId q) })
                else (⟨none, none⟩, s)

/-! ## The law -/

inductive Call where
  | qListen (app : Option Nat) (sockid backlog : Int)
  | qConnect (app : Option Nat) (sockid : Int) (addr : Option ConnectAddr)

def call (mp : Mempool π χ) (s : ApiCtx π χ) : Call → ApiReturn × ApiCtx π χ
  | .qListen app sockid backlog => s.qListen mp app sockid backlog
  | .qConnect app sockid addr => s.qConnect app sockid addr

/-- A call that returns an error leaves everything as it was, for the application and for every
later call. -/
def Atomic (mp : Mempool π χ) (s : ApiCtx π χ) (c : Call) : Prop :=
  ∀ ret, (s.call mp c).1.ret = some ret → ret < 0 → (s.call mp c).2 = s

/-- `q_listen` is refused after it has made the socket a listener. -/
def ListenRefused (mp : Mempool π χ) (s : ApiCtx π χ) (id : Nat) (backlog : Int) : Prop :=
  backlog ≤ 0 ∨ s.maxConcurrency < backlog ∨
    (s.listenersSearch (s.sockets id).saddr.sinPort).isSome = true ∨
    mp.alloc 0 s.mpListener = none

/-- The socket already is what a `q_listen` that finds the table full leaves of it, and the pool
takes the chunk back to where it was. -/
def LeftListening (mp : Mempool π χ) (s : ApiCtx π χ) (coreId id : Nat) : Prop :=
  ∃ chunk pool, mp.alloc 0 s.mpListener = some (chunk, pool) ∧
    mp.free coreId chunk pool = s.mpListener ∧ (s.sockets id).socktype = .listener ∧
    (s.sockets id).epoll ||| qEpollin = (s.sockets id).epoll ∧
    (s.sockets id).ptr = some (.listener chunk)

/-- The socket is no stream socket any more when `q_listen` is refused, and the table has room when
it is not. -/
def ListenOk (mp : Mempool π χ) (s : ApiCtx π χ) (app : Option Nat) (id : Nat) (backlog : Int) :
    Prop :=
  (ListenRefused mp s id backlog → (s.sockets id).socktype ≠ .stream) ∧
    (¬ ListenRefused mp s id backlog → s.maxSocketNum ≤ s.listeners.length →
      ∀ coreId, app = some coreId → LeftListening mp s coreId id)

/-- `q_connect` comes as far as the connect queue. -/
structure Connects (s : ApiCtx π χ) (id : Nat) (addr : ConnectAddr) : Prop where
  stream : (s.sockets id).socktype = .stream
  inet : addr.inet = true
  free : (s.sockets id).ptr = none
  bound : (s.sockets id).opts &&& sockOptAddrBind ≠ 0 ∧
    (s.sockets id).saddr.sinPort ≠ inportAny ∧ (s.sockets id).saddr.sAddr ≠ inaddrAny

/-- The queue has room, or the destination is the one the socket has. -/
def ConnectOk (s : ApiCtx π χ) (coreId id : Nat) (addr : ConnectAddr) : Prop :=
  (s.connectQueue (s.getRssCore (s.sockets id).saddr addr.addr) coreId).cirqFull = false ∨
    (s.sockets id).daddr = addr.addr

/-- The condition; it asks nothing of a socket that does not exist. -/
def CallOk (mp : Mempool π χ) (s : ApiCtx π χ) : Call → Prop
  | .qListen app sockid backlog =>
      0 ≤ sockid → sockid < s.maxConcurrency → (s.sockets sockid.toNat).socktype ≠ .unused →
        ListenOk mp s app sockid.toNat backlog
  | .qConnect app sockid addr =>
      0 ≤ sockid → sockid < s.maxConcurrency → ∀ coreId addr', app = some coreId →
        addr = some addr' → Connects s sockid.toNat addr' →
          ConnectOk s coreId sockid.toNat addr'

/-! ## What a call changes -/

section Changes

variable {mp : Mempool π χ} {s : ApiCtx π χ} {id : Nat}

theorem setSocket_eq_iff (s : ApiCtx π χ) (id : Nat) (socket : ApiSocket χ) :
    s.setSocket id socket = s ↔ s.sockets id = socket := by
  constructor
  · intro same
    rw [← same]
    exact Function.update_self _ _ _
  · rintro rfl
    unfold setSocket
    rw [Function.update_eq_self]

theorem setSocket_pool_eq_iff (s : ApiCtx π χ) (id : Nat) (socket : ApiSocket χ) (pool : π) :
    { s.setSocket id socket with mpListener := pool } = s ↔
      s.sockets id = socket ∧ pool = s.mpListener := by
  constructor
  · intro same
    refine ⟨?_, congrArg ApiCtx.mpListener same⟩
    have sockets := congrFun (congrArg ApiCtx.sockets same) id
    exact sockets.symm.trans (Function.update_self _ _ _)
  · rintro ⟨same, rfl⟩
    exact (setSocket_eq_iff s id socket).mpr same

/-- The socket a `q_listen` has left behind the checks of the type. -/
def asListener (socket : ApiSocket χ) : ApiSocket χ :=
  if socket.socktype = .stream then { socket with socktype := .listener } else socket

theorem asListener_eq_iff (socket : ApiSocket χ) :
    socket = asListener socket ↔ socket.socktype ≠ .stream := by
  unfold asListener
  split
  · rename_i stream
    constructor
    · intro same
      have types := congrArg ApiSocket.socktype same
      rw [stream] at types
      cases types
    · exact fun other => absurd stream other
  · rename_i other
    exact ⟨fun _ => other, fun _ => rfl⟩

/-- `q_listen` of a socket in use, once the type is changed. -/
theorem qListen_used (app : Option Nat) {sockid backlog : Int}
    (inside : ¬ (sockid < 0 ∨ s.maxConcurrency ≤ sockid))
    (used : (s.sockets sockid.toNat).socktype ≠ .unused) :
    let s' := s.setSocket sockid.toNat (asListener (s.sockets sockid.toNat))
    s.qListen mp app sockid backlog =
      if backlog ≤ 0 ∨ s.maxConcurrency < backlog then (⟨some (-1), some .einval⟩, s')
      else if (s.listenersSearch (s.sockets sockid.toNat).saddr.sinPort).isSome then
        (⟨some (-1), some .eaddrinuse⟩, s')
      else
        match mp.alloc 0 s.mpListener with
        | none => (⟨some (-1), none⟩, s')
        | some (chunk, pool) =>
            { s' with mpListener := pool }.insertListener mp app sockid.toNat backlog chunk := by
  dsimp only
  have changed : (if (s.sockets sockid.toNat).socktype = .stream then
      s.setSocket sockid.toNat { s.sockets sockid.toNat with socktype := .listener } else s) =
      s.setSocket sockid.toNat (asListener (s.sockets sockid.toNat)) := by
    unfold asListener
    split
    · rfl
    · exact ((setSocket_eq_iff s _ _).mpr rfl).symm
  have self : (s.setSocket sockid.toNat (asListener (s.sockets sockid.toNat))).sockets
      sockid.toNat = asListener (s.sockets sockid.toNat) := Function.update_self _ _ _
  have listener : (asListener (s.sockets sockid.toNat)).socktype = .listener := by
    unfold asListener
    split
    · rfl
    · rename_i other
      cases type : (s.sockets sockid.toNat).socktype with
      | unused => exact absurd type used
      | stream => exact absurd type other
      | listener => rfl
  have saddr : (asListener (s.sockets sockid.toNat)).saddr = (s.sockets sockid.toNat).saddr := by
    unfold asListener
    split <;> rfl
  have search : ∀ port, (s.setSocket sockid.toNat (asListener (s.sockets sockid.toNat))).listenersSearch
      port = s.listenersSearch port := by
    intro port
    refine congrArg (fun p => List.find? p s.listeners) (funext fun l => ?_)
    by_cases here : l.sockid = sockid.toNat
    · rw [here, self, saddr]
    · change ((Function.update s.sockets _ _ l.sockid).saddr.sinPort == port) = _
      rw [Function.update_of_ne here]
  unfold qListen
  dsimp only
  rw [if_neg inside, if_neg used, changed, self, search, saddr,
    if_neg (not_not.mpr listener)]
  rfl

end Changes

section Law

variable {mp : Mempool π χ} {s : ApiCtx π χ}

/-- The socket with a new listener. -/
def listening (chunk : χ) (socket : ApiSocket χ) : ApiSocket χ :=
  { socket with epoll := socket.epoll ||| qEpollin, ptr := some (.listener chunk) }

theorem listenersInsert_room (listener : TcpListener χ)
    (room : s.listeners.length < s.maxSocketNum) :
    s.listenersInsert listener =
      (success, { s with listeners := s.listeners ++ [listener] }) := if_pos room

theorem listenersInsert_full (listener : TcpListener χ)
    (full : ¬ s.listeners.length < s.maxSocketNum) :
    s.listenersInsert listener = (failed, s) := if_neg full

theorem insertListener_room (app : Option Nat) (id : Nat) (backlog : Int) (chunk : χ)
    (room : s.listeners.length < s.maxSocketNum) :
    (s.insertListener mp app id backlog chunk).1.ret = some 0 := by
  unfold insertListener
  dsimp only
  rw [listenersInsert_room _ (by exact room)]
  rfl

theorem insertListener_full (app : Option Nat) (id : Nat) (backlog : Int) (chunk : χ)
    (full : ¬ s.listeners.length < s.maxSocketNum) :
    s.insertListener mp app id backlog chunk =
      match app with
      | none => (⟨none, none⟩, s.setSocket id (listening chunk (s.sockets id)))
      | some coreId =>
          (⟨some (-1), none⟩,
            { s.setSocket id (listening chunk (s.sockets id)) with
              mpListener := mp.free coreId chunk s.mpListener }) := by
  unfold insertListener
  dsimp only
  rw [listenersInsert_full _ (by exact full)]
  rfl

/-- Both changes of `q_listen` to the socket leave it as it was. -/
theorem listening_eq_iff (chunk : χ) (socket : ApiSocket χ) (used : socket.socktype ≠ .unused) :
    listening chunk (asListener socket) = socket ↔
      socket.socktype = .listener ∧ socket.epoll ||| qEpollin = socket.epoll ∧
        socket.ptr = some (.listener chunk) := by
  obtain ⟨socktype, opts, epoll, ptr, saddr, daddr⟩ := socket
  cases socktype with
  | unused => exact absurd rfl used
  | stream => simp [listening, asListener]
  | listener => simp [listening, asListener, eq_comm]

/-- From the new listener on: success, or the table is full. -/
theorem insertListener_atomic (app : Option Nat) (id : Nat) (backlog : Int) {chunk : χ} {pool : π}
    (got : mp.alloc 0 s.mpListener = some (chunk, pool))
    (used : (s.sockets id).socktype ≠ .unused) {s' : ApiCtx π χ}
    (changed : s' = { s.setSocket id (asListener (s.sockets id)) with mpListener := pool }) :
    (∀ ret, (s'.insertListener mp app id backlog chunk).1.ret = some ret → ret < 0 →
      (s'.insertListener mp app id backlog chunk).2 = s) ↔
      (s.maxSocketNum ≤ s.listeners.length →
        ∀ coreId, app = some coreId → LeftListening mp s coreId id) := by
  by_cases room : s.listeners.length < s.maxSocketNum
  · have returned : (s'.insertListener mp app id backlog chunk).1.ret = some 0 :=
      insertListener_room app id backlog chunk (by rw [changed]; exact room)
    rw [returned]
    constructor
    · exact fun _ full => absurd full (Nat.not_le.mpr room)
    · rintro - ret same negative
      obtain rfl := Option.some.inj same
      exact absurd negative (by decide)
  · have full : ¬ s'.listeners.length < s'.maxSocketNum := by
      rw [changed]
      exact room
    cases app with
    | none =>
        rw [insertListener_full none id backlog chunk full]
        constructor
        · intro _ _ coreId app
          cases app
        · intro _ ret none
          cases none
    | some coreId =>
        rw [insertListener_full (some coreId) id backlog chunk full]
        dsimp only
        have whole : { s'.setSocket id (listening chunk (s'.sockets id)) with
            mpListener := mp.free coreId chunk s'.mpListener } = s ↔
            LeftListening mp s coreId id := by
          have self : s'.sockets id = asListener (s.sockets id) := by
            rw [changed]
            exact Function.update_self _ _ _
          have over_ : { s'.setSocket id (listening chunk (s'.sockets id)) with
              mpListener := mp.free coreId chunk s'.mpListener } =
              { s.setSocket id (listening chunk (asListener (s.sockets id))) with
                mpListener := mp.free coreId chunk pool } := by
            rw [self, changed]
            unfold setSocket
            dsimp only
            rw [Function.update_idem]
          rw [over_]
          rw [setSocket_pool_eq_iff, eq_comm, listening_eq_iff chunk _ used]
          constructor
          · rintro ⟨⟨listener, epoll, ptr⟩, back⟩
            exact ⟨chunk, pool, got, back, listener, epoll, ptr⟩
          · rintro ⟨chunk', pool', got', back, listener, epoll, ptr⟩
            obtain ⟨rfl, rfl⟩ := Prod.mk.inj (Option.some.inj (got.symm.trans got'))
            exact ⟨⟨listener, epoll, ptr⟩, back⟩
        constructor
        · intro atomic _ coreId' same
          obtain rfl := Option.some.inj same
          exact whole.mp (atomic (-1) rfl (by decide))
        · intro left ret _ _
          exact whole.mpr (left (Nat.le_of_not_lt room) coreId rfl)

theorem listen_atomic (app : Option Nat) {sockid backlog : Int}
    (inside : ¬ (sockid < 0 ∨ s.maxConcurrency ≤ sockid))
    (used : (s.sockets sockid.toNat).socktype ≠ .unused) :
    Atomic mp s (.qListen app sockid backlog) ↔ ListenOk mp s app sockid.toNat backlog := by
  have went := @qListen_used _ _ mp s app sockid backlog inside used
  dsimp only at went
  unfold Atomic
  rw [call, went]
  have refusal : (∀ ret, (some (-1 : Int)) = some ret → ret < 0 →
      s.setSocket sockid.toNat (asListener (s.sockets sockid.toNat)) = s) ↔
      (s.sockets sockid.toNat).socktype ≠ .stream := by
    rw [setSocket_eq_iff, asListener_eq_iff]
    exact ⟨fun atomic => atomic (-1) rfl (by decide), fun other _ _ _ => other⟩
  have refused_iff : ListenRefused mp s sockid.toNat backlog →
      ((s.sockets sockid.toNat).socktype ≠ .stream ↔ ListenOk mp s app sockid.toNat backlog) :=
    fun refused => ⟨fun other => ⟨fun _ => other, fun passes => absurd refused passes⟩,
      fun ok => ok.1 refused⟩
  by_cases bad : backlog ≤ 0 ∨ s.maxConcurrency < backlog
  · rw [if_pos bad]
    exact refusal.trans (refused_iff (bad.imp_right .inl))
  rw [if_neg bad]
  rw [not_or] at bad
  by_cases taken : (s.listenersSearch (s.sockets sockid.toNat).saddr.sinPort).isSome = true
  · rw [if_pos taken]
    exact refusal.trans (refused_iff (.inr (.inr (.inl taken))))
  rw [if_neg taken]
  cases got : mp.alloc 0 s.mpListener with
  | none => exact refusal.trans (refused_iff (.inr (.inr (.inr got))))
  | some result =>
      obtain ⟨chunk, pool⟩ := result
      dsimp only
      have passes : ¬ ListenRefused mp s sockid.toNat backlog := by
        rintro (low | high | used_ | empty)
        · exact bad.1 low
        · exact bad.2 high
        · exact taken used_
        · rw [got] at empty
          cases empty
      rw [insertListener_atomic app sockid.toNat backlog got used rfl]
      exact ⟨fun ok => ⟨fun refused => absurd refused passes, fun _ => ok⟩,
        fun ok => ok.2 passes⟩

/-- `q_connect` of a call that comes as far as the queue. -/
theorem qConnect_connects {coreId : Nat} {sockid : Int} {addr : ConnectAddr}
    (inside : ¬ (sockid < 0 ∨ s.maxConcurrency ≤ sockid))
    (connects : Connects s sockid.toNat addr) :
    let socket := s.sockets sockid.toNat
    let q := s.connectQueue (s.getRssCore socket.saddr addr.addr) coreId
    ((q.cirqFull = true → (s.qConnect (some coreId) sockid (some addr)).1.ret = some failed ∧
        (s.qConnect (some coreId) sockid (some addr)).2 =
          s.setSocket sockid.toNat { socket with daddr := addr.addr }) ∧
      (q.cirqFull = false →
        (s.qConnect (some coreId) sockid (some addr)).1.ret = some success)) := by
  dsimp only
  have used : (s.sockets sockid.toNat).socktype ≠ .unused := by
    rw [connects.stream]
    decide
  unfold qConnect
  dsimp only
  rw [if_neg inside, if_neg used, if_neg (not_not.mpr connects.stream), connects.inet,
    connects.free]
  dsimp only
  rw [if_neg (by decide), if_pos connects.bound]
  constructor
  · intro full
    rw [CircularQueue.cirqAdd_full (by exact full)]
    exact ⟨rfl, rfl⟩
  · intro room
    rw [CircularQueue.cirqAdd_room (by exact room)]
    rfl

/-- A `q_connect` that does not come that far changes nothing, or ends the process. -/
theorem qConnect_refused {app : Option Nat} {sockid : Int} {addr : Option ConnectAddr}
    (short : ∀ addr', addr = some addr' → app.isSome = true →
      ¬ Connects s sockid.toNat addr') :
    (s.qConnect app sockid addr).1.ret = none ∨ (s.qConnect app sockid addr).2 = s := by
  unfold qConnect
  dsimp only
  split
  · exact .inr rfl
  split
  · exact .inr rfl
  split
  · exact .inr rfl
  rename_i stream
  cases addr with
  | none => exact .inr rfl
  | some addr =>
      dsimp only
      split
      · exact .inr rfl
      rename_i inet
      split
      · split
        · exact .inr rfl
        · exact .inr rfl
      · rename_i free
        split
        · rename_i bound
          cases app with
          | none => exact .inl rfl
          | some coreId =>
              refine absurd ⟨not_not.mp stream, ?_, free, bound⟩ (short addr rfl rfl)
              simpa using inet
        · exact .inl rfl

theorem connect_atomic (app : Option Nat) {sockid : Int} (addr : Option ConnectAddr)
    (inside : ¬ (sockid < 0 ∨ s.maxConcurrency ≤ sockid)) :
    Atomic mp s (.qConnect app sockid addr) ↔
      ∀ coreId addr', app = some coreId → addr = some addr' → Connects s sockid.toNat addr' →
        ConnectOk s coreId sockid.toNat addr' := by
  unfold Atomic
  rw [call]
  by_cases short : ∀ addr', addr = some addr' → app.isSome = true →
      ¬ Connects s sockid.toNat addr'
  · constructor
    · intro _ coreId addr' here there connects
      exact absurd connects (short addr' there (by rw [here]; rfl))
    · intro _ ret returned _
      rcases qConnect_refused short with none | same
      · rw [returned] at none
        cases none
      · exact same
  · push Not at short
    obtain ⟨addr', rfl, here, connects⟩ := short
    obtain ⟨coreId, rfl⟩ := Option.isSome_iff_exists.mp here
    obtain ⟨full, room⟩ := @qConnect_connects _ _ s coreId sockid _ inside connects
    have daddr : s.setSocket sockid.toNat { s.sockets sockid.toNat with daddr := addr'.addr } = s ↔
        (s.sockets sockid.toNat).daddr = addr'.addr := by
      rw [setSocket_eq_iff]
      exact ⟨fun same => congrArg ApiSocket.daddr same, fun same => by rw [← same]⟩
    constructor
    · rintro atomic coreId' addr'' same same' -
      obtain rfl := Option.some.inj same
      obtain rfl := Option.some.inj same'
      unfold ConnectOk
      cases state : (s.connectQueue (s.getRssCore (s.sockets sockid.toNat).saddr addr'.addr)
        coreId).cirqFull with
      | false => exact .inl rfl
      | true =>
          obtain ⟨returned, left⟩ := full state
          have same := atomic failed returned (by decide)
          rw [left] at same
          exact .inr (daddr.mp same)
    · intro ok ret returned negative
      rcases ok coreId addr' rfl rfl connects with free | same
      · rw [room free] at returned
        obtain rfl := Option.some.inj returned
        exact absurd negative (by decide)
      · cases state : (s.connectQueue (s.getRssCore (s.sockets sockid.toNat).saddr addr'.addr)
          coreId).cirqFull with
        | false =>
            rw [room state] at returned
            obtain rfl := Option.some.inj returned
            exact absurd negative (by decide)
        | true =>
            rw [(full state).2]
            exact daddr.mpr same

/-- **Atomic on error.**  A failed `q_listen` leaves everything as it was exactly when it is refused
for a socket that is not a stream socket any more, or finds the listener table full with the socket
left so before; a failed `q_connect`, when the connect queue has room or the destination is that of
the socket. -/
theorem atomic_on_error (mp : Mempool π χ) (s : ApiCtx π χ) (c : Call) :
    Atomic mp s c ↔ CallOk mp s c := by
  cases c with
  | qListen app sockid backlog =>
      by_cases inside : sockid < 0 ∨ s.maxConcurrency ≤ sockid
      · have went : s.qListen mp app sockid backlog = (⟨some (-1), some .ebadf⟩, s) :=
          if_pos inside
        refine iff_of_true (fun ret _ _ => by rw [call, went]) fun low high => ?_
        omega
      by_cases used : (s.sockets sockid.toNat).socktype = .unused
      · have went : s.qListen mp app sockid backlog = (⟨some (-1), some .ebadf⟩, s) :=
          (if_neg inside).trans (if_pos used)
        exact iff_of_true (fun ret _ _ => by rw [call, went]) fun _ _ other => absurd used other
      · rw [listen_atomic app inside used, CallOk]
        exact ⟨fun ok _ _ _ => ok, fun ok => ok (by omega) (by omega) used⟩
  | qConnect app sockid addr =>
      by_cases inside : sockid < 0 ∨ s.maxConcurrency ≤ sockid
      · have went : s.qConnect app sockid addr = (⟨some error, some .ebadf⟩, s) :=
          if_pos inside
        refine iff_of_true (fun ret _ _ => by rw [call, went]) fun low high => ?_
        omega
      · rw [connect_atomic app addr inside, CallOk]
        exact ⟨fun ok _ _ => ok, fun ok => ok (by omega) (by omega)⟩

end Law

/-! ## A listener that is none -/

/-- A pool of numbered chunks that gives the latest back first. -/
def stackPool : Mempool (List Nat) Nat where
  alloc := fun _ pool => pool.head?.map fun chunk => (chunk, pool.tail)
  free := fun _ chunk pool => chunk :: pool

/-- Socket 3 is a bound stream socket. -/
def bound : ApiCtx (List Nat) Nat :=
  { maxConcurrency := 8, maxSocketNum := 8, stackThread := 1
    sockets := fun id =>
      if id = 3 then { socktype := .stream, opts := sockOptAddrBind, saddr := ⟨80, 1⟩ } else {}
    mpListener := [0, 1]
    connectQueue := fun _ _ => CircularQueue.cirqInit 8
    streamState := fun _ => .closed
    softrss := fun _ _ => 0 }

/-- `q_listen` with backlog 0 fails, and the socket cannot be connected any more. -/
theorem refused_listener :
    (bound.qListen stackPool (some 0) 3 0).1 = ⟨some (-1), some .einval⟩ ∧
      (bound.qConnect (some 0) 3 (some ⟨⟨80, 2⟩, true⟩)).1 = ⟨some success, some .einprogress⟩ ∧
      ((bound.qListen stackPool (some 0) 3 0).2.qConnect (some 0) 3 (some ⟨⟨80, 2⟩, true⟩)).1 =
        ⟨some failed, some .enotsock⟩ ∧
      ¬ Atomic stackPool bound (.qListen (some 0) 3 0) := by
  refine ⟨by decide, by decide, by decide, fun atomic => ?_⟩
  have same := congrArg (fun s => (s.sockets 3).socktype) (atomic (-1) (by decide) (by decide))
  revert same
  decide

end ApiCtx

end QStack
