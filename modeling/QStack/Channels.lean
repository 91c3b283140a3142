/-
# QStack.Channels -- one array of channels, and three formulas for it

`q_alloc_achan` makes one array of `2 * num_stack * num_server` channels.  `q_init_manager` cuts it
into pieces of `num_stack`, two for each application: `sq_chan`, for the events of the stacks, and
`qs_chan`, for the events the application raises itself.  `AddTimeEvent` indexes a piece by the core
of a stack or by `sockid % num_stack`, and checks `src`, `dst` and `id` as `q_alloc_achan` wrote
them; `qepoll_wait` goes over both pieces of its application.

The three agree (`channels_law`): over every run the checks succeed, and the channel an event goes
to is one that its destination reads, and nobody else.  The destination may be the one that
`reg[sockid]` has kept from an earlier event; `Registered` is the invariant that carries it.
`qepoll_wait` refuses the id of an application from `MAX_SERVER_NUM` on, so that the events for
such a one are read by nobody (`beyond_unread`).
-/
import QStack.PollOrder
import QStack.Lib.Run

namespace QStack

set_option autoImplicit false

open Lib.Drain AppRings

/-- `MAX_SERVER_NUM` -/
def maxServerNum : Nat := 20

/-- `QEPOLL_SIZE` -/
def qepollSize : Nat := 6000000

/-- `MAX_FLOW_NUM` -/
def maxFlowNum : Nat := 14000000

/-- `num_app`, as `q_init_manager` passes it to `qconf_init`. -/
def numApp : Nat := 1

/-- `EBADF` -/
def ebadf : Int := 9

/-- Where the program does not go on: at `TRACE_EXIT`, or with an access outside an array. -/
inductive Stop where
  | exit
  | fault
deriving DecidableEq, Repr

/-- `struct chan`, but for its queues -/
structure Chan where
  id : Nat
  src : Nat
  dst : Nat
deriving DecidableEq, Repr

/-- `q_alloc_achan` -/
def qAllocAchan (s a : Nat) : List Chan :=
  (List.range (2 * s * a)).map fun i =>
    if i < s * a then { id := i, src := i % s, dst := i / s }
    else { id := i, src := (i - s * a) / s, dst := (i - s * a) % s }

/-- Where `sq_chan` and `qs_chan` of an application begin in the array, as `q_init_manager` sets
them and `qepoll_create` copies them. -/
def chanBase (numStack numServer : Nat) : QeventDire → Nat → Nat
  | .stackToQe, i => numStack * i
  | .appToQe, i => numStack * (numServer + i)

/-- The event `AddTimeEvent` is called with, and its other arguments. -/
structure TimeEventCall where
  event : UInt32
  allNow : UInt64 := 0
  pri : Bool
  dire : QeventDire
  nature : QeventNature := .read
  core : UInt8
  apid : UInt8
  sockid : Nat
  timeout : Int := -1
deriving DecidableEq, Repr

/-- The channels, what the events update, and how many entries each ring can hold.  A queue is that
of a channel, by its index, and a priority; `WHEEL_SIZE` is 1, so there is no other. -/
structure Channels where
  numStack : Nat
  numServer : Nat
  cap : Nat → Bool → Nat
  queued : Nat → Bool → List QepollEvent
  /-- `g_smap[sockid].qepoll` -/
  qepoll : Nat → UInt32
  /-- `g_smap[sockid].qevents` -/
  qevents : Nat → UInt32
  /-- `g_smap[sockid].ep_data` -/
  epData : Nat → Nat
  reg : Nat → QeventReg
  ullStart : Nat → UInt64
  llStartIdx : Nat → Bool → Int
  /-- `g_qarg[qid].app_count` -/
  appCount : Nat → Nat
  /-- `ullExpireTime` of the items of `g_qarg[qid].aTimeItems_buff` -/
  ullExpireTime : Nat → Nat → UInt64

namespace Channels

/-! ## AddTimeEvent -/

/-- `q_distribute_event`: the destination, and the table after it. -/
def qDistributeEvent (s : Channels) (call : TimeEventCall) :
    Except Stop (Nat × (Nat → QeventReg)) :=
  let reg := s.reg call.sockid
  if call.nature ≠ .accept ∧ reg.proc = true then
    if -1 < reg.prCore then .ok (reg.prCore.toNat, s.reg) else .error .exit
  else
    .ok (call.apid.toNat, Function.update s.reg call.sockid
      { proc := true, prCore := call.apid.toNat })

/-- `g_qepoll[qid]->qe->sq_chan` or `qs_chan`, at `chan_id`: its index in the array. -/
def chanAt (s : Channels) (dire : QeventDire) (qid chanId : Nat) : Except Stop (Nat × Chan) :=
  if qid < s.numServer then
    let i := chanBase s.numStack s.numServer dire qid + chanId
    match (qAllocAchan s.numStack s.numServer)[i]? with
    | some chan => .ok (i, chan)
    | none => .error .fault
  else .error .fault

/-- The destination of an event, its channel, and the table after it. -/
def route (s : Channels) (call : TimeEventCall) : Except Stop (Nat × Nat × (Nat → QeventReg)) :=
  match call.dire with
  | .stackToQe => do
      let (qid, reg) ← s.qDistributeEvent call
      let (i, chan) ← s.chanAt .stackToQe qid call.core.toNat
      if chan.src = call.core.toNat ∧ chan.dst = qid ∧
          chan.id = call.core.toNat + qid * s.numStack then .ok (qid, i, reg)
      else .error .exit
  | .appToQe => do
      let (i, _) ← s.chanAt .appToQe call.apid.toNat (call.sockid % s.numStack)
      .ok (call.apid.toNat, i, s.reg)

/-- The time item an event takes, and `app_count` after it. -/
def takeItem (appCount : Nat) : Nat × Nat :=
  let appCount := if qepollSize / numApp ≤ appCount then 0 else appCount
  (appCount, appCount + 1)

/-- The part of `AddTimeEvent` for `timeout > 0`; the index it computes into the wheel is 0. -/
def setTimer (s : Channels) (qid i : Nat) (call : TimeEventCall) : Channels :=
  let (item, appCount) := takeItem (s.appCount qid)
  let s := { s with appCount := Function.update s.appCount qid appCount }
  let s :=
    if s.ullStart i = 0 then
      { s with
        ullStart := Function.update s.ullStart i call.allNow
        llStartIdx := Function.update s.llStartIdx i
          (Function.update (s.llStartIdx i) call.pri 0) }
    else s
  if call.allNow < s.ullStart i then s
  else
    { s with
      ullExpireTime := Function.update s.ullExpireTime qid
        (Function.update (s.ullExpireTime qid) item (call.allNow + .ofNat call.timeout.toNat)) }

/-- The entry an event leaves in its queue. -/
def entry (s : Channels) (call : TimeEventCall) : QepollEvent :=
  { pri := call.pri, sockid := call.sockid, events := call.event, data := s.epData call.sockid }

/-- What is done before the queue is found full: the mask and the events of the socket. -/
def mark (s : Channels) (call : TimeEventCall) : Channels :=
  { s with
    qepoll := Function.update s.qepoll call.sockid call.event
    qevents := Function.update s.qevents call.sockid (s.qevents call.sockid ||| call.event) }

def push (s : Channels) (i : Nat) (call : TimeEventCall) : Channels :=
  { s with
    queued := Function.update s.queued i
      (Function.update (s.queued i) call.pri (s.queued i call.pri ++ [s.entry call])) }

/-- `AddTimeEvent`: its result, and the state it leaves.  At its top it loads the state of the
stream of `sockets[sockid]`, unless that is a listener, for a message only; the load is left out, so
a call that faults there (the socket has no stream) goes on here. -/
def addTimeEvent (s : Channels) (call : TimeEventCall) : Except Stop (Int × Channels) := do
  let (qid, i, reg) ← s.route call
  let s := { s with reg := reg }
  let s := if 0 < call.timeout then s.setTimer qid i call else s
  let s := s.mark call
  if s.cap i call.pri ≤ (s.queued i call.pri).length then .ok (-1, s)
  else .ok (0, s.push i call)

/-! ## qepoll_wait -/

/-- The channels of an application, as it polls them. -/
def rings (s : Channels) (efd : Nat) : AppRings where
  queued q := s.queued (chanBase s.numStack s.numServer q.dire efd + q.ns) q.pri
  qepoll := s.qepoll
  reg := s.reg

/-- The channels with index `i` from `base` on, as rings. -/
def setRings (s : Channels) (efd : Nat) (r : AppRings) : Channels :=
  let sq := chanBase s.numStack s.numServer .stackToQe efd
  let qs := chanBase s.numStack s.numServer .appToQe efd
  { s with
    queued := fun i pri =>
      if sq ≤ i ∧ i < sq + s.numStack then r.queued ⟨i - sq, .stackToQe, pri⟩
      else if qs ≤ i ∧ i < qs + s.numStack then r.queued ⟨i - qs, .appToQe, pri⟩
      else s.queued i pri
    reg := r.reg }

/-- `qepoll_wait` of an application, with `timeout <= 0`. -/
def qepollWait (s : Channels) (efd : Nat) (maxevents : Int) :
    Except Stop (Int × List Taken × Channels) :=
  if s.numServer ≤ efd then .error .fault
  else if maxServerNum ≤ efd then .ok (-ebadf, [], s)
  else
    let (ret, events, r) := AppRings.qepollWait s.numStack maxevents (s.rings efd)
    .ok (ret, events, s.setRings efd r)

/-- The indices `qepoll_wait` reads. -/
def waitChans (s : Channels) (efd : Nat) : List Nat :=
  if maxServerNum ≤ efd then []
  else (List.range s.numStack).flatMap fun ns =>
    [chanBase s.numStack s.numServer .stackToQe efd + ns,
      chanBase s.numStack s.numServer .appToQe efd + ns]

/-! ## The layout -/

section Layout

variable {n a : Nat}

theorem qAllocAchan_length (n a : Nat) : (qAllocAchan n a).length = 2 * n * a := by
  rw [qAllocAchan, List.length_map, List.length_range]

theorem index_eq {i k i' k' : Nat} (inside : i < n) (inside' : i' < n)
    (same : n * k + i = n * k' + i') : i = i' ∧ k = k' := by
  have positive : 0 < n := Nat.zero_lt_of_lt inside
  have low := congrArg (· % n) same
  have high := congrArg (· / n) same
  simp only [Nat.mul_add_mod, Nat.mod_eq_of_lt inside, Nat.mod_eq_of_lt inside'] at low
  simp only [Nat.mul_add_div positive, Nat.div_eq_of_lt inside, Nat.div_eq_of_lt inside',
    Nat.add_zero] at high
  exact ⟨low, high⟩

/-- A piece of the array ends before the next one begins. -/
theorem index_lt {i k b : Nat} (inside : i < n) (app : k < b) : n * k + i < n * b := by
  have next := Nat.mul_le_mul_left n (Nat.succ_le_of_lt app)
  rw [Nat.mul_succ] at next
  omega

/-- **Distinct triples use distinct channels.** -/
theorem chanBase_inj {d d' : QeventDire} {i i' k k' : Nat} (stack : i < n) (stack' : i' < n)
    (app : k < a) (app' : k' < a) (same : chanBase n a d k + i = chanBase n a d' k' + i') :
    d = d' ∧ i = i' ∧ k = k' := by
  have clash : ∀ {i i' k k' : Nat}, i < n → i' < n → k < a →
      n * k + i ≠ n * (a + k') + i' := by
    intro i i' k k' inside inside' app same
    obtain ⟨-, apps⟩ := index_eq inside inside' same
    omega
  cases d with
  | stackToQe =>
      cases d' with
      | stackToQe => exact ⟨rfl, index_eq stack stack' same⟩
      | appToQe => exact absurd same (clash stack stack' app)
  | appToQe =>
      cases d' with
      | stackToQe => exact absurd same.symm (clash stack' stack app')
      | appToQe =>
          obtain ⟨sameStack, apps⟩ := index_eq stack stack' same
          exact ⟨rfl, sameStack, Nat.add_left_cancel apps⟩

/-- **Every channel lies in the array.** -/
theorem chanBase_inside {d : QeventDire} {i k : Nat} (stack : i < n) (app : k < a) :
    chanBase n a d k + i < (qAllocAchan n a).length := by
  have whole : 2 * n * a = n * (a + a) := by rw [← Nat.two_mul, Nat.mul_comm 2 n, Nat.mul_assoc]
  rw [qAllocAchan_length, whole]
  cases d with
  | stackToQe => exact index_lt stack (Nat.lt_add_right a app)
  | appToQe => exact index_lt stack (Nat.add_lt_add_left app a)

/-- What `q_alloc_achan` wrote into a channel of a stack. -/
theorem chan_stack {i k : Nat} (stack : i < n) (app : k < a) :
    (qAllocAchan n a)[chanBase n a .stackToQe k + i]? =
      some { id := chanBase n a .stackToQe k + i, src := i, dst := k } := by
  have positive : 0 < n := Nat.zero_lt_of_lt stack
  have inside := chanBase_inside (d := .stackToQe) stack app
  rw [qAllocAchan_length] at inside
  have first : n * k + i < n * a := index_lt stack app
  rw [qAllocAchan, List.getElem?_map, List.getElem?_range inside, Option.map_some]
  unfold chanBase at *
  rw [if_pos first, Nat.mul_add_mod, Nat.mod_eq_of_lt stack, Nat.mul_add_div positive,
    Nat.div_eq_of_lt stack, Nat.add_zero]

end Layout

theorem bind_ok {α β : Type} {x : Except Stop α} {f : α → Except Stop β} {r : β}
    (ran : (x >>= f) = .ok r) : ∃ y, x = .ok y ∧ f y = .ok r := by
  cases x with
  | error stop => cases ran
  | ok y => exact ⟨y, rfl, ran⟩

variable {s : Channels}

theorem chanAt_ok (d : QeventDire) {qid c : Nat} (app : qid < s.numServer) (stack : c < s.numStack) :
    ∃ chan, s.chanAt d qid c = .ok (chanBase s.numStack s.numServer d qid + c, chan) ∧
      (d = .stackToQe → chan.src = c ∧ chan.dst = qid ∧ chan.id = c + qid * s.numStack) := by
  have inside := chanBase_inside (d := d) stack app
  obtain ⟨chan, found⟩ : ∃ chan, (qAllocAchan s.numStack s.numServer)[
      chanBase s.numStack s.numServer d qid + c]? = some chan :=
    ⟨_, List.getElem?_eq_getElem inside⟩
  refine ⟨chan, ?_, ?_⟩
  · unfold chanAt
    rw [if_pos app]
    dsimp only
    rw [found]
  · rintro rfl
    rw [chan_stack stack app] at found
    obtain rfl := Option.some_inj.mp found
    refine ⟨rfl, rfl, ?_⟩
    change s.numStack * qid + c = c + qid * s.numStack
    rw [Nat.mul_comm, Nat.add_comm]

theorem mem_waitChans {efd i : Nat} : i ∈ s.waitChans efd ↔
    efd < maxServerNum ∧ ∃ d, ∃ ns < s.numStack, i = chanBase s.numStack s.numServer d efd + ns := by
  unfold waitChans
  split
  · rename_i refused
    exact iff_of_false List.not_mem_nil fun mem => Nat.not_lt.mpr refused mem.1
  · rename_i served
    simp only [List.mem_flatMap, List.mem_range, List.mem_cons, List.not_mem_nil, or_false]
    constructor
    · rintro ⟨ns, inside, rfl | rfl⟩
      · exact ⟨Nat.not_le.mp served, .stackToQe, ns, inside, rfl⟩
      · exact ⟨Nat.not_le.mp served, .appToQe, ns, inside, rfl⟩
    · rintro ⟨-, d, ns, inside, rfl⟩
      cases d with
      | stackToQe => exact ⟨ns, inside, .inl rfl⟩
      | appToQe => exact ⟨ns, inside, .inr rfl⟩

/-! ## The table of registrations -/

/-- A socket with an event under way has a destination. -/
def Registered (s : Channels) : Prop :=
  ∀ sockid, (s.reg sockid).proc = true →
    0 ≤ (s.reg sockid).prCore ∧ (s.reg sockid).prCore < s.numServer

/-- What the callers keep to. -/
def InRange (s : Channels) (call : TimeEventCall) : Prop :=
  call.core.toNat < s.numStack ∧ call.apid.toNat < s.numServer

/-- **The exit of `q_distribute_event` is not reached**, and the destination exists. -/
theorem qDistributeEvent_ok (inv : s.Registered) {call : TimeEventCall} (range : s.InRange call) :
    ∃ qid reg, s.qDistributeEvent call = .ok (qid, reg) ∧ qid < s.numServer ∧
      Registered { s with reg := reg } := by
  unfold qDistributeEvent
  dsimp only
  by_cases kept : call.nature ≠ .accept ∧ (s.reg call.sockid).proc = true
  · obtain ⟨low, high⟩ := inv call.sockid kept.2
    rw [if_pos kept, if_pos (by omega)]
    exact ⟨_, _, rfl, by omega, inv⟩
  · rw [if_neg kept]
    refine ⟨_, _, rfl, range.2, fun sockid set => ?_⟩
    by_cases here : sockid = call.sockid
    · subst here
      dsimp only at set ⊢
      rw [Function.update_self]
      exact ⟨Int.natCast_nonneg _, Int.ofNat_lt.mpr range.2⟩
    · dsimp only at set ⊢
      rw [Function.update_of_ne here] at set ⊢
      exact inv sockid set

theorem chanAt_inside {dire : QeventDire} {qid chanId : Nat} {found : Nat × Chan}
    (got : s.chanAt dire qid chanId = .ok found) : qid < s.numServer := by
  unfold chanAt at got
  split at got
  · assumption
  · cases got

/-- The destination is one of the applications. -/
theorem route_inside {call : TimeEventCall} {qid i : Nat} {reg : Nat → QeventReg}
    (routed : s.route call = .ok (qid, i, reg)) : qid < s.numServer := by
  unfold route at routed
  cases dire : call.dire with
  | stackToQe =>
      rw [dire] at routed
      obtain ⟨⟨dst, table⟩, -, rest⟩ := bind_ok routed
      obtain ⟨⟨index, chan⟩, got, checked⟩ := bind_ok rest
      dsimp only at checked got
      split at checked
      · obtain ⟨rfl, -⟩ := Prod.ext_iff.mp (Except.ok.inj checked)
        exact chanAt_inside got
      · cases checked
  | appToQe =>
      rw [dire] at routed
      obtain ⟨⟨index, chan⟩, got, rest⟩ := bind_ok routed
      obtain ⟨rfl, -⟩ := Prod.ext_iff.mp (Except.ok.inj rest)
      exact chanAt_inside got

/-- **The checks of `AddTimeEvent` succeed**: the event goes to a channel of its destination. -/
theorem route_ok (inv : s.Registered) {call : TimeEventCall} (range : s.InRange call) :
    ∃ qid c reg, s.route call =
        .ok (qid, chanBase s.numStack s.numServer call.dire qid + c, reg) ∧
      qid < s.numServer ∧ c < s.numStack ∧ Registered { s with reg := reg } := by
  unfold route
  cases dire : call.dire with
  | stackToQe =>
      obtain ⟨qid, reg, distributed, app, kept⟩ := qDistributeEvent_ok inv range
      obtain ⟨chan, found, fields⟩ := chanAt_ok (s := s) .stackToQe app range.1
      refine ⟨qid, call.core.toNat, reg, ?_, app, range.1, kept⟩
      dsimp only
      rw [distributed]
      dsimp only [bind, Except.bind]
      rw [found]
      exact if_pos (fields rfl)
  | appToQe =>
      have stack : call.sockid % s.numStack < s.numStack :=
        Nat.mod_lt _ (Nat.zero_lt_of_lt range.1)
      obtain ⟨chan, found, -⟩ := chanAt_ok (s := s) .appToQe range.2 stack
      refine ⟨call.apid.toNat, call.sockid % s.numStack, s.reg, ?_, range.2, stack, inv⟩
      dsimp only
      rw [found]
      rfl

/-- What the time wheel does not touch. -/
theorem setTimer_frame (s : Channels) (qid i : Nat) (call : TimeEventCall) :
    ∃ ullStart llStartIdx appCount ullExpireTime, s.setTimer qid i call =
      { s with ullStart, llStartIdx, appCount, ullExpireTime } := by
  unfold setTimer
  dsimp only
  split_ifs <;> exact ⟨_, _, _, _, rfl⟩

/-- **One event**: the masks, the queue it goes to and nothing else of what is read later. -/
theorem addTimeEvent_eq {call : TimeEventCall} {qid i : Nat} {reg : Nat → QeventReg}
    (routed : s.route call = .ok (qid, i, reg)) :
    ∃ ullStart llStartIdx appCount ullExpireTime, s.addTimeEvent call =
      let s' := mark { s with reg, ullStart, llStartIdx, appCount, ullExpireTime } call
      if s.cap i call.pri ≤ (s.queued i call.pri).length then .ok (-1, s')
      else .ok (0, s'.push i call) := by
  unfold addTimeEvent
  rw [routed]
  dsimp only [bind, Except.bind]
  split
  · obtain ⟨ullStart, llStartIdx, appCount, ullExpireTime, timer⟩ :=
      setTimer_frame { s with reg := reg } qid i call
    rw [timer]
    exact ⟨ullStart, llStartIdx, appCount, ullExpireTime, rfl⟩
  · exact ⟨_, _, _, _, rfl⟩

/-! ## Runs -/

/-- Whatever one entry keeps a call of `qepoll_wait` keeps. -/
theorem qepollWait_keeps {P : AppRings → Prop}
    (entry : ∀ (q : PolledRing) (st : Batch), P st.1 → P (qepollQevent q st).1) (numStack : Nat)
    (maxevents : Int) (r : AppRings) (start : P r) :
    P (AppRings.qepollWait numStack maxevents r).2.2 := by
  have loop : ∀ (q : PolledRing) (n : Nat) (st : Batch), P st.1 → P (pollLoop q maxevents n st).1 := by
    intro q n
    induction n with
    | zero => exact fun _ holds => holds
    | succ n ih =>
        intro st holds
        rw [pollLoop]
        split
        · exact ih _ (entry q st holds)
        · exact holds
  have lowLoop : ∀ (ns : Nat) (dire : QeventDire) (n : Nat) (st : Batch), P st.1 →
      P (pollLowLoop ns dire maxevents n st).1 := by
    intro ns dire n
    induction n with
    | zero => exact fun _ holds => holds
    | succ n ih =>
        intro st holds
        rw [pollLowLoop]
        split
        · exact ih _ (loop _ _ _ (entry _ st holds))
        · exact holds
  have chan : ∀ (ns : Nat) (st : Batch) (dire : QeventDire), P st.1 →
      P (pollChan maxevents ns st dire).1 := fun ns st dire holds =>
    lowLoop ns dire _ _ (loop _ _ _ holds)
  unfold AppRings.qepollWait
  split
  · exact start
  · have walk : ∀ (order : List Nat) (st : Batch), P st.1 →
        P (order.foldl (pollStack maxevents) st).1 := by
      intro order
      induction order with
      | nil => exact fun _ holds => holds
      | cons ns order ih =>
          intro st holds
          exact ih _ (chan ns _ .appToQe (chan ns st .stackToQe holds))
    exact walk _ _ start

/-- The table loses marks in `qepoll_wait`, and nothing else. -/
theorem qepollWait_reg (numStack : Nat) (maxevents : Int) (r : AppRings) (sockid : Nat) :
    ((AppRings.qepollWait numStack maxevents r).2.2.reg sockid).prCore = (r.reg sockid).prCore ∧
      (((AppRings.qepollWait numStack maxevents r).2.2.reg sockid).proc = true →
        (r.reg sockid).proc = true) := by
  refine qepollWait_keeps (P := fun r' => (r'.reg sockid).prCore = (r.reg sockid).prCore ∧
    ((r'.reg sockid).proc = true → (r.reg sockid).proc = true)) ?_ numStack maxevents r
    ⟨rfl, id⟩
  intro q st holds
  unfold qepollQevent
  split
  · exact holds
  · rename_i x rest _
    dsimp only
    split
    · by_cases here : sockid = x.sockid
      · subst here
        dsimp only
        rw [Function.update_self]
        exact ⟨holds.1, fun unset => absurd unset Bool.false_ne_true⟩
      · dsimp only
        rw [Function.update_of_ne here]
        exact holds
    · exact holds

inductive ChannelOp where
  | add (call : TimeEventCall)
  | wait (efd : Nat) (maxevents : Int)

def step (s : Channels) : ChannelOp → Channels
  | .add call =>
      match s.addTimeEvent call with
      | .ok (_, s') => s'
      | .error _ => s
  | .wait efd maxevents =>
      match s.qepollWait efd maxevents with
      | .ok (_, _, s') => s'
      | .error _ => s

theorem step_add {call : TimeEventCall} {ret : Int} {s' : Channels}
    (added : s.addTimeEvent call = .ok (ret, s')) : s.step (.add call) = s' := by
  rw [step, added]

theorem step_wait {efd : Nat} {maxevents ret : Int} {events : List Taken} {s' : Channels}
    (waited : s.qepollWait efd maxevents = .ok (ret, events, s')) :
    s.step (.wait efd maxevents) = s' := by
  rw [step, waited]

/-- Source cores below `num_stack`, destinations below `num_server`. -/
def OpInRange (s : Channels) : ChannelOp → Prop
  | .add call => s.InRange call
  | .wait efd _ => efd < s.numServer

/-- The call comes to its end, its event goes to a channel of its destination, and nobody else
reads that channel. -/
def Delivers (s : Channels) : ChannelOp → Channels → Prop
  | .add call, s' => ∃ qid i reg ret, s.route call = .ok (qid, i, reg) ∧
      s.addTimeEvent call = .ok (ret, s') ∧ qid < s.numServer ∧
      i < (qAllocAchan s.numStack s.numServer).length ∧ (∀ j, j ≠ i → s'.queued j = s.queued j) ∧
      i ∈ s.waitChans qid ∧ ∀ efd < s.numServer, efd ≠ qid → i ∉ s.waitChans efd
  | .wait efd maxevents, s' =>
      ∃ ret events, s.qepollWait efd maxevents = .ok (ret, events, s') ∧
        ∀ j, j ∉ s.waitChans efd → s'.queued j = s.queued j

/-- **One call.** -/
theorem step_delivers (inv : s.Registered) (served : s.numServer ≤ maxServerNum) {op : ChannelOp}
    (range : s.OpInRange op) :
    (Registered (s.step op) ∧ (s.step op).numServer = s.numServer) ∧ s.Delivers op (s.step op) := by
  cases op with
  | add call =>
      obtain ⟨qid, c, reg, routed, app, stack, kept⟩ := route_ok inv range
      obtain ⟨ullStart, llStartIdx, appCount, ullExpireTime, added⟩ := addTimeEvent_eq routed
      have mem : chanBase s.numStack s.numServer call.dire qid + c ∈ s.waitChans qid :=
        mem_waitChans.mpr ⟨Nat.lt_of_lt_of_le app served, call.dire, c, stack, rfl⟩
      have alone : ∀ efd < s.numServer, efd ≠ qid →
          chanBase s.numStack s.numServer call.dire qid + c ∉ s.waitChans efd := by
        intro efd inside other again
        obtain ⟨-, d, ns, stack', same⟩ := mem_waitChans.mp again
        exact other (chanBase_inj stack stack' app inside same).2.2.symm
      have inside := chanBase_inside (d := call.dire) stack app
      dsimp only at added
      split at added
      · rw [step_add added]
        exact ⟨⟨kept, rfl⟩, qid, _, reg, -1, routed, added, app, inside, fun j _ => rfl, mem, alone⟩
      · rw [step_add added]
        refine ⟨⟨kept, rfl⟩, qid, _, reg, 0, routed, added, app, inside, fun j other => ?_, mem,
          alone⟩
        exact Function.update_of_ne other _ _
  | wait efd maxevents =>
      have inside : efd < s.numServer := range
      have waited : s.qepollWait efd maxevents = .ok
          ((AppRings.qepollWait s.numStack maxevents (s.rings efd)).1,
            (AppRings.qepollWait s.numStack maxevents (s.rings efd)).2.1,
            s.setRings efd (AppRings.qepollWait s.numStack maxevents (s.rings efd)).2.2) := by
        rw [qepollWait, if_neg (by omega), if_neg (by omega)]
      rw [step_wait waited]
      refine ⟨⟨fun sockid set => ?_, rfl⟩, _, _, waited, fun j outside => ?_⟩
      · obtain ⟨same, less⟩ := qepollWait_reg s.numStack maxevents (s.rings efd) sockid
        have before := inv sockid (less set)
        rw [← show _ = (s.reg sockid).prCore from same] at before
        exact before
      · funext pri
        rw [mem_waitChans] at outside
        have notIn : ∀ d, ¬ (chanBase s.numStack s.numServer d efd ≤ j ∧
            j < chanBase s.numStack s.numServer d efd + s.numStack) := by
          rintro d ⟨low, high⟩
          exact outside ⟨Nat.lt_of_lt_of_le inside served, d, j - chanBase s.numStack s.numServer d efd,
            by omega, by omega⟩
        unfold setRings
        dsimp only
        rw [if_neg (notIn .stackToQe), if_neg (notIn .appToQe)]

/-- **`qepoll_wait` reads the channels of `waitChans` only**: what it returns depends on them. -/
theorem qepollWait_reads {t : Channels} {efd : Nat} {maxevents : Int} (one : 1 ≤ maxevents)
    (shape : t.numStack = s.numStack ∧ t.numServer = s.numServer) (masks : t.qepoll = s.qepoll)
    (same : ∀ i ∈ s.waitChans efd, t.queued i = s.queued i) :
    (t.qepollWait efd maxevents).map (fun r => (r.1, r.2.1)) =
      (s.qepollWait efd maxevents).map (fun r => (r.1, r.2.1)) := by
  unfold qepollWait
  rw [shape.1, shape.2]
  split
  · rfl
  split
  · rfl
  rename_i served
  obtain ⟨out, r, went, eq, -⟩ := qepollWait_examines s.numStack one (t.rings efd)
  obtain ⟨out', r', went', eq', -⟩ := qepollWait_examines s.numStack one (s.rings efd)
  have valid : (t.rings efd).valid = (s.rings efd).valid := by
    funext e
    rw [AppRings.valid, AppRings.valid, validity, validity, rings, rings, masks]
  have entries : (t.rings efd).entries (polledRings s.numStack) =
      (s.rings efd).entries (polledRings s.numStack) := by
    refine List.flatMap_congr fun q mem => ?_
    have read : (t.rings efd).queued q = (s.rings efd).queued q := by
      rw [rings, rings, shape.1, shape.2]
      exact congrFun (same _ (mem_waitChans.mpr
        ⟨by omega, q.dire, q.ns, mem_polledRings.mp mem, rfl⟩)) q.pri
    rw [read]
  have outs : out = out' := by
    rw [eq, eq', AppRings.examined, AppRings.examined, valid, entries]
  rw [went, went', outs]
  rfl

/-- **The layout of the channels.**  The triples have channels of their own in the array; and over
every run of calls in range each event goes to a channel that its destination reads, and nobody
else. -/
theorem channels_law (served : s.numServer ≤ maxServerNum) (start : ∀ sockid, s.reg sockid = {}) :
    (∀ (d d' : QeventDire), ∀ i < s.numStack, ∀ i' < s.numStack, ∀ k < s.numServer,
      ∀ k' < s.numServer,
        chanBase s.numStack s.numServer d k + i < (qAllocAchan s.numStack s.numServer).length ∧
          (chanBase s.numStack s.numServer d k + i = chanBase s.numStack s.numServer d' k' + i' →
            d = d' ∧ i = i' ∧ k = k')) ∧
      ∀ ops, Lib.Run.Allowed step OpInRange s ops → Lib.Run.Each step Delivers s ops := by
  refine ⟨fun d d' i stack i' stack' k app k' app' =>
    ⟨chanBase_inside stack app, chanBase_inj stack stack' app app'⟩, fun ops allowed => ?_⟩
  refine Lib.Run.each_of_step (P := fun t => t.Registered ∧ t.numServer ≤ maxServerNum) ?_ ops s
    ⟨fun sockid set => ?_, served⟩ allowed
  · rintro t op ⟨inv, inside⟩ range
    obtain ⟨⟨kept, count⟩, delivers⟩ := step_delivers inv inside range
    exact ⟨⟨kept, count ▸ inside⟩, delivers⟩
  · rw [start sockid] at set
    exact absurd set Bool.false_ne_true

/-- The channels after `q_init_manager` and `qepoll_create`, with room for `cap` entries each. -/
def fresh (numStack numServer cap : Nat) : Channels where
  numStack := numStack
  numServer := numServer
  cap _ _ := cap
  queued _ _ := []
  qepoll _ := 0
  qevents _ := 0
  epData _ := 0
  reg _ := {}
  ullStart _ := 0
  llStartIdx _ _ := 0
  appCount _ := 0
  ullExpireTime _ _ := 0

/-- An event of the only stack for an application -/
def readable (apid : UInt8) : TimeEventCall :=
  { event := 1, pri := true, dire := .stackToQe, core := 0, apid := apid, sockid := 5 }

/-- One stack, two applications, and an event for the second. -/
theorem channels_law_second :
    Delivers (fresh 1 2 4) (.add (readable 1)) (step (fresh 1 2 4) (.add (readable 1))) :=
  ((channels_law (s := fresh 1 2 4) (by decide) fun _ => rfl).2
    [.add (readable 1)] ⟨⟨by decide, by decide⟩, trivial⟩).1

/-- **The twenty-first application** gets events that nobody reads. -/
theorem beyond_unread :
    ¬ ∀ s : Channels, 1 ≤ s.numStack → 1 ≤ s.numServer → (∀ sockid, s.reg sockid = {}) →
      ∀ ops, Lib.Run.Allowed step OpInRange s ops → Lib.Run.Each step Delivers s ops := by
  intro all
  have each := all (fresh 1 21 4) (by decide) (by decide) (fun _ => rfl) [.add (readable 20)]
    ⟨⟨by decide, by decide⟩, trivial⟩
  obtain ⟨qid, i, reg, ret, routed, -, -, -, -, read, -⟩ := each.1
  have destination : qid = 20 := by
    have target := congrArg (fun r : Except Stop (Nat × Nat × (Nat → QeventReg)) =>
      r.toOption.map Prod.fst) routed
    exact (Option.some_inj.mp target).symm
  rw [destination] at read
  exact absurd read List.not_mem_nil

end Channels

end QStack
