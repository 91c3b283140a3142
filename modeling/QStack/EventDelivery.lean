/-
# QStack.EventDelivery -- events from the stack threads to qepoll_wait

A stack thread raises an event with `AddTimeEvent`: it picks the destination
(`q_distribute_event`), overwrites the mask of the socket, fills the slot at `end` of the
ring of its channel and only then looks whether the ring is full.  The destination
application drains its rings in `qepoll_wait`, and `qepoll_qevent` hands out an entry only
if its type meets the mask, which by then is the type of the latest call on that socket;
any other entry is dropped.  Events that the application raises itself (`qs_chan`) and the
time wheel (`timeout > 0`) are other rings and are not modelled, nor is the load of the state of
the stream at the top of `AddTimeEvent`, which is for a message.

Every thread takes its reads and writes of shared memory one at a time, and a list of
`QepollStep`s is an interleaving.  Each ring is the one of `SpscRing`, with the slot written
before the full test.  Two histories count the events: `accepted`, those for which
`AddTimeEvent` returned 0, and `returned`, those copied out.

* `step_good`: what every step that drops nothing keeps, one thread at a time;
* `events_delivered`: over a run without a drop, accepted is returned followed by what is
  still queued, channel by channel, and a call that returns short has emptied its rings;
* `event_dropped`: the drop, when two types are pending on one socket.
-/
import QStack.SpscRing

namespace QStack

set_option autoImplicit false

/-- `Q_EPOLLIN` -/
def qEpollin : UInt32 := 0x001

/-- `Q_EPOLLOUT` -/
def qEpollout : UInt32 := 0x004

/-- `enum qevent_nature` -/
inductive QeventNature where
  | read
  | accept
  | close
deriving DecidableEq, Repr

/-- `struct qepoll_event` as it stands in a ring. -/
structure QepollEvent where
  /-- the high queue `qEvque[1]` -/
  pri : Bool
  sockid : Nat
  events : UInt32
  data : Nat
deriving DecidableEq, Repr

/-- The ring `g_qepoll[dst]->sq_chan[src].qTimeout->qEvque[pri]`. -/
structure EventChan where
  src : Nat
  dst : Nat
  pri : Bool
deriving DecidableEq, Repr

/-- `struct qevent_reg` -/
structure QeventReg where
  proc : Bool := false
  prCore : Int := -1
deriving DecidableEq, Repr

/-- The arguments of `AddTimeEvent`, from `CreateQevent` with `timeout = -1`. -/
structure EventCall where
  event : UInt32
  pri : Bool
  sockid : Nat
  apid : Nat
  nature : QeventNature := .read
deriving DecidableEq, Repr

/-- Where a stack thread stands in `AddTimeEvent`. -/
inductive StackPoint where
  | idle
  /-- `reg[sockid].proc` is to be read -/
  | called (call : EventCall)
  /-- `q_distribute_event` has `proc` -/
  | readProc (call : EventCall) (proc : Bool)
  /-- `proc` is written, `pr_core` is not -/
  | setProc (call : EventCall)
  /-- the channel is known, `socket->qepoll` is to be written -/
  | routed (call : EventCall) (qid : Nat)
  /-- the slot at `end` is to be written -/
  | masked (call : EventCall) (qid : Nat)
  /-- the full test, then `end` -/
  | queueing (call : EventCall) (qid : Nat)
deriving DecidableEq, Repr

/-- The three loops of `qepoll_wait`: over the high ring, over the low ring, and over the
high ring again after each low event. -/
inductive WaitLoop where
  | high
  | low
  | again
deriving DecidableEq, Repr

/-- Where the application stands in a loop. -/
inductive WaitPoint where
  /-- `end != start && ev_cnt < maxevents` -/
  | test
  /-- the entry at `start` is to be read -/
  | load
  /-- the mask is to be read -/
  | judge
  /-- `reg[sockid].proc = 0` -/
  | clear
  /-- `start` is to move -/
  | advance
deriving DecidableEq, Repr

/-- A call of `qepoll_wait` under way. -/
structure WaitCall where
  ns : Nat
  loop : WaitLoop
  point : WaitPoint
  evCnt : Nat
  maxevents : Nat
  /-- how many events each ring had accepted when the call began -/
  begun : EventChan → Nat

namespace WaitCall

/-- The ring the loop is on. -/
def chan (w : WaitCall) (dst : Nat) : EventChan :=
  { src := w.ns, dst := dst, pri := w.loop != .low }

/-- The loop ends. -/
def pass (w : WaitCall) : WaitCall :=
  match w.loop with
  | .high | .again => { w with loop := .low, point := .test }
  | .low => { w with ns := w.ns + 1, loop := .high, point := .test }

/-- The loop goes round. -/
def next (w : WaitCall) : WaitCall :=
  match w.loop with
  | .high => { w with point := .test }
  | .low | .again => { w with loop := .again, point := .test }

/-- The loop over ring `c` has ended in this call. -/
def Passed (w : WaitCall) (c : EventChan) : Prop :=
  c.src < w.ns ∨ c.src = w.ns ∧ c.pri = true ∧ w.loop ≠ .high

/-- How far a call is from its end, for each place it has yet to fill and each ring it has yet
to look at. -/
def work (numStack : Nat) (w : WaitCall) : Nat :=
  ((w.maxevents - w.evCnt) * (numStack + 1) + (numStack - w.ns)) * 10 +
    match w.point, w.loop with
    | .clear, _ => 9
    | .advance, _ => 8
    | .test, .low => 4
    | .load, .low => 3
    | .judge, .low => 2
    | .test, _ => 7
    | .load, _ => 6
    | .judge, _ => 5

end WaitCall

structure Qepoll where
  /-- `CONFIG.stack_thread` -/
  numStack : Nat
  ring : EventChan → Spsc QepollEvent
  /-- `g_smap[sockid].qepoll` -/
  qepoll : Nat → UInt32
  /-- `g_smap[sockid].ep_data` -/
  epData : Nat → Nat
  reg : Nat → QeventReg
  stack : Nat → StackPoint
  app : Nat → Option WaitCall
  /-- `TRACE_EXIT` -/
  halt : Bool
  accepted : EventChan → List QepollEvent
  returned : EventChan → List QepollEvent

inductive QepollStep where
  /-- the stack thread `core` calls `AddTimeEvent` -/
  | addTimeEvent (core : Nat) (call : EventCall)
  /-- the next step of the stack thread -/
  | stack (core : Nat)
  /-- the application calls `qepoll_wait` -/
  | wait (efd maxevents : Nat)
  /-- the next step of the application -/
  | app (efd : Nat)
deriving DecidableEq, Repr

namespace Qepoll

/-- A memory step on one ring.  An add that ends is an event accepted. -/
def onRing (s : Qepoll) (c : EventChan) (e : SpscEvent QepollEvent) : Qepoll :=
  { s with
    ring := Function.update s.ring c ((s.ring c).step e)
    accepted := Function.update s.accepted c
      (s.accepted c ++ Lib.Fifo.inputs [(s.ring c).observe e]) }

def setStack (s : Qepoll) (core : Nat) (p : StackPoint) : Qepoll :=
  { s with stack := Function.update s.stack core p }

def setApp (s : Qepoll) (efd : Nat) (w : Option WaitCall) : Qepoll :=
  { s with app := Function.update s.app efd w }

/-- The entry that `AddTimeEvent` writes into its slot. -/
def entry (s : Qepoll) (call : EventCall) : QepollEvent :=
  { pri := call.pri, sockid := call.sockid, events := call.event, data := s.epData call.sockid }

/-- `AddTimeEvent`, one access to shared memory after the other. -/
def stackStep (s : Qepoll) (core : Nat) : Qepoll :=
  match s.stack core with
  | .idle => s
  | .called call => s.setStack core (.readProc call (s.reg call.sockid).proc)
  | .readProc call proc =>
      if call.nature ≠ .accept ∧ proc = true then
        if -1 < (s.reg call.sockid).prCore then
          s.setStack core (.routed call (s.reg call.sockid).prCore.toNat)
        else { s with halt := true }
      else
        { s.setStack core (.setProc call) with
          reg := Function.update s.reg call.sockid { s.reg call.sockid with proc := true } }
  | .setProc call =>
      { s.setStack core (.routed call call.apid) with
        reg := Function.update s.reg call.sockid { s.reg call.sockid with prCore := call.apid } }
  | .routed call qid =>
      { s.setStack core (.masked call qid) with
        qepoll := Function.update s.qepoll call.sockid call.event }
  | .masked call qid =>
      (s.onRing ⟨core, qid, call.pri⟩ (.wslot (s.entry call))).setStack core (.queueing call qid)
  | .queueing call qid =>
      let ended := (s.ring ⟨core, qid, call.pri⟩).observe .produce
      (s.onRing ⟨core, qid, call.pri⟩ .produce).setStack core
        (if ended = .internal then .queueing call qid else .idle)

/-- The check of `qepoll_qevent`. -/
def validity (s : Qepoll) (x : QepollEvent) : Bool :=
  s.qepoll x.sockid &&& x.events != 0 && x.events != 0

/-- The entry the application has read from a ring. -/
def loaded (s : Qepoll) (c : EventChan) : Option QepollEvent :=
  match (s.ring c).consumer with
  | .loaded item => item
  | _ => none

/-- `qepoll_wait` with `timeout <= 0`, one access to shared memory after the other. -/
def appStep (s : Qepoll) (efd : Nat) : Qepoll :=
  match s.app efd with
  | none => s
  | some w =>
      if w.ns < s.numStack then
        match w.point with
        | .test =>
            if (s.ring (w.chan efd)).q.cirqEmpty = false ∧ w.evCnt < w.maxevents then
              (s.onRing (w.chan efd) .get).setApp efd (some { w with point := .load })
            else s.setApp efd (some w.pass)
        | .load =>
            (s.onRing (w.chan efd) .consume).setApp efd (some { w with point := .judge })
        | .judge =>
            match s.loaded (w.chan efd) with
            | none => s
            | some x =>
                if s.validity x then
                  { s.setApp efd (some { w with point := .clear, evCnt := w.evCnt + 1 }) with
                    returned := Function.update s.returned (w.chan efd)
                      (s.returned (w.chan efd) ++ [x]) }
                else s.setApp efd (some { w with point := .advance })
        | .clear =>
            match s.loaded (w.chan efd) with
            | none => s
            | some x =>
                { s.setApp efd (some { w with point := .advance }) with
                  reg := Function.update s.reg x.sockid { s.reg x.sockid with proc := false } }
        | .advance => (s.onRing (w.chan efd) .consume).setApp efd (some w.next)
      else s.setApp efd none

def step (s : Qepoll) (e : QepollStep) : Qepoll :=
  if s.halt then s
  else
    match e with
    | .addTimeEvent core call =>
        if s.stack core = .idle then s.setStack core (.called call) else s
    | .stack core => s.stackStep core
    | .wait efd maxevents =>
        if (s.app efd).isNone then
          s.setApp efd (some
            { ns := 0, loop := .high, point := .test, evCnt := 0, maxevents := maxevents
              begun := fun c => (s.accepted c).length })
        else s
    | .app efd => s.appStep efd

/-- Every ring is empty; the masks are those `qepoll_ctl` left. -/
def init (numStack : Nat) (size : EventChan → Nat) (mask : Nat → UInt32) (epData : Nat → Nat) :
    Qepoll :=
  { numStack := numStack
    ring := fun c => Spsc.init (size c)
    qepoll := mask
    epData := epData
    reg := fun _ => {}
    stack := fun _ => .idle
    app := fun _ => none
    halt := false
    accepted := fun _ => []
    returned := fun _ => [] }

/-! ## What the rings do -/

section Ring

variable {r : Spsc QepollEvent}

/-- The consumer's side of a ring does not see the producer's steps. -/
theorem step_producer {e : SpscEvent QepollEvent}
    (producer : e = .produce ∨ ∃ x, e = .wslot x) :
    (r.step e).consumer = r.consumer ∧ ∀ x, r.observe e ≠ .got x := by
  rcases producer with rfl | ⟨x, rfl⟩
  · unfold Spsc.step Spsc.observe
    cases r.producer with
    | idle | admitted | stored => exact ⟨rfl, nofun⟩
    | slotted item =>
        dsimp only
        cases r.q.cirqFull with
        | true | false => exact ⟨rfl, nofun⟩
  · unfold Spsc.step Spsc.observe
    cases r.producer with
    | idle | admitted | stored | slotted => exact ⟨rfl, nofun⟩

/-- What the producer accepts is at the end of what is queued. -/
theorem queued_producer (shared : r.Shared r.queued) {e : SpscEvent QepollEvent}
    (producer : e = .produce ∨ ∃ x, e = .wslot x) :
    (r.step e).queued = r.queued ++ Lib.Fifo.inputs [r.observe e] :=
  (shared.next e).2.1.held (step_producer producer).2

/-- The test of a ring that is not empty admits the application. -/
theorem get_nonempty (idle : r.consumer = .idle) (occupied : r.q.cirqEmpty = false) :
    r.step .get = { r with consumer := .admitted } ∧ r.observe .get = .internal := by
  simp [Spsc.step, Spsc.observe, idle, occupied]

theorem consume_admitted (admitted : r.consumer = .admitted) :
    r.step .consume = { r with consumer := .loaded (r.q.dQueue r.q.tail) } ∧
      r.observe .consume = .internal := by
  simp [Spsc.step, Spsc.observe, admitted]

/-- Moving `start` takes the entry off the queue. -/
theorem consume_loaded (shared : r.Shared r.queued) {item : Option QepollEvent}
    (loaded : r.consumer = .loaded item) :
    (r.step .consume).consumer = .idle ∧ Lib.Fifo.inputs [r.observe .consume] = [] ∧
      (r.step .consume).queued = r.queued.tail := by
  have knows := shared.consumer
  rw [loaded] at knows
  obtain ⟨x, rest, queued, rfl⟩ := knows
  have observed : r.observe .consume = .got (some x) := by simp [Spsc.observe, loaded]
  have fifo := (shared.next .consume).2.1
  rw [observed, queued] at fifo
  refine ⟨by simp [Spsc.step, loaded], by rw [observed]; rfl, ?_⟩
  generalize (r.step .consume).queued = xs at fifo
  rw [queued]
  cases fifo with
  | got => rfl

end Ring

/-! ## The invariant -/

/-- Where its application stands on a ring, if it is on it. -/
def pointOn (s : Qepoll) (c : EventChan) : Option WaitPoint :=
  match s.app c.dst with
  | none => none
  | some w => if w.ns < s.numStack ∧ w.chan c.dst = c then some w.point else none

/-- The entry at `start` has been handed out and is still in the ring. -/
def Judged : Option WaitPoint → Prop
  | some .clear | some .advance => True
  | _ => False

instance : DecidablePred Judged
  | none | some .test | some .load | some .judge => .isFalse nofun
  | some .clear | some .advance => .isTrue trivial

/-- What is queued on a ring and has not been handed out. -/
def waiting (s : Qepoll) (c : EventChan) : List QepollEvent :=
  if Judged (s.pointOn c) then (s.ring c).queued.tail else (s.ring c).queued

/-- The ring knows where the application stands. -/
def Serves : Option WaitPoint → ConsumerAt QepollEvent → Prop
  | none, at_ | some .test, at_ => at_ = .idle
  | some .load, at_ => at_ = .admitted
  | some _, at_ => ∃ item, at_ = .loaded item

/-- What a call of `qepoll_wait` knows. -/
structure CallKnows (s : Qepoll) (efd : Nat) (w : WaitCall) : Prop where
  begun : ∀ c, w.begun c ≤ (s.accepted c).length
  passed : w.evCnt < w.maxevents → ∀ c, c.dst = efd → w.Passed c →
    w.begun c ≤ (s.returned c).length
  room : w.point = .load ∨ w.point = .judge → w.evCnt < w.maxevents

structure Good (s : Qepoll) : Prop where
  alive : s.halt = false
  shared : ∀ c, (s.ring c).Shared (s.ring c).queued
  serves : ∀ c, Serves (s.pointOn c) (s.ring c).consumer
  delivered : ∀ c, s.accepted c = s.returned c ++ s.waiting c
  call : ∀ efd w, s.app efd = some w → CallKnows s efd w

section Step

variable {s : Qepoll}

/-- The masks, the registrations and the places of the stack threads are not in the invariant. -/
theorem Good.aside (good : s.Good) (qepoll : Nat → UInt32) (reg : Nat → QeventReg)
    (stack : Nat → StackPoint) : Good { s with qepoll := qepoll, reg := reg, stack := stack } :=
  ⟨good.alive, good.shared, good.serves, good.delivered, fun efd w at_ =>
    ⟨(good.call efd w at_).begun, (good.call efd w at_).passed, (good.call efd w at_).room⟩⟩

/-- What the application has read is in the ring. -/
theorem Good.nonempty_of_judged (good : s.Good) {c : EventChan} (judged : Judged (s.pointOn c)) :
    (s.ring c).queued ≠ [] := by
  have serves := good.serves c
  have knows := (good.shared c).consumer
  have loaded : ∃ item, (s.ring c).consumer = .loaded item := by
    generalize s.pointOn c = point at judged serves
    match point, judged with
    | some .clear, _ => exact serves
    | some .advance, _ => exact serves
  obtain ⟨item, loaded⟩ := loaded
  rw [loaded] at knows
  obtain ⟨x, rest, queued, -⟩ := knows
  rw [queued]
  exact List.cons_ne_nil x rest

/-- A step of the producer adds to what waits exactly what it accepts. -/
theorem Good.produce (good : s.Good) (c : EventChan) {e : SpscEvent QepollEvent}
    (producer : e = .produce ∨ ∃ x, e = .wslot x) : Good (s.onRing c e) where
  alive := good.alive
  shared := by
    intro d
    by_cases same : d = c
    · subst same
      simp only [onRing, Function.update_self]
      exact ((good.shared d).next e).1
    · simp only [onRing, Function.update_of_ne same]
      exact good.shared d
  serves := by
    intro d
    have serves := good.serves d
    by_cases same : d = c
    · subst same
      simp only [onRing, Function.update_self, (step_producer producer).1]
      exact serves
    · simp only [onRing, Function.update_of_ne same]
      exact serves
  delivered := by
    intro d
    have delivered := good.delivered d
    have point : (s.onRing c e).pointOn d = s.pointOn d := rfl
    by_cases same : d = c
    · subst same
      have queued := queued_producer (good.shared d) producer
      simp only [waiting, point] at delivered ⊢
      simp only [onRing, Function.update_self, queued, delivered, List.append_assoc]
      congr 1
      by_cases judged : Judged (s.pointOn d)
      · simp only [judged, if_true]
        rw [List.tail_append_of_ne_nil (good.nonempty_of_judged judged)]
      · simp only [judged, if_false]
    · simp only [waiting, point] at delivered ⊢
      simp only [onRing, Function.update_of_ne same]
      exact delivered
  call := by
    intro efd w at_
    have knows := good.call efd w at_
    refine ⟨?_, knows.passed, knows.room⟩
    intro d
    have begun := knows.begun d
    by_cases same : d = c
    · subst same
      simp only [onRing, Function.update_self, List.length_append]
      omega
    · simp only [onRing, Function.update_of_ne same]
      exact begun

/-- **A step of a stack thread keeps the invariant**, unless it ends the program. -/
theorem Good.stackStep (good : s.Good) (core : Nat)
    (routes : ∀ call, s.stack core = .readProc call true → call.nature ≠ .accept →
      -1 < (s.reg call.sockid).prCore) : (s.stackStep core).Good := by
  unfold Qepoll.stackStep
  split
  case h_1 => exact good
  case h_2 call at_ => exact good.aside _ _ _
  case h_3 call proc at_ =>
    split
    case isTrue known =>
      obtain ⟨notAccept, rfl⟩ := known
      rw [if_pos (routes call at_ notAccept)]
      exact good.aside _ _ _
    case isFalse fresh => exact good.aside _ _ _
  case h_4 call at_ => exact good.aside _ _ _
  case h_5 call qid at_ => exact good.aside _ _ _
  case h_6 call qid at_ => exact (good.produce _ (.inr ⟨_, rfl⟩)).aside _ _ _
  case h_7 call qid at_ => exact (good.produce _ (.inl rfl)).aside _ _ _

theorem pointOn_some {c : EventChan} {w : WaitCall} (at_ : s.app c.dst = some w) :
    s.pointOn c = if w.ns < s.numStack ∧ w.chan c.dst = c then some w.point else none := by
  unfold pointOn
  rw [at_]

/-- Off the ring its application is on, nobody reads. -/
theorem pointOn_other {efd : Nat} {w : WaitCall} (at_ : s.app efd = some w) {d : EventChan}
    (mine : d.dst = efd) (other : d ≠ w.chan efd) : s.pointOn d = none := by
  subst mine
  rw [pointOn_some at_, if_neg]
  rintro ⟨-, on⟩
  exact other on.symm

theorem pointOn_same {efd : Nat} {w : WaitCall} (at_ : s.app efd = some w)
    (inside : w.ns < s.numStack) : s.pointOn (w.chan efd) = some w.point := by
  have here : s.app (w.chan efd).dst = some w := at_
  rw [pointOn_some here, if_pos]
  exact ⟨inside, rfl⟩

/-- Standing at the test of a ring is as good as not standing there. -/
def Stands (p : Option WaitPoint) (q : WaitPoint) : Prop := p = some q ∨ p = none ∧ q = .test

theorem Stands.serves {p : Option WaitPoint} {q : WaitPoint} (stands : Stands p q)
    {at_ : ConsumerAt QepollEvent} (serves : Serves (some q) at_) : Serves p at_ := by
  rcases stands with rfl | ⟨rfl, rfl⟩
  · exact serves
  · exact serves

theorem Stands.judged {p : Option WaitPoint} {q : WaitPoint} (stands : Stands p q) :
    Judged p ↔ Judged (some q) := by
  rcases stands with rfl | ⟨rfl, rfl⟩
  · exact Iff.rfl
  · exact Iff.rfl

/-- The application moves: one ring, what it has handed out, and its place. -/
def moved (s : Qepoll) (efd : Nat) (c : EventChan) (r : Spsc QepollEvent)
    (out : List QepollEvent) (w : WaitCall) (reg : Nat → QeventReg) : Qepoll :=
  { s with
    ring := Function.update s.ring c r
    returned := Function.update s.returned c out
    app := Function.update s.app efd (some w)
    reg := reg }

section Moved

variable {efd : Nat} {w w' : WaitCall} {r : Spsc QepollEvent} {out : List QepollEvent}
  {reg : Nat → QeventReg}

theorem pointOn_moved_away {c d : EventChan} (away : d.dst ≠ efd) :
    (s.moved efd c r out w' reg).pointOn d = s.pointOn d := by
  unfold pointOn moved
  dsimp only
  rw [Function.update_of_ne away]

theorem pointOn_moved {c d : EventChan} (mine : d.dst = efd) :
    (s.moved efd c r out w' reg).pointOn d =
      if w'.ns < s.numStack ∧ w'.chan efd = d then some w'.point else none := by
  subst mine
  exact pointOn_some (Function.update_self _ _ _)

/-- A move that stays on its ring, or ends at a test, keeps the invariant when the ring it was
on is in order after it. -/
theorem Good.moved (good : s.Good) (at_ : s.app efd = some w) (inside : w.ns < s.numStack)
    (place : w'.ns = w.ns ∧ w'.loop = w.loop ∨ w'.point = .test)
    (shared : r.Shared r.queued) (serves : Serves (some w'.point) r.consumer)
    (delivered : s.accepted (w.chan efd) =
      out ++ if Judged (some w'.point) then r.queued.tail else r.queued)
    (knows : CallKnows (s.moved efd (w.chan efd) r out w' reg) efd w') :
    Good (s.moved efd (w.chan efd) r out w' reg) := by
  have here : Stands ((s.moved efd (w.chan efd) r out w' reg).pointOn (w.chan efd)) w'.point := by
    have dst : (w.chan efd).dst = efd := rfl
    rw [pointOn_moved dst]
    split
    case isTrue => exact .inl rfl
    case isFalse off =>
      refine .inr ⟨rfl, ?_⟩
      rcases place with ⟨ns, loop⟩ | test
      · refine absurd ⟨by rw [ns]; exact inside, ?_⟩ off
        simp only [WaitCall.chan, ns, loop]
      · exact test
  have elsewhere : ∀ d, d ≠ w.chan efd →
      Stands ((s.moved efd (w.chan efd) r out w' reg).pointOn d) .test ∧ s.pointOn d = none ∨
        (s.moved efd (w.chan efd) r out w' reg).pointOn d = s.pointOn d := by
    intro d other
    by_cases mine : d.dst = efd
    · refine .inl ⟨?_, pointOn_other at_ mine other⟩
      rw [pointOn_moved mine]
      split
      case isTrue on =>
        rcases place with ⟨ns, loop⟩ | test
        · refine absurd ?_ other
          rw [← on.2]
          simp only [WaitCall.chan, ns, loop]
        · exact .inl (by rw [test])
      case isFalse => exact .inr ⟨rfl, rfl⟩
    · exact .inr (pointOn_moved_away mine)
  refine ⟨good.alive, ?_, ?_, ?_, ?_⟩
  · intro d
    by_cases same : d = w.chan efd
    · subst same
      simp only [Qepoll.moved, Function.update_self]
      exact shared
    · simp only [Qepoll.moved, Function.update_of_ne same]
      exact good.shared d
  · intro d
    by_cases same : d = w.chan efd
    · subst same
      have ring : (s.moved efd (w.chan efd) r out w' reg).ring (w.chan efd) = r :=
        Function.update_self _ _ _
      rw [ring]
      exact here.serves serves
    · have ring : (s.moved efd (w.chan efd) r out w' reg).ring d = s.ring d :=
        Function.update_of_ne same _ _
      have serves := good.serves d
      rw [ring]
      rcases elsewhere d same with ⟨stands, none⟩ | point
      · rw [none] at serves
        exact stands.serves serves
      · rw [point]
        exact serves
  · intro d
    have delivered' := good.delivered d
    unfold waiting at delivered' ⊢
    by_cases same : d = w.chan efd
    · subst same
      simp only [here.judged]
      simp only [Qepoll.moved, Function.update_self]
      exact delivered
    · have judged : Judged ((s.moved efd (w.chan efd) r out w' reg).pointOn d) ↔
          Judged (s.pointOn d) := by
        rcases elsewhere d same with ⟨stands, none⟩ | point
        · rw [none]
          exact stands.judged
        · rw [point]
      simp only [judged]
      simp only [Qepoll.moved, Function.update_of_ne same]
      exact delivered'
  · intro other v calls
    by_cases mine : other = efd
    · subst mine
      have now : (s.moved other (w.chan other) r out w' reg).app other = some w' :=
        Function.update_self _ _ _
      obtain rfl : w' = v := Option.some.inj (now.symm.trans calls)
      exact knows
    · have then_ : s.app other = some v := by
        rw [← calls]
        exact (Function.update_of_ne mine _ _).symm
      have knows' := good.call other v then_
      refine ⟨knows'.begun, ?_, knows'.room⟩
      intro short d dst passed
      have off : d ≠ w.chan efd := by
        rintro rfl
        exact mine dst.symm
      simp only [Qepoll.moved, Function.update_of_ne off]
      exact knows'.passed short d dst passed

/-- The application only changes its place. -/
theorem setApp_eq_moved (c : EventChan) :
    s.setApp efd (some w') = s.moved efd c (s.ring c) (s.returned c) w' s.reg := by
  simp only [setApp, Qepoll.moved, Function.update_eq_self]

/-- The application takes a step on a ring, and adds nothing to it. -/
theorem onRing_eq_moved {c : EventChan} {e : SpscEvent QepollEvent}
    (quiet : Lib.Fifo.inputs [(s.ring c).observe e] = []) :
    (s.onRing c e).setApp efd (some w') =
      s.moved efd c ((s.ring c).step e) (s.returned c) w' s.reg := by
  simp only [setApp, onRing, Qepoll.moved, quiet, List.append_nil, Function.update_eq_self]

/-- What a call knows is not lost by a move that hands out nothing. -/
theorem CallKnows.moved (knows : CallKnows s efd w) {c : EventChan}
    (begun : w'.begun = w.begun) (evCnt : w'.evCnt = w.evCnt)
    (maxevents : w'.maxevents = w.maxevents)
    (room : w'.point = .load ∨ w'.point = .judge → w.evCnt < w.maxevents)
    (passed : w.evCnt < w.maxevents → ∀ d, d.dst = efd → w'.Passed d →
      w.Passed d ∨ w.begun d ≤ (s.returned d).length) :
    CallKnows (s.moved efd c r (s.returned c) w' reg) efd w' := by
  refine ⟨?_, ?_, ?_⟩
  · rw [begun]
    exact knows.begun
  · rw [begun, evCnt, maxevents]
    intro short d mine past
    simp only [Qepoll.moved, Function.update_eq_self]
    rcases passed short d mine past with before | now
    · exact knows.passed short d mine before
    · exact now
  · rw [evCnt, maxevents]
    exact room

end Moved

section Application

variable {efd : Nat} {w : WaitCall}

/-- The entry the application has read is the first of the ring. -/
theorem Good.loaded (good : s.Good) (at_ : s.app efd = some w) (inside : w.ns < s.numStack)
    (reading : w.point = .judge ∨ w.point = .clear ∨ w.point = .advance) :
    ∃ x rest, (s.ring (w.chan efd)).queued = x :: rest ∧
      (s.ring (w.chan efd)).consumer = .loaded (some x) ∧ s.loaded (w.chan efd) = some x := by
  have serves := good.serves (w.chan efd)
  have knows := (good.shared (w.chan efd)).consumer
  rw [pointOn_same at_ inside] at serves
  have loaded : ∃ item, (s.ring (w.chan efd)).consumer = .loaded item := by
    rcases reading with judge | clear | advance
    · rwa [judge] at serves
    · rwa [clear] at serves
    · rwa [advance] at serves
  obtain ⟨item, loaded⟩ := loaded
  rw [loaded] at knows
  obtain ⟨x, rest, queued, rfl⟩ := knows
  refine ⟨x, rest, queued, loaded, ?_⟩
  unfold Qepoll.loaded
  rw [loaded]

/-- What waits on the ring the application is on. -/
theorem Good.delivered_here (good : s.Good) (at_ : s.app efd = some w)
    (inside : w.ns < s.numStack) :
    s.accepted (w.chan efd) = s.returned (w.chan efd) ++
      if Judged (some w.point) then (s.ring (w.chan efd)).queued.tail
      else (s.ring (w.chan efd)).queued := by
  have delivered := good.delivered (w.chan efd)
  unfold waiting at delivered
  rw [pointOn_same at_ inside] at delivered
  exact delivered

/-- The loop goes on to the next entry. -/
theorem Good.take (good : s.Good) (at_ : s.app efd = some w) (inside : w.ns < s.numStack)
    (test : w.point = .test) (occupied : (s.ring (w.chan efd)).q.cirqEmpty = false)
    (short : w.evCnt < w.maxevents) :
    ((s.onRing (w.chan efd) .get).setApp efd (some { w with point := .load })).Good := by
  have serves := good.serves (w.chan efd)
  rw [pointOn_same at_ inside, test] at serves
  obtain ⟨stepped, observed⟩ := get_nonempty serves occupied
  have delivered := good.delivered_here at_ inside
  rw [test] at delivered
  have shared := ((good.shared (w.chan efd)).next .get).1
  rw [onRing_eq_moved (by rw [observed]; rfl)]
  refine good.moved at_ inside (.inl ⟨rfl, rfl⟩) shared ?_ ?_ ?_
  · rw [stepped]
    rfl
  · rw [stepped]
    exact delivered
  · exact (good.call efd w at_).moved rfl rfl rfl (fun _ => short) fun _ _ _ past => .inl past

/-- A loop ends with its ring empty, or with no room for more. -/
theorem Good.pass (good : s.Good) (at_ : s.app efd = some w) (inside : w.ns < s.numStack)
    (test : w.point = .test)
    (ended : ¬ ((s.ring (w.chan efd)).q.cirqEmpty = false ∧ w.evCnt < w.maxevents)) :
    (s.setApp efd (some w.pass)).Good := by
  have serves := good.serves (w.chan efd)
  have delivered := good.delivered_here at_ inside
  rw [pointOn_same at_ inside, test] at serves
  rw [test] at delivered
  have point : w.pass.point = .test := by
    unfold WaitCall.pass
    cases w.loop with
    | high | low | again => rfl
  have same : w.pass.begun = w.begun ∧ w.pass.evCnt = w.evCnt ∧
      w.pass.maxevents = w.maxevents := by
    unfold WaitCall.pass
    cases w.loop with
    | high | low | again => exact ⟨rfl, rfl, rfl⟩
  -- the only ring that is newly passed is the one just seen empty
  have fresh : ∀ d, d.dst = efd → w.pass.Passed d → w.Passed d ∨ d = w.chan efd := by
    rintro ⟨src, dst, pri⟩ rfl past
    unfold WaitCall.pass at past
    unfold WaitCall.Passed WaitCall.chan
    cases loop : w.loop with
    | high | low | again =>
        rw [loop] at past
        simp [WaitCall.Passed] at past ⊢
        grind
  rw [setApp_eq_moved (w.chan efd)]
  refine good.moved at_ inside (.inr point) (good.shared _) ?_ ?_ ?_
  · rw [point]
    exact serves
  · rw [point]
    exact delivered
  · refine (good.call efd w at_).moved same.1 same.2.1 same.2.2 ?_ ?_
    · rw [point]
      rintro (back | back)
      · cases back
      · cases back
    · intro short d mine past
      rcases fresh d mine past with before | rfl
      · exact .inl before
      · right
        have empty : (s.ring (w.chan efd)).q.cirqEmpty = true := by
          cases e : (s.ring (w.chan efd)).q.cirqEmpty with
          | true => rfl
          | false => exact absurd ⟨e, short⟩ ended
        have none := (good.shared (w.chan efd)).window.empty_iff.mp empty
        have begun := (good.call efd w at_).begun (w.chan efd)
        rw [delivered, none] at begun
        simpa [Judged] using begun

theorem Good.load (good : s.Good) (at_ : s.app efd = some w) (inside : w.ns < s.numStack)
    (load : w.point = .load) :
    ((s.onRing (w.chan efd) .consume).setApp efd (some { w with point := .judge })).Good := by
  have serves := good.serves (w.chan efd)
  rw [pointOn_same at_ inside, load] at serves
  obtain ⟨stepped, observed⟩ := consume_admitted serves
  have delivered := good.delivered_here at_ inside
  rw [load] at delivered
  have shared := ((good.shared (w.chan efd)).next .consume).1
  have short := (good.call efd w at_).room (.inl load)
  rw [onRing_eq_moved (by rw [observed]; rfl)]
  refine good.moved at_ inside (.inl ⟨rfl, rfl⟩) shared ?_ ?_ ?_
  · rw [stepped]
    exact ⟨_, rfl⟩
  · rw [stepped]
    exact delivered
  · exact (good.call efd w at_).moved rfl rfl rfl (fun _ => short) fun _ _ _ past => .inl past

/-- The entry is handed out: it moves from what waits to what is returned. -/
theorem Good.handOut (good : s.Good) (at_ : s.app efd = some w) (inside : w.ns < s.numStack)
    (judge : w.point = .judge) {x : QepollEvent} (loaded : s.loaded (w.chan efd) = some x) :
    Good { s.setApp efd (some { w with point := .clear, evCnt := w.evCnt + 1 }) with
      returned := Function.update s.returned (w.chan efd) (s.returned (w.chan efd) ++ [x]) } := by
  obtain ⟨y, rest, queued, consumer, same⟩ := good.loaded at_ inside (.inl judge)
  obtain rfl : y = x := Option.some.inj (same.symm.trans loaded)
  have knows := good.call efd w at_
  have delivered := good.delivered_here at_ inside
  rw [judge, queued] at delivered
  have handed : CallKnows (s.moved efd (w.chan efd) (s.ring (w.chan efd))
      (s.returned (w.chan efd) ++ [y]) { w with point := .clear, evCnt := w.evCnt + 1 } s.reg) efd
      { w with point := .clear, evCnt := w.evCnt + 1 } := by
    refine ⟨knows.begun, ?_, nofun⟩
    intro short d mine past
    have before := knows.passed (Nat.lt_of_succ_lt short) d mine past
    by_cases on : d = w.chan efd
    · subst on
      simp only [Qepoll.moved, Function.update_self, List.length_append]
      exact Nat.le_add_right_of_le before
    · simp only [Qepoll.moved, Function.update_of_ne on]
      exact before
  have here : Good (s.moved efd (w.chan efd) (s.ring (w.chan efd))
      (s.returned (w.chan efd) ++ [y]) { w with point := .clear, evCnt := w.evCnt + 1 } s.reg) :=
    good.moved at_ inside (.inl ⟨rfl, rfl⟩) (good.shared _) ⟨_, consumer⟩
      (by simpa [queued, Judged] using delivered) handed
  simpa only [Qepoll.moved, setApp, Function.update_eq_self] using here

theorem Good.clear (good : s.Good) (at_ : s.app efd = some w) (inside : w.ns < s.numStack)
    (clear : w.point = .clear) (reg : Nat → QeventReg) :
    Good { s.setApp efd (some { w with point := .advance }) with reg := reg } := by
  obtain ⟨x, rest, queued, consumer, -⟩ := good.loaded at_ inside (.inr (.inl clear))
  have delivered := good.delivered_here at_ inside
  rw [clear] at delivered
  have knows : CallKnows (s.moved efd (w.chan efd) (s.ring (w.chan efd)) (s.returned (w.chan efd))
      { w with point := .advance } reg) efd { w with point := .advance } :=
    (good.call efd w at_).moved rfl rfl rfl nofun fun _ _ _ past => .inl past
  have here : Good (s.moved efd (w.chan efd) (s.ring (w.chan efd)) (s.returned (w.chan efd))
      { w with point := .advance } reg) :=
    good.moved at_ inside (.inl ⟨rfl, rfl⟩) (good.shared _) ⟨_, consumer⟩ delivered knows
  simpa only [Qepoll.moved, setApp, Function.update_eq_self] using here

/-- `start` moves over the entry that was handed out. -/
theorem Good.advance (good : s.Good) (at_ : s.app efd = some w) (inside : w.ns < s.numStack)
    (advance : w.point = .advance) :
    ((s.onRing (w.chan efd) .consume).setApp efd (some w.next)).Good := by
  obtain ⟨x, rest, queued, consumer, -⟩ := good.loaded at_ inside (.inr (.inr advance))
  obtain ⟨idle, quiet, queued'⟩ := consume_loaded (good.shared _) consumer
  have delivered := good.delivered_here at_ inside
  rw [advance] at delivered
  have point : w.next.point = .test := by
    unfold WaitCall.next
    cases w.loop with
    | high | low | again => rfl
  have same : w.next.begun = w.begun ∧ w.next.evCnt = w.evCnt ∧
      w.next.maxevents = w.maxevents := by
    unfold WaitCall.next
    cases w.loop with
    | high | low | again => exact ⟨rfl, rfl, rfl⟩
  have past : ∀ d, w.next.Passed d → w.Passed d := by
    intro d
    unfold WaitCall.next
    cases loop : w.loop with
    | high => simp [WaitCall.Passed, loop]
    | low | again => simp [WaitCall.Passed, loop]
  rw [onRing_eq_moved quiet]
  refine good.moved at_ inside (.inr point) ((good.shared _).next _).1 ?_ ?_ ?_
  · rw [point]
    exact idle
  · rw [point, queued']
    exact delivered
  · refine (good.call efd w at_).moved same.1 same.2.1 same.2.2 ?_ fun _ d _ p => .inl (past d p)
    rw [point]
    rintro (back | back)
    · cases back
    · cases back

/-- `qepoll_wait` returns, or is called: no ring is looked at. -/
theorem Good.between (good : s.Good) {call : Option WaitCall}
    (off : ∀ d, d.dst = efd → s.pointOn d = none)
    (starts : ∀ v, call = some v → v.point = .test ∧ CallKnows s efd v) :
    (s.setApp efd call).Good := by
  have stands : ∀ d, (s.setApp efd call).pointOn d = s.pointOn d ∨
      Stands ((s.setApp efd call).pointOn d) .test ∧ s.pointOn d = none := by
    intro d
    by_cases mine : d.dst = efd
    · refine .inr ⟨?_, off d mine⟩
      subst mine
      cases call with
      | none =>
          refine .inr ⟨?_, rfl⟩
          simp [pointOn, setApp]
      | some v =>
          rw [pointOn_some (Function.update_self _ _ _)]
          split
          case isTrue => exact .inl (by rw [(starts v rfl).1])
          case isFalse => exact .inr ⟨rfl, rfl⟩
    · left
      unfold pointOn setApp
      dsimp only
      rw [Function.update_of_ne mine]
  refine ⟨good.alive, good.shared, ?_, ?_, ?_⟩
  · intro d
    have serves := good.serves d
    rcases stands d with point | ⟨test, none⟩
    · rw [point]
      exact serves
    · rw [none] at serves
      exact test.serves serves
  · intro d
    have delivered := good.delivered d
    have judged : Judged ((s.setApp efd call).pointOn d) ↔ Judged (s.pointOn d) := by
      rcases stands d with point | ⟨test, none⟩
      · rw [point]
      · rw [none]
        exact test.judged
    unfold waiting at delivered ⊢
    simp only [judged]
    exact delivered
  · intro other v calls
    by_cases mine : other = efd
    · subst mine
      have now : call = some v := by
        rw [← calls]
        exact (Function.update_self other call s.app).symm
      have knows := (starts v now).2
      exact ⟨knows.begun, knows.passed, knows.room⟩
    · have then_ : s.app other = some v := by
        rw [← calls]
        exact (Function.update_of_ne mine _ _).symm
      have knows := good.call other v then_
      exact ⟨knows.begun, knows.passed, knows.room⟩

/-- **A step of the application keeps the invariant**, unless it drops an entry. -/
theorem Good.appStep (good : s.Good) (efd : Nat)
    (valid : ∀ w x, s.app efd = some w → w.ns < s.numStack → w.point = .judge →
      s.loaded (w.chan efd) = some x → s.validity x = true) : (s.appStep efd).Good := by
  unfold Qepoll.appStep
  split
  case h_1 => exact good
  case h_2 w at_ =>
    split
    case isFalse done =>
      refine good.between ?_ nofun
      intro d mine
      subst mine
      rw [pointOn_some at_, if_neg]
      rintro ⟨inside, -⟩
      exact done inside
    case isTrue inside =>
      split
      case h_1 test =>
        split
        case isTrue more => exact good.take at_ inside test more.1 more.2
        case isFalse ended => exact good.pass at_ inside test ended
      case h_2 load => exact good.load at_ inside load
      case h_3 judge =>
        split
        case h_1 => exact good
        case h_2 x loaded =>
          rw [if_pos (valid w x at_ inside judge loaded)]
          exact good.handOut at_ inside judge loaded
      case h_4 clear =>
        split
        case h_1 => exact good
        case h_2 x loaded => exact good.clear at_ inside clear _
      case h_5 advance => exact good.advance at_ inside advance

end Application

end Step

/-! ## The end of a call -/

section Call

variable {s : Qepoll} {efd : Nat} {w : WaitCall}

/-- Leaving a loop is a step forward. -/
theorem pass_work {numStack : Nat} (inside : w.ns < numStack) (test : w.point = .test) :
    w.pass.work numStack < w.work numStack := by
  unfold WaitCall.pass WaitCall.work
  cases loop : w.loop with
  | high | low | again =>
      simp only [test]
      omega

theorem next_work {numStack : Nat} (advance : w.point = .advance) :
    w.next.work numStack < w.work numStack := by
  unfold WaitCall.next WaitCall.work
  cases loop : w.loop with
  | high | low | again =>
      simp only [advance]
      omega

/-- Handing out an event fills a place, which outweighs all that is looked at again. -/
theorem handOut_work {numStack : Nat} (judge : w.point = .judge) (short : w.evCnt < w.maxevents) :
    { w with point := .clear, evCnt := w.evCnt + 1 }.work numStack < w.work numStack := by
  have filled : w.maxevents - w.evCnt = (w.maxevents - (w.evCnt + 1)) + 1 := by omega
  unfold WaitCall.work
  simp only [judge, filled, Nat.add_mul]
  cases w.loop with
  | high | low | again =>
      dsimp only
      omega

/-- Each step of the application brings its call nearer to the end. -/
theorem Good.appStep_work (good : s.Good) (at_ : s.app efd = some w)
    (valid : ∀ x, w.ns < s.numStack → w.point = .judge → s.loaded (w.chan efd) = some x →
      s.validity x = true) :
    (s.appStep efd).app efd = none ∧ s.numStack ≤ w.ns ∨
      ∃ w', (s.appStep efd).app efd = some w' ∧ w'.work s.numStack < w.work s.numStack := by
  unfold Qepoll.appStep
  simp only [at_]
  by_cases inside : w.ns < s.numStack
  · rw [if_pos inside]
    right
    cases point : w.point with
    | test =>
        dsimp only
        split
        case isTrue more =>
          refine ⟨_, Function.update_self _ _ _, ?_⟩
          unfold WaitCall.work
          cases w.loop with
          | high | low | again => simp [point]
        case isFalse => exact ⟨_, Function.update_self _ _ _, pass_work inside point⟩
    | load =>
        refine ⟨_, Function.update_self _ _ _, ?_⟩
        unfold WaitCall.work
        cases w.loop with
        | high | low | again => simp [point]
    | judge =>
        obtain ⟨x, rest, -, -, loaded⟩ := good.loaded at_ inside (.inl point)
        have short := (good.call efd w at_).room (.inr point)
        simp only [loaded, valid x inside point loaded, if_true]
        exact ⟨_, Function.update_self _ _ _, handOut_work point short⟩
    | clear =>
        obtain ⟨x, rest, -, -, loaded⟩ := good.loaded at_ inside (.inr (.inl point))
        simp only [loaded]
        refine ⟨_, Function.update_self _ _ _, ?_⟩
        unfold WaitCall.work
        simp [point]
    | advance => exact ⟨_, Function.update_self _ _ _, next_work point⟩
  · rw [if_neg inside]
    exact .inl ⟨Function.update_self _ _ _, Nat.le_of_not_lt inside⟩

end Call

/-! ## Runs -/

/-- The entry that `qepoll_qevent` is about to check. -/
def judging (s : Qepoll) (efd : Nat) : Option QepollEvent :=
  match s.app efd with
  | none => none
  | some w => if w.ns < s.numStack ∧ w.point = .judge then s.loaded (w.chan efd) else none

/-- The call that is about to take its destination from `pr_core`. -/
def asking (s : Qepoll) (core : Nat) : Option EventCall :=
  match s.stack core with
  | .readProc call true => if call.nature = .accept then none else some call
  | _ => none

/-- No entry is checked against a mask that a call with another type has written over its own,
and no call finds `proc` set on a socket whose `pr_core` has yet to be written. -/
def Clean (s : Qepoll) : QepollStep → Prop
  | .app efd => (s.judging efd).all (fun x => s.qepoll x.sockid &&& x.events != 0) = true
  | .stack core => (s.asking core).all (fun call => -1 < (s.reg call.sockid).prCore) = true
  | .addTimeEvent _ _ | .wait _ _ => True

instance (s : Qepoll) : DecidablePred s.Clean
  | .app _ | .stack _ => inferInstanceAs (Decidable (_ = true))
  | .addTimeEvent _ _ | .wait _ _ => .isTrue trivial

/-- Nothing accepted is lost, doubled or overtaken. -/
structure Delivers (s : Qepoll) : Prop where
  alive : s.halt = false
  delivered : ∀ c, s.accepted c = s.returned c ++ s.waiting c

/-- A call of `qepoll_wait` ends by its own steps, and has returned all that was there when it
began unless it returns as many as were asked for. -/
structure Completes (s : Qepoll) (e : QepollStep) (s' : Qepoll) : Prop where
  nearer : ∀ efd w, e = .app efd → s.app efd = some w → s'.app efd = none ∨
    ∃ w', s'.app efd = some w' ∧ w'.work s.numStack < w.work s.numStack
  undisturbed : ∀ efd w, e ≠ .app efd → s.app efd = some w → s'.app efd = some w
  short : ∀ efd w, s.app efd = some w → s'.app efd = none → w.evCnt < w.maxevents →
    ∀ c, c.dst = efd → c.src < s.numStack → (s.accepted c).take (w.begun c) <+: s.returned c

section Runs

variable {s : Qepoll}

/-- An entry that meets the mask passes both checks of `qepoll_qevent`. -/
theorem Clean.valid {efd : Nat} (clean : s.Clean (.app efd)) {w : WaitCall} {x : QepollEvent}
    (at_ : s.app efd = some w) (inside : w.ns < s.numStack) (judge : w.point = .judge)
    (loaded : s.loaded (w.chan efd) = some x) : s.validity x = true := by
  have meets : s.qepoll x.sockid &&& x.events ≠ 0 := by
    simpa [Clean, judging, at_, inside, judge, loaded] using clean
  have typed : x.events ≠ 0 := by
    intro zero
    simp [zero] at meets
  simp [validity, meets, typed]

theorem Clean.routes {core : Nat} (clean : s.Clean (.stack core)) {call : EventCall}
    (at_ : s.stack core = .readProc call true) (notAccept : call.nature ≠ .accept) :
    -1 < (s.reg call.sockid).prCore := by
  simpa [Clean, asking, at_, notAccept] using clean

theorem stackStep_app (core : Nat) : (s.stackStep core).app = s.app := by
  unfold Qepoll.stackStep
  split
  case h_3 =>
    split
    case isTrue =>
      split
      case isTrue => rfl
      case isFalse => rfl
    case isFalse => rfl
  all_goals rfl

theorem appStep_other {efd other : Nat} (differ : other ≠ efd) :
    (s.appStep efd).app other = s.app other := by
  unfold Qepoll.appStep
  split
  case h_1 => rfl
  case h_2 w at_ =>
    split
    case isFalse => exact Function.update_of_ne differ _ _
    case isTrue =>
      split
      case h_1 => split <;> exact Function.update_of_ne differ _ _
      case h_2 => exact Function.update_of_ne differ _ _
      case h_3 =>
        split
        case h_1 => rfl
        case h_2 => split <;> exact Function.update_of_ne differ _ _
      case h_4 =>
        split
        case h_1 => rfl
        case h_2 => exact Function.update_of_ne differ _ _
      case h_5 => exact Function.update_of_ne differ _ _

/-- **Every clean step keeps the invariant.** -/
theorem step_good (good : s.Good) (e : QepollStep) (clean : s.Clean e) : (s.step e).Good := by
  unfold step
  rw [good.alive]
  simp only [Bool.false_eq_true, if_false]
  cases e with
  | addTimeEvent core call =>
      dsimp only
      split
      case isTrue => exact good.aside _ _ _
      case isFalse => exact good
  | stack core => exact good.stackStep core fun call at_ => clean.routes at_
  | wait efd maxevents =>
      dsimp only
      split
      case isFalse => exact good
      case isTrue free =>
        rw [Option.isNone_iff_eq_none] at free
        refine good.between ?_ ?_
        · intro d mine
          subst mine
          simp [pointOn, free]
        · rintro v ⟨rfl⟩
          refine ⟨rfl, fun _ => Nat.le_refl _, ?_, nofun⟩
          rintro - c - (lower | ⟨-, -, notHigh⟩)
          · exact absurd lower (Nat.not_lt_zero _)
          · exact absurd rfl notHigh
  | app efd => exact good.appStep efd fun w x at_ inside judge loaded =>
      clean.valid at_ inside judge loaded

/-- A call that ends short has seen every ring of its application empty. -/
theorem Good.short (good : s.Good) {efd : Nat} {w : WaitCall} (at_ : s.app efd = some w)
    (over_ : s.numStack ≤ w.ns) (short : w.evCnt < w.maxevents) {c : EventChan}
    (mine : c.dst = efd) (stack : c.src < s.numStack) :
    (s.accepted c).take (w.begun c) <+: s.returned c := by
  have passed : w.Passed c := .inl (Nat.lt_of_lt_of_le stack over_)
  have returned := (good.call efd w at_).passed short c mine passed
  rw [good.delivered c, List.take_append_of_le_length returned]
  exact List.take_prefix _ _

/-- What a clean step does to the calls under way. -/
theorem step_completes (good : s.Good) (e : QepollStep) (clean : s.Clean e) :
    Completes s e (s.step e) := by
  have moving : ∀ efd, e = .app efd → s.step e = s.appStep efd := by
    rintro efd rfl
    simp [step, good.alive]
  have undisturbed : ∀ efd w, e ≠ .app efd → s.app efd = some w → (s.step e).app efd = some w := by
    intro efd w notMine at_
    unfold step
    rw [good.alive]
    simp only [Bool.false_eq_true, if_false]
    cases e with
    | addTimeEvent core call =>
        dsimp only
        split
        case isTrue => exact at_
        case isFalse => exact at_
    | stack core => exact (congrFun (stackStep_app core) efd).trans at_
    | wait other maxevents =>
        dsimp only
        split
        case isFalse => exact at_
        case isTrue free =>
          have differ : efd ≠ other := by
            rintro rfl
            rw [at_] at free
            cases free
          exact (Function.update_of_ne differ _ _).trans at_
    | app other =>
        have differ : efd ≠ other := fun same => notMine (by rw [same])
        exact (appStep_other differ).trans at_
  refine ⟨?_, undisturbed, ?_⟩
  · rintro efd w rfl at_
    rw [moving efd rfl]
    rcases good.appStep_work at_ (fun x => clean.valid at_) with ⟨done, -⟩ | nearer
    · exact .inl done
    · exact .inr nearer
  · intro efd w at_ done short c mine stack
    by_cases own : e = .app efd
    · subst own
      rw [moving efd rfl] at done
      rcases good.appStep_work at_ (fun x => clean.valid at_) with ⟨-, over_⟩ | ⟨w', more, -⟩
      · exact good.short at_ over_ short mine stack
      · rw [more] at done
        cases done
    · rw [undisturbed efd w own at_] at done
      cases done

theorem init_good (numStack : Nat) {size : EventChan → Nat} (two : ∀ c, 2 ≤ size c)
    (mask : Nat → UInt32) (epData : Nat → Nat) : (init numStack size mask epData).Good where
  alive := rfl
  shared := by
    intro c
    have shared : (Spsc.init (size c) : Spsc QepollEvent).Shared [] := Spsc.init_shared (two c)
    have empty : (Spsc.init (size c) : Spsc QepollEvent).queued = [] := shared.queued_eq
    change (Spsc.init (size c) : Spsc QepollEvent).Shared (Spsc.init (size c)).queued
    rw [empty]
    exact shared
  serves := fun _ => rfl
  delivered := by
    intro c
    exact (Spsc.init_shared (α := QepollEvent) (two c)).queued_eq.symm
  call := nofun

/-- **Delivery of events.**  Whatever the interleaving of the stack threads and the applications,
a clean run loses no event: on every channel the accepted events are those returned, in the order
they were added, followed by those that still wait; and `qepoll_wait` comes to its end by its own
steps, with everything that was accepted before it began unless it filled its array. -/
theorem events_delivered (numStack : Nat) (size : EventChan → Nat) (two : ∀ c, 2 ≤ size c)
    (mask : Nat → UInt32) (epData : Nat → Nat) (es : List QepollStep)
    (clean : Lib.Run.Allowed step Clean (init numStack size mask epData) es) :
    Lib.Run.Along step Delivers (init numStack size mask epData) es ∧
      Lib.Run.Each step Completes (init numStack size mask epData) es := by
  have first := init_good numStack two mask epData
  constructor
  · have along : Lib.Run.Along step Good (init numStack size mask epData) es :=
      Lib.Run.along_of_step (fun s e good ok => step_good good e ok) es _ first clean
    exact Lib.Run.Along.mono (fun s good => ⟨good.alive, good.delivered⟩) es _ along
  · exact Lib.Run.each_of_step (P := Good)
      (fun s e good ok => ⟨step_good good e ok, step_completes good e ok⟩) es _ first clean

end Runs

/-- One stack thread adds events of the given types to socket 5, each on its own. -/
def addAll (types : List UInt32) : List QepollStep :=
  types.flatMap fun type_ =>
    .addTimeEvent 0 { event := type_, pri := false, sockid := 5, apid := 0 } ::
      List.replicate 7 (.stack 0)

/-- Two read events, pending together and returned by one call. -/
def cleanRun : List QepollStep :=
  addAll [qEpollin, qEpollin] ++ .wait 0 8 :: List.replicate 17 (.app 0)

/-- Four slots a ring, one stack thread, no mask set. -/
def start : Qepoll := init 1 (fun _ => 4) (fun _ => 0) (fun _ => 0)

theorem events_delivered_cleanRun :
    (Lib.Run.run step start cleanRun).returned ⟨0, 0, false⟩ =
      [⟨false, 5, qEpollin, 0⟩, ⟨false, 5, qEpollin, 0⟩] ∧
    Lib.Run.Along step Delivers start cleanRun ∧ Lib.Run.Each step Completes start cleanRun :=
  ⟨by decide +kernel, events_delivered 1 _ (fun _ => by decide) _ _ cleanRun (by decide +kernel)⟩

/-- A read event, then a write event on the same socket, then a call of `qepoll_wait`. -/
def droppingRun : List QepollStep :=
  addAll [qEpollin, qEpollout] ++ .wait 0 8 :: List.replicate 17 (.app 0)

/-- **The read event is lost**: both calls of `AddTimeEvent` returned 0, `qepoll_wait` has returned
with room to spare, and the read event was neither returned nor is it queued any more. -/
theorem event_dropped :
    (Lib.Run.run step start droppingRun).accepted ⟨0, 0, false⟩ =
      [⟨false, 5, qEpollin, 0⟩, ⟨false, 5, qEpollout, 0⟩] ∧
    (Lib.Run.run step start droppingRun).returned ⟨0, 0, false⟩ = [⟨false, 5, qEpollout, 0⟩] ∧
    (Lib.Run.run step start droppingRun).waiting ⟨0, 0, false⟩ = [] ∧
    ((Lib.Run.run step start droppingRun).app 0).isNone ∧
    ¬ Lib.Run.Along step Delivers start droppingRun := by
  have accepted : (Lib.Run.run step start droppingRun).accepted ⟨0, 0, false⟩ =
    [⟨false, 5, qEpollin, 0⟩, ⟨false, 5, qEpollout, 0⟩] := by decide +kernel
  have returned : (Lib.Run.run step start droppingRun).returned ⟨0, 0, false⟩ =
    [⟨false, 5, qEpollout, 0⟩] := by decide +kernel
  have waiting : (Lib.Run.run step start droppingRun).waiting ⟨0, 0, false⟩ = [] := by
    decide +kernel
  refine ⟨accepted, returned, waiting, by decide +kernel, ?_⟩
  intro along
  have last := (Lib.Run.Along.last _ _ along).delivered ⟨0, 0, false⟩
  rw [accepted, returned, waiting] at last
  cases last

end Qepoll

end QStack
