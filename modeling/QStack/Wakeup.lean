/-
# QStack.Wakeup -- giving up the core when there are no events

An application that shares its core with a stack thread sleeps in `eventmgt_get` or
`qepoll_wait` when its rings are empty: it writes `knocked = 0`, `waiting = 0`, `pending = 1`
and yields.  A stack thread that has added an event writes `knocked = 1` for the application
it was meant for, and `wakeup_application` hands the core back only if `knocked` is set.
Each of these is a step of its own here, so is each look at a ring, and a list of `WakeStep`s
is an interleaving of any number of stack threads with the applications.

Nothing looks at the rings again between `knocked = 0` and the yield.  An event added after
its ring was last looked at, whose wakeup comes before `knocked = 0`, is slept on; so is one
that `q_distribute_event` sends to another application than the one that is then woken.

* `step_heard`: a step that does neither of the two keeps every application heard;
* `no_lost_wakeup`: so in a run of such steps a sleeping application with an event on a ring
  it polls has been knocked at, or is about to be;
* `wakeup_lost`: the run that loses one.
-/
import QStack.EventConsumers
import QStack.Lib.Run

namespace QStack

set_option autoImplicit false

open EventMgt AppRings

/-- `struct thread_wakeup`, as `__create_app_thread` sets it. -/
structure ThreadWakeup where
  waiting : Bool := true
  pending : Bool := true
  knocked : Bool := true
deriving DecidableEq, Repr

/-- The call an application sleeps in. -/
inductive WakeCall where
  | eventmgtGet
  | qepollWait
deriving DecidableEq, Repr

/-- The rings a call looks at. -/
def WakeCall.Polls (call : WakeCall) (q : PolledRing) : Prop :=
  match call with
  | .eventmgtGet => q.dire = .stackToQe
  | .qepollWait => True

instance (call : WakeCall) (q : PolledRing) : Decidable (call.Polls q) :=
  match call with
  | .eventmgtGet => inferInstanceAs (Decidable (q.dire = .stackToQe))
  | .qepollWait => inferInstanceAs (Decidable True)

/-- The place of `qepoll_wait` in its loops. -/
structure WaitScan where
  maxevents : Int
  ns : Nat
  dire : QeventDire
  loop : WaitLoop
  out : List Taken
deriving DecidableEq, Repr

namespace WaitScan

def ring (w : WaitScan) : PolledRing := ⟨w.ns, w.dire, w.loop != .low⟩

/-- The loop ends. -/
def pass (w : WaitScan) : WaitScan :=
  match w.loop, w.dire with
  | .high, _ | .again, _ => { w with loop := .low }
  | .low, .stackToQe => { w with dire := .appToQe, loop := .high }
  | .low, .appToQe => { w with ns := w.ns + 1, dire := .stackToQe, loop := .high }

/-- The loop goes round with `out` copied out. -/
def next (w : WaitScan) (out : List Taken) : WaitScan :=
  match w.loop with
  | .high => { w with out := out }
  | .low | .again => { w with loop := .again, out := out }

end WaitScan

/-- Where an application stands. -/
inductive AppPoint where
  /-- `__create_app_thread` has made the coroutine and it has not run -/
  | created
  | running
  /-- `qepoll_mgt_wait` at stack `ns`, for the buffer of priority `pri` -/
  | fetch (pri : Bool) (ns : Nat) (out : List Taken)
  | wait (w : WaitScan)
  /-- nothing was found, `knocked = 0` is to be written -/
  | clearing (call : WakeCall)
  /-- `waiting = 0` is to be written -/
  | cleared (call : WakeCall)
  /-- `pending = 1` is to be written -/
  | dozing (call : WakeCall)
  /-- in `yield_to_stack` -/
  | asleep (call : WakeCall)
  /-- `pending = 0` is to be written -/
  | woken
deriving DecidableEq, Repr

namespace AppPoint

/-- The call whose `knocked = 0` has been written and that has not been woken. -/
def past : AppPoint → Option WakeCall
  | .cleared call | .dozing call | .asleep call => some call
  | _ => none

/-- The call that found nothing. -/
def leaving : AppPoint → Option WakeCall
  | .clearing call | .cleared call | .dozing call | .asleep call => some call
  | _ => none

/-- The rings an application polls where it stands. -/
def Polls (p : AppPoint) (q : PolledRing) : Prop :=
  match p with
  | .fetch _ _ _ => q.dire = .stackToQe
  | .clearing call | .cleared call | .dozing call | .asleep call => call.Polls q
  | _ => True

instance : (p : AppPoint) → (q : PolledRing) → Decidable (p.Polls q)
  | .fetch _ _ _, q => inferInstanceAs (Decidable (q.dire = .stackToQe))
  | .clearing call, q | .cleared call, q | .dozing call, q | .asleep call, q =>
      inferInstanceAs (Decidable (call.Polls q))
  | .created, _ | .running, _ | .wait _, _ | .woken, _ => .isTrue trivial

theorem leaving_of_past {p : AppPoint} {call : WakeCall} (past : p.past = some call) :
    p.leaving = some call := by
  cases p with
  | cleared | dozing | asleep => exact past
  | created | running | fetch | wait | clearing | woken => cases past

end AppPoint

/-- The stack threads and the applications. -/
structure Wakers where
  /-- `CONFIG.stack_thread` -/
  numStack : Nat
  /-- how many events fit on a ring -/
  cap : Nat → PolledRing → Nat
  /-- `rt_ctx->qstack != NULL`: the application shares its core with a stack thread -/
  hasStack : Nat → Bool
  queued : Nat → PolledRing → List QepollEvent
  qepoll : Nat → UInt32
  epData : Nat → Nat
  reg : Nat → QeventReg
  mgt : Nat → EventMgt
  flags : Nat → ThreadWakeup
  /-- the application a stack thread will wake, between its `AddTimeEvent` and its
  `wakeup_app_thread` -/
  stack : Nat → Option Nat
  app : Nat → AppPoint
  /-- `TRACE_EXIT` -/
  halt : Bool

inductive WakeStep where
  /-- a stack thread adds an event -/
  | addTimeEvent (core : Nat) (call : EventCall)
  /-- and wakes its application -/
  | wakeupAppThread (core : Nat)
  /-- the application registers a socket with a pending event -/
  | qepollCtl (efd : Nat) (event : EventCall)
  | eventmgtGet (efd : Nat)
  | qepollWait (efd : Nat) (maxevents : Int)
  /-- the next step of the application -/
  | app (efd : Nat)
  /-- the stack thread on the core of the application calls `wakeup_application` -/
  | wakeupApplication (efd : Nat)
deriving DecidableEq, Repr

namespace Wakers

/-- The rings of one application. -/
def rings (s : Wakers) (efd : Nat) : AppRings :=
  { queued := s.queued efd, qepoll := s.qepoll, reg := s.reg }

def setApp (s : Wakers) (efd : Nat) (p : AppPoint) : Wakers :=
  { s with app := Function.update s.app efd p }

def setFlags (s : Wakers) (efd : Nat) (f : ThreadWakeup) : Wakers :=
  { s with flags := Function.update s.flags efd f }

def setMgt (s : Wakers) (efd : Nat) (mgt : EventMgt) : Wakers :=
  { s with mgt := Function.update s.mgt efd mgt }

def setRings (s : Wakers) (efd : Nat) (r : AppRings) : Wakers :=
  { s with queued := Function.update s.queued efd r.queued, qepoll := r.qepoll, reg := r.reg }

/-- `q_distribute_event`, `none` for its `TRACE_EXIT`. -/
def qDistributeEvent (s : Wakers) (call : EventCall) : Option (Nat × (Nat → QeventReg)) :=
  let reg := s.reg call.sockid
  if call.nature ≠ .accept ∧ reg.proc = true then
    if -1 < reg.prCore then some (reg.prCore.toNat, s.reg) else none
  else some (call.apid, Function.update s.reg call.sockid { proc := true, prCore := call.apid })

/-- The entry an event leaves on a ring, if the ring has room. -/
def push (s : Wakers) (efd : Nat) (q : PolledRing) (event : EventCall) : Wakers :=
  { s with
    qepoll := Function.update s.qepoll event.sockid event.event
    queued := Function.update s.queued efd (Function.update (s.queued efd) q
      (s.queued efd q ++ [{ pri := event.pri, sockid := event.sockid, events := event.event,
                            data := s.epData event.sockid }])) }

/-- The mask is overwritten even if the ring is full. -/
def refuse (s : Wakers) (event : EventCall) : Wakers :=
  { s with qepoll := Function.update s.qepoll event.sockid event.event }

/-- `add_epoll_event` up to the result of `AddTimeEvent`. -/
def addTimeEvent (s : Wakers) (core : Nat) (call : EventCall) : Wakers :=
  match s.qDistributeEvent call with
  | none => { s with halt := true }
  | some (qid, reg) =>
      let q := PolledRing.mk core .stackToQe call.pri
      if (s.queued qid q).length < s.cap qid q then
        { { s with reg := reg }.push qid q call with
          stack := Function.update s.stack core (some call.apid) }
      else { s with reg := reg }.refuse call

/-- `add_epoll_event` after it. -/
def wakeupAppThread (s : Wakers) (core : Nat) : Wakers :=
  match s.stack core with
  | none => s
  | some dst =>
      let s := { s with stack := Function.update s.stack core none }
      if s.hasStack dst then s.setFlags dst { s.flags dst with knocked := true } else s

/-- `AddTimeEvent` on the channel of the application itself. -/
def qepollCtl (s : Wakers) (efd : Nat) (event : EventCall) : Wakers :=
  let q := PolledRing.mk (event.sockid % s.numStack) .appToQe event.pri
  if (s.queued efd q).length < s.cap efd q then s.push efd q event else s.refuse event

/-- A call that found nothing sleeps, if there is a stack thread to give the core to. -/
def leave (s : Wakers) (efd : Nat) (call : WakeCall) : Wakers :=
  s.setApp efd (if s.hasStack efd then .clearing call else .running)

/-- `qepoll_mgt_wait` has returned: the buffer hands out its first event, or the low buffer
does, or the low rings are looked at, or nothing was found. -/
def fetched (s : Wakers) (efd : Nat) (pri : Bool) (q : EvmgtQueue) : Wakers :=
  let mgt := s.mgt efd
  let got := evmgtqGet q
  let mgt := if pri then { mgt with eventsH := got.2 } else { mgt with eventsL := got.2 }
  match got.1, pri with
  | some _, _ => (s.setMgt efd mgt).setApp efd .running
  | none, false => (s.setMgt efd mgt).leave efd .eventmgtGet
  | none, true =>
      let low := evmgtqGet mgt.eventsL
      match low.1 with
      | some _ => (s.setMgt efd { mgt with eventsL := low.2 }).setApp efd .running
      | none => (s.setMgt efd mgt).setApp efd (.fetch false 0 [])

def fetchStep (s : Wakers) (efd : Nat) (pri : Bool) (ns : Nat) (out : List Taken) : Wakers :=
  let limit := if pri then (s.mgt efd).size else (s.mgt efd).lb
  let q := PolledRing.mk ns .stackToQe pri
  if limit ≤ 0 then s.fetched efd pri { events := [], num := -einval, p := 0 }
  else if s.numStack ≤ ns then s.fetched efd pri { events := out, num := out.length, p := 0 }
  else if More q limit (s.rings efd, out) then
    let st := qepollQevent q (s.rings efd, out)
    (s.setRings efd st.1).setApp efd (.fetch pri ns st.2)
  else s.setApp efd (.fetch pri (ns + 1) out)

def waitStep (s : Wakers) (efd : Nat) (w : WaitScan) : Wakers :=
  if s.numStack ≤ w.ns then
    if w.out = [] then s.leave efd .qepollWait else s.setApp efd .running
  else if More w.ring w.maxevents (s.rings efd, w.out) then
    let st := qepollQevent w.ring (s.rings efd, w.out)
    (s.setRings efd st.1).setApp efd (.wait (w.next st.2))
  else s.setApp efd (.wait w.pass)

def appStep (s : Wakers) (efd : Nat) : Wakers :=
  match s.app efd with
  | .created | .running | .asleep _ => s
  | .fetch pri ns out => s.fetchStep efd pri ns out
  | .wait w => s.waitStep efd w
  | .clearing call =>
      (s.setFlags efd { s.flags efd with knocked := false }).setApp efd (.cleared call)
  | .cleared call =>
      (s.setFlags efd { s.flags efd with waiting := false }).setApp efd (.dozing call)
  | .dozing call =>
      (s.setFlags efd { s.flags efd with pending := true }).setApp efd (.asleep call)
  | .woken => (s.setFlags efd { s.flags efd with pending := false }).setApp efd .running

/-- `wakeup_application`, and with it the core. -/
def wakeupApplication (s : Wakers) (efd : Nat) : Wakers :=
  if (s.flags efd).knocked then
    match s.app efd with
    | .created => s.setApp efd .running
    | .asleep _ => s.setApp efd .woken
    | _ => s
  else s

def step (s : Wakers) (e : WakeStep) : Wakers :=
  if s.halt then s
  else
    match e with
    | .addTimeEvent core call =>
        if core < s.numStack ∧ s.stack core = none then s.addTimeEvent core call else s
    | .wakeupAppThread core => s.wakeupAppThread core
    | .qepollCtl efd event => if s.app efd = .running then s.qepollCtl efd event else s
    | .eventmgtGet efd =>
        if s.app efd = .running then
          match evmgtqGet (s.mgt efd).eventsH with
          | (some _, h) => s.setMgt efd { s.mgt efd with eventsH := h }
          | (none, _) => s.setApp efd (.fetch true 0 [])
        else s
    | .qepollWait efd maxevents =>
        if s.app efd = .running ∧ 0 < maxevents then
          s.setApp efd (.wait
            { maxevents := maxevents, ns := 0, dire := .stackToQe, loop := .high, out := [] })
        else s
    | .app efd => s.appStep efd
    | .wakeupApplication efd => s.wakeupApplication efd

/-! ## The law -/

/-- A stack thread is between its `AddTimeEvent` and its `wakeup_app_thread` for `efd`. -/
def Between (s : Wakers) (efd : Nat) : Prop := ∃ core < s.numStack, s.stack core = some efd

instance (s : Wakers) (efd : Nat) : Decidable (s.Between efd) :=
  inferInstanceAs (Decidable (∃ core < s.numStack, s.stack core = some efd))

/-- **A sleeping application with an event on a ring it polls is knocked at**, once the stack
thread that added it has got to its `wakeup_app_thread`. -/
def Law (s : Wakers) : Prop :=
  ∀ efd, (s.flags efd).pending = true →
    (∃ q ∈ polledRings s.numStack, (s.app efd).Polls q ∧ s.queued efd q ≠ []) →
    ¬ s.Between efd → (s.flags efd).knocked = true

/-- What comes for `efd` now will be heard: it has not written `knocked = 0`, or has been
knocked at since, or is about to be. -/
def Heeded (s : Wakers) (efd : Nat) : Prop :=
  (s.app efd).past = none ∨ (s.flags efd).knocked = true ∨ s.Between efd

instance (s : Wakers) (efd : Nat) : Decidable (s.Heeded efd) :=
  inferInstanceAs (Decidable (_ ∨ _ ∨ _))

/-- The rings a call polls are empty. -/
def Idle (s : Wakers) (efd : Nat) (call : WakeCall) : Prop :=
  ∀ q ∈ polledRings s.numStack, call.Polls q → s.queued efd q = []

instance (s : Wakers) (efd : Nat) (call : WakeCall) : Decidable (s.Idle efd call) :=
  inferInstanceAs (Decidable (∀ q ∈ polledRings s.numStack, call.Polls q → s.queued efd q = []))

/-- `knocked = 0` is written when the rings are still empty, or the stack thread that added to
one has yet to knock. -/
def ClearOk (s : Wakers) (efd : Nat) : AppPoint → Prop
  | .clearing call => s.Idle efd call ∨ s.Between efd
  | _ => True

instance (s : Wakers) (efd : Nat) : (p : AppPoint) → Decidable (s.ClearOk efd p)
  | .clearing call => inferInstanceAs (Decidable (s.Idle efd call ∨ s.Between efd))
  | .created | .running | .fetch _ _ _ | .wait _ | .cleared _ | .dozing _ | .asleep _ | .woken =>
      .isTrue trivial

/-- An event goes to the application that will be woken for it, or to one that hears of it
anyway, or to a full ring. -/
def RouteOk (s : Wakers) (core : Nat) (call : EventCall) : Option (Nat × (Nat → QeventReg)) → Prop
  | none => True
  | some (qid, _) =>
      qid = call.apid ∨ s.Heeded qid ∨
        s.cap qid ⟨core, .stackToQe, call.pri⟩ ≤ (s.queued qid ⟨core, .stackToQe, call.pri⟩).length

instance (s : Wakers) (core : Nat) (call : EventCall) :
    (route : Option (Nat × (Nat → QeventReg))) → Decidable (s.RouteOk core call route)
  | none => .isTrue trivial
  | some (_, _) => inferInstanceAs (Decidable (_ ∨ _ ∨ _))

/-- The steps that lose no wakeup. -/
def StepOk (s : Wakers) : WakeStep → Prop
  | .app efd => s.ClearOk efd (s.app efd)
  | .addTimeEvent core call => s.RouteOk core call (s.qDistributeEvent call)
  | _ => True

instance (s : Wakers) : (e : WakeStep) → Decidable (s.StepOk e)
  | .app efd => inferInstanceAs (Decidable (s.ClearOk efd (s.app efd)))
  | .addTimeEvent core call =>
      inferInstanceAs (Decidable (s.RouteOk core call (s.qDistributeEvent call)))
  | .wakeupAppThread _ | .qepollCtl _ _ | .eventmgtGet _ | .qepollWait _ _
  | .wakeupApplication _ => .isTrue trivial

/-- Every application has been created, and no stack thread is between two steps. -/
structure Start (s : Wakers) : Prop where
  app : ∀ efd, s.app efd = .created
  flags : ∀ efd, s.flags efd = {}
  stack : ∀ core, s.stack core = none

/-! ## The invariant -/

/-- An application is heard when it sleeps only on empty rings, or is knocked at. -/
structure Heard (s : Wakers) (efd : Nat) : Prop where
  early : (s.flags efd).pending = true → (s.app efd).past = none → (s.flags efd).knocked = true
  late : ∀ call, (s.app efd).past = some call →
    s.Idle efd call ∨ (s.flags efd).knocked = true ∨ s.Between efd
  placed : ∀ call, (s.app efd).leaving = some call → s.hasStack efd = true

/-- An application whose `knocked = 0` is not written has nothing to miss. -/
theorem Heard.of_early {s : Wakers} {efd : Nat} (past : (s.app efd).past = none)
    (early : (s.flags efd).pending = true → (s.flags efd).knocked = true)
    (placed : ∀ call, (s.app efd).leaving = some call → s.hasStack efd = true) : s.Heard efd := by
  refine ⟨fun pending _ => early pending, ?_, placed⟩
  intro call now
  rw [past] at now
  cases now

theorem Start.heard {s : Wakers} (start : s.Start) (efd : Nat) : s.Heard efd := by
  apply Heard.of_early
  · rw [start.app]
    rfl
  · intro
    rw [start.flags]
  · intro call leaving
    rw [start.app] at leaving
    cases leaving

/-- The invariant is the law, and more. -/
theorem law_of_heard {s : Wakers} (heard : ∀ efd, s.Heard efd) : s.Law := by
  rintro efd pending ⟨q, polled, ring, some⟩ noneBetween
  cases past : (s.app efd).past with
  | none => exact (heard efd).early pending past
  | some call =>
      have polls : call.Polls q := by
        cases point : s.app efd with
        | cleared | dozing | asleep =>
            rw [point] at past ring
            obtain rfl := Option.some.inj past
            exact ring
        | created | running | fetch | wait | clearing | woken =>
            rw [point] at past
            cases past
      rcases (heard efd).late call past with idle | knocked | between
      · exact absurd (idle q polled polls) some
      · exact knocked
      · exact absurd between noneBetween

section Steps

variable {s s' : Wakers} {e efd : Nat}

/-- Nothing but the application `e` and the masks is touched. -/
structure Touches (e : Nat) (s s' : Wakers) : Prop where
  numStack : s'.numStack = s.numStack
  hasStack : s'.hasStack = s.hasStack
  stack : s'.stack = s.stack
  app : ∀ efd ≠ e, s'.app efd = s.app efd
  flags : ∀ efd ≠ e, s'.flags efd = s.flags efd
  queued : ∀ efd ≠ e, s'.queued efd = s.queued efd

theorem Touches.others (touches : Touches e s s') (other : efd ≠ e) (heard : s.Heard efd) :
    s'.Heard efd := by
  have app := touches.app efd other
  have flags := touches.flags efd other
  refine ⟨?_, ?_, ?_⟩
  · rw [app, flags]
    exact heard.early
  · rw [app, flags]
    intro call past
    rcases heard.late call past with idle | knocked | between
    · left
      rw [Idle, touches.numStack, touches.queued efd other]
      exact idle
    · exact .inr (.inl knocked)
    · right; right
      rw [Between, touches.numStack, touches.stack]
      exact between
  · rw [app, touches.hasStack]
    exact heard.placed

/-- An application that goes on without writing its flags and has not yet written
`knocked = 0`. -/
structure Moves (e : Nat) (s s' : Wakers) : Prop extends Touches e s s' where
  same : s'.flags e = s.flags e
  past : (s'.app e).past = none
  leaving : ∀ call, (s'.app e).leaving = some call → s.hasStack e = true

theorem Moves.heard (moves : Moves e s s') (was : (s.app e).past = none)
    (heard : ∀ efd, s.Heard efd) (efd : Nat) : s'.Heard efd := by
  by_cases other : efd = e
  · subst other
    apply Heard.of_early moves.past
    · rw [moves.same]
      exact fun pending => (heard efd).early pending was
    · rw [moves.hasStack]
      exact moves.leaving
  · exact moves.others other (heard efd)

/-- The application goes to another place, with its rings and its buffers changed. -/
theorem moves_to {p : AppPoint} (past : p.past = none)
    (leaving : ∀ call, p.leaving = some call → s.hasStack e = true) (mgt : Nat → EventMgt)
    (qepoll : Nat → UInt32) (reg : Nat → QeventReg) {queued : Nat → PolledRing → List QepollEvent}
    (own : ∀ efd ≠ e, queued efd = s.queued efd) :
    Moves e s { s with
      app := Function.update s.app e p, mgt := mgt, qepoll := qepoll, reg := reg
      queued := queued } where
  numStack := rfl
  hasStack := rfl
  stack := rfl
  app efd other := Function.update_of_ne other _ _
  flags _ _ := rfl
  queued := own
  same := rfl
  past := by simpa using past
  leaving := by simpa using leaving

theorem setApp_moves {p : AppPoint} (past : p.past = none)
    (leaving : ∀ call, p.leaving = some call → s.hasStack e = true) (mgt : EventMgt) :
    Moves e s ((s.setMgt e mgt).setApp e p) :=
  moves_to past leaving _ _ _ fun _ _ => rfl

theorem leave_moves (call : WakeCall) (mgt : EventMgt) :
    Moves e s ((s.setMgt e mgt).leave e call) := by
  apply setApp_moves
  · split <;> rfl
  · intro _ leaving
    split at leaving
    · rename_i stack
      exact stack
    · cases leaving

theorem fetched_moves (pri : Bool) (q : EvmgtQueue) : Moves e s (s.fetched e pri q) := by
  unfold fetched
  extract_lets mgt got mgt' low
  split
  · apply setApp_moves <;> [rfl; nofun]
  · exact leave_moves _ _
  · split
    · apply setApp_moves <;> [rfl; nofun]
    · apply setApp_moves <;> [rfl; nofun]

/-- An entry taken off a ring of the application. -/
theorem setRings_moves {p : AppPoint} (r : AppRings) (leaving : p.leaving = none) :
    Moves e s ((s.setRings e r).setApp e p) := by
  apply moves_to
  · cases past : p.past with
    | none => rfl
    | some call => rw [AppPoint.leaving_of_past past] at leaving; cases leaving
  · rw [leaving]
    nofun
  · intro efd other
    exact Function.update_of_ne other _ _

theorem goes_moves {p : AppPoint} (leaving : p.leaving = none) : Moves e s (s.setApp e p) := by
  have moves := setRings_moves (s := s) (e := e) (s.rings e) leaving
  have still : s.setRings e (s.rings e) = s := by simp [setRings, rings]
  rw [still] at moves
  exact moves

theorem fetchStep_moves (pri : Bool) (ns : Nat) (out : List Taken) :
    Moves e s (s.fetchStep e pri ns out) := by
  unfold fetchStep
  extract_lets limit q st
  split
  · exact fetched_moves _ _
  · split
    · exact fetched_moves _ _
    · split
      · exact setRings_moves _ rfl
      · exact goes_moves rfl

theorem waitStep_moves (w : WaitScan) : Moves e s (s.waitStep e w) := by
  unfold waitStep
  split
  · split
    · have moves := leave_moves (s := s) (e := e) .qepollWait (s.mgt e)
      have still : s.setMgt e (s.mgt e) = s := by simp [setMgt]
      rw [still] at moves
      exact moves
    · exact goes_moves rfl
  · split
    · exact setRings_moves _ rfl
    · exact goes_moves rfl

/-- The application writes a flag. -/
theorem setFlags_touches (f : ThreadWakeup) (p : AppPoint) :
    Touches e s ((s.setFlags e f).setApp e p) where
  numStack := rfl
  hasStack := rfl
  stack := rfl
  app _ other := Function.update_of_ne other _ _
  flags _ other := Function.update_of_ne other _ _
  queued _ _ := rfl

/-- The steps towards sleep after `knocked = 0`: what was heard before is heard. -/
theorem Heard.doze {f : ThreadWakeup} {p : AppPoint} {call : WakeCall} (heard : s.Heard e)
    (was : (s.app e).past = some call) (now : p.past = some call)
    (knocked : f.knocked = (s.flags e).knocked) : ((s.setFlags e f).setApp e p).Heard e := by
  have app : ((s.setFlags e f).setApp e p).app e = p := Function.update_self _ _ _
  have flags : ((s.setFlags e f).setApp e p).flags e = f := Function.update_self _ _ _
  refine ⟨?_, ?_, ?_⟩
  · rw [app, now]
    nofun
  · rw [app, flags, knocked, now]
    intro call' same
    obtain rfl := Option.some.inj same
    exact heard.late _ was
  · rw [app]
    intro call' leaving
    exact heard.placed call (AppPoint.leaving_of_past was)

/-- **The steps of the application.**  All turns on `knocked = 0`. -/
theorem appStep_heard (ok : s.ClearOk e (s.app e)) (heard : ∀ efd, s.Heard efd) (efd : Nat) :
    (s.appStep e).Heard efd := by
  unfold appStep
  cases point : s.app e with
  | created | running | asleep => exact heard efd
  | fetch pri ns out => exact (fetchStep_moves pri ns out).heard (by rw [point]; rfl) heard efd
  | wait w => exact (waitStep_moves w).heard (by rw [point]; rfl) heard efd
  | clearing call =>
      dsimp only
      by_cases other : efd = e
      · subst other
        rw [point] at ok
        refine ⟨by simp [setApp, AppPoint.past], ?_, ?_⟩
        · intro call' past
          obtain rfl : call = call' := by simpa [setApp, AppPoint.past] using past
          rcases ok with idle | between
          · exact .inl idle
          · exact .inr (.inr between)
        · intro call' _
          exact (heard efd).placed call (by rw [point]; rfl)
      · exact (setFlags_touches _ _).others other (heard efd)
  | cleared call =>
      dsimp only
      by_cases other : efd = e
      · subst other
        exact (heard efd).doze (by rw [point]; rfl) rfl rfl
      · exact (setFlags_touches _ _).others other (heard efd)
  | dozing call =>
      dsimp only
      by_cases other : efd = e
      · subst other
        exact (heard efd).doze (by rw [point]; rfl) rfl rfl
      · exact (setFlags_touches _ _).others other (heard efd)
  | woken =>
      dsimp only
      by_cases other : efd = e
      · subst other
        apply Heard.of_early
        · simp [setApp, AppPoint.past]
        · simp [setApp, setFlags]
        · simp [setApp, AppPoint.leaving]
      · exact (setFlags_touches _ _).others other (heard efd)

theorem wakeupApplication_heard (heard : ∀ efd, s.Heard efd) (efd : Nat) :
    (s.wakeupApplication e).Heard efd := by
  unfold wakeupApplication
  split
  · rename_i knocked
    have goes : ∀ p : AppPoint, p.leaving = none → p.past = none → (s.setApp e p).Heard efd := by
      intro p leaving past
      by_cases other : efd = e
      · subst other
        apply Heard.of_early
        · simpa [setApp] using past
        · intro _
          exact knocked
        · simp [setApp, leaving]
      · exact (goes_moves leaving).others other (heard efd)
    split
    · exact goes _ rfl rfl
    · exact goes _ rfl rfl
    · exact heard efd
  · exact heard efd

/-- Only a stack thread that knocks changes who is about to knock. -/
theorem wakeupAppThread_heard {core : Nat} (heard : ∀ efd, s.Heard efd) (efd : Nat) :
    (s.wakeupAppThread core).Heard efd := by
  unfold wakeupAppThread
  cases at_ : s.stack core with
  | none => exact heard efd
  | some dst =>
      dsimp only
      -- for another application the thread was not between its two steps
      have between : efd ≠ dst → s.Between efd →
          ∃ c < s.numStack, Function.update s.stack core none c = some efd := by
        rintro other ⟨c, inside, is⟩
        have apart : c ≠ core := by
          rintro rfl
          rw [at_] at is
          exact other (Option.some.inj is).symm
        exact ⟨c, inside, (Function.update_of_ne apart _ _).trans is⟩
      split
      · by_cases own : efd = dst
        · subst own
          have flags : ∀ f : ThreadWakeup,
              (({ s with stack := Function.update s.stack core none }).setFlags efd f).flags efd = f :=
            fun f => Function.update_self _ _ _
          refine ⟨fun _ _ => ?_, fun _ _ => .inr (.inl ?_), (heard efd).placed⟩
          · rw [flags]
          · rw [flags]
        · have flags : ∀ f : ThreadWakeup,
              (({ s with stack := Function.update s.stack core none }).setFlags dst f).flags efd
                = s.flags efd := fun f => Function.update_of_ne own _ _
          refine ⟨?_, ?_, (heard efd).placed⟩
          · rw [flags]
            exact (heard efd).early
          · rw [flags]
            intro call past
            rcases (heard efd).late call past with idle | knocked | is
            · exact .inl idle
            · exact .inr (.inl knocked)
            · exact .inr (.inr (between own is))
      · rename_i alone
        refine ⟨(heard efd).early, fun call past => ?_, (heard efd).placed⟩
        have own : efd ≠ dst := by
          rintro rfl
          exact alone ((heard efd).placed call (AppPoint.leaving_of_past past))
        rcases (heard efd).late call past with idle | knocked | is
        · exact .inl idle
        · exact .inr (.inl knocked)
        · exact .inr (.inr (between own is))

/-- **An event added**: its application has yet to sleep, or has been knocked at, or will be. -/
theorem addTimeEvent_heard {core : Nat} {call : EventCall} (inside : core < s.numStack)
    (free : s.stack core = none) (ok : s.RouteOk core call (s.qDistributeEvent call))
    (heard : ∀ efd, s.Heard efd) (efd : Nat) : (s.addTimeEvent core call).Heard efd := by
  unfold addTimeEvent
  cases route : s.qDistributeEvent call with
  | none => exact ⟨(heard efd).early, (heard efd).late, (heard efd).placed⟩
  | some dest =>
      obtain ⟨qid, reg⟩ := dest
      rw [route] at ok
      dsimp only
      split
      · rename_i room
        refine ⟨(heard efd).early, fun call' past => ?_, (heard efd).placed⟩
        -- who was about to knock still is
        have between : s.Between efd →
            ∃ c < s.numStack, Function.update s.stack core (some call.apid) c = some efd := by
          rintro ⟨c, under, is⟩
          have apart : c ≠ core := by
            rintro rfl
            rw [free] at is
            cases is
          exact ⟨c, under, (Function.update_of_ne apart _ _).trans is⟩
        by_cases own : efd = qid
        · subst own
          rcases ok with rfl | (early | knocked | is) | full
          · exact .inr (.inr ⟨core, inside, Function.update_self _ _ _⟩)
          · exact absurd (early.symm.trans past) nofun
          · exact .inr (.inl knocked)
          · exact .inr (.inr (between is))
          · exact absurd room (Nat.not_lt.mpr full)
        · rcases (heard efd).late call' past with idle | knocked | is
          · left
            intro q polled polls
            exact (congrFun (Function.update_of_ne own _ _) q).trans (idle q polled polls)
          · exact .inr (.inl knocked)
          · exact .inr (.inr (between is))
      · exact ⟨(heard efd).early, (heard efd).late, (heard efd).placed⟩

/-- The application that raises an event itself is awake. -/
theorem qepollCtl_heard {event : EventCall} (awake : s.app e = .running)
    (heard : ∀ efd, s.Heard efd) (efd : Nat) : (s.qepollCtl e event).Heard efd := by
  unfold qepollCtl
  dsimp only
  split
  · by_cases own : efd = e
    · subst own
      apply Heard.of_early
      · exact (congrArg AppPoint.past awake).trans rfl
      · intro pending
        exact (heard efd).early pending ((congrArg AppPoint.past awake).trans rfl)
      · exact (heard efd).placed
    · refine ⟨(heard efd).early, fun call past => ?_, (heard efd).placed⟩
      rcases (heard efd).late call past with idle | heeded
      · left
        intro q polled polls
        exact (congrFun (Function.update_of_ne own _ _) q).trans (idle q polled polls)
      · exact .inr heeded
  · exact ⟨(heard efd).early, (heard efd).late, (heard efd).placed⟩

/-- **One step of any thread.** -/
theorem step_heard {x : WakeStep} (ok : s.StepOk x) (heard : ∀ efd, s.Heard efd) (efd : Nat) :
    (s.step x).Heard efd := by
  unfold step
  split
  · exact heard efd
  · cases x with
    | addTimeEvent core call =>
        dsimp only
        split
        · rename_i free
          exact addTimeEvent_heard free.1 free.2 ok heard efd
        · exact heard efd
    | wakeupAppThread core => exact wakeupAppThread_heard heard efd
    | qepollCtl e event =>
        dsimp only
        split
        · rename_i awake
          exact qepollCtl_heard awake heard efd
        · exact heard efd
    | eventmgtGet e =>
        dsimp only
        split
        · rename_i awake
          have early : (s.app e).past = none := by
            rw [awake]
            rfl
          split
          · exact ⟨(heard efd).early, (heard efd).late, (heard efd).placed⟩
          · exact (goes_moves rfl).heard early heard efd
        · exact heard efd
    | qepollWait e maxevents =>
        dsimp only
        split
        · rename_i awake
          have early : (s.app e).past = none := by
            rw [awake.1]
            rfl
          exact (goes_moves rfl).heard early heard efd
        · exact heard efd
    | app e => exact appStep_heard ok heard efd
    | wakeupApplication e => exact wakeupApplication_heard heard efd

end Steps

/-- **No wakeup is lost** in a run that writes `knocked = 0` on empty rings, or with a knock to
come, and sends every event to the application it wakes: whatever the interleaving, a sleeping
application with an event on a ring it polls has been knocked at, unless the stack thread that
added it is still between its `AddTimeEvent` and its `wakeup_app_thread`. -/
theorem no_lost_wakeup {s : Wakers} (start : s.Start) (es : List WakeStep)
    (allowed : Lib.Run.Allowed step StepOk s es) : Lib.Run.Along step Law s es := by
  apply Lib.Run.Along.mono fun s => law_of_heard
  have kept : ∀ s e, (∀ efd, Heard s efd) → StepOk s e → ∀ efd, Heard (step s e) efd :=
    fun _ _ heard ok => step_heard ok heard
  exact Lib.Run.along_of_step kept es s start.heard allowed

/-- Two stack threads, each with an application on its core. -/
def twoCores : Wakers where
  numStack := 2
  cap _ _ := 7
  hasStack _ := true
  queued _ _ := []
  qepoll _ := qEpollin
  epData _ := 0
  reg _ := {}
  mgt _ := eventmgtInit 64 128
  flags _ := {}
  stack _ := none
  app _ := .created
  halt := false

theorem twoCores_start : twoCores.Start :=
  ⟨fun _ => rfl, fun _ => rfl, fun _ => rfl⟩

/-- The application runs and finds all its rings empty. -/
def findsNothing : List WakeStep :=
  [.wakeupApplication 0, .eventmgtGet 0] ++ List.replicate 6 (.app 0)

/-- It gives up the core. -/
def sleeps : List WakeStep := [.app 0, .app 0, .app 0]

/-- A stack thread has a read event for it. -/
def raises (core sockid : Nat) : WakeStep :=
  .addTimeEvent core { event := qEpollin, pri := true, sockid := sockid, apid := 0 }

/-- One stack thread knocks while the application goes to sleep, the other when it does. -/
theorem no_lost_wakeup_raised :
    Lib.Run.Along step Law twoCores
      (findsNothing ++ [raises 1 6, .app 0, .wakeupAppThread 1, .app 0, raises 0 5, .app 0,
        .wakeupAppThread 0, .wakeupApplication 0, .app 0, .eventmgtGet 0, .app 0]) :=
  no_lost_wakeup twoCores_start _ (by decide +kernel)

/-- **The knocks of both stack threads come between the last look at the rings and
`knocked = 0`**: the application sleeps on two events, and nothing will wake it for them. -/
theorem wakeup_lost :
    twoCores.Start ∧
      ¬ (Lib.Run.run step twoCores (findsNothing ++
          [raises 0 5, raises 1 6, .wakeupAppThread 1, .wakeupAppThread 0] ++ sleeps)).Law := by
  refine ⟨twoCores_start, fun law => ?_⟩
  have knocked := law 0 (by decide +kernel) ⟨⟨1, .stackToQe, true⟩, by decide +kernel⟩
    (by decide +kernel)
  exact absurd knocked (by decide +kernel)

end Wakers

end QStack
