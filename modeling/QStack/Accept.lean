/-
# QStack.Accept -- which application a connection belongs to

The first event of a connection decides which application it is for (`event_dest`), and the socket
remembers it in `default_app`.  An established connection waits in the accept queue of that
application, one ring for each stack, until `q_accept` takes it.

So all that happens to a connection happens at one application: the events that were raised for it
and the accept (`one_application`).  What could go wrong is a socket that is given to another
connection while the old one still waits to be accepted; `Lasting` excludes it.
-/
import QStack.BufferAlloc
import QStack.Lib.Run

namespace QStack

set_option autoImplicit false

/-! ## The accept queue -/

namespace N21Rings

variable {α : Type}

def n21qInit (queueNum size : Nat) : N21Rings α :=
  { queueNum := queueNum, queuePoint := 0, queues := fun _ => .cirqInit size }

def n21qEnqueue (q : N21Rings α) (id : Nat) (x : α) : Int × N21Rings α :=
  let added := (q.queues id).cirqAdd x
  (added.1, { q with queues := Function.update q.queues id added.2 })

theorem n21qInit_valid {queueNum size : Nat} (byte : queueNum < 256) (one : 0 < queueNum)
    (room : 0 < size) :
    (n21qInit queueNum size : N21Rings α).Valid ∧
      (n21qInit queueNum size : N21Rings α).items = [] := by
  have empty : (CircularQueue.cirqInit size : CircularQueue α).Window [] :=
    CircularQueue.cirqInit_window room
  have held : ∀ id, (n21qInit queueNum size : N21Rings α).held id = [] := fun _ => empty.contents
  refine ⟨⟨byte, one, fun id _ => ?_⟩, (items_nil _).mpr fun id _ => held id⟩
  rw [held]
  exact empty

/-- A queue of the array takes one item more. -/
theorem perm_push {held : Nat → List α} {id n : Nat} (inside : id < n) (x : α) :
    ((List.range n).flatMap (Function.update held id (held id ++ [x]))).Perm
      (x :: (List.range n).flatMap held) := by
  have turned : ((List.range n).flatMap (Function.update held id (held id ++ [x]))).Perm
      ((List.range n).flatMap (Function.update held id (x :: held id))) := by
    apply List.Perm.flatMap_left
    intro other _
    by_cases same : other = id
    · subst same
      rw [Function.update_self, Function.update_self]
      exact List.perm_append_singleton x _
    · rw [Function.update_of_ne same, Function.update_of_ne same]
  have here : Function.update held id (x :: held id) id = x :: held id := Function.update_self _ _ _
  have popped := perm_pop here n inside
  rw [Function.update_idem, Function.update_eq_self] at popped
  exact turned.trans popped.symm

/-- **One enqueue.**  The item is taken, or the ring is full and nothing changes. -/
theorem n21qEnqueue_spec {q : N21Rings α} (valid : q.Valid) {id : Nat} (inside : id < q.queueNum)
    (x : α) :
    (q.n21qEnqueue id x).2.Valid ∧ (q.n21qEnqueue id x).2.queueNum = q.queueNum ∧
      (((q.n21qEnqueue id x).1 = success ∧ (q.n21qEnqueue id x).2.items.Perm (x :: q.items)) ∨
        ((q.n21qEnqueue id x).1 = failed ∧ (q.n21qEnqueue id x).2 = q)) := by
  have window := valid.rings id inside
  cases full : (q.queues id).cirqFull with
  | true =>
      have same : (q.n21qEnqueue id x).2 = q := by
        rw [n21qEnqueue, CircularQueue.cirqAdd_full full]
        dsimp only
        rw [Function.update_eq_self]
      refine ⟨by rwa [same], by rw [same], .inr ⟨?_, same⟩⟩
      rw [n21qEnqueue, CircularQueue.cirqAdd_full full]
  | false =>
      have pushed := window.cirqAdd full x
      have held : (q.n21qEnqueue id x).2.held = Function.update q.held id (q.held id ++ [x]) := by
        funext other
        show ((Function.update q.queues id _) other).contents = _
        by_cases same : other = id
        · subst same
          rw [Function.update_self, Function.update_self]
          exact pushed.contents
        · rw [Function.update_of_ne same, Function.update_of_ne same]
          rfl
      refine ⟨⟨valid.byte, valid.point, fun other below => ?_⟩, rfl, .inl ⟨?_, ?_⟩⟩
      · rw [held]
        show ((Function.update q.queues id _) other).Window _
        by_cases same : other = id
        · subst same
          rw [Function.update_self, Function.update_self]
          exact pushed
        · rw [Function.update_of_ne same, Function.update_of_ne same]
          exact valid.rings other below
      · rw [n21qEnqueue, CircularQueue.cirqAdd_room full]
      · show ((List.range q.queueNum).flatMap (q.n21qEnqueue id x).2.held).Perm _
        rw [held]
        exact perm_push inside x

theorem dequeueLoop_num (start : Nat) : ∀ (rounds : Nat) (q : N21Rings α),
    (q.dequeueLoop start rounds).2.queueNum = q.queueNum
  | 0, _ => rfl
  | rounds + 1, q => by
      rw [dequeueLoop]
      split
      · exact dequeueLoop_num start rounds q.round.2
      · rfl

end N21Rings

/-! ## The applications -/

/-- `CONFIG.stack_thread` and `CONFIG.app_thread`; a `default_app` of 255 is none. -/
structure Threads where
  stackThread : Nat
  appThread : Nat
  someStack : 0 < stackThread
  someApp : 0 < appThread
  stackByte : stackThread < 256
  appByte : appThread < 256

/-- The destination of an event for the socket `sockid` with this `default_app`. -/
def Threads.eventDest (t : Threads) (stackId sockid defaultApp : Nat) : Nat :=
  if defaultApp = 255 then
    (if t.stackThread = t.appThread then stackId else sockid % t.appThread) % 256
  else defaultApp

/-- What decides who gets a connection.  A connection is named by its socket. -/
structure Accepting where
  /-- a `uint8_t` of the socket -/
  defaultApp : Nat → Nat := fun _ => 255
  /-- the accept queue of an application -/
  acceptq : Nat → N21Rings Nat
  /-- history: the applications that were told of a connection or got it, since its socket was
  opened -/
  users : Nat → List Nat := fun _ => []
  /-- history: what was put into the accept queue of an application -/
  offered : Nat → List Nat := fun _ => []
  /-- history: what an application has accepted -/
  accepted : Nat → List Nat := fun _ => []

inductive AcceptEvent where
  /-- `handle_passive_open` -/
  | passiveOpen (sockid : Nat)
  /-- `q_socket` -/
  | socket (app sockid : Nat)
  /-- a read, write, error or close event -/
  | raise (stackId sockid : Nat)
  /-- `_raise_accept_event`; the listening socket waits for events, or not -/
  | established (stackId sockid : Nat) (listening : Bool)
  | accept (app : Nat)

namespace Accepting

variable (t : Threads)

/-- The state after `q_listen`. -/
def init (backlog : Nat) : Accepting := { acceptq := fun _ => .n21qInit t.stackThread backlog }

/-- The socket is given to a new connection. -/
def open_ (s : Accepting) (sockid defaultApp : Nat) : Accepting :=
  { s with
    defaultApp := Function.update s.defaultApp sockid defaultApp
    users := Function.update s.users sockid [] }

/-- `event_dest` -/
def assign (s : Accepting) (stackId sockid : Nat) : Accepting :=
  { s with
    defaultApp := Function.update s.defaultApp sockid
      (t.eventDest stackId sockid (s.defaultApp sockid)) }

/-- An event for the connection reaches `app`. -/
def notify (s : Accepting) (app sockid : Nat) : Accepting :=
  { s with users := Function.update s.users sockid (app :: s.users sockid) }

/-- The stream is put into the accept queue of `app`; in a full ring it is refused. -/
def offer (s : Accepting) (app stackId sockid : Nat) : Accepting :=
  let added := (s.acceptq app).n21qEnqueue stackId sockid
  { s with
    acceptq := Function.update s.acceptq app added.2
    offered :=
      if added.1 < 0 then s.offered
      else Function.update s.offered app (sockid :: s.offered app) }

/-- `q_accept` on the listening socket. -/
def qAccept (s : Accepting) (app : Nat) : Accepting :=
  if t.appThread ≤ app then s
  else
    let got := (s.acceptq app).n21qDequeue
    let s := { s with acceptq := Function.update s.acceptq app got.2 }
    match got.1 with
    | none => s
    | some sockid =>
        { s with accepted := Function.update s.accepted app (sockid :: s.accepted app) }.notify app
          sockid

def step (s : Accepting) : AcceptEvent → Accepting
  | .passiveOpen sockid => s.open_ sockid 255
  | .socket app sockid => s.open_ sockid (app % 256)
  | .raise stackId sockid =>
      let s := s.assign t stackId sockid
      s.notify (s.defaultApp sockid) sockid
  | .established stackId sockid listening =>
      let s := s.assign t stackId sockid
      let app := s.defaultApp sockid
      let s := s.offer app stackId sockid
      if listening then s.notify app sockid else s
  | .accept app => s.qAccept t app

/-- The connection waits to be accepted. -/
def Waits (s : Accepting) (sockid : Nat) : Prop :=
  ∃ app < t.appThread, sockid ∈ (s.acceptq app).items

/-- No connection loses its socket while it waits; the threads are those of the configuration. -/
def Lasting (s : Accepting) : AcceptEvent → Prop
  | .passiveOpen sockid => ¬ s.Waits t sockid
  | .socket app sockid => ¬ s.Waits t sockid ∧ app < t.appThread
  | .raise stackId _ | .established stackId _ _ => stackId < t.stackThread
  | .accept _ => True

instance Waits.decidable (s : Accepting) (sockid : Nat) : Decidable (s.Waits t sockid) :=
  inferInstanceAs (Decidable (∃ app, app < t.appThread ∧ sockid ∈ (s.acceptq app).items))

instance Lasting.decidable (s : Accepting) : ∀ e : AcceptEvent, Decidable (s.Lasting t e)
  | .passiveOpen sockid => inferInstanceAs (Decidable (¬ s.Waits t sockid))
  | .socket app sockid => inferInstanceAs (Decidable (¬ s.Waits t sockid ∧ app < t.appThread))
  | .raise stackId _ => inferInstanceAs (Decidable (stackId < t.stackThread))
  | .established stackId _ _ => inferInstanceAs (Decidable (stackId < t.stackThread))
  | .accept _ => .isTrue trivial

/-- The law of a transition: a connection has one application, what was offered to an application
has been accepted by it or waits, and an accept finds nothing only if nothing waits. -/
structure Fair (s : Accepting) (e : AcceptEvent) (s' : Accepting) : Prop where
  oneApp : ∀ sockid, ∀ a ∈ s'.users sockid, ∀ b ∈ s'.users sockid, a = b
  conserved : ∀ app < t.appThread,
    (s'.accepted app ++ (s'.acceptq app).items).Perm (s'.offered app)
  empty : ∀ app < t.appThread, e = .accept app → s'.accepted app = s.accepted app →
    (s.acceptq app).items = []

/-- The invariant of a run. -/
structure Inv (s : Accepting) : Prop where
  apps : ∀ sockid, s.defaultApp sockid = 255 ∨ s.defaultApp sockid < t.appThread
  rings : ∀ app < t.appThread, (s.acceptq app).Valid ∧ (s.acceptq app).queueNum = t.stackThread
  users : ∀ sockid, ∀ a ∈ s.users sockid, a = s.defaultApp sockid ∧ a < t.appThread
  waiting : ∀ app < t.appThread, ∀ sockid ∈ (s.acceptq app).items, s.defaultApp sockid = app
  conserved : ∀ app < t.appThread, (s.accepted app ++ (s.acceptq app).items).Perm (s.offered app)

section Invariant

variable {t : Threads} {s : Accepting}

theorem eventDest_lt {stackId d : Nat} (sockid : Nat) (inside : stackId < t.stackThread)
    (app : d = 255 ∨ d < t.appThread) : t.eventDest stackId sockid d < t.appThread := by
  have below := Nat.mod_lt sockid t.someApp
  have byte := t.appByte
  unfold Threads.eventDest
  split
  · split
    · rename_i paired
      rw [Nat.mod_eq_of_lt (by omega)]
      omega
    · rw [Nat.mod_eq_of_lt (by omega)]
      exact below
  · rename_i set
    exact app.resolve_left set

/-- A socket with an application keeps it. -/
theorem eventDest_set {stackId sockid d : Nat} (app : d < t.appThread) :
    t.eventDest stackId sockid d = d := by
  have byte := t.appByte
  exact if_neg (by omega)

theorem Inv.assign (inv : s.Inv t) {stackId : Nat} (inside : stackId < t.stackThread)
    (sockid : Nat) :
    (s.assign t stackId sockid).Inv t ∧
      (s.assign t stackId sockid).defaultApp sockid < t.appThread := by
  have dst := eventDest_lt sockid inside (inv.apps sockid)
  have kept : ∀ {other}, s.defaultApp other < t.appThread →
      (s.assign t stackId sockid).defaultApp other = s.defaultApp other := by
    intro other set
    show (Function.update s.defaultApp sockid _) other = _
    by_cases same : other = sockid
    · subst same
      rw [Function.update_self, eventDest_set set]
    · rw [Function.update_of_ne same]
  have now : (s.assign t stackId sockid).defaultApp sockid < t.appThread := by
    show (Function.update s.defaultApp sockid _) sockid < _
    rw [Function.update_self]
    exact dst
  refine ⟨⟨fun other => ?_, inv.rings, fun other a user => ?_, fun app below other waits => ?_,
    inv.conserved⟩, now⟩
  · by_cases same : other = sockid
    · subst same
      exact .inr now
    · have unchanged : (s.assign t stackId sockid).defaultApp other = s.defaultApp other :=
        Function.update_of_ne same _ _
      rw [unchanged]
      exact inv.apps other
  · obtain ⟨same, below⟩ := inv.users other a user
    exact ⟨same.trans (kept (same ▸ below)).symm, below⟩
  · have same := inv.waiting app below other waits
    exact (kept (same ▸ below)).trans same

theorem Inv.notify (inv : s.Inv t) {app sockid : Nat} (same : s.defaultApp sockid = app)
    (below : app < t.appThread) : (s.notify app sockid).Inv t := by
  refine ⟨inv.apps, inv.rings, fun other a user => ?_, inv.waiting, inv.conserved⟩
  by_cases this : other = sockid
  · subst this
    change a ∈ (Function.update s.users other _) other at user
    rw [Function.update_self] at user
    rcases List.mem_cons.mp user with rfl | old
    · exact ⟨same.symm, below⟩
    · exact inv.users other a old
  · change a ∈ (Function.update s.users sockid _) other at user
    rw [Function.update_of_ne this] at user
    exact inv.users other a user

theorem Inv.offer (inv : s.Inv t) {app stackId sockid : Nat} (inside : stackId < t.stackThread)
    (same : s.defaultApp sockid = app) (below : app < t.appThread) :
    (s.offer app stackId sockid).Inv t := by
  obtain ⟨valid, num⟩ := inv.rings app below
  have ring : stackId < (s.acceptq app).queueNum := by omega
  obtain ⟨valid', num', added⟩ := N21Rings.n21qEnqueue_spec valid ring sockid
  have rings : ∀ other, other ≠ app →
      (s.offer app stackId sockid).acceptq other = s.acceptq other :=
    fun other ne => Function.update_of_ne ne _ _
  have here : (s.offer app stackId sockid).acceptq app =
      ((s.acceptq app).n21qEnqueue stackId sockid).2 := Function.update_self _ _ _
  refine ⟨inv.apps, fun other inside => ?_, inv.users, fun other inside x waits => ?_,
    fun other inside => ?_⟩
  · by_cases this : other = app
    · subst this
      rw [here]
      exact ⟨valid', num'.trans num⟩
    · rw [rings other this]
      exact inv.rings other inside
  · by_cases this : other = app
    · subst this
      rw [here] at waits
      rcases added with ⟨-, perm⟩ | ⟨-, unchanged⟩
      · rcases List.mem_cons.mp (perm.subset waits) with rfl | old
        · exact same
        · exact inv.waiting other below x old
      · rw [unchanged] at waits
        exact inv.waiting other below x waits
    · rw [rings other this] at waits
      exact inv.waiting other inside x waits
  · have before := inv.conserved other inside
    show (s.accepted other ++ _).Perm ((if _ then s.offered else _) other)
    by_cases this : other = app
    · subst this
      rw [here]
      rcases added with ⟨taken, perm⟩ | ⟨refused, unchanged⟩
      · rw [taken, if_neg (by decide), Function.update_self]
        exact ((perm.append_left _).trans List.perm_middle).trans (before.cons sockid)
      · rw [refused, if_pos (by decide), unchanged]
        exact before
    · rw [rings other this]
      split
      · exact before
      · rw [Function.update_of_ne this]
        exact before

/-- The application gets what it was told of, or nothing waits for it. -/
theorem Inv.qAccept (inv : s.Inv t) (app : Nat) :
    (s.qAccept t app).Inv t ∧ (app < t.appThread → (s.qAccept t app).accepted app = s.accepted app →
      (s.acceptq app).items = []) := by
  unfold Accepting.qAccept
  split
  · exact ⟨inv, fun below => absurd below (by omega)⟩
  · rename_i inside
    have below : app < t.appThread := by omega
    obtain ⟨valid, num⟩ := inv.rings app below
    rcases N21Rings.n21qDequeue_spec valid with ⟨null, empty⟩ | ⟨x, got, next, valid', perm⟩
    · rw [null]
      dsimp only
      rw [Function.update_eq_self]
      exact ⟨inv, fun _ _ => empty⟩
    · have waited : x ∈ (s.acceptq app).items := perm.subset List.mem_cons_self
      have owner := inv.waiting app below x waited
      have num' : (s.acceptq app).n21qDequeue.2.queueNum = t.stackThread :=
        (N21Rings.dequeueLoop_num _ _ _).trans num
      generalize (s.acceptq app).n21qDequeue = result at got valid' perm num' ⊢
      obtain ⟨_, q⟩ := result
      obtain rfl : _ = some x := got
      dsimp only at valid' perm num' ⊢
      have rings : ∀ other, other ≠ app →
          (Function.update s.acceptq app q) other = s.acceptq other :=
        fun other ne => Function.update_of_ne ne _ _
      have here : (Function.update s.acceptq app q) app = q := Function.update_self _ _ _
      refine ⟨Inv.notify ?_ owner below, fun _ same => ?_⟩
      · refine ⟨inv.apps, fun other inside => ?_, inv.users, fun other inside y waits => ?_,
          fun other inside => ?_⟩
        · by_cases this : other = app
          · subst this
            dsimp only
            rw [here]
            exact ⟨valid', num'⟩
          · dsimp only
            rw [rings other this]
            exact inv.rings other inside
        · by_cases this : other = app
          · subst this
            dsimp only at waits
            rw [here] at waits
            exact inv.waiting other below y (perm.subset (.tail _ waits))
          · dsimp only at waits
            rw [rings other this] at waits
            exact inv.waiting other inside y waits
        · have before := inv.conserved other inside
          by_cases this : other = app
          · subst this
            dsimp only
            rw [here, Function.update_self]
            exact (List.perm_middle.symm.trans (perm.append_left _)).trans before
          · dsimp only
            rw [rings other this, Function.update_of_ne this]
            exact before
      · have longer := congrArg List.length same
        change ((Function.update s.accepted app (x :: s.accepted app)) app).length = _ at longer
        rw [Function.update_self, List.length_cons] at longer
        omega

theorem Inv.open_ (inv : s.Inv t) {sockid d : Nat} (app : d = 255 ∨ d < t.appThread)
    (lasting : ¬ s.Waits t sockid) : (s.open_ sockid d).Inv t := by
  have other : ∀ x, x ≠ sockid → (s.open_ sockid d).defaultApp x = s.defaultApp x :=
    fun x ne => Function.update_of_ne ne _ _
  refine ⟨fun x => ?_, inv.rings, fun x a user => ?_, fun a below x waits => ?_, inv.conserved⟩
  · by_cases this : x = sockid
    · subst this
      show (Function.update s.defaultApp x d) x = 255 ∨ (Function.update s.defaultApp x d) x < _
      rw [Function.update_self]
      exact app
    · rw [other x this]
      exact inv.apps x
  · by_cases this : x = sockid
    · subst this
      change a ∈ (Function.update s.users x []) x at user
      rw [Function.update_self] at user
      cases user
    · change a ∈ (Function.update s.users sockid []) x at user
      rw [Function.update_of_ne this] at user
      rw [other x this]
      exact inv.users x a user
  · have ne : x ≠ sockid := by
      rintro rfl
      exact lasting ⟨a, below, waits⟩
    rw [other x ne]
    exact inv.waiting a below x waits

theorem Inv.step (s : Accepting) (e : AcceptEvent) (inv : s.Inv t) (lasting : s.Lasting t e) :
    (s.step t e).Inv t ∧ s.Fair t e (s.step t e) := by
  have next : (s.step t e).Inv t := by
    cases e with
    | passiveOpen sockid => exact inv.open_ (.inl rfl) lasting
    | socket app sockid =>
        refine inv.open_ (.inr ?_) lasting.1
        have byte := t.appByte
        have below := lasting.2
        rw [Nat.mod_eq_of_lt (by omega)]
        exact below
    | raise stackId sockid =>
        obtain ⟨assigned, below⟩ := inv.assign lasting sockid
        exact assigned.notify rfl below
    | established stackId sockid listening =>
        obtain ⟨assigned, below⟩ := inv.assign lasting sockid
        have inside : stackId < t.stackThread := lasting
        have offered := assigned.offer inside rfl below
        rw [Accepting.step]
        split
        · exact offered.notify rfl below
        · exact offered
    | accept app => exact (inv.qAccept app).1
  refine ⟨next, ⟨fun sockid a userA b userB => ?_, next.conserved, fun app below call same => ?_⟩⟩
  · rw [(next.users sockid a userA).1, (next.users sockid b userB).1]
  · subst call
    exact (inv.qAccept app).2 below same

theorem Inv.init {backlog : Nat} (room : 0 < backlog) : (init t backlog).Inv t := by
  obtain ⟨valid, empty⟩ :=
    N21Rings.n21qInit_valid t.stackByte t.someStack room
  refine ⟨fun _ => .inl rfl, fun _ _ => ⟨valid, rfl⟩, fun _ a user => absurd user List.not_mem_nil,
    fun app _ sockid waits => ?_, fun app _ => ?_⟩
  · change sockid ∈ (N21Rings.n21qInit t.stackThread backlog).items at waits
    rw [empty] at waits
    cases waits
  · show ([] ++ (N21Rings.n21qInit t.stackThread backlog).items).Perm []
    rw [empty]
    exact .nil

end Invariant

theorem three_apps_pos : 0 < 3 := by decide

theorem two_stacks_byte : 2 < 256 := by decide

theorem three_apps_byte : 3 < 256 := by decide

/-- Two stacks and three applications. -/
def twoStacks : Threads := ⟨2, 3, Nat.two_pos, three_apps_pos, two_stacks_byte, three_apps_byte⟩

/-- Two connections are accepted, and the socket of the first is used again. -/
def acceptTwo : List AcceptEvent :=
  [.passiveOpen 5, .established 1 5 true, .raise 1 5, .passiveOpen 8, .established 0 8 false,
   .accept 2, .accept 2, .accept 2, .passiveOpen 5, .raise 0 8]

end Accepting

end QStack
