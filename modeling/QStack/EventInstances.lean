/-
# QStack.EventInstances -- the arrays of event instances and time items

`q_init_manager` allocates an array of event instances for each stack and, for each application, an
array of event instances and one of time items, of which the application uses the second half.
`CreateQevent` goes round in these arrays, and `AddTimeEvent` takes a time item for an event with a
timeout.  The sizes are quotients by `num_stack` and `num_server`, but the counter of an application
counts instances and time items together and goes back to 0 at `QEPOLL_SIZE / num_app`, behind the
end of the instances; and every counter comes round to an instance that a stream may still have in
`pending_events`.

`instances_law` gives the exact condition for every run: no counter is behind the end of the array
it is used for, and none has come round to an instance that is still linked.
-/
import QStack.Channels

namespace QStack

set_option autoImplicit false

/-! ## The arrays -/

/-- The arrays that `calloc` has returned, by their lengths, and which of them the fields
`qevent_buff` of `g_sarg` and `g_qarg` and `qTimeItems_buff` of `g_qarg` point to. -/
structure EventArrays where
  sizes : List Nat := []
  sarg : List Nat := []
  qevents : List Nat := []
  qitems : List Nat := []

namespace EventArrays

def allocStack (length : Nat) (a : EventArrays) : EventArrays :=
  { a with sizes := a.sizes ++ [length], sarg := a.sarg ++ [a.sizes.length] }

def allocServer (events items : Nat) (a : EventArrays) : EventArrays :=
  { a with
    sizes := a.sizes ++ [events, items]
    qevents := a.qevents ++ [a.sizes.length]
    qitems := a.qitems ++ [a.sizes.length + 1] }

end EventArrays

/-- The two loops of `q_init_manager` -/
def qInitManager (numStack numServer : Nat) : EventArrays :=
  let a := (List.range numStack).foldl
    (fun a _ => a.allocStack (qepollSize / numStack)) ({} : EventArrays)
  (List.range numServer).foldl
    (fun a _ => a.allocServer (qepollSize / numServer) (maxFlowNum / numServer)) a

/-- An element of an array -/
structure Slot where
  array : Nat
  index : Nat
deriving DecidableEq, Repr

def EventArrays.InBounds (a : EventArrays) (slot : Slot) : Prop :=
  ∃ length, a.sizes[slot.array]? = some length ∧ slot.index < length

namespace EventArrays

variable {n m : Nat}

theorem foldl_allocStack (length k : Nat) :
    (List.range k).foldl (fun a _ => a.allocStack length) ({} : EventArrays) =
      { sizes := List.replicate k length, sarg := List.range k } := by
  induction k with
  | zero => rfl
  | succ k ih =>
      rw [List.range_succ, List.foldl_append, ih]
      simp [allocStack, List.replicate_succ']

theorem foldl_allocServer (events items k : Nat) (a : EventArrays) :
    (List.range k).foldl (fun a _ => a.allocServer events items) a =
      { sizes := a.sizes ++ (List.replicate k [events, items]).flatten
        sarg := a.sarg
        qevents := a.qevents ++ (List.range k).map fun i => a.sizes.length + 2 * i
        qitems := a.qitems ++ (List.range k).map fun i => a.sizes.length + 2 * i + 1 } := by
  induction k with
  | zero => simp
  | succ k ih =>
      have length : ((List.replicate k [events, items]).flatten).length = 2 * k := by
        simp [List.length_flatten, Nat.mul_comm]
      rw [List.range_succ, List.foldl_append, ih]
      simp [allocServer, List.replicate_succ', length]

theorem qInitManager_eq (n m : Nat) : qInitManager n m =
    { sizes := List.replicate n (qepollSize / n) ++
        (List.replicate m [qepollSize / m, maxFlowNum / m]).flatten
      sarg := List.range n
      qevents := (List.range m).map fun i => n + 2 * i
      qitems := (List.range m).map fun i => n + 2 * i + 1 } := by
  unfold qInitManager
  rw [foldl_allocStack, foldl_allocServer]
  simp

theorem pairs_getElem (e t : Nat) {i : Nat} (inside : i < m) :
    (List.replicate m [e, t]).flatten[2 * i]? = some e ∧
      (List.replicate m [e, t]).flatten[2 * i + 1]? = some t := by
  induction m generalizing i with
  | zero => exact absurd inside (Nat.not_lt_zero i)
  | succ m ih =>
      rw [List.replicate_succ, List.flatten_cons]
      cases i with
      | zero => exact ⟨rfl, rfl⟩
      | succ i => exact ih (by omega)

/-- The array of a stack -/
theorem stack_array {c : Nat} (stack : c < n) :
    (qInitManager n m).sarg[c]? = some c ∧ (qInitManager n m).sizes[c]? = some (qepollSize / n) := by
  rw [qInitManager_eq]
  refine ⟨List.getElem?_range stack, ?_⟩
  rw [List.getElem?_append_left (by rw [List.length_replicate]; exact stack),
    List.getElem?_replicate_of_lt stack]

/-- The two arrays of an application -/
theorem server_arrays {i : Nat} (app : i < m) :
    (qInitManager n m).qevents[i]? = some (n + 2 * i) ∧
      (qInitManager n m).sizes[n + 2 * i]? = some (qepollSize / m) ∧
      (qInitManager n m).qitems[i]? = some (n + 2 * i + 1) ∧
      (qInitManager n m).sizes[n + 2 * i + 1]? = some (maxFlowNum / m) := by
  obtain ⟨events, items⟩ := pairs_getElem (qepollSize / m) (maxFlowNum / m) app
  have length : (List.replicate n (qepollSize / n)).length = n := List.length_replicate
  rw [qInitManager_eq]
  refine ⟨?_, ?_, ?_, ?_⟩
  · rw [List.getElem?_map, List.getElem?_range app]
    rfl
  · rw [List.getElem?_append_right (by omega), length, Nat.add_sub_cancel_left]
    exact events
  · rw [List.getElem?_map, List.getElem?_range app]
    rfl
  · rw [List.getElem?_append_right (by omega), length, Nat.add_assoc, Nat.add_sub_cancel_left]
    exact items

/-- **No two of the arrays are the same**, whichever cores and fields they belong to. -/
theorem arrays_nodup (n m : Nat) :
    ((qInitManager n m).sarg ++ (qInitManager n m).qevents ++ (qInitManager n m).qitems).Nodup := by
  rw [qInitManager_eq]
  dsimp only
  have even : ((List.range m).map fun i => n + 2 * i).Nodup :=
    List.nodup_range.map fun i j same => by omega
  have odd : ((List.range m).map fun i => n + 2 * i + 1).Nodup :=
    List.nodup_range.map fun i j same => by omega
  rw [List.nodup_append', List.nodup_append']
  refine ⟨⟨List.nodup_range, even, fun c stack isEvents => ?_⟩, odd, fun c either isItems => ?_⟩
  · obtain ⟨i, -, rfl⟩ := List.mem_map.mp isEvents
    have less := List.mem_range.mp stack
    omega
  · obtain ⟨j, -, rfl⟩ := List.mem_map.mp isItems
    rcases List.mem_append.mp either with stack | isEvents
    · have less := List.mem_range.mp stack
      omega
    · obtain ⟨i, -, same⟩ := List.mem_map.mp isEvents
      omega

end EventArrays

/-! ## CreateQevent, AddTimeEvent and pending_events -/

/-- An instance in the hands of a stream or of the core it was made for.  `nth` is history: how
often the counter of the core had been used before. -/
structure Instance where
  slot : Slot
  core : Nat
  nth : Nat

/-- The counters and arrays of all cores, and the streams that have instances linked. -/
structure Instances where
  /-- with `g_qarg[].app_count` -/
  chans : Channels
  arrays : EventArrays
  /-- `g_sarg[].qev_count` -/
  qevCount : Nat → Nat
  /-- history: how often the counter of a core has been used, `app_count` for time items as well -/
  uses : Nat → Nat
  /-- what `CreateQevent` has returned to a core, until it is linked -/
  last : Nat → Option Instance
  pendingEvents : Nat → List Instance

namespace Instances

/-- What `CreateQevent` writes into an instance. -/
def newEvent (pri : Bool) (core : UInt8) (sockid : Nat) (dst : UInt8) (type : QeventNature)
    (dire : QeventDire) : TimeEventCall :=
  { event := 0, pri, dire, nature := type, core, apid := dst, sockid, timeout := -1 }

/-- A counter that goes back to 0 at `size`. -/
def wrap (size count : Nat) : Nat := if size ≤ count then 0 else count

/-- `CreateQevent`: the instance, the event it holds then, and the counters. -/
def createQevent (s : Instances) (pri : Bool) (core : UInt8) (sockid : Nat) (dst : UInt8)
    (type : QeventNature) : Except Stop (Slot × TimeEventCall × Instances) :=
  if s.chans.numStack ≤ core.toNat then
    let qid := core.toNat - s.chans.numStack
    match s.arrays.qevents[qid]? with
    | none => .error .fault
    | some array =>
        let (item, appCount) := Channels.takeItem (s.chans.appCount qid)
        .ok (⟨array, qepollSize / (2 * s.chans.numServer) + item⟩,
          newEvent pri core sockid dst type .appToQe,
          { s with chans := { s.chans with
                               appCount := Function.update s.chans.appCount qid appCount } })
  else
    match s.arrays.sarg[core.toNat]? with
    | none => .error .fault
    | some array =>
        let count := wrap (qepollSize / s.chans.numStack) (s.qevCount core.toNat)
        .ok (⟨array, count⟩, newEvent pri core sockid dst type .stackToQe,
          { s with qevCount := Function.update s.qevCount core.toNat (count + 1) })

/-- The time item an event takes, if it takes one. -/
def itemSlot (s : Instances) (call : TimeEventCall) : Option Slot :=
  match s.chans.route call with
  | .ok (qid, _, _) =>
      if 0 < call.timeout then
        s.arrays.qitems[qid]?.map fun array =>
          ⟨array, maxFlowNum / (2 * s.chans.numServer) +
            (Channels.takeItem (s.chans.appCount qid)).1⟩
      else none
  | .error _ => none

inductive InstanceOp where
  | createQevent (pri : Bool) (core : UInt8) (sockid : Nat) (dst : UInt8) (type : QeventNature)
  | addTimeEvent (call : TimeEventCall)
  /-- `event_list_append` of the instance that the core has just made -/
  | append (core stream : Nat)
  /-- `event_list_pop` -/
  | pop (stream : Nat)
  /-- `event_list_init` -/
  | init (stream : Nat)

def step (s : Instances) : InstanceOp → Instances
  | .createQevent pri core sockid dst type =>
      match s.createQevent pri core sockid dst type with
      | .ok (slot, _, s') =>
          { s' with
            uses := Function.update s.uses core.toNat (s.uses core.toNat + 1)
            last := Function.update s.last core.toNat
              (some ⟨slot, core.toNat, s.uses core.toNat⟩) }
      | .error _ => s
  | .addTimeEvent call =>
      { s with
        chans := s.chans.step (.add call)
        uses :=
          match s.chans.route call with
          | .ok (qid, _, _) =>
              if 0 < call.timeout then
                Function.update s.uses (s.chans.numStack + qid)
                  (s.uses (s.chans.numStack + qid) + 1)
              else s.uses
          | .error _ => s.uses }
  | .append core stream =>
      match s.last core with
      | some x =>
          { s with
            last := Function.update s.last core none
            pendingEvents :=
              Function.update s.pendingEvents stream (s.pendingEvents stream ++ [x]) }
      | none => s
  | .pop stream =>
      { s with
        pendingEvents := Function.update s.pendingEvents stream (s.pendingEvents stream).tail }
  | .init stream => { s with pendingEvents := Function.update s.pendingEvents stream [] }

/-- After `q_init_manager` -/
def start (c : Channels) : Instances where
  chans := { c with appCount := fun _ => 0 }
  arrays := qInitManager c.numStack c.numServer
  qevCount _ := 0
  uses _ := 0
  last _ := none
  pendingEvents _ := []

/-- The instance lies in its array and no stream has it linked; the time item lies in its array. -/
def Sound (s : Instances) : InstanceOp → Instances → Prop
  | .createQevent pri core sockid dst type, _ =>
      ∃ slot event s', s.createQevent pri core sockid dst type = .ok (slot, event, s') ∧
        s.arrays.InBounds slot ∧ ∀ stream, ∀ x ∈ s.pendingEvents stream, x.slot ≠ slot
  | .addTimeEvent call, _ => ∀ slot, s.itemSlot call = some slot → s.arrays.InBounds slot
  | _, _ => True

/-- The core is one of a stack or of an application. -/
def InRange (s : Instances) : InstanceOp → Prop
  | .createQevent _ core _ _ _ => core.toNat < s.chans.numStack + s.chans.numServer
  | _ => True

/-- Where the counter of a core goes back to 0. -/
def period (s : Instances) (core : Nat) : Nat :=
  if s.chans.numStack ≤ core then qepollSize / numApp else qepollSize / s.chans.numStack

/-- A stack has an array at all, an application has not come to the end of its half of either array;
and of the instances made for the core none is linked that was made whole rounds ago. -/
def Permitted (s : Instances) : InstanceOp → Prop
  | .createQevent _ core _ _ _ =>
      (if s.chans.numStack ≤ core.toNat then
        wrap (qepollSize / numApp) (s.chans.appCount (core.toNat - s.chans.numStack)) <
          qepollSize / s.chans.numServer - qepollSize / (2 * s.chans.numServer)
      else 0 < qepollSize / s.chans.numStack) ∧
      ∀ stream, ∀ x ∈ s.pendingEvents stream, x.core = core.toNat →
        x.nth % s.period core.toNat ≠ s.uses core.toNat % s.period core.toNat
  | .addTimeEvent call => ∀ qid i reg, s.chans.route call = .ok (qid, i, reg) → 0 < call.timeout →
      wrap (qepollSize / numApp) (s.chans.appCount qid) <
        maxFlowNum / s.chans.numServer - maxFlowNum / (2 * s.chans.numServer)
  | _ => True

/-! ## The counters -/

theorem takeItem_eq (appCount : Nat) : Channels.takeItem appCount =
    (wrap (qepollSize / numApp) appCount, wrap (qepollSize / numApp) appCount + 1) := rfl

/-- Going round: 0 follows the last index. -/
theorem succ_mod_wrap (made : Nat) {n : Nat} (some_ : 0 < n) :
    wrap n (made % n + 1) = (made + 1) % n := by
  have less := Nat.mod_lt made some_
  rw [← Nat.mod_add_mod made n 1, wrap]
  split
  · rename_i last
    have all : made % n + 1 = n := by omega
    rw [all, Nat.mod_self]
  · rename_i inside
    rw [Nat.mod_eq_of_lt (Nat.not_le.mp inside)]

theorem setTimer_counters (c : Channels) (qid i : Nat) (call : TimeEventCall) :
    (c.setTimer qid i call).numStack = c.numStack ∧
      (c.setTimer qid i call).numServer = c.numServer ∧
      (c.setTimer qid i call).appCount =
        Function.update c.appCount qid (Channels.takeItem (c.appCount qid)).2 := by
  unfold Channels.setTimer
  dsimp only
  split_ifs <;> exact ⟨rfl, rfl, rfl⟩

/-- Nothing behind the timer touches the counters. -/
theorem addTimeEvent_counters {c : Channels} {call : TimeEventCall} {qid i : Nat}
    {reg : Nat → QeventReg} (routed : c.route call = .ok (qid, i, reg)) {after : Channels}
    (timer : (if 0 < call.timeout then Channels.setTimer { c with reg := reg } qid i call
      else { c with reg := reg }) = after) :
    (c.step (.add call)).numStack = after.numStack ∧
      (c.step (.add call)).numServer = after.numServer ∧
      (c.step (.add call)).appCount = after.appCount := by
  obtain ⟨ret, s', added, shape⟩ : ∃ ret s', c.addTimeEvent call = .ok (ret, s') ∧
      s'.numStack = after.numStack ∧ s'.numServer = after.numServer ∧
      s'.appCount = after.appCount := by
    unfold Channels.addTimeEvent
    rw [routed]
    dsimp only [bind, Except.bind]
    rw [timer]
    split
    · exact ⟨_, _, rfl, rfl, rfl, rfl⟩
    · exact ⟨_, _, rfl, rfl, rfl, rfl⟩
  rw [Channels.step_add added]
  exact shape

/-- What an event does to the counters and the shape. -/
theorem add_counters (c : Channels) (call : TimeEventCall) :
    (c.step (.add call)).numStack = c.numStack ∧ (c.step (.add call)).numServer = c.numServer ∧
      ((c.step (.add call)).appCount = c.appCount ∧
          (∀ qid i reg, c.route call = .ok (qid, i, reg) → ¬ 0 < call.timeout) ∨
        ∃ qid i reg, c.route call = .ok (qid, i, reg) ∧ 0 < call.timeout ∧
          (c.step (.add call)).appCount =
            Function.update c.appCount qid (Channels.takeItem (c.appCount qid)).2) := by
  cases routed : c.route call with
  | error stop =>
      have failed : c.addTimeEvent call = .error stop := by
        unfold Channels.addTimeEvent
        rw [routed]
        rfl
      have same : c.step (.add call) = c := by rw [Channels.step, failed]
      rw [same]
      exact ⟨rfl, rfl, .inl ⟨rfl, fun _ _ _ target => by cases target⟩⟩
  | ok target =>
      obtain ⟨qid, i, reg⟩ := target
      by_cases timed : 0 < call.timeout
      · obtain ⟨numStack, numServer, appCount⟩ := addTimeEvent_counters routed (if_pos timed)
        obtain ⟨sameStack, sameServer, taken⟩ := setTimer_counters { c with reg := reg } qid i call
        exact ⟨numStack.trans sameStack, numServer.trans sameServer,
          .inr ⟨qid, i, reg, rfl, timed, appCount.trans taken⟩⟩
      · obtain ⟨numStack, numServer, appCount⟩ := addTimeEvent_counters routed (if_neg timed)
        exact ⟨numStack, numServer, .inl ⟨appCount, fun _ _ _ _ => timed⟩⟩

/-! ## The invariant -/

/-- Where an instance lies: it follows from the number it has. -/
structure Placed (s : Instances) (x : Instance) : Prop where
  stack : x.core < s.chans.numStack →
    x.slot = ⟨x.core, x.nth % (qepollSize / s.chans.numStack)⟩
  server : ∀ i, x.core = s.chans.numStack + i →
    x.slot = ⟨s.chans.numStack + 2 * i,
      qepollSize / (2 * s.chans.numServer) + x.nth % (qepollSize / numApp)⟩

/-- Between two calls. -/
structure Wf (s : Instances) : Prop where
  arrays : s.arrays = qInitManager s.chans.numStack s.chans.numServer
  nextStack : 0 < qepollSize / s.chans.numStack → ∀ c < s.chans.numStack,
    wrap (qepollSize / s.chans.numStack) (s.qevCount c) =
      s.uses c % (qepollSize / s.chans.numStack)
  nextServer : ∀ i, wrap (qepollSize / numApp) (s.chans.appCount i) =
    s.uses (s.chans.numStack + i) % (qepollSize / numApp)
  latest : ∀ c x, s.last c = some x → s.Placed x ∧ x.core = c
  linked : ∀ stream, ∀ x ∈ s.pendingEvents stream, s.Placed x

theorem wf_start (c : Channels) : (start c).Wf where
  arrays := rfl
  nextStack _ k _ := (ite_self 0).trans (Nat.zero_mod _).symm
  nextServer i := (ite_self 0).trans (Nat.zero_mod _).symm
  latest c x got := by cases got
  linked stream x mem := by cases mem

variable {s : Instances}

theorem period_stack {c : Nat} (stack : c < s.chans.numStack) :
    s.period c = qepollSize / s.chans.numStack := if_neg (Nat.not_le.mpr stack)

theorem period_server (i : Nat) : s.period (s.chans.numStack + i) = qepollSize / numApp :=
  if_pos (Nat.le_add_right _ _)

/-- The place of an instance stays where it is while the counters go on. -/
theorem Placed.mono {x : Instance} (placed : s.Placed x) {s' : Instances}
    (stacks' : s'.chans.numStack = s.chans.numStack)
    (servers : s'.chans.numServer = s.chans.numServer) : s'.Placed x where
  stack := by
    rw [stacks']
    exact placed.stack
  server := by
    rw [stacks', servers]
    exact placed.server

/-- `CreateQevent` for a stack. -/
theorem createQevent_stack (wf : s.Wf) (pri : Bool) {core : UInt8} (sockid : Nat) (dst : UInt8)
    (type : QeventNature) (stack : core.toNat < s.chans.numStack) :
    ∃ count, s.createQevent pri core sockid dst type =
        .ok (⟨core.toNat, count⟩, newEvent pri core sockid dst type .stackToQe,
          { s with qevCount := Function.update s.qevCount core.toNat (count + 1) }) ∧
      (0 < qepollSize / s.chans.numStack →
        count = s.uses core.toNat % (qepollSize / s.chans.numStack)) := by
  refine ⟨_, ?_, fun some_ => wf.nextStack some_ core.toNat stack⟩
  unfold createQevent
  dsimp only
  rw [if_neg (by omega), wf.arrays, (EventArrays.stack_array stack).1]

/-- `CreateQevent` for an application. -/
theorem createQevent_server (wf : s.Wf) (pri : Bool) {core : UInt8} (sockid : Nat) (dst : UInt8)
    (type : QeventNature) {i : Nat} (server : core.toNat = s.chans.numStack + i)
    (app : i < s.chans.numServer) :
    s.createQevent pri core sockid dst type =
      .ok (⟨s.chans.numStack + 2 * i,
        qepollSize / (2 * s.chans.numServer) + wrap (qepollSize / numApp) (s.chans.appCount i)⟩,
        newEvent pri core sockid dst type .appToQe,
        { s with chans := { s.chans with
            appCount := Function.update s.chans.appCount i
              (wrap (qepollSize / numApp) (s.chans.appCount i) + 1) } }) := by
  have index : core.toNat - s.chans.numStack = i := by omega
  unfold createQevent
  dsimp only
  rw [if_pos (by omega), index, wf.arrays, (EventArrays.server_arrays app).1, takeItem_eq]

/-- What a stack gets is free exactly if the counter has not come round to an instance linked. -/
theorem stack_free (wf : s.Wf) {c : Nat} (stack : c < s.chans.numStack) :
    (∀ stream, ∀ x ∈ s.pendingEvents stream,
        x.slot ≠ ⟨c, s.uses c % (qepollSize / s.chans.numStack)⟩) ↔
      ∀ stream, ∀ x ∈ s.pendingEvents stream, x.core = c →
        x.nth % s.period c ≠ s.uses c % s.period c := by
  rw [period_stack stack]
  refine forall_congr' fun stream => forall_congr' fun x => forall_congr' fun mem => ?_
  have placed := wf.linked stream x mem
  constructor
  · rintro free rfl again
    exact free (by rw [placed.stack stack, again])
  · intro fresh same
    by_cases isStack : x.core < s.chans.numStack
    · rw [placed.stack isStack, Slot.mk.injEq] at same
      exact fresh same.1 same.2
    · obtain ⟨i, core⟩ := Nat.exists_eq_add_of_le (Nat.not_lt.mp isStack)
      rw [placed.server i core, Slot.mk.injEq] at same
      omega

/-- The same of an application. -/
theorem server_free (wf : s.Wf) (i : Nat) :
    (∀ stream, ∀ x ∈ s.pendingEvents stream,
        x.slot ≠ ⟨s.chans.numStack + 2 * i, qepollSize / (2 * s.chans.numServer) +
          wrap (qepollSize / numApp) (s.chans.appCount i)⟩) ↔
      ∀ stream, ∀ x ∈ s.pendingEvents stream, x.core = s.chans.numStack + i →
        x.nth % s.period (s.chans.numStack + i) ≠
          s.uses (s.chans.numStack + i) % s.period (s.chans.numStack + i) := by
  rw [period_server, wf.nextServer i]
  refine forall_congr' fun stream => forall_congr' fun x => forall_congr' fun mem => ?_
  have placed := wf.linked stream x mem
  constructor
  · intro free core again
    exact free (by rw [placed.server i core, again])
  · intro fresh same
    by_cases isStack : x.core < s.chans.numStack
    · rw [placed.stack isStack, Slot.mk.injEq] at same
      omega
    · obtain ⟨j, core⟩ := Nat.exists_eq_add_of_le (Nat.not_lt.mp isStack)
      rw [placed.server j core, Slot.mk.injEq] at same
      obtain rfl : i = j := by omega
      exact fresh core (Nat.add_left_cancel same.2)

theorem inBounds_iff {a : EventArrays} {array index length : Nat}
    (size : a.sizes[array]? = some length) : a.InBounds ⟨array, index⟩ ↔ index < length := by
  constructor
  · rintro ⟨other, same, inside⟩
    obtain rfl := Option.some_inj.mp (size.symm.trans same)
    exact inside
  · exact fun inside => ⟨length, size, inside⟩

/-- Half of an array of instances is shorter than the counter goes. -/
theorem half_small (m : Nat) :
    qepollSize / m - qepollSize / (2 * m) < qepollSize / numApp := by
  have whole : qepollSize / m ≤ qepollSize := Nat.div_le_self qepollSize m
  have half : qepollSize / (2 * m) = qepollSize / m / 2 := by
    rw [Nat.mul_comm, Nat.div_div_eq_div_mul]
  have size : qepollSize = 6000000 := rfl
  have limit : qepollSize / numApp = 6000000 := rfl
  omega

theorem half_index (size m count : Nat) :
    size / (2 * m) + count < size / m ↔ count < size / m - size / (2 * m) := by
  have half : size / (2 * m) = size / m / 2 := by rw [Nat.mul_comm, Nat.div_div_eq_div_mul]
  omega

theorem stack_sound_iff (wf : s.Wf) {pri : Bool} {core : UInt8} {sockid : Nat} {dst : UInt8}
    {type : QeventNature} (stack : core.toNat < s.chans.numStack) (s' : Instances) :
    s.Sound (.createQevent pri core sockid dst type) s' ↔
      s.Permitted (.createQevent pri core sockid dst type) := by
  unfold Sound Permitted
  dsimp only
  rw [if_neg (by omega)]
  obtain ⟨count, created, index⟩ := createQevent_stack wf pri sockid dst type stack
  have size := (EventArrays.stack_array (m := s.chans.numServer) stack).2
  rw [← wf.arrays] at size
  constructor
  · rintro ⟨slot, event', s', again, inside, free⟩
    obtain ⟨rfl, -⟩ := Prod.ext_iff.mp (Except.ok.inj (again.symm.trans created))
    have some_ := Nat.zero_lt_of_lt ((inBounds_iff size).mp inside)
    rw [index some_] at free
    exact ⟨some_, (stack_free wf stack).mp free⟩
  · rintro ⟨some_, fresh⟩
    refine ⟨_, _, _, created, (inBounds_iff size).mpr ?_, ?_⟩
    · rw [index some_]
      exact Nat.mod_lt _ some_
    · rw [index some_]
      exact (stack_free wf stack).mpr fresh

theorem server_sound_iff (wf : s.Wf) {pri : Bool} {core : UInt8} {sockid : Nat} {dst : UInt8}
    {type : QeventNature} {i : Nat} (server : core.toNat = s.chans.numStack + i)
    (app : i < s.chans.numServer) (s' : Instances) :
    s.Sound (.createQevent pri core sockid dst type) s' ↔
      s.Permitted (.createQevent pri core sockid dst type) := by
  unfold Sound Permitted
  dsimp only
  have created := createQevent_server wf pri sockid dst type server app
  have size := (EventArrays.server_arrays (n := s.chans.numStack) app).2.1
  rw [← wf.arrays] at size
  have which : core.toNat - s.chans.numStack = i := by omega
  rw [if_pos (by omega), which, ← half_index, server, ← server_free wf i]
  constructor
  · rintro ⟨slot, event', s', again, inside, free⟩
    obtain ⟨rfl, -⟩ := Prod.ext_iff.mp (Except.ok.inj (again.symm.trans created))
    exact ⟨(inBounds_iff size).mp inside, free⟩
  · rintro ⟨inside, free⟩
    exact ⟨_, _, _, created, (inBounds_iff size).mpr inside, free⟩

/-- The time item of a timed call is the next of its destination. -/
theorem item_sound_iff (wf : s.Wf) (call : TimeEventCall) (s' : Instances) :
    s.Sound (.addTimeEvent call) s' ↔ s.Permitted (.addTimeEvent call) := by
  unfold Sound Permitted itemSlot
  dsimp only
  cases routed : s.chans.route call with
  | error stop => simp
  | ok target =>
      obtain ⟨qid, i, reg⟩ := target
      dsimp only
      have app := Channels.route_inside routed
      obtain ⟨-, -, items, size⟩ := EventArrays.server_arrays (n := s.chans.numStack) app
      rw [← wf.arrays] at items size
      by_cases timed : 0 < call.timeout
      · rw [if_pos timed, items, takeItem_eq, Option.map_some]
        constructor
        · intro inside qid' i' reg' again _
          obtain ⟨rfl, -⟩ := Prod.ext_iff.mp (Except.ok.inj again)
          exact (half_index _ _ _).mp ((inBounds_iff size).mp (inside _ rfl))
        · intro allowed slot taken
          obtain rfl := Option.some_inj.mp taken
          exact (inBounds_iff size).mpr
            ((half_index _ _ _).mpr (allowed qid i reg rfl timed))
      · rw [if_neg timed]
        constructor
        · exact fun _ _ _ _ _ isTimed => absurd isTimed timed
        · exact fun _ _ taken => by cases taken

/-- **A call is sound exactly if it is permitted.** -/
theorem sound_iff (wf : s.Wf) {op : InstanceOp} (range : s.InRange op) :
    s.Sound op (s.step op) ↔ s.Permitted op := by
  cases op with
  | createQevent pri core sockid dst type =>
      by_cases stack : core.toNat < s.chans.numStack
      · exact stack_sound_iff wf stack _
      · obtain ⟨i, server⟩ := Nat.exists_eq_add_of_le (Nat.not_lt.mp stack)
        have inside : core.toNat < s.chans.numStack + s.chans.numServer := range
        exact server_sound_iff wf server (by omega) _
  | addTimeEvent call => exact item_sound_iff wf call _
  | append core stream => exact Iff.rfl
  | pop stream => exact Iff.rfl
  | init stream => exact Iff.rfl

/-! ### What a step keeps -/

theorem step_createQevent {pri : Bool} {core : UInt8} {sockid : Nat} {dst : UInt8}
    {type : QeventNature} {slot : Slot} {event : TimeEventCall} {s' : Instances}
    (created : s.createQevent pri core sockid dst type = .ok (slot, event, s')) :
    s.step (.createQevent pri core sockid dst type) =
      { s' with
        uses := Function.update s.uses core.toNat (s.uses core.toNat + 1)
        last := Function.update s.last core.toNat
          (some ⟨slot, core.toNat, s.uses core.toNat⟩) } := by
  unfold step
  dsimp only
  rw [created]

/-- A counter that has been used once more. -/
theorem used {count : Nat → Nat} {uses : Nat → Nat} {size off i : Nat} (some_ : 0 < size)
    (next : ∀ j, wrap size (count j) = uses (off + j) % size) (j : Nat) :
    wrap size (Function.update count i (wrap size (count i) + 1) j) =
      Function.update uses (off + i) (uses (off + i) + 1) (off + j) % size := by
  by_cases same : j = i
  · rw [same, Function.update_self, Function.update_self, next i]
    exact succ_mod_wrap _ some_
  · rw [Function.update_of_ne same, Function.update_of_ne (by omega)]
    exact next j

/-- A core has made an instance, which lies where it should. -/
theorem latest_made (wf : s.Wf) {s' : Instances} (numStack : s'.chans.numStack = s.chans.numStack)
    (numServer : s'.chans.numServer = s.chans.numServer) {core : Nat} {made : Instance}
    (placed : s'.Placed made) (for_ : made.core = core) (c : Nat) (x : Instance)
    (got : Function.update s.last core (some made) c = some x) : s'.Placed x ∧ x.core = c := by
  by_cases same : c = core
  · rw [same, Function.update_self] at got
    obtain rfl := Option.some_inj.mp got
    exact ⟨placed, for_.trans same.symm⟩
  · rw [Function.update_of_ne same] at got
    obtain ⟨before, core_⟩ := wf.latest c x got
    exact ⟨before.mono numStack numServer, core_⟩

theorem wf_createQevent_stack (wf : s.Wf) (pri : Bool) {core : UInt8} (sockid : Nat) (dst : UInt8)
    (type : QeventNature) (stack : core.toNat < s.chans.numStack)
    (some_ : 0 < qepollSize / s.chans.numStack) :
    (s.step (.createQevent pri core sockid dst type)).Wf := by
  obtain ⟨count, created, index⟩ := createQevent_stack wf pri sockid dst type stack
  have place := index some_
  rw [step_createQevent created]
  refine { arrays := wf.arrays, nextStack := ?_, nextServer := ?_, latest := ?_, linked := ?_ }
  · intro _ c isStack
    dsimp only at isStack ⊢
    by_cases same : c = core.toNat
    · rw [same, Function.update_self, Function.update_self, place]
      exact succ_mod_wrap _ some_
    · rw [Function.update_of_ne same, Function.update_of_ne same]
      exact wf.nextStack some_ c isStack
  · intro i
    dsimp only
    rw [Function.update_of_ne (by omega)]
    exact wf.nextServer i
  · intro c x got
    refine latest_made wf ?_ ?_ ?_ ?_ c x got
    · rfl
    · rfl
    · refine ⟨fun _ => congrArg (Slot.mk core.toNat) place, fun i server => ?_⟩
      dsimp only at server
      omega
    · rfl
  · exact fun stream x mem => (wf.linked stream x mem).mono rfl rfl

theorem wf_createQevent_server (wf : s.Wf) (pri : Bool) {core : UInt8} (sockid : Nat) (dst : UInt8)
    (type : QeventNature) {i : Nat} (server : core.toNat = s.chans.numStack + i)
    (app : i < s.chans.numServer) : (s.step (.createQevent pri core sockid dst type)).Wf := by
  rw [step_createQevent (createQevent_server wf pri sockid dst type server app)]
  refine { arrays := wf.arrays, nextStack := ?_, nextServer := ?_, latest := ?_, linked := ?_ }
  · intro some_ c isStack
    dsimp only at isStack ⊢
    rw [Function.update_of_ne (by omega)]
    exact wf.nextStack some_ c isStack
  · dsimp only
    rw [server]
    exact used (by decide) wf.nextServer
  · intro c x got
    refine latest_made wf ?_ ?_ ?_ ?_ c x got
    · rfl
    · rfl
    · refine ⟨fun isStack => ?_, fun j isServer => ?_⟩
      · dsimp only at isStack
        omega
      · dsimp only at isServer ⊢
        obtain rfl : j = i := by omega
        rw [wf.nextServer j, server]
    · rfl
  · exact fun stream x mem => (wf.linked stream x mem).mono rfl rfl

/-- The history of uses goes on with the counter. -/
theorem uses_addTimeEvent (s : Instances) (call : TimeEventCall) :
    ((s.step (.addTimeEvent call)).chans.appCount = s.chans.appCount ∧
        (s.step (.addTimeEvent call)).uses = s.uses) ∨
      ∃ qid, (s.step (.addTimeEvent call)).chans.appCount =
          Function.update s.chans.appCount qid
            (wrap (qepollSize / numApp) (s.chans.appCount qid) + 1) ∧
        (s.step (.addTimeEvent call)).uses =
          Function.update s.uses (s.chans.numStack + qid)
            (s.uses (s.chans.numStack + qid) + 1) := by
  unfold step
  dsimp only
  obtain ⟨-, -, ⟨same, untimed⟩ | ⟨qid, i, reg, routed, timed, taken⟩⟩ := add_counters s.chans call
  · refine .inl ⟨same, ?_⟩
    cases routed : s.chans.route call with
    | error stop => rfl
    | ok target => exact if_neg (untimed _ _ _ routed)
  · refine .inr ⟨qid, taken, ?_⟩
    rw [routed]
    exact if_pos timed

theorem wf_addTimeEvent (wf : s.Wf) (call : TimeEventCall) : (s.step (.addTimeEvent call)).Wf := by
  obtain ⟨numStack, numServer, -⟩ := add_counters s.chans call
  have shape : (s.step (.addTimeEvent call)).chans.numStack = s.chans.numStack ∧
      (s.step (.addTimeEvent call)).chans.numServer = s.chans.numServer := ⟨numStack, numServer⟩
  refine { arrays := ?_, nextStack := ?_, nextServer := ?_, latest := ?_, linked := ?_ }
  · rw [shape.1, shape.2]
    exact wf.arrays
  · rw [shape.1]
    intro some_ c isStack
    obtain ⟨-, uses⟩ | ⟨qid, -, uses⟩ := uses_addTimeEvent s call
    · rw [uses]
      exact wf.nextStack some_ c isStack
    · rw [uses, Function.update_of_ne (by omega)]
      exact wf.nextStack some_ c isStack
  · rw [shape.1]
    obtain ⟨counted, uses⟩ | ⟨qid, counted, uses⟩ := uses_addTimeEvent s call
    · rw [counted, uses]
      exact wf.nextServer
    · rw [counted, uses]
      exact used (by decide) wf.nextServer
  · intro c x got
    exact ⟨(wf.latest c x got).1.mono shape.1 shape.2, (wf.latest c x got).2⟩
  · exact fun stream x mem => (wf.linked stream x mem).mono shape.1 shape.2

/-- What is linked was linked before, or is what its core has just made. -/
theorem wf_relinked (wf : s.Wf) {last : Nat → Option Instance}
    {pendingEvents : Nat → List Instance}
    (fewer : ∀ c x, last c = some x → s.last c = some x)
    (known : ∀ stream, ∀ x ∈ pendingEvents stream,
      x ∈ s.pendingEvents stream ∨ s.last x.core = some x) :
    Wf { s with last := last, pendingEvents := pendingEvents } := by
  refine { arrays := wf.arrays, nextStack := wf.nextStack, nextServer := wf.nextServer
           latest := ?_, linked := ?_ }
  · intro c x got
    obtain ⟨placed, core⟩ := wf.latest c x (fewer c x got)
    exact ⟨placed.mono rfl rfl, core⟩
  · intro stream x mem
    rcases known stream x mem with before | made
    · exact (wf.linked stream x before).mono rfl rfl
    · exact (wf.latest x.core x made).1.mono rfl rfl

theorem wf_append (wf : s.Wf) (core stream : Nat) : (s.step (.append core stream)).Wf := by
  unfold step
  dsimp only
  cases made : s.last core with
  | none => exact wf
  | some x =>
      refine wf_relinked wf (fun c y got => ?_) fun other y mem => ?_
      · by_cases same : c = core
        · rw [same, Function.update_self] at got
          cases got
        · rw [Function.update_of_ne same] at got
          exact got
      · by_cases same : other = stream
        · rw [same, Function.update_self, List.mem_append, List.mem_singleton] at mem
          rw [same]
          rcases mem with before | rfl
          · exact .inl before
          · obtain rfl := (wf.latest core y made).2
            exact .inr made
        · rw [Function.update_of_ne same] at mem
          exact .inl mem

/-- Instances go from a list. -/
theorem wf_unlink (wf : s.Wf) (stream : Nat) {kept : List Instance}
    (fewer : ∀ x ∈ kept, x ∈ s.pendingEvents stream) :
    Wf { s with pendingEvents := Function.update s.pendingEvents stream kept } := by
  refine wf_relinked wf (fun _ _ got => got) fun other x mem => .inl ?_
  by_cases same : other = stream
  · rw [same, Function.update_self] at mem
    rw [same]
    exact fewer x mem
  · rw [Function.update_of_ne same] at mem
    exact mem

theorem wf_step (wf : s.Wf) {op : InstanceOp} (range : s.InRange op)
    (permitted : s.Permitted op) : (s.step op).Wf := by
  cases op with
  | createQevent pri core sockid dst type =>
      by_cases stack : core.toNat < s.chans.numStack
      · have some_ := permitted.1
        rw [if_neg (by omega)] at some_
        exact wf_createQevent_stack wf pri sockid dst type stack some_
      · obtain ⟨i, server⟩ := Nat.exists_eq_add_of_le (Nat.not_lt.mp stack)
        have inRange : core.toNat < s.chans.numStack + s.chans.numServer := range
        exact wf_createQevent_server wf pri sockid dst type server (by omega)
  | addTimeEvent call => exact wf_addTimeEvent wf call
  | append core stream => exact wf_append wf core stream
  | pop stream => exact wf_unlink wf stream fun _ => List.mem_of_mem_tail
  | init stream => exact wf_unlink wf stream fun _ mem => absurd mem List.not_mem_nil

/-! ## The law -/

open Lib.Run in
/-- **Exactly which runs are sound.**  Over every run of calls from the cores of stacks and
applications, no two arrays are the same, and every instance and every time item lies in its array,
the instance not linked anywhere, if and only if every call is permitted. -/
theorem instances_law (c : Channels) (ops : List InstanceOp)
    (range : Allowed step InRange (start c) ops) :
    ((start c).arrays.sarg ++ (start c).arrays.qevents ++ (start c).arrays.qitems).Nodup ∧
      (Each step Sound (start c) ops ↔ Allowed step Permitted (start c) ops) :=
  ⟨EventArrays.arrays_nodup c.numStack c.numServer,
    each_iff_allowed_within (P := Wf) (fun _ _ wf => wf_step wf)
      (fun _ _ wf => sound_iff wf) ops (start c) (wf_start c) range⟩

/-- A stack makes an instance, which a stream links, and an application makes one. -/
theorem instances_law_two :
    Lib.Run.Each step Sound (start (Channels.fresh 1 1 4))
      [.createQevent true 0 5 0 .read, .append 0 5, .createQevent true 1 5 0 .read] := by
  have cores : (0 : UInt8).toNat < 1 + 1 ∧ (1 : UInt8).toNat < 1 + 1 := by decide
  have sizes : 0 < qepollSize / 1 ∧ wrap (qepollSize / numApp) 0 <
      qepollSize / 1 - qepollSize / (2 * 1) := by decide
  refine (instances_law (Channels.fresh 1 1 4)
    [.createQevent true 0 5 0 .read, .append 0 5, .createQevent true 1 5 0 .read]
    ⟨cores.1, trivial, cores.2, trivial⟩).2.mpr
    ⟨⟨sizes.1, fun stream x mem => by cases mem⟩, trivial, ⟨sizes.2, ?_⟩, trivial⟩
  intro stream x mem ofServer
  -- the one instance linked is of the stack
  change x ∈ Function.update (fun _ => []) 5 [⟨⟨0, 0⟩, 0, 0⟩] stream at mem
  by_cases which : stream = 5
  · rw [which, Function.update_self, List.mem_singleton] at mem
    rw [mem] at ofServer
    exact absurd ofServer (by decide)
  · rw [Function.update_of_ne which] at mem
    cases mem

/-- An application that goes on raising events comes to the end of its half of the array, long
before the counter goes back to 0. -/
theorem comes_to_end (pri : Bool) (core : UInt8) (sockid : Nat) (dst : UInt8) (type : QeventNature)
    {i : Nat} (k : Nat) : ∀ s : Instances, s.Wf → core.toNat = s.chans.numStack + i →
      i < s.chans.numServer → (∀ stream, s.pendingEvents stream = []) →
      s.chans.appCount i + k =
        qepollSize / s.chans.numServer - qepollSize / (2 * s.chans.numServer) →
      Lib.Run.Allowed step InRange s
          (List.replicate (k + 1) (.createQevent pri core sockid dst type)) ∧
        ¬ Lib.Run.Each step Sound s
          (List.replicate (k + 1) (.createQevent pri core sockid dst type)) := by
  induction k with
  | zero =>
      intro s wf server app _ full
      have range : s.InRange (.createQevent pri core sockid dst type) := by
        unfold InRange
        omega
      refine ⟨⟨range, trivial⟩, fun each => ?_⟩
      have permitted := ((sound_iff wf range).mp each.1).1
      have which : core.toNat - s.chans.numStack = i := by omega
      have small := half_small s.chans.numServer
      rw [if_pos (by omega), which, wrap, if_neg (by omega)] at permitted
      omega
  | succ k ih =>
      intro s wf server app none left
      have range : s.InRange (.createQevent pri core sockid dst type) := by
        unfold InRange
        omega
      have small := half_small s.chans.numServer
      have within : wrap (qepollSize / numApp) (s.chans.appCount i) = s.chans.appCount i :=
        if_neg (by omega)
      have next := wf_createQevent_server wf pri sockid dst type server app
      have permitted : s.Permitted (.createQevent pri core sockid dst type) := by
        have which : core.toNat - s.chans.numStack = i := by omega
        refine ⟨?_, fun stream x mem => ?_⟩
        · rw [if_pos (by omega), which, within]
          omega
        · rw [none stream] at mem
          cases mem
      obtain ⟨numStack, numServer, pendingEvents, counted⟩ :
          (s.step (.createQevent pri core sockid dst type)).chans.numStack = s.chans.numStack ∧
          (s.step (.createQevent pri core sockid dst type)).chans.numServer = s.chans.numServer ∧
          (s.step (.createQevent pri core sockid dst type)).pendingEvents = s.pendingEvents ∧
          (s.step (.createQevent pri core sockid dst type)).chans.appCount i =
            s.chans.appCount i + 1 := by
        rw [step_createQevent (createQevent_server wf pri sockid dst type server app), within]
        exact ⟨rfl, rfl, rfl, Function.update_self ..⟩
      obtain ⟨allowed, refused⟩ := ih _ next (by omega) (by omega)
        (by rw [pendingEvents]; exact none) (by rw [counted, numServer]; omega)
      rw [List.replicate_succ]
      exact ⟨⟨range, allowed⟩, fun each => refused each.2⟩

/-- One stack and one application, which raises 3,000,001 events of its own. -/
theorem app_overruns :
    ¬ ∀ ops : List InstanceOp, Lib.Run.Allowed step InRange (start (Channels.fresh 1 1 4)) ops →
      Lib.Run.Each step Sound (start (Channels.fresh 1 1 4)) ops := by
  intro all
  have start_ := wf_start (Channels.fresh 1 1 4)
  obtain ⟨range, refused⟩ := comes_to_end true 1 5 0 .read 3000000 _ start_
    rfl (by decide : 0 < 1) (fun _ => rfl)
    (by decide : 0 + 3000000 = qepollSize / 1 - qepollSize / (2 * 1))
  exact refused (all _ range)

end Instances

end QStack
