/-
# QStack.IdleOrder -- timeout_list and the streams that are idle

`timeout_list_check` stops at the first stream that was active less than `TCP_TIMEOUT` ago, and
finds all idle streams as long as the list is in the order of `last_active_ts`.  Every function that
stamps a stream moves it to the end, but for `process_tcp_packet` on a segment that the sequence
check refuses (`Cx.processSegment_stirs`): the stream stays where it is, and stands young in front
of streams that are idle (`refused_hides_idle`).

`idle_law` is the order over runs of a whole stack, with the times as they are and not as the
counter shows them, under the condition that such a segment finds its stream at the end, or before
streams that were active in the same millisecond.
-/
import QStack.IdleList
import QStack.Lib.Run

namespace QStack

set_option autoImplicit false

/-! ## Runs -/

/-- The streams behind one of the list. -/
def behind (id : Nat) (xs : List Nat) : List Nat := (xs.dropWhile (· != id)).tail

/-- Any event but a time-out, or the check that finds the time-outs; with the time in milliseconds
as it is. -/
inductive IdleCall where
  | event (t : Nat) (e : StackEvent)
  | check (t : Nat)

def IdleCall.time : IdleCall → Nat
  | .event t _ | .check t => t

structure IdleRun where
  stack : Stack
  /-- history: when `last_active_ts` of a stream was written last -/
  active : Nat → Nat := fun _ => 0
  /-- history: when the last call was made -/
  now : Nat := 0

namespace IdleRun

/-- A call at time `t` has led to `stack`. -/
def next (s : IdleRun) (t : Nat) (stack : Stack) : IdleRun :=
  { stack := stack
    active := fun id =>
      if (stack.streams id).lastActiveTs ≠ (s.stack.streams id).lastActiveTs ∨
          (id ∈ stack.on .timeoutList ∧ id ∉ s.stack.on .timeoutList) then t
      else s.active id
    now := t }

/-- `cur_ts` is what 32 bits keep of the time. -/
def step (s : IdleRun) : IdleCall → IdleRun
  | .event t e =>
      s.next t (if e.isTimeout then s.stack else s.stack.step (e.timed (BitVec.ofNat 32 t)))
  | .check t => s.next t (s.stack.timeoutListCheck (BitVec.ofNat 32 t))

abbrev list (s : IdleRun) : List Nat := s.stack.on .timeoutList

/-- The list is in the order of the last activity. -/
structure InOrder (s : IdleRun) : Prop where
  listed : s.stack.Listed
  stamps : ∀ id ∈ s.list, (s.stack.streams id).lastActiveTs = BitVec.ofNat 32 (s.active id)
  past : ∀ id ∈ s.list, s.active id ≤ s.now
  ordered : Lib.Deadline.Ordered s.active s.list

/-- A check destroys the streams of the list that are idle, and leaves the others alone. -/
def Destroys (s : IdleRun) (call : IdleCall) (s' : IdleRun) : Prop :=
  ∀ t, call = .check t → s.stack.halted = false → ∃ ids : List Nat, ids.Nodup ∧
    (∀ id, id ∈ ids ↔ id ∈ s.list ∧ s.active id + Timers.tcpTimeout.toNat ≤ t) ∧
    s'.stack = ids.foldl Stack.destroyIdle s.stack ∧
    (∀ id ∈ ids, s'.stack.allocated id = false) ∧
    ∀ id, id ∉ ids → s'.stack.streams id = s.stack.streams id ∧
      s'.stack.allocated id = s.stack.allocated id

/-- Time does not go back, no stream of the list was active 2^31 milliseconds ago or earlier, and a
segment that the sequence check refuses finds behind its stream only such that were active at the
same time. -/
def CallOk (s : IdleRun) (call : IdleCall) : Prop :=
  s.now ≤ call.time ∧ (∀ id ∈ s.list, call.time < s.active id + 2 ^ 31) ∧
    match call with
    | .event t e => ∀ id ∈ s.stack.refused e, ∀ j ∈ behind id s.list, s.active j = t
    | .check _ => True

instance (s : IdleRun) (call : IdleCall) : Decidable (s.CallOk call) := by
  unfold CallOk
  cases call <;> infer_instance

/-! ## One call -/

section Step

variable {s : IdleRun} {t : Nat} {stack : Stack} {id : Nat}

theorem behind_eq {pre post : List Nat} (fresh : id ∉ pre) :
    behind id (pre ++ id :: post) = post := by
  have skip : (pre ++ id :: post).dropWhile (· != id) = id :: post := by
    rw [List.dropWhile_append_of_pos]
    · simp
    · intro j mem
      simpa using fun same : j = id => fresh (same ▸ mem)
  rw [behind, skip, List.tail_cons]

/-- A stream keeps its stamp and its place among the listed. -/
theorem active_same (same : (stack.streams id).lastActiveTs = (s.stack.streams id).lastActiveTs)
    (on : id ∈ stack.on .timeoutList → id ∈ s.list) : (s.next t stack).active id = s.active id :=
  if_neg fun changed => changed.elim (· same) fun new => new.2 (on new.1)

/-- Streams leave the list. -/
theorem InOrder.shrink (inOrder : s.InOrder) (later : s.now ≤ t) (listed : stack.Listed)
    (part : (stack.on .timeoutList).Sublist s.list)
    (same : ∀ id ∈ stack.on .timeoutList,
      (stack.streams id).lastActiveTs = (s.stack.streams id).lastActiveTs) :
    (s.next t stack).InOrder := by
  have active : ∀ id ∈ stack.on .timeoutList, (s.next t stack).active id = s.active id :=
    fun id on => active_same (same id on) fun _ => part.subset on
  refine ⟨listed, fun id on => ?_, fun id on => ?_, (inOrder.ordered.sublist part).congr active⟩
  · rw [active id on]
    exact (same id on).trans (inOrder.stamps id (part.subset on))
  · rw [active id on]
    exact (inOrder.past id (part.subset on)).trans later

/-- A new stamp is the time of the call. -/
theorem InOrder.stamped (inOrder : s.InOrder) (later : s.now ≤ t)
    (near : ∀ id ∈ s.list, t < s.active id + 2 ^ 31)
    (stamp : (stack.streams id).lastActiveTs = BitVec.ofNat 32 t)
    (on : id ∈ stack.on .timeoutList) : (s.next t stack).active id = t := by
  by_cases changed : (stack.streams id).lastActiveTs ≠ (s.stack.streams id).lastActiveTs ∨
      (id ∈ stack.on .timeoutList ∧ id ∉ s.stack.on .timeoutList)
  · exact if_pos changed
  · rw [not_or, not_not, not_and, not_not] at changed
    have listed := changed.2 on
    have same := congrArg BitVec.toNat
      (stamp.symm.trans (changed.1.trans (inOrder.stamps id listed)))
    rw [BitVec.toNat_ofNat, BitVec.toNat_ofNat] at same
    have past := inOrder.past id listed
    have near := near id listed
    rw [active_same changed.1 changed.2]
    omega

/-- One stream gets a new stamp. -/
theorem InOrder.bump (inOrder : s.InOrder) (later : s.now ≤ t)
    (near : ∀ id ∈ s.list, t < s.active id + 2 ^ 31) (listed : stack.Listed)
    (others : ∀ j, j ≠ id → stack.streams j = s.stack.streams j)
    (stays : ∀ j ∈ stack.on .timeoutList, j ≠ id → j ∈ s.list)
    (stamp : (stack.streams id).lastActiveTs = BitVec.ofNat 32 t)
    (on : id ∈ stack.on .timeoutList)
    (ordered : Lib.Deadline.Ordered (Function.update s.active id t) (stack.on .timeoutList)) :
    (s.next t stack).InOrder := by
  have active : ∀ j ∈ stack.on .timeoutList,
      (s.next t stack).active j = Function.update s.active id t j := by
    intro j within
    by_cases same : j = id
    · subst same
      rw [Function.update_self]
      exact inOrder.stamped later near stamp on
    · rw [Function.update_of_ne same]
      exact active_same (by rw [others j same]) fun _ => stays j within same
  refine ⟨listed, fun j within => ?_, fun j within => ?_, ordered.congr active⟩
  · rw [active j within]
    by_cases same : j = id
    · subst same
      rw [Function.update_self]
      exact stamp
    · rw [Function.update_of_ne same]
      exact (congrArg TcpStream.lastActiveTs (others j same)).trans
        (inOrder.stamps j (stays j within same))
  · rw [active j within]
    by_cases same : j = id
    · subst same
      rw [Function.update_self]
      exact le_rfl
    · rw [Function.update_of_ne same]
      exact (inOrder.past j (stays j within same)).trans later

theorem InOrder.turn (inOrder : s.InOrder) (later : s.now ≤ t)
    (near : ∀ id ∈ s.list, t < s.active id + 2 ^ 31) (listed : stack.Listed)
    (others : ∀ j, j ≠ id → stack.streams j = s.stack.streams j) {refused : Prop}
    (turn : Stack.Turn (BitVec.ofNat 32 t) refused id s.stack stack)
    (stays : refused → ∀ j ∈ behind id s.list, s.active j = t) : (s.next t stack).InOrder := by
  have past : ∀ j ∈ s.list, s.active j ≤ t := fun j on => (inOrder.past j on).trans later
  have once : s.list.Nodup := inOrder.listed.once
  cases turn with
  | kept place stamp =>
      refine inOrder.shrink later listed (by rw [place]) fun j on => ?_
      by_cases same : j = id
      · subst same
        exact stamp (place ▸ on)
      · rw [others j same]
  | gone place =>
      refine inOrder.shrink later listed (place ▸ List.erase_sublist) fun j on => ?_
      rw [place] at on
      rw [others j (once.mem_erase_iff.mp on).1]
  | moved place stamp =>
      refine inOrder.bump later near listed others (fun j within other => ?_) stamp
        (by rw [place]; simp) ?_
      · rw [place] at within
        exact (Lib.Deadline.mem_moveLast other).mp within
      · rw [place]
        exact inOrder.ordered.moveLast once fun j within => past j (List.mem_of_mem_erase within)
  | stamped why place stamp =>
      by_cases on : id ∈ s.list
      · refine inOrder.bump later near listed others (fun j within _ => ?_) stamp
          (by rw [place]; exact on) ?_
        · rwa [place] at within
        rw [place]
        change Lib.Deadline.Ordered _ s.list
        obtain ⟨pre, post, split⟩ := List.append_of_mem on
        have ordered := inOrder.ordered
        have late := stays why
        rw [split] at ordered once past late ⊢
        have fresh : id ∉ pre := fun within =>
          (List.nodup_append.mp once).2.2 id within id List.mem_cons_self rfl
        rw [behind_eq fresh] at late
        exact (ordered.restamp_iff once past).mpr late
      · refine inOrder.shrink later listed (by rw [place]) fun j within => ?_
        rw [place] at within
        rw [others j fun same => on (same ▸ within)]

theorem InOrder.event (inOrder : s.InOrder) {e : StackEvent} (ok : s.CallOk (.event t e)) :
    (s.step (.event t e)).InOrder := by
  obtain ⟨later, near, stays⟩ := ok
  cases other : e.isTimeout with
  | true =>
      rw [step, other, if_pos rfl]
      exact inOrder.shrink later inOrder.listed (List.Sublist.refl _) fun _ _ => rfl
  | false =>
      obtain ⟨listed, id, others, turn⟩ := inOrder.listed.step (BitVec.ofNat 32 t) other
      rw [step, other, if_neg Bool.false_ne_true]
      exact inOrder.turn later near listed others turn fun refused => stays id refused

/-- The stamp of a stream of the list is judged as the time it stands for. -/
theorem InOrder.idle_iff (inOrder : s.InOrder) (later : s.now ≤ t) (on : id ∈ s.list)
    (near : t < s.active id + 2 ^ 31) :
    (!(BitVec.ofNat 32 t - (s.stack.streams id).lastActiveTs).slt Timers.tcpTimeout) =
      decide (s.active id + Timers.tcpTimeout.toNat ≤ t) := by
  have past := inOrder.past id on
  have wait : Timers.tcpTimeout.toInt = Timers.tcpTimeout.toNat := by decide
  rw [inOrder.stamps id on, Bool.eq_iff_iff, decide_eq_true_iff,
    Lib.Deadline.passed_iff (by omega) (by omega), wait]
  omega

theorem InOrder.check (inOrder : s.InOrder) (ok : s.CallOk (.check t)) :
    (s.step (.check t)).InOrder ∧ s.Destroys (.check t) (s.step (.check t)) := by
  obtain ⟨later, near, -⟩ := ok
  have listed := inOrder.listed
  rw [step, Stack.timeoutListCheck]
  cases halted : s.stack.halted with
  | true =>
      rw [if_pos rfl]
      refine ⟨inOrder.shrink later listed (List.Sublist.refl _) fun _ _ => rfl, fun t' _ runs => ?_⟩
      rw [halted] at runs
      cases runs
  | false =>
      have due : (s.stack.on .timeoutList).takeWhile (fun id => !(BitVec.ofNat 32 t -
          (s.stack.streams id).lastActiveTs).slt Timers.tcpTimeout) = s.list.takeWhile
          fun id => decide (s.active id + Timers.tcpTimeout.toNat ≤ t) :=
        Lib.Deadline.takeWhile_congr fun id on => inOrder.idle_iff later on (near id on)
      rw [if_neg Bool.false_ne_true, Stack.timeoutScan _ _ _ listed.once, due]
      generalize idle : s.list.takeWhile
        (fun id => decide (s.active id + Timers.tcpTimeout.toNat ≤ t)) = ids
      have scan : ids = s.list.filter fun id =>
          decide (s.active id + Timers.tcpTimeout.toNat ≤ t) := by
        rw [← idle]
        exact inOrder.ordered.scan Timers.tcpTimeout.toNat t
      have split : s.list = ids ++ s.list.dropWhile
          (fun id => decide (s.active id + Timers.tcpTimeout.toNat ≤ t)) := by
        rw [← idle, List.takeWhile_append_dropWhile]
      obtain ⟨listed', place, dead, others⟩ := listed.foldl_destroyIdle ids split
      have once := listed.once
      rw [show s.stack.on .timeoutList = s.list from rfl, split] at once
      constructor
      · refine inOrder.shrink later listed' ?_ fun id on => ?_
        · rw [place]
          exact List.dropWhile_sublist _
        · rw [place] at on
          have away : id ∉ ids := fun within =>
            (List.nodup_append.mp once).2.2 id within id on rfl
          rw [(others id away).1]
      · intro t' check _
        obtain rfl : t = t' := by
          cases check
          rfl
        refine ⟨ids, (List.nodup_append.mp once).1, fun id => ?_, rfl, dead, others⟩
        rw [scan, List.mem_filter, decide_eq_true_iff]

/-- What holds between two calls; the counter shows the order of two stamps less than half its
range apart. -/
def Sorted (s : IdleRun) : Prop :=
  s.InOrder ∧ s.list.Pairwise fun a b => s.active b < s.active a + 2 ^ 31 →
    ((s.stack.streams b).lastActiveTs - (s.stack.streams a).lastActiveTs).slt 0 = false

theorem InOrder.sorted (inOrder : s.InOrder) : s.Sorted := by
  refine ⟨inOrder, List.Pairwise.imp_of_mem ?_ inOrder.ordered⟩
  intro a b first second le near
  rw [inOrder.stamps a first, inOrder.stamps b second]
  have zero : (0 : U32).toInt = 0 := by decide
  have ahead := (@Lib.Deadline.passed_iff 32 (s.active b) (s.active a) (by omega) (by omega)
    0).mpr (by rw [zero]; omega)
  rwa [Bool.not_eq_true'] at ahead

end Step

theorem Sorted.step {s : IdleRun} (sorted : s.Sorted) (call : IdleCall) (ok : s.CallOk call) :
    (s.step call).Sorted ∧ s.Destroys call (s.step call) := by
  cases call with
  | event t e => exact ⟨(sorted.1.event ok).sorted, fun t' check => by cases check⟩
  | check t =>
      obtain ⟨inOrder, destroys⟩ := sorted.1.check ok
      exact ⟨inOrder.sorted, destroys⟩

/-- **The idle streams are destroyed, and no others.**  Over every run of a stack in which a segment
that the sequence check refuses finds its stream at the end of `timeout_list`, or before such as were
active at the same time, the list is in the order of the last activity, and every check destroys
exactly the streams that were active `TCP_TIMEOUT` ago or earlier. -/
theorem idle_law (entries : Nat) (calls : List IdleCall)
    (allowed : Lib.Run.Allowed step CallOk { stack := Stack.init entries } calls) :
    Lib.Run.Along step Sorted { stack := Stack.init entries } calls ∧
      Lib.Run.Each step Destroys { stack := Stack.init entries } calls := by
  have start : Sorted { stack := Stack.init entries } := by
    refine InOrder.sorted ⟨⟨fun id => ?_, List.nodup_nil, fun _ _ => List.not_mem_nil,
      fun flow id found => ?_⟩, nofun, nofun, .nil _⟩
    · exact iff_of_false Bool.false_ne_true List.not_mem_nil
    · cases found
  constructor
  · exact Lib.Run.along_of_step (fun s call sorted ok => (sorted.step call ok).1) calls _ start allowed
  · exact Lib.Run.each_of_step (P := Sorted) (fun s call sorted ok => sorted.step call ok) calls _
      start allowed

/-- A client connects, and is not heard of again. -/
def silentRun : List IdleCall :=
  [.event 0 (.packet ⟨{ addr := 10, port := 80 }, { addr := 20, port := 4000 }⟩ {} 0
      { seq := 7000, syn := true, window := 65535 }
      { chunk := 0, rcvbufSize := 4, sndbufSize := 4, iss := 100 }),
   .check 299999,
   .check 300000]

theorem idle_law_silent :
    Lib.Run.Along step Sorted { stack := Stack.init 8 } silentRun ∧
      Lib.Run.Each step Destroys { stack := Stack.init 8 } silentRun :=
  idle_law 8 silentRun (by decide +kernel)

/-! ## A refused segment -/

/-- Time does not go back, and no stream of the list was active 2^31 milliseconds ago. -/
def Spaced (s : IdleRun) (call : IdleCall) : Prop :=
  s.now ≤ call.time ∧ ∀ id ∈ s.list, call.time < s.active id + 2 ^ 31

instance (s : IdleRun) (call : IdleCall) : Decidable (s.Spaced call) :=
  inferInstanceAs (Decidable (_ ∧ _))

/-- Two clients connect, and an old segment of the first arrives much later. -/
def refusedRun : List IdleCall :=
  let first : Flow := ⟨{ addr := 10, port := 80 }, { addr := 20, port := 4000 }⟩
  let second : Flow := ⟨{ addr := 10, port := 80 }, { addr := 30, port := 4000 }⟩
  let birth (chunk : Nat) : Birth :=
    { chunk := chunk, rcvbufSize := 4, sndbufSize := 4, iss := 100 }
  [.event 0 (.packet first {} 0 { seq := 7000, syn := true, window := 65535 } (birth 0)),
   .event 1 (.packet first {} 0 { seq := 7001, ackSeq := 101, ack := true, window := 65535 }
     (birth 0)),
   .event 2 (.packet second {} 0 { seq := 7000, syn := true, window := 65535 } (birth 1)),
   .event 200000 (.packet first {} 0 { seq := 5, ackSeq := 101, ack := true, window := 65535 }
     (birth 0)),
   .check 300002]

/-- The second client has been silent for 300000 milliseconds, and is not found behind the
first. -/
theorem refused_hides_idle :
    ¬ ∀ (entries : Nat) (calls : List IdleCall),
      Lib.Run.Allowed step Spaced { stack := Stack.init entries } calls →
        Lib.Run.Each step Destroys { stack := Stack.init entries } calls := by
  intro claim
  have each := claim 8 refusedRun (by decide +kernel)
  obtain ⟨ids, -, found, -, dead, -⟩ := each.2.2.2.2.1 300002 rfl (by decide +kernel)
  have destroyed := dead 1 ((found 1).mpr (by decide +kernel))
  revert destroyed
  decide +kernel

end IdleRun

end QStack
