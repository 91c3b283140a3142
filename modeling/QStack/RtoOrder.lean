/-
# QStack.RtoOrder -- what rto_list_check leaves behind

`rto_list_check` stops at the first stream whose deadline has not come, as the other two checks do.
But the deadlines of `rto_list` are set at different distances: a stream that has lost packets gets
`TCP_INITIAL_RTO << nrtx`, and all go to the end of one list.  A stream that is due may then stand
behind one that is not (`behind_unexpired`), and is only found when that one is due as well.

`rtoMisses_iff` says exactly which lists a check takes all from.  `rto_law` is the run: as long as
no stream is linked with a deadline before one that is on the list, no check leaves a stream that
is due, unless it has handled `MAX_RTO_BATCH` of them.
-/
import QStack.TimerOrder
import Mathlib.Data.List.TakeWhile

namespace QStack

set_option autoImplicit false

namespace Timers

variable {n : Nat}

/-! ## What the calls do to the list -/

section Lists

variable {s : Timers n} {l : Linked n}

/-- `rto_list_add` puts the stream at the end, unless it is on one of the two lists. -/
theorem Threaded.rtoListAdd (threaded : s.Threaded l) (id : Fin n) (env : Env) :
    ∃ l', (s.on id (Cx.rtoListAdd env)).Threaded l' ∧
      l'.rto = if (s.streams id).onRto || (s.streams id).onTimewaitList then l.rto
        else l.rto ++ [id] := by
  refine ⟨_, threaded.on (Cx.KeepsTimers.rtoListAdd _ (threaded.apart id)), ?_⟩
  unfold Cx.rtoListAdd
  by_cases rto : (s.streams id).onRto = true <;>
    by_cases timewait : (s.streams id).onTimewaitList = true <;>
    simp [rto, timewait, Cx.emit, Cx.modify, Linked.perform]

theorem Threaded.rtoListRemove (threaded : s.Threaded l) (id : Fin n) :
    ∃ l', (s.on id Cx.rtoListRemove).Threaded l' ∧ l'.rto = l.rto.erase id := by
  refine ⟨_, threaded.on (Cx.KeepsTimers.rtoListRemove _ (threaded.apart id)), ?_⟩
  have member := (threaded.member id).rto
  unfold Cx.rtoListRemove
  by_cases on : (s.streams id).onRto = true
  · simp [on, Cx.emit, Cx.modify, Linked.perform]
  · have off : l.rto.erase id = l.rto := List.erase_of_not_mem fun mem => on (member.mpr mem)
    simp [on, off]

theorem Threaded.rtoListUpdate (threaded : s.Threaded l) (id : Fin n) (env : Env) :
    ∃ l', (s.on id (Cx.rtoListUpdate env)).Threaded l' ∧
      l'.rto = if (s.streams id).onTimewaitList then l.rto.erase id else l.rto.erase id ++ [id] := by
  refine ⟨_, threaded.on (Cx.KeepsTimers.rtoListUpdate _ (threaded.apart id)), ?_⟩
  have member := (threaded.member id).rto
  unfold Cx.rtoListUpdate Cx.rtoListRemove Cx.rtoListAdd
  by_cases on : (s.streams id).onRto = true <;>
    by_cases timewait : (s.streams id).onTimewaitList = true
  · simp [on, timewait, Cx.emit, Cx.modify, Linked.perform]
  · simp [on, timewait, Cx.emit, Cx.modify, Linked.perform]
  · have off : l.rto.erase id = l.rto := List.erase_of_not_mem fun mem => on (member.mpr mem)
    simp [on, timewait, off, Cx.modify]
  · have off : l.rto.erase id = l.rto := List.erase_of_not_mem fun mem => on (member.mpr mem)
    simp [on, timewait, off, Cx.emit, Cx.modify, Linked.perform]

/-- TIME_WAIT takes the stream off `rto_list`. -/
theorem Threaded.timewaitListAdd_rto (threaded : s.Threaded l) (id : Fin n) (env : Env) :
    ∃ l', (s.on id (Cx.timewaitListAdd env)).Threaded l' ∧ l'.rto = l.rto.erase id := by
  refine ⟨_, threaded.on (Cx.KeepsTimers.timewaitListAdd _ (threaded.apart id)), ?_⟩
  have member := (threaded.member id).rto
  have apart := threaded.apart id
  unfold Cx.timewaitListAdd Cx.rtoListRemove
  by_cases on : (s.streams id).onRto = true
  · have timewait : (s.streams id).onTimewaitList = false := by
      simpa [TimerFlags.Apart, TcpStream.timerFlags, on] using apart
    simp [on, timewait, Cx.emit, Cx.modify, Linked.perform]
  · have off : l.rto.erase id = l.rto := List.erase_of_not_mem fun mem => on (member.mpr mem)
    by_cases timewait : (s.streams id).onTimewaitList = true <;>
      simp [on, timewait, off, Cx.emit, Cx.modify, Linked.perform]

end Lists

/-! ## One check -/

/-- The test of `rto_list_check`. -/
def rtoDue (s : Timers n) (curTs : U32) (id : Fin n) : Bool :=
  !(curTs - (s.streams id).tsRto).slt 0

/-- What a check of the list `xs` handles. -/
def rtoHandled (s : Timers n) (curTs : U32) (xs : List (Fin n)) : List (Fin n) :=
  (xs.takeWhile (s.rtoDue curTs)).take maxRtoBatch

/-- Fewer than `MAX_RTO_BATCH` streams are handled, and then none that is due stays on the list. -/
def RtoMissesNone (s : Timers n) (curTs : U32) (xs : List (Fin n)) : Prop :=
  (s.rtoHandled curTs xs).length < maxRtoBatch →
    ∀ id ∈ xs, id ∉ s.rtoHandled curTs xs → s.rtoDue curTs id = false

/-- **A check misses no expiry** exactly when no stream that is due stands behind one that is not,
or the batch is full. -/
theorem rtoMisses_iff (s : Timers n) (curTs : U32) {xs : List (Fin n)} (once : xs.Nodup) :
    s.RtoMissesNone curTs xs ↔
      (maxRtoBatch ≤ (xs.takeWhile (s.rtoDue curTs)).length ∨
        xs.Pairwise fun a b => s.rtoDue curTs b = true → s.rtoDue curTs a = true) := by
  rw [← Lib.Deadline.takeWhile_eq_filter_iff]
  unfold RtoMissesNone rtoHandled
  rw [List.length_take]
  rcases Nat.lt_or_ge (xs.takeWhile (s.rtoDue curTs)).length maxRtoBatch with small | full
  · rw [List.take_of_length_le (Nat.le_of_lt small), or_iff_right (Nat.not_le.mpr small)]
    constructor
    · intro none
      have none := none (by omega)
      have split := List.takeWhile_append_dropWhile (p := s.rtoDue curTs) (l := xs)
      have front : (xs.takeWhile (s.rtoDue curTs)).filter (s.rtoDue curTs) =
          xs.takeWhile (s.rtoDue curTs) :=
        List.filter_eq_self.mpr fun id mem => List.mem_takeWhile_imp mem
      have rest : (xs.dropWhile (s.rtoDue curTs)).filter (s.rtoDue curTs) = [] := by
        refine List.filter_eq_nil_iff.mpr fun id mem => ?_
        rw [← split] at once
        have away := fun taken => List.disjoint_of_nodup_append once taken mem
        rw [none id ((List.dropWhile_sublist _).subset mem) away]
        exact Bool.false_ne_true
      have whole := congrArg (List.filter (s.rtoDue curTs)) split
      rw [List.filter_append, front, rest, List.append_nil] at whole
      exact whole
    · intro same _ id mem away
      rw [same] at away
      exact Bool.eq_false_iff.mpr fun due => away (List.mem_filter.mpr ⟨mem, due⟩)
  · exact iff_of_true (fun small => by omega) (.inl full)

/-- What is handled leaves the list, from the front on, as long as the process runs. -/
theorem Threaded.foldl_rtoServe {curTs : U32} {room : Fin n → Env} {rest : List (Fin n)} :
    ∀ (ids : List (Fin n)) {s : Timers n} {l : Linked n}, s.Threaded l → l.rto = ids ++ rest →
    ∃ l', (ids.foldl (rtoServe curTs room) s).Threaded l' ∧ l'.rto.Sublist l.rto ∧
      ((ids.foldl (rtoServe curTs room) s).halt = none → l'.rto = rest) ∧
      ∀ j ∈ l'.rto, (ids.foldl (rtoServe curTs room) s).streams j = s.streams j := by
  intro ids
  induction ids with
  | nil => exact fun threaded split => ⟨_, threaded, .refl _, fun _ => split, fun _ _ => rfl⟩
  | cons id ids ih =>
      intro s l threaded split
      cases halt : s.halt with
      | some why =>
          have ended : s.halt.isSome = true := by rw [halt]; rfl
          rw [foldl_rtoServe_ended ended]
          refine ⟨l, threaded, .refl _, fun runs => ?_, fun _ _ => rfl⟩
          rw [halt] at runs
          cases runs
      | none =>
          have once := threaded.chained.rto_nodup
          rw [split, List.cons_append] at once
          have fresh : id ∉ ids ++ rest := (List.nodup_cons.mp once).1
          obtain ⟨l₁, threaded₁, tail⟩ :=
            threaded.rtoExpired { room id with curTs := curTs }
              (show l.rto = id :: (ids ++ rest) from split)
          have served : rtoServe curTs room s id =
              s.serve id (Cx.rtoListCheck { room id with curTs := curTs }) := by
            unfold rtoServe
            rw [halt]
            rfl
          rw [List.foldl_cons, served]
          obtain ⟨l', threaded', part, ends, kept⟩ := ih threaded₁ tail
          refine ⟨l', threaded', ?_, ends, fun j mem => ?_⟩
          · rw [split]
            rw [tail] at part
            exact part.trans (List.sublist_cons_self _ _)
          · have inside := part.subset mem
            rw [tail] at inside
            have other : j ≠ id := fun same => fresh (same ▸ inside)
            rw [kept j mem, serve_other s other]

/-! ## Runs -/

/-- The calls that change the list, with the time in milliseconds as it is. -/
inductive RtoCall (n : Nat) where
  | add (id : Fin n) (t : Nat)
  | remove (id : Fin n) (t : Nat)
  | update (id : Fin n) (t : Nat)
  | timewait (id : Fin n) (t : Nat)
  | destroy (id : Fin n) (t : Nat)
  /-- the rest of the stack, which leaves `ts_rto` alone and sets `rto` as it likes -/
  | work (id : Fin n) (st : TcpStream) (t : Nat)
  | check (t : Nat) (room : Fin n → Env)

def RtoCall.time : RtoCall n → Nat
  | .add _ t | .remove _ t | .update _ t | .timewait _ t | .destroy _ t | .work _ _ t
  | .check t _ => t

structure RtoRun (n : Nat) where
  timers : Timers n
  /-- history: the deadline that `rto_list_add` set last, as a time -/
  deadline : Fin n → Nat := fun _ => 0
  /-- history: when the last call was made -/
  now : Nat := 0

namespace RtoRun

/-- `cur_ts` is what 32 bits keep of the time. -/
def timersCall (s : RtoRun n) : RtoCall n → Timers n
  | .add id t => s.timers.call (.rtoListAdd id (BitVec.ofNat 32 t))
  | .remove id _ => s.timers.call (.rtoListRemove id)
  | .update id t => s.timers.call (.rtoListUpdate id (BitVec.ofNat 32 t))
  | .timewait id t => s.timers.call (.timewaitListAdd id (BitVec.ofNat 32 t))
  | .destroy id _ => s.timers.call (.tcpStreamDestroy id)
  | .work id st _ => s.timers.call (.other id { st with tsRto := (s.timers.streams id).tsRto })
  | .check t room => s.timers.call (.rtoListCheck (BitVec.ofNat 32 t) room)

/-- The deadline that a call sets. -/
def due (s : RtoRun n) (id : Fin n) (t : Nat) : Nat := t + (s.timers.streams id).rto.toNat

/-- The stream that a call links, if it links one. -/
def links (s : RtoRun n) : RtoCall n → Option (Fin n)
  | .add id _ =>
      if (s.timers.streams id).onRto || (s.timers.streams id).onTimewaitList then none else some id
  | .update id _ => if (s.timers.streams id).onTimewaitList then none else some id
  | _ => none

def step (s : RtoRun n) (e : RtoCall n) : RtoRun n :=
  if s.timers.halt.isSome then s
  else
    { timers := s.timersCall e
      deadline :=
        match s.links e with
        | some id => Function.update s.deadline id (s.due id e.time)
        | none => s.deadline
      now := e.time }

/-- The list is in the order of its deadlines. -/
structure InOrder (s : RtoRun n) (l : Linked n) : Prop where
  threaded : s.timers.Threaded l
  stamps : ∀ id ∈ l.rto, (s.timers.streams id).tsRto = BitVec.ofNat 32 (s.deadline id)
  near : ∀ id ∈ l.rto, s.deadline id ≤ s.now + 2 ^ 31
  ordered : Lib.Deadline.Ordered s.deadline l.rto

def Sorted (s : RtoRun n) : Prop := ∃ l, s.InOrder l

/-- A check that handles fewer than `MAX_RTO_BATCH` streams leaves none on the list that was on it
and is due, unless the process ends in it. -/
def Finds (s : RtoRun n) (e : RtoCall n) (s' : RtoRun n) : Prop :=
  ∀ t room, e = .check t room → s.timers.halt = none →
    ∃ ids : List (Fin n), ids.Nodup ∧
      s'.timers = ids.foldl (rtoServe (BitVec.ofNat 32 t) room) s.timers ∧
      (∀ id ∈ ids, (s.timers.streams id).onRto = true ∧
        s.timers.rtoDue (BitVec.ofNat 32 t) id = true) ∧
      (s'.timers.halt = none → ids.length < maxRtoBatch → ∀ id,
        (s.timers.streams id).onRto = true → (s'.timers.streams id).onRto = true →
          s'.timers.rtoDue (BitVec.ofNat 32 t) id = false)

/-- Time does not go back.  A stream is linked with a deadline that is at most 2^31 ahead and not
before one on the list, and a check comes before a deadline has been over for 2^31 milliseconds. -/
def CallOk (s : RtoRun n) (e : RtoCall n) : Prop :=
  s.now ≤ e.time ∧
    (∀ id, s.links e = some id → (s.timers.streams id).rto.toNat ≤ 2 ^ 31 ∧
      ∀ other, other ≠ id → (s.timers.streams other).onRto = true →
        s.deadline other ≤ s.due id e.time) ∧
    ∀ t room, e = .check t room →
      ∀ id, (s.timers.streams id).onRto = true → t < s.deadline id + 2 ^ 31

/-! ## One call -/

section Step

variable {s s' : RtoRun n} {l l' : Linked n}

/-- A call that links nobody. -/
theorem InOrder.keep (inOrder : s.InOrder l) (threaded : s'.timers.Threaded l')
    (part : l'.rto.Sublist l.rto) (later : s.now ≤ s'.now)
    (same : ∀ id ∈ l'.rto, (s'.timers.streams id).tsRto = (s.timers.streams id).tsRto ∧
      s'.deadline id = s.deadline id) : s'.InOrder l' where
  threaded := threaded
  stamps id mem := by
    rw [(same id mem).1, (same id mem).2]
    exact inOrder.stamps id (part.subset mem)
  near id mem := by
    have near := inOrder.near id (part.subset mem)
    rw [(same id mem).2]
    omega
  ordered := (inOrder.ordered.sublist part).congr fun id mem => (same id mem).2

/-- A call that links a stream, with a deadline that is not before those on the list. -/
theorem InOrder.link (inOrder : s.InOrder l) {id : Fin n} {d : Nat}
    (threaded : s'.timers.Threaded l') (listed : l'.rto = l.rto.erase id ++ [id])
    (later : s.now ≤ s'.now) (deadline : s'.deadline = Function.update s.deadline id d)
    (stamp : (s'.timers.streams id).tsRto = BitVec.ofNat 32 d) (near : d ≤ s'.now + 2 ^ 31)
    (others : ∀ other, other ≠ id →
      (s'.timers.streams other).tsRto = (s.timers.streams other).tsRto)
    (last : ∀ other ∈ l.rto.erase id, s.deadline other ≤ d) : s'.InOrder l' := by
  have once := inOrder.threaded.chained.rto_nodup
  have before : ∀ other ∈ l.rto.erase id, other ≠ id ∧ other ∈ l.rto := fun other mem =>
    once.mem_erase_iff.mp mem
  have kept : ∀ other, other ≠ id → s'.deadline other = s.deadline other := fun other away => by
    rw [deadline, Function.update_of_ne away]
  have self : s'.deadline id = d := by rw [deadline, Function.update_self]
  refine ⟨threaded, ?_, ?_, ?_⟩
  · rw [listed]
    intro other mem
    rcases List.mem_append.mp mem with mem | mem
    · obtain ⟨away, mem⟩ := before other mem
      rw [others other away, kept other away]
      exact inOrder.stamps other mem
    · obtain rfl := List.mem_singleton.mp mem
      rw [self, stamp]
  · rw [listed]
    intro other mem
    rcases List.mem_append.mp mem with mem | mem
    · obtain ⟨away, mem⟩ := before other mem
      have near := inOrder.near other mem
      rw [kept other away]
      omega
    · obtain rfl := List.mem_singleton.mp mem
      rw [self]
      exact near
  · rw [listed, deadline]
    exact inOrder.ordered.moveLast once last

/-- A deadline that is stored is `cur_ts` and the value of `rto`. -/
theorem stamp_eq (t : Nat) (rto : U32) :
    BitVec.ofNat 32 t + rto = BitVec.ofNat 32 (t + rto.toNat) := by
  rw [BitVec.ofNat_add, BitVec.ofNat_toNat, BitVec.setWidth_eq]

/-- The deadlines that are on the list are judged as the times they stand for. -/
theorem InOrder.due_iff (inOrder : s.InOrder l) {t : Nat} (later : s.now ≤ t) {id : Fin n}
    (listed : id ∈ l.rto) (seen : t < s.deadline id + 2 ^ 31) :
    s.timers.rtoDue (BitVec.ofNat 32 t) id = decide (s.deadline id + 0 ≤ t) := by
  have near := inOrder.near id listed
  have zero : (0 : U32).toInt = 0 := by decide
  rw [rtoDue, inOrder.stamps id listed, Bool.eq_iff_iff, decide_eq_true_iff,
    Lib.Deadline.passed_iff (by omega) (by omega), zero]
  omega

/-- **A check of an ordered list finds all that is due**, up to its batch. -/
theorem InOrder.check (inOrder : s.InOrder l) (runs : s.timers.halt = none) {t : Nat}
    {room : Fin n → Env} (ok : s.CallOk (.check t room)) :
    (∃ l', (s.step (.check t room)).InOrder l') ∧
      s.Finds (.check t room) (s.step (.check t room)) := by
  obtain ⟨later, -, seen⟩ := ok
  have later : s.now ≤ t := later
  have threaded := inOrder.threaded
  have listed : ∀ id, (s.timers.streams id).onRto = true ↔ id ∈ l.rto := fun id =>
    (threaded.member id).rto
  have once := threaded.chained.rto_nodup
  let ids := s.timers.rtoHandled (BitVec.ofNat 32 t) l.rto
  have step : s.step (.check t room) =
      { timers := s.timersCall (.check t room), deadline := s.deadline, now := t } := by
    unfold RtoRun.step
    rw [runs]
    rfl
  have went : s.timersCall (.check t room) = ids.foldl (rtoServe (BitVec.ofNat 32 t) room) s.timers := by
    have first : s.timers.lists.timer.first .rto = l.rto.head? :=
      (threaded.chained.timer.chain .rto).first_eq
    change Timers.rtoListCheck s.timers _ _ = _
    unfold Timers.rtoListCheck
    rw [first, threaded.rtoScan]
    rfl
  have split : l.rto = ids ++ ((l.rto.takeWhile (s.timers.rtoDue (BitVec.ofNat 32 t))).drop maxRtoBatch ++
      l.rto.dropWhile (s.timers.rtoDue (BitVec.ofNat 32 t))) := by
    rw [← List.append_assoc]
    change _ = List.take _ _ ++ _ ++ _
    rw [List.take_append_drop, List.takeWhile_append_dropWhile]
  obtain ⟨l', threaded', part, ends, kept⟩ := threaded.foldl_rtoServe ids split
  rw [← went] at threaded' ends kept
  rw [step]
  constructor
  · refine ⟨l', inOrder.keep threaded' part later fun id mem => ⟨?_, rfl⟩⟩
    rw [kept id mem]
  · rintro t' room' same -
    obtain ⟨rfl, rfl⟩ : t = t' ∧ room = room' := by
      cases same
      exact ⟨rfl, rfl⟩
    have front : ∀ id ∈ ids, id ∈ l.rto.takeWhile (s.timers.rtoDue (BitVec.ofNat 32 t)) :=
      fun id mem => List.mem_of_mem_take mem
    refine ⟨ids, ?_, went, fun id mem => ?_, fun runs' small id before after => ?_⟩
    · exact (once.sublist (List.takeWhile_sublist _)).sublist (List.take_sublist _ _)
    · exact ⟨(listed id).mpr ((List.takeWhile_sublist _).subset (front id mem)),
        List.mem_takeWhile_imp (front id mem)⟩
    · have stays : id ∈ l'.rto := (threaded'.member id).rto.mp after
      have away : id ∉ ids := fun taken => by
        rw [ends runs'] at stays
        exact List.disjoint_of_nodup_append (split ▸ once) taken stays
      have misses : s.timers.RtoMissesNone (BitVec.ofNat 32 t) l.rto := by
        refine (rtoMisses_iff _ _ once).mpr (.inr ?_)
        refine List.Pairwise.imp_of_mem ?_ inOrder.ordered
        intro a b first second le dueB
        rw [inOrder.due_iff later second (seen t room rfl b ((listed b).mpr second)),
          decide_eq_true_iff] at dueB
        rw [inOrder.due_iff later first (seen t room rfl a ((listed a).mpr first)),
          decide_eq_true_iff]
        omega
      have notDue := misses small id ((listed id).mp before) away
      change (!(_ - ((s.timersCall (.check t room)).streams id).tsRto).slt 0) = false
      rw [kept id stays]
      exact notDue

theorem step_runs (runs : s.timers.halt = none) (e : RtoCall n) :
    s.step e =
      { timers := s.timersCall e
        deadline :=
          match s.links e with
          | some id => Function.update s.deadline id (s.due id e.time)
          | none => s.deadline
        now := e.time } := by
  unfold RtoRun.step
  rw [runs]
  rfl

/-- A call on one stream that takes it off the list, or leaves it where it is. -/
theorem InOrder.off (inOrder : s.InOrder l) (runs : s.timers.halt = none) {e : RtoCall n}
    (later : s.now ≤ e.time) {id : Fin n} {timers : Timers n} (call : s.timersCall e = timers)
    (none : s.links e = none)
    (others : ∀ j, j ≠ id → timers.streams j = s.timers.streams j)
    (threaded : timers.Threaded l') (off : l'.rto = l.rto.erase id) :
    ∃ l', (s.step e).InOrder l' := by
  have once := inOrder.threaded.chained.rto_nodup
  rw [step_runs runs, call, none]
  refine ⟨l', inOrder.keep threaded (off ▸ List.erase_sublist) later fun j mem => ⟨?_, rfl⟩⟩
  rw [off] at mem
  change (timers.streams j).tsRto = _
  rw [others j (once.mem_erase_iff.mp mem).1]

theorem InOrder.add (inOrder : s.InOrder l) (runs : s.timers.halt = none) (id : Fin n) {t : Nat}
    (ok : s.CallOk (.add id t)) : ∃ l', (s.step (.add id t)).InOrder l' := by
  obtain ⟨l', threaded, listed⟩ :=
    inOrder.threaded.rtoListAdd id { curTs := BitVec.ofNat 32 t }
  have member := inOrder.threaded.member
  have later : s.now ≤ t := ok.1
  have stays : ∀ {st : TcpStream}, (st.onRto || st.onTimewaitList) = true →
      st.onRto = true → (Cx.rtoListAdd { curTs := BitVec.ofNat 32 t } { st := st }).st.tsRto =
        st.tsRto := by
    intro st _ on
    unfold Cx.rtoListAdd
    rw [if_pos on]
  rw [step_runs runs]
  cases linked : (s.timers.streams id).onRto || (s.timers.streams id).onTimewaitList with
  | true =>
      rw [linked, if_pos rfl] at listed
      have none : s.links (.add id t) = none := if_pos linked
      rw [none]
      refine ⟨l', inOrder.keep threaded (listed ▸ .refl _) later fun j mem => ⟨?_, rfl⟩⟩
      change ((s.timers.on id _).streams j).tsRto = _
      by_cases here : j = id
      · subst here
        rw [on_self]
        exact stays linked ((member j).rto.mpr (listed ▸ mem))
      · rw [on_other _ _ here]
  | false =>
      rw [linked, if_neg Bool.false_ne_true] at listed
      have links : s.links (.add id t) = some id := if_neg (by rw [linked]; exact Bool.false_ne_true)
      obtain ⟨small, last⟩ := ok.2.1 id links
      obtain ⟨rto, timewait⟩ := Bool.or_eq_false_iff.mp linked
      have away : id ∉ l.rto := fun mem => by
        have on := (member id).rto.mpr mem
        exact Bool.false_ne_true (rto.symm.trans on)
      rw [links]
      refine ⟨l', inOrder.link threaded ?_ later rfl ?_ ?_ (fun other here => ?_) fun other mem => ?_⟩
      · rw [List.erase_of_not_mem away]
        exact listed
      · change ((s.timers.on id _).streams id).tsRto = _
        rw [on_self]
        unfold Cx.rtoListAdd
        rw [if_neg (by rw [rto]; exact Bool.false_ne_true)]
        dsimp only
        rw [if_neg (by change ¬ (s.timers.streams id).onTimewaitList = true; rw [timewait]; exact Bool.false_ne_true)]
        exact stamp_eq t _
      · change t + _ ≤ t + 2 ^ 31
        omega
      · exact congrArg TcpStream.tsRto (on_other _ _ here)
      · have inside := inOrder.threaded.chained.rto_nodup.mem_erase_iff.mp mem
        exact last other inside.1 ((member other).rto.mpr inside.2)

theorem InOrder.update (inOrder : s.InOrder l) (runs : s.timers.halt = none) (id : Fin n) {t : Nat}
    (ok : s.CallOk (.update id t)) : ∃ l', (s.step (.update id t)).InOrder l' := by
  obtain ⟨l', threaded, listed⟩ :=
    inOrder.threaded.rtoListUpdate id { curTs := BitVec.ofNat 32 t }
  have member := inOrder.threaded.member
  have later : s.now ≤ t := ok.1
  cases timewait : (s.timers.streams id).onTimewaitList with
  | true =>
      rw [timewait, if_pos rfl] at listed
      exact inOrder.off runs (e := .update id t) later rfl (if_pos timewait) (fun _ => on_other _ _)
        threaded listed
  | false =>
      rw [timewait, if_neg Bool.false_ne_true] at listed
      have links : s.links (.update id t) = some id :=
        if_neg (by rw [timewait]; exact Bool.false_ne_true)
      obtain ⟨small, last⟩ := ok.2.1 id links
      rw [step_runs runs, links]
      refine ⟨l', inOrder.link threaded listed later rfl ?_ ?_ (fun other here => ?_)
        fun other mem => ?_⟩
      · change ((s.timers.on id _).streams id).tsRto = _
        rw [on_self]
        unfold Cx.rtoListUpdate Cx.rtoListRemove Cx.rtoListAdd
        by_cases on : (s.timers.streams id).onRto = true <;>
          simp [on, timewait, Cx.emit, Cx.modify, stamp_eq, due, RtoCall.time]
      · change t + _ ≤ t + 2 ^ 31
        omega
      · exact congrArg TcpStream.tsRto (on_other _ _ here)
      · have inside := inOrder.threaded.chained.rto_nodup.mem_erase_iff.mp mem
        exact last other inside.1 ((member other).rto.mpr inside.2)

theorem InOrder.work (inOrder : s.InOrder l) (runs : s.timers.halt = none) (id : Fin n)
    (st : TcpStream) {t : Nat} (later : s.now ≤ t) : (s.step (.work id st t)).InOrder l := by
  rw [step_runs runs]
  refine inOrder.keep ⟨inOrder.threaded.chained, fun j => ?_, inOrder.threaded.runs⟩ (.refl _) later
    fun j _ => ⟨?_, rfl⟩
  · have member := inOrder.threaded.member j
    by_cases here : j = id
    · subst here
      simpa [timersCall, call, rest, TcpStream.timerFlags] using member
    · simpa [timersCall, call, Function.update_of_ne here] using member
  · by_cases here : j = id
    · subst here
      simp [timersCall, call, rest]
    · simp [timersCall, call, Function.update_of_ne here]

end Step

/-- **One call keeps the order, and a check finds what it should.** -/
theorem Sorted.step {s : RtoRun n} (sorted : s.Sorted) (e : RtoCall n) (ok : s.CallOk e) :
    (s.step e).Sorted ∧ s.Finds e (s.step e) := by
  obtain ⟨l, inOrder⟩ := sorted
  by_cases runs : s.timers.halt = none
  swap
  · have ended : s.timers.halt.isSome = true := Option.isSome_iff_ne_none.mpr runs
    have same : s.step e = s := if_pos ended
    rw [same]
    exact ⟨⟨l, inOrder⟩, fun _ _ _ still => absurd still runs⟩
  have threaded := inOrder.threaded
  cases e with
  | add id t => exact ⟨inOrder.add runs id ok, fun _ _ other => by cases other⟩
  | update id t => exact ⟨inOrder.update runs id ok, fun _ _ other => by cases other⟩
  | remove id t =>
      obtain ⟨l', threaded', off⟩ := threaded.rtoListRemove id
      exact ⟨inOrder.off runs ok.1 rfl rfl (fun _ => on_other _ _) threaded' off,
        fun _ _ other => by cases other⟩
  | timewait id t =>
      obtain ⟨l', threaded', off⟩ :=
        threaded.timewaitListAdd_rto id { curTs := BitVec.ofNat 32 t }
      exact ⟨inOrder.off runs ok.1 rfl rfl (fun _ => on_other _ _) threaded' off,
        fun _ _ other => by cases other⟩
  | destroy id t =>
      have threaded' : (s.timers.tcpStreamDestroy id).Threaded _ := threaded.tcpStreamDestroy
      exact ⟨inOrder.off runs ok.1 rfl rfl (fun _ => on_other _ _) threaded' rfl,
        fun _ _ other => by cases other⟩
  | work id st t => exact ⟨⟨l, inOrder.work runs id st ok.1⟩, fun _ _ other => by cases other⟩
  | check t room => exact inOrder.check runs ok

def Start (s : RtoRun n) : Prop := ∃ l, s.timers.Threaded l ∧ l.rto = []

/-- **rto_list.**  Over every sequence of calls in which no stream is linked with a deadline before
one that is on the list, no check that handles fewer than `MAX_RTO_BATCH` streams leaves one that
is due. -/
theorem rto_law (es : List (RtoCall n)) (s : RtoRun n) (start : s.Start)
    (allowed : Lib.Run.Allowed step CallOk s es) : Lib.Run.Each step Finds s es := by
  have sorted : s.Sorted := by
    obtain ⟨l, threaded, empty⟩ := start
    refine ⟨l, threaded, ?_, ?_, ?_⟩ <;> rw [empty]
    · exact fun _ mem => absurd mem List.not_mem_nil
    · exact fun _ mem => absurd mem List.not_mem_nil
    · exact .nil _
  exact Lib.Run.each_of_step (fun _ e sorted ok => sorted.step e ok) es s sorted allowed

theorem init_start (n : Nat) : ({ timers := Timers.init n } : RtoRun n).Start := by
  obtain ⟨l, threaded⟩ := init_sound n
  refine ⟨l, threaded, List.eq_nil_iff_forall_not_mem.mpr fun id mem => ?_⟩
  exact Bool.false_ne_true ((threaded.member id).rto.mpr mem)

/-- One stream, and the check at its deadline. -/
theorem rto_law_one :
    Lib.Run.Each step Finds ({ timers := Timers.init 1 } : RtoRun 1)
      [.work 0 { rto := 500 } 7, .add 0 7, .check 507 fun _ => {}] := by
  refine rto_law [.work 0 { rto := 500 } 7, .add 0 7, .check 507 fun _ => {}] _ (init_start 1)
    ⟨⟨by decide, ?_, ?_⟩, ⟨by decide, ?_, ?_⟩, ⟨by decide, ?_, ?_⟩, trivial⟩
  · intro id links
    cases links
  · intro t room other
    cases other
  · intro id links
    obtain rfl : id = 0 := Subsingleton.elim _ _
    exact ⟨by decide, fun other away => absurd (Subsingleton.elim other 0) away⟩
  · intro t room other
    cases other
  · intro id links
    cases links
  · intro t room same id _
    obtain rfl : 507 = t := by cases same; rfl
    obtain rfl : id = 0 := Subsingleton.elim _ _
    decide

/-- A stream that has lost a packet is linked with 1000 ms, and another with 500 ms behind it.  The
check at 600 handles nobody and leaves the second, which is due. -/
theorem behind_unexpired :
    ¬ Lib.Run.Each step Finds ({ timers := Timers.init 2 } : RtoRun 2)
      [.work 0 { rto := 1000, nrtx := 1 } 0, .work 1 { rto := 500 } 0, .add 0 0, .add 1 0,
        .check 600 fun _ => {}] := by
  intro each
  obtain ⟨ids, once, -, -, finds⟩ := each.2.2.2.2.1 600 _ rfl (by decide)
  have few : ids.length < maxRtoBatch := by
    have := once.length_le_card
    rw [Fintype.card_fin] at this
    unfold maxRtoBatch
    omega
  have found := finds (by decide) few 1 (by decide) (by decide)
  revert found
  decide

end RtoRun

end Timers

end QStack
