/-
# QStack.IdleList -- what the events of a stack make of timeout_list

`timeout_list_check` walks `timeout_list` from the front and destroys streams as far as they are
idle (`timeoutScan`).  Every other event keeps the list in agreement with the flags of the streams
(`Listed`), and concerns one stream of it: `Turn` is what it makes of its place and its stamp.
-/
import QStack.Activity

namespace QStack

set_option autoImplicit false

/-! ## The check -/

namespace Stack

/-- A round of `timeout_list_check`, on a stream that is idle. -/
def destroyIdle (s : Stack) (id : Nat) : Stack := s.run id 0 Cx.timeoutListCheck

/-- The walk of `timeout_list_check`; the walk over the pointers is in `QStack.TimerLists`. -/
def timeoutLoop (curTs : U32) : List Nat → Stack → Stack
  | [], s => s
  | walk :: next, s =>
      if (curTs - (s.streams walk).lastActiveTs).slt Timers.tcpTimeout then s
      else timeoutLoop curTs next (s.destroyIdle walk)

def timeoutListCheck (curTs : U32) (s : Stack) : Stack :=
  if s.halted then s else timeoutLoop curTs (s.on .timeoutList) s

section Check

variable {s : Stack}

theorem run_other (s : Stack) {id j : Nat} (avail : Nat) (f : Cx → Cx) (other : j ≠ id) :
    (s.run id avail f).streams j = s.streams j := by
  unfold run
  dsimp only
  split
  · rfl
  split
  · unfold tcpStreamDestroy
    dsimp only
    rw [Function.update_of_ne other, Function.update_of_ne other]
  · exact Function.update_of_ne other _ _

/-- The check destroys the front of the list, as far as it is idle. -/
theorem timeoutScan (curTs : U32) : ∀ (xs : List Nat) (s : Stack), xs.Nodup →
    timeoutLoop curTs xs s =
      (xs.takeWhile fun id =>
        !(curTs - (s.streams id).lastActiveTs).slt Timers.tcpTimeout).foldl destroyIdle s := by
  intro xs
  induction xs with
  | nil => exact fun _ _ => rfl
  | cons walk next ih =>
      intro s once
      obtain ⟨fresh, once⟩ := List.nodup_cons.mp once
      rw [timeoutLoop, List.takeWhile_cons]
      cases young : (curTs - (s.streams walk).lastActiveTs).slt Timers.tcpTimeout with
      | true => rfl
      | false =>
          have same : next.takeWhile (fun id => !(curTs -
              ((s.destroyIdle walk).streams id).lastActiveTs).slt Timers.tcpTimeout) =
              next.takeWhile fun id =>
                !(curTs - (s.streams id).lastActiveTs).slt Timers.tcpTimeout := by
            refine Lib.Deadline.takeWhile_congr fun id mem => ?_
            have other : id ≠ walk := fun same => fresh (same ▸ mem)
            rw [destroyIdle, run_other s 0 _ other]
          rw [if_neg Bool.false_ne_true, ih _ once, same]
          rfl

end Check

/-! ## The list and the flags -/

/-- `timeout_list` holds the streams whose flag is set, once, and none that is destroyed. -/
structure Listed (s : Stack) : Prop where
  member : ∀ id, (s.streams id).onTimeoutList = true ↔ id ∈ s.on .timeoutList
  once : (s.on .timeoutList).Nodup
  dead : ∀ id, s.allocated id = false → id ∉ s.on .timeoutList
  table : ∀ flow id, Flows.streamHTSearch s.streamHt flow = some id →
    s.allocated id = true ∧ s.flow id = flow

/-- What a step makes of the list and the stamp of its stream `id`; `refused` is when it may stamp
the stream without moving it. -/
inductive Turn (curTs : U32) (refused : Prop) (id : Nat) (s s' : Stack) : Prop
  | kept (place : s'.on .timeoutList = s.on .timeoutList)
      (stamp : id ∈ s.on .timeoutList →
        (s'.streams id).lastActiveTs = (s.streams id).lastActiveTs)
  | moved (place : s'.on .timeoutList = (s.on .timeoutList).erase id ++ [id])
      (stamp : (s'.streams id).lastActiveTs = curTs)
  | gone (place : s'.on .timeoutList = (s.on .timeoutList).erase id)
  | stamped (why : refused) (place : s'.on .timeoutList = s.on .timeoutList)
      (stamp : (s'.streams id).lastActiveTs = curTs)

section Turns

variable {s : Stack} {curTs : U32} {refused : Prop} {id avail : Nat} {f : Cx → Cx}

theorem Listed.lists (listed : s.Listed) (id avail : Nat) :
    Cx.Lists id (s.on .timeoutList) (s.entry id avail) :=
  ⟨listed.member id, listed.once⟩

/-- How a function of stream `id` leaves flag, place and stamp of the stream. -/
inductive Leaves (curTs : U32) (refused : Prop) (id : Nat) (s : Stack) (c : Cx) : Prop
  | kept (flag : c.st.onTimeoutList = (s.streams id).onTimeoutList)
      (place : c.listing id (s.on .timeoutList) = s.on .timeoutList)
      (stamp : id ∈ s.on .timeoutList →
        c.st.lastActiveTs = (s.streams id).lastActiveTs)
  | moved (live : s.allocated id = true) (flag : c.st.onTimeoutList = true)
      (place : c.listing id (s.on .timeoutList) = (s.on .timeoutList).erase id ++ [id])
      (stamp : c.st.lastActiveTs = curTs)
  | gone (flag : c.st.onTimeoutList = false)
      (place : c.listing id (s.on .timeoutList) = (s.on .timeoutList).erase id)
  | stamped (why : refused) (on : id ∈ s.on .timeoutList) (flag : c.st.onTimeoutList = true)
      (place : c.listing id (s.on .timeoutList) = s.on .timeoutList)
      (stamp : c.st.lastActiveTs = curTs)

/-- The stream is what the function left, and the lists follow its effects. -/
theorem Listed.perform (listed : s.Listed) {c : Cx} (leaves : Leaves curTs refused id s c) :
    Listed { s with
      streams := Function.update s.streams id c.st
      mem := c.mem
      on := c.out.foldr (Containers.perform id) s.on } := by
  have place : c.out.foldr (Containers.perform id) s.on .timeoutList =
      c.listing id (s.on .timeoutList) := Containers.replay_timeout s.on id c.out
  have stays : ∀ j, j ≠ id → (j ∈ c.listing id (s.on .timeoutList) ↔ j ∈ s.on .timeoutList) := by
    intro j other
    cases leaves with
    | kept _ place | stamped _ _ _ place => rw [place]
    | moved _ _ place =>
        rw [place]
        exact Lib.Deadline.mem_moveLast other
    | gone _ place => rw [place, List.mem_erase_of_ne other]
  refine ⟨fun j => ?_, ?_, fun j dead => ?_, listed.table⟩
  · dsimp only
    rw [place]
    by_cases same : j = id
    · subst same
      rw [Function.update_self]
      cases leaves with
      | kept flag place => rw [flag, place, listed.member]
      | moved _ flag place => exact iff_of_true flag (by rw [place]; simp)
      | gone flag place =>
          rw [flag, place]
          exact iff_of_false Bool.false_ne_true listed.once.not_mem_erase
      | stamped _ on flag place => exact iff_of_true flag (by rw [place]; exact on)
    · rw [Function.update_of_ne same, listed.member, stays j same]
  · dsimp only
    rw [place]
    cases leaves with
    | kept _ place | stamped _ _ _ place => rw [place]; exact listed.once
    | moved _ _ place => rw [place]; exact Lib.Deadline.nodup_moveLast listed.once
    | gone _ place => rw [place]; exact listed.once.erase id
  · dsimp only at dead ⊢
    rw [place]
    by_cases same : j = id
    · subst same
      cases leaves with
      | kept _ place | stamped _ _ _ place => rw [place]; exact listed.dead j dead
      | moved live =>
          rw [live] at dead
          cases dead
      | gone _ place => rw [place]; exact listed.once.not_mem_erase
    · rw [stays j same]
      exact listed.dead j dead

/-- `tcp_stream_destroy` takes the stream off the list. -/
theorem Listed.destroy (listed : s.Listed) (id : Nat) :
    (s.tcpStreamDestroy id).Listed ∧
      (s.tcpStreamDestroy id).on .timeoutList = (s.on .timeoutList).erase id := by
  have flag : (Cx.unlinkTimers { st := s.streams id }).st.onTimeoutList = false :=
    congrArg TimerFlags.timeout (unlinkTimers_done { st := s.streams id }).1
  have place : (s.tcpStreamDestroy id).on .timeoutList = (s.on .timeoutList).erase id := by
    refine (Containers.replay_timeout s.on id _).trans ?_
    have away : ¬ (s.streams id).onTimeoutList = true →
        s.on .timeoutList = (s.on .timeoutList).erase id := fun off =>
      (List.erase_of_not_mem fun on => off ((listed.member id).mpr on)).symm
    unfold Cx.unlinkTimers Cx.rtoListRemove Cx.timewaitListRemove Cx.timeoutListRemove
    split_ifs <;> first | rfl | exact away ‹_›
  refine ⟨⟨fun j => ?_, ?_, fun j dead => ?_, fun flow j found => ?_⟩, place⟩
  · rw [place]
    unfold tcpStreamDestroy
    dsimp only
    by_cases same : j = id
    · subst same
      rw [Function.update_self, flag]
      exact iff_of_false Bool.false_ne_true listed.once.not_mem_erase
    · rw [Function.update_of_ne same, List.mem_erase_of_ne same, listed.member]
  · rw [place]
    exact listed.once.erase id
  · rw [place]
    by_cases same : j = id
    · rw [same]
      exact listed.once.not_mem_erase
    · change Function.update s.allocated id false j = false at dead
      rw [Function.update_of_ne same] at dead
      exact fun within => listed.dead j dead (List.mem_of_mem_erase within)
  · obtain ⟨other, before⟩ := search_delete found
    obtain ⟨live, flows⟩ := listed.table flow j before
    have same : j ≠ id := fun same => other (by rw [← flows, same])
    exact ⟨(Function.update_of_ne same _ _).trans live, flows⟩

/-- **A function of one stream.** -/
theorem Listed.run (listed : s.Listed)
    (leaves : (f (s.entry id avail)).halted = true ∨
      Leaves curTs refused id s (f (s.entry id avail))) :
    (s.run id avail f).Listed ∧ Turn curTs refused id s (s.run id avail f) := by
  unfold Stack.run
  dsimp only
  generalize f (s.entry id avail) = c at leaves ⊢
  split
  · exact ⟨⟨listed.member, listed.once, listed.dead, listed.table⟩, .kept rfl fun _ => rfl⟩
  rename_i runs
  replace leaves := leaves.resolve_left runs
  have performed := listed.perform leaves
  have place : c.out.foldr (Containers.perform id) s.on .timeoutList =
      c.listing id (s.on .timeoutList) := Containers.replay_timeout s.on id c.out
  have now : (Function.update s.streams id c.st id).lastActiveTs = c.st.lastActiveTs := by
    rw [Function.update_self]
  split
  · obtain ⟨destroyed, erased⟩ := performed.destroy id
    refine ⟨destroyed, .gone (erased.trans ?_)⟩
    dsimp only
    rw [place]
    cases leaves with
    | kept _ place | stamped _ _ _ place => rw [place]
    | moved _ _ place => rw [place, Lib.Deadline.erase_moveLast listed.once]
    | gone _ place => rw [place, List.erase_of_not_mem listed.once.not_mem_erase]
  · refine ⟨performed, ?_⟩
    cases leaves with
    | kept _ place' stamp => exact .kept (place.trans place') fun on => now.trans (stamp on)
    | moved _ _ place' stamp => exact .moved (place.trans place') (now.trans stamp)
    | gone _ place' => exact .gone (place.trans place')
    | stamped why _ _ place' stamp => exact .stamped why (place.trans place') (now.trans stamp)

end Turns

/-! ## One event -/

/-- The stream that a segment finds on the list, while the sequence check refuses the segment. -/
def refused (s : Stack) (e : StackEvent) : Option Nat :=
  match e with
  | .packet flow _ _ seg _ =>
      (Flows.streamHTSearch s.streamHt flow).filter fun id =>
        (s.streams id).rejects seg && (s.streams id).onTimeoutList
  | _ => none

end Stack

namespace StackEvent

/-- The event at a time. -/
def timed (curTs : U32) : StackEvent → StackEvent
  | .packet flow env avail seg birth => .packet flow { env with curTs := curTs } avail seg birth
  | .connectCall flow env birth => .connectCall flow { env with curTs := curTs } birth
  | .accept id => .accept id
  | .send id env m len highPri => .send id { env with curTs := curTs } m len highPri
  | .recv id => .recv id
  | .close id room => .close id room
  | .handleClose id env => .handleClose id { env with curTs := curTs }
  | .serveControl id env avail => .serveControl id { env with curTs := curTs } avail
  | .serveSend id high env => .serveSend id high { env with curTs := curTs }
  | .serveAck id env avail => .serveAck id { env with curTs := curTs } avail
  | .rto id env => .rto id { env with curTs := curTs }
  | .timewait id _ => .timewait id curTs
  | .timeout id _ => .timeout id curTs

/-- A stream that `timeout_list_check` finds idle. -/
def isTimeout : StackEvent → Bool
  | .timeout .. => true
  | _ => false

end StackEvent

namespace Stack

section Event

variable {s : Stack} {env : Env} {curTs : U32} {refused : Prop} {id avail : Nat} {c : Cx}

theorem Turn.base {s₁ s' : Stack} (turn : Turn curTs refused id s₁ s')
    (place : s₁.on .timeoutList = s.on .timeoutList)
    (stamp : id ∈ s.on .timeoutList →
      (s₁.streams id).lastActiveTs = (s.streams id).lastActiveTs) :
    Turn curTs refused id s s' := by
  cases turn with
  | kept place' stamp' =>
      exact .kept (place'.trans place) fun on => (stamp' (place ▸ on)).trans (stamp on)
  | moved place' stamp' => exact .moved (place ▸ place') stamp'
  | gone place' => exact .gone (place ▸ place')
  | stamped why place' stamp' => exact .stamped why (place'.trans place) stamp'

theorem Listed.live (listed : s.Listed) (on : (s.streams id).onTimeoutList = true) :
    s.allocated id = true := by
  by_contra dead
  exact listed.dead id (Bool.not_eq_true _ ▸ dead) ((listed.member id).mp on)

/-- A function that neither opens a connection nor handles a segment. -/
theorem Listed.stirs (listed : s.Listed)
    (stirs : Cx.Stirs env false id (s.on .timeoutList) (s.entry id avail) c) :
    Leaves env.curTs refused id s c := by
  cases stirs with
  | still flag place stamp => exact .kept flag place fun on => stamp ((listed.member id).mpr on)
  | moved on flag place stamp =>
      exact .moved (listed.live (on.resolve_left Bool.false_ne_true)) flag place stamp
  | stamped handler => cases handler

theorem Listed.settles (listed : s.Listed) (live : s.allocated id = true)
    (settles : Cx.Settles env id (s.on .timeoutList) (s.entry id avail) c) :
    Leaves env.curTs refused id s c := by
  cases settles with
  | off before flag place =>
      refine .kept (flag.trans before.symm) place fun on => ?_
      have flagged : (s.entry id avail).st.onTimeoutList = true := (listed.member id).mpr on
      rw [before] at flagged
      cases flagged
  | moved flag place stamp => exact .moved live flag place stamp

theorem Listed.walks (listed : s.Listed) (env : Env) {f : Cx → Cx}
    (walk : Cx.Walk env .sparing (s.entry id avail) (f (s.entry id avail))) :
    (s.run id avail f).Listed ∧ Turn env.curTs refused id s (s.run id avail f) :=
  listed.run (.inr (listed.stirs (walk.stirs (listed.lists id avail))))

/-- A stream is taken out of a queue. -/
theorem Listed.dequeued (listed : s.Listed) (e : StackEvent) :
    Listed { s with on := s.dequeued e } ∧ s.dequeued e .timeoutList = s.on .timeoutList := by
  have place : s.dequeued e .timeoutList = s.on .timeoutList := by
    rcases dequeued_cases s e with same | ⟨q, id, queue, erased⟩
    · rw [same]
    · rw [erased, Function.update_of_ne]
      rintro rfl
      cases queue
  refine ⟨⟨fun id => ?_, ?_, fun id dead => ?_, listed.table⟩, place⟩
  · dsimp only
    rw [place]
    exact listed.member id
  · dsimp only
    rw [place]
    exact listed.once
  · dsimp only
    rw [place]
    exact listed.dead id dead

/-- `tcp_stream_create` in a chunk that is free. -/
theorem Listed.create (listed : s.Listed) (flow : Flow) (birth : Birth) (seq : Seq)
    (free : s.allocated birth.chunk = false) : (s.tcpStreamCreate flow birth seq).Listed := by
  have away := listed.dead birth.chunk free
  refine ⟨fun id => ?_, listed.once, fun id dead => ?_, fun flow' id found => ?_⟩
  · change (Function.update s.streams birth.chunk _ id).onTimeoutList = true ↔ _
    by_cases same : id = birth.chunk
    · subst same
      rw [Function.update_self]
      exact iff_of_false Bool.false_ne_true away
    · rw [Function.update_of_ne same]
      exact listed.member id
  · change Function.update s.allocated birth.chunk true id = false at dead
    by_cases same : id = birth.chunk
    · rw [same, Function.update_self] at dead
      cases dead
    · rw [Function.update_of_ne same] at dead
      exact listed.dead id dead
  · change Function.update s.allocated birth.chunk true id = true ∧
      Function.update s.flow birth.chunk flow id = flow'
    rcases search_insert found with ⟨rfl, rfl⟩ | before
    · exact ⟨Function.update_self _ _ _, Function.update_self _ _ _⟩
    · obtain ⟨live, flows⟩ := listed.table flow' id before
      have other : id ≠ birth.chunk := by
        rintro rfl
        rw [free] at live
        cases live
      exact ⟨(Function.update_of_ne other _ _).trans live,
        (Function.update_of_ne other _ _).trans flows⟩

/-- What an event makes of the list. -/
def Turns (curTs : U32) (e : StackEvent) (s s' : Stack) : Prop :=
  s'.Listed ∧ ∃ id, (∀ j, j ≠ id → s'.streams j = s.streams j) ∧
    Turn curTs (s.refused e = some id) id s s'

theorem Listed.turns (listed : s.Listed) (curTs : U32) (e : StackEvent) : Turns curTs e s s :=
  ⟨listed, 0, fun _ _ => rfl, .kept rfl fun _ => rfl⟩

/-- The event yields a stream. -/
theorem Listed.serve (listed : s.Listed) {e : StackEvent} (yields : s.yields (e.timed curTs) = some id)
    (other : e.isTimeout = false) :
    Turns curTs e s (Stack.serve { s with on := s.dequeued (e.timed curTs) } id (e.timed curTs)) := by
  obtain ⟨base, place⟩ := listed.dequeued (e.timed curTs)
  generalize dequeued : { s with on := s.dequeued (e.timed curTs) } = s₁ at base
  have same : s₁.streams = s.streams ∧ s₁.on .timeoutList = s.on .timeoutList ∧
      s₁.allocated = s.allocated := by
    rw [← dequeued]
    exact ⟨rfl, place, rfl⟩
  have ran : ∀ {avail : Nat} {f : Cx → Cx}, (s₁.run id avail f).Listed ∧
      Turn curTs (s.refused e = some id) id s₁ (s₁.run id avail f) →
      Turns curTs e s (s₁.run id avail f) := by
    rintro avail f ⟨listed', turn⟩
    refine ⟨listed', id, fun j other => ?_, turn.base same.2.1 fun _ => by rw [same.1]⟩
    rw [run_other s₁ avail f other, same.1]
  have walks : ∀ (env : Env) {avail : Nat} {f : Cx → Cx}, env.curTs = curTs →
      Cx.Walk env .sparing (s₁.entry id avail) (f (s₁.entry id avail)) →
      Turns curTs e s (s₁.run id avail f) := by
    rintro env avail f rfl walk
    exact ran (base.walks env walk)
  have stirs : ∀ (env : Env) {avail : Nat} {f : Cx → Cx}, env.curTs = curTs →
      Cx.Stirs env false id (s₁.on .timeoutList) (s₁.entry id avail) (f (s₁.entry id avail)) →
      Turns curTs e s (s₁.run id avail f) := by
    rintro env avail f rfl stirs
    exact ran (base.run (.inr (base.stirs stirs)))
  cases e with
  | packet flow env avail seg birth =>
      have live : s₁.allocated id = true := by
        rw [same.2.2]
        exact (listed.table flow id yields).1
      refine ran (@Listed.run _ curTs _ id avail _ base ?_)
      rcases Cx.processSegment_stirs { env with curTs := curTs } seg (base.lists id avail) rfl
        with halted | settles | ⟨rejects, on, flag, place, stamp⟩
      · exact .inl halted
      · exact .inr (base.settles live settles)
      · refine .inr (.stamped ?_ ((base.member id).mp on) flag place stamp)
        have rejects' : (s.streams id).rejects seg = true := same.1 ▸ rejects
        have on' : (s.streams id).onTimeoutList = true := same.1 ▸ on
        have found : Flows.streamHTSearch s.streamHt flow = some id := yields
        simp [Stack.refused, found, rejects', on']
  | handleClose id' env => exact stirs _ rfl (Cx.handleCloseCall_stirs _ (base.lists id 0))
  | serveControl id' env avail => exact walks _ rfl (Cx.writeTcpControlQueue_walks .sparing _ _)
  | serveSend id' high env => exact walks _ rfl (Cx.writeTcpSendQueue_walks .sparing _ _)
  | serveAck id' env avail => exact walks _ rfl (Cx.writeTcpAckQueue_walks .sparing _ _)
  | rto id' env => exact stirs _ rfl (Cx.rtoListCheck_stirs _ (base.lists id 0))
  | timewait id' _ => exact stirs { curTs := curTs } rfl (Cx.timewaitListCheck_stirs _ _)
  | timeout => cases other
  | accept =>
      change Turns curTs _ s s₁
      exact ⟨base, 0, fun _ _ => by rw [same.1], (Turn.kept rfl fun _ => rfl).base same.2.1 fun _ => by
        rw [same.1]⟩
  | connectCall | send | recv | close => cases yields

/-- The event finds no stream. -/
theorem Listed.other (listed : s.Listed) (curTs : U32) (e : StackEvent) :
    Turns curTs e s (s.other (e.timed curTs)) := by
  have ran : ∀ {id avail : Nat} {f : Cx → Cx}, (s.run id avail f).Listed ∧
      Turn curTs (s.refused e = some id) id s (s.run id avail f) →
      Turns curTs e s (s.run id avail f) :=
    fun run => ⟨run.1, _, fun _ other => run_other s _ _ other, run.2⟩
  -- a new stream is not on the list, so its stamp is of no interest
  have opened : ∀ {flow : Flow} {birth : Birth} {seq : Seq} {avail : Nat} {f : Cx → Cx},
      s.allocated birth.chunk = false →
      (Stack.run (s.tcpStreamCreate flow birth seq) birth.chunk avail f).Listed ∧
        Turn curTs (s.refused e = some birth.chunk) birth.chunk (s.tcpStreamCreate flow birth seq)
          (Stack.run (s.tcpStreamCreate flow birth seq) birth.chunk avail f) →
      Turns curTs e s (Stack.run (s.tcpStreamCreate flow birth seq) birth.chunk avail f) := by
    intro flow birth seq avail f free run
    refine ⟨run.1, birth.chunk, fun j other => ?_, run.2.base rfl fun on =>
      absurd on (listed.dead birth.chunk free)⟩
    rw [run_other _ _ _ other]
    exact Function.update_of_ne other _ _
  unfold Stack.other
  cases e with
  | packet flow env avail seg birth =>
      dsimp only [StackEvent.timed]
      split
      · rename_i opens
        have created := listed.create flow birth seg.seq opens.2.2
        have lists := created.lists birth.chunk avail
        have off : ((s.tcpStreamCreate flow birth seg.seq).entry birth.chunk avail).st.onTimeoutList =
            false := by
          change (Function.update s.streams birth.chunk _ birth.chunk).onTimeoutList = false
          rw [Function.update_self]
          rfl
        exact opened opens.2.2 (created.run (.inr (created.settles (Function.update_self _ _ _)
          (Cx.passiveOpen_settles { env with curTs := curTs } seg off lists))))
      · exact listed.turns curTs _
  | connectCall flow env birth =>
      dsimp only [StackEvent.timed]
      split
      · rename_i free
        exact opened free ((listed.create flow birth 0 free).walks
          { env with curTs := curTs } (Cx.handleConnectCall_walks .sparing _ _))
      · exact listed.turns curTs _
  | send id env m len highPri =>
      dsimp only [StackEvent.timed]
      split
      · exact ran (listed.walks { env with curTs := curTs }
          (Cx.qTcpSend_walks .sparing _ _ m len highPri))
      · exact listed.turns curTs _
  | recv id =>
      dsimp only [StackEvent.timed]
      split
      · exact ran (listed.walks { curTs := curTs } (Cx.qRecv_walks .sparing _ _))
      · exact listed.turns curTs _
  | close id room =>
      dsimp only [StackEvent.timed]
      split
      · have base : ∀ s₁ : Stack, s₁.streams = s.streams → s₁.on .timeoutList = s.on .timeoutList →
            s₁.Listed → Turns curTs (.close id room) s (s₁.run id 0 fun c => c.tcpStreamClose.2) := by
          intro s₁ streams place listed₁
          have run := @Listed.walks s₁ (s.refused (.close id room) = some id) id 0 listed₁
            { curTs := curTs } (fun c => c.tcpStreamClose.2) (Cx.tcpStreamClose_walks .sparing _ _)
          refine ⟨run.1, id, fun j other => ?_, run.2.base place fun _ => by rw [streams]⟩
          rw [run_other s₁ 0 _ other, streams]
        split
        · exact base (s.enqueue .closeQueue id) rfl rfl
            ⟨listed.member, listed.once, listed.dead, listed.table⟩
        · exact base s rfl rfl listed
      · exact listed.turns curTs _
  | accept | handleClose | serveControl | serveSend | serveAck | rto | timewait | timeout =>
      exact listed.turns curTs _

theorem Listed.step (listed : s.Listed) (curTs : U32) {e : StackEvent}
    (other : e.isTimeout = false) : Turns curTs e s (s.step (e.timed curTs)) := by
  unfold Stack.step
  split
  · exact listed.turns curTs e
  cases yields : s.yields (e.timed curTs) with
  | none => exact listed.other curTs e
  | some id => exact listed.serve yields other

end Event

/-! ## The check destroys -/

section Check

variable {s : Stack} {rest : List Nat}

theorem Listed.destroyIdle (listed : s.Listed) (id : Nat) :
    (s.destroyIdle id).Listed ∧
      (s.destroyIdle id).on .timeoutList = (s.on .timeoutList).erase id := by
  have unlinked : Leaves 0 False id s (s.entry id 0).timeoutListCheck := .gone rfl rfl
  obtain ⟨destroyed, erased⟩ := (listed.perform unlinked).destroy id
  refine ⟨destroyed, erased.trans ?_⟩
  dsimp only
  rw [Containers.replay_timeout]
  exact List.erase_of_not_mem listed.once.not_mem_erase

theorem destroyIdle_allocated (s : Stack) (id : Nat) :
    (s.destroyIdle id).allocated = Function.update s.allocated id false := rfl

theorem Listed.foldl_destroyIdle : ∀ (ids : List Nat) {s : Stack}, s.Listed →
    s.on .timeoutList = ids ++ rest →
    (ids.foldl Stack.destroyIdle s).Listed ∧
      (ids.foldl Stack.destroyIdle s).on .timeoutList = rest ∧
      (∀ id ∈ ids, (ids.foldl Stack.destroyIdle s).allocated id = false) ∧
      ∀ id, id ∉ ids →
        (ids.foldl Stack.destroyIdle s).streams id = s.streams id ∧
          (ids.foldl Stack.destroyIdle s).allocated id = s.allocated id := by
  intro ids
  induction ids with
  | nil => exact fun listed split => ⟨listed, split, nofun, fun _ _ => ⟨rfl, rfl⟩⟩
  | cons walk ids ih =>
      intro s listed split
      obtain ⟨listed', place⟩ := listed.destroyIdle walk
      rw [split, List.cons_append, List.erase_cons_head] at place
      obtain ⟨last, place', dead, others⟩ := ih listed' place
      refine ⟨last, place', fun id mem => ?_, fun id away => ?_⟩
      · by_cases later : id ∈ ids
        · exact dead id later
        · rw [List.foldl_cons, (others id later).2, destroyIdle_allocated,
            (List.mem_cons.mp mem).resolve_right later, Function.update_self]
      · rw [List.mem_cons, not_or] at away
        rw [List.foldl_cons, (others id away.2).1, (others id away.2).2, destroyIdle_allocated,
          Function.update_of_ne away.1]
        exact ⟨run_other s 0 _ away.1, rfl⟩

end Check

end Stack

end QStack
