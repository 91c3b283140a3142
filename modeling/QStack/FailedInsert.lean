/-
# QStack.FailedInsert -- what a refused event leaves behind

`AddTimeEvent` looks whether the queue is full after everything else: by then `q_distribute_event`
has entered the destination of the socket in `reg`, and the mask `qepoll` of the socket is the type
of the event.  A call that returns -1 has no effect only if it repeats what was there
(`insert_law`).  The mask is the one that `qepoll_qevent` tests, so a refused event of another type
makes the application drop an event that was queued before (`refused_drops_queued`).
-/
import QStack.Channels

namespace QStack

set_option autoImplicit false

open AppRings

namespace Channels

variable {s : Channels}

/-- Nothing is left of a call that fails. -/
def FailsCleanly (s : Channels) (call : TimeEventCall) : Prop :=
  ∀ ret s', s.addTimeEvent call = .ok (ret, s') → ret ≠ 0 →
    s'.qepoll = s.qepoll ∧ s'.qevents = s.qevents ∧ s'.reg = s.reg ∧ s'.queued = s.queued

/-- The event gets as far as a queue, and that queue is full. -/
def RingFull (s : Channels) (call : TimeEventCall) : Prop :=
  ∃ qid i reg, s.route call = .ok (qid, i, reg) ∧
    s.cap i call.pri ≤ (s.queued i call.pri).length

/-- The destination of the socket stays as it is: the application raises the event itself, the
socket has an event under way, or it is entered with this destination. -/
def KeepsDestination (s : Channels) (call : TimeEventCall) : Prop :=
  call.dire = .appToQe ∨ (call.nature ≠ .accept ∧ (s.reg call.sockid).proc = true) ∨
    s.reg call.sockid = { proc := true, prCore := call.apid.toNat }

/-- The event is of the type that the mask has, and nothing is new about its destination. -/
def Repeats (s : Channels) (call : TimeEventCall) : Prop :=
  s.qepoll call.sockid = call.event ∧
    s.qevents call.sockid ||| call.event = s.qevents call.sockid ∧ s.KeepsDestination call

theorem qDistributeEvent_reg {call : TimeEventCall} {qid : Nat} {reg : Nat → QeventReg}
    (distributed : s.qDistributeEvent call = .ok (qid, reg)) :
    reg = s.reg ↔ (call.nature ≠ .accept ∧ (s.reg call.sockid).proc = true) ∨
      s.reg call.sockid = { proc := true, prCore := call.apid.toNat } := by
  unfold qDistributeEvent at distributed
  dsimp only at distributed
  split at distributed
  · rename_i kept
    split at distributed
    · obtain ⟨-, rfl⟩ := Prod.ext_iff.mp (Except.ok.inj distributed)
      exact iff_of_true rfl (.inl kept)
    · cases distributed
  · rename_i fresh_
    obtain ⟨-, rfl⟩ := Prod.ext_iff.mp (Except.ok.inj distributed)
    rw [or_iff_right fresh_, Function.update_eq_self_iff]
    exact eq_comm

/-- The table after a route. -/
theorem route_reg {call : TimeEventCall} {qid i : Nat} {reg : Nat → QeventReg}
    (routed : s.route call = .ok (qid, i, reg)) : reg = s.reg ↔ s.KeepsDestination call := by
  unfold route at routed
  unfold KeepsDestination
  cases dire : call.dire with
  | stackToQe =>
      rw [dire] at routed
      obtain ⟨⟨dst, table⟩, distributed, rest⟩ := bind_ok routed
      obtain ⟨⟨index, chan⟩, -, checked⟩ := bind_ok rest
      dsimp only at checked
      split at checked
      · obtain ⟨-, same⟩ := Prod.ext_iff.mp (Except.ok.inj checked)
        obtain ⟨-, rfl⟩ := Prod.ext_iff.mp same
        rw [qDistributeEvent_reg distributed]
        exact (or_iff_right fun isApp => QeventDire.noConfusion isApp).symm
      · cases checked
  | appToQe =>
      rw [dire] at routed
      obtain ⟨⟨index, chan⟩, -, rest⟩ := bind_ok routed
      obtain ⟨-, same⟩ := Prod.ext_iff.mp (Except.ok.inj rest)
      obtain ⟨-, rfl⟩ := Prod.ext_iff.mp same
      exact iff_of_true rfl (.inl rfl)

/-- **What a refused event leaves.** -/
theorem refused_eq {call : TimeEventCall} {qid i : Nat} {reg : Nat → QeventReg}
    (routed : s.route call = .ok (qid, i, reg))
    (full : s.cap i call.pri ≤ (s.queued i call.pri).length) :
    ∃ s', s.addTimeEvent call = .ok (-1, s') ∧ s'.reg = reg ∧ s'.queued = s.queued ∧
      s'.qepoll = Function.update s.qepoll call.sockid call.event ∧
      s'.qevents = Function.update s.qevents call.sockid (s.qevents call.sockid ||| call.event) := by
  obtain ⟨ullStart, llStartIdx, appCount, ullExpireTime, added⟩ := addTimeEvent_eq routed
  dsimp only at added
  rw [if_pos full] at added
  exact ⟨_, added, rfl, rfl, rfl, rfl⟩

/-- A call returns 0, or its queue is full. -/
theorem refused_full {call : TimeEventCall} {ret : Int} {s' : Channels}
    (added : s.addTimeEvent call = .ok (ret, s')) (failed : ret ≠ 0) : s.RingFull call := by
  obtain ⟨⟨qid, i, reg⟩, routed, -⟩ := bind_ok (added : (s.route call >>= _) = _)
  obtain ⟨ullStart, llStartIdx, appCount, ullExpireTime, eq⟩ := addTimeEvent_eq routed
  dsimp only at eq
  by_cases full : s.cap i call.pri ≤ (s.queued i call.pri).length
  · exact ⟨qid, i, reg, routed, full⟩
  · rw [if_neg full, added] at eq
    exact absurd (Prod.ext_iff.mp (Except.ok.inj eq)).1 failed

/-- **A failed insertion has no effect** exactly if it repeats what is there. -/
theorem insert_law (s : Channels) (call : TimeEventCall) :
    FailsCleanly s call ↔ ¬ RingFull s call ∨ Repeats s call := by
  constructor
  · intro clean
    by_cases full : RingFull s call
    · obtain ⟨qid, i, reg, routed, noRoom⟩ := full
      obtain ⟨s', added, table, -, mask, events⟩ := refused_eq routed noRoom
      obtain ⟨sameMask, sameEvents, sameTable, -⟩ := clean (-1) s' added (by decide)
      rw [mask, Function.update_eq_self_iff] at sameMask
      rw [events, Function.update_eq_self_iff] at sameEvents
      rw [table] at sameTable
      exact .inr ⟨sameMask.symm, sameEvents, (route_reg routed).mp sameTable⟩
    · exact .inl full
  · rintro condition ret s' added failed
    have full := refused_full added failed
    obtain ⟨sameMask, sameEvents, keeps⟩ := condition.resolve_left (not_not.mpr full)
    obtain ⟨qid, i, reg, routed, noRoom⟩ := full
    obtain ⟨s'', refused, table, queues, mask, events⟩ := refused_eq routed noRoom
    obtain ⟨-, rfl⟩ := Prod.ext_iff.mp (Except.ok.inj (added.symm.trans refused))
    refine ⟨?_, ?_, ?_, queues⟩
    · rw [mask, Function.update_eq_self_iff, sameMask]
    · rw [events, Function.update_eq_self_iff, sameEvents]
    · rw [table]
      exact (route_reg routed).mpr keeps

/-- A queue that is full with one event of another type: `Q_EPOLLIN` waits, `Q_EPOLLOUT` comes. -/
def oneQueued : Channels :=
  { fresh 1 1 1 with
    queued := fun i pri => if i = 0 ∧ pri = true then [⟨true, 5, qEpollin, 0⟩] else []
    qepoll := fun _ => qEpollin
    qevents := fun _ => qEpollin
    reg := fun _ => { proc := true, prCore := 0 } }

/-- The event that finds no room -/
def writable : TimeEventCall :=
  { event := qEpollout, pri := true, dire := .stackToQe, core := 0, apid := 0, sockid := 5 }

/-- **The refused event takes the queued one with it**: the mask is that of the refused event, and
`qepoll_wait` drops what was there. -/
theorem refused_drops_queued :
    ¬ (∀ (s : Channels) (call : TimeEventCall), FailsCleanly s call) ∧
      ((oneQueued.qepollWait 0 8).toOption.map fun r => r.1) = some 1 ∧
      (((oneQueued.step (.add writable)).qepollWait 0 8).toOption.map fun r => r.1) = some 0 := by
  refine ⟨fun all => ?_, by decide, by decide⟩
  have routed : oneQueued.route writable = .ok (0, 0, oneQueued.reg) := rfl
  obtain ⟨s', added, -, -, mask, -⟩ := refused_eq routed (by decide)
  have same := (all oneQueued writable (-1) s' added (by decide)).1
  rw [mask, Function.update_eq_self_iff] at same
  exact absurd same (by decide)

end Channels

end QStack
