/-
# QStack.EventConsumers -- eventmgt_get and qepoll_wait over the same rings

An application has a pair of channels with every stack: `sq_chan` for the events the stack
raises, `qs_chan` for those `qepoll_ctl` raises itself when a socket is registered that has
a pending event.  Each channel has a high and a low ring.  `qepoll_wait` goes over both
channels and fills the buffer it is given; `eventmgt_get` hands out one event at a time from
two buffers of its own, which `qepoll_mgt_wait` fills from the high and from the low rings
of `sq_chan`.  Both take an entry with `qepoll_qevent`, which drops one whose type the mask
of its socket does not meet.

The rings are lists here, nothing is added while they are drained, and `qepoll_wait` is
taken with `timeout <= 0`.  What either call does when it comes back empty, which is to give
up the core, is in `Wakeup`.

* `qepollWait_spec`, `eventmgtGet_cases`: what one call takes and when it takes nothing;
* `consumers_agree`: the two drains yield the same exactly when no event is queued on a ring
  that `eventmgt_get` never reads;
* `app_event_missed`: an event raised by `qepoll_ctl` is such an event.
-/
import QStack.EventDelivery
import QStack.Lib.Drain

namespace QStack

set_option autoImplicit false

open Lib.Drain

/-- The direction of a channel: `STACK_TO_QE` or `APP_TO_QE`. -/
inductive QeventDire where
  | stackToQe
  | appToQe
deriving DecidableEq, Repr

/-- A ring an application polls: `qe->sq_chan[ns]` or `qe->qs_chan[ns]`, at `qEvque[pri]`. -/
structure PolledRing where
  ns : Nat
  dire : QeventDire
  pri : Bool
deriving DecidableEq, Repr

/-- An event with the ring it came from. -/
abbrev Taken := PolledRing × QepollEvent

/-- What one application polls. -/
structure AppRings where
  queued : PolledRing → List QepollEvent
  /-- `g_smap[sockid].qepoll` -/
  qepoll : Nat → UInt32
  reg : Nat → QeventReg

/-- The rings, and the events a call has copied out; their number is `ev_cnt`. -/
abbrev Batch := AppRings × List Taken

namespace AppRings

/-- The check of `qepoll_qevent`. -/
def validity (s : AppRings) (x : QepollEvent) : Bool :=
  s.qepoll x.sockid &&& x.events != 0 && x.events != 0

/-- What a ring has to give: the entries that `qepoll_qevent` will not drop. -/
def pending (s : AppRings) (q : PolledRing) : List QepollEvent :=
  (s.queued q).filter s.validity

/-! ## The consumers -/

/-- `qepoll_qevent`, on a ring that is not empty. -/
def qepollQevent (q : PolledRing) (st : Batch) : Batch :=
  match st.1.queued q with
  | [] => st
  | x :: rest =>
      let s := { st.1 with queued := Function.update st.1.queued q rest }
      if st.1.validity x then
        ({ s with reg := Function.update s.reg x.sockid { s.reg x.sockid with proc := false } },
          st.2 ++ [(q, x)])
      else (s, st.2)

/-- The test of every loop: the ring is not empty, the buffer not full. -/
def More (q : PolledRing) (maxevents : Int) (st : Batch) : Prop :=
  st.1.queued q ≠ [] ∧ (st.2.length : Int) < maxevents

instance (q : PolledRing) (maxevents : Int) (st : Batch) : Decidable (More q maxevents st) :=
  inferInstanceAs (Decidable (_ ∧ _))

/-- The loop over a high ring.  It goes round at most as often as there are entries. -/
def pollLoop (q : PolledRing) (maxevents : Int) : Nat → Batch → Batch
  | 0, st => st
  | n + 1, st =>
      if More q maxevents st then pollLoop q maxevents n (qepollQevent q st) else st

def pollRing (q : PolledRing) (maxevents : Int) (st : Batch) : Batch :=
  pollLoop q maxevents (st.1.queued q).length st

/-- The loop over a low ring, with the high ring of the channel after each low event. -/
def pollLowLoop (ns : Nat) (dire : QeventDire) (maxevents : Int) : Nat → Batch → Batch
  | 0, st => st
  | n + 1, st =>
      if More ⟨ns, dire, false⟩ maxevents st then
        pollLowLoop ns dire maxevents n
          (pollRing ⟨ns, dire, true⟩ maxevents (qepollQevent ⟨ns, dire, false⟩ st))
      else st

/-- The body of `qepoll_wait` for one channel. -/
def pollChan (maxevents : Int) (ns : Nat) (st : Batch) (dire : QeventDire) : Batch :=
  let high := pollRing ⟨ns, dire, true⟩ maxevents st
  pollLowLoop ns dire maxevents (high.1.queued ⟨ns, dire, false⟩).length high

/-- The body of `qepoll_wait` for one stack. -/
def pollStack (maxevents : Int) (st : Batch) (ns : Nat) : Batch :=
  [QeventDire.stackToQe, .appToQe].foldl (pollChan maxevents ns) st

/-- `EINVAL` -/
def einval : Int := 22

/-- `qepoll_wait` with `timeout <= 0`: the result, the events and the rings after it. -/
def qepollWait (numStack : Nat) (maxevents : Int) (s : AppRings) : Int × List Taken × AppRings :=
  if 0 < numStack ∧ maxevents ≤ 0 then (-einval, [], s)
  else
    let st := (List.range numStack).foldl (pollStack maxevents) (s, [])
    (st.2.length, st.2, st.1)

/-- `qepoll_mgt_wait`, which looks at `sq_chan` only. -/
def qepollMgtWait (numStack : Nat) (maxevents : Int) (pri : Bool) (s : AppRings) :
    Int × List Taken × AppRings :=
  if maxevents ≤ 0 then (-einval, [], s)
  else
    let st := (List.range numStack).foldl
      (fun st ns => pollRing ⟨ns, .stackToQe, pri⟩ maxevents st) (s, [])
    (st.2.length, st.2, st.1)

end AppRings

open AppRings

/-- `struct evmgt_queue`.  No entry of `events` from `num` on is read. -/
structure EvmgtQueue where
  events : List Taken
  num : Int
  p : Nat

/-- `struct event_mgt` -/
structure EventMgt where
  size : Int
  lb : Int
  eventsH : EvmgtQueue
  eventsL : EvmgtQueue

namespace EventMgt

def evmgtqInit : EvmgtQueue := { events := [], num := 0, p := 0 }

def eventmgtInit (maxsize lb : Int) : EventMgt :=
  { size := maxsize, lb := lb, eventsH := evmgtqInit, eventsL := evmgtqInit }

def evmgtqGet (q : EvmgtQueue) : Option Taken × EvmgtQueue :=
  if q.num ≠ 0 ∧ (q.p : Int) < q.num then (q.events[q.p]?, { q with p := q.p + 1 })
  else (none, q)

def evmgtqFetchEvents (numStack : Nat) (maxevents : Int) (pri : Bool) (s : AppRings) :
    EvmgtQueue × AppRings :=
  let (ret, events, s) := qepollMgtWait numStack maxevents pri s
  ({ events := events, num := ret, p := 0 }, s)

/-- `eventmgt_get`, but for the sleep after a call that finds nothing. -/
def eventmgtGet (numStack : Nat) (st : AppRings × EventMgt) :
    Option Taken × AppRings × EventMgt :=
  match evmgtqGet st.2.eventsH with
  | (some e, h) => (some e, st.1, { st.2 with eventsH := h })
  | (none, _) =>
      let fetched := evmgtqFetchEvents numStack st.2.size true st.1
      match evmgtqGet fetched.1 with
      | (some e, h) => (some e, fetched.2, { st.2 with eventsH := h })
      | (none, h) =>
          match evmgtqGet st.2.eventsL with
          | (some e, l) => (some e, fetched.2, { st.2 with eventsH := h, eventsL := l })
          | (none, _) =>
              let low := evmgtqFetchEvents numStack st.2.lb false fetched.2
              let got := evmgtqGet low.1
              (got.1, low.2, { st.2 with eventsH := h, eventsL := got.2 })

end EventMgt

open EventMgt

/-! ## What a call takes

`Polls` is what holds between the batch before and after any piece of either call: what was
copied out came, in order, off what the rings had to give. -/

/-- From `st` to `st'` only events of the rings in `rings` were copied out, and each ring has
given in order what it no longer has. -/
structure Polls (rings : PolledRing → Prop) (st st' : Batch) (out : List Taken) : Prop where
  copied : st'.2 = st.2 ++ out
  only : ∀ e ∈ out, rings e.1
  split : ∀ q, st.1.pending q = takenFrom q out ++ st'.1.pending q
  shorter : ∀ q, (st'.1.queued q).length ≤ (st.1.queued q).length

/-- With room left in the buffer the rings have nothing more to give. -/
def Emptied (maxevents : Int) (rings : PolledRing → Prop) (st : Batch) : Prop :=
  (st.2.length : Int) < maxevents → ∀ q, rings q → st.1.pending q = []

namespace Polls

variable {rings more : PolledRing → Prop} {st st' st'' : Batch} {out later : List Taken}
  {maxevents : Int}

theorem refl (rings : PolledRing → Prop) (st : Batch) : Polls rings st st [] :=
  ⟨(List.append_nil _).symm, nofun, fun _ => rfl, fun _ => le_rfl⟩

theorem trans (first : Polls rings st st' out) (second : Polls rings st' st'' later) :
    Polls rings st st'' (out ++ later) where
  copied := by rw [second.copied, first.copied, List.append_assoc]
  only := by
    intro e mem
    rcases List.mem_append.mp mem with early | late
    · exact first.only e early
    · exact second.only e late
  split := by
    intro q
    rw [first.split q, second.split q, takenFrom_append, List.append_assoc]
  shorter q := (second.shorter q).trans (first.shorter q)

theorem mono (polls : Polls rings st st' out) (sub : ∀ q, rings q → more q) :
    Polls more st st' out :=
  ⟨polls.copied, fun e mem => sub _ (polls.only e mem), polls.split, polls.shorter⟩

/-- What has been emptied stays so. -/
theorem emptied (polls : Polls rings st st' out) (before : Emptied maxevents more st) :
    Emptied maxevents more st' := by
  intro room q ring
  have shorter : (st.2.length : Int) < maxevents := by
    have grown := congrArg List.length polls.copied
    rw [List.length_append] at grown
    omega
  have none := polls.split q
  rw [before shorter q ring] at none
  exact (List.append_eq_nil_iff.mp none.symm).2

end Polls

section Calls

variable {maxevents : Int}

/-- One entry comes off its ring; it is copied out if the mask meets its type. -/
theorem qepollQevent_cons {q : PolledRing} {st : Batch} {x : QepollEvent}
    {rest : List QepollEvent} (queued : st.1.queued q = x :: rest) :
    ∃ reg, qepollQevent q st =
      ({ st.1 with queued := Function.update st.1.queued q rest, reg := reg },
        st.2 ++ if st.1.validity x then [(q, x)] else []) := by
  unfold qepollQevent
  rw [queued]
  dsimp only
  cases st.1.validity x with
  | true => exact ⟨_, rfl⟩
  | false => exact ⟨st.1.reg, by simp⟩

/-- The masks decide what a ring has to give. -/
theorem pending_update (s : AppRings) (q r : PolledRing) (rest : List QepollEvent)
    (reg : Nat → QeventReg) :
    AppRings.pending { s with queued := Function.update s.queued q rest, reg := reg } r =
      if r = q then rest.filter s.validity else s.pending r := by
  by_cases same : r = q
  · subst same
    simp [AppRings.pending]
    rfl
  · simp [AppRings.pending, same]
    rfl

theorem qepollQevent_polls (q : PolledRing) (st : Batch) :
    ∃ out, Polls (· = q) st (qepollQevent q st) out ∧
      ((qepollQevent q st).1.queued q).length = (st.1.queued q).length - 1 := by
  cases queued : st.1.queued q with
  | nil =>
      have still : qepollQevent q st = st := by simp only [qepollQevent, queued]
      rw [still]
      exact ⟨[], Polls.refl _ st, by rw [queued]; rfl⟩
  | cons x rest =>
      obtain ⟨reg, took⟩ := qepollQevent_cons queued
      rw [took]
      refine ⟨if st.1.validity x then [(q, x)] else [], ⟨rfl, ?_, ?_, ?_⟩, by simp⟩
      · intro e mem
        split at mem
        · rw [List.mem_singleton.mp mem]
        · cases mem
      · intro r
        rw [pending_update]
        by_cases same : r = q
        · subst same
          rw [if_pos rfl, AppRings.pending, queued]
          cases valid : st.1.validity x with
          | true => simp [valid, takenFrom_single]
          | false => simp [valid]
        · have other : takenFrom r (if st.1.validity x then [(q, x)] else []) = [] := by
            apply takenFrom_eq_nil
            intro e mem
            split at mem
            · rw [List.mem_singleton.mp mem]
              exact Ne.symm same
            · cases mem
          rw [if_neg same, other, List.nil_append]

      · intro r
        by_cases same : r = q
        · subst same
          simp [queued]
        · simp [same]

/-- A loop that is not left with a full buffer has emptied its ring. -/
theorem emptied_of_not_more {q : PolledRing} {st : Batch} (ended : ¬ More q maxevents st) :
    Emptied maxevents (· = q) st := by
  rintro room r rfl
  have none : st.1.queued r = [] := by
    by_contra some
    exact ended ⟨some, room⟩
  rw [AppRings.pending, none]
  rfl

theorem pollLoop_polls (q : PolledRing) (n : Nat) (st : Batch)
    (enough : (st.1.queued q).length ≤ n) :
    ∃ out, Polls (· = q) st (pollLoop q maxevents n st) out ∧
      Emptied maxevents (· = q) (pollLoop q maxevents n st) := by
  induction n generalizing st with
  | zero =>
      have none : st.1.queued q = [] := List.length_eq_zero_iff.mp (Nat.le_zero.mp enough)
      exact ⟨[], Polls.refl _ st, emptied_of_not_more fun more => more.1 none⟩
  | succ n ih =>
      rw [pollLoop]
      split
      · obtain ⟨out, took, less⟩ := qepollQevent_polls q st
        obtain ⟨later, rest, emptied⟩ := ih (qepollQevent q st) (by omega)
        exact ⟨out ++ later, took.trans rest, emptied⟩
      · rename_i ended
        exact ⟨[], Polls.refl _ st, emptied_of_not_more ended⟩

theorem pollRing_polls (q : PolledRing) (st : Batch) :
    ∃ out, Polls (· = q) st (pollRing q maxevents st) out ∧
      Emptied maxevents (· = q) (pollRing q maxevents st) :=
  pollLoop_polls q _ st le_rfl

/-- The two rings of a channel. -/
def OfChan (ns : Nat) (dire : QeventDire) (q : PolledRing) : Prop := q.ns = ns ∧ q.dire = dire

theorem emptied_chan {ns : Nat} {dire : QeventDire} {st : Batch}
    (high : Emptied maxevents (· = ⟨ns, dire, true⟩) st)
    (low : Emptied maxevents (· = ⟨ns, dire, false⟩) st) :
    Emptied maxevents (OfChan ns dire) st := by
  rintro room ⟨_, _, pri⟩ ⟨rfl, rfl⟩
  cases pri with
  | true => exact high room _ rfl
  | false => exact low room _ rfl

/-- The low loop keeps the high ring empty, since it goes over it after each low event. -/
theorem pollLowLoop_polls (ns : Nat) (dire : QeventDire) (n : Nat) (st : Batch)
    (enough : (st.1.queued ⟨ns, dire, false⟩).length ≤ n)
    (high : Emptied maxevents (· = ⟨ns, dire, true⟩) st) :
    ∃ out, Polls (OfChan ns dire) st (pollLowLoop ns dire maxevents n st) out ∧
      Emptied maxevents (OfChan ns dire) (pollLowLoop ns dire maxevents n st) := by
  have ofChan : ∀ pri q, q = PolledRing.mk ns dire pri → OfChan ns dire q := by
    rintro pri q rfl
    exact ⟨rfl, rfl⟩
  induction n generalizing st with
  | zero =>
      have none : st.1.queued ⟨ns, dire, false⟩ = [] :=
        List.length_eq_zero_iff.mp (Nat.le_zero.mp enough)
      exact ⟨[], Polls.refl _ st,
        emptied_chan high (emptied_of_not_more fun more => more.1 none)⟩
  | succ n ih =>
      rw [pollLowLoop]
      split
      · obtain ⟨out, took, less⟩ := qepollQevent_polls ⟨ns, dire, false⟩ st
        obtain ⟨more, again, emptied⟩ := pollRing_polls ⟨ns, dire, true⟩ (qepollQevent ⟨ns, dire, false⟩ st)
        have shorter := again.shorter ⟨ns, dire, false⟩
        obtain ⟨later, rest, chan⟩ := ih _ (by omega) emptied
        exact ⟨_, ((took.mono (ofChan false)).trans (again.mono (ofChan true))).trans rest, chan⟩
      · rename_i ended
        exact ⟨[], Polls.refl _ st, emptied_chan high (emptied_of_not_more ended)⟩

theorem pollChan_polls (ns : Nat) (st : Batch) (dire : QeventDire) :
    ∃ out, Polls (OfChan ns dire) st (pollChan maxevents ns st dire) out ∧
      Emptied maxevents (OfChan ns dire) (pollChan maxevents ns st dire) := by
  obtain ⟨out, first, emptied⟩ := pollRing_polls ⟨ns, dire, true⟩ st
  obtain ⟨later, rest, chan⟩ := pollLowLoop_polls ns dire _ _ le_rfl emptied
  refine ⟨out ++ later, Polls.trans (first.mono ?_) rest, chan⟩
  rintro q rfl
  exact ⟨rfl, rfl⟩

variable (maxevents) in
/-- **A loop over places to look at** empties all of them, or fills the buffer. -/
theorem foldl_polls {ι : Type} {f : Batch → ι → Batch} {rings : ι → PolledRing → Prop}
    (each : ∀ st i, ∃ out, Polls (rings i) st (f st i) out ∧ Emptied maxevents (rings i) (f st i))
    (is : List ι) (st : Batch) :
    ∃ out, Polls (fun q => ∃ i ∈ is, rings i q) st (is.foldl f st) out ∧
      Emptied maxevents (fun q => ∃ i ∈ is, rings i q) (is.foldl f st) := by
  induction is generalizing st with
  | nil => exact ⟨[], Polls.refl _ st, by rintro _ q ⟨_, none, _⟩; cases none⟩
  | cons i is ih =>
      obtain ⟨out, first, emptied⟩ := each st i
      obtain ⟨later, rest, others⟩ := ih (f st i)
      refine ⟨out ++ later, Polls.trans (first.mono ?_) (rest.mono ?_), ?_⟩
      · intro q ring
        exact ⟨i, List.mem_cons_self, ring⟩
      · rintro q ⟨j, mem, ring⟩
        exact ⟨j, List.mem_cons_of_mem i mem, ring⟩
      · rintro room q ⟨j, mem, ring⟩
        rcases List.mem_cons.mp mem with rfl | mem
        · exact rest.emptied emptied room q ring
        · exact others room q ⟨j, mem, ring⟩

variable (maxevents) in
/-- What both calls do: a loop over the stacks, on an empty buffer. -/
theorem stacks_polls (numStack : Nat) {f : Batch → Nat → Batch} {rings : Nat → PolledRing → Prop}
    (each : ∀ st i, ∃ out, Polls (rings i) st (f st i) out ∧ Emptied maxevents (rings i) (f st i))
    (s : AppRings) :
    ∃ out s', (List.range numStack).foldl f (s, []) = (s', out) ∧
      Polls (fun q => ∃ ns < numStack, rings ns q) (s, []) (s', out) out ∧
      Emptied maxevents (fun q => ∃ ns < numStack, rings ns q) (s', out) := by
  obtain ⟨out, polls, emptied⟩ := foldl_polls maxevents each (List.range numStack) (s, [])
  simp only [List.mem_range] at polls emptied
  generalize (List.range numStack).foldl f (s, []) = st at polls emptied
  obtain ⟨s', events⟩ := st
  obtain rfl : events = out := polls.copied
  exact ⟨events, s', rfl, polls, emptied⟩

/-- **One call of `qepoll_wait`**: it comes back with a full buffer or with all rings empty. -/
theorem qepollWait_spec (numStack : Nat) (one : 1 ≤ maxevents) (s : AppRings) :
    ∃ out s', qepollWait numStack maxevents s = (out.length, out, s') ∧
      Polls (fun q => q.ns < numStack) (s, []) (s', out) out ∧
      Emptied maxevents (fun q => q.ns < numStack) (s', out) := by
  have stack : ∀ st ns, ∃ out, Polls (fun q => q.ns = ns) st (pollStack maxevents st ns) out ∧
      Emptied maxevents (fun q => q.ns = ns) (pollStack maxevents st ns) := by
    intro st ns
    obtain ⟨out, polls, emptied⟩ := foldl_polls maxevents (pollChan_polls ns)
      [QeventDire.stackToQe, .appToQe] st
    refine ⟨out, polls.mono ?_, ?_⟩
    · rintro q ⟨_, _, of, _⟩
      exact of
    · rintro room ⟨_, dire, _⟩ rfl
      exact emptied room _ ⟨dire, by cases dire <;> simp, rfl, rfl⟩
  obtain ⟨out, s', went, polls, emptied⟩ := stacks_polls maxevents numStack stack s
  refine ⟨out, s', ?_, polls.mono ?_, ?_⟩
  · rw [qepollWait, if_neg (by omega), went]
  · rintro q ⟨ns, inside, rfl⟩
    exact inside
  · intro room q inside
    exact emptied room q ⟨q.ns, inside, rfl⟩

/-- The rings one call of `qepoll_mgt_wait` can take from. -/
def MgtRing (numStack : Nat) (maxevents : Int) (pri : Bool) (q : PolledRing) : Prop :=
  q.ns < numStack ∧ q.dire = .stackToQe ∧ q.pri = pri ∧ 0 < maxevents

/-! ## The buffers of `eventmgt_get` -/

/-- What a buffer still has to hand out. -/
def EvmgtQueue.rest (q : EvmgtQueue) : List Taken :=
  if 0 < q.num then q.events.drop q.p else []

/-- `num` is the number of entries fetched, or the error `qepoll_mgt_wait` returned. -/
def EvmgtQueue.Filled (q : EvmgtQueue) : Prop := 0 < q.num → q.num = q.events.length

theorem evmgtqGet_spec {q : EvmgtQueue} (filled : q.Filled) :
    (evmgtqGet q).2.Filled ∧ q.rest = (evmgtqGet q).1.toList ++ (evmgtqGet q).2.rest := by
  unfold evmgtqGet
  split
  · rename_i more
    have positive : 0 < q.num := by omega
    have inside : q.p < q.events.length := by
      have fetched := filled positive
      omega
    refine ⟨filled, ?_⟩
    simp only [EvmgtQueue.rest, if_pos positive, List.getElem?_eq_getElem inside, Option.toList]
    exact List.drop_eq_getElem_cons inside
  · exact ⟨filled, rfl⟩

/-- A buffer that hands out nothing has nothing. -/
theorem rest_of_none {q : EvmgtQueue} (filled : q.Filled) (none : (evmgtqGet q).1 = none) :
    q.rest = [] := by
  unfold evmgtqGet at none
  unfold EvmgtQueue.rest
  split at none
  · rename_i more
    rw [if_pos (by omega)]
    exact List.drop_eq_nil_iff.mpr (List.getElem?_eq_none_iff.mp none)
  · rename_i ended
    split
    · rename_i positive
      have fetched := filled positive
      exact List.drop_eq_nil_iff.mpr (by omega)
    · rfl

/-- **One fetch**: the buffer holds what the rings gave, and an empty one says that they had
nothing to give. -/
theorem evmgtqFetchEvents_spec (numStack : Nat) (maxevents : Int) (pri : Bool) (s : AppRings) :
    ∃ q s', evmgtqFetchEvents numStack maxevents pri s = (q, s') ∧ q.Filled ∧
      Polls (MgtRing numStack maxevents pri) (s, []) (s', q.rest) q.rest ∧
      (q.rest = [] → ∀ r, MgtRing numStack maxevents pri r → s'.pending r = []) := by
  by_cases bad : maxevents ≤ 0
  · refine ⟨{ events := [], num := -einval, p := 0 }, s, ?_, ?_, Polls.refl _ _, ?_⟩
    · simp [evmgtqFetchEvents, qepollMgtWait, bad]
    · intro positive
      exact absurd positive (by decide)
    · rintro - r ⟨-, -, -, positive⟩
      omega
  · obtain ⟨out, s', went, polls, emptied⟩ := stacks_polls maxevents numStack
      (fun st ns => pollRing_polls ⟨ns, .stackToQe, pri⟩ st) s
    have rest : EvmgtQueue.rest { events := out, num := out.length, p := 0 } = out := by
      cases out <;> simp [EvmgtQueue.rest]
    refine ⟨{ events := out, num := out.length, p := 0 }, s', ?_, fun _ => rfl, ?_, ?_⟩
    · simp [evmgtqFetchEvents, qepollMgtWait, bad, went]
    · rw [rest]
      apply polls.mono
      rintro q ⟨ns, inside, rfl⟩
      exact ⟨inside, rfl, rfl, by omega⟩
    · intro none r ring
      rw [rest] at none
      subst none
      obtain ⟨ns, dire, pri'⟩ := r
      obtain ⟨inside, rfl, rfl, positive⟩ := ring
      exact emptied positive _ ⟨ns, inside, rfl⟩

end Calls

/-- Between two calls of `eventmgt_get`: each buffer holds events of its own rings. -/
structure Buffered (numStack : Nat) (size lb : Int) (st : AppRings × EventMgt) : Prop where
  sized : st.2.size = size
  bounded : st.2.lb = lb
  filledH : st.2.eventsH.Filled
  filledL : st.2.eventsL.Filled
  high : ∀ e ∈ st.2.eventsH.rest, MgtRing numStack size true e.1
  low : ∀ e ∈ st.2.eventsL.rest, MgtRing numStack lb false e.1

/-- What a ring has to give, the part of it that has been fetched included. -/
def supply (st : AppRings × EventMgt) (q : PolledRing) : List QepollEvent :=
  takenFrom q st.2.eventsH.rest ++ takenFrom q st.2.eventsL.rest ++ st.1.pending q

section Mgt

variable {numStack : Nat} {size lb : Int} {st : AppRings × EventMgt}

/-- The high buffer is used up and fetched again. -/
theorem Buffered.fetchHigh (inv : Buffered numStack size lb st) (used : st.2.eventsH.rest = [])
    {h : EvmgtQueue} {s : AppRings}
    (fetched : evmgtqFetchEvents numStack st.2.size true st.1 = (h, s)) :
    Buffered numStack size lb (s, { st.2 with eventsH := h }) ∧
      (∀ q, supply (s, { st.2 with eventsH := h }) q = supply st q) ∧
      (h.rest = [] → ∀ q, MgtRing numStack size true q → s.pending q = []) := by
  obtain ⟨h', s', went, filled, polls, emptied⟩ :=
    evmgtqFetchEvents_spec numStack st.2.size true st.1
  obtain ⟨rfl, rfl⟩ := Prod.ext_iff.mp (fetched.symm.trans went)
  rw [inv.sized] at polls emptied
  refine ⟨⟨inv.sized, inv.bounded, filled, inv.filledL, polls.only, inv.low⟩, fun q => ?_, emptied⟩
  have split := polls.split q
  simp only [supply, used, takenFrom_nil, List.nil_append]
  rw [split, ← List.append_assoc]
  -- nothing in the low buffer is from a high ring
  congr 1
  cases pri : q.pri with
  | true =>
      have none : takenFrom q st.2.eventsL.rest = [] := by
        apply takenFrom_eq_nil
        rintro e mem rfl
        have low := (inv.low e mem).2.2.1
        rw [pri] at low
        cases low
      rw [none, List.append_nil, List.nil_append]
  | false =>
      have none : takenFrom q h.rest = [] := by
        apply takenFrom_eq_nil
        rintro e mem rfl
        have high := (polls.only e mem).2.2.1
        rw [pri] at high
        cases high
      rw [none, List.append_nil, List.nil_append]

/-- The low buffer is fetched again when both are used up. -/
theorem Buffered.fetchLow (inv : Buffered numStack size lb st) (usedH : st.2.eventsH.rest = [])
    (usedL : st.2.eventsL.rest = []) {l : EvmgtQueue} {s : AppRings}
    (fetched : evmgtqFetchEvents numStack st.2.lb false st.1 = (l, s)) :
    Buffered numStack size lb (s, { st.2 with eventsL := l }) ∧
      (∀ q, supply (s, { st.2 with eventsL := l }) q = supply st q) ∧
      (l.rest = [] → ∀ q, MgtRing numStack lb false q → s.pending q = []) ∧
      ∀ q, st.1.pending q = [] → s.pending q = [] := by
  obtain ⟨l', s', went, filled, polls, emptied⟩ :=
    evmgtqFetchEvents_spec numStack st.2.lb false st.1
  obtain ⟨rfl, rfl⟩ := Prod.ext_iff.mp (fetched.symm.trans went)
  rw [inv.bounded] at polls emptied
  refine ⟨⟨inv.sized, inv.bounded, inv.filledH, filled, inv.high, polls.only⟩, fun q => ?_, emptied, ?_⟩
  · simp only [supply, usedH, usedL, takenFrom_nil, List.nil_append]
    exact (polls.split q).symm
  · intro q none
    have split := polls.split q
    rw [none] at split
    exact (List.append_eq_nil_iff.mp split.symm).2

/-- An event handed out of the high buffer. -/
theorem Buffered.getHigh (inv : Buffered numStack size lb st) {e : Option Taken} {h : EvmgtQueue}
    (got : evmgtqGet st.2.eventsH = (e, h)) :
    Buffered numStack size lb (st.1, { st.2 with eventsH := h }) ∧
      (∀ x ∈ e, MgtRing numStack size true x.1) ∧
      ∀ q, supply st q = takenFrom q e.toList ++ supply (st.1, { st.2 with eventsH := h }) q := by
  obtain ⟨filled, split⟩ := evmgtqGet_spec inv.filledH
  rw [got] at filled split
  have high := inv.high
  rw [split] at high
  refine ⟨⟨inv.sized, inv.bounded, filled, inv.filledL, ?_, inv.low⟩, ?_, ?_⟩
  · intro x mem
    exact high x (List.mem_append_right _ mem)
  · intro x mem
    exact high x (List.mem_append_left _ (Option.mem_toList.mpr mem))
  · intro q
    simp only [supply, split, takenFrom_append, List.append_assoc]

/-- An event handed out of the low buffer, when the high one is used up. -/
theorem Buffered.getLow (inv : Buffered numStack size lb st) (used : st.2.eventsH.rest = [])
    {e : Option Taken} {l : EvmgtQueue} (got : evmgtqGet st.2.eventsL = (e, l)) :
    Buffered numStack size lb (st.1, { st.2 with eventsL := l }) ∧
      (∀ x ∈ e, MgtRing numStack lb false x.1) ∧
      ∀ q, supply st q = takenFrom q e.toList ++ supply (st.1, { st.2 with eventsL := l }) q := by
  obtain ⟨filled, split⟩ := evmgtqGet_spec inv.filledL
  rw [got] at filled split
  have low := inv.low
  rw [split] at low
  refine ⟨⟨inv.sized, inv.bounded, inv.filledH, filled, inv.high, ?_⟩, ?_, ?_⟩
  · intro x mem
    exact low x (List.mem_append_right _ mem)
  · intro x mem
    exact low x (List.mem_append_left _ (Option.mem_toList.mpr mem))
  · intro q
    simp only [supply, used, split, takenFrom_nil, takenFrom_append, List.nil_append,
      List.append_assoc]

/-- Where `eventmgt_get` can take from. -/
def OfMgt (numStack : Nat) (size lb : Int) (q : PolledRing) : Prop :=
  MgtRing numStack size true q ∨ MgtRing numStack lb false q

/-- **One call of `eventmgt_get`**: what it hands out comes off what its rings had, and if it
hands out nothing they have nothing. -/
theorem eventmgtGet_spec (inv : Buffered numStack size lb st) :
    Buffered numStack size lb (eventmgtGet numStack st).2 ∧
      (∀ x ∈ (eventmgtGet numStack st).1, OfMgt numStack size lb x.1) ∧
      (∀ q, supply st q =
        takenFrom q (eventmgtGet numStack st).1.toList ++ supply (eventmgtGet numStack st).2 q) ∧
      ((eventmgtGet numStack st).1 = none →
        ∀ q, OfMgt numStack size lb q → supply (eventmgtGet numStack st).2 q = []) := by
  unfold eventmgtGet
  rcases high : evmgtqGet st.2.eventsH with ⟨_ | e, h⟩
  · have used := rest_of_none inv.filledH (by rw [high])
    obtain ⟨f, s, fetched⟩ : ∃ f s, evmgtqFetchEvents numStack st.2.size true st.1 = (f, s) :=
      ⟨_, _, rfl⟩
    obtain ⟨inv, refilled, emptied⟩ := inv.fetchHigh used fetched
    dsimp only
    rw [fetched]
    rcases again : evmgtqGet f with ⟨_ | e, h⟩
    · have usedF := rest_of_none inv.filledH (by rw [again])
      have usedH : h.rest = [] := by
        have split := (evmgtqGet_spec inv.filledH).2
        rw [again, usedF] at split
        exact split.symm
      -- no event is in a high ring: the low buffer, and then the low rings
      obtain ⟨inv, -, same⟩ := inv.getHigh again
      have high : ∀ q, MgtRing numStack size true q → s.pending q = [] := emptied usedF
      have toHere : ∀ q, supply st q = supply (s, { st.2 with eventsH := h }) q := fun q =>
        (refilled q).symm.trans (same q)
      dsimp only
      rcases low : evmgtqGet st.2.eventsL with ⟨_ | e, l⟩
      · have usedL := rest_of_none inv.filledL (by rw [low])
        obtain ⟨f', s', fetched'⟩ :
            ∃ f' s', evmgtqFetchEvents numStack st.2.lb false s = (f', s') := ⟨_, _, rfl⟩
        obtain ⟨inv, refilled', emptied', still⟩ := inv.fetchLow usedH usedL fetched'
        dsimp only
        rw [fetched']
        obtain ⟨e, l, got⟩ : ∃ e l, evmgtqGet f' = (e, l) := ⟨_, _, rfl⟩
        obtain ⟨kept, ring, split⟩ := inv.getLow usedH got
        rw [got]
        refine ⟨kept, fun x mem => .inr (ring x mem), fun q => ?_, ?_⟩
        · rw [toHere q, ← refilled' q]
          exact split q
        · rintro rfl q ring
          have usedL' := rest_of_none inv.filledL (by rw [got])
          have none : s'.pending q = [] := by
            rcases ring with isHigh | isLow
            · exact still q (high q isHigh)
            · exact emptied' usedL' q isLow
          have before : supply (s', { st.2 with eventsH := h, eventsL := f' }) q = [] := by
            simp only [supply, usedH, usedL', none, takenFrom_nil, List.append_nil]
          exact (split q).symm.trans before
      · obtain ⟨kept, ring, split⟩ := inv.getLow usedH low
        refine ⟨kept, fun x mem => .inr (ring x mem), fun q => ?_, nofun⟩
        rw [toHere q]
        exact split q
    · obtain ⟨kept, ring, split⟩ := inv.getHigh again
      refine ⟨kept, fun x mem => .inl (ring x mem), fun q => ?_, nofun⟩
      rw [← refilled q]
      exact split q
  · obtain ⟨kept, ring, split⟩ := inv.getHigh high
    exact ⟨kept, fun x mem => .inl (ring x mem), split, nofun⟩

end Mgt

/-! ## The drains -/

/-- The rings `qepoll_wait` goes over. -/
def polledRings (numStack : Nat) : List PolledRing :=
  (List.range numStack).flatMap fun ns =>
    [⟨ns, .stackToQe, true⟩, ⟨ns, .stackToQe, false⟩, ⟨ns, .appToQe, true⟩, ⟨ns, .appToQe, false⟩]

theorem mem_polledRings {numStack : Nat} {q : PolledRing} :
    q ∈ polledRings numStack ↔ q.ns < numStack := by
  obtain ⟨ns, dire, pri⟩ := q
  cases dire <;> cases pri <;> simp [polledRings]

/-- A call of `qepoll_wait`; the application goes on until one returns 0. -/
def waitCall (numStack : Nat) (maxevents : Int) (s : AppRings) : Option (List Taken) × AppRings :=
  let ret := qepollWait numStack maxevents s
  (if ret.1 = 0 then none else some ret.2.1, ret.2.2)

/-- A call of `eventmgt_get`; the application goes on until one returns NULL. -/
def mgtCall (numStack : Nat) (st : AppRings × EventMgt) :
    Option (List Taken) × AppRings × EventMgt :=
  let ret := eventmgtGet numStack st
  (ret.1.map fun e => [e], ret.2)

/-- How many events there are, for a bound on the number of calls. -/
def AppRings.load (s : AppRings) (numStack : Nat) : Nat := total s.pending (polledRings numStack)

/-- Draining with `qepoll_wait`. -/
def qepollDrain (numStack : Nat) (maxevents : Int) (s : AppRings) : Option (List Taken) :=
  (drain (waitCall numStack maxevents) (s.load numStack + 1) s).map Prod.fst

/-- Draining with `eventmgt_get`, from `eventmgt_init` on. -/
def eventmgtDrain (numStack : Nat) (size lb : Int) (s : AppRings) : Option (List Taken) :=
  (drain (mgtCall numStack) (s.load numStack + 1) (s, eventmgtInit size lb)).map Prod.fst

/-- The same events, and the same order on each ring. -/
def Agree (out out' : List Taken) : Prop :=
  (out.map Prod.snd).Perm (out'.map Prod.snd) ∧ ∀ q, takenFrom q out = takenFrom q out'

/-- A call returns 0 when it took nothing, and then every ring is empty. -/
theorem waitCall_spec (numStack : Nat) {maxevents : Int} (one : 1 ≤ maxevents) (s : AppRings) :
    ∃ out s', waitCall numStack maxevents s = (if out = [] then none else some out, s') ∧
      Polls (fun q => q.ns < numStack) (s, []) (s', out) out ∧
      (out = [] → ∀ q, q.ns < numStack → s'.pending q = []) := by
  obtain ⟨out, s', went, polls, emptied⟩ := qepollWait_spec numStack one s
  refine ⟨out, s', ?_, polls, ?_⟩
  · simp [waitCall, went]
  · rintro rfl
    apply emptied
    rw [List.length_nil]
    omega

theorem waitCall_supplies (numStack : Nat) {maxevents : Int} (one : 1 ≤ maxevents) :
    Supplies (waitCall numStack maxevents) (fun _ => True) AppRings.pending
      (polledRings numStack) where
  keep _ _ := trivial
  none := by
    intro s _ ended q
    obtain ⟨out, s', went, polls, -⟩ := waitCall_spec numStack one s
    rw [went] at ended ⊢
    split at ended
    · rename_i empty
      have split := polls.split q
      rw [empty] at split
      exact split.symm
    · cases ended
  some := by
    intro s out _ took
    obtain ⟨out', s', went, polls, -⟩ := waitCall_spec numStack one s
    rw [went] at took ⊢
    split at took
    · cases took
    · rename_i some
      obtain rfl := Option.some.inj took
      exact ⟨some, fun e mem => mem_polledRings.mpr (polls.only e mem), polls.split⟩

/-- A call that returns 0 has found every ring empty. -/
theorem waitCall_none {numStack : Nat} {maxevents : Int} (one : 1 ≤ maxevents) {s : AppRings}
    (ended : (waitCall numStack maxevents s).1 = none) {q : PolledRing} (inside : q.ns < numStack) :
    s.pending q = [] := by
  have same := (waitCall_supplies numStack one).none s trivial ended q
  obtain ⟨out, s', went, -, emptied⟩ := waitCall_spec numStack one s
  rw [went] at ended same
  split at ended
  · rename_i empty
    rw [← same]
    exact emptied empty q inside
  · cases ended

instance (numStack : Nat) (size lb : Int) (q : PolledRing) : Decidable (OfMgt numStack size lb q) :=
  inferInstanceAs (Decidable ((_ ∧ _ ∧ _ ∧ _) ∨ (_ ∧ _ ∧ _ ∧ _)))

theorem OfMgt.inside {numStack : Nat} {size lb : Int} {q : PolledRing}
    (ring : OfMgt numStack size lb q) : q.ns < numStack := by
  rcases ring with high | low
  · exact high.1
  · exact low.1

theorem mgtCall_supplies (numStack : Nat) (size lb : Int) :
    Supplies (mgtCall numStack) (Buffered numStack size lb) supply
      ((polledRings numStack).filter fun q => OfMgt numStack size lb q) where
  keep st inv := (eventmgtGet_spec inv).1
  none := by
    intro st inv ended q
    have split := (eventmgtGet_spec inv).2.2.1 q
    rw [Option.map_eq_none_iff.mp ended] at split
    exact split.symm
  some := by
    intro st out inv took
    obtain ⟨e, got, rfl⟩ := Option.map_eq_some_iff.mp took
    obtain ⟨-, ring, split, -⟩ := eventmgtGet_spec inv
    refine ⟨List.cons_ne_nil e [], ?_, fun q => ?_⟩
    · intro x mem
      obtain rfl := List.mem_singleton.mp mem
      have of := ring x (by rw [got]; rfl)
      exact List.mem_filter.mpr ⟨mem_polledRings.mpr of.inside, by simpa using of⟩
    · have step := split q
      rw [got] at step
      exact step

/-- What the application gets with `qepoll_wait`: all there is. -/
theorem qepollDrain_spec (numStack : Nat) {maxevents : Int} (one : 1 ≤ maxevents) (s : AppRings) :
    ∃ out, qepollDrain numStack maxevents s = some out ∧
      ∀ q, takenFrom q out = if q.ns < numStack then s.pending q else [] := by
  obtain ⟨out, last, drained, -, ended, only, split⟩ :=
    drain_ends (waitCall_supplies numStack one) (s.load numStack + 1) s trivial (Nat.lt_succ_self _)
  refine ⟨out, by rw [qepollDrain, drained]; rfl, fun q => ?_⟩
  split
  · rename_i inside
    rw [split q, waitCall_none one ended inside, List.append_nil]
  · rename_i outside
    apply takenFrom_eq_nil
    rintro e mem rfl
    exact outside (mem_polledRings.mp (only e mem))

/-- What the application gets with `eventmgt_get`: what is on the rings it reads. -/
theorem eventmgtDrain_spec (numStack : Nat) (size lb : Int) (s : AppRings) :
    ∃ out, eventmgtDrain numStack size lb s = some out ∧
      ∀ q, takenFrom q out = if OfMgt numStack size lb q then s.pending q else [] := by
  have start : Buffered numStack size lb (s, eventmgtInit size lb) :=
    ⟨rfl, rfl, nofun, nofun, nofun, nofun⟩
  have fresh : ∀ q, supply (s, eventmgtInit size lb) q = s.pending q := fun _ => rfl
  have enough : total (supply (s, eventmgtInit size lb))
      ((polledRings numStack).filter fun q => OfMgt numStack size lb q) < s.load numStack + 1 :=
    Nat.lt_succ_of_le (total_filter_le _ s.pending (polledRings numStack))
  obtain ⟨out, last, drained, inv, ended, only, split⟩ :=
    drain_ends (mgtCall_supplies numStack size lb) (s.load numStack + 1) _ start enough
  refine ⟨out, by rw [eventmgtDrain, drained]; rfl, fun q => ?_⟩
  split
  · rename_i ring
    have same := (mgtCall_supplies numStack size lb).none last inv ended q
    have none := (eventmgtGet_spec inv).2.2.2 (Option.map_eq_none_iff.mp ended) q ring
    rw [← fresh q, split q, ← same]
    exact (List.append_nil _).symm.trans (congrArg _ none.symm)
  · rename_i outside
    apply takenFrom_eq_nil
    rintro e mem rfl
    exact outside (by simpa using (List.mem_filter.mp (only e mem)).2)

/-- Every event that waits is on a ring that `eventmgt_get` reads: none is on a `qs_chan`, and a
buffer it was given no room for has no use. -/
structure Reached (numStack : Nat) (size lb : Int) (s : AppRings) : Prop where
  qs : ∀ ns < numStack, ∀ pri, s.pending ⟨ns, .appToQe, pri⟩ = []
  high : size ≤ 0 → ∀ ns < numStack, s.pending ⟨ns, .stackToQe, true⟩ = []
  low : lb ≤ 0 → ∀ ns < numStack, s.pending ⟨ns, .stackToQe, false⟩ = []

theorem reached_iff {numStack : Nat} {size lb : Int} {s : AppRings} :
    Reached numStack size lb s ↔
      ∀ q : PolledRing, q.ns < numStack → ¬ OfMgt numStack size lb q → s.pending q = [] := by
  constructor
  · rintro reached ⟨ns, dire, pri⟩ inside unread
    cases dire with
    | appToQe => exact reached.qs ns inside pri
    | stackToQe =>
        cases pri with
        | true =>
            apply reached.high _ ns inside
            by_contra room
            exact unread (.inl ⟨inside, rfl, rfl, by omega⟩)
        | false =>
            apply reached.low _ ns inside
            by_contra room
            exact unread (.inr ⟨inside, rfl, rfl, by omega⟩)
  · intro all
    refine ⟨fun ns inside pri => all _ inside ?_, fun noRoom ns inside => all _ inside ?_,
      fun noRoom ns inside => all _ inside ?_⟩
    · rintro (⟨_, dire, _⟩ | ⟨_, dire, _⟩) <;> cases dire
    · rintro (⟨_, _, _, room⟩ | ⟨_, _, pri, _⟩)
      · omega
      · cases pri
    · rintro (⟨_, _, pri, _⟩ | ⟨_, _, _, room⟩)
      · cases pri
      · omega

/-- **The two consumers agree exactly when no event waits where `eventmgt_get` does not look.**
Both drains end. -/
theorem consumers_agree (numStack : Nat) (s : AppRings) (size lb maxevents : Int)
    (one : 1 ≤ maxevents) :
    ∃ byGet byWait, eventmgtDrain numStack size lb s = some byGet ∧
      qepollDrain numStack maxevents s = some byWait ∧
      (Agree byGet byWait ↔ Reached numStack size lb s) := by
  obtain ⟨byGet, gotten, ofGet⟩ := eventmgtDrain_spec numStack size lb s
  obtain ⟨byWait, waited, ofWait⟩ := qepollDrain_spec numStack one s
  refine ⟨byGet, byWait, gotten, waited, ?_⟩
  rw [reached_iff]
  constructor
  · intro agree q inside unread
    have same := agree.2 q
    rw [ofGet q, ofWait q, if_neg unread, if_pos inside] at same
    exact same.symm
  · intro reached
    have same : ∀ q, takenFrom q byGet = takenFrom q byWait := by
      intro q
      rw [ofGet q, ofWait q]
      by_cases ring : OfMgt numStack size lb q
      · rw [if_pos ring, if_pos ring.inside]
      · rw [if_neg ring]
        split
        · rename_i inside
          exact (reached q inside ring).symm
        · rfl
    exact ⟨(perm_of_takenFrom same).map Prod.snd, same⟩

/-- One event for socket 5.  `qepoll_ctl` raises it on `qs_chan` when it waited for the socket
to be registered. -/
def oneEvent (dire : QeventDire) : AppRings where
  queued q :=
    if q = PolledRing.mk 0 dire true then
      [{ pri := true, sockid := 5, events := qEpollin, data := 9 }]
    else []
  qepoll _ := qEpollin
  reg _ := {}

theorem consumers_agree_raised :
    ∃ byGet byWait, eventmgtDrain 1 64 128 (oneEvent .stackToQe) = some byGet ∧
      qepollDrain 1 1 (oneEvent .stackToQe) = some byWait ∧ Agree byGet byWait := by
  obtain ⟨byGet, byWait, gotten, waited, agree⟩ :=
    consumers_agree 1 (oneEvent .stackToQe) 64 128 1 le_rfl
  refine ⟨byGet, byWait, gotten, waited, agree.mpr ⟨?_, ?_, ?_⟩⟩
  · decide
  · decide
  · decide

/-- `eventmgt_get` never hands out the event that `qepoll_ctl` raised. -/
theorem app_event_missed :
    eventmgtDrain 1 64 128 (oneEvent .appToQe) = some [] ∧
      qepollDrain 1 128 (oneEvent .appToQe) = some [(⟨0, .appToQe, true⟩,
        { pri := true, sockid := 5, events := qEpollin, data := 9 })] ∧
      ¬ Agree [] [(⟨0, .appToQe, true⟩,
        { pri := true, sockid := 5, events := qEpollin, data := 9 })] := by
  refine ⟨by decide +kernel, by decide +kernel, ?_⟩
  rintro ⟨perm, -⟩
  exact absurd perm.length_eq (by decide)

end QStack
