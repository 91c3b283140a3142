/-
# QStack.WaitPri -- qepoll_wait_pri goes over the wrong channels

`qepoll_wait_pri` is `qepoll_wait` with two buffers, one for each priority.  Its outer loop, though,
counts applications, and the channel it takes of each is number `efd`: it goes over the channels
from the stack `efd` to every application, while `qepoll_wait` goes over those from every stack to
the application `efd`.  The two have one channel in common.  Nor does it write `*high_num` and
`*low_num`.

The loops are those of `qepoll_wait` (`qepollWaitPri_eq`), so it hands out the first `maxevents`
valid events of its own channels, sorted into the two buffers.  `waitPri_law` says on which states
and for which values of the two numbers that is what it should hand out.
-/
import QStack.Channels
import QStack.EventPriority

namespace QStack

set_option autoImplicit false

open Lib.Drain Lib.Quota AppRings

/-- The rings, and the events copied to `events_h` and to `events_l`. -/
structure PriBatch where
  rings : AppRings
  eventsH : List Taken
  eventsL : List Taken

namespace PriBatch

/-- `qepoll_qevent`, with the buffer of the ring's priority. -/
def qepollQevent (q : PolledRing) (b : PriBatch) : PriBatch :=
  if q.pri then
    let st := AppRings.qepollQevent q (b.rings, b.eventsH)
    { b with rings := st.1, eventsH := st.2 }
  else
    let st := AppRings.qepollQevent q (b.rings, b.eventsL)
    { b with rings := st.1, eventsL := st.2 }

/-- The test of every loop: `ev_cnt_h + ev_cnt_l < maxevents` -/
def More (q : PolledRing) (maxevents : Int) (b : PriBatch) : Prop :=
  b.rings.queued q ≠ [] ∧ (b.eventsH.length + b.eventsL.length : Int) < maxevents

instance (q : PolledRing) (maxevents : Int) (b : PriBatch) : Decidable (More q maxevents b) :=
  inferInstanceAs (Decidable (_ ∧ _))

def pollLoop (q : PolledRing) (maxevents : Int) : Nat → PriBatch → PriBatch
  | 0, b => b
  | n + 1, b => if b.More q maxevents then pollLoop q maxevents n (b.qepollQevent q) else b

def pollRing (q : PolledRing) (maxevents : Int) (b : PriBatch) : PriBatch :=
  pollLoop q maxevents (b.rings.queued q).length b

def pollLowLoop (ns : Nat) (dire : QeventDire) (maxevents : Int) : Nat → PriBatch → PriBatch
  | 0, b => b
  | n + 1, b =>
      if b.More ⟨ns, dire, false⟩ maxevents then
        pollLowLoop ns dire maxevents n
          (pollRing ⟨ns, dire, true⟩ maxevents (b.qepollQevent ⟨ns, dire, false⟩))
      else b

def pollChan (maxevents : Int) (ns : Nat) (b : PriBatch) (dire : QeventDire) : PriBatch :=
  let high := pollRing ⟨ns, dire, true⟩ maxevents b
  pollLowLoop ns dire maxevents (high.rings.queued ⟨ns, dire, false⟩).length high

/-- The body of the outer loop, for `g_qepoll[ns]`. -/
def pollServer (maxevents : Int) (b : PriBatch) (ns : Nat) : PriBatch :=
  [QeventDire.stackToQe, .appToQe].foldl (pollChan maxevents ns) b

/-- The events of a batch sorted into the two buffers. -/
def sorted (st : Batch) : PriBatch := ⟨st.1, ofPri true st.2, ofPri false st.2⟩

/-! ## The loops are those of qepoll_wait -/

theorem qepollQevent_out (q : PolledRing) (s : AppRings) :
    ∃ new, (∀ e ∈ new, e.1 = q) ∧ (∀ out, AppRings.qepollQevent q (s, out) =
      ((AppRings.qepollQevent q (s, [])).1, out ++ new)) := by
  unfold AppRings.qepollQevent
  dsimp only
  cases s.queued q with
  | nil => exact ⟨[], by simp, by simp⟩
  | cons x rest =>
      dsimp only
      by_cases valid : s.validity x = true
      · simp only [if_pos valid]
        exact ⟨[(q, x)], by simp, fun _ => rfl⟩
      · simp only [if_neg valid]
        exact ⟨[], by simp, by simp⟩

theorem qepollQevent_sorted (q : PolledRing) (st : Batch) :
    (sorted st).qepollQevent q = sorted (AppRings.qepollQevent q st) := by
  obtain ⟨s, out⟩ := st
  obtain ⟨new, source, took⟩ := qepollQevent_out q s
  unfold sorted qepollQevent
  dsimp only
  rw [took out, took (ofPri true out), took (ofPri false out), ofPri_append, ofPri_append]
  cases pri : q.pri with
  | true =>
      have all : ofPri true new = new := ofPri_same fun e mem => by rw [source e mem, pri]
      have none : ofPri false new = [] := ofPri_other fun e mem => by rw [source e mem, pri]; rfl
      rw [if_pos rfl, all, none, List.append_nil]
  | false =>
      have all : ofPri false new = new := ofPri_same fun e mem => by rw [source e mem, pri]
      have none : ofPri true new = [] := ofPri_other fun e mem => by rw [source e mem, pri]; rfl
      rw [if_neg Bool.false_ne_true, all, none, List.append_nil]

theorem sorted_length (out : List Taken) :
    (ofPri true out).length + (ofPri false out).length = out.length := by
  induction out with
  | nil => rfl
  | cons e out ih =>
      cases pri : e.1.pri with
      | true =>
          have high : ofPri true (e :: out) = e :: ofPri true out :=
            List.filter_cons_of_pos (by simp [pri])
          have low : ofPri false (e :: out) = ofPri false out :=
            List.filter_cons_of_neg (by simp [pri])
          rw [high, low, List.length_cons, List.length_cons]
          omega
      | false =>
          have high : ofPri true (e :: out) = ofPri true out :=
            List.filter_cons_of_neg (by simp [pri])
          have low : ofPri false (e :: out) = e :: ofPri false out :=
            List.filter_cons_of_pos (by simp [pri])
          rw [high, low, List.length_cons, List.length_cons]
          omega

theorem more_sorted {q : PolledRing} {maxevents : Int} {st : Batch} :
    (sorted st).More q maxevents ↔ AppRings.More q maxevents st := by
  have length := sorted_length st.2
  unfold More AppRings.More sorted
  dsimp only
  rw [← length]
  push_cast
  exact Iff.rfl

theorem pollLoop_sorted (q : PolledRing) (maxevents : Int) (n : Nat) (st : Batch) :
    pollLoop q maxevents n (sorted st) = sorted (AppRings.pollLoop q maxevents n st) := by
  induction n generalizing st with
  | zero => rfl
  | succ n ih =>
      rw [pollLoop, AppRings.pollLoop]
      by_cases more : AppRings.More q maxevents st
      · rw [if_pos more, if_pos (more_sorted.mpr more), qepollQevent_sorted, ih]
      · rw [if_neg more, if_neg (fun again => more (more_sorted.mp again))]

theorem pollLowLoop_sorted (ns : Nat) (dire : QeventDire) (maxevents : Int) (n : Nat) (st : Batch) :
    pollLowLoop ns dire maxevents n (sorted st) =
      sorted (AppRings.pollLowLoop ns dire maxevents n st) := by
  induction n generalizing st with
  | zero => rfl
  | succ n ih =>
      rw [pollLowLoop, AppRings.pollLowLoop]
      by_cases more : AppRings.More ⟨ns, dire, false⟩ maxevents st
      · rw [if_pos more, if_pos (more_sorted.mpr more), qepollQevent_sorted, ← ih]
        exact congrArg _ (pollLoop_sorted _ _ _ _)
      · rw [if_neg more, if_neg (fun again => more (more_sorted.mp again))]

theorem pollChan_sorted (maxevents : Int) (ns : Nat) (dire : QeventDire) (st : Batch) :
    pollChan maxevents ns (sorted st) dire = sorted (AppRings.pollChan maxevents ns st dire) := by
  have high : pollRing ⟨ns, dire, true⟩ maxevents (sorted st) =
      sorted (AppRings.pollRing ⟨ns, dire, true⟩ maxevents st) := pollLoop_sorted _ _ _ _
  unfold pollChan
  rw [high]
  exact pollLowLoop_sorted _ _ _ _ _

/-- **The loops of `qepoll_wait_pri`** are those of `qepoll_wait`. -/
theorem foldl_sorted (maxevents : Int) (servers : List Nat) (st : Batch) :
    servers.foldl (pollServer maxevents) (sorted st) =
      sorted (servers.foldl (pollStack maxevents) st) := by
  induction servers generalizing st with
  | nil => rfl
  | cons ns servers ih =>
      have server : pollServer maxevents (sorted st) ns = sorted (pollStack maxevents st ns) := by
        change pollChan maxevents ns (pollChan maxevents ns (sorted st) .stackToQe) .appToQe = _
        rw [pollChan_sorted, pollChan_sorted]
        rfl
      rw [List.foldl_cons, List.foldl_cons, server, ih]

end PriBatch

namespace Channels

/-- What `qepoll_wait_pri` returns, with `*high_num` and `*low_num` after it and the rings it goes
over. -/
structure PriResult where
  ret : Int
  eventsH : List Taken
  eventsL : List Taken
  highNum : Int
  lowNum : Int
  rings : AppRings

/-- The rings `qepoll_wait_pri` goes over: number `efd` of each application `ns`. -/
def priRings (s : Channels) (efd : Nat) : AppRings where
  queued q := s.queued (chanBase s.numStack s.numServer q.dire q.ns + efd) q.pri
  qepoll := s.qepoll
  reg := s.reg

/-- `qepoll_wait_pri` with `timeout <= 0`; `highNum` and `lowNum` are what the two pointers find. -/
def qepollWaitPri (s : Channels) (efd : Nat) (maxevents highNum lowNum : Int) :
    Except Stop PriResult :=
  if 0 < s.numServer ∧ maxFlowNum ≤ efd then
    .ok ⟨-ebadf, [], [], highNum, lowNum, s.priRings efd⟩
  else if 0 < s.numServer ∧ maxevents ≤ 0 then
    .ok ⟨-einval, [], [], highNum, lowNum, s.priRings efd⟩
  else if ∀ ns < s.numServer, ∀ d ∈ [QeventDire.stackToQe, .appToQe],
      chanBase s.numStack s.numServer d ns + efd < (qAllocAchan s.numStack s.numServer).length then
    let b := (List.range s.numServer).foldl (PriBatch.pollServer maxevents) ⟨s.priRings efd, [], []⟩
    .ok ⟨b.eventsH.length + b.eventsL.length, b.eventsH, b.eventsL, highNum, lowNum, b.rings⟩
  else .error .fault

end Channels

/-- The valid events on all rings of a number of stacks or applications, in polling order. -/
def AppRings.waiting (r : AppRings) (n : Nat) : List Taken :=
  (r.entries (polledRings n)).filter r.valid

/-- A call returns the first of them. -/
theorem qepollWait_waiting (n : Nat) {maxevents : Int} (one : 1 ≤ maxevents) (r : AppRings) :
    ∃ r', AppRings.qepollWait n maxevents r =
      ((((r.waiting n).take maxevents.toNat).length : Int), (r.waiting n).take maxevents.toNat,
        r') := by
  obtain ⟨out, r', went, eq, -⟩ := qepollWait_examines n one r
  have first : out = (r.waiting n).take maxevents.toNat := by
    rw [eq, examined, upTo_filter, AppRings.waiting]
  exact ⟨r', first ▸ went⟩

/-- The events of one stack or application. -/
theorem entries_of (s : AppRings) {n k : Nat} (inside : k < n) :
    (s.entries (polledRings n)).filter (fun e => decide (e.1.ns = k)) = s.entries (stackRings k) := by
  induction n with
  | zero => exact absurd inside (Nat.not_lt_zero k)
  | succ n ih =>
      have split : s.entries (polledRings (n + 1)) =
          s.entries (polledRings n) ++ s.entries (stackRings n) := by
        rw [polledRings_succ]
        exact List.flatMap_append
      rw [split, List.filter_append]
      by_cases last : k = n
      · subst last
        have before : (s.entries (polledRings k)).filter (fun e => decide (e.1.ns = k)) = [] := by
          refine List.filter_eq_nil_iff.mpr fun e mem here => ?_
          have less := mem_polledRings.mp (Examines.mem_entries mem)
          rw [of_decide_eq_true here] at less
          exact Nat.lt_irrefl k less
        rw [before, List.nil_append]
        exact List.filter_eq_self.mpr fun e mem =>
          decide_eq_true (stackRings_ns (Examines.mem_entries mem))
      · have after : (s.entries (stackRings n)).filter (fun e => decide (e.1.ns = k)) = [] := by
          refine List.filter_eq_nil_iff.mpr fun e mem here => last ?_
          rw [← of_decide_eq_true here]
          exact stackRings_ns (Examines.mem_entries mem)
        rw [after, List.append_nil, ih (by omega)]

theorem waiting_of (r : AppRings) {n k : Nat} (inside : k < n) :
    (r.waiting n).filter (fun e => decide (e.1.ns = k)) =
      (r.entries (stackRings k)).filter r.valid := by
  rw [AppRings.waiting, List.filter_filter, ← entries_of r inside, List.filter_filter]
  exact List.filter_congr fun e _ => Bool.and_comm _ _

theorem sorted_perm (events : List Taken) :
    (ofPri true events ++ ofPri false events).Perm events := by
  have other : ofPri false events = events.filter fun e => !(e.1.pri == true) := by
    refine List.filter_congr fun e _ => ?_
    cases e.1.pri <;> rfl
  rw [other]
  exact List.filter_append_perm _ events

namespace Channels

variable {s : Channels} {efd : Nat} {maxevents : Int}

/-- The first valid events on the rings `qepoll_wait_pri` goes over. -/
def firstWaiting (s : Channels) (efd : Nat) (maxevents : Int) : List Taken :=
  ((s.priRings efd).waiting s.numServer).take maxevents.toNat

/-- The access is inside the array for every application only if `efd` is also a stack. -/
theorem inside_iff (some_ : 0 < s.numServer) :
    (∀ ns < s.numServer, ∀ d ∈ [QeventDire.stackToQe, .appToQe],
      chanBase s.numStack s.numServer d ns + efd <
        (qAllocAchan s.numStack s.numServer).length) ↔ efd < s.numStack := by
  constructor
  · intro all
    obtain ⟨last, count⟩ : ∃ last, s.numServer = last + 1 :=
      Nat.exists_eq_succ_of_ne_zero (Nat.ne_of_gt some_)
    have bound := all last (by omega) .appToQe (by simp)
    rw [qAllocAchan_length, count] at bound
    have whole : 2 * s.numStack * (last + 1) =
        chanBase s.numStack (last + 1) .appToQe last + s.numStack := by
      unfold chanBase
      rw [Nat.mul_comm 2, Nat.mul_assoc, ← Nat.mul_succ]
      congr 1
      omega
    omega
  · intro stack ns app d _
    exact chanBase_inside stack app

/-- **What `qepoll_wait_pri` does.** -/
theorem qepollWaitPri_eq (highNum lowNum : Int) (app : efd < s.numServer)
    (served : efd < maxServerNum) (one : 1 ≤ maxevents) :
    (efd < s.numStack → ∃ rings, s.qepollWaitPri efd maxevents highNum lowNum =
      .ok ⟨(s.firstWaiting efd maxevents).length, ofPri true (s.firstWaiting efd maxevents),
        ofPri false (s.firstWaiting efd maxevents), highNum, lowNum, rings⟩) ∧
    (¬ efd < s.numStack → s.qepollWaitPri efd maxevents highNum lowNum = .error .fault) := by
  have small : ¬ (0 < s.numServer ∧ maxFlowNum ≤ efd) := by
    unfold maxServerNum at served
    unfold maxFlowNum
    omega
  have inside := @inside_iff s efd (by omega)
  unfold qepollWaitPri
  rw [if_neg small, if_neg (by omega)]
  refine ⟨fun stack => ?_, fun no => if_neg fun all => no (inside.mp all)⟩
  rw [if_pos (inside.mpr stack)]
  obtain ⟨r', went⟩ := qepollWait_waiting s.numServer one (s.priRings efd)
  unfold AppRings.qepollWait at went
  rw [if_neg (by omega)] at went
  have loops := PriBatch.foldl_sorted maxevents (List.range s.numServer) (s.priRings efd, [])
  have start : PriBatch.sorted (s.priRings efd, []) = ⟨s.priRings efd, [], []⟩ := rfl
  generalize (List.range s.numServer).foldl (pollStack maxevents) (s.priRings efd, []) = st at *
  obtain ⟨-, rest⟩ := Prod.ext_iff.mp went
  obtain ⟨out, -⟩ := Prod.ext_iff.mp rest
  change st.2 = s.firstWaiting efd maxevents at out
  rw [start] at loops
  rw [loops]
  refine ⟨st.1, ?_⟩
  have length := PriBatch.sorted_length st.2
  unfold PriBatch.sorted
  rw [← out, ← length]
  push_cast
  rfl

/-- `maxevents` is enough for all events on the channels of either call. -/
def NothingCut (s : Channels) (efd : Nat) (maxevents : Int) : Prop :=
  (((s.rings efd).waiting s.numStack).length : Int) ≤ maxevents ∧
    (((s.priRings efd).waiting s.numServer).length : Int) ≤ maxevents

/-- What is promised of a call: the events of the application `efd`, in the buffers of their
priorities, with their numbers, and all of them if nothing is cut off. -/
def WaitPriMeets (s : Channels) (efd : Nat) (maxevents highNum lowNum : Int) : Prop :=
  ∃ r, s.qepollWaitPri efd maxevents highNum lowNum = .ok r ∧
    r.ret ≤ maxevents ∧ r.highNum + r.lowNum = r.ret ∧
    r.highNum = r.eventsH.length ∧ r.lowNum = r.eventsL.length ∧
    (∀ e ∈ r.eventsH, e.1.pri = true) ∧ (∀ e ∈ r.eventsL, e.1.pri = false) ∧
    (∀ e ∈ r.eventsH ++ r.eventsL, e.1.ns = efd) ∧
    (NothingCut s efd maxevents → ∀ ret events s', s.qepollWait efd maxevents = .ok (ret, events, s') →
      ((r.eventsH ++ r.eventsL).map Prod.snd).Perm (events.map Prod.snd))

/-- Where the call meets that: the two numbers are right beforehand, no other application has an
event among the first ones, and none is missed on the channels of other stacks. -/
structure RightPlace (s : Channels) (efd : Nat) (maxevents highNum lowNum : Int) : Prop where
  stack : efd < s.numStack
  high : highNum = (ofPri true (s.firstWaiting efd maxevents)).length
  low : lowNum = (ofPri false (s.firstWaiting efd maxevents)).length
  own : ∀ e ∈ s.firstWaiting efd maxevents, e.1.ns = efd
  others : NothingCut s efd maxevents → ∀ e ∈ (s.rings efd).waiting s.numStack, e.1.ns = efd

/-- The channel both calls go over. -/
theorem common_channel (s : Channels) (efd : Nat) :
    ((s.rings efd).entries (stackRings efd)).filter (s.rings efd).valid =
      ((s.priRings efd).entries (stackRings efd)).filter (s.priRings efd).valid := rfl

/-- With all events of one application, the two calls agree when that is all there is. -/
theorem agree_iff (app : efd < s.numServer) (stack : efd < s.numStack)
    (own : ∀ e ∈ (s.priRings efd).waiting s.numServer, e.1.ns = efd) :
    (((s.priRings efd).waiting s.numServer).map Prod.snd).Perm
        (((s.rings efd).waiting s.numStack).map Prod.snd) ↔
      ∀ e ∈ (s.rings efd).waiting s.numStack, e.1.ns = efd := by
  have mine : (s.priRings efd).waiting s.numServer =
      ((s.rings efd).waiting s.numStack).filter fun e => decide (e.1.ns = efd) := by
    rw [waiting_of _ stack, common_channel, ← waiting_of _ app]
    exact (List.filter_eq_self.mpr fun e mem => decide_eq_true (own e mem)).symm
  rw [mine]
  constructor
  · intro perm e mem
    have lengths := perm.length_eq
    rw [List.length_map, List.length_map] at lengths
    exact of_decide_eq_true (List.length_filter_eq_length_iff.mp lengths e mem)
  · intro all
    rw [List.filter_eq_self.mpr fun e mem => decide_eq_true (all e mem)]

/-- **`qepoll_wait_pri` does what it promises** exactly there. -/
theorem waitPri_law (s : Channels) {efd : Nat} {maxevents : Int} (highNum lowNum : Int)
    (app : efd < s.numServer) (served : efd < maxServerNum) (one : 1 ≤ maxevents) :
    WaitPriMeets s efd maxevents highNum lowNum ↔ RightPlace s efd maxevents highNum lowNum := by
  obtain ⟨inside, outside⟩ := qepollWaitPri_eq highNum lowNum app served one
  obtain ⟨r', waited⟩ := qepollWait_waiting s.numStack one (s.rings efd)
  have wait : s.qepollWait efd maxevents =
      .ok ((((s.rings efd).waiting s.numStack).take maxevents.toNat).length,
        ((s.rings efd).waiting s.numStack).take maxevents.toNat, s.setRings efd r') := by
    unfold qepollWait
    rw [if_neg (by omega), if_neg (by omega), waited]
  have whole : NothingCut s efd maxevents →
      ((s.rings efd).waiting s.numStack).take maxevents.toNat = (s.rings efd).waiting s.numStack ∧
        s.firstWaiting efd maxevents = (s.priRings efd).waiting s.numServer := by
    rintro ⟨fits, fits'⟩
    exact ⟨List.take_of_length_le (by omega), List.take_of_length_le (by omega)⟩
  have perm := sorted_perm (s.firstWaiting efd maxevents)
  constructor
  · rintro ⟨r, ran, -, -, high, low, -, -, own, agree⟩
    by_cases stack : efd < s.numStack
    · obtain ⟨rings, eq⟩ := inside stack
      obtain rfl := Except.ok.inj (ran.symm.trans eq)
      dsimp only at high low own agree
      have mine : ∀ e ∈ s.firstWaiting efd maxevents, e.1.ns = efd :=
        fun e mem => own e (perm.mem_iff.mpr mem)
      refine ⟨stack, high, low, mine, fun fits => ?_⟩
      have same := agree fits _ _ _ wait
      obtain ⟨all, all'⟩ := whole fits
      rw [all, all'] at same
      rw [all'] at perm mine
      exact (agree_iff app stack mine).mp ((perm.map Prod.snd).symm.trans same)
    · rw [outside stack] at ran
      cases ran
  · rintro ⟨stack, high, low, own, others⟩
    obtain ⟨rings, eq⟩ := inside stack
    have length := PriBatch.sorted_length (s.firstWaiting efd maxevents)
    have bound : (s.firstWaiting efd maxevents).length ≤ maxevents.toNat := List.length_take_le _ _
    refine ⟨_, eq, ?_, ?_, high, low, ?_, ?_, ?_, ?_⟩
    · dsimp only
      omega
    · dsimp only
      omega
    · exact fun e mem => beq_iff_eq.mp (List.mem_filter.mp mem).2
    · exact fun e mem => beq_iff_eq.mp (List.mem_filter.mp mem).2
    · exact fun e mem => own e (perm.mem_iff.mp mem)
    · intro fits ret events s' ran
      obtain ⟨-, rest⟩ := Prod.ext_iff.mp (Except.ok.inj (ran.symm.trans wait))
      obtain ⟨rfl, -⟩ := Prod.ext_iff.mp rest
      obtain ⟨all, all'⟩ := whole fits
      rw [all]
      rw [all'] at perm own
      dsimp only
      rw [all']
      exact (perm.map Prod.snd).trans ((agree_iff app stack own).mpr (others fits))

/-- Two stacks and two applications; one event on the channel from a stack to an application. -/
def oneFor (stack app : Nat) : Channels :=
  { fresh 2 2 4 with
    queued := fun i pri => if i = 2 * app + stack ∧ pri = true then [⟨true, 5, 1, 0⟩] else []
    qepoll := fun _ => 1 }

/-- An event of stack 0 for application 0, and `*high_num` is 1 already. -/
theorem waitPri_law_common : WaitPriMeets (oneFor 0 0) 0 8 1 0 :=
  (waitPri_law (oneFor 0 0) 1 0 (by decide) (by decide) (by decide)).mpr
    ⟨by decide, by decide, by decide, by decide, fun _ => by decide⟩

/-- **The event of another application**: `qepoll_wait_pri` of application 0 hands out the event of
application 1; and the numbers stay as they were. -/
theorem waitPri_wrong : ¬ ∀ (s : Channels) (efd : Nat) (maxevents highNum lowNum : Int),
    efd < s.numServer → efd < maxServerNum → 1 ≤ maxevents →
      WaitPriMeets s efd maxevents highNum lowNum := by
  intro all
  obtain ⟨r, ran, -, -, -, -, -, -, own, -⟩ :=
    all (oneFor 0 1) 0 8 1 0 (by decide) (by decide) (by decide)
  obtain ⟨rings, eq⟩ := (qepollWaitPri_eq (s := oneFor 0 1) 1 0 (by decide) (by decide)
    (by decide : (1 : Int) ≤ 8)).1 (by decide : 0 < 2)
  obtain rfl := Except.ok.inj (ran.symm.trans eq)
  dsimp only at own
  exact absurd (own (⟨1, .stackToQe, true⟩, ⟨true, 5, 1, 0⟩) (by decide)) (by decide)

end Channels

end QStack
