/-
# QStack.TimerOrder -- which streams a check of a timer list takes, and timewait_list

The three checks walk their list from the front and stop at the first stream whose time has not
come.  Each is here the fold of its handler over the front part of the list that is due
(`timewaitScan`, `timeoutScan`, `rtoScan`); whether that is all that is due is a question about the
order of the list.

`timewait_list` is in the order of its deadlines, since every deadline is set `TCP_TIMEWAIT` ahead
of a clock that does not go back, and its stream is moved to the end.  `timewait_law` is this over
runs, with the times as they are and not as the counter shows them.  The counter wraps, and a stream
that is not looked at for 2^31 milliseconds after its time is not found due (`unseen_stays`).
-/
import QStack.TimerLists
import QStack.Lib.Deadline
import QStack.Lib.Run

namespace QStack

set_option autoImplicit false

namespace Timers

variable {n : Nat}

/-! ## What a check takes -/

section Scan

variable {s : Timers n} {l : Linked n}

/-- Serving one stream leaves the others alone. -/
theorem serve_other (s : Timers n) {id j : Fin n} (other : j ≠ id) (f : Cx → Cx) :
    (s.serve id f).streams j = s.streams j := by
  unfold serve tcpStreamDestroy
  split
  · rw [on_other _ _ other, on_other _ _ other]
  · exact on_other _ _ other

/-- The front of the list is what a scan takes first; the rest is judged as before. -/
theorem scan_rest {walk : Fin n} {xs : List (Fin n)} (fresh : walk ∉ xs)
    (test : TcpStream → Bool) (f : Cx → Cx) :
    xs.takeWhile (fun id => test ((s.serve walk f).streams id)) =
      xs.takeWhile fun id => test (s.streams id) := by
  refine Lib.Deadline.takeWhile_congr fun id mem => ?_
  have other : id ≠ walk := fun same => fresh (same ▸ mem)
  rw [serve_other s other f]

/-- `timewait_list_check` serves the front of the list, as far as it is due. -/
theorem Threaded.timewaitScan (curTs : U32) : ∀ (fuel : Nat) {s : Timers n} {l : Linked n},
    s.Threaded l → l.timewait.length ≤ fuel →
    Timers.timewaitLoop curTs fuel l.timewait.head? s =
      (l.timewait.takeWhile fun id => !(curTs - (s.streams id).tsTwExpire).slt 0).foldl
        (fun s id => s.serve id Cx.timewaitListCheck) s := by
  intro fuel
  induction fuel with
  | zero =>
      intro s l threaded enough
      rw [List.eq_nil_of_length_eq_zero (Nat.le_zero.mp enough)]
      rfl
  | succ fuel ih =>
      intro s l threaded enough
      cases first : l.timewait with
      | nil => rfl
      | cons walk xs =>
          have on : (s.streams walk).onTimewaitList = true := by
            refine (threaded.member walk).timewait.mpr ?_
            rw [first]
            exact List.mem_cons_self
          have next : s.lists.timer.next walk = xs.head? := by
            have chain := threaded.chained.timer.chain .timewait
            rw [show l.heads .timewait = walk :: xs from first] at chain
            exact chain.next_eq
          have fresh : walk ∉ xs := (List.nodup_cons.mp (first ▸ threaded.chained.timewait_nodup)).1
          rw [List.head?_cons, Timers.timewaitLoop, if_pos on, List.takeWhile_cons]
          cases due : (curTs - (s.streams walk).tsTwExpire).slt 0 with
          | true => rfl
          | false =>
              obtain ⟨l', threaded', rfl⟩ := threaded.timewaitExpired first
              rw [first, List.length_cons] at enough
              simp only [Bool.false_eq_true, if_false, Bool.not_false, if_true, List.foldl_cons]
              rw [next, ih threaded' (by omega),
                scan_rest fresh fun st => !(curTs - st.tsTwExpire).slt 0]

/-- `timeout_list_check`, likewise. -/
theorem Threaded.timeoutScan (curTs : U32) : ∀ (fuel : Nat) {s : Timers n} {l : Linked n},
    s.Threaded l → l.timeout.length ≤ fuel →
    Timers.timeoutLoop curTs fuel l.timeout.head? s =
      (l.timeout.takeWhile fun id => !(curTs - (s.streams id).lastActiveTs).slt tcpTimeout).foldl
        (fun s id => s.serve id Cx.timeoutListCheck) s := by
  intro fuel
  induction fuel with
  | zero =>
      intro s l threaded enough
      rw [List.eq_nil_of_length_eq_zero (Nat.le_zero.mp enough)]
      rfl
  | succ fuel ih =>
      intro s l threaded enough
      cases first : l.timeout with
      | nil => rfl
      | cons walk xs =>
          have next : s.lists.timeout.next walk = xs.head? := by
            have chain := threaded.chained.timeout.chain ()
            rw [first] at chain
            exact chain.next_eq
          have fresh : walk ∉ xs := (List.nodup_cons.mp (first ▸ threaded.chained.timeout_nodup)).1
          rw [List.head?_cons, Timers.timeoutLoop, List.takeWhile_cons]
          cases due : (curTs - (s.streams walk).lastActiveTs).slt tcpTimeout with
          | true => rfl
          | false =>
              obtain ⟨l', threaded', rfl⟩ := threaded.timeoutExpired first
              rw [first, List.length_cons] at enough
              simp only [Bool.false_eq_true, if_false, Bool.not_false, if_true, List.foldl_cons]
              rw [next, ih threaded' (by omega),
                scan_rest fresh fun st => !(curTs - st.lastActiveTs).slt tcpTimeout]

/-- What `rto_list_check` does with a stream, unless the process has ended. -/
def rtoServe (curTs : U32) (room : Fin n → Env) (s : Timers n) (id : Fin n) : Timers n :=
  if s.halt.isSome then s
  else s.serve id (Cx.rtoListCheck { room id with curTs := curTs })

theorem foldl_rtoServe_ended {curTs : U32} {room : Fin n → Env} (ended : s.halt.isSome = true) :
    ∀ ids : List (Fin n), ids.foldl (rtoServe curTs room) s = s := by
  intro ids
  induction ids with
  | nil => rfl
  | cons id ids ih => rw [List.foldl_cons, rtoServe, if_pos ended, ih]

/-- `rto_list_check` serves the front of the list, as far as it is due, and at most `cnt` of it. -/
theorem Threaded.rtoScan (curTs : U32) (room : Fin n → Env) : ∀ (cnt : Nat) {s : Timers n}
    {l : Linked n}, s.Threaded l →
    Timers.rtoLoop curTs room cnt l.rto.head? s =
      ((l.rto.takeWhile fun id => !(curTs - (s.streams id).tsRto).slt 0).take cnt).foldl
        (rtoServe curTs room) s := by
  intro cnt
  induction cnt with
  | zero =>
      intro s l _
      rw [Timers.rtoLoop]
      rfl
  | succ cnt ih =>
      intro s l threaded
      cases first : l.rto with
      | nil => rfl
      | cons walk xs =>
          rw [List.head?_cons, Timers.rtoLoop]
          split
          · rename_i ended
            exact (foldl_rtoServe_ended ended _).symm
          rename_i runs
          have next : s.lists.timer.next walk = xs.head? := by
            have chain := threaded.chained.timer.chain .rto
            rw [show l.heads .rto = walk :: xs from first] at chain
            exact chain.next_eq
          have fresh : walk ∉ xs := (List.nodup_cons.mp (first ▸ threaded.chained.rto_nodup)).1
          rw [List.takeWhile_cons]
          cases due : (curTs - (s.streams walk).tsRto).slt 0 with
          | true => rfl
          | false =>
              obtain ⟨l', threaded', rfl⟩ :=
                threaded.rtoExpired { room walk with curTs := curTs } first
              simp only [Bool.false_eq_true, if_false, Bool.not_false, if_true, List.take_succ_cons,
                List.foldl_cons]
              rw [next, ih threaded', scan_rest fresh fun st => !(curTs - st.tsRto).slt 0,
                rtoServe, if_neg runs]

end Scan

/-! ## timewait_list -/

section Timewait

variable {s : Timers n} {l : Linked n}

/-- The stream goes to the end of the list, whether it was on it or not. -/
theorem Threaded.timewaitListAdd (threaded : s.Threaded l) (id : Fin n) (env : Env) :
    ∃ l', (s.on id (Cx.timewaitListAdd env)).Threaded l' ∧
      l'.timewait = l.timewait.erase id ++ [id] := by
  refine ⟨_, threaded.on (Cx.KeepsTimers.timewaitListAdd _ (threaded.apart id)), ?_⟩
  have member := (threaded.member id).timewait
  unfold Cx.timewaitListAdd Cx.rtoListRemove
  by_cases on : (s.streams id).onTimewaitList = true
  · simp [on, Cx.emit, Cx.modify, Linked.perform]
  · have off : l.timewait.erase id = l.timewait := List.erase_of_not_mem fun mem => on (member.mpr mem)
    by_cases rto : (s.streams id).onRto = true <;>
      simp [on, rto, off, Cx.emit, Cx.modify, Linked.perform]

theorem Threaded.timewaitListRemove (threaded : s.Threaded l) (id : Fin n) :
    ∃ l', (s.on id Cx.timewaitListRemove).Threaded l' ∧ l'.timewait = l.timewait.erase id := by
  refine ⟨_, threaded.on (Cx.KeepsTimers.timewaitListRemove _ (threaded.apart id)), ?_⟩
  have member := (threaded.member id).timewait
  unfold Cx.timewaitListRemove
  by_cases on : (s.streams id).onTimewaitList = true
  · simp [on, Cx.emit, Cx.modify, Linked.perform]
  · have off : l.timewait.erase id = l.timewait := List.erase_of_not_mem fun mem => on (member.mpr mem)
    simp [on, off]

theorem timewaitListAdd_stamp (c : Cx) (env : Env) :
    (c.timewaitListAdd env).st.tsTwExpire = env.curTs + tcpTimewait := by
  unfold Cx.timewaitListAdd Cx.rtoListRemove
  dsimp only
  split_ifs <;> rfl

theorem timewaitListRemove_stamp (c : Cx) : c.timewaitListRemove.st.tsTwExpire = c.st.tsTwExpire := by
  unfold Cx.timewaitListRemove
  split <;> rfl

/-- A round of `timewait_list_check` on a stream that is due: it is closed and destroyed. -/
def destroyExpired (s : Timers n) (id : Fin n) : Timers n := s.serve id Cx.timewaitListCheck

theorem unlinkTimers_done (c : Cx) : c.unlinkTimers.st.state = c.st.state ∧
    c.unlinkTimers.st.timerFlags = ⟨false, false, false⟩ := by
  unfold Cx.unlinkTimers Cx.rtoListRemove Cx.timewaitListRemove Cx.timeoutListRemove
  by_cases first : c.st.onTimeoutList = true <;>
    by_cases second : c.st.onTimewaitList = true <;>
    by_cases third : c.st.onRto = true <;>
    simp [first, second, third, TcpStream.timerFlags]

theorem destroyExpired_destroyed (s : Timers n) (id : Fin n) :
    (s.destroyExpired id).destroyed = id :: s.destroyed := by
  unfold destroyExpired serve
  rw [if_pos (by rfl)]
  rfl

theorem destroyExpired_self (s : Timers n) (id : Fin n) :
    ((s.destroyExpired id).streams id).state = .closed ∧
      ((s.destroyExpired id).streams id).timerFlags = ⟨false, false, false⟩ := by
  unfold destroyExpired serve
  rw [if_pos (by rfl)]
  change (((s.on id Cx.timewaitListCheck).on id Cx.unlinkTimers).streams id).state = _ ∧
    (((s.on id Cx.timewaitListCheck).on id Cx.unlinkTimers).streams id).timerFlags = _
  rw [on_self, on_self]
  exact unlinkTimers_done _

/-- Every stream that was served is in the history, the last one first. -/
theorem foldl_destroyExpired_destroyed : ∀ (ids : List (Fin n)) (s : Timers n),
    (ids.foldl destroyExpired s).destroyed = ids.reverse ++ s.destroyed := by
  intro ids
  induction ids with
  | nil => exact fun _ => rfl
  | cons id ids ih =>
      intro s
      rw [List.foldl_cons, ih, destroyExpired_destroyed, List.reverse_cons, List.append_assoc]
      rfl

theorem foldl_destroyExpired_other {j : Fin n} : ∀ (ids : List (Fin n)) (s : Timers n), j ∉ ids →
    (ids.foldl destroyExpired s).streams j = s.streams j := by
  intro ids
  induction ids with
  | nil => exact fun _ _ => rfl
  | cons id ids ih =>
      intro s away
      rw [List.mem_cons, not_or] at away
      rw [List.foldl_cons, ih _ away.2]
      exact serve_other s away.1 _

theorem foldl_destroyExpired_self {j : Fin n} : ∀ (ids : List (Fin n)) (s : Timers n), j ∈ ids →
    ((ids.foldl destroyExpired s).streams j).state = .closed ∧
      ((ids.foldl destroyExpired s).streams j).timerFlags = ⟨false, false, false⟩ := by
  intro ids
  induction ids with
  | nil => exact fun _ mem => absurd mem List.not_mem_nil
  | cons id ids ih =>
      intro s mem
      rw [List.foldl_cons]
      by_cases later : j ∈ ids
      · exact ih _ later
      · obtain rfl := (List.mem_cons.mp mem).resolve_right later
        rw [foldl_destroyExpired_other ids _ later]
        exact destroyExpired_self s j

/-- The front of the list is destroyed, the rest stays. -/
theorem Threaded.foldl_destroyExpired {rest : List (Fin n)} : ∀ (ids : List (Fin n)) {s : Timers n}
    {l : Linked n}, s.Threaded l → l.timewait = ids ++ rest →
    ∃ l', (ids.foldl destroyExpired s).Threaded l' ∧ l'.timewait = rest := by
  intro ids
  induction ids with
  | nil => exact fun threaded split => ⟨_, threaded, split⟩
  | cons id ids ih =>
      intro s l threaded split
      obtain ⟨l', threaded', rest'⟩ := threaded.timewaitExpired split
      exact ih threaded' rest'

end Timewait

/-- The three calls, with the time in milliseconds as it is. -/
inductive TwCall (n : Nat) where
  | add (id : Fin n) (t : Nat)
  | remove (id : Fin n) (t : Nat)
  | check (t : Nat)

def TwCall.time : TwCall n → Nat
  | .add _ t | .remove _ t | .check t => t

structure TwRun (n : Nat) where
  timers : Timers n
  /-- history: when a stream was added last -/
  added : Fin n → Nat := fun _ => 0
  /-- history: when the last call was made -/
  now : Nat := 0

namespace TwRun

/-- `cur_ts` is what 32 bits keep of the time. -/
def step (s : TwRun n) : TwCall n → TwRun n
  | .add id t =>
      { timers := s.timers.call (.timewaitListAdd id (BitVec.ofNat 32 t))
        added := Function.update s.added id t
        now := t }
  | .remove id t => { s with timers := s.timers.call (.timewaitListRemove id), now := t }
  | .check t => { s with timers := s.timers.call (.timewaitListCheck (BitVec.ofNat 32 t)), now := t }

/-- The list is in the order of its deadlines. -/
structure InOrder (s : TwRun n) (l : Linked n) : Prop where
  threaded : s.timers.Threaded l
  stamps : ∀ id ∈ l.timewait,
    (s.timers.streams id).tsTwExpire = BitVec.ofNat 32 (s.added id + tcpTimewait.toNat)
  past : ∀ id ∈ l.timewait, s.added id ≤ s.now
  ordered : Lib.Deadline.Ordered s.added l.timewait

/-- What holds between two calls; the counter shows the order of two deadlines less than half its
range apart. -/
def Sorted (s : TwRun n) : Prop :=
  ∃ l, s.InOrder l ∧ l.timewait.Pairwise fun a b => s.added b < s.added a + 2 ^ 31 →
    ((s.timers.streams b).tsTwExpire - (s.timers.streams a).tsTwExpire).slt 0 = false

/-- A check closes the streams whose time has come and calls `tcp_stream_destroy` for them, once for
each, and for no others, which it leaves alone. -/
def Destroys (s : TwRun n) (e : TwCall n) (s' : TwRun n) : Prop :=
  ∀ t, e = .check t → ∃ ids : List (Fin n), ids.Nodup ∧
    (∀ id, id ∈ ids ↔ (s.timers.streams id).onTimewaitList = true ∧
      s.added id + tcpTimewait.toNat ≤ t) ∧
    s'.timers = ids.foldl destroyExpired s.timers ∧
    s'.timers.destroyed = ids.reverse ++ s.timers.destroyed ∧
    (∀ id ∈ ids, (s'.timers.streams id).state = .closed ∧
      (s'.timers.streams id).timerFlags = ⟨false, false, false⟩) ∧
    ∀ id, id ∉ ids → s'.timers.streams id = s.timers.streams id

/-- Time does not go back, and a check looks at no stream that has been due for 2^31
milliseconds. -/
def CallOk (s : TwRun n) (e : TwCall n) : Prop :=
  s.now ≤ e.time ∧ ∀ t, e = .check t →
    ∀ id, (s.timers.streams id).onTimewaitList = true → t < s.added id + tcpTimewait.toNat + 2 ^ 31

/-- Nothing is on the list. -/
def Start (s : TwRun n) : Prop := ∃ l, s.timers.Threaded l ∧ l.timewait = []

/-! ## One call -/

section Step

variable {s : TwRun n} {l : Linked n}

theorem InOrder.sorted (inOrder : s.InOrder l) : s.Sorted := by
  refine ⟨l, inOrder, List.Pairwise.imp_of_mem ?_ inOrder.ordered⟩
  intro a b first second le near
  rw [inOrder.stamps a first, inOrder.stamps b second]
  have zero : (0 : U32).toInt = 0 := by decide
  have ahead := (@Lib.Deadline.passed_iff 32 (s.added b + tcpTimewait.toNat)
    (s.added a + tcpTimewait.toNat) (by omega) (by omega) 0).mpr (by rw [zero]; omega)
  rwa [Bool.not_eq_true'] at ahead

/-- A time-stamp of the list is judged as the time it stands for. -/
theorem InOrder.due_iff (inOrder : s.InOrder l) {t : Nat} (later : s.now ≤ t) {id : Fin n}
    (listed : id ∈ l.timewait) (seen : t < s.added id + tcpTimewait.toNat + 2 ^ 31) :
    (!(BitVec.ofNat 32 t - (s.timers.streams id).tsTwExpire).slt 0) =
      decide (s.added id + tcpTimewait.toNat ≤ t) := by
  have past := inOrder.past id listed
  have small : tcpTimewait.toNat = 5000 := rfl
  have zero : (0 : U32).toInt = 0 := by decide
  rw [inOrder.stamps id listed, Bool.eq_iff_iff, decide_eq_true_iff,
    Lib.Deadline.passed_iff (by omega) (by omega), zero]
  omega

theorem InOrder.add (inOrder : s.InOrder l) (id : Fin n) {t : Nat} (later : s.now ≤ t) :
    ∃ l', (s.step (.add id t)).InOrder l' := by
  obtain ⟨l', threaded, listed⟩ :=
    inOrder.threaded.timewaitListAdd id { curTs := BitVec.ofNat 32 t }
  have once := inOrder.threaded.chained.timewait_nodup
  have streams : ∀ other, other ≠ id →
      (s.step (.add id t)).timers.streams other = s.timers.streams other := fun other away =>
    on_other _ _ away
  have added : ∀ other, other ≠ id → (s.step (.add id t)).added other = s.added other :=
    fun other away => Function.update_of_ne away _ _
  have self : (s.step (.add id t)).added id = t := Function.update_self _ _ _
  have before : ∀ other ∈ l.timewait.erase id, other ≠ id ∧ other ∈ l.timewait := fun other mem =>
    once.mem_erase_iff.mp mem
  refine ⟨l', threaded, ?_, ?_, ?_⟩
  · rw [listed]
    intro other mem
    rcases List.mem_append.mp mem with mem | mem
    · obtain ⟨away, mem⟩ := before other mem
      rw [streams other away, added other away]
      exact inOrder.stamps other mem
    · obtain rfl := List.mem_singleton.mp mem
      rw [self]
      have stamp : ((s.step (.add other t)).timers.streams other).tsTwExpire =
          BitVec.ofNat 32 t + tcpTimewait := by
        change ((s.timers.on other _).streams other).tsTwExpire = _
        rw [on_self]
        exact timewaitListAdd_stamp _ _
      rw [stamp, BitVec.ofNat_add, BitVec.ofNat_toNat, BitVec.setWidth_eq]
  · rw [listed]
    intro other mem
    rcases List.mem_append.mp mem with mem | mem
    · obtain ⟨away, mem⟩ := before other mem
      rw [added other away]
      exact Nat.le_trans (inOrder.past other mem) later
    · obtain rfl := List.mem_singleton.mp mem
      exact Nat.le_of_eq self
  · rw [listed]
    exact inOrder.ordered.moveLast once fun other mem =>
      Nat.le_trans (inOrder.past other (List.mem_of_mem_erase mem)) later

theorem InOrder.remove (inOrder : s.InOrder l) (id : Fin n) {t : Nat} (later : s.now ≤ t) :
    ∃ l', (s.step (.remove id t)).InOrder l' := by
  obtain ⟨l', threaded, listed⟩ := inOrder.threaded.timewaitListRemove id
  have stamps : ∀ other, ((s.step (.remove id t)).timers.streams other).tsTwExpire =
      (s.timers.streams other).tsTwExpire := by
    intro other
    change ((s.timers.on id _).streams other).tsTwExpire = _
    by_cases here : other = id
    · rw [here, on_self]
      exact timewaitListRemove_stamp _
    · rw [on_other _ _ here]
  refine ⟨l', threaded, ?_, ?_, ?_⟩
  · intro other mem
    rw [stamps other]
    exact inOrder.stamps other (List.mem_of_mem_erase (listed ▸ mem))
  · intro other mem
    exact Nat.le_trans (inOrder.past other (List.mem_of_mem_erase (listed ▸ mem))) later
  · rw [listed]
    exact inOrder.ordered.sublist List.erase_sublist

/-- **A check takes what is due off the front**, and that is all that is due. -/
theorem InOrder.check (inOrder : s.InOrder l) {t : Nat} (ok : s.CallOk (.check t)) :
    (∃ l', (s.step (.check t)).InOrder l') ∧ s.Destroys (.check t) (s.step (.check t)) := by
  obtain ⟨later, seen⟩ := ok
  have listed : ∀ id, (s.timers.streams id).onTimewaitList = true ↔ id ∈ l.timewait := fun id =>
    (inOrder.threaded.member id).timewait
  have once := inOrder.threaded.chained.timewait_nodup
  let due : Fin n → Bool := fun id => decide (s.added id + tcpTimewait.toNat ≤ t)
  have front : (l.timewait.takeWhile fun id =>
      !(BitVec.ofNat 32 t - (s.timers.streams id).tsTwExpire).slt 0) = l.timewait.filter due := by
    rw [← inOrder.ordered.scan]
    exact Lib.Deadline.takeWhile_congr fun id mem =>
      inOrder.due_iff later mem (seen t rfl id ((listed id).mpr mem))
  have went : (s.step (.check t)).timers = (l.timewait.filter due).foldl destroyExpired s.timers := by
    have first : s.timers.lists.timer.first .timewait = l.timewait.head? :=
      (inOrder.threaded.chained.timer.chain .timewait).first_eq
    change Timers.timewaitListCheck s.timers _ = _
    unfold Timers.timewaitListCheck
    rw [first, inOrder.threaded.timewaitScan _ n ?_, front]
    · rfl
    · simpa using once.length_le_card
  have split := List.takeWhile_append_dropWhile (p := due) (l := l.timewait)
  rw [show l.timewait.takeWhile due = l.timewait.filter due from inOrder.ordered.scan _ t] at split
  obtain ⟨l', threaded, rest⟩ := inOrder.threaded.foldl_destroyExpired _ split.symm
  rw [← went] at threaded
  have apart : ∀ id ∈ l'.timewait, id ∉ l.timewait.filter due := fun id mem taken =>
    List.disjoint_of_nodup_append (split ▸ once) taken (rest ▸ mem)
  have kept : ∀ id ∈ l'.timewait, id ∈ l.timewait ∧
      (s.step (.check t)).timers.streams id = s.timers.streams id := by
    intro id mem
    refine ⟨split ▸ List.mem_append_right _ (rest ▸ mem), ?_⟩
    rw [went]
    exact foldl_destroyExpired_other _ _ (apart id mem)
  constructor
  · refine ⟨l', threaded, fun id mem => ?_, fun id mem => ?_, ?_⟩
    · rw [(kept id mem).2]
      exact inOrder.stamps id (kept id mem).1
    · exact Nat.le_trans (inOrder.past id (kept id mem).1) later
    · rw [rest]
      refine inOrder.ordered.sublist ?_
      exact List.dropWhile_sublist _
  · rintro t' same
    obtain rfl : t = t' := by cases same; rfl
    refine ⟨l.timewait.filter due, once.filter _, fun id => ?_, went, ?_, fun id taken => ?_,
      fun id left => ?_⟩
    · rw [List.mem_filter, listed id, decide_eq_true_iff]
    · rw [went]
      exact foldl_destroyExpired_destroyed _ _
    · rw [went]
      exact foldl_destroyExpired_self _ _ taken
    · rw [went]
      exact foldl_destroyExpired_other _ _ left

end Step

/-- **One call keeps the order, and a check destroys what it should.** -/
theorem Sorted.step {s : TwRun n} (sorted : s.Sorted) (e : TwCall n) (ok : s.CallOk e) :
    (s.step e).Sorted ∧ s.Destroys e (s.step e) := by
  obtain ⟨l, inOrder, -⟩ := sorted
  cases e with
  | add id t =>
      obtain ⟨l', after⟩ := inOrder.add id ok.1
      exact ⟨after.sorted, fun t' other => by cases other⟩
  | remove id t =>
      obtain ⟨l', after⟩ := inOrder.remove id ok.1
      exact ⟨after.sorted, fun t' other => by cases other⟩
  | check t =>
      obtain ⟨⟨l', after⟩, destroys⟩ := inOrder.check ok
      exact ⟨after.sorted, destroys⟩

/-- **timewait_list.**  Over every sequence of calls at times that do not go back, with a check
before a stream has been due for 2^31 milliseconds, the list stays in the order of its deadlines,
and every check destroys exactly the streams that were added `TCP_TIMEWAIT` ago or earlier. -/
theorem timewait_law (es : List (TwCall n)) (s : TwRun n) (start : s.Start)
    (allowed : Lib.Run.Allowed step CallOk s es) :
    Lib.Run.Along step Sorted s es ∧ Lib.Run.Each step Destroys s es := by
  have sorted : s.Sorted := by
    obtain ⟨l, threaded, empty⟩ := start
    refine InOrder.sorted (l := l) ⟨threaded, ?_, ?_, ?_⟩ <;> rw [empty]
    · exact fun _ mem => absurd mem List.not_mem_nil
    · exact fun _ mem => absurd mem List.not_mem_nil
    · exact .nil _
  exact ⟨Lib.Run.along_of_step (fun _ e sorted ok => (sorted.step e ok).1) es s sorted allowed,
    Lib.Run.each_of_step (fun _ e sorted ok => sorted.step e ok) es s sorted allowed⟩

/-- Streams in TIME_WAIT that no list holds yet. -/
def waiting (n : Nat) : TwRun n :=
  { timers := { Timers.init n with streams := fun _ => { state := .timeWait } } }

theorem waiting_start (n : Nat) : (waiting n).Start := by
  obtain ⟨l, chained, member, runs⟩ := init_sound n
  refine ⟨l, ⟨chained, member, runs⟩, List.eq_nil_iff_forall_not_mem.mpr fun id mem => ?_⟩
  exact Bool.false_ne_true ((member id).timewait.mpr mem)

/-- A stream is added, and destroyed by the check 5 seconds later. -/
theorem timewait_law_one : Lib.Run.Each step Destroys (waiting 1) [.add 0 7, .check 5007] := by
  refine (timewait_law [.add 0 7, .check 5007] _ (waiting_start 1)
    ⟨⟨by decide, fun t other => by cases other⟩, ⟨by decide, ?_⟩, trivial⟩).2
  intro t same id _
  obtain rfl : 5007 = t := by cases same; rfl
  obtain rfl : id = 0 := Subsingleton.elim _ _
  decide

/-- Two calls are less than 2^31 - TCP_TIMEWAIT milliseconds apart. -/
def Spaced (s : TwRun n) (e : TwCall n) : Prop :=
  s.now ≤ e.time ∧ e.time - s.now < 2 ^ 31 - tcpTimewait.toNat

instance (s : TwRun n) (e : TwCall n) : Decidable (s.Spaced e) :=
  inferInstanceAs (Decidable (_ ∧ _))

/-- That is not enough: the first of two streams is still on the list 4294957294 milliseconds after
it was added. -/
theorem unseen_stays :
    Lib.Run.Allowed step Spaced (waiting 2)
        [.add 0 0, .add 1 2147478647, .check 4294957294] ∧
      ¬ Lib.Run.Each step Destroys (waiting 2)
        [.add 0 0, .add 1 2147478647, .check 4294957294] := by
  refine ⟨by decide, fun each => ?_⟩
  obtain ⟨ids, -, exact_, -, -, closed, -⟩ := each.2.2.1 4294957294 rfl
  have taken := (closed 0 ((exact_ 0).mpr ⟨by decide, by decide⟩)).1
  revert taken
  decide

end TwRun

end Timers

end QStack
