/-
# QStack.PollOrder -- what one call of qepoll_wait examines

`qepoll_wait` has three loops inside each other, over the stacks, the two directions and the two
rings of a channel, and all of them share `ev_cnt`.  One call amounts to less than that: the rings
stand in a fixed order (`polledRings`), the call examines the entries in this order from the front
on, and it stops behind the entry that fills the buffer (`qepollWait_examines`).  The loop that
goes back to the high ring after each low event never finds anything, as long as nothing is added.

From this follow the order within a channel, the order within a ring, and what is left for the next
call (`qepollWait_law`).
-/
import QStack.EventConsumers
import QStack.Lib.Quota

namespace QStack

set_option autoImplicit false

open Lib.Drain Lib.Quota AppRings

/-- Room in the buffer -/
def room (maxevents : Int) (st : Batch) : Nat := (maxevents - st.2.length).toNat

/-- The check of `qepoll_qevent`, for an entry with its ring. -/
def AppRings.valid (s : AppRings) (e : Taken) : Bool := s.validity e.2

/-- The entries on some rings, in the order in which these are polled. -/
def AppRings.entries (s : AppRings) (rings : List PolledRing) : List Taken :=
  rings.flatMap fun q => (s.queued q).map (Prod.mk q)

/-- From `st` to `st'` the entries on `rings` were examined, from the front on as far as there was
room in the buffer. -/
structure Examines (maxevents : Int) (rings : List PolledRing) (st st' : Batch) : Prop where
  copied : st'.2 = st.2 ++
    (upTo st.1.valid (room maxevents st) (st.1.entries rings)).1.filter st.1.valid
  left : ∀ q ∈ rings, st'.1.queued q =
    takenFrom q (upTo st.1.valid (room maxevents st) (st.1.entries rings)).2
  others : ∀ q, q ∉ rings → st'.1.queued q = st.1.queued q
  masks : st'.1.qepoll = st.1.qepoll
  distinct : rings.Nodup

namespace Examines

variable {maxevents : Int} {rings : List PolledRing} {st st' st'' : Batch}

theorem valid (examines : Examines maxevents rings st st') : st'.1.valid = st.1.valid := by
  funext e
  rw [AppRings.valid, AppRings.valid, validity, validity, examines.masks]

theorem refl (maxevents : Int) (st : Batch) : Examines maxevents [] st st where
  copied := by rw [entries, List.flatMap_nil, upTo_nil, List.filter_nil, List.append_nil]
  left := fun _ mem => absurd mem List.not_mem_nil
  others := fun _ _ => rfl
  masks := rfl
  distinct := List.nodup_nil

theorem room_eq (examines : Examines maxevents rings st st') :
    room maxevents st' = room maxevents st -
      ((upTo st.1.valid (room maxevents st) (st.1.entries rings)).1.filter st.1.valid).length := by
  have grown := congrArg List.length examines.copied
  rw [List.length_append] at grown
  generalize ((upTo st.1.valid (room maxevents st) (st.1.entries rings)).1.filter
    st.1.valid).length = kept at grown
  unfold room
  omega

theorem takenFrom_map (q : PolledRing) (xs : List QepollEvent) :
    takenFrom q (xs.map (Prod.mk q)) = xs := by
  rw [takenFrom, List.filter_eq_self.mpr, List.map_map]
  · exact List.map_id xs
  · intro e mem
    obtain ⟨x, -, rfl⟩ := List.mem_map.mp mem
    exact decide_eq_true rfl

/-- Entries of a list of rings come from these. -/
theorem mem_entries {s : AppRings} {e : Taken} (mem : e ∈ s.entries rings) : e.1 ∈ rings := by
  obtain ⟨q, ring, inRing⟩ := List.mem_flatMap.mp mem
  obtain ⟨x, -, rfl⟩ := List.mem_map.mp inRing
  exact ring

theorem mem_left {s : AppRings} {n : Nat} {e : Taken}
    (mem : e ∈ (upTo s.valid n (s.entries rings)).2) : e.1 ∈ rings := by
  refine mem_entries (s := s) ?_
  rw [← upTo_split (p := s.valid) n (s.entries rings)]
  exact List.mem_append_right _ mem

/-- **One list of rings after the other.** -/
theorem trans {more : List PolledRing} (first : Examines maxevents rings st st')
    (second : Examines maxevents more st' st'') (apart : ∀ q ∈ rings, q ∉ more) :
    Examines maxevents (rings ++ more) st st'' := by
  have untouched : st'.1.entries more = st.1.entries more := by
    refine List.flatMap_congr fun q mem => ?_
    rw [first.others q fun ring => apart q ring mem]
  have split := upTo_append (p := st.1.valid) (room maxevents st) (st.1.entries rings)
    (st.1.entries more)
  rw [← first.room_eq, ← first.valid, ← untouched] at split
  have all : st.1.entries (rings ++ more) = st.1.entries rings ++ st'.1.entries more := by
    rw [untouched]
    exact List.flatMap_append
  refine ⟨?_, ?_, ?_, second.masks.trans first.masks,
    List.nodup_append'.mpr ⟨first.distinct, second.distinct, apart⟩⟩
  · rw [second.copied, first.copied, all, ← first.valid, split, List.filter_append,
      List.append_assoc]
  · intro q mem
    rw [all, ← first.valid, split, takenFrom_append]
    by_cases early : q ∈ rings
    · have none : takenFrom q (upTo st'.1.valid (room maxevents st') (st'.1.entries more)).2 = [] := by
        refine takenFrom_eq_nil ?_
        rintro e isLeft rfl
        exact apart _ early (mem_left isLeft)
      rw [none, List.append_nil, second.others q (apart q early), first.left q early, ← first.valid]
    · have late : q ∈ more := (List.mem_append.mp mem).resolve_left early
      have none : takenFrom q (upTo st'.1.valid (room maxevents st) (st.1.entries rings)).2 = [] := by
        refine takenFrom_eq_nil ?_
        rintro e isLeft rfl
        rw [first.valid] at isLeft
        exact early (mem_left isLeft)
      rw [none, List.nil_append, second.left q late]
  · intro q outside
    rw [List.mem_append, not_or] at outside
    rw [second.others q outside.2, first.others q outside.1]

theorem entries_single (s : AppRings) (q : PolledRing) :
    s.entries [q] = (s.queued q).map (Prod.mk q) := List.append_nil _

/-- Where a loop ends the ring is empty or the buffer is full. -/
theorem still {q : PolledRing} (ended : ¬ More q maxevents st) : Examines maxevents [q] st st := by
  have nothing : upTo st.1.valid (room maxevents st) (st.1.entries [q]) =
      ([], (st.1.queued q).map (Prod.mk q)) := by
    rw [entries_single]
    by_cases none : st.1.queued q = []
    · rw [none, List.map_nil, upTo_nil]
    · have full : room maxevents st = 0 := by
        have no : ¬ (st.2.length : Int) < maxevents := fun more => ended ⟨none, more⟩
        unfold room
        omega
      rw [full, upTo_zero]
  refine ⟨?_, ?_, fun _ _ => rfl, rfl, List.nodup_singleton q⟩
  · rw [nothing, List.filter_nil, List.append_nil]
  · intro r mem
    obtain rfl := List.mem_singleton.mp mem
    rw [nothing, takenFrom_map]

/-- One entry, and then the ring behind it. -/
theorem cons {q : PolledRing} {x : QepollEvent} {rest : List QepollEvent} {reg : Nat → QeventReg}
    (queued : st.1.queued q = x :: rest) (short : (st.2.length : Int) < maxevents)
    (later : Examines maxevents [q]
      ({ st.1 with queued := Function.update st.1.queued q rest, reg := reg },
        st.2 ++ if st.1.validity x then [(q, x)] else []) st') :
    Examines maxevents [q] st st' := by
  obtain ⟨copied, left, others, masks, distinct⟩ := later
  obtain ⟨m, space⟩ : ∃ m, room maxevents st = m + 1 := by
    have positive : 0 < room maxevents st := by
      unfold room
      omega
    exact Nat.exists_eq_succ_of_ne_zero (Nat.ne_of_gt positive)
  have remains : room maxevents
      ({ st.1 with queued := Function.update st.1.queued q rest, reg := reg },
        st.2 ++ if st.1.validity x then [(q, x)] else []) =
      if st.1.valid (q, x) then m else m + 1 := by
    rw [← space]
    unfold room AppRings.valid at *
    dsimp only at *
    rw [List.length_append]
    cases st.1.validity x with
    | true => simp; omega
    | false => simp
  have behind : Function.update st.1.queued q rest q = rest := Function.update_self ..
  rw [remains, entries_single] at copied left
  dsimp only at copied left others masks
  rw [behind] at copied left
  have split : upTo st.1.valid (room maxevents st) (st.1.entries [q]) =
      ((q, x) :: (upTo st.1.valid (if st.1.valid (q, x) then m else m + 1)
          (rest.map (Prod.mk q))).1,
        (upTo st.1.valid (if st.1.valid (q, x) then m else m + 1)
          (rest.map (Prod.mk q))).2) := by
    rw [entries_single, queued, List.map_cons, space, upTo]
  refine ⟨?_, ?_, ?_, masks, distinct⟩
  · rw [copied, split, List.append_assoc, List.filter_cons]
    have same : st.1.valid (q, x) = st.1.validity x := rfl
    rw [same]
    cases st.1.validity x <;> rfl
  · rw [split]
    exact left
  · intro r outside
    rw [others r outside, Function.update_of_ne fun same => outside (List.mem_singleton.mpr same)]

/-- **A loop over one ring.** -/
theorem pollLoop (q : PolledRing) (n : Nat) (st : Batch) (enough : (st.1.queued q).length ≤ n) :
    Examines maxevents [q] st (AppRings.pollLoop q maxevents n st) := by
  induction n generalizing st with
  | zero =>
      have none : st.1.queued q = [] := List.length_eq_zero_iff.mp (Nat.le_zero.mp enough)
      exact still fun more => more.1 none
  | succ n ih =>
      rw [AppRings.pollLoop]
      split
      · rename_i more
        obtain ⟨x, rest, queued⟩ := List.exists_cons_of_ne_nil more.1
        obtain ⟨reg, took⟩ := qepollQevent_cons queued
        rw [took]
        refine cons queued more.2 (ih _ ?_)
        rw [queued, List.length_cons] at enough
        simpa using enough
      · rename_i ended
        exact still ended

variable (maxevents) in
theorem pollRing (q : PolledRing) (st : Batch) :
    Examines maxevents [q] st (AppRings.pollRing q maxevents st) :=
  pollLoop q _ st le_rfl

/-- What has been examined leaves a ring empty, or the buffer full. -/
theorem ended {q : PolledRing} (examines : Examines maxevents [q] st st') : ¬ More q maxevents st' := by
  rintro ⟨some_, short⟩
  refine some_ ?_
  have space := examines.room_eq
  rw [examines.left q List.mem_cons_self]
  have rest := upTo_rest (p := st.1.valid) (room maxevents st) (st.1.entries [q]) (by
    unfold room at space ⊢
    omega)
  rw [rest, takenFrom_nil]

end Examines

/-! ## The whole call -/

/-- The high ring has nothing more, or there is no room for it. -/
theorem pollRing_still {q : PolledRing} {maxevents : Int} {st : Batch}
    (ended : ¬ More q maxevents st) : pollRing q maxevents st = st := by
  unfold pollRing
  cases (st.1.queued q).length with
  | zero => rfl
  | succ n => exact if_neg ended

/-- **Going back to the high ring changes nothing**, since nothing is added to it. -/
theorem pollLowLoop_eq (ns : Nat) (dire : QeventDire) (maxevents : Int) (n : Nat) (st : Batch)
    (ended : ¬ More ⟨ns, dire, true⟩ maxevents st) :
    pollLowLoop ns dire maxevents n st = pollLoop ⟨ns, dire, false⟩ maxevents n st := by
  induction n generalizing st with
  | zero => rfl
  | succ n ih =>
      rw [pollLowLoop, pollLoop]
      split
      · rename_i more
        obtain ⟨x, rest, queued⟩ := List.exists_cons_of_ne_nil more.1
        obtain ⟨reg, took⟩ := qepollQevent_cons queued
        have high : ¬ More ⟨ns, dire, true⟩ maxevents (qepollQevent ⟨ns, dire, false⟩ st) := by
          rw [took]
          rintro ⟨some_, short⟩
          refine ended ⟨?_, ?_⟩
          · simpa using some_
          · rw [List.length_append] at short
            omega
        rw [pollRing_still high]
        exact ih _ high
      · rfl

theorem pollChan_examines (maxevents : Int) (ns : Nat) (st : Batch) (dire : QeventDire) :
    Examines maxevents [⟨ns, dire, true⟩, ⟨ns, dire, false⟩] st (pollChan maxevents ns st dire) := by
  have high := Examines.pollRing maxevents ⟨ns, dire, true⟩ st
  have low := Examines.pollRing maxevents ⟨ns, dire, false⟩
    (pollRing ⟨ns, dire, true⟩ maxevents st)
  have both := high.trans low (by simp)
  have loop := pollLowLoop_eq ns dire maxevents
    ((pollRing ⟨ns, dire, true⟩ maxevents st).1.queued ⟨ns, dire, false⟩).length _ high.ended
  unfold pollChan
  dsimp only
  rw [loop]
  exact both

/-- The rings of one stack, in the order in which they are polled. -/
def stackRings (ns : Nat) : List PolledRing :=
  [⟨ns, .stackToQe, true⟩, ⟨ns, .stackToQe, false⟩, ⟨ns, .appToQe, true⟩, ⟨ns, .appToQe, false⟩]

theorem pollStack_examines (maxevents : Int) (st : Batch) (ns : Nat) :
    Examines maxevents (stackRings ns) st (pollStack maxevents st ns) :=
  (pollChan_examines maxevents ns st .stackToQe).trans (pollChan_examines maxevents ns _ .appToQe)
    (by simp)

theorem stackRings_ns {ns : Nat} {q : PolledRing} (mem : q ∈ stackRings ns) : q.ns = ns := by
  unfold stackRings at mem
  simp only [List.mem_cons, List.not_mem_nil, or_false] at mem
  rcases mem with rfl | rfl | rfl | rfl <;> rfl

theorem polledRings_succ (n : Nat) : polledRings (n + 1) = polledRings n ++ stackRings n := by
  simp only [polledRings, stackRings, List.range_succ, List.flatMap_append, List.flatMap_cons,
    List.flatMap_nil, List.append_nil]

/-- **The loop over the stacks** is one walk over all rings. -/
theorem stacks_examine (maxevents : Int) (numStack : Nat) (st : Batch) :
    Examines maxevents (polledRings numStack) st
      ((List.range numStack).foldl (pollStack maxevents) st) := by
  induction numStack with
  | zero => exact Examines.refl maxevents st
  | succ n ih =>
      have apart : ∀ q ∈ polledRings n, q ∉ stackRings n := by
        intro q mem again
        have less := mem_polledRings.mp mem
        rw [stackRings_ns again] at less
        exact Nat.lt_irrefl n less
      have all := ih.trans (pollStack_examines maxevents _ n) apart
      rw [polledRings_succ, List.range_succ, List.foldl_append]
      exact all

/-! ## What is returned and what is left -/

/-- The entries one call examines, in order, and those it does not get to. -/
def AppRings.examined (s : AppRings) (numStack : Nat) (maxevents : Int) : List Taken × List Taken :=
  upTo s.valid maxevents.toNat (s.entries (polledRings numStack))

/-- Each ring has its entries among those of a list of rings. -/
theorem takenFrom_entries (s : AppRings) {rings : List PolledRing} (distinct : rings.Nodup)
    {q : PolledRing} (mem : q ∈ rings) : takenFrom q (s.entries rings) = s.queued q := by
  induction rings with
  | nil => cases mem
  | cons r rings ih =>
      obtain ⟨new, others⟩ := List.nodup_cons.mp distinct
      have entries : s.entries (r :: rings) = (s.queued r).map (Prod.mk r) ++ s.entries rings :=
        List.flatMap_cons
      rw [entries, takenFrom_append]
      rcases List.mem_cons.mp mem with rfl | later
      · have none : takenFrom q (s.entries rings) = [] := by
          refine takenFrom_eq_nil ?_
          rintro e inRings rfl
          exact new (Examines.mem_entries inRings)
        rw [none, List.append_nil, Examines.takenFrom_map]
      · have none : takenFrom q ((s.queued r).map (Prod.mk r)) = [] := by
          refine takenFrom_eq_nil ?_
          rintro e inRing rfl
          obtain ⟨x, -, rfl⟩ := List.mem_map.mp inRing
          exact new later
        rw [none, List.nil_append, ih others later]

/-- **`qepoll_wait` in one sentence**: it returns the valid ones of the entries it examined. -/
theorem qepollWait_examines (numStack : Nat) {maxevents : Int} (one : 1 ≤ maxevents) (s : AppRings) :
    ∃ out s', qepollWait numStack maxevents s = (out.length, out, s') ∧
      out = (s.examined numStack maxevents).1.filter s.valid ∧
      (∀ q, s.queued q = takenFrom q (s.examined numStack maxevents).1 ++ s'.queued q) ∧
      ∀ q, q.ns < numStack → s'.queued q = takenFrom q (s.examined numStack maxevents).2 := by
  have walk := stacks_examine maxevents numStack (s, [])
  have space : room maxevents (s, []) = maxevents.toNat := by
    unfold room
    rw [List.length_nil, Nat.cast_zero, Int.sub_zero]
  obtain ⟨copied, left, others, masks, distinct⟩ := walk
  rw [space, List.nil_append] at copied
  rw [space] at left
  generalize final : (List.range numStack).foldl (pollStack maxevents) (s, []) = st at *
  obtain ⟨s', out⟩ := st
  have split := upTo_split (p := s.valid) maxevents.toNat (s.entries (polledRings numStack))
  refine ⟨out, s', ?_, copied, fun q => ?_, fun q inside => left q (mem_polledRings.mpr inside)⟩
  · rw [qepollWait, if_neg (by omega), final]
  · have whole : takenFrom q (s.entries (polledRings numStack)) =
        takenFrom q (s.examined numStack maxevents).1 ++
          takenFrom q (s.examined numStack maxevents).2 := by
      rw [← takenFrom_append]
      exact congrArg (takenFrom q) split.symm
    by_cases polled : q ∈ polledRings numStack
    · rw [left q polled, ← takenFrom_entries s distinct polled]
      exact whole
    · have none : takenFrom q (s.entries (polledRings numStack)) = [] := by
        refine takenFrom_eq_nil ?_
        rintro e inRings rfl
        exact polled (Examines.mem_entries inRings)
      rw [none] at whole
      rw [(List.append_eq_nil_iff.mp whole.symm).1, List.nil_append]
      exact (others q polled).symm

/-- Is an event from this channel? -/
def fromChan (ns : Nat) (dire : QeventDire) (e : Taken) : Bool :=
  decide (e.1.ns = ns ∧ e.1.dire = dire)

theorem filter_ring (q : PolledRing) (xs : List QepollEvent) (ns : Nat) (dire : QeventDire) :
    (xs.map (Prod.mk q)).filter (fromChan ns dire) =
      if q.ns = ns ∧ q.dire = dire then xs.map (Prod.mk q) else [] := by
  have source : ∀ e ∈ xs.map (Prod.mk q), e.1 = q := by
    intro e mem
    obtain ⟨x, -, rfl⟩ := List.mem_map.mp mem
    rfl
  split
  · rename_i ofChan
    refine List.filter_eq_self.mpr fun e mem => decide_eq_true ?_
    rw [source e mem]
    exact ofChan
  · rename_i other
    refine List.filter_eq_nil_iff.mpr fun e mem => ?_
    rw [fromChan, decide_eq_true_eq, source e mem]
    exact other

/-- The entries of a channel: the high ring, then the low one. -/
theorem entries_chan (s : AppRings) {numStack ns : Nat} (inside : ns < numStack) (dire : QeventDire) :
    (s.entries (polledRings numStack)).filter (fromChan ns dire) =
      (s.queued ⟨ns, dire, true⟩).map (Prod.mk ⟨ns, dire, true⟩) ++
        (s.queued ⟨ns, dire, false⟩).map (Prod.mk ⟨ns, dire, false⟩) := by
  induction numStack with
  | zero => exact absurd inside (Nat.not_lt_zero ns)
  | succ n ih =>
      have split : s.entries (polledRings (n + 1)) =
          s.entries (polledRings n) ++ s.entries (stackRings n) := by
        rw [polledRings_succ]
        exact List.flatMap_append
      rw [split, List.filter_append]
      by_cases last : ns = n
      · subst last
        have before : (s.entries (polledRings ns)).filter (fromChan ns dire) = [] := by
          refine List.filter_eq_nil_iff.mpr fun e mem isChan => ?_
          have less := mem_polledRings.mp (Examines.mem_entries mem)
          rw [(of_decide_eq_true isChan).1] at less
          exact Nat.lt_irrefl ns less
        rw [before, List.nil_append]
        simp only [entries, stackRings, List.flatMap_cons, List.flatMap_nil, List.append_nil,
          List.filter_append, filter_ring]
        cases dire <;> simp
      · have after : (s.entries (stackRings n)).filter (fromChan ns dire) = [] := by
          refine List.filter_eq_nil_iff.mpr fun e mem isChan => ?_
          have here := stackRings_ns (Examines.mem_entries mem)
          rw [(of_decide_eq_true isChan).1] at here
          exact last here
        rw [after, List.append_nil, ih (by omega)]

/-- What a call returns and what it leaves, channel by channel and ring by ring. -/
structure WaitResult (numStack : Nat) (maxevents : Int) (s : AppRings) (out : List Taken)
    (s' : AppRings) : Prop where
  bounded : (out.length : Int) ≤ maxevents
  own : ∀ e ∈ out, e.1.ns < numStack
  /-- Each ring has been examined from the front on; the valid entries were returned in order. -/
  fifo : ∀ q, ∃ examined, s.queued q = examined ++ s'.queued q ∧
    takenFrom q out = examined.filter s.validity
  /-- A low event of a channel comes behind all valid high events of it. -/
  highFirst : ∀ ns dire, ∃ highs lows, out.filter (fromChan ns dire) = highs ++ lows ∧
    (∀ e ∈ highs, e.1.pri = true) ∧ (∀ e ∈ lows, e.1.pri = false) ∧
    (lows ≠ [] → highs.map Prod.snd = s.pending ⟨ns, dire, true⟩)
  /-- With room left everything has been examined. -/
  early : (out.length : Int) < maxevents → ∀ q, q.ns < numStack → s'.queued q = []

/-- A front part of two lists is one of the first, or all of the first and one of the second. -/
theorem front_split {front rest highs lows : List Taken} (whole : front ++ rest = highs ++ lows) :
    ∃ h l, front = h ++ l ∧ h <+: highs ∧ l <+: lows ∧ (l ≠ [] → h = highs) := by
  rcases List.append_eq_append_iff.mp whole with ⟨more, isHigh, -⟩ | ⟨more, isFront, isLow⟩
  · exact ⟨front, [], (List.append_nil front).symm, ⟨more, isHigh.symm⟩, List.nil_prefix,
      fun some_ => absurd rfl some_⟩
  · exact ⟨highs, more, isFront, List.prefix_refl highs, ⟨rest, isLow.symm⟩, fun _ => rfl⟩

theorem ring_pri {q : PolledRing} {xs : List QepollEvent} {part : List Taken}
    (front : part <+: xs.map (Prod.mk q)) : ∀ e ∈ part, e.1.pri = q.pri := by
  intro e mem
  obtain ⟨x, -, rfl⟩ := List.mem_map.mp (front.subset mem)
  rfl

/-- Among what a call has examined of a channel, no low entry comes before a high one. -/
theorem highFirst_examined (s : AppRings) (numStack : Nat) (maxevents : Int) (ns : Nat)
    (dire : QeventDire) : ∃ highs lows,
      ((s.examined numStack maxevents).1.filter s.valid).filter (fromChan ns dire) = highs ++ lows ∧
        (∀ e ∈ highs, e.1.pri = true) ∧ (∀ e ∈ lows, e.1.pri = false) ∧
        (lows ≠ [] → highs.map Prod.snd = s.pending ⟨ns, dire, true⟩) := by
  have whole := upTo_split (p := s.valid) maxevents.toNat (s.entries (polledRings numStack))
  change (s.examined numStack maxevents).1 ++ (s.examined numStack maxevents).2 = _ at whole
  generalize (s.examined numStack maxevents).1 = front at whole ⊢
  generalize (s.examined numStack maxevents).2 = rest at whole
  have swapped : (front.filter s.valid).filter (fromChan ns dire) =
      (front.filter (fromChan ns dire)).filter s.valid := by
    rw [List.filter_filter, List.filter_filter]
    exact List.filter_congr fun e _ => Bool.and_comm _ _
  rw [swapped]
  by_cases inside : ns < numStack
  · have chan := congrArg (List.filter (fromChan ns dire)) whole
    rw [List.filter_append, entries_chan s inside dire] at chan
    obtain ⟨h, l, isFront, high, low, full⟩ := front_split chan
    refine ⟨h.filter s.valid, l.filter s.valid, by rw [isFront, List.filter_append], ?_, ?_, ?_⟩
    · exact fun e mem => ring_pri high e (List.mem_of_mem_filter mem)
    · exact fun e mem => ring_pri low e (List.mem_of_mem_filter mem)
    · intro some_
      have all := full fun none => some_ (by rw [none, List.filter_nil])
      rw [all, List.filter_map, List.map_map]
      exact List.map_id _
  · have none : front.filter (fromChan ns dire) = [] := by
      refine List.filter_eq_nil_iff.mpr fun e mem isChan => inside ?_
      have polled : e ∈ s.entries (polledRings numStack) :=
        whole ▸ List.mem_append_left rest mem
      have less := mem_polledRings.mp (Examines.mem_entries polled)
      rwa [(of_decide_eq_true isChan).1] at less
    rw [none]
    exact ⟨[], [], rfl, fun e mem => absurd mem List.not_mem_nil,
      fun e mem => absurd mem List.not_mem_nil, fun some_ => absurd rfl some_⟩

/-- **One call of `qepoll_wait`.** -/
theorem qepollWait_law (numStack : Nat) {maxevents : Int} (one : 1 ≤ maxevents) (s : AppRings) :
    ∃ out s', qepollWait numStack maxevents s = (out.length, out, s') ∧
      WaitResult numStack maxevents s out s' := by
  obtain ⟨out, s', went, eq, split, left⟩ := qepollWait_examines numStack one s
  have whole := upTo_split (p := s.valid) maxevents.toNat (s.entries (polledRings numStack))
  have count := upTo_count (p := s.valid) maxevents.toNat (s.entries (polledRings numStack))
  refine ⟨out, s', went, ⟨?_, ?_, ?_, ?_, ?_⟩⟩
  · rw [eq]
    unfold examined
    omega
  · intro e mem
    rw [eq] at mem
    refine mem_polledRings.mp (Examines.mem_entries (s := s) ?_)
    rw [← whole]
    exact List.mem_append_left _ (List.mem_of_mem_filter mem)
  · intro q
    refine ⟨takenFrom q (s.examined numStack maxevents).1, split q, ?_⟩
    rw [eq, takenFrom, takenFrom, List.filter_map, List.filter_filter, List.filter_filter]
    refine congrArg _ (List.filter_congr fun e _ => ?_)
    rw [Bool.and_comm]
    rfl
  · intro ns dire
    rw [eq]
    exact highFirst_examined s numStack maxevents ns dire
  · intro short q inside
    rw [left q inside]
    have nothing := upTo_rest (p := s.valid) maxevents.toNat (s.entries (polledRings numStack)) (by
      rw [eq] at short
      unfold examined at short
      omega)
    rw [examined, nothing, takenFrom_nil]

/-- Two events of one priority -/
def twoQueued : AppRings where
  queued q := if q = ⟨0, .stackToQe, false⟩ then [⟨false, 1, 1, 0⟩, ⟨false, 2, 1, 0⟩] else []
  qepoll _ := 1
  reg _ := {}

/-- There is room for one of them. -/
theorem qepollWait_law_full : ∃ out s', qepollWait 1 1 twoQueued = (out.length, out, s') ∧
    WaitResult 1 1 twoQueued out s' :=
  qepollWait_law 1 (by decide) twoQueued

end QStack
