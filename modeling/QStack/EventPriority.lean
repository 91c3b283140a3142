/-
# QStack.EventPriority -- the two cursors of eventmgt_get

`eventmgt_get` hands out one event at a time from two arrays, `events_h` and `events_l`, and fetches
an array again when its cursor has come to the end.  `GetAccounts` says what one call does to them:
what was unread and what was fetched is what is handed out and what is unread then; and a low event
is handed out only if no high event is unread and none waits in a high ring of a stack.  Over a run,
with events and masks that change as they like between the calls, nothing fetched is skipped or
handed out twice, whatever the two batch limits are (`eventmgt_law`).

The order of the priorities needs `size >= 1`: `qepoll_mgt_wait` refuses to fetch into an array of
no size, so that no high event is ever seen (`no_size_low_first`).
-/
import QStack.EventConsumers
import QStack.Lib.Run

namespace QStack

set_option autoImplicit false

open Lib.Drain AppRings EventMgt

/-! ## One call -/

/-- What a call hands out, what it leaves, and what it fetched into the two arrays on the way. -/
structure GetTrace where
  ret : Option Taken
  st : AppRings × EventMgt
  fetchedH : List Taken := []
  fetchedL : List Taken := []

/-- `eventmgt_get`, with a record of what it fetches. -/
def eventmgtGetTrace (numStack : Nat) (st : AppRings × EventMgt) : GetTrace :=
  match evmgtqGet st.2.eventsH with
  | (some e, h) => { ret := some e, st := (st.1, { st.2 with eventsH := h }) }
  | (none, _) =>
      let fetched := evmgtqFetchEvents numStack st.2.size true st.1
      match evmgtqGet fetched.1 with
      | (some e, h) =>
          { ret := some e, st := (fetched.2, { st.2 with eventsH := h }), fetchedH := fetched.1.rest }
      | (none, h) =>
          match evmgtqGet st.2.eventsL with
          | (some e, l) =>
              { ret := some e, st := (fetched.2, { st.2 with eventsH := h, eventsL := l })
                fetchedH := fetched.1.rest }
          | (none, _) =>
              let low := evmgtqFetchEvents numStack st.2.lb false fetched.2
              let got := evmgtqGet low.1
              { ret := got.1, st := (low.2, { st.2 with eventsH := h, eventsL := got.2 })
                fetchedH := fetched.1.rest, fetchedL := low.1.rest }

/-- The record is all that is added. -/
theorem eventmgtGetTrace_get (numStack : Nat) (st : AppRings × EventMgt) :
    ((eventmgtGetTrace numStack st).ret, (eventmgtGetTrace numStack st).st) =
      eventmgtGet numStack st := by
  unfold eventmgtGetTrace eventmgtGet
  rcases evmgtqGet st.2.eventsH with ⟨_ | e, h⟩
  · dsimp only
    rcases evmgtqGet (evmgtqFetchEvents numStack st.2.size true st.1).1 with ⟨_ | e, h⟩
    · dsimp only
      rcases evmgtqGet st.2.eventsL with ⟨_ | e, l⟩
      · rfl
      · rfl
    · rfl
  · rfl

/-- The events of one priority. -/
def ofPri (pri : Bool) (events : List Taken) : List Taken := events.filter fun e => e.1.pri == pri

theorem ofPri_same {pri : Bool} {events : List Taken} (all : ∀ e ∈ events, e.1.pri = pri) :
    ofPri pri events = events :=
  List.filter_eq_self.mpr fun e mem => beq_iff_eq.mpr (all e mem)

theorem ofPri_other {pri : Bool} {events : List Taken} (all : ∀ e ∈ events, e.1.pri = !pri) :
    ofPri pri events = [] := by
  refine List.filter_eq_nil_iff.mpr fun e mem same => ?_
  rw [all e mem, beq_iff_eq] at same
  cases pri <;> cases same

theorem ofPri_append (pri : Bool) (events later : List Taken) :
    ofPri pri (events ++ later) = ofPri pri events ++ ofPri pri later := List.filter_append ..

/-- No unread event is in `events_h`, and no valid one in the high ring of a stack. -/
def HighDone (numStack : Nat) (st : AppRings × EventMgt) : Prop :=
  st.2.eventsH.rest = [] ∧ ∀ ns < numStack, st.1.pending ⟨ns, .stackToQe, true⟩ = []

/-- What one call does to the two arrays. -/
structure GetAccounts (numStack : Nat) (size : Int) (st : AppRings × EventMgt) (r : GetTrace) : Prop where
  high : st.2.eventsH.rest ++ r.fetchedH = ofPri true r.ret.toList ++ r.st.2.eventsH.rest
  low : st.2.eventsL.rest ++ r.fetchedL = ofPri false r.ret.toList ++ r.st.2.eventsL.rest
  priority : ∀ e, r.ret = some e → e.1.pri = false → 1 ≤ size → HighDone numStack st

/-- A fetch that brings nothing found nothing. -/
theorem fetched_none {numStack : Nat} {maxevents : Int} {pri : Bool} {s s' : AppRings}
    {q : EvmgtQueue} (fetched : evmgtqFetchEvents numStack maxevents pri s = (q, s'))
    (one : 1 ≤ maxevents) (none : q.rest = []) :
    ∀ ns < numStack, s.pending ⟨ns, .stackToQe, pri⟩ = [] := by
  intro ns inside
  obtain ⟨q', s'', went, -, polls, emptied⟩ := evmgtqFetchEvents_spec numStack maxevents pri s
  obtain ⟨rfl, rfl⟩ := Prod.ext_iff.mp (fetched.symm.trans went)
  have split := polls.split ⟨ns, .stackToQe, pri⟩
  rw [none, takenFrom_nil, List.nil_append,
    emptied none _ ⟨inside, rfl, rfl, by omega⟩] at split
  exact split

theorem got_rest {q q' : EvmgtQueue} {e : Option Taken} (filled : q.Filled)
    (got : evmgtqGet q = (e, q')) : q.rest = e.toList ++ q'.rest := by
  have split := (evmgtqGet_spec filled).2
  rwa [got] at split

section Get

variable {numStack : Nat} {size lb : Int} {st : AppRings × EventMgt}

/-- An event of the high array, with the arrays before and after. -/
theorem accounts_high {unread fetched : List Taken} {e : Taken} {h : EvmgtQueue} {s : AppRings}
    (split : unread ++ fetched = e :: h.rest) (isHigh : e.1.pri = true)
    (was : st.2.eventsH.rest = unread) :
    GetAccounts numStack size st
      { ret := some e, st := (s, { st.2 with eventsH := h }), fetchedH := fetched } where
  high := by
    have one : ofPri true [e] = [e] := ofPri_same (by simpa using isHigh)
    rw [was, split, Option.toList_some, one]
    rfl
  low := by
    have none : ofPri false [e] = [] := ofPri_other (by simpa using isHigh)
    rw [Option.toList_some, none, List.append_nil, List.nil_append]
  priority := by
    intro e' same isLow
    obtain rfl := Option.some_inj.mp same
    rw [isHigh] at isLow
    cases isLow

/-- What the low array gives, when there is no high event. -/
theorem accounts_low {unread fetched : List Taken} {e : Option Taken} {h l : EvmgtQueue}
    {s : AppRings} (split : unread ++ fetched = e.toList ++ l.rest)
    (isLow : ∀ x ∈ e, x.1.pri = false) (was : st.2.eventsL.rest = unread)
    (usedH : st.2.eventsH.rest = []) (usedH' : h.rest = [])
    (done : 1 ≤ size → HighDone numStack st) :
    GetAccounts numStack size st
      { ret := e, st := (s, { st.2 with eventsH := h, eventsL := l }), fetchedL := fetched } where
  high := by
    have none : ofPri true e.toList = [] :=
      ofPri_other fun x mem => isLow x (Option.mem_toList.mp mem)
    rw [usedH, none]
    exact usedH'.symm
  low := by
    have all : ofPri false e.toList = e.toList :=
      ofPri_same fun x mem => isLow x (Option.mem_toList.mp mem)
    rw [was, split, all]
  priority := fun _ _ _ one => done one

/-- **One call accounts for everything**: the cases are those of the code. -/
theorem eventmgtGet_accounts (inv : Buffered numStack size lb st) :
    GetAccounts numStack size st (eventmgtGetTrace numStack st) := by
  unfold eventmgtGetTrace
  rcases high : evmgtqGet st.2.eventsH with ⟨_ | e, h⟩
  · have used := rest_of_none inv.filledH (by rw [high])
    obtain ⟨f, s, fetched⟩ : ∃ f s, evmgtqFetchEvents numStack st.2.size true st.1 = (f, s) :=
      ⟨_, _, rfl⟩
    obtain ⟨invF, -, -⟩ := inv.fetchHigh used fetched
    dsimp only
    rw [fetched]
    rcases again : evmgtqGet f with ⟨_ | e, h⟩
    · have usedF := rest_of_none invF.filledH (by rw [again])
      have usedH : h.rest = [] := by
        have split := got_rest invF.filledH again
        rw [usedF] at split
        exact split.symm
      -- nothing unread and nothing to fetch: the low array may be looked at
      have done : 1 ≤ size → HighDone numStack st := fun one =>
        ⟨used, fetched_none fetched (inv.sized ▸ one) usedF⟩
      dsimp only
      rw [usedF]
      rcases low : evmgtqGet st.2.eventsL with ⟨_ | e, l⟩
      · have usedL := rest_of_none inv.filledL (by rw [low])
        obtain ⟨f', s', fetched'⟩ :
            ∃ f' s', evmgtqFetchEvents numStack st.2.lb false s = (f', s') := ⟨_, _, rfl⟩
        obtain ⟨invH, -, -⟩ := invF.getHigh again
        obtain ⟨invL, -, -, -⟩ := invH.fetchLow usedH usedL fetched'
        dsimp only
        rw [fetched']
        obtain ⟨e, l, got⟩ : ∃ e l, evmgtqGet f' = (e, l) := ⟨_, _, rfl⟩
        rw [got]
        have split := got_rest invL.filledL got
        refine accounts_low ((List.nil_append f'.rest).trans split) ?_ usedL used usedH done
        intro x mem
        exact (invL.low x (split ▸ List.mem_append_left _ (Option.mem_toList.mpr mem))).2.2.1
      · have split := got_rest inv.filledL low
        refine accounts_low ((List.append_nil _).trans split) ?_ rfl used usedH done
        intro x mem
        exact (inv.low x (split ▸ List.mem_append_left _ (Option.mem_toList.mpr mem))).2.2.1
    · have split := got_rest invF.filledH again
      exact accounts_high split (invF.high e (split ▸ List.mem_cons_self)).2.2.1 used
  · have split := got_rest inv.filledH high
    exact accounts_high ((List.append_nil _).trans split)
      (inv.high e (split ▸ List.mem_cons_self)).2.2.1 rfl

theorem getTrace_buffered (inv : Buffered numStack size lb st) :
    Buffered numStack size lb (eventmgtGetTrace numStack st).st := by
  have kept := (eventmgtGet_spec inv).1
  rwa [← eventmgtGetTrace_get] at kept

end Get

/-! ## Runs -/

/-- What happens to one application: it calls `eventmgt_get`, or events come in and masks change. -/
inductive MgtStep where
  | get
  | between (added : PolledRing → List QepollEvent) (qepoll : Nat → UInt32) (reg : Nat → QeventReg)

/-- The state, and everything fetched and handed out up to now. -/
structure MgtRun where
  st : AppRings × EventMgt
  fetchedH : List Taken := []
  fetchedL : List Taken := []
  returned : List Taken := []

namespace MgtRun

def step (numStack : Nat) (r : MgtRun) : MgtStep → MgtRun
  | .get =>
      let got := eventmgtGetTrace numStack r.st
      { st := got.st
        fetchedH := r.fetchedH ++ got.fetchedH
        fetchedL := r.fetchedL ++ got.fetchedL
        returned := r.returned ++ got.ret.toList }
  | .between added qepoll reg =>
      { r with st := ({ queued := fun q => r.st.1.queued q ++ added q, qepoll, reg }, r.st.2) }

def start (size lb : Int) (s : AppRings) : MgtRun := { st := (s, eventmgtInit size lb) }

/-- The cursors have skipped nothing and have handed out nothing twice. -/
structure Balanced (numStack : Nat) (size lb : Int) (r : MgtRun) : Prop where
  buffered : Buffered numStack size lb r.st
  high : r.fetchedH = ofPri true r.returned ++ r.st.2.eventsH.rest
  low : r.fetchedL = ofPri false r.returned ++ r.st.2.eventsL.rest

theorem Balanced.start (numStack : Nat) (size lb : Int) (s : AppRings) :
    Balanced numStack size lb (start size lb s) where
  buffered := ⟨rfl, rfl, fun positive => absurd positive (Int.lt_irrefl 0),
    fun positive => absurd positive (Int.lt_irrefl 0), fun _ mem => absurd mem List.not_mem_nil,
    fun _ mem => absurd mem List.not_mem_nil⟩
  high := rfl
  low := rfl

theorem Balanced.step {numStack : Nat} {size lb : Int} {r : MgtRun}
    (inv : Balanced numStack size lb r) (e : MgtStep) :
    Balanced numStack size lb (r.step numStack e) := by
  cases e with
  | get =>
      have accounts := eventmgtGet_accounts inv.buffered
      refine ⟨getTrace_buffered inv.buffered, ?_, ?_⟩
      · change r.fetchedH ++ _ = ofPri true (r.returned ++ _) ++ _
        rw [inv.high, List.append_assoc, accounts.high, ofPri_append, List.append_assoc]
        rfl
      · change r.fetchedL ++ _ = ofPri false (r.returned ++ _) ++ _
        rw [inv.low, List.append_assoc, accounts.low, ofPri_append, List.append_assoc]
        rfl
  | between added qepoll reg =>
      obtain ⟨sized, bounded, filledH, filledL, high, low⟩ := inv.buffered
      exact ⟨⟨sized, bounded, filledH, filledL, high, low⟩, inv.high, inv.low⟩

theorem Balanced.run (numStack : Nat) (size lb : Int) (s : AppRings) (es : List MgtStep) :
    Balanced numStack size lb (Lib.Run.run (MgtRun.step numStack) (MgtRun.start size lb s) es) := by
  have along := Lib.Run.along_of_step (P := Balanced numStack size lb)
    (fun r e inv _ => inv.step e) es _ (Balanced.start numStack size lb s)
    (Lib.Run.allowed_always es _)
  exact along.last es _

end MgtRun

/-- **`eventmgt_get` over every run**: the next call returns a low event only when no high event is
there, if `size` is positive; and for any limits the events fetched into an array are those handed
out of it and those still unread, in order. -/
theorem eventmgt_law (numStack : Nat) (size lb : Int) (s : AppRings) (es : List MgtStep) :
    let r := Lib.Run.run (MgtRun.step numStack) (MgtRun.start size lb s) es
    (1 ≤ size → ∀ e, (eventmgtGet numStack r.st).1 = some e → e.1.pri = false →
      HighDone numStack r.st) ∧
    r.fetchedH = ofPri true r.returned ++ r.st.2.eventsH.rest ∧
    r.fetchedL = ofPri false r.returned ++ r.st.2.eventsL.rest := by
  have inv := MgtRun.Balanced.run numStack size lb s es
  refine ⟨fun one e got isLow => ?_, inv.high, inv.low⟩
  rw [← eventmgtGetTrace_get] at got
  exact (eventmgtGet_accounts inv.buffered).priority e got isLow one

/-- One event on some rings of the first stack -/
def queuedOn (on : PolledRing → Bool) : AppRings where
  queued q := if on q then [⟨q.pri, 1, 1, 0⟩] else []
  qepoll _ := 1
  reg _ := {}

/-- A low event is handed out, and no high one was there. -/
theorem eventmgt_law_low :
    HighDone 1 (MgtRun.start 4 4 (queuedOn fun q => q = ⟨0, .stackToQe, false⟩)).st :=
  (eventmgt_law 1 4 4 (queuedOn fun q => q = ⟨0, .stackToQe, false⟩) []).1 (by decide)
    (⟨0, .stackToQe, false⟩, ⟨false, 1, 1, 0⟩) (by decide) rfl

/-- **An array of no size hides the high events**: the low one is handed out first. -/
theorem no_size_low_first :
    ¬ ∀ (numStack : Nat) (size lb : Int) (s : AppRings) (es : List MgtStep),
      let r := Lib.Run.run (MgtRun.step numStack) (MgtRun.start size lb s) es
      (∀ e, (eventmgtGet numStack r.st).1 = some e → e.1.pri = false → HighDone numStack r.st) ∧
      r.fetchedH = ofPri true r.returned ++ r.st.2.eventsH.rest ∧
      r.fetchedL = ofPri false r.returned ++ r.st.2.eventsL.rest := by
  intro all
  have low := (all 1 0 4 (queuedOn fun q => q.dire = .stackToQe) []).1
    (⟨0, .stackToQe, false⟩, ⟨false, 1, 1, 0⟩) (by decide) rfl
  exact absurd (low.2 0 Nat.zero_lt_one) (by decide)

end QStack
