/-
# QStack.RecvThreads -- rb_put and rb_get on two threads

The stack thread files mbufs with `rb_put` while the application takes them with `q_recv`.
`high_q` and `merged_q` are rings with one writer and one reader (`SpscRing`), and the fields of
an mbuf and `head_seq` are plain memory.  Each access to what the two threads share is a step
here; what only the stack thread uses (`merged_next`, `ooo_list`) is read and written with the
step next to it.  An id names one received mbuf: the driver fills a new one for each `rb_put`.

`rb_put` publishes an mbuf before it writes `MBUF_STATE_RBUFFED`, and the state is what `rb_get`
tells an unread mbuf from a read one by.  An application that is fast enough finds the state
still `MBUF_STATE_RCVED` and frees the mbuf as already processed.

* `GetOk`, `PutOk`: the steps that stay clear of this, and of what `rb_put` does wrong on its own
  (`RecvBuff`);
* `Inv`: an mbuf is unread exactly as long as it has not been returned, and every one that is
  filed is on a ring, on `ooo_list`, in the hand of the application or returned;
* `returned_once`: over every interleaving of such steps an accepted mbuf is returned once and
  is freed by `rb_get` only after that;
* `freed_unread`: the interleaving that loses one.
-/
import QStack.RecvPut
import QStack.SpscRing

namespace QStack

set_option autoImplicit false

/-- Where the stack thread stands in `rb_put`. -/
inductive PutAt where
  | idle
  /-- `head_seq` is to be read -/
  | bound (id : MbufId)
  /-- `holding = 0` is to be written -/
  | hold (id : MbufId)
  /-- the full test of `high_q` -/
  | highTest (id : MbufId)
  | highSlot (id : MbufId)
  | highPublish (id : MbufId)
  /-- `holding = 1` is to be written -/
  | highHold (id : MbufId)
  /-- `mbuf_state = MBUF_STATE_RBUFFED` is to be written, for a priority mbuf -/
  | highMark (id : MbufId)
  /-- `tcp_seq == merged_next`, then the full test of `merged_q` or `ooo_insert` -/
  | place (id : MbufId)
  | mergedSlot (id : MbufId)
  | mergedPublish (id : MbufId)
  /-- `merged_next` and `try_merge_ooo` -/
  | merge (id : MbufId)
  /-- `mbuf_state = MBUF_STATE_RBUFFED` is to be written, for the others, and `rb_put` returns -/
  | finish (id : MbufId)
deriving DecidableEq, Repr

/-- Where the application stands in `q_recv`. -/
inductive GetAt where
  | idle
  /-- the empty test of `high_q` -/
  | highTest
  | highLoad
  | highAdvance (id : MbufId)
  /-- `mbuf_state` of an mbuf from `high_q` is to be read -/
  | highState (id : MbufId)
  /-- `tcp_seq == head_seq`, then the empty test of `merged_q` -/
  | highSeq (id : MbufId)
  /-- the mbuf that is dequeued from `merged_q` along with `id` -/
  | pairLoad (id : MbufId)
  | pairAdvance (id first : MbufId)
  /-- `head_seq` is to be written -/
  | pairHead (id : MbufId)
  /-- `holding = 0` is to be written -/
  | pairHold (id : MbufId)
  /-- the empty test of `merged_q` -/
  | mergedTest
  | mergedLoad
  | mergedAdvance (id : MbufId)
  /-- `head_seq` is to be written -/
  | mergedHead (id : MbufId)
  /-- `mbuf_state` of an mbuf from `merged_q` is to be read -/
  | mergedState (id : MbufId)
  /-- `rb_get` has returned the mbuf, `MBUF_STATE_RREAD` is to be written -/
  | mark (id : MbufId)
deriving DecidableEq, Repr

namespace PutAt

/-- The place on `high_q`. -/
def high : PutAt → ProducerAt MbufId
  | .highSlot id => .admitted id
  | .highPublish id => .stored id
  | _ => .idle

/-- The place on `merged_q`. -/
def merged : PutAt → ProducerAt MbufId
  | .mergedSlot id => .admitted id
  | .mergedPublish id => .stored id
  | _ => .idle

/-- The mbuf that `rb_put` was called for. -/
def id? : PutAt → Option MbufId
  | .idle => none
  | .bound id | .hold id | .highTest id | .highSlot id | .highPublish id | .highHold id
  | .highMark id | .place id | .mergedSlot id | .mergedPublish id | .merge id
  | .finish id => some id

/-- The mbuf that is going to `high_q`. -/
def urgent : PutAt → Option MbufId
  | .highTest id | .highSlot id | .highPublish id | .highHold id | .highMark id => some id
  | _ => none

/-- The mbuf whose `MBUF_STATE_RBUFFED` is still to be written. -/
def unmarked (prio : MbufId → Bool) : PutAt → Option MbufId
  | .idle => none
  | .bound id | .hold id | .highTest id | .highSlot id | .highPublish id | .highHold id
  | .highMark id => some id
  | .place id | .mergedSlot id | .mergedPublish id | .merge id | .finish id =>
      if prio id then none else some id

/-- The mbuf that has been published, or listed. -/
def filing (prio : MbufId → Bool) : PutAt → Option MbufId
  | .highHold id | .highMark id | .merge id | .finish id => some id
  | .place id | .mergedSlot id | .mergedPublish id => if prio id then some id else none
  | _ => none

end PutAt

namespace GetAt

def high : GetAt → ConsumerAt MbufId
  | .highLoad => .admitted
  | .highAdvance id => .loaded (some id)
  | _ => .idle

def merged : GetAt → ConsumerAt MbufId
  | .pairLoad _ | .mergedLoad => .admitted
  | .pairAdvance _ first => .loaded (some first)
  | .mergedAdvance id => .loaded (some id)
  | _ => .idle

/-- The mbuf that the application has taken off a ring and not returned. -/
def hand : GetAt → Option MbufId
  | .highState id | .highSeq id | .pairLoad id | .pairAdvance id _ | .pairHead id | .pairHold id
  | .mergedHead id | .mergedState id => some id
  | _ => none

/-- The mbuf that it is about to return. -/
def taking : GetAt → Option MbufId
  | .highSeq id | .pairLoad id | .pairAdvance id _ | .pairHead id | .pairHold id => some id
  | _ => none

end GetAt

structure RecvThreads where
  mbuf : MbufId → Mbuf
  high : Spsc MbufId
  merged : Spsc MbufId
  ooo : List MbufId
  size : Seq
  headSeq : Seq
  mergedNext : Seq
  putter : PutAt
  getter : GetAt
  /-- a store outside the modelled memory -/
  stray : Bool
  /-- the mbufs that `rb_put` was called for -/
  puts : List MbufId
  /-- those for which it did not return `FAILED` -/
  accepted : List MbufId
  /-- what `rb_get` returned, latest first -/
  returned : List MbufId
  /-- what `try_get_high_mbuf` and `try_get_merged_mbuf` freed -/
  freed : List MbufId

inductive ThreadStep where
  /-- the stack calls `rb_put` for an mbuf that the driver has just filled -/
  | rbPut (id : MbufId) (m : Mbuf)
  /-- the next step of the stack thread -/
  | put
  /-- the application calls `q_recv` -/
  | qRecv
  /-- the next step of the application -/
  | get
deriving DecidableEq

namespace RecvThreads

def modify (s : RecvThreads) (id : MbufId) (f : Mbuf → Mbuf) : RecvThreads :=
  { s with mbuf := Function.update s.mbuf id (f (s.mbuf id)) }

def setState (s : RecvThreads) (id : MbufId) (state : MbufState) : RecvThreads :=
  s.modify id fun m => { m with mbufState := state }

def setHolding (s : RecvThreads) (id : MbufId) (holding : Bool) : RecvThreads :=
  s.modify id fun m => { m with holding := holding }

def putTo (s : RecvThreads) (p : PutAt) : RecvThreads := { s with putter := p }

def getTo (s : RecvThreads) (g : GetAt) : RecvThreads := { s with getter := g }

/-! ## rb_put -/

/-- The buffer as `try_merge_ooo` sees it. -/
def rcvMem (s : RecvThreads) : RcvMem :=
  { mbuf := s.mbuf
    buff :=
      { mergedQ := s.merged.q, oooList := s.ooo, highQ := s.high.q, size := s.size, initSeq := 0
        headSeq := s.headSeq, mergedNext := s.mergedNext } }

/-- `try_merge_ooo` as it stands, on a direct ring. -/
def tryMergeOoo (s : RecvThreads) : RecvThreads :=
  let w := s.rcvMem.tryMergeOoo.2
  { s with
    mbuf := w.mbuf
    merged := { s.merged with q := w.buff.mergedQ }
    ooo := w.buff.oooList
    mergedNext := w.buff.mergedNext
    stray := s.stray || !w.faults.isEmpty }

def accept (s : RecvThreads) (id : MbufId) : RecvThreads :=
  { s with putter := .idle, accepted := id :: s.accepted }

/-- The full test of `merged_q`, or `ooo_insert`.  A full ring goes on as if the mbuf were
there. -/
def place (s : RecvThreads) (id : MbufId) : RecvThreads :=
  if (s.mbuf id).tcpSeq = s.mergedNext then
    if s.merged.q.cirqFull then s.putTo (.merge id)
    else { s with merged := s.merged.step (.add id), putter := .mergedSlot id }
  else
    match oooInsert s.mbuf id s.ooo with
    | .inserted list => { s with ooo := list, putter := .finish id }
    | .swapped => { s with stray := true, putter := .finish id }
    | .duplicate => s.putTo .idle

def putStep (s : RecvThreads) : RecvThreads :=
  match s.putter with
  | .idle => s
  | .bound id =>
      if tcpSeqGt (s.mbuf id).seqEnd (s.headSeq + s.size) then s.putTo .idle
      else s.putTo (.hold id)
  | .hold id =>
      (s.setHolding id false).putTo (if (s.mbuf id).priority then .highTest id else .place id)
  | .highTest id =>
      if s.high.q.cirqFull then s.putTo (.place id)
      else { s with high := s.high.step (.add id), putter := .highSlot id }
  | .highSlot id => { s with high := s.high.step .produce, putter := .highPublish id }
  | .highPublish id => { s with high := s.high.step .produce, putter := .highHold id }
  | .highHold id => (s.setHolding id true).putTo (.highMark id)
  | .highMark id => (s.setState id .rbuffed).putTo (.place id)
  | .place id => s.place id
  | .mergedSlot id => { s with merged := s.merged.step .produce, putter := .mergedPublish id }
  | .mergedPublish id => { s with merged := s.merged.step .produce, putter := .merge id }
  | .merge id =>
      ({ s with mergedNext := (s.mbuf id).seqEnd } : RecvThreads).tryMergeOoo.putTo (.finish id)
  | .finish id =>
      if (s.mbuf id).priority then s.accept id else (s.setState id .rbuffed).accept id

/-! ## rb_get -/

def give (s : RecvThreads) (id : MbufId) : RecvThreads :=
  { s with getter := .mark id, returned := id :: s.returned }

/-- `mbuf_free` of an mbuf that is taken to be processed. -/
def free (s : RecvThreads) (id : MbufId) (next : GetAt) : RecvThreads :=
  { s.setState id .free with getter := next, freed := id :: s.freed }

/-- The slot that a ring gives. -/
def loaded (r : Spsc MbufId) : Option MbufId :=
  match r.consumer with
  | .loaded item => item
  | _ => none

def getStep (s : RecvThreads) : RecvThreads :=
  match s.getter with
  | .idle => s
  | .highTest =>
      if s.high.q.cirqEmpty then s.getTo .mergedTest
      else { s with high := s.high.step .get, getter := .highLoad }
  | .highLoad =>
      match loaded (s.high.step .consume) with
      | none => s
      | some id => { s with high := s.high.step .consume, getter := .highAdvance id }
  | .highAdvance id => { s with high := s.high.step .consume, getter := .highState id }
  | .highState id =>
      if (s.mbuf id).mbufState = .rbuffed then s.getTo (.highSeq id)
      else s.free id .highTest
  | .highSeq id =>
      if (s.mbuf id).tcpSeq = s.headSeq then
        if s.merged.q.cirqEmpty then s.give id
        else { s with merged := s.merged.step .get, getter := .pairLoad id }
      else s.give id
  | .pairLoad id =>
      match loaded (s.merged.step .consume) with
      | none => s
      | some first => { s with merged := s.merged.step .consume, getter := .pairAdvance id first }
  | .pairAdvance id _ => { s with merged := s.merged.step .consume, getter := .pairHead id }
  | .pairHead id => { s with headSeq := s.headSeq + (s.mbuf id).len, getter := .pairHold id }
  | .pairHold id => (s.setHolding id false).give id
  | .mergedTest =>
      if s.merged.q.cirqEmpty then s.getTo .idle
      else { s with merged := s.merged.step .get, getter := .mergedLoad }
  | .mergedLoad =>
      match loaded (s.merged.step .consume) with
      | none => s
      | some id => { s with merged := s.merged.step .consume, getter := .mergedAdvance id }
  | .mergedAdvance id => { s with merged := s.merged.step .consume, getter := .mergedHead id }
  | .mergedHead id => { s with headSeq := s.headSeq + (s.mbuf id).len, getter := .mergedState id }
  | .mergedState id =>
      if (s.mbuf id).mbufState = .rbuffed then s.give id else s.free id .mergedTest
  | .mark id => (s.setState id .rread).getTo .idle

def step (s : RecvThreads) : ThreadStep → RecvThreads
  | .rbPut id m =>
      if s.putter = .idle ∧ id ∉ s.puts then
        { s with
          mbuf := Function.update s.mbuf id { m with mbufState := .rcved }
          puts := id :: s.puts
          putter := .bound id }
      else s
  | .put => s.putStep
  | .qRecv => if s.getter = .idle then s.getTo .highTest else s
  | .get => s.getStep

/-- `rb_init`, over any contents of the memory. -/
def start (rcvbufSize : Nat) (initSeq : Seq) (mbuf : MbufId → Mbuf) : RecvThreads :=
  { mbuf := mbuf
    high := Spsc.init staticBuffSize
    merged := Spsc.init staticBuffSize
    ooo := []
    size := BitVec.ofNat 32 (1400 * rcvbufSize)
    headSeq := initSeq
    mergedNext := initSeq
    putter := .idle
    getter := .idle
    stray := false
    puts := []
    accepted := []
    returned := []
    freed := [] }

/-! ## The law -/

/-- Both calls have returned and the rings are empty. -/
structure Drained (s : RecvThreads) : Prop where
  putter : s.putter = .idle
  getter : s.getter = .idle
  high : s.high.queued = []
  merged : s.merged.queued = []

/-- **An accepted mbuf is returned exactly once** when the buffer is drained, unless it still
waits in `ooo_list` for an earlier one, and none is freed as processed that was not returned. -/
structure Law (s : RecvThreads) : Prop where
  once : ∀ id, s.returned.count id ≤ 1
  processed : ∀ id ∈ s.freed, id ∈ s.returned
  drained : s.Drained → ∀ id ∈ s.accepted, id ∉ s.ooo → s.returned.count id = 1

/-- The steps of the application that lose nothing: the state of an mbuf is read after the stack
has written it, and what is dequeued from `merged_q` along with a priority mbuf is that mbuf. -/
def GetOk (s : RecvThreads) : GetAt → Prop
  | .highState id | .mergedState id => (s.mbuf id).mbufState ≠ .rcved
  | .highSeq id => (s.mbuf id).tcpSeq = s.headSeq → ∀ first ∈ s.merged.queued.head?, first = id
  | _ => True

/-- The steps of the stack that lose nothing: a ring has room, nothing is merged from `ooo_list`,
and nothing is put before its head. -/
def PutOk (s : RecvThreads) : PutAt → Prop
  | .highTest _ => s.high.q.cirqFull = false
  | .place id =>
      if (s.mbuf id).tcpSeq = s.mergedNext then s.merged.q.cirqFull = false
      else
        match oooInsert s.mbuf id s.ooo with
        | .swapped => False
        | _ => True
  | .merge id => ∀ first ∈ s.ooo.head?, tcpSeqLeq (s.mbuf first).tcpSeq (s.mbuf id).seqEnd = false
  | _ => True

def StepOk (s : RecvThreads) : ThreadStep → Prop
  | .get => s.GetOk s.getter
  | .put => s.PutOk s.putter
  | _ => True

/-! ## The invariant -/

def state (s : RecvThreads) (id : MbufId) : MbufState := (s.mbuf id).mbufState

def prio (s : RecvThreads) (id : MbufId) : Bool := (s.mbuf id).priority

/-- An mbuf is in one of the places from which it will be returned, or has been. -/
def Filed (s : RecvThreads) (hi me : List MbufId) (id : MbufId) : Prop :=
  id ∈ hi ∨ id ∈ me ∨ id ∈ s.ooo ∨ s.getter.hand = some id ∨ id ∈ s.returned

/-- What is dequeued along with a priority mbuf is the mbuf. -/
def Paired (me : List MbufId) : GetAt → Prop
  | .pairLoad id => me.head? = some id
  | .pairAdvance id first => first = id
  | _ => True

/-- `hi` and `me` are what is queued on the two rings. -/
structure Inv (s : RecvThreads) (hi me : List MbufId) : Prop where
  high : s.high.Stands s.putter.high s.getter.high hi
  merged : s.merged.Stands s.putter.merged s.getter.merged me
  known : ∀ id, s.Filed hi me id → id ∈ s.puts
  own : ∀ id, s.putter.id? = some id → id ∈ s.puts
  urgent : ∀ id, s.putter.urgent = some id → s.prio id = true
  unmarked : ∀ id, s.putter.unmarked s.prio = some id → s.state id = .rcved
  filing : ∀ id, s.putter.filing s.prio = some id → s.Filed hi me id
  accepted : ∀ id ∈ s.accepted, s.Filed hi me id
  unread : ∀ id ∈ s.puts, id ∉ s.returned → s.state id = .rcved ∨ s.state id = .rbuffed
  read : ∀ id ∈ s.returned, s.state id ≠ .rcved ∧ (s.state id = .rbuffed → s.getter = .mark id)
  taking : ∀ id, s.getter.taking = some id → id ∉ s.returned ∧ s.state id ≠ .rcved
  marking : ∀ id, s.getter = .mark id → id ∈ s.returned
  paired : Paired me s.getter
  freed : ∀ id ∈ s.freed, id ∈ s.returned
  nodup : s.returned.Nodup

section Inv

variable {s : RecvThreads} {hi me : List MbufId}

/-- The invariant is the law, and more. -/
theorem Inv.law (inv : s.Inv hi me) : s.Law where
  once id := List.nodup_iff_count_le_one.mp inv.nodup id
  processed := inv.freed
  drained := by
    intro drained id accepted listed
    have high : hi = [] := inv.high.queued_eq.symm.trans drained.high
    have merged : me = [] := inv.merged.queued_eq.symm.trans drained.merged
    apply List.count_eq_one_of_mem inv.nodup
    rcases inv.accepted id accepted with mem | mem | mem | hand | mem
    · rw [high] at mem
      cases mem
    · rw [merged] at mem
      cases mem
    · exact absurd mem listed
    · rw [drained.getter] at hand
      cases hand
    · exact mem

theorem start_inv (rcvbufSize : Nat) (initSeq : Seq) (mbuf : MbufId → Mbuf) :
    (start rcvbufSize initSeq mbuf).Inv [] [] where
  high := ⟨Spsc.init_shared (by decide), rfl, rfl⟩
  merged := ⟨Spsc.init_shared (by decide), rfl, rfl⟩
  known := by
    rintro id (mem | mem | mem | hand | mem)
    all_goals first | cases mem | cases hand
  own _ none := nomatch none
  urgent _ none := nomatch none
  unmarked _ none := nomatch none
  filing _ none := nomatch none
  accepted _ none := nomatch none
  unread _ none := nomatch none
  read _ none := nomatch none
  taking _ none := nomatch none
  marking _ none := nomatch none
  paired := trivial
  freed _ none := nomatch none
  nodup := List.nodup_nil

/-! `holding` is not in the invariant, and a state is written for one mbuf. -/

theorem modify_mbuf (s : RecvThreads) (id other : MbufId) (f : Mbuf → Mbuf) :
    (s.modify id f).mbuf other = if other = id then f (s.mbuf id) else s.mbuf other := by
  by_cases same : other = id
  · subst same
    simp [modify]
  · simp [modify, same]

theorem prio_modify (s : RecvThreads) (id : MbufId) {f : Mbuf → Mbuf}
    (keeps : ∀ m, (f m).priority = m.priority) : (s.modify id f).prio = s.prio := by
  funext other
  rw [prio, modify_mbuf]
  split
  · rename_i same
    rw [same, keeps]
    rfl
  · rfl

@[simp] theorem prio_setState (s : RecvThreads) (id : MbufId) (state : MbufState) :
    (s.setState id state).prio = s.prio := prio_modify s id fun _ => rfl

@[simp] theorem prio_setHolding (s : RecvThreads) (id : MbufId) (holding : Bool) :
    (s.setHolding id holding).prio = s.prio := prio_modify s id fun _ => rfl

theorem state_setState (s : RecvThreads) (id other : MbufId) (state : MbufState) :
    (s.setState id state).state other = if other = id then state else s.state other := by
  rw [RecvThreads.state, setState, modify_mbuf]
  split <;> rfl

@[simp] theorem state_setHolding (s : RecvThreads) (id : MbufId) (holding : Bool) :
    (s.setHolding id holding).state = s.state := by
  funext other
  rw [state, setHolding, modify_mbuf]
  split
  · rename_i same
    rw [same]
    rfl
  · rfl

theorem Inv.holding (inv : s.Inv hi me) (id : MbufId) (holding : Bool) :
    (s.setHolding id holding).Inv hi me := by
  refine { inv with
    urgent := ?_, unmarked := ?_, filing := ?_, unread := ?_, read := ?_, taking := ?_ }
  · rw [prio_setHolding]
    exact inv.urgent
  · rw [prio_setHolding, state_setHolding]
    exact inv.unmarked
  · rw [prio_setHolding]
    exact inv.filing
  · rw [state_setHolding]
    exact inv.unread
  · rw [state_setHolding]
    exact inv.read
  · rw [state_setHolding]
    exact inv.taking

/-! ## The stack thread -/

/-- The stack thread goes from one place to the next, on rings from which it takes nothing. -/
theorem Inv.put (inv : s.Inv hi me) {p : PutAt} {high merged : Spsc MbufId} {hi' me' : List MbufId}
    (onHigh : high.Stands p.high s.getter.high hi')
    (onMerged : merged.Stands p.merged s.getter.merged me')
    (keeps : ∀ x, x ∈ hi ∨ x ∈ me → x ∈ hi' ∨ x ∈ me')
    (new : ∀ x, x ∈ hi' ∨ x ∈ me' → x ∈ hi ∨ x ∈ me ∨ x ∈ s.puts)
    (own : ∀ id, p.id? = some id → id ∈ s.puts)
    (urgent : ∀ id, p.urgent = some id → s.prio id = true)
    (unmarked : ∀ id, p.unmarked s.prio = some id → s.state id = .rcved)
    (filing : ∀ id, p.filing s.prio = some id → id ∈ hi' ∨ id ∈ me' ∨ s.Filed hi me id)
    (paired : Paired me' s.getter) :
    Inv { s with high := high, merged := merged, putter := p } hi' me' := by
  have filed : ∀ id, s.Filed hi me id →
      Filed { s with high := high, merged := merged, putter := p } hi' me' id := by
    rintro id (mem | mem | rest)
    · rcases keeps id (.inl mem) with here | here
      · exact .inl here
      · exact .inr (.inl here)
    · rcases keeps id (.inr mem) with here | here
      · exact .inl here
      · exact .inr (.inl here)
    · exact .inr (.inr rest)
  refine { inv with
    high := onHigh, merged := onMerged, own := own, urgent := urgent, unmarked := unmarked
    paired := paired, known := ?_, filing := ?_
    accepted := fun id mem => filed id (inv.accepted id mem) }
  · have old : ∀ id, id ∈ hi ∨ id ∈ me ∨ id ∈ s.puts → id ∈ s.puts := by
      rintro id (mem | mem | mem)
      · exact inv.known id (.inl mem)
      · exact inv.known id (.inr (.inl mem))
      · exact mem
    rintro id (mem | mem | rest)
    · exact old id (new id (.inl mem))
    · exact old id (new id (.inr mem))
    · exact inv.known id (.inr (.inr rest))
  · intro id is
    rcases filing id is with mem | mem | before
    · exact .inl mem
    · exact .inr (.inl mem)
    · exact filed id before

/-- What the invariant says of the stack thread at `p`. -/
structure PutInv (s : RecvThreads) (hi me : List MbufId) (p : PutAt) : Prop where
  high : s.high.Stands p.high s.getter.high hi
  merged : s.merged.Stands p.merged s.getter.merged me
  own : ∀ id, p.id? = some id → id ∈ s.puts
  urgent : ∀ id, p.urgent = some id → s.prio id = true
  unmarked : ∀ id, p.unmarked s.prio = some id → s.state id = .rcved
  filing : ∀ id, p.filing s.prio = some id → s.Filed hi me id

theorem Inv.putter (inv : s.Inv hi me) {p : PutAt} (here : s.putter = p) : s.PutInv hi me p := by
  subst here
  exact ⟨inv.high, inv.merged, inv.own, inv.urgent, inv.unmarked, inv.filing⟩

/-- The call can end where the thread is at no ring. -/
theorem PutInv.idle {p : PutAt} (putter : s.PutInv hi me p) (high : p.high = .idle)
    (merged : p.merged = .idle) : s.PutInv hi me .idle where
  high := by
    rw [show PutAt.idle.high = p.high from high.symm]
    exact putter.high
  merged := by
    rw [show PutAt.idle.merged = p.merged from merged.symm]
    exact putter.merged
  own := nofun
  urgent := nofun
  unmarked := nofun
  filing := nofun

theorem PutInv.holding {p : PutAt} (putter : s.PutInv hi me p) (id : MbufId) (holding : Bool) :
    (s.setHolding id holding).PutInv hi me p := by
  refine { putter with urgent := ?_, unmarked := ?_, filing := ?_ }
  · rw [prio_setHolding]
    exact putter.urgent
  · rw [prio_setHolding, state_setHolding]
    exact putter.unmarked
  · rw [prio_setHolding]
    exact putter.filing

/-- It goes on with the rings as they are. -/
theorem Inv.putOn (inv : s.Inv hi me) {p : PutAt} (next : s.PutInv hi me p) :
    (s.putTo p).Inv hi me :=
  { inv with
    high := next.high, merged := next.merged, own := next.own, urgent := next.urgent
    unmarked := next.unmarked, filing := next.filing }

/-- `MBUF_STATE_RBUFFED` is written for an mbuf that nobody has looked at. -/
theorem Inv.rbuffed (inv : s.Inv hi me) {p : PutAt} {id : MbufId} (isNew : s.state id = .rcved)
    (next : s.PutInv hi me p) (unmarked : p.unmarked s.prio = none) :
    ((s.setState id .rbuffed).putTo p).Inv hi me := by
  have prio : ((s.setState id .rbuffed).putTo p).prio = s.prio := prio_setState s id .rbuffed
  have state : ∀ x, ((s.setState id .rbuffed).putTo p).state x =
      if x = id then .rbuffed else s.state x := fun x => state_setState s id x .rbuffed
  have unreturned : id ∉ s.returned := fun mem => (inv.read id mem).1 isNew
  refine { inv with
    high := next.high, merged := next.merged, own := next.own, urgent := ?_
    unmarked := ?_, filing := ?_, unread := ?_, read := ?_, taking := ?_ }
  · rw [prio]
    exact next.urgent
  · intro x is
    rw [prio] at is
    exact absurd (unmarked.symm.trans is) nofun
  · intro x is
    rw [prio] at is
    exact next.filing x is
  · intro x mem unread
    rw [state]
    split
    · exact .inr rfl
    · exact inv.unread x mem unread
  · intro x mem
    rw [state, if_neg]
    · exact inv.read x mem
    · rintro rfl
      exact unreturned mem
  · intro x is
    obtain ⟨unread, old⟩ := inv.taking x is
    refine ⟨unread, ?_⟩
    rw [state]
    split
    · exact nofun
    · exact old

/-- Nothing is merged when the head of `ooo_list` is beyond `merged_next`. -/
theorem tryMergeOoo_none (beyond : ∀ first ∈ s.ooo.head?,
    tcpSeqLeq (s.mbuf first).tcpSeq s.mergedNext = false) : s.tryMergeOoo = s := by
  have none : s.rcvMem.tryMergeOoo = (0, s.rcvMem) := by
    unfold RcvMem.tryMergeOoo
    cases list : s.rcvMem.buff.oooList with
    | nil => rfl
    | cons first rest =>
        have later : tcpSeqLeq (s.rcvMem.mbuf first).tcpSeq s.rcvMem.buff.mergedNext = false :=
          beyond first (by rw [show s.ooo = first :: rest from list]; rfl)
        rw [RcvMem.mergeLoop, if_neg (by rw [later]; exact Bool.false_ne_true)]
  unfold tryMergeOoo
  rw [none]
  simp [rcvMem]

theorem Paired.append {me : List MbufId} {g : GetAt} (paired : Paired me g) (id : MbufId) :
    Paired (me ++ [id]) g := by
  cases g with
  | pairLoad first =>
      have head : me.head? = some first := paired
      rw [Paired, List.head?_append, head]
      rfl
  | _ => exact paired

/-- An mbuf that came early is listed. -/
theorem Inv.listed (inv : s.Inv hi me) {id : MbufId} {list : List MbufId}
    (perm : list.Perm (id :: s.ooo)) (putter : s.PutInv hi me (.place id)) :
    Inv { s with ooo := list, putter := .finish id } hi me := by
  have filed : ∀ x, s.Filed hi me x →
      Filed { s with ooo := list, putter := .finish id } hi me x := by
    rintro x (mem | mem | mem | rest)
    · exact .inl mem
    · exact .inr (.inl mem)
    · exact .inr (.inr (.inl (perm.mem_iff.mpr (List.mem_cons_of_mem id mem))))
    · exact .inr (.inr (.inr rest))
  refine { inv with
    high := putter.high, merged := putter.merged, own := putter.own, urgent := nofun
    unmarked := putter.unmarked, known := ?_, filing := ?_
    accepted := fun x mem => filed x (inv.accepted x mem) }
  · rintro x (mem | mem | mem | rest)
    · exact inv.known x (.inl mem)
    · exact inv.known x (.inr (.inl mem))
    · rcases List.mem_cons.mp (perm.mem_iff.mp mem) with rfl | old
      · exact putter.own x rfl
      · exact inv.known x (.inr (.inr (.inl old)))
    · exact inv.known x (.inr (.inr (.inr rest)))
  · intro x is
    obtain rfl := Option.some.inj is
    exact .inr (.inr (.inl (perm.mem_iff.mpr List.mem_cons_self)))

/-- `rb_put` returns. -/
theorem Inv.accept (inv : (s.putTo .idle).Inv hi me) {id : MbufId} (filed : s.Filed hi me id) :
    (s.accept id).Inv hi me := by
  refine { inv with accepted := ?_ }
  intro x mem
  rcases List.mem_cons.mp mem with rfl | old
  · exact filed
  · exact inv.accepted x old

/-! One lemma for each place in `rb_put`. -/

/-- What is on the rings is known. -/
theorem mem_still {hi me puts : List MbufId} (x : MbufId) (mem : x ∈ hi ∨ x ∈ me) :
    x ∈ hi ∨ x ∈ me ∨ x ∈ puts := mem.imp_right .inl

theorem Inv.put_bound (inv : s.Inv hi me) {id : MbufId} (here : s.putter = .bound id) :
    s.putStep.Inv hi me := by
  have putter := inv.putter here
  rw [putStep, here]
  dsimp only
  split
  · exact inv.putOn (putter.idle rfl rfl)
  · exact inv.putOn { putter with urgent := nofun, filing := nofun }

theorem Inv.put_hold (inv : s.Inv hi me) {id : MbufId} (here : s.putter = .hold id) :
    s.putStep.Inv hi me := by
  have putter := inv.putter here
  rw [putStep, here]
  dsimp only
  by_cases urgent : (s.mbuf id).priority = true
  · rw [if_pos urgent]
    have next : s.PutInv hi me (.highTest id) := by
      refine { putter with urgent := ?_, filing := nofun }
      rintro x is
      obtain rfl := Option.some.inj is
      exact urgent
    exact (inv.holding id false).putOn (next.holding id false)
  · have low : s.prio id = false := by simpa [prio] using urgent
    rw [if_neg urgent]
    have next : s.PutInv hi me (.place id) := by
      refine { putter with urgent := nofun, unmarked := ?_, filing := ?_ }
      · intro x is
        obtain rfl : id = x := by simpa [PutAt.unmarked, low] using is
        exact putter.unmarked id rfl
      · intro x is
        simp [PutAt.filing, low] at is
    exact (inv.holding id false).putOn (next.holding id false)

theorem Inv.put_highTest (inv : s.Inv hi me) {id : MbufId} (here : s.putter = .highTest id)
    (room : s.high.q.cirqFull = false) : s.putStep.Inv hi me := by
  have putter := inv.putter here
  rw [putStep, here]
  dsimp only
  rw [if_neg (by rw [room]; exact Bool.false_ne_true)]
  exact inv.put (putter.high.add room id) putter.merged (fun _ mem => mem) mem_still putter.own
    putter.urgent putter.unmarked nofun inv.paired

theorem Inv.put_highSlot (inv : s.Inv hi me) {id : MbufId} (here : s.putter = .highSlot id) :
    s.putStep.Inv hi me := by
  have putter := inv.putter here
  rw [putStep, here]
  exact inv.put putter.high.slot putter.merged (fun _ mem => mem) mem_still putter.own
    putter.urgent putter.unmarked nofun inv.paired

theorem Inv.put_highPublish (inv : s.Inv hi me) {id : MbufId} (here : s.putter = .highPublish id) :
    s.putStep.Inv (hi ++ [id]) me := by
  have putter := inv.putter here
  rw [putStep, here]
  refine inv.put putter.high.publish putter.merged ?_ ?_ putter.own putter.urgent putter.unmarked
    ?_ inv.paired
  · intro x mem
    exact mem.imp_left (List.mem_append_left _)
  · rintro x (mem | mem)
    · rcases List.mem_append.mp mem with old | new
      · exact .inl old
      · rw [List.mem_singleton.mp new]
        exact .inr (.inr (putter.own id rfl))
    · exact .inr (.inl mem)
  · intro x is
    obtain rfl := Option.some.inj is
    exact .inl (List.mem_append_right _ (List.mem_singleton.mpr rfl))

theorem Inv.put_highHold (inv : s.Inv hi me) {id : MbufId} (here : s.putter = .highHold id) :
    s.putStep.Inv hi me := by
  have putter := inv.putter here
  have next : s.PutInv hi me (.highMark id) := { putter with }
  rw [putStep, here]
  exact (inv.holding id true).putOn (next.holding id true)

theorem Inv.put_highMark (inv : s.Inv hi me) {id : MbufId} (here : s.putter = .highMark id) :
    s.putStep.Inv hi me := by
  have putter := inv.putter here
  have isUrgent : s.prio id = true := putter.urgent id rfl
  have none : (PutAt.place id).unmarked s.prio = none := by simp [PutAt.unmarked, isUrgent]
  rw [putStep, here]
  refine inv.rbuffed (putter.unmarked id rfl) ?_ none
  refine { putter with urgent := nofun, unmarked := ?_, filing := ?_ }
  · exact fun x is => absurd (none.symm.trans is) nofun
  · intro x is
    have same : id = x := by simpa [PutAt.filing, isUrgent] using is
    exact same ▸ putter.filing id rfl

theorem Inv.put_place (inv : s.Inv hi me) {id : MbufId} (here : s.putter = .place id)
    (ok : s.PutOk (.place id)) : s.putStep.Inv hi me := by
  have putter := inv.putter here
  rw [putStep, here]
  dsimp only [place]
  split
  · rename_i inOrder
    have room : s.merged.q.cirqFull = false := by simpa only [PutOk, if_pos inOrder] using ok
    rw [if_neg (by rw [room]; exact Bool.false_ne_true)]
    exact inv.put putter.high (putter.merged.add room id) (fun _ mem => mem) mem_still putter.own
      nofun putter.unmarked (fun x is => .inr (.inr (putter.filing x is))) inv.paired
  · rename_i early
    cases result : oooInsert s.mbuf id s.ooo with
    | inserted list => exact inv.listed (oooInsert_perm result) putter
    | swapped => simp only [PutOk, if_neg early, result] at ok
    | duplicate => exact inv.putOn (putter.idle rfl rfl)

theorem Inv.put_mergedSlot (inv : s.Inv hi me) {id : MbufId} (here : s.putter = .mergedSlot id) :
    s.putStep.Inv hi me := by
  have putter := inv.putter here
  rw [putStep, here]
  exact inv.put putter.high putter.merged.slot (fun _ mem => mem) mem_still putter.own nofun
    putter.unmarked (fun x is => .inr (.inr (putter.filing x is))) inv.paired

theorem Inv.put_mergedPublish (inv : s.Inv hi me) {id : MbufId}
    (here : s.putter = .mergedPublish id) : s.putStep.Inv hi (me ++ [id]) := by
  have putter := inv.putter here
  rw [putStep, here]
  refine inv.put putter.high putter.merged.publish ?_ ?_ putter.own nofun putter.unmarked ?_
    (inv.paired.append id)
  · intro x mem
    exact mem.imp_right (List.mem_append_left _)
  · rintro x (mem | mem)
    · exact .inl mem
    · rcases List.mem_append.mp mem with old | new
      · exact .inr (.inl old)
      · rw [List.mem_singleton.mp new]
        exact .inr (.inr (putter.own id rfl))
  · intro x is
    obtain rfl := Option.some.inj is
    exact .inr (.inl (List.mem_append_right _ (List.mem_singleton.mpr rfl)))

theorem Inv.put_merge (inv : s.Inv hi me) {id : MbufId} (here : s.putter = .merge id)
    (ok : s.PutOk (.merge id)) : s.putStep.Inv hi me := by
  have putter := inv.putter here
  have moved : Inv { s with mergedNext := (s.mbuf id).seqEnd } hi me := { inv with }
  have none : ({ s with mergedNext := (s.mbuf id).seqEnd } : RecvThreads).tryMergeOoo =
      { s with mergedNext := (s.mbuf id).seqEnd } := tryMergeOoo_none ok
  have next : PutInv { s with mergedNext := (s.mbuf id).seqEnd } hi me (.finish id) :=
    { putter with }
  rw [putStep, here]
  dsimp only
  rw [← here, none]
  exact moved.putOn next

theorem Inv.put_finish (inv : s.Inv hi me) {id : MbufId} (here : s.putter = .finish id) :
    s.putStep.Inv hi me := by
  have putter := inv.putter here
  have filed : s.Filed hi me id := putter.filing id rfl
  rw [putStep, here]
  dsimp only
  split
  · exact (inv.putOn (putter.idle rfl rfl)).accept filed
  · rename_i low
    have isNew : s.state id = .rcved := putter.unmarked id (by simp [PutAt.unmarked, prio, low])
    have ended : ((s.setState id .rbuffed).putTo .idle).Inv hi me :=
      inv.rbuffed isNew (putter.idle rfl rfl) rfl
    exact ended.accept filed

/-- **The steps of `rb_put`.** -/
theorem putStep_inv (inv : s.Inv hi me) (ok : s.PutOk s.putter) :
    ∃ hi' me', s.putStep.Inv hi' me' := by
  cases here : s.putter with
  | idle =>
      rw [putStep, here]
      exact ⟨hi, me, inv⟩
  | bound id => exact ⟨hi, me, inv.put_bound here⟩
  | hold id => exact ⟨hi, me, inv.put_hold here⟩
  | highTest id =>
      rw [here] at ok
      exact ⟨hi, me, inv.put_highTest here ok⟩
  | highSlot id => exact ⟨hi, me, inv.put_highSlot here⟩
  | highPublish id => exact ⟨hi ++ [id], me, inv.put_highPublish here⟩
  | highHold id => exact ⟨hi, me, inv.put_highHold here⟩
  | highMark id => exact ⟨hi, me, inv.put_highMark here⟩
  | place id =>
      rw [here] at ok
      exact ⟨hi, me, inv.put_place here ok⟩
  | mergedSlot id => exact ⟨hi, me, inv.put_mergedSlot here⟩
  | mergedPublish id => exact ⟨hi, me ++ [id], inv.put_mergedPublish here⟩
  | merge id =>
      rw [here] at ok
      exact ⟨hi, me, inv.put_merge here ok⟩
  | finish id => exact ⟨hi, me, inv.put_finish here⟩

/-! ## The application -/

/-- What the invariant says of the application at `g`. -/
structure GetInv (s : RecvThreads) (hi me : List MbufId) (g : GetAt) : Prop where
  high : s.high.Stands s.putter.high g.high hi
  merged : s.merged.Stands s.putter.merged g.merged me
  hand : ∀ x, g.hand = some x → x ∈ s.puts
  taking : ∀ x, g.taking = some x → x ∉ s.returned ∧ s.state x ≠ .rcved
  paired : Paired me g

theorem Inv.getter (inv : s.Inv hi me) {g : GetAt} (here : s.getter = g) : s.GetInv hi me g := by
  subst here
  exact ⟨inv.high, inv.merged, fun x holds => inv.known x (.inr (.inr (.inr (.inl holds)))),
    inv.taking, inv.paired⟩

/-- The application goes from one place to the next; what it takes off a ring it has in hand. -/
theorem Inv.get (inv : s.Inv hi me) {from_ g : GetAt} (here : s.getter = from_)
    {high merged : Spsc MbufId} {hi' me' : List MbufId}
    (onHigh : high.Stands s.putter.high g.high hi')
    (onMerged : merged.Stands s.putter.merged g.merged me')
    (fewer : (∀ x ∈ hi', x ∈ hi) ∧ ∀ x ∈ me', x ∈ me)
    (keeps : ∀ x, x ∈ hi ∨ x ∈ me ∨ from_.hand = some x →
      x ∈ hi' ∨ x ∈ me' ∨ g.hand = some x ∨ x ∈ s.returned)
    (hand : ∀ x, g.hand = some x → x ∈ s.puts)
    (was : ∀ x, from_ ≠ .mark x) (now : ∀ x, g ≠ .mark x)
    (taking : ∀ x, g.taking = some x → x ∉ s.returned ∧ s.state x ≠ .rcved)
    (paired : Paired me' g) :
    Inv { s with high := high, merged := merged, getter := g } hi' me' := by
  subst here
  have filed : ∀ x, s.Filed hi me x →
      Filed { s with high := high, merged := merged, getter := g } hi' me' x := by
    have place : ∀ x, x ∈ hi' ∨ x ∈ me' ∨ g.hand = some x ∨ x ∈ s.returned →
        Filed { s with high := high, merged := merged, getter := g } hi' me' x := by
      rintro x (mem | mem | holds | mem)
      · exact .inl mem
      · exact .inr (.inl mem)
      · exact .inr (.inr (.inr (.inl holds)))
      · exact .inr (.inr (.inr (.inr mem)))
    rintro x (mem | mem | mem | holds | mem)
    · exact place x (keeps x (.inl mem))
    · exact place x (keeps x (.inr (.inl mem)))
    · exact .inr (.inr (.inl mem))
    · exact place x (keeps x (.inr (.inr holds)))
    · exact .inr (.inr (.inr (.inr mem)))
  refine { inv with
    high := onHigh, merged := onMerged, taking := taking, paired := paired
    known := ?_, read := ?_, marking := fun x is => absurd is (now x)
    filing := fun x is => filed x (inv.filing x is)
    accepted := fun x mem => filed x (inv.accepted x mem) }
  · rintro x (mem | mem | mem | holds | mem)
    · exact inv.known x (.inl (fewer.1 x mem))
    · exact inv.known x (.inr (.inl (fewer.2 x mem)))
    · exact inv.known x (.inr (.inr (.inl mem)))
    · exact hand x holds
    · exact inv.known x (.inr (.inr (.inr (.inr mem))))
  · intro x mem
    obtain ⟨old, marked⟩ := inv.read x mem
    exact ⟨old, fun unread => absurd (marked unread) (was x)⟩

/-- Nothing leaves a ring, and the mbuf in hand is the same. -/
theorem Inv.look (inv : s.Inv hi me) {from_ g : GetAt} (here : s.getter = from_)
    {high merged : Spsc MbufId} (onHigh : high.Stands s.putter.high g.high hi)
    (onMerged : merged.Stands s.putter.merged g.merged me) (hand : g.hand = from_.hand)
    (was : ∀ x, from_ ≠ .mark x) (now : ∀ x, g ≠ .mark x)
    (taking : ∀ x, g.taking = some x → x ∉ s.returned ∧ s.state x ≠ .rcved)
    (paired : Paired me g) : Inv { s with high := high, merged := merged, getter := g } hi me := by
  refine inv.get here onHigh onMerged ⟨fun _ mem => mem, fun _ mem => mem⟩ ?_ ?_ was now taking
    paired
  · rintro x (mem | mem | holds)
    · exact .inl mem
    · exact .inr (.inl mem)
    · exact .inr (.inr (.inl (hand.trans holds)))
  · intro x holds
    exact (inv.getter here).hand x (hand.symm.trans holds)

/-- `rb_get` returns the mbuf in hand. -/
theorem Inv.give (inv : s.Inv hi me) {from_ : GetAt} (here : s.getter = from_) {id : MbufId}
    (hand : from_.hand = some id) (high : from_.high = .idle) (merged : from_.merged = .idle)
    (was : ∀ x, from_ ≠ .mark x) (unreturned : id ∉ s.returned) (old : s.state id ≠ .rcved) :
    (s.give id).Inv hi me := by
  subst here
  have onHigh := inv.high
  have onMerged := inv.merged
  rw [high] at onHigh
  rw [merged] at onMerged
  have filed : ∀ x, s.Filed hi me x → (s.give id).Filed hi me x := by
    rintro x (mem | mem | mem | holds | mem)
    · exact .inl mem
    · exact .inr (.inl mem)
    · exact .inr (.inr (.inl mem))
    · obtain rfl := Option.some.inj (hand.symm.trans holds)
      exact .inr (.inr (.inr (.inr List.mem_cons_self)))
    · exact .inr (.inr (.inr (.inr (List.mem_cons_of_mem id mem))))
  have known := inv.known id (.inr (.inr (.inr (.inl hand))))
  refine { inv with
    high := onHigh, merged := onMerged, taking := nofun, paired := trivial
    known := ?_, read := ?_, marking := ?_, unread := ?_, freed := ?_
    nodup := List.nodup_cons.mpr ⟨unreturned, inv.nodup⟩
    filing := fun x is => filed x (inv.filing x is)
    accepted := fun x mem => filed x (inv.accepted x mem) }
  · rintro x (mem | mem | mem | holds | mem)
    · exact inv.known x (.inl mem)
    · exact inv.known x (.inr (.inl mem))
    · exact inv.known x (.inr (.inr (.inl mem)))
    · cases holds
    · rcases List.mem_cons.mp mem with rfl | mem
      · exact known
      · exact inv.known x (.inr (.inr (.inr (.inr mem))))
  · intro x mem unread
    exact inv.unread x mem fun returned => unread (List.mem_cons_of_mem id returned)
  · intro x mem
    rcases List.mem_cons.mp mem with rfl | mem
    · exact ⟨old, fun _ => rfl⟩
    · obtain ⟨isOld, marked⟩ := inv.read x mem
      exact ⟨isOld, fun unread => absurd (marked unread) (was x)⟩
  · intro x is
    obtain rfl := GetAt.mark.inj is
    exact List.mem_cons_self
  · intro x mem
    exact List.mem_cons_of_mem id (inv.freed x mem)

/-- The application writes a state that is neither new nor unread, for an mbuf that has been
returned. -/
theorem Inv.readState (inv : s.Inv hi me) {from_ g : GetAt} (here : s.getter = from_)
    {id : MbufId} {state : MbufState} (returned : id ∈ s.returned) (notNew : state ≠ .rcved)
    (notUnread : state ≠ .rbuffed) (high : g.high = from_.high) (merged : g.merged = from_.merged)
    (hand : ∀ x, from_.hand = some x → x ∈ s.returned) (empty : g.hand = none)
    (was : ∀ x, from_ = .mark x → x = id) (now : ∀ x, g ≠ .mark x)
    (taking : g.taking = none) (paired : Paired me g) :
    ((s.setState id state).getTo g).Inv hi me := by
  subst here
  have prio : ((s.setState id state).getTo g).prio = s.prio := prio_setState s id state
  have written : ∀ x, ((s.setState id state).getTo g).state x =
      if x = id then state else s.state x := fun x => state_setState s id x state
  have filed : ∀ x, s.Filed hi me x → ((s.setState id state).getTo g).Filed hi me x := by
    rintro x (mem | mem | mem | holds | mem)
    · exact .inl mem
    · exact .inr (.inl mem)
    · exact .inr (.inr (.inl mem))
    · exact .inr (.inr (.inr (.inr (hand x holds))))
    · exact .inr (.inr (.inr (.inr mem)))
  refine { inv with
    high := high ▸ inv.high, merged := merged ▸ inv.merged, paired := paired
    marking := fun x is => absurd is (now x), known := ?_, urgent := ?_, unmarked := ?_
    filing := ?_, unread := ?_, read := ?_, taking := ?_
    accepted := fun x mem => filed x (inv.accepted x mem) }
  · rintro x (mem | mem | mem | holds | mem)
    · exact inv.known x (.inl mem)
    · exact inv.known x (.inr (.inl mem))
    · exact inv.known x (.inr (.inr (.inl mem)))
    · exact absurd (empty.symm.trans holds) nofun
    · exact inv.known x (.inr (.inr (.inr (.inr mem))))
  · rw [prio]
    exact inv.urgent
  · rw [prio]
    intro x is
    have isNew := inv.unmarked x is
    rw [written, if_neg]
    · exact isNew
    · rintro rfl
      exact (inv.read x returned).1 isNew
  · rw [prio]
    exact fun x is => filed x (inv.filing x is)
  · intro x mem unread
    rw [written, if_neg]
    · exact inv.unread x mem unread
    · rintro rfl
      exact unread returned
  · intro x mem
    rw [written]
    split
    · exact ⟨notNew, fun is => absurd is notUnread⟩
    · rename_i other
      obtain ⟨isOld, marked⟩ := inv.read x mem
      exact ⟨isOld, fun unread => absurd (was x (marked unread)) other⟩
  · intro x is
    exact absurd (taking.symm.trans is) nofun

/-- The slot that a ring gives is the first of what is queued. -/
theorem loaded_of_stands {r : Spsc MbufId} {producer : ProducerAt MbufId} {item : Option MbufId}
    {xs : List MbufId} (stands : r.Stands producer (.loaded item) xs) : loaded r = item := by
  rw [loaded, stands.consumer]

/-- An mbuf that is found unread has not been returned. -/
theorem Inv.unreturned (inv : s.Inv hi me) {from_ : GetAt} (here : s.getter = from_)
    (was : ∀ x, from_ ≠ .mark x) {id : MbufId} (unread : s.state id = .rbuffed) :
    id ∉ s.returned :=
  fun returned => was id (here.symm.trans ((inv.read id returned).2 unread))

/-- One that is found neither new nor unread has been. -/
theorem Inv.wasReturned (inv : s.Inv hi me) {id : MbufId} (known : id ∈ s.puts)
    (old : s.state id ≠ .rcved) (read : s.state id ≠ .rbuffed) : id ∈ s.returned := by
  by_contra unreturned
  rcases inv.unread id known unreturned with is | is
  · exact old is
  · exact read is

/-- The mbuf in hand is freed as processed. -/
theorem Inv.free (inv : s.Inv hi me) {from_ g : GetAt} (here : s.getter = from_) {id : MbufId}
    (hand : from_.hand = some id) (old : s.state id ≠ .rcved) (read : s.state id ≠ .rbuffed)
    (high : g.high = from_.high) (merged : g.merged = from_.merged) (empty : g.hand = none)
    (was : ∀ x, from_ ≠ .mark x) (now : ∀ x, g ≠ .mark x) (taking : g.taking = none)
    (paired : Paired me g) : (s.free id g).Inv hi me := by
  have returned : id ∈ s.returned :=
    inv.wasReturned ((inv.getter here).hand id hand) old read
  have written : ((s.setState id .free).getTo g).Inv hi me := by
    refine inv.readState here returned nofun nofun high merged ?_ empty ?_ now taking paired
    · intro x holds
      exact Option.some.inj (hand.symm.trans holds) ▸ returned
    · exact fun x is => absurd is (was x)
  refine { written with freed := ?_ }
  intro x mem
  rcases List.mem_cons.mp mem with rfl | old
  · exact returned
  · exact inv.freed x old

/-! One lemma for each place in `rb_get`. -/

theorem Inv.get_highTest (inv : s.Inv hi me) (here : s.getter = .highTest) :
    s.getStep.Inv hi me := by
  have getter := inv.getter here
  rw [getStep, here]
  dsimp only
  split
  · exact inv.look here getter.high getter.merged rfl nofun nofun nofun trivial
  · rename_i occupied
    have admitted := getter.high.admit (by simpa using occupied)
    exact inv.look here admitted getter.merged rfl nofun nofun nofun trivial

theorem Inv.get_highLoad (inv : s.Inv hi me) (here : s.getter = .highLoad) :
    s.getStep.Inv hi me := by
  have getter := inv.getter here
  obtain ⟨id, rest, rfl, slot⟩ := getter.high.load
  rw [getStep, here]
  dsimp only
  rw [loaded_of_stands slot]
  exact inv.look here slot getter.merged rfl nofun nofun nofun trivial

theorem Inv.get_highAdvance (inv : s.Inv hi me) {id : MbufId} (here : s.getter = .highAdvance id) :
    ∃ rest, hi = id :: rest ∧ s.getStep.Inv rest me := by
  have getter := inv.getter here
  obtain ⟨rest, rfl, tail⟩ := getter.high.release
  refine ⟨rest, rfl, ?_⟩
  rw [getStep, here]
  refine inv.get here tail getter.merged ?_ ?_ ?_ nofun nofun nofun trivial
  · exact ⟨fun _ mem => List.mem_cons_of_mem id mem, fun _ mem => mem⟩
  · rintro x (mem | mem | holds)
    · rcases List.mem_cons.mp mem with rfl | later
      · exact .inr (.inr (.inl rfl))
      · exact .inl later
    · exact .inr (.inl mem)
    · cases holds
  · intro x is
    obtain rfl := Option.some.inj is
    exact inv.known id (.inl List.mem_cons_self)

theorem Inv.get_highState (inv : s.Inv hi me) {id : MbufId} (here : s.getter = .highState id)
    (ok : s.state id ≠ .rcved) : s.getStep.Inv hi me := by
  have getter := inv.getter here
  rw [getStep, here]
  dsimp only
  split
  · rename_i unread
    refine inv.look here getter.high getter.merged rfl nofun nofun ?_ trivial
    intro x is
    obtain rfl := Option.some.inj is
    exact ⟨inv.unreturned here nofun unread, ok⟩
  · rename_i read
    exact inv.free here rfl ok read rfl rfl rfl nofun nofun rfl trivial

theorem Inv.get_highSeq (inv : s.Inv hi me) {id : MbufId} (here : s.getter = .highSeq id)
    (ok : s.GetOk (.highSeq id)) : s.getStep.Inv hi me := by
  have getter := inv.getter here
  obtain ⟨unreturned, old⟩ := getter.taking id rfl
  have given : (s.give id).Inv hi me := inv.give here rfl rfl rfl nofun unreturned old
  rw [getStep, here]
  dsimp only
  split
  · rename_i atHead
    split
    · exact given
    · rename_i occupied
      have admitted := getter.merged.admit (by simpa using occupied)
      refine inv.look here getter.high admitted rfl nofun nofun getter.taking ?_
      -- the ring is not empty, and its head is the mbuf in hand
      have head := ok atHead
      rw [getter.merged.queued_eq] at head
      cases me with
      | nil => exact absurd (getter.merged.empty_iff.mpr rfl) occupied
      | cons first rest => exact congrArg some (head first rfl)
  · exact given

theorem Inv.get_pairLoad (inv : s.Inv hi me) {id : MbufId} (here : s.getter = .pairLoad id) :
    s.getStep.Inv hi me := by
  have getter := inv.getter here
  have paired : me.head? = some id := getter.paired
  obtain ⟨first, rest, rfl, slot⟩ := getter.merged.load
  rw [getStep, here]
  dsimp only
  rw [loaded_of_stands slot]
  exact inv.look here getter.high slot rfl nofun nofun getter.taking (Option.some.inj paired)

theorem Inv.get_pairAdvance (inv : s.Inv hi me) {id first : MbufId}
    (here : s.getter = .pairAdvance id first) :
    ∃ rest, me = first :: rest ∧ s.getStep.Inv hi rest := by
  have getter := inv.getter here
  obtain rfl : first = id := getter.paired
  obtain ⟨rest, rfl, tail⟩ := getter.merged.release
  refine ⟨rest, rfl, ?_⟩
  rw [getStep, here]
  refine inv.get here getter.high tail ?_ ?_ ?_ nofun nofun getter.taking trivial
  · exact ⟨fun _ mem => mem, fun _ mem => List.mem_cons_of_mem first mem⟩
  · rintro x (mem | mem | holds)
    · exact .inl mem
    · rcases List.mem_cons.mp mem with rfl | later
      · exact .inr (.inr (.inl rfl))
      · exact .inr (.inl later)
    · exact .inr (.inr (.inl holds))
  · exact getter.hand

/-- `head_seq` is not in the invariant. -/
theorem Inv.headSeq (inv : s.Inv hi me) (seq : Seq) : Inv { s with headSeq := seq } hi me :=
  { inv with }

theorem Inv.get_pairHead (inv : s.Inv hi me) {id : MbufId} (here : s.getter = .pairHead id) :
    s.getStep.Inv hi me := by
  have getter := inv.getter here
  rw [getStep, here]
  exact (inv.headSeq (s.headSeq + (s.mbuf id).len)).look here getter.high getter.merged rfl nofun
    nofun getter.taking trivial

theorem Inv.get_pairHold (inv : s.Inv hi me) {id : MbufId} (here : s.getter = .pairHold id) :
    s.getStep.Inv hi me := by
  have getter := inv.getter here
  obtain ⟨unreturned, old⟩ := getter.taking id rfl
  have same : (s.setHolding id false).state id ≠ .rcved := by
    rw [state_setHolding]
    exact old
  rw [getStep, here]
  exact (inv.holding id false).give here rfl rfl rfl nofun unreturned same

theorem Inv.get_mergedTest (inv : s.Inv hi me) (here : s.getter = .mergedTest) :
    s.getStep.Inv hi me := by
  have getter := inv.getter here
  rw [getStep, here]
  dsimp only
  split
  · exact inv.look here getter.high getter.merged rfl nofun nofun nofun trivial
  · rename_i occupied
    have admitted := getter.merged.admit (by simpa using occupied)
    exact inv.look here getter.high admitted rfl nofun nofun nofun trivial

theorem Inv.get_mergedLoad (inv : s.Inv hi me) (here : s.getter = .mergedLoad) :
    s.getStep.Inv hi me := by
  have getter := inv.getter here
  obtain ⟨id, rest, rfl, slot⟩ := getter.merged.load
  rw [getStep, here]
  dsimp only
  rw [loaded_of_stands slot]
  exact inv.look here getter.high slot rfl nofun nofun nofun trivial

theorem Inv.get_mergedAdvance (inv : s.Inv hi me) {id : MbufId}
    (here : s.getter = .mergedAdvance id) :
    ∃ rest, me = id :: rest ∧ s.getStep.Inv hi rest := by
  have getter := inv.getter here
  obtain ⟨rest, rfl, tail⟩ := getter.merged.release
  refine ⟨rest, rfl, ?_⟩
  rw [getStep, here]
  refine inv.get here getter.high tail ?_ ?_ ?_ nofun nofun nofun trivial
  · exact ⟨fun _ mem => mem, fun _ mem => List.mem_cons_of_mem id mem⟩
  · rintro x (mem | mem | holds)
    · exact .inl mem
    · rcases List.mem_cons.mp mem with rfl | later
      · exact .inr (.inr (.inl rfl))
      · exact .inr (.inl later)
    · cases holds
  · intro x is
    obtain rfl := Option.some.inj is
    exact inv.known id (.inr (.inl List.mem_cons_self))

theorem Inv.get_mergedHead (inv : s.Inv hi me) {id : MbufId} (here : s.getter = .mergedHead id) :
    s.getStep.Inv hi me := by
  have getter := inv.getter here
  rw [getStep, here]
  exact (inv.headSeq (s.headSeq + (s.mbuf id).len)).look here getter.high getter.merged rfl nofun
    nofun nofun trivial

theorem Inv.get_mergedState (inv : s.Inv hi me) {id : MbufId} (here : s.getter = .mergedState id)
    (ok : s.state id ≠ .rcved) : s.getStep.Inv hi me := by
  rw [getStep, here]
  dsimp only
  split
  · rename_i unread
    exact inv.give here rfl rfl rfl nofun (inv.unreturned here nofun unread) ok
  · rename_i read
    exact inv.free here rfl ok read rfl rfl rfl nofun nofun rfl trivial

theorem Inv.get_mark (inv : s.Inv hi me) {id : MbufId} (here : s.getter = .mark id) :
    s.getStep.Inv hi me := by
  rw [getStep, here]
  refine inv.readState here (inv.marking id here) nofun nofun rfl rfl nofun rfl ?_ nofun rfl trivial
  exact fun x is => (GetAt.mark.inj is).symm

/-- **The steps of `rb_get`.** -/
theorem getStep_inv (inv : s.Inv hi me) (ok : s.GetOk s.getter) :
    ∃ hi' me', s.getStep.Inv hi' me' := by
  cases here : s.getter with
  | idle =>
      rw [getStep, here]
      exact ⟨hi, me, inv⟩
  | highTest => exact ⟨hi, me, inv.get_highTest here⟩
  | highLoad => exact ⟨hi, me, inv.get_highLoad here⟩
  | highAdvance id =>
      obtain ⟨rest, -, next⟩ := inv.get_highAdvance here
      exact ⟨rest, me, next⟩
  | highState id =>
      rw [here] at ok
      exact ⟨hi, me, inv.get_highState here ok⟩
  | highSeq id =>
      rw [here] at ok
      exact ⟨hi, me, inv.get_highSeq here ok⟩
  | pairLoad id => exact ⟨hi, me, inv.get_pairLoad here⟩
  | pairAdvance id first =>
      obtain ⟨rest, -, next⟩ := inv.get_pairAdvance here
      exact ⟨hi, rest, next⟩
  | pairHead id => exact ⟨hi, me, inv.get_pairHead here⟩
  | pairHold id => exact ⟨hi, me, inv.get_pairHold here⟩
  | mergedTest => exact ⟨hi, me, inv.get_mergedTest here⟩
  | mergedLoad => exact ⟨hi, me, inv.get_mergedLoad here⟩
  | mergedAdvance id =>
      obtain ⟨rest, -, next⟩ := inv.get_mergedAdvance here
      exact ⟨hi, rest, next⟩
  | mergedHead id => exact ⟨hi, me, inv.get_mergedHead here⟩
  | mergedState id =>
      rw [here] at ok
      exact ⟨hi, me, inv.get_mergedState here ok⟩
  | mark id => exact ⟨hi, me, inv.get_mark here⟩

/-! ## Runs -/

/-- `rb_put` is called for an mbuf that neither thread has seen. -/
theorem Inv.rbPut (inv : s.Inv hi me) {id : MbufId} (idle : s.putter = .idle) (fresh : id ∉ s.puts)
    (m : Mbuf) :
    Inv { s with
      mbuf := Function.update s.mbuf id { m with mbufState := .rcved }
      puts := id :: s.puts
      putter := .bound id } hi me := by
  have other : ∀ x ∈ s.puts,
      state { s with
        mbuf := Function.update s.mbuf id { m with mbufState := .rcved }
        puts := id :: s.puts
        putter := .bound id } x = s.state x := by
    intro x known
    dsimp only [state]
    rw [Function.update_of_ne (ne_of_mem_of_not_mem known fresh)]
  have isNew :
      (Function.update s.mbuf id { m with mbufState := .rcved } id).mbufState = .rcved := by
    rw [Function.update_self]
  have onHigh := inv.high
  have onMerged := inv.merged
  rw [idle] at onHigh onMerged
  refine { inv with
    high := onHigh, merged := onMerged, urgent := nofun, filing := nofun
    known := fun x filed => List.mem_cons_of_mem id (inv.known x filed)
    own := ?_, unmarked := ?_, unread := ?_, read := ?_, taking := ?_ }
  · intro x is
    obtain rfl := Option.some.inj is
    exact List.mem_cons_self
  · intro x is
    obtain rfl := Option.some.inj is
    exact isNew
  · intro x mem unreturned
    rcases List.mem_cons.mp mem with rfl | known
    · exact .inl isNew
    · rw [other x known]
      exact inv.unread x known unreturned
  · intro x returned
    have known := inv.known x (.inr (.inr (.inr (.inr returned))))
    rw [other x known]
    exact inv.read x returned
  · intro x takes
    have hand : s.getter.hand = some x := by
      revert takes
      cases s.getter <;> simp [GetAt.taking, GetAt.hand]
    have known := inv.known x (.inr (.inr (.inr (.inl hand))))
    rw [other x known]
    exact inv.taking x takes

theorem step_inv (inv : ∃ hi me, s.Inv hi me) {e : ThreadStep} (ok : s.StepOk e) :
    ∃ hi me, (s.step e).Inv hi me := by
  obtain ⟨hi, me, inv⟩ := inv
  cases e with
  | rbPut id m =>
      dsimp only [step]
      split
      · rename_i may
        exact ⟨hi, me, inv.rbPut may.1 may.2 m⟩
      · exact ⟨hi, me, inv⟩
  | put => exact putStep_inv inv ok
  | qRecv =>
      dsimp only [step]
      split
      · rename_i idle
        have getter := inv.getter idle
        exact ⟨hi, me, inv.look idle getter.high getter.merged rfl nofun nofun nofun trivial⟩
      · exact ⟨hi, me, inv⟩
  | get => exact getStep_inv inv ok

end Inv

/-- **Over every interleaving of steps that stay clear of it, what `rb_put` accepts is returned
once**, and is not freed before. -/
theorem returned_once (rcvbufSize : Nat) (initSeq : Seq) (mbuf : MbufId → Mbuf)
    (es : List ThreadStep)
    (allowed : Lib.Run.Allowed step StepOk (start rcvbufSize initSeq mbuf) es) :
    Lib.Run.Along step Law (start rcvbufSize initSeq mbuf) es := by
  have lawful : ∀ s : RecvThreads, (∃ hi me, s.Inv hi me) → s.Law := by
    rintro s ⟨hi, me, inv⟩
    exact inv.law
  apply Lib.Run.Along.mono lawful
  have kept : ∀ (s : RecvThreads) e, (∃ hi me, s.Inv hi me) → s.StepOk e →
      ∃ hi me, (s.step e).Inv hi me := fun _ _ inv ok => step_inv inv ok
  exact Lib.Run.along_of_step kept es _ ⟨[], [], start_inv rcvbufSize initSeq mbuf⟩ allowed

instance GetOk.decidable (s : RecvThreads) : ∀ g : GetAt, Decidable (s.GetOk g)
  | .highState _ | .mergedState _ => inferInstanceAs (Decidable (_ ≠ _))
  | .highSeq id => inferInstanceAs (Decidable (_ → ∀ first ∈ s.merged.queued.head?, first = id))
  | .idle | .highTest | .highLoad | .highAdvance _ | .pairLoad _ | .pairAdvance _ _ | .pairHead _
  | .pairHold _ | .mergedTest | .mergedLoad | .mergedAdvance _ | .mergedHead _ | .mark _ =>
      .isTrue trivial

instance PutOk.decidable (s : RecvThreads) : ∀ p : PutAt, Decidable (s.PutOk p)
  | .highTest _ => inferInstanceAs (Decidable (_ = false))
  | .place id =>
      if inOrder : (s.mbuf id).tcpSeq = s.mergedNext then
        decidable_of_iff (s.merged.q.cirqFull = false) (by simp [PutOk, inOrder])
      else
        match result : oooInsert s.mbuf id s.ooo with
        | .swapped => .isFalse (by simp [PutOk, inOrder, result])
        | .inserted _ | .duplicate => .isTrue (by simp [PutOk, inOrder, result])
  | .merge id => inferInstanceAs (Decidable (∀ first ∈ s.ooo.head?, _ = false))
  | .idle | .bound _ | .hold _ | .highSlot _ | .highPublish _ | .highHold _ | .highMark _
  | .mergedSlot _ | .mergedPublish _ | .finish _ => .isTrue trivial

instance StepOk.decidable (s : RecvThreads) : ∀ e : ThreadStep, Decidable (s.StepOk e)
  | .get => GetOk.decidable s s.getter
  | .put => PutOk.decidable s s.putter
  | .rbPut _ _ | .qRecv => .isTrue trivial

/-- An in-order mbuf without priority. -/
def plain : Mbuf := { payloadLen := 3, tcpSeq := 100 }

/-- `rb_put` up to where the mbuf is on `merged_q`. -/
def published : List ThreadStep := .rbPut 0 plain :: List.replicate 5 .put

/-- `q_recv` up to where the state of the mbuf is read. -/
def readsState : List ThreadStep := .qRecv :: List.replicate 6 .get

/-- The first mbuf is put and then taken, while the thread of `rb_put` takes a step for the second
one before each step of `q_recv`; then the second is taken. -/
def twoCalls : List ThreadStep :=
  published ++ [.put, .put, .qRecv, .rbPut 1 { payloadLen := 3, tcpSeq := 103 }] ++
    (List.replicate 7 [.put, .get]).flatten ++ .qRecv :: List.replicate 7 .get

theorem returned_once_plain :
    Lib.Run.Along step Law (start 64 100 fun _ => {}) twoCalls ∧
      Drained (Lib.Run.run step (start 64 100 fun _ => {}) twoCalls) ∧
      (Lib.Run.run step (start 64 100 fun _ => {}) twoCalls).returned = [1, 0] :=
  ⟨returned_once 64 100 (fun _ => {}) twoCalls (by decide +kernel),
    ⟨by decide +kernel, by decide +kernel, by decide +kernel, by decide +kernel⟩,
    by decide +kernel⟩

/-- **The state is read between the store that publishes the mbuf and the one that marks it**: an
mbuf that `rb_put` accepts is freed as processed, and it is never returned. -/
theorem freed_unread :
    ¬ Law (Lib.Run.run step (start 64 100 fun _ => {})
        (published ++ readsState ++ [.put, .put, .get])) ∧
      (Lib.Run.run step (start 64 100 fun _ => {})
        (published ++ readsState ++ [.put, .put, .get])).accepted = [0] := by
  refine ⟨fun law => ?_, by decide +kernel⟩
  have returned := law.processed 0 (by decide +kernel)
  exact absurd returned (by decide +kernel)

end RecvThreads

end QStack
