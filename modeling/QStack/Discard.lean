/-
# QStack.Discard -- what rb_clear leaves, and the window of a closed connection

After the application has closed, in FIN_WAIT_1 and FIN_WAIT_2, `process_tcp_payload` files a
segment with `rb_put` and throws the buffer away at once with `rb_clear`.  `rb_clear` empties
the queues and leaves `head_seq` where it was, while `rb_get` moves it: the bytes thrown away
go on counting as unread, and the window closes.

`discard_exact` says when the two are right: `rb_clear` leaves a consistent empty buffer exactly
when there was nothing unread before (and no slot of a ring was skipped by its writer), and the
window stays open along every run in which no segment arrives that is next in order.
-/
import QStack.Lib.Run
import QStack.PutAtomic
import QStack.SegmentView

namespace QStack

set_option autoImplicit false

/-! ## Clearing a ring -/

namespace CircularQueue

variable {α : Type} {q : CircularQueue α}

/-- The slots of the window, from `tail` on. -/
def slots (q : CircularQueue α) : List (Option α) :=
  (List.range q.cirqCount).map fun i => q.dQueue (Lib.Ring.index q.size q.tail i)

/-- Dequeuing until the queue gives NULL empties it: no slot follows a NULL one. -/
def Drains (q : CircularQueue α) : Prop := (q.slots.dropWhile Option.isSome).length ≤ 1

theorem slots_length : q.slots.length = q.cirqCount := by
  rw [slots, List.length_map, List.length_range]

theorem Represents.slots {xs : List α} (rep : q.Represents xs) : q.slots = xs.map some := by
  apply List.ext_getElem
  · rw [slots_length, cirqCount_eq rep, List.length_map]
  · intro i _ inside
    rw [List.length_map] at inside
    simp only [CircularQueue.slots, List.getElem_map, List.getElem_range]
    rw [rep.size_eq]
    exact rep.holds i inside

theorem Represents.drains {xs : List α} (rep : q.Represents xs) : q.Drains := by
  have none_ : (xs.map some).dropWhile Option.isSome = [] := by
    rw [List.dropWhile_eq_nil_iff]
    intro a inside
    obtain ⟨x, -, rfl⟩ := List.mem_map.mp inside
    rfl
  rw [Drains, rep.slots, none_]
  exact Nat.zero_le _

theorem Indexed.represents_nil_iff (ok : q.Indexed) : q.Represents [] ↔ q.slots = [] := by
  constructor
  · intro rep
    exact rep.slots
  · intro none_
    have count : q.cirqCount = 0 := by rw [← slots_length, none_]; rfl
    refine ⟨ok.size_eq, ok.tail_lt, staticBuffSize_pos, ?_, Lib.Ring.holds_nil _ _⟩
    rw [List.length_nil, ← count]
    exact ok.head_eq

theorem Indexed.get_nil (ok : q.Indexed) (none_ : q.slots = []) : q.dirCirqGet = (none, q) :=
  dirCirqGet_nil (ok.represents_nil_iff.mpr none_)

theorem Indexed.get_cons (ok : q.Indexed) {a : Option α} {rest : List (Option α)}
    (here : q.slots = a :: rest) :
    q.dirCirqGet.1 = a ∧ q.dirCirqGet.2.Indexed ∧ q.dirCirqGet.2.slots = rest := by
  have count : q.cirqCount = rest.length + 1 := by
    rw [← slots_length, here, List.length_cons]
  have head := ok.head_lt
  have tail := ok.tail_lt
  have apart : q.cirqEmpty = false := by
    rw [cirqEmpty, beq_eq_false_iff_ne]
    intro same
    rw [cirqCount, if_pos (Nat.le_of_eq same.symm)] at count
    omega
  have get : q.dirCirqGet = (q.dQueue q.tail, { q with tail := q.cirqSucc q.tail }) := by
    rw [dirCirqGet, apart]
    rfl
  have succ : q.cirqSucc q.tail = (q.tail + 1) % staticBuffSize := by
    rw [cirqSucc, ok.size_eq]
  have shorter : cirqCount { q with tail := q.cirqSucc q.tail } = rest.length := by
    simp only [cirqCount, succ, ok.size_eq] at count ⊢
    by_cases wraps : q.tail + 1 = staticBuffSize
    · rw [wraps, Nat.mod_self]
      split at count <;> split <;> omega
    · rw [Nat.mod_eq_of_lt (by omega)]
      split at count <;> split <;> omega
  have parts : q.dQueue q.tail :: (List.range rest.length).map
      (fun i => q.dQueue (Lib.Ring.index q.size q.tail (i + 1))) = a :: rest := by
    rw [← here, slots, count, List.range_succ_eq_map, List.map_cons, List.map_map]
    congr 2
    rw [ok.size_eq, Lib.Ring.index_zero tail]
  obtain ⟨first, others⟩ := List.cons.inj parts
  rw [get]
  refine ⟨first, ⟨ok.size_eq, head, ?_⟩, ?_⟩
  · rw [succ]
    exact Nat.mod_lt _ staticBuffSize_pos
  · rw [slots, shorter]
    refine Eq.trans ?_ others
    apply List.map_congr_left
    intro i _
    change q.dQueue (Lib.Ring.index q.size (q.cirqSucc q.tail) i) = _
    rw [cirqSucc, Lib.Ring.index_shift]

end CircularQueue

namespace RcvMem

/-- `mbufq_clear` stops behind the first NULL slot. -/
theorem mbufqClear_slots : ∀ (rounds : Nat) (q : CircularQueue MbufId) (mem : MbufMem),
    q.Indexed → q.slots.length < rounds →
    (mbufqClear rounds q mem).1.Indexed ∧
      (mbufqClear rounds q mem).1.slots = (q.slots.dropWhile Option.isSome).tail
  | 0, _, _, _, short => absurd short (Nat.not_lt_zero _)
  | rounds + 1, q, mem, ok, short => by
      rw [mbufqClear]
      cases here : q.slots with
      | nil =>
          rw [ok.get_nil here]
          exact ⟨ok, here⟩
      | cons a rest =>
          obtain ⟨first, ok', rest'⟩ := ok.get_cons here
          generalize q.dirCirqGet = result at first ok' rest'
          obtain ⟨item, q'⟩ := result
          subst first
          cases item with
          | none => exact ⟨ok', rest'⟩
          | some id =>
              rw [here, List.length_cons] at short
              have later := mbufqClear_slots rounds q' (mem.mbufFree id) ok'
                (by rw [rest']; omega)
              rw [rest'] at later
              exact later

end RcvMem

/-! ## rb_clear -/

/-- A consistent empty buffer: both rings are valid and empty, and nothing counts as unread. -/
structure RcvBuff.Emptied (buff : RcvBuff) : Prop where
  merged : buff.mergedQ.Represents []
  ooo : buff.oooList = []
  high : buff.highQ.Represents []
  unread : buff.mergedNext - buff.headSeq = 0

namespace RcvMem

variable {w : RcvMem}

/-- What `rb_clear` leaves. -/
theorem rbClear_buff (merged : w.buff.mergedQ.Indexed) (high : w.buff.highQ.Indexed) :
    ∃ q h, w.rbClear.buff = { w.buff with mergedQ := q, oooList := [], highQ := h } ∧
      (q.Represents [] ↔ w.buff.mergedQ.Drains) ∧ (h.Represents [] ↔ w.buff.highQ.Drains) := by
  have cleared : ∀ (q : CircularQueue MbufId) (mem : MbufMem), q.Indexed →
      ((mbufqClear staticBuffSize q mem).1.Represents [] ↔ q.Drains) := by
    intro q mem ok
    obtain ⟨ok', rest⟩ := mbufqClear_slots staticBuffSize q mem ok
      (by rw [CircularQueue.slots_length]; exact ok.count_lt)
    rw [ok'.represents_nil_iff, rest, CircularQueue.Drains]
    cases q.slots.dropWhile Option.isSome with
    | nil => simp
    | cons a others => cases others <;> simp
  exact ⟨_, _, rfl, cleared _ _ merged, cleared _ _ high⟩

theorem rbClear_emptied_iff (merged : w.buff.mergedQ.Indexed) (high : w.buff.highQ.Indexed) :
    w.rbClear.buff.Emptied ↔
      w.buff.mergedNext = w.buff.headSeq ∧ w.buff.mergedQ.Drains ∧ w.buff.highQ.Drains := by
  obtain ⟨q, h, buff, merged', high'⟩ := rbClear_buff merged high
  rw [buff]
  constructor
  · intro emptied
    exact ⟨sub_eq_zero.mp emptied.unread, merged'.mp emptied.merged, high'.mp emptied.high⟩
  · rintro ⟨caught, drained, drained'⟩
    exact ⟨merged'.mpr drained, rfl, high'.mpr drained', sub_eq_zero.mpr caught⟩

end RcvMem

/-! ## A closed connection -/

/-- What happens to the receiving side in FIN_WAIT_1 and FIN_WAIT_2. -/
inductive ClosingEvent where
  | payload (seg : Segment)
  /-- the FIN is acknowledged -/
  | finAcked

namespace Cx

def closingStep (c : Cx) : ClosingEvent → Cx
  | .payload seg => ((c.receive seg).processTcpPayload seg).2
  | .finAcked => c.modify fun s => { s with state := .finWait2 }

/-- The segment passes the two tests that `process_tcp_payload` makes before `rb_put`. -/
def takes (c : Cx) (seg : Segment) : Bool :=
  !tcpSeqLeq (seg.seq + BitVec.ofNat 32 seg.payloadLen) c.st.rcvNxt &&
    !tcpSeqGt (seg.seq + BitVec.ofNat 32 seg.payloadLen) (c.st.rcvNxt + c.st.rcvWnd)

/-- The connection is closed on this side, and its whole receive buffer is on offer. -/
structure WideOpen (c : Cx) : Prop where
  closing : c.st.state = .finWait1 ∨ c.st.state = .finWait2
  running : c.view.halted = false
  merged : ∃ M, c.st.rcvbuf.mergedQ.Represents M
  high : ∃ H, c.st.rcvbuf.highQ.Represents H
  caught : c.st.rcvbuf.mergedNext = c.st.rcvbuf.headSeq
  wide : c.st.rcvWnd = c.st.rcvbuf.size

/-- The segment goes to `rb_put`, is not next in order there, and does not end in the swapped call
of `ooo_insert`. -/
def ArrivesEarly (c : Cx) : ClosingEvent → Prop
  | .payload seg => c.takes seg = true →
      tcpSeqGt (seg.seq + BitVec.ofNat 32 seg.payloadLen)
        (c.st.rcvbuf.headSeq + c.st.rcvbuf.size) = false →
      seg.seq ≠ c.st.rcvbuf.mergedNext ∧
        oooInsert (c.receive seg).mem.mbuf seg.id c.st.rcvbuf.oooList ≠ .swapped
  | .finAcked => True

/-- The buffer was thrown away if a segment came as far as `rb_put`. -/
def ThrownAway (c : Cx) (e : ClosingEvent) (c' : Cx) : Prop :=
  match e with
  | .payload seg => c.takes seg = true → c'.st.rcvbuf.Emptied
  | .finAcked => True

end Cx

namespace RcvMem

variable {w : RcvMem} {id : MbufId}

theorem HighEnd.represents {v : RcvMem} {H : List MbufId} (ended : HighEnd w id v)
    (high : w.buff.highQ.Represents H) : ∃ H', v.buff.highQ.Represents H' := by
  cases ended with
  | refused => exact ⟨H, high⟩
  | taken _ room => exact ⟨H ++ [id], (CircularQueue.dirCirqAdd_success high room id).2⟩

/-- A segment that is not next in order leaves the merged data alone. -/
theorem rbPut_early {H : List MbufId} (high : w.buff.highQ.Represents H)
    (early : tcpSeqGt (w.mbuf id).seqEnd (w.buff.headSeq + w.buff.size) = false →
      (w.mbuf id).tcpSeq ≠ w.buff.mergedNext ∧ oooInsert w.mbuf id w.buff.oooList ≠ .swapped) :
    ∃ list h H', (w.rbPut id).2.buff = { w.buff with oooList := list, highQ := h } ∧
      h.Represents H' ∧ (w.rbPut id).2.faults = w.faults := by
  cases window : tcpSeqGt (w.mbuf id).seqEnd (w.buff.headSeq + w.buff.size) with
  | true =>
      rw [rbPut_window window]
      exact ⟨_, _, H, rfl, high, rfl⟩
  | false =>
      obtain ⟨apart, unswapped⟩ := early window
      obtain ⟨flagged, faults, inserted, -, duplicate⟩ := rbPut_aside window apart
      obtain ⟨H', high'⟩ := (putHigh_end w id).represents high
      cases found : oooInsert w.mbuf id w.buff.oooList with
      | inserted list =>
          rw [inserted list found]
          refine ⟨list, _, H', ?_, high', ?_⟩
          · rw [putDone_buff, setBuff_buff, flagged.buff]
          · rw [putDone_faults]
            exact faults
      | swapped => exact absurd found unswapped
      | duplicate =>
          rw [duplicate found]
          exact ⟨_, _, H', flagged.buff, high', faults⟩

end RcvMem

namespace Cx

variable {c : Cx}

/-- In the two states a segment that passes the tests is filed and the buffer thrown away. -/
theorem processTcpPayload_closing {seg : Segment}
    (closing : c.st.state = .finWait1 ∨ c.st.state = .finWait2) (takes : c.takes seg = true)
    {ret : Int} {w : RcvMem}
    (put : RcvMem.rbPut { toMbufMem := c.mem, buff := c.st.rcvbuf } seg.id = (ret, w))
    (harmless : w.faults = []) :
    c.processTcpPayload seg =
      (c.setRcv w.rbClear).payloadStored c.st.rcvNxt (w.rbClear.mbuf seg.id).priority ret := by
  simp only [Cx.takes, Bool.and_eq_true, Bool.not_eq_true'] at takes
  unfold processTcpPayload
  dsimp only
  rw [takes.1, takes.2, put]
  dsimp only
  have same : c.addHeadSwapped seg.bufAddr w = c := by
    rw [addHeadSwapped, harmless]
    rfl
  rw [same, harmless]
  rcases closing with now | now
  · rw [now]
    rfl
  · rw [now]
    rfl

theorem processTcpPayload_refused {seg : Segment} (refused : c.takes seg = false) :
    (c.processTcpPayload seg).2 = c := by
  unfold processTcpPayload
  dsimp only
  split
  · rfl
  · rename_i new
    split
    · rfl
    · rename_i inside
      simp only [Cx.takes, Bool.not_eq_true] at refused new inside
      rw [new, inside] at refused
      exact Bool.noConfusion refused

/-- The mbuf of the segment as `rb_put` finds it. -/
def arriving (c : Cx) (seg : Segment) : RcvMem :=
  { toMbufMem := (c.receive seg).mem, buff := c.st.rcvbuf }

@[simp] theorem arriving_buff (seg : Segment) : (c.arriving seg).buff = c.st.rcvbuf := rfl

@[simp] theorem arriving_self (seg : Segment) :
    (c.arriving seg).mbuf seg.id =
      { seg.mbuf with tcpSeq := seg.seq, payloadLen := seg.payloadLen } :=
  Function.update_self _ _ _

theorem arriving_seqEnd (seg : Segment) :
    ((c.arriving seg).mbuf seg.id).seqEnd = seg.seq + BitVec.ofNat 32 seg.payloadLen := by
  rw [arriving_self]
  rfl

/-- What a call leaves of the stream that goes as far as `rb_put`. -/
theorem closingStep_filed {seg : Segment}
    (closing : c.st.state = .finWait1 ∨ c.st.state = .finWait2) (takes : c.takes seg = true)
    (harmless : ((c.arriving seg).rbPut seg.id).2.faults = []) :
    let cleared := ((c.arriving seg).rbPut seg.id).2.rbClear.buff
    let c' := c.closingStep (.payload seg)
    c'.st.state = c.st.state ∧ c'.view.halted = c.view.halted ∧ c'.st.rcvbuf = cleared ∧
      c'.st.rcvWnd = cleared.size - cleared.rbMergedLen := by
  intro cleared c'
  have step : c' = (((c.receive seg).setRcv ((c.arriving seg).rbPut seg.id).2.rbClear).payloadStored
      (c.receive seg).st.rcvNxt (((c.arriving seg).rbPut seg.id).2.rbClear.mbuf seg.id).priority
        ((c.arriving seg).rbPut seg.id).1).2 :=
    congrArg Prod.snd (processTcpPayload_closing (c := c.receive seg) closing takes rfl harmless)
  have view := payloadStored_view (c.receive seg).st.rcvNxt
    (((c.arriving seg).rbPut seg.id).2.rbClear.mbuf seg.id).priority
    ((c.arriving seg).rbPut seg.id).1
    ((c.receive seg).setRcv ((c.arriving seg).rbPut seg.id).2.rbClear)
  rw [← step] at view
  refine ⟨congrArg (fun v : View => v.state) view, ?_, congrArg (fun v : View => v.rcv.rcvbuf) view,
    congrArg (fun v : View => v.rcv.rcvWnd) view⟩
  rw [view]
  rfl

/-- A segment that is not next in order is thrown away, and the window stays open. -/
theorem closingStep_early {seg : Segment} (good : c.WideOpen) (takes : c.takes seg = true)
    (early : c.ArrivesEarly (.payload seg)) :
    (c.closingStep (.payload seg)).WideOpen ∧
      (c.closingStep (.payload seg)).st.rcvbuf.Emptied := by
  obtain ⟨M, merged⟩ := good.merged
  obtain ⟨H, high⟩ := good.high
  have apart : tcpSeqGt ((c.arriving seg).mbuf seg.id).seqEnd
      ((c.arriving seg).buff.headSeq + (c.arriving seg).buff.size) = false →
        ((c.arriving seg).mbuf seg.id).tcpSeq ≠ (c.arriving seg).buff.mergedNext ∧
          oooInsert (c.arriving seg).mbuf seg.id (c.arriving seg).buff.oooList ≠ .swapped := by
    rw [arriving_seqEnd, arriving_self]
    exact early takes
  obtain ⟨list, h, H', buff, high', faults⟩ := RcvMem.rbPut_early high apart
  have harmless : ((c.arriving seg).rbPut seg.id).2.faults = [] := faults
  obtain ⟨state, halted, rcvbuf, wnd⟩ := closingStep_filed good.closing takes harmless
  generalize ((c.arriving seg).rbPut seg.id).2 = w at buff rcvbuf wnd
  have merged' : w.buff.mergedQ.Represents M := by
    rw [buff]
    exact merged
  have high'' : w.buff.highQ.Represents H' := by
    rw [buff]
    exact high'
  have emptied : w.rbClear.buff.Emptied :=
    (RcvMem.rbClear_emptied_iff merged'.indexed high''.indexed).mpr
      ⟨by rw [buff]; exact good.caught, merged'.drains, high''.drains⟩
  have unread : w.rbClear.buff.rbMergedLen = 0 := emptied.unread
  generalize c.closingStep (.payload seg) = c' at state halted rcvbuf wnd
  rw [← rcvbuf] at emptied wnd unread
  refine ⟨⟨by rw [state]; exact good.closing, halted.trans good.running, ⟨[], emptied.merged⟩,
    ⟨[], emptied.high⟩, sub_eq_zero.mp emptied.unread, ?_⟩, emptied⟩
  rw [wnd, unread, sub_zero]

theorem closingStep_wideOpen (c : Cx) (e : ClosingEvent) (good : c.WideOpen)
    (early : c.ArrivesEarly e) :
    (c.closingStep e).WideOpen ∧ c.ThrownAway e (c.closingStep e) := by
  cases e with
  | finAcked =>
      exact ⟨⟨.inr rfl, good.running, good.merged, good.high, good.caught, good.wide⟩, trivial⟩
  | payload seg =>
      cases takes : c.takes seg with
      | true =>
          obtain ⟨wide, emptied⟩ := closingStep_early good takes early
          exact ⟨wide, fun _ => emptied⟩
      | false =>
          have same : c.closingStep (.payload seg) = c.receive seg :=
            processTcpPayload_refused (c := c.receive seg) takes
          rw [same]
          exact ⟨⟨good.closing, good.running, good.merged, good.high, good.caught, good.wide⟩,
            fun passed => Bool.noConfusion (takes.symm.trans passed)⟩

/-- A segment that is next in order closes the window by its length. -/
theorem closingStep_inOrder {seg : Segment} (good : c.WideOpen) (takes : c.takes seg = true)
    (none_ : c.st.rcvbuf.oooList = []) (next : seg.seq = c.st.rcvbuf.mergedNext)
    (inside : tcpSeqGt (seg.seq + BitVec.ofNat 32 seg.payloadLen)
      (c.st.rcvbuf.headSeq + c.st.rcvbuf.size) = false) :
    (c.closingStep (.payload seg)).st.rcvWnd =
      c.st.rcvbuf.size - BitVec.ofNat 32 seg.payloadLen := by
  obtain ⟨M, merged⟩ := good.merged
  obtain ⟨H, high⟩ := good.high
  have window : tcpSeqGt ((c.arriving seg).mbuf seg.id).seqEnd
      ((c.arriving seg).buff.headSeq + (c.arriving seg).buff.size) = false := by
    rw [arriving_seqEnd]
    exact inside
  have inOrder : ((c.arriving seg).mbuf seg.id).tcpSeq = (c.arriving seg).buff.mergedNext := by
    rw [arriving_self]
    exact next
  obtain ⟨u, arrived, -, after⟩ := RcvMem.rbPut_arrived window inOrder
  have list : u.buff.oooList = [] := arrived.ooo.trans none_
  rw [list] at after
  have faults : ((c.arriving seg).rbPut seg.id).2.faults = [] := by
    rw [after, RcvMem.putDone_faults]
    exact arrived.faults
  obtain ⟨-, -, -, wnd⟩ := closingStep_filed good.closing takes faults
  have queue : u.buff.mergedQ.Indexed := by
    rw [arrived.merged]
    cases room : c.st.rcvbuf.mergedQ.cirqFull with
    | true =>
        rw [arriving_buff, CircularQueue.dirCirqAdd_full room]
        exact merged.indexed
    | false => exact merged.indexed.added room seg.id
  have high' : u.buff.highQ.Indexed := by
    rw [arrived.high]
    obtain ⟨H', high'⟩ := (RcvMem.putHigh_end (c.arriving seg) seg.id).represents high
    exact high'.indexed
  have buff : ((c.arriving seg).rbPut seg.id).2.buff = u.buff := by
    rw [after, RcvMem.putDone_buff]
    rfl
  obtain ⟨q, h, cleared, -, -⟩ := RcvMem.rbClear_buff (w := ((c.arriving seg).rbPut seg.id).2)
    (by rw [buff]; exact queue) (by rw [buff]; exact high')
  rw [wnd, cleared, RcvBuff.rbMergedLen, buff, arrived.next, arrived.head, arrived.size,
    arriving_seqEnd, arriving_buff, next, good.caught, add_sub_cancel_left]

end Cx

/-- **Exactly when throwing received data away keeps the window open.**  `rb_clear` leaves a
consistent empty buffer if and only if nothing was unread and its rings drain.  In FIN_WAIT_1 and
FIN_WAIT_2 the whole buffer stays on offer, and its queues valid, along every run of segments that
are not next in order; one that is next in order takes its length off the window. -/
theorem discard_exact (w : RcvMem) (c : Cx) (wide : c.WideOpen) :
    (w.buff.mergedQ.Indexed → w.buff.highQ.Indexed →
      (w.rbClear.buff.Emptied ↔
        w.buff.mergedNext = w.buff.headSeq ∧ w.buff.mergedQ.Drains ∧ w.buff.highQ.Drains)) ∧
    (∀ es : List ClosingEvent, Lib.Run.Allowed Cx.closingStep Cx.ArrivesEarly c es →
      Lib.Run.Each Cx.closingStep (fun c e c' => c'.WideOpen ∧ c.ThrownAway e c') c es) ∧
    (∀ seg : Segment, c.takes seg = true → c.st.rcvbuf.oooList = [] →
      seg.seq = c.st.rcvbuf.mergedNext →
      tcpSeqGt (seg.seq + BitVec.ofNat 32 seg.payloadLen)
        (c.st.rcvbuf.headSeq + c.st.rcvbuf.size) = false →
      (c.closingStep (.payload seg)).st.rcvWnd =
        c.st.rcvbuf.size - BitVec.ofNat 32 seg.payloadLen) := by
  refine ⟨fun merged high => RcvMem.rbClear_emptied_iff merged high, fun es early => ?_,
    fun seg takes none_ next inside => Cx.closingStep_inOrder wide takes none_ next inside⟩
  refine Lib.Run.each_of_step (P := Cx.WideOpen) (fun c e good early => ?_) es c wide early
  have kept := Cx.closingStep_wideOpen c e good early
  exact ⟨kept.1, kept⟩

/-- A connection that was closed with an empty buffer. -/
def closedCx : Cx :=
  { st := { state := .finWait1, rcvbuf := RcvBuff.zero.rbInit 4 0, rcvWnd := 5600 } }

def segmentAt (seq : Seq) : Segment :=
  { seq := seq, payloadLen := 100, id := 1, mbuf := { mbufState := .rcved, l4Len := 20 } }

theorem closedCx_wideOpen : closedCx.WideOpen where
  closing := .inl rfl
  running := by decide
  merged := ⟨[], CircularQueue.dirCirqInit_represents _⟩
  high := ⟨[], CircularQueue.dirCirqInit_represents _⟩
  caught := rfl
  wide := by decide

theorem discard_exact_early :
    ((closedCx.arriving (segmentAt 0)).rbClear.buff.Emptied ↔
      (closedCx.arriving (segmentAt 0)).buff.mergedNext =
          (closedCx.arriving (segmentAt 0)).buff.headSeq ∧
        (closedCx.arriving (segmentAt 0)).buff.mergedQ.Drains ∧
        (closedCx.arriving (segmentAt 0)).buff.highQ.Drains) ∧
    Lib.Run.Each Cx.closingStep (fun c e c' => c'.WideOpen ∧ c.ThrownAway e c') closedCx
      [.payload (segmentAt 100), .finAcked] :=
  have exactly := discard_exact (closedCx.arriving (segmentAt 0)) closedCx closedCx_wideOpen
  ⟨exactly.1 ⟨by decide, by decide, by decide⟩ ⟨by decide, by decide, by decide⟩,
    exactly.2.1 _
      ⟨fun _ _ => ⟨by decide, fun swapped => OooResult.noConfusion swapped⟩, trivial, trivial⟩⟩

/-- After 100 bytes that were in order the cleared buffer counts 100 bytes as unread. -/
theorem rbClear_stale_head :
    ¬ ∀ w : RcvMem, w.buff.mergedQ.Indexed → w.buff.highQ.Indexed → w.rbClear.buff.Emptied := by
  intro all
  let w : RcvMem := ((closedCx.arriving (segmentAt 0)).rbPut 1).2
  have emptied := all w ⟨by decide, by decide, by decide⟩ ⟨by decide, by decide, by decide⟩
  have unread : w.rbClear.buff.mergedNext - w.rbClear.buff.headSeq ≠ 0 := by decide
  exact unread emptied.unread

end QStack
