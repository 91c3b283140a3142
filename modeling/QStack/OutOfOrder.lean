/-
# QStack.OutOfOrder -- ooo_insert on the links of the list

`ooo_list` is an intrusive list: a head, a tail, and `buf_next` in the mbufs.  The receive
buffer (`QStack.RecvBuff`) treats it as a `List`; here `oooInsertLinked` is `ooo_insert` on the
pointers, and `oooInsertLinked_refines` says that it does to the list what `oooInsert` does.

Two of its four branches do not insert properly:

* into an empty list the mbuf goes with whatever `buf_next` it has: `mbuf_list_append` would
  have cleared it, and `mbuf_list_free` leaves it set in the mbufs it frees;
* in front of the list, `mbuf_list_add_head(mbuf, list)` has its arguments swapped.

`ooo_insert_exact` says that on a sorted list of disjoint segments these two are the only
inputs on which `ooo_insert` is wrong.
-/
import QStack.Lib.LinkedList
import QStack.RecvPut

namespace QStack

set_option autoImplicit false

open Lib.LinkedQueue (Linked)

/-! ## The list -/

/-- A `mbuf_list`, with the `buf_next` words of all mbufs. -/
structure MbufList where
  head : Option MbufId
  tail : Option MbufId
  bufNext : MbufId → Option MbufId

namespace MbufList

def mbufListAppend (l : MbufList) (id : MbufId) : MbufList :=
  match l.tail with
  | none => { head := some id, tail := some id, bufNext := Function.update l.bufNext id none }
  | some last =>
      { l with
        tail := some id
        bufNext := Function.update (Function.update l.bufNext last (some id)) id none }

/-- `b2` behind `b1`. -/
def mbufListInsert (l : MbufList) (b1 b2 : MbufId) : MbufList :=
  { l with
    tail := if l.bufNext b1 = none then some b2 else l.tail
    bufNext := Function.update (Function.update l.bufNext b2 (l.bufNext b1)) b1 (some b2) }

/-- The links lead from the head through `xs` to a null pointer, and the tail is the last. -/
structure Holds (l : MbufList) (xs : List MbufId) : Prop where
  linked : Linked l.bufNext l.head xs
  tail : l.tail = xs.getLast?
  nodup : xs.Nodup

end MbufList

/-- What `ooo_insert` returns and leaves behind; `stray` if it wrote through the list as if it
were an mbuf, which the list itself does not show. -/
structure OooOutcome where
  ret : Int
  list : MbufList
  stray : Bool := false

section Insert

variable (mbuf : MbufId → Mbuf) (new : MbufId)

/-- The `while` loop, from the mbuf `p` on; `rounds` bounds the mbufs behind it. -/
def oooLoopLinked : Nat → MbufId → MbufList → Option MbufList
  | 0, _, _ => none
  | rounds + 1, p, l =>
      match l.bufNext p with
      | none => none
      | some next =>
          if tcpSeqLeq (mbuf p).seqEnd (mbuf new).tcpSeq &&
              tcpSeqLeq (mbuf new).seqEnd (mbuf next).tcpSeq then
            some (l.mbufListInsert p new)
          else oooLoopLinked rounds next l

/-- `ooo_insert`; none when it dereferences a null tail. -/
def oooInsertLinked (rounds : Nat) (l : MbufList) : Option OooOutcome :=
  match l.head with
  | none => some { ret := success, list := { l with head := some new, tail := some new } }
  | some head =>
      l.tail.map fun tail =>
        if tcpSeqLeq (mbuf tail).seqEnd (mbuf new).tcpSeq then
          { ret := success, list := l.mbufListAppend new }
        else if tcpSeqLeq (mbuf new).seqEnd (mbuf head).tcpSeq then
          { ret := success, list := l, stray := true }
        else
          match oooLoopLinked mbuf new rounds head l with
          | some list => { ret := success, list := list }
          | none => { ret := failed, list := l }

end Insert

/-! ## The links refine the list -/

namespace MbufList

section Ops

variable {l : MbufList} {xs : List MbufId} {new : MbufId}

theorem Holds.unique {ys : List MbufId} (holds : l.Holds xs) (holds' : l.Holds ys) : xs = ys := by
  have same : ∀ {xs ys : List MbufId} {r : Option MbufId}, Linked l.bufNext r xs →
      Linked l.bufNext r ys → xs = ys := by
    intro xs
    induction xs with
    | nil =>
        intro ys r nil linked
        cases ys with
        | nil => rfl
        | cons y ys => exact absurd (linked.1.symm.trans nil) (Option.some_ne_none y)
    | cons x xs ih =>
        intro ys r first linked
        cases ys with
        | nil => exact absurd (first.1.symm.trans linked) (Option.some_ne_none x)
        | cons y ys =>
            have eq : x = y := Option.some.inj (first.1.symm.trans linked.1)
            subst eq
            rw [ih first.2 linked.2]
  exact same holds.linked holds'.linked

/-- As the only list of a memory. -/
def toMem (l : MbufList) : Lib.LinkedList.Mem Unit MbufId :=
  { next := l.bufNext, list := fun _ => { head := l.head, tail := l.tail } }

theorem holds_iff : l.Holds xs ↔ Lib.LinkedList.Holds l.toMem fun _ => xs := by
  constructor
  · rintro ⟨linked, tail, nodup⟩
    exact ⟨fun _ => linked, fun _ => tail, ⟨fun _ => nodup, fun _ _ _ _ _ => rfl⟩⟩
  · rintro ⟨linked, tail, apart⟩
    exact ⟨linked (), tail (), apart.nodup ()⟩

theorem update_only {β : Type} (old new : β) :
    Function.update (fun _ : Unit => old) () new = fun _ => new := by
  funext u
  simp [Function.update]

theorem append_toMem (l : MbufList) (new : MbufId) :
    l.toMem.append () new = (l.mbufListAppend new).toMem := by
  cases tail : l.tail with
  | none => simp [Lib.LinkedList.Mem.append, mbufListAppend, toMem, tail, update_only]
  | some last => simp [Lib.LinkedList.Mem.append, mbufListAppend, toMem, tail, update_only]

theorem insert_toMem (l : MbufList) {b1 b2 : MbufId} (other : b2 ≠ b1) :
    l.toMem.insert () b1 b2 = (l.mbufListInsert b1 b2).toMem := by
  by_cases last : l.bufNext b1 = none
  · simp [Lib.LinkedList.Mem.insert, mbufListInsert, toMem, other, last, update_only]
  · simp [Lib.LinkedList.Mem.insert, mbufListInsert, toMem, other, last]

theorem append_holds (holds : l.Holds xs) (fresh : new ∉ xs) :
    (l.mbufListAppend new).Holds (xs ++ [new]) := by
  have appended := (holds_iff.mp holds).append (fun _ => fresh) ()
  rw [append_toMem, update_only] at appended
  exact holds_iff.mpr appended

/-- `mbuf_list_insert` between two neighbours. -/
theorem insert_holds {before after : List MbufId} {p next : MbufId}
    (holds : l.Holds (before ++ p :: next :: after))
    (fresh : new ∉ before ++ p :: next :: after) :
    (l.mbufListInsert p new).Holds (before ++ p :: new :: next :: after) := by
  have member : p ∈ before ++ p :: next :: after := by simp
  have other : new ≠ p := by
    rintro rfl
    exact fresh member
  have first : p ∉ before := fun within =>
    (List.nodup_append.mp holds.nodup).2.2 p within p List.mem_cons_self rfl
  have inserted := (holds_iff.mp holds).insert (h := ()) member fun _ => fresh
  rw [insert_toMem l other, update_only, Lib.LinkedList.insertAfter_split first] at inserted
  exact holds_iff.mpr inserted

end Ops

end MbufList

section Refine

variable {new : MbufId} {l : MbufList}

/-- The loop finds the gap that the scan of the list finds. -/
theorem oooLoopLinked_refines (mbuf : MbufId → Mbuf) : ∀ {after : List MbufId} (before : List MbufId) {p : MbufId}
    {rounds : Nat}, l.Holds (before ++ p :: after) → new ∉ before ++ p :: after →
    Linked l.bufNext (l.bufNext p) after → after.length ≤ rounds →
    (∀ ys, oooScan mbuf new (p :: after) = some ys →
      ∃ l', oooLoopLinked mbuf new rounds p l = some l' ∧ l'.Holds (before ++ ys)) ∧
    (oooScan mbuf new (p :: after) = none → oooLoopLinked mbuf new rounds p l = none)
  | [], before, p, rounds, holds, fresh, linked, enough => by
      have ends : l.bufNext p = none := linked
      refine ⟨fun ys found => by simp [oooScan] at found, fun _ => ?_⟩
      cases rounds with
      | zero => rfl
      | succ rounds => rw [oooLoopLinked, ends]
  | next :: after, before, p, rounds + 1, holds, fresh, linked, enough => by
      have link : l.bufNext p = some next := linked.1
      rw [oooLoopLinked, link]
      dsimp only
      rw [oooScan]
      split_ifs with fits
      · refine ⟨fun ys found => ?_, fun none_ => none_.elim⟩
        cases found
        exact ⟨_, rfl, MbufList.insert_holds holds fresh⟩
      · have regroup : before ++ p :: next :: after = (before ++ [p]) ++ next :: after := by simp
        rw [regroup] at holds fresh
        obtain ⟨found, missing⟩ := oooLoopLinked_refines mbuf (before ++ [p]) holds fresh linked.2
          (Nat.le_of_succ_le_succ enough)
        refine ⟨fun ys some_ => ?_, fun none_ => missing (Option.map_eq_none_iff.mp none_)⟩
        obtain ⟨tail, inner, rfl⟩ := Option.map_eq_some_iff.mp some_
        obtain ⟨l', result, holds'⟩ := found tail inner
        refine ⟨l', result, ?_⟩
        rwa [List.append_assoc] at holds'

/-- The outcome of `ooo_insert` for each result of `oooInsert`. -/
structure OooRefines (l : MbufList) (out : OooOutcome) (result : OooResult) : Prop where
  inserted : ∀ ys, result = .inserted ys → out.ret = success ∧ out.list.Holds ys
  swapped : result = .swapped → out.ret = success ∧ out.list = l
  duplicate : result = .duplicate → out.ret = failed ∧ out.list = l

theorem OooRefines.of_inserted {out : OooOutcome} {ys : List MbufId} (ret : out.ret = success)
    (holds : out.list.Holds ys) : OooRefines l out (.inserted ys) where
  inserted := by
    rintro _ ⟨rfl⟩
    exact ⟨ret, holds⟩
  swapped := by simp
  duplicate := by simp

/-- **`ooo_insert` does to the list what `oooInsert` does**, when an empty list gets an mbuf whose
`buf_next` is null. -/
theorem oooInsertLinked_refines (mbuf : MbufId → Mbuf) {xs : List MbufId} {rounds : Nat}
    (holds : l.Holds xs) (fresh : new ∉ xs) (clear : xs = [] → l.bufNext new = none)
    (enough : xs.length ≤ rounds) :
    ∃ out, oooInsertLinked mbuf new rounds l = some out ∧
      OooRefines l out (oooInsert mbuf new xs) := by
  cases xs with
  | nil =>
      have head : l.head = none := holds.linked
      rw [oooInsertLinked, head]
      exact ⟨_, rfl, .of_inserted rfl ⟨⟨rfl, clear rfl⟩, rfl, by simp⟩⟩
  | cons head rest =>
      have first : l.head = some head := holds.linked.1
      have last : l.tail = some (rest.getLastD head) := by
        rw [holds.tail, List.getLast?_cons, List.getLastD_eq_getLast?]
      rw [oooInsertLinked, first]
      dsimp only
      rw [last, Option.map_some]
      refine ⟨_, rfl, ?_⟩
      rw [oooInsert]
      by_cases behind : tcpSeqLeq (mbuf (rest.getLastD head)).seqEnd (mbuf new).tcpSeq = true
      · rw [if_pos behind, if_pos behind]
        exact .of_inserted rfl (MbufList.append_holds holds fresh)
      rw [if_neg behind, if_neg behind]
      by_cases front : tcpSeqLeq (mbuf new).seqEnd (mbuf head).tcpSeq = true
      · rw [if_pos front, if_pos front]
        exact ⟨by simp, fun _ => ⟨rfl, rfl⟩, by simp⟩
      rw [if_neg front, if_neg front]
      obtain ⟨found, missing⟩ := oooLoopLinked_refines mbuf [] holds fresh holds.linked.2
        (Nat.le_of_succ_le enough)
      cases scan : oooScan mbuf new (head :: rest) with
      | none =>
          rw [missing scan]
          exact ⟨by simp, by simp, fun _ => ⟨rfl, rfl⟩⟩
      | some ys =>
          obtain ⟨l', result, holds'⟩ := found ys scan
          rw [result]
          exact .of_inserted rfl holds'

end Refine

/-! ## Sorted lists of disjoint segments -/

section Window

variable (base : Seq) (mbuf : MbufId → Mbuf)

/-- Where a segment begins, counted from `base`. -/
def place (id : MbufId) : Nat := ((mbuf id).tcpSeq - base).toNat

def placeEnd (id : MbufId) : Nat := place base mbuf id + (mbuf id).payloadLen

/-- The segment lies in the window of `2 ^ 31` bytes that starts at `base`. -/
def InWindow (id : MbufId) : Prop := placeEnd base mbuf id < 2 ^ 31

def Overlaps (i j : MbufId) : Prop :=
  place base mbuf i < placeEnd base mbuf j ∧ place base mbuf j < placeEnd base mbuf i

/-- Each segment ends before the later ones begin. -/
def SortedDisjoint (xs : List MbufId) : Prop :=
  xs.Pairwise fun i j => placeEnd base mbuf i ≤ place base mbuf j

/-- An exact insertion: it succeeds exactly if the new segment overlaps no listed one, and then
the list holds it as well, sorted; otherwise the list is as it was. -/
def InsertsExactly (new : MbufId) (l : MbufList) (xs : List MbufId) (out : OooOutcome) : Prop :=
  (out.ret = success ↔ ∀ j ∈ xs, ¬ Overlaps base mbuf new j) ∧
    ((out.ret = success ∧ ∃ ys, out.list.Holds ys ∧ ys.Perm (new :: xs) ∧
        SortedDisjoint base mbuf ys) ∨
      out.ret = failed ∧ out.list = l)

/-- The two branches that do not insert properly are not taken. -/
def InsertOk (new : MbufId) (l : MbufList) (xs : List MbufId) : Prop :=
  (xs = [] → l.bufNext new = none) ∧
    ∀ first ∈ xs.head?, place base mbuf first < placeEnd base mbuf new

end Window

section Sorted

variable {base : Seq} {mbuf : MbufId → Mbuf} {new : MbufId} {xs : List MbufId}

theorem tcpSeq_place (base : Seq) (id : MbufId) : (mbuf id).tcpSeq = tcpSeqAt base (place base mbuf id) := by
  rw [tcpSeqAt, place, BitVec.ofNat_toNat, BitVec.setWidth_eq, add_sub_cancel]

theorem seqEnd_place (base : Seq) (id : MbufId) : (mbuf id).seqEnd = tcpSeqAt base (placeEnd base mbuf id) := by
  rw [Mbuf.seqEnd, tcpSeq_place base id, Mbuf.len, tcpSeqAt_add, placeEnd]

/-- The comparison of the code, for segments of the window. -/
theorem ends_before {i j : MbufId} (here : InWindow base mbuf i) (there : InWindow base mbuf j) :
    tcpSeqLeq (mbuf i).seqEnd (mbuf j).tcpSeq = true ↔
      placeEnd base mbuf i ≤ place base mbuf j := by
  unfold InWindow at here there
  have start : place base mbuf j ≤ placeEnd base mbuf j := Nat.le_add_right _ _
  rw [seqEnd_place base i, tcpSeq_place base j,
    tcpSeqLeq_at base (by omega) (by omega), decide_eq_true_eq]

/-- Sorted segments do not overlap. -/
theorem SortedDisjoint.apart {ys : List MbufId} (sorted : SortedDisjoint base mbuf ys)
    (perm : ys.Perm (new :: xs)) : ∀ j ∈ xs, ¬ Overlaps base mbuf new j := by
  have apart : ys.Pairwise fun i j => ¬ Overlaps base mbuf i j := by
    refine List.Pairwise.imp ?_ sorted
    rintro i j before ⟨-, later⟩
    omega
  have symm : ∀ {i j : MbufId}, ¬ Overlaps base mbuf i j → ¬ Overlaps base mbuf j i :=
    fun apart overlap => apart ⟨overlap.2, overlap.1⟩
  exact (List.pairwise_cons.mp ((perm.pairwise_iff symm).mp apart)).1

/-- The scan puts the segment behind the first of the list, where it belongs. -/
theorem oooScan_sorted : ∀ {after : List MbufId} {p : MbufId} {ys : List MbufId},
    (∀ j ∈ p :: after, InWindow base mbuf j) → InWindow base mbuf new →
    SortedDisjoint base mbuf (p :: after) → oooScan mbuf new (p :: after) = some ys →
    SortedDisjoint base mbuf ys ∧ ∃ ys', ys = p :: ys' ∧ placeEnd base mbuf p ≤ place base mbuf new
  | next :: after, p, ys, window, inside, sorted, found => by
      obtain ⟨first, rest⟩ := List.pairwise_cons.mp sorted
      have far : ∀ j ∈ next :: after, InWindow base mbuf j :=
        fun j listed => window j (List.mem_cons_of_mem _ listed)
      rw [oooScan] at found
      split_ifs at found with fits
      · cases found
        rw [Bool.and_eq_true, ends_before (window p List.mem_cons_self) inside,
          ends_before inside (far next List.mem_cons_self)] at fits
        have beyond : ∀ j ∈ next :: after, placeEnd base mbuf new ≤ place base mbuf j := by
          intro j listed
          rcases List.mem_cons.mp listed with rfl | later
          · exact fits.2
          · have order := (List.pairwise_cons.mp rest).1 j later
            have start : place base mbuf next ≤ placeEnd base mbuf next := Nat.le_add_right _ _
            exact (fits.2.trans start).trans order
        refine ⟨List.pairwise_cons.mpr ⟨?_, List.pairwise_cons.mpr ⟨beyond, rest⟩⟩, _, rfl, fits.1⟩
        intro j listed
        rcases List.mem_cons.mp listed with rfl | later
        · exact fits.1
        · exact first j later
      · obtain ⟨tail, inner, rfl⟩ := Option.map_eq_some_iff.mp found
        obtain ⟨sorted', ys', rfl, order⟩ := oooScan_sorted far inside rest inner
        have before : placeEnd base mbuf p ≤ place base mbuf new := by
          have start : place base mbuf next ≤ placeEnd base mbuf next := Nat.le_add_right _ _
          exact ((first next List.mem_cons_self).trans start).trans order
        refine ⟨List.pairwise_cons.mpr ⟨?_, sorted'⟩, _, rfl, before⟩
        intro j listed
        rcases List.mem_cons.mp ((oooScan_perm inner).mem_iff.mp listed) with rfl | old
        · exact before
        · exact first j old

/-- Without a gap for it, a segment that is neither behind nor in front overlaps a listed one. -/
theorem oooScan_overlaps : ∀ {after : List MbufId} {p : MbufId},
    (∀ j ∈ p :: after, InWindow base mbuf j) → InWindow base mbuf new →
    oooScan mbuf new (p :: after) = none →
    ¬ placeEnd base mbuf (after.getLastD p) ≤ place base mbuf new →
    ¬ placeEnd base mbuf new ≤ place base mbuf p →
    ∃ j ∈ p :: after, Overlaps base mbuf new j
  | [], p, _, _, _, notBehind, notFront =>
      ⟨p, List.mem_cons_self, Nat.lt_of_not_le notBehind, Nat.lt_of_not_le notFront⟩
  | next :: after, p, window, inside, none_, notBehind, notFront => by
      have far : ∀ j ∈ next :: after, InWindow base mbuf j :=
        fun j listed => window j (List.mem_cons_of_mem _ listed)
      rw [oooScan] at none_
      split_ifs at none_ with fits
      rw [Option.map_eq_none_iff] at none_
      by_cases front : placeEnd base mbuf new ≤ place base mbuf next
      · refine ⟨p, List.mem_cons_self, Nat.lt_of_not_le fun behind => fits ?_,
          Nat.lt_of_not_le notFront⟩
        rw [Bool.and_eq_true, ends_before (window p List.mem_cons_self) inside,
          ends_before inside (far next List.mem_cons_self)]
        exact ⟨behind, front⟩
      · have last : (next :: after).getLastD p = after.getLastD next := by
          rw [List.getLastD_cons]
        rw [last] at notBehind
        obtain ⟨j, listed, overlap⟩ := oooScan_overlaps far inside none_ notBehind front
        exact ⟨j, List.mem_cons_of_mem _ listed, overlap⟩

theorem getLastD_mem (p : MbufId) (after : List MbufId) : after.getLastD p ∈ p :: after := by
  rw [List.getLastD_eq_getLast?]
  cases last : after.getLast? with
  | none => simp
  | some q => exact List.mem_cons_of_mem _ (List.mem_of_getLast? last)

/-- Behind the last segment is behind all of them. -/
theorem SortedDisjoint.behind : ∀ {after : List MbufId} {p : MbufId},
    SortedDisjoint base mbuf (p :: after) →
    placeEnd base mbuf (after.getLastD p) ≤ place base mbuf new →
    ∀ j ∈ p :: after, placeEnd base mbuf j ≤ place base mbuf new
  | [], p, _, behind, j, listed => by
      rw [List.mem_singleton.mp listed]
      exact behind
  | next :: after, p, sorted, behind, j, listed => by
      obtain ⟨first, rest⟩ := List.pairwise_cons.mp sorted
      rw [List.getLastD_cons] at behind
      have later := SortedDisjoint.behind rest behind
      rcases List.mem_cons.mp listed with rfl | old
      · have start : place base mbuf next ≤ placeEnd base mbuf next := Nat.le_add_right _ _
        exact ((first next List.mem_cons_self).trans start).trans (later next List.mem_cons_self)
      · exact later j old

/-- What each result of `oooInsert` means on a sorted list. -/
structure OooPlaces (base : Seq) (mbuf : MbufId → Mbuf) (new : MbufId) (xs : List MbufId)
    (result : OooResult) : Prop where
  inserted : ∀ ys, result = .inserted ys → ys.Perm (new :: xs) ∧ SortedDisjoint base mbuf ys
  swapped : result = .swapped → ∃ first ∈ xs.head?, placeEnd base mbuf new ≤ place base mbuf first
  duplicate : result = .duplicate → ∃ j ∈ xs, Overlaps base mbuf new j

theorem OooPlaces.of_inserted {ys : List MbufId} (perm : ys.Perm (new :: xs))
    (sorted : SortedDisjoint base mbuf ys) : OooPlaces base mbuf new xs (.inserted ys) where
  inserted := by
    rintro _ ⟨rfl⟩
    exact ⟨perm, sorted⟩
  swapped := by simp
  duplicate := by simp

theorem oooInsert_sorted (window : ∀ j ∈ xs, InWindow base mbuf j) (inside : InWindow base mbuf new)
    (sorted : SortedDisjoint base mbuf xs) :
    OooPlaces base mbuf new xs (oooInsert mbuf new xs) := by
  cases xs with
  | nil => exact .of_inserted (List.Perm.refl _) (List.pairwise_singleton _ _)
  | cons head rest =>
      have lastIn := window _ (getLastD_mem head rest)
      have headIn := window head List.mem_cons_self
      rw [oooInsert]
      by_cases behind : placeEnd base mbuf (rest.getLastD head) ≤ place base mbuf new
      · rw [if_pos ((ends_before lastIn inside).mpr behind)]
        refine .of_inserted (List.perm_append_singleton new (head :: rest))
          (List.pairwise_append.mpr ⟨sorted, List.pairwise_singleton _ _, ?_⟩)
        intro i listed j here
        rw [List.mem_singleton.mp here]
        exact sorted.behind behind i listed
      rw [if_neg ((ends_before lastIn inside).not.mpr behind)]
      by_cases front : placeEnd base mbuf new ≤ place base mbuf head
      · rw [if_pos ((ends_before inside headIn).mpr front)]
        exact ⟨by simp, fun _ => ⟨head, rfl, front⟩, by simp⟩
      rw [if_neg ((ends_before inside headIn).not.mpr front)]
      cases scan : oooScan mbuf new (head :: rest) with
      | none =>
          exact ⟨by simp, by simp, fun _ => oooScan_overlaps window inside scan behind front⟩
      | some ys =>
          exact .of_inserted (oooScan_perm scan) (oooScan_sorted window inside sorted scan).1

/-- In front of a sorted list is behind none of it. -/
theorem oooInsert_front (window : ∀ j ∈ xs, InWindow base mbuf j) (inside : InWindow base mbuf new)
    (sorted : SortedDisjoint base mbuf xs) (some_ : 0 < (mbuf new).payloadLen) {first : MbufId}
    (here : xs.head? = some first) (front : placeEnd base mbuf new ≤ place base mbuf first) :
    oooInsert mbuf new xs = .swapped ∧ ∀ j ∈ xs, ¬ Overlaps base mbuf new j := by
  cases xs with
  | nil => cases here
  | cons head rest =>
      cases here
      have beyond : ∀ j ∈ first :: rest, place base mbuf first ≤ place base mbuf j := by
        intro j listed
        rcases List.mem_cons.mp listed with rfl | later
        · exact le_rfl
        · have start : place base mbuf first ≤ placeEnd base mbuf first := Nat.le_add_right _ _
          exact start.trans ((List.pairwise_cons.mp sorted).1 j later)
      have lastIn := getLastD_mem first rest
      have new_ : place base mbuf new < placeEnd base mbuf new := Nat.lt_add_of_pos_right some_
      have notBehind : ¬ placeEnd base mbuf (rest.getLastD first) ≤ place base mbuf new := by
        have far := beyond _ lastIn
        have start : place base mbuf (rest.getLastD first) ≤
          placeEnd base mbuf (rest.getLastD first) := Nat.le_add_right _ _
        omega
      refine ⟨?_, fun j listed overlap => ?_⟩
      · rw [oooInsert, if_neg ((ends_before (window _ lastIn) inside).not.mpr notBehind),
          if_pos ((ends_before inside (window first List.mem_cons_self)).mpr front)]
      · have far := beyond j listed
        have hit := overlap.2
        omega

end Sorted

/-! ## The result -/

/-- Into an empty list the mbuf goes with its own `buf_next`. -/
theorem oooInsertLinked_nil {mbuf : MbufId → Mbuf} {new : MbufId} {l : MbufList} {rounds : Nat}
    (holds : l.Holds []) : oooInsertLinked mbuf new rounds l =
      some { ret := success, list := { l with head := some new, tail := some new } } := by
  have head : l.head = none := holds.linked
  rw [oooInsertLinked, head]

section Exact

variable {base : Seq} {mbuf : MbufId → Mbuf} {new : MbufId} {l : MbufList} {xs : List MbufId}
  {rounds : Nat}

/-- A stale `buf_next` becomes the second element of the list. -/
theorem insert_stale (holds : l.Holds []) (stale : l.bufNext new ≠ none) :
    ¬ ∃ out, oooInsertLinked mbuf new rounds l = some out ∧
      InsertsExactly base mbuf new l [] out := by
  rintro ⟨out, result, ⟨-, outcome⟩⟩
  rw [oooInsertLinked_nil holds] at result
  cases result
  rcases outcome with ⟨-, ys, holds', perm, -⟩ | ⟨ret, -⟩
  · obtain rfl : ys = [new] := List.perm_singleton.mp perm
    exact stale holds'.linked.2
  · cases ret

/-- The swapped call reports success and inserts nothing. -/
theorem insert_front (holds : l.Holds xs) (fresh : new ∉ xs) (enough : xs.length ≤ rounds)
    (window : ∀ j ∈ xs, InWindow base mbuf j) (inside : InWindow base mbuf new)
    (sorted : SortedDisjoint base mbuf xs) (some_ : 0 < (mbuf new).payloadLen) {first : MbufId}
    (here : xs.head? = some first) (front : placeEnd base mbuf new ≤ place base mbuf first) :
    ¬ ∃ out, oooInsertLinked mbuf new rounds l = some out ∧
      InsertsExactly base mbuf new l xs out := by
  rintro ⟨out, result, ⟨-, outcome⟩⟩
  obtain ⟨swapped, -⟩ := oooInsert_front window inside sorted some_ here front
  have clear : xs = [] → l.bufNext new = none := by
    rintro rfl
    cases here
  obtain ⟨out', result', spec⟩ := oooInsertLinked_refines mbuf holds fresh clear enough
  rw [result] at result'
  cases result'
  obtain ⟨success_, same⟩ := spec.swapped swapped
  rcases outcome with ⟨-, ys, holds', perm, -⟩ | ⟨ret, -⟩
  · rw [same] at holds'
    have len := perm.length_eq
    rw [← holds.unique holds', List.length_cons] at len
    omega
  · rw [success_] at ret
    cases ret

/-- In the other two branches the call does what it should. -/
theorem insert_exactly (holds : l.Holds xs) (fresh : new ∉ xs) (enough : xs.length ≤ rounds)
    (window : ∀ j ∈ xs, InWindow base mbuf j) (inside : InWindow base mbuf new)
    (sorted : SortedDisjoint base mbuf xs) (ok : InsertOk base mbuf new l xs) :
    ∃ out, oooInsertLinked mbuf new rounds l = some out ∧
      InsertsExactly base mbuf new l xs out := by
  obtain ⟨clear, front⟩ := ok
  obtain ⟨out, result, spec⟩ := oooInsertLinked_refines mbuf holds fresh clear enough
  refine ⟨out, result, ?_⟩
  have placed := oooInsert_sorted window inside sorted
  cases insert : oooInsert mbuf new xs with
  | inserted ys =>
      obtain ⟨ret, holds'⟩ := spec.inserted ys insert
      obtain ⟨perm, sorted'⟩ := placed.inserted ys insert
      exact ⟨⟨fun _ => sorted'.apart perm, fun _ => ret⟩, .inl ⟨ret, ys, holds', perm, sorted'⟩⟩
  | swapped =>
      obtain ⟨first, here, ahead⟩ := placed.swapped insert
      exact absurd (front first here) (Nat.not_lt_of_le ahead)
  | duplicate =>
      obtain ⟨ret, same⟩ := spec.duplicate insert
      obtain ⟨j, listed, overlap⟩ := placed.duplicate insert
      refine ⟨⟨fun success_ => ?_, fun apart => absurd overlap (apart j listed)⟩, .inr ⟨ret, same⟩⟩
      rw [ret] at success_
      cases success_

end Exact

/-- **`ooo_insert` on a sorted list of disjoint segments** of one window inserts the new segment
exactly if it overlaps none, unless the list is empty and `buf_next` of the new mbuf is not null,
or the new segment belongs in front of the list. -/
theorem ooo_insert_exact (base : Seq) (mbuf : MbufId → Mbuf) (new : MbufId) (l : MbufList)
    (xs : List MbufId) (rounds : Nat) (holds : l.Holds xs) (fresh : new ∉ xs)
    (enough : xs.length ≤ rounds) (window : ∀ j ∈ xs, InWindow base mbuf j)
    (inside : InWindow base mbuf new) (sorted : SortedDisjoint base mbuf xs)
    (some_ : 0 < (mbuf new).payloadLen) :
    (∃ out, oooInsertLinked mbuf new rounds l = some out ∧
        InsertsExactly base mbuf new l xs out) ↔ InsertOk base mbuf new l xs := by
  constructor
  · intro exact_
    refine ⟨?_, ?_⟩
    · rintro rfl
      by_contra stale
      exact insert_stale holds stale exact_
    · intro first here
      by_contra front
      exact insert_front holds fresh enough window inside sorted some_ here
        (Nat.le_of_not_lt front) exact_
  · exact insert_exactly holds fresh enough window inside sorted

/-- Two segments of 100 bytes, from 200 and from 0. -/
def twoSegments : MbufId → Mbuf := fun id =>
  if id = 0 then { payloadLen := 100, tcpSeq := 200 } else { payloadLen := 100 }

def listOf (id : MbufId) : MbufList := { head := some id, tail := some id, bufNext := fun _ => none }

theorem listOf_holds (id : MbufId) : (listOf id).Holds [id] := ⟨⟨rfl, rfl⟩, rfl, by simp⟩

theorem ooo_insert_exact_behind :
    (∃ out, oooInsertLinked twoSegments 0 1 (listOf 1) = some out ∧
        InsertsExactly 0 twoSegments 0 (listOf 1) [1] out) ↔
      InsertOk 0 twoSegments 0 (listOf 1) [1] :=
  ooo_insert_exact 0 twoSegments 0 (listOf 1) [1] 1 (listOf_holds 1) (by decide) (by decide)
    (by simp only [List.mem_singleton, forall_eq]; unfold InWindow; decide)
    (by unfold InWindow; decide) (List.pairwise_singleton _ _) (by decide)

/-- The segment from 200 is listed when the one from 0 arrives. -/
theorem ooo_insert_loses_front :
    ¬ ∀ (base : Seq) (mbuf : MbufId → Mbuf) (new : MbufId) (l : MbufList) (xs : List MbufId)
        (rounds : Nat), l.Holds xs → new ∉ xs → xs.length ≤ rounds →
      (∀ j ∈ xs, InWindow base mbuf j) → InWindow base mbuf new → SortedDisjoint base mbuf xs →
      0 < (mbuf new).payloadLen →
      ∃ out, oooInsertLinked mbuf new rounds l = some out ∧
        InsertsExactly base mbuf new l xs out := by
  intro claim
  have listed : ∀ j ∈ [0], InWindow 0 twoSegments j := by
    simp only [List.mem_singleton, forall_eq]
    unfold InWindow
    decide
  have arrived : InWindow 0 twoSegments 1 := by
    unfold InWindow
    decide
  exact insert_front (listOf_holds 0) (by decide) (by decide) listed arrived
    (List.pairwise_singleton _ _) (by decide) rfl (by decide)
    (claim 0 twoSegments 1 (listOf 0) [0] 1 (listOf_holds 0) (by decide) (by decide) listed arrived
      (List.pairwise_singleton _ _) (by decide))

end QStack
