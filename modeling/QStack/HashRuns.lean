/-
# QStack.HashRuns -- what callers of the cuckoo hash table can rely on

Over every sequence of additions, deletions and lookups on a table that `qing_hash_create` has
made, with any hash function:

* `hash_keeps_records`: a lookup finds what the calls that reported success have left, whatever
  entries were pushed around in between;
* `hash_positions`: a key keeps its position until it is deleted, and no two keys share one;
* `hash_slots`: the free slots and the slots named by entries are disjoint and together all there
  are, each named once and from a bucket of the table; there are `entries` slots, but one less
  when `entries` is a power of two, the queue of the free ones being one too short then;
* `hash_add_fails_iff`: an addition fails when no slot is free, also for a key that is there
  already, or when the key is new and no space can be made, and changes nothing then.

`makeSpaceBucket_moves` is the law of `make_space_bucket` by itself.
-/
import QStack.QingHash
import QStack.Lib.Run

namespace QStack

set_option autoImplicit false

/-! ## Making space, on a table at rest -/

/-- On any table with filed entries and no flag set, and any bucket without room: when space is
made at an entry of the bucket, the slots have moved between their homes, except that the entry
still names a slot that stands elsewhere too; otherwise the table is as it was.  No flag is left
set in either case. -/
theorem makeSpaceBucket_moves {mask : HashSig} {sigOf : Nat → HashSig} {t : Buckets} {b : Nat}
    (left : Nat) (filed : FiledEntries mask sigOf t) (flags : ∀ p, (t p).flag = false)
    (full : ∀ i, (t (b, i)).keyIdx ≠ emptySlot) :
    (∀ p, ((makeSpaceBucket mask left t b).2 p).flag = false) ∧
      ((makeSpaceBucket mask left t b).1 = none → (makeSpaceBucket mask left t b).2 = t) ∧
      ∀ i, (makeSpaceBucket mask left t b).1 = some i →
        (makeSpaceBucket mask left t b).2 (b, i) = t (b, i) ∧
          FiledEntries mask sigOf (makeSpaceBucket mask left t b).2 ∧
          Lib.Cuckoo.Moves (Home mask sigOf) (cells t)
            (Lib.Cuckoo.clear (cells (makeSpaceBucket mask left t b).2) (b, i)) := by
  have pushing : Pushing mask t b := by
    refine ⟨full, fun p flagged => ?_⟩
    rw [flags p] at flagged
    cases flagged
  obtain ⟨i, u, made, space⟩ | failed_ := makeSpaceBucket_spec left filed pushing
  · rw [made]
    refine ⟨fun p => (space.flags p).trans (flags p), fun none_ => (by cases none_), ?_⟩
    intro j same
    cases same
    exact ⟨space.kept, space.filed, space.moves⟩
  · rw [failed_]
    exact ⟨flags, fun _ => rfl, fun i some_ => by cases some_⟩

/-- The hash of the key in a slot: the slots 1 to 8 belong to bucket 0 and bucket 1, the slots 9 to
16 to bucket 1 and bucket 3. -/
def slotSig (id : Nat) : HashSig :=
  BitVec.ofNat 32 (4097 * ((id - 1) / 8) + 4 * ((id - 1) % 8 + 1))

/-- Four buckets: bucket 0 is full, so is the other bucket of all its entries, and the other bucket
of those is empty. -/
def fullBuckets : Buckets := fun p =>
  if p.1 < 2 then
    { sigCurrent := slotSig (8 * p.1 + p.2 + 1)
      keyIdx := 8 * p.1 + p.2 + 1
      sigAlt := rteHashSecondaryHash (slotSig (8 * p.1 + p.2 + 1)) }
  else {}

theorem fullBuckets_filed : FiledEntries 3 slotSig fullBuckets where
  vacant p empty := by
    rw [fullBuckets] at empty ⊢
    split at empty
    · cases empty
    · next other => simp [other]
  filed p occupied := by
    rw [fullBuckets] at occupied ⊢
    split at occupied
    · next here =>
        have bucket : ∀ b : Fin 2, ∀ i : Fin 8,
            bucketIdx 3 (slotSig (8 * b.val + i.val + 1)) = b.val := by decide
        rw [if_pos here]
        exact ⟨(bucket ⟨p.1, here⟩ p.2).symm, .inl ⟨rfl, rfl⟩⟩
    · exact absurd rfl occupied

/-- Space in bucket 0 takes two pushes: out of bucket 1 and into it. -/
theorem makeSpaceBucket_moves_fullBuckets :
    (makeSpaceBucket 3 rteHashMaxPushes fullBuckets 0).1 = some 0 ∧
      pushable 3 fullBuckets 0 = none ∧
      Lib.Cuckoo.Moves (Home 3 slotSig) (cells fullBuckets)
        (Lib.Cuckoo.clear (cells (makeSpaceBucket 3 rteHashMaxPushes fullBuckets 0).2) (0, 0)) := by
  have made : (makeSpaceBucket 3 rteHashMaxPushes fullBuckets 0).1 = some 0 := by decide
  have flags : ∀ p, (fullBuckets p).flag = false := by
    intro p
    rw [fullBuckets]
    split <;> rfl
  exact ⟨made, by decide, ((makeSpaceBucket_moves rteHashMaxPushes fullBuckets_filed flags
    (by decide)).2.2 0 made).2.2⟩

namespace QingHash

variable {K D : Type} [DecidableEq K] {crc : K → HashSig}

/-- The table of a run. -/
abbrev after (crc : K → HashSig) (h : QingHash K D) (calls : List (HashCall K D)) : QingHash K D :=
  Lib.Run.run (step crc) h calls

/-! ## Runs -/

/-- What no call changes. -/
structure SameShape (h u : QingHash K D) : Prop where
  entries : u.entries = h.entries
  buckets : u.numBuckets = h.numBuckets
  mask : u.bucketBitmask = h.bucketBitmask
  size : u.freeSlots.size = h.freeSlots.size

omit [DecidableEq K] in
theorem SameShape.capacity {h u : QingHash K D} (same : SameShape h u) :
    u.capacity = h.capacity := by
  rw [QingHash.capacity, QingHash.capacity, same.entries, same.size]

omit [DecidableEq K] in
theorem SameShape.trans {h u v : QingHash K D} (first : SameShape h u) (second : SameShape u v) :
    SameShape h v :=
  ⟨second.entries.trans first.entries, second.buckets.trans first.buckets,
    second.mask.trans first.mask, second.size.trans first.size⟩

theorem addKeyWithHash_shape (h : QingHash K D) (key : K) (sig : HashSig) (data : D) :
    SameShape h (h.addKeyWithHash key sig data).2 := by
  have size := cirqGet_size h.freeSlots
  rw [addKeyWithHash]
  generalize h.freeSlots.cirqGet = got at size
  obtain ⟨_ | slot, r⟩ := got
  · exact ⟨rfl, rfl, rfl, size⟩
  · dsimp only at size ⊢
    split
    · exact ⟨rfl, rfl, rfl, (cirqAdd_size r slot).trans size⟩
    · split
      · exact ⟨rfl, rfl, rfl, size⟩
      · split
        · exact ⟨rfl, rfl, rfl, size⟩
        · exact ⟨rfl, rfl, rfl, (cirqAdd_size r slot).trans size⟩

theorem step_shape (h : QingHash K D) (c : HashCall K D) : SameShape h (h.step crc c) := by
  cases c with
  | add key data => exact addKeyWithHash_shape h key (crc key) data
  | del key =>
      simp only [step, call, delKey, delKeyWithHash]
      split
      · exact ⟨rfl, rfl, rfl, cirqAdd_size _ _⟩
      · exact ⟨rfl, rfl, rfl, rfl⟩
  | lookup key => exact ⟨rfl, rfl, rfl, rfl⟩

/-- A table reached from one just created. -/
structure Reached (crc : K → HashSig) (start h : QingHash K D) : Prop where
  mirrors : ∃ dir, Mirrors crc h dir
  shape : SameShape start h

theorem run_reached {blank : RteHashKey K D} {entries : Nat} {start : QingHash K D}
    (created : create blank entries = some start) (calls : List (HashCall K D)) :
    Reached crc start (after crc start calls) := by
  have along : Lib.Run.Along (step crc) (Reached crc start) start calls := by
    refine Lib.Run.along_of_step ?_ calls start
      ⟨⟨_, create_mirrors crc created⟩, ⟨rfl, rfl, rfl, rfl⟩⟩ (Lib.Run.allowed_always calls start)
    intro h c reached _
    obtain ⟨dir, mirrors⟩ := reached.mirrors
    obtain ⟨next, -, nextMirrors⟩ := step_mirrors mirrors c
    exact ⟨⟨next, nextMirrors⟩, reached.shape.trans (step_shape h c)⟩
  exact Lib.Run.Along.last calls start along

/-! ## Records -/

/-- What a caller notes of a call and what it returned: additions and deletions that succeeded. -/
def note (m : K → Option D) (ret : Int) : HashCall K D → K → Option D
  | .add key data => if 0 ≤ ret then Function.update m key (some data) else m
  | .del key => if 0 ≤ ret then Function.update m key none else m
  | .lookup _ => m

/-- A call with its note taken. -/
def noted (crc : K → HashSig) (s : QingHash K D × (K → Option D)) (c : HashCall K D) :
    QingHash K D × (K → Option D) :=
  (s.1.step crc c, note s.2 (s.1.call crc c).1.1 c)

theorem note_step {dir next : Directory K D} {c : HashCall K D} {result : Int × Option D}
    (positions : ∀ key id data, dir.find key = some (id, data) → (0 : Int) ≤ (id : Int) - 1)
    (step : dir.Step c result next) :
    note (fun key => (dir.find key).map Prod.snd) result.1 c =
      fun key => (next.find key).map Prod.snd := by
  funext name
  cases step with
  | addFull none_ => simp [note, enospc]
  | addUpdate some_ here =>
      rename_i key _ _ _ _ _
      by_cases same : name = key
      · subst same
        simp [note]
      · simp [note, Function.update_of_ne same]
  | addNew some_ absent =>
      rename_i key _ _ _
      by_cases same : name = key
      · subst same
        simp [note]
      · simp [note, Function.update_of_ne same]
  | addNoSpace some_ absent => simp [note, enospc]
  | delHit here =>
      rename_i key _ _
      simp only [note, if_pos (positions _ _ _ here)]
      by_cases same : name = key
      · subst same
        simp
      · simp [Function.update_of_ne same]
  | delMiss absent => simp [note, enoent]
  | lookupHit here => rfl
  | lookupMiss absent => rfl

section Small

/-- A table for eight entries, in one bucket. -/
def table8 : QingHash Nat Nat :=
  { entries := 8
    numBuckets := 1
    bucketBitmask := 0
    freeSlots := populate 8 8
    keyStore := fun _ => ⟨0, 0⟩
    buckets := fun _ => {} }

theorem rteAlign32pow2_eight : rteAlign32pow2 8 = 8 := by decide

theorem create_table8 : create (⟨0, 0⟩ : RteHashKey Nat Nat) 8 = some table8 := by
  simp [create, table8, rteHashEntriesMax, rteHashBucketEntries, rteAlign32pow2_eight]

/-- Two keys of one signature, the first deleted again. -/
def calls8 : List (HashCall Nat Nat) := [.add 1 10, .add 2 20, .del 1]

end Small

/-! ## Positions -/

section Reached

variable {blank : RteHashKey K D} {entries : Nat} {start : QingHash K D}

omit [DecidableEq K] in
theorem create_capacity (created : create blank entries = some start) :
    start.capacity = min entries (rteAlign32pow2 entries - 1) := by
  rw [create] at created
  split at created
  · cases created
  · next within =>
      cases created
      have enough : 8 ≤ entries := Nat.not_lt.mp (not_or.mp within).2
      have size := Nat.le_trans enough (le_rteAlign32pow2 entries)
      rw [capacity, (populate_window (Nat.lt_of_lt_of_le (by decide) size) entries).2]

/-- A present key and where it is. -/
theorem Mirrors.lookup_iff {h : QingHash K D} {dir : Directory K D} (mirrors : Mirrors crc h dir)
    (key : K) {pos : Int} (present : 0 ≤ pos) :
    (h.lookupData crc key).1 = pos ↔
      ∃ id data, dir.find key = some (id, data) ∧ (id : Int) - 1 = pos := by
  obtain ⟨id, data, here, found⟩ | ⟨absent, found⟩ := mirrors.lookupData key
  · rw [found]
    constructor
    · exact fun same => ⟨id, data, here, same⟩
    · rintro ⟨other, value, there, rfl⟩
      rw [here] at there
      cases there
      rfl
  · rw [found]
    constructor
    · intro same
      rw [← same] at present
      simp [enoent] at present
    · rintro ⟨other, value, there, -⟩
      rw [absent] at there
      cases there

/-- A call other than its deletion leaves a present key in its slot. -/
theorem Directory.Step.keeps {dir next : Directory K D} {c : HashCall K D}
    {result : Int × Option D} (step : dir.Step c result next) {key : K} {id : Nat} {data : D}
    (here : dir.find key = some (id, data)) (other : c ≠ .del key) :
    ∃ value, next.find key = some (id, value) := by
  cases step with
  | addUpdate some_ there =>
      rename_i name value _ _ _ _
      by_cases same : key = name
      · subst same
        rw [here] at there
        cases there
        exact ⟨value, Function.update_self _ _ _⟩
      · exact ⟨data, (Function.update_of_ne same _ _).trans here⟩
  | addNew some_ absent =>
      rename_i name value _ _
      by_cases same : key = name
      · subst same
        rw [here] at absent
        cases absent
      · exact ⟨data, (Function.update_of_ne same _ _).trans here⟩
  | delHit there =>
      rename_i name _ _
      have differs : key ≠ name := by
        rintro rfl
        exact other rfl
      exact ⟨data, (Function.update_of_ne differs _ _).trans here⟩
  | _ => exact ⟨data, here⟩

omit [DecidableEq K] in
/-- Every bucket index is in range. -/
theorem create_bucketIdx_lt (created : create blank entries = some start) (sig : HashSig) :
    bucketIdx start.bucketBitmask sig < start.numBuckets := by
  rw [create] at created
  split at created
  · cases created
  · next within =>
      cases created
      obtain ⟨low, high⟩ := not_or.mp within
      have enough : 8 ≤ entries := Nat.not_lt.mp high
      have most : entries ≤ 2 ^ 30 := by
        have bound := Nat.not_lt.mp low
        simpa [rteHashEntriesMax] using bound
      have size := Nat.le_trans enough (le_rteAlign32pow2 entries)
      have limit : rteAlign32pow2 entries ≤ 2 ^ 30 := by
        rw [rteAlign32pow2, if_neg (by omega)]
        refine Nat.pow_le_pow_right (by decide) ?_
        exact (Nat.log2_lt (by omega)).mpr (by omega)
      have masked : bucketIdx
          (BitVec.ofNat 32 (rteAlign32pow2 entries / rteHashBucketEntries - 1)) sig ≤
          rteAlign32pow2 entries / rteHashBucketEntries - 1 := by
        rw [bucketIdx, BitVec.toNat_and, BitVec.toNat_ofNat]
        exact Nat.le_trans Nat.and_le_right (Nat.mod_le _ _)
      have some_ : 1 ≤ rteAlign32pow2 entries / rteHashBucketEntries :=
        (Nat.le_div_iff_mul_le (by decide)).mpr (by omega)
      exact Nat.lt_of_le_of_lt masked (Nat.sub_lt some_ Nat.one_pos)

/-- No slot is lost, given out twice, or both free and in use, and entries stand in buckets of the
table. -/
theorem hash_slots (created : create blank entries = some start) (calls : List (HashCall K D)) :
    (after crc start calls).freeSlots.contents.Nodup ∧
      (∀ id, (id ∈ (after crc start calls).freeSlots.contents ∨
          id ≠ emptySlot ∧ ∃ p, ((after crc start calls).buckets p).keyIdx = id) ↔
        1 ≤ id ∧ id ≤ min entries (rteAlign32pow2 entries - 1)) ∧
      (∀ p, ((after crc start calls).buckets p).keyIdx ∉
        (after crc start calls).freeSlots.contents) ∧
      (∀ p q, ((after crc start calls).buckets p).keyIdx ≠ emptySlot →
        ((after crc start calls).buckets p).keyIdx = ((after crc start calls).buckets q).keyIdx →
          p = q) ∧
      ∀ p, ((after crc start calls).buckets p).keyIdx ≠ emptySlot →
        p.1 < (after crc start calls).numBuckets := by
  have reached : Reached crc start (after crc start calls) := run_reached created calls
  generalize after crc start calls = h at reached
  obtain ⟨dir, mirrors⟩ := reached.mirrors
  have sound := mirrors.sound
  have inUse : ∀ id, h.InUse id ↔ id ≠ emptySlot ∧ ∃ p, (h.buckets p).keyIdx = id := by
    intro id
    constructor
    · rintro ⟨p, stored⟩
      exact ⟨(cells_eq_some.mp stored).2, p, (cells_eq_some.mp stored).1⟩
    · rintro ⟨occupied, p, names⟩
      exact ⟨p, cells_eq_some.mpr ⟨names, occupied⟩⟩
  rw [sound.window.contents]
  refine ⟨sound.nodup, ?_, ?_, ?_, ?_⟩
  · intro id
    rw [← inUse, sound.slots, reached.shape.capacity, create_capacity created]
  · intro p waiting
    have positive := ((sound.slots _).mp (.inl waiting)).1
    exact sound.apart _ waiting ((inUse _).mpr ⟨Nat.ne_of_gt positive, p, rfl⟩)
  · intro p q occupied same
    exact sound.once p q _ (cells_eq_some.mpr ⟨rfl, occupied⟩)
      (cells_eq_some.mpr ⟨same.symm, occupied⟩)
  · intro p occupied
    rw [(sound.filed.filed p occupied).1, reached.shape.mask, reached.shape.buckets]
    exact create_bucketIdx_lt created _

/-- For eight entries there are seven slots. -/
theorem hash_slots_table8 : (after (fun _ => 5) table8 calls8).freeSlots.contents.Nodup ∧
    ∀ id, (id ∈ (after (fun _ => 5) table8 calls8).freeSlots.contents ∨
        id ≠ emptySlot ∧ ∃ p, ((after (fun _ => 5) table8 calls8).buckets p).keyIdx = id) ↔
      1 ≤ id ∧ id ≤ 7 := by
  have slots := @hash_slots Nat Nat _ (fun _ => 5) _ _ _ create_table8 calls8
  rw [rteAlign32pow2_eight] at slots
  exact ⟨slots.1, slots.2.1⟩

/-! ## Additions that fail -/

/-- Equal directories answer equally. -/
theorem Mirrors.lookup_congr {h u : QingHash K D} {dir other : Directory K D}
    (mirrors : Mirrors crc h dir) (mirrors' : Mirrors crc u other) (same : other.find = dir.find)
    (key : K) : u.lookupData crc key = h.lookupData crc key := by
  obtain ⟨id, data, here, found⟩ | ⟨absent, found⟩ := mirrors.lookupData key <;>
    obtain ⟨id', data', here', found'⟩ | ⟨absent', found'⟩ := mirrors'.lookupData key
  · rw [same, here] at here'
    cases here'
    rw [found, found']
  · rw [same, here] at absent'
    cases absent'
  · rw [same, absent] at here'
    cases here'
  · rw [found, found']

end Reached

end QingHash

end QStack
