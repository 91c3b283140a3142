/-
# QStack.QingHash -- the cuckoo hash table of qing_hash.c

A key has two buckets, one for its signature and one for the signature derived from that.  Its
entry stands in either of them and carries both signatures, the one of its present bucket first.
The key and its data lie in a slot of the key store, which the entry names; slot 0 means an empty
entry, and the slots not in use wait in a circular queue.  A new key goes to the first bucket.
When that is full `make_space_bucket` pushes entries to their other buckets, entry by entry along
a chain it marks with flags, and leaves the place it frees to the caller.

Modelled is the table with one writer and without transactional memory.  The hash function is a
parameter, keys are compared as values.

* `makeSpaceBucket_moves`: over every table whose entries are filed under their signatures, what
  `make_space_bucket` does to the slots is a run of moves between the two homes of each, up to the
  surplus copy at the place it returns; the flags are back as they were, and a failure leaves the
  table as it was;
* `Sound`, `Mirrors`: the invariant of a table and the directory it stands for, a map from keys to
  slots and data with a list of free slots;
* `step_mirrors`: every call does to the directory what `Directory.Step` allows.
-/
import QStack.Lib.Cuckoo
import QStack.TxRing
import Mathlib.Data.List.Perm.Subperm

namespace QStack

set_option autoImplicit false

/-- `hash_sig_t` -/
abbrev HashSig := BitVec 32

/-- `RTE_HASH_BUCKET_ENTRIES` -/
abbrev rteHashBucketEntries : Nat := 8

/-- `RTE_HASH_MAX_PUSHES` -/
def rteHashMaxPushes : Nat := 100

/-- `RTE_HASH_ENTRIES_MAX` -/
def rteHashEntriesMax : Nat := 1 <<< 30

/-- `EMPTY_SLOT` -/
def emptySlot : Nat := 0

def enoent : Int := 2

def enospc : Int := 28

/-- `rte_align32pow2`: the next power of two. -/
def rteAlign32pow2 (n : Nat) : Nat := if n ≤ 1 then n else 2 ^ (Nat.log2 (n - 1) + 1)

def rteHashSecondaryHash (primaryHash : HashSig) : HashSig :=
  let tag := primaryHash >>> 12
  primaryHash ^^^ ((tag + 1) * 0x5bd1e995)

/-- What the arrays of a `struct rte_hash_bucket` hold at one index. -/
structure RteHashEntry where
  sigCurrent : HashSig := 0
  /-- a `uint32_t` -/
  keyIdx : Nat := 0
  sigAlt : HashSig := 0
  flag : Bool := false
deriving DecidableEq, Repr

/-- The buckets; `(b, i)` is entry `i` of bucket `b`. -/
abbrev Buckets := Nat × Fin rteHashBucketEntries → RteHashEntry

/-- `struct rte_hash_key` -/
structure RteHashKey (K D : Type) where
  pdata : D
  key : K
deriving DecidableEq, Repr

/-! ## Making space -/

section MakeSpace

variable (mask : HashSig)

/-- The index of the bucket of a signature. -/
def bucketIdx (sig : HashSig) : Nat := (sig &&& mask).toNat

/-- The first empty entry of a bucket. -/
def emptyEntry (t : Buckets) (b : Nat) : Option (Fin rteHashBucketEntries) :=
  (List.finRange rteHashBucketEntries).find? fun j => (t (b, j)).keyIdx == emptySlot

/-- `next_bkt[i]` -/
def nextBkt (t : Buckets) (b : Nat) (i : Fin rteHashBucketEntries) : Nat :=
  bucketIdx mask (t (b, i)).sigAlt

/-- The first entry of the bucket with room in its other bucket, and where the room is. -/
def pushable (t : Buckets) (b : Nat) :
    Option (Fin rteHashBucketEntries × Fin rteHashBucketEntries) :=
  (List.finRange rteHashBucketEntries).findSome? fun i =>
    (emptyEntry t (nextBkt mask t b i)).map fun j => (i, j)

/-- The first entry that is not being pushed. -/
def unpushed (t : Buckets) (b : Nat) : Option (Fin rteHashBucketEntries) :=
  (List.finRange rteHashBucketEntries).find? fun i => !(t (b, i)).flag

def setFlag (t : Buckets) (p : Nat × Fin rteHashBucketEntries) (flag : Bool) : Buckets :=
  Function.update t p { t p with flag := flag }

/-- The three assignments that copy the entry at `p` to `q`, with the signatures swapped. -/
def pushEntry (t : Buckets) (p q : Nat × Fin rteHashBucketEntries) : Buckets :=
  let t := Function.update t q { t q with sigAlt := (t p).sigCurrent }
  let t := Function.update t q { t q with sigCurrent := (t p).sigAlt }
  Function.update t q { t q with keyIdx := (t p).keyIdx }

/-- `make_space_bucket`, where `*nr_pushes` is `RTE_HASH_MAX_PUSHES` less the first argument;
`none` is `-ENOSPC`. -/
def makeSpaceBucket : Nat → Buckets → Nat → Option (Fin rteHashBucketEntries) × Buckets
  | left, t, b =>
      match pushable mask t b with
      | some (i, j) => (some i, pushEntry t (b, i) (nextBkt mask t b i, j))
      | none =>
          match unpushed t b with
          | none => (none, t)
          | some i =>
              match left with
              | 0 => (none, t)
              | left + 1 =>
                  let next := nextBkt mask t b i
                  let made := makeSpaceBucket left (setFlag t (b, i) true) next
                  let t := setFlag made.2 (b, i) false
                  match made.1 with
                  | some ret => (some i, pushEntry t (b, i) (next, ret))
                  | none => (none, t)

end MakeSpace

/-! ## The table -/

structure QingHash (K D : Type) where
  entries : Nat
  numBuckets : Nat
  bucketBitmask : HashSig
  freeSlots : CircularQueue Nat
  keyStore : Nat → RteHashKey K D
  buckets : Buckets

inductive HashCall (K D : Type) where
  | add (key : K) (data : D)
  | del (key : K)
  | lookup (key : K)
deriving DecidableEq, Repr

namespace QingHash

variable {K D : Type}

/-- The slots `qing_hash_create` puts into the queue it has made. -/
def populate (entries size : Nat) : CircularQueue Nat :=
  (List.range entries).foldl (fun r i => (r.cirqAdd (i + 1)).2) (CircularQueue.cirqInit size)

/-- `qing_hash_create`, the allocations succeeding; `blank` is what zeroed memory holds. -/
def create (blank : RteHashKey K D) (entries : Nat) : Option (QingHash K D) :=
  if rteHashEntriesMax < entries ∨ entries < rteHashBucketEntries then none
  else
    let numBuckets := rteAlign32pow2 entries / rteHashBucketEntries
    some
      { entries := entries
        numBuckets := numBuckets
        bucketBitmask := BitVec.ofNat 32 (numBuckets - 1)
        freeSlots := populate entries (rteAlign32pow2 entries)
        keyStore := fun _ => blank
        buckets := fun _ => {} }

section Calls

variable [DecidableEq K]

/-- The loop through one bucket for an entry that passes the test on its signatures and whose key
is the one asked for. -/
def findIn (h : QingHash K D) (key : K) (b : Nat) (test : RteHashEntry → Bool) :
    Option (Nat × Fin rteHashBucketEntries) :=
  ((List.finRange rteHashBucketEntries).find? fun i =>
    test (h.buckets (b, i)) &&
      decide (key = (h.keyStore (h.buckets (b, i)).keyIdx).key)).map fun i => (b, i)

/-- The two loops, first through the primary and then through the secondary bucket. -/
def locate (h : QingHash K D) (key : K) (sig : HashSig) (prim sec : RteHashEntry → Bool) :
    Option (Nat × Fin rteHashBucketEntries) :=
  (h.findIn key (bucketIdx h.bucketBitmask sig) prim).or
    (h.findIn key (bucketIdx h.bucketBitmask (rteHashSecondaryHash sig)) sec)

/-- What a new entry is filed with. -/
def fill (h : QingHash K D) (p : Nat × Fin rteHashBucketEntries) (sig altHash : HashSig)
    (newIdx : Nat) : QingHash K D :=
  { h with
    buckets := Function.update h.buckets p
      { h.buckets p with sigCurrent := sig, sigAlt := altHash, keyIdx := newIdx } }

/-- `__qing_hash_add_key_with_hash` -/
def addKeyWithHash (h : QingHash K D) (key : K) (sig : HashSig) (data : D) :
    Int × QingHash K D :=
  let prim := bucketIdx h.bucketBitmask sig
  let altHash := rteHashSecondaryHash sig
  match h.freeSlots.cirqGet with
  | (none, r) => (-enospc, { h with freeSlots := r })
  | (some newIdx, r) =>
      match h.locate key sig (fun e => decide (e.sigCurrent = sig ∧ e.sigAlt = altHash))
          (fun e => decide (e.sigAlt = sig ∧ e.sigCurrent = altHash)) with
      | some p =>
          let idx := (h.buckets p).keyIdx
          (idx - 1,
            { h with
              freeSlots := (r.cirqAdd newIdx).2
              keyStore := Function.update h.keyStore idx { h.keyStore idx with pdata := data } })
      | none =>
          let h := { h with
            freeSlots := r, keyStore := Function.update h.keyStore newIdx ⟨data, key⟩ }
          match emptyEntry h.buckets prim with
          | some i => (newIdx - 1, h.fill (prim, i) sig altHash newIdx)
          | none =>
              match makeSpaceBucket h.bucketBitmask rteHashMaxPushes h.buckets prim with
              | (some ret, t) =>
                  (newIdx - 1, { h with buckets := t }.fill (prim, ret) sig altHash newIdx)
              | (none, t) =>
                  (-enospc, { h with buckets := t, freeSlots := (r.cirqAdd newIdx).2 })

/-- `remove_entry`, and the entry emptied after it. -/
def removeEntry (h : QingHash K D) (p : Nat × Fin rteHashBucketEntries) : QingHash K D :=
  { h with
    freeSlots := (h.freeSlots.cirqAdd (h.buckets p).keyIdx).2
    buckets := Function.update h.buckets p
      { h.buckets p with sigCurrent := 0, sigAlt := 0, keyIdx := emptySlot } }

/-- `__qing_hash_del_key_with_hash` -/
def delKeyWithHash (h : QingHash K D) (key : K) (sig : HashSig) : Int × QingHash K D :=
  match h.locate key sig (fun e => decide (e.sigCurrent = sig ∧ e.keyIdx ≠ emptySlot))
      (fun e => decide (e.sigCurrent = rteHashSecondaryHash sig ∧ e.keyIdx ≠ emptySlot)) with
  | some p => ((h.buckets p).keyIdx - 1, h.removeEntry p)
  | none => (-enoent, h)

/-- `__qing_hash_lookup_with_hash`, with what it stores through `data`. -/
def lookupWithHash (h : QingHash K D) (key : K) (sig : HashSig) : Int × Option D :=
  match h.locate key sig (fun e => decide (e.sigCurrent = sig ∧ e.keyIdx ≠ emptySlot))
      (fun e => decide (e.sigCurrent = rteHashSecondaryHash sig ∧ e.sigAlt = sig)) with
  | some p => ((h.buckets p).keyIdx - 1, some (h.keyStore (h.buckets p).keyIdx).pdata)
  | none => (-enoent, none)

variable (crc : K → HashSig)

/-- `qing_hash_add_key_data` -/
def addKeyData (h : QingHash K D) (key : K) (data : D) : Int × QingHash K D :=
  let added := h.addKeyWithHash key (crc key) data
  (if 0 ≤ added.1 then 0 else added.1, added.2)

/-- `qing_hash_del_key` -/
def delKey (h : QingHash K D) (key : K) : Int × QingHash K D := h.delKeyWithHash key (crc key)

/-- `qing_hash_lookup_data` -/
def lookupData (h : QingHash K D) (key : K) : Int × Option D := h.lookupWithHash key (crc key)

/-- One call, with what it returns and stores through `data`. -/
def call (h : QingHash K D) : HashCall K D → (Int × Option D) × QingHash K D
  | .add key data => (((h.addKeyData crc key data).1, none), (h.addKeyData crc key data).2)
  | .del key => (((h.delKey crc key).1, none), (h.delKey crc key).2)
  | .lookup key => (h.lookupData crc key, h)

def step (h : QingHash K D) (c : HashCall K D) : QingHash K D := (h.call crc c).2

end Calls

end QingHash

/-! ## Signatures -/

theorem rteHashSecondaryHash_ne (sig : HashSig) : rteHashSecondaryHash sig ≠ sig := by
  intro same
  have product : (sig >>> 12 + 1#32) * 0x5bd1e995#32 = 0#32 := by
    have cancel := congrArg (sig ^^^ ·) same
    simpa [rteHashSecondaryHash, ← BitVec.xor_assoc] using cancel
  -- the factor is odd, so it has an inverse
  have inverse : 0x5bd1e995#32 * 0xe59b19bd#32 = 1#32 := by decide
  have zero : sig >>> 12 + 1#32 = 0#32 := by
    calc sig >>> 12 + 1#32 = (sig >>> 12 + 1#32) * (0x5bd1e995#32 * 0xe59b19bd#32) := by
          rw [inverse, BitVec.mul_one]
      _ = 0#32 := by rw [← BitVec.mul_assoc, product, BitVec.zero_mul]
  have small : (sig >>> 12).toNat < 2 ^ 20 := by
    rw [BitVec.toNat_ushiftRight, Nat.shiftRight_eq_div_pow]
    have bound := sig.isLt
    omega
  have wrapped := congrArg BitVec.toNat zero
  rw [BitVec.toNat_add, BitVec.toNat_ofNat, BitVec.toNat_ofNat] at wrapped
  omega

/-! ## Entries and their homes -/

/-- The entry carries the two signatures of a key with signature `sig`, and stands in the bucket
of the one it carries first. -/
def Carries (mask sig : HashSig) (e : RteHashEntry) (b : Nat) : Prop :=
  b = bucketIdx mask e.sigCurrent ∧
    ((e.sigCurrent = sig ∧ e.sigAlt = rteHashSecondaryHash sig) ∨
      (e.sigCurrent = rteHashSecondaryHash sig ∧ e.sigAlt = sig))

/-- A slot may be named from the two buckets of its key; `sigOf` gives the signature of the key in
a slot. -/
def Home (mask : HashSig) (sigOf : Nat → HashSig) (id : Nat)
    (p : Nat × Fin rteHashBucketEntries) : Prop :=
  p.1 = bucketIdx mask (sigOf id) ∨ p.1 = bucketIdx mask (rteHashSecondaryHash (sigOf id))

/-- The table of slots the entries amount to. -/
def cells (t : Buckets) : Lib.Cuckoo.Table (Nat × Fin rteHashBucketEntries) Nat :=
  fun p => if (t p).keyIdx = emptySlot then none else some (t p).keyIdx

structure FiledEntries (mask : HashSig) (sigOf : Nat → HashSig) (t : Buckets) : Prop where
  vacant : ∀ p, (t p).keyIdx = emptySlot → (t p).sigCurrent = 0 ∧ (t p).sigAlt = 0
  filed : ∀ p, (t p).keyIdx ≠ emptySlot → Carries mask (sigOf (t p).keyIdx) (t p) p.1

section Entries

variable {mask : HashSig} {sigOf : Nat → HashSig} {t : Buckets}

theorem cells_eq_some {p : Nat × Fin rteHashBucketEntries} {id : Nat} :
    cells t p = some id ↔ (t p).keyIdx = id ∧ id ≠ emptySlot := by
  rw [cells]
  split
  · next empty =>
      constructor
      · intro stored
        cases stored
      · rintro ⟨rfl, occupied⟩
        exact absurd empty occupied
  · next occupied =>
      constructor
      · intro stored
        cases stored
        exact ⟨rfl, occupied⟩
      · intro stored
        rw [stored.1]

theorem cells_eq_none {p : Nat × Fin rteHashBucketEntries} :
    cells t p = none ↔ (t p).keyIdx = emptySlot := by
  rw [cells]
  split <;> simp_all

theorem Carries.home {sig : HashSig} {e : RteHashEntry} {b : Nat} (carries : Carries mask sig e b) :
    b = bucketIdx mask sig ∨ b = bucketIdx mask (rteHashSecondaryHash sig) := by
  obtain ⟨here, ⟨current, -⟩ | ⟨current, -⟩⟩ := carries
  · exact .inl (current ▸ here)
  · exact .inr (current ▸ here)

/-- The signatures swapped are those of the other home. -/
theorem Carries.swap {sig : HashSig} {e f : RteHashEntry} {b : Nat} (carries : Carries mask sig e b)
    (current : f.sigCurrent = e.sigAlt) (alt : f.sigAlt = e.sigCurrent) :
    Carries mask sig f (bucketIdx mask e.sigAlt) := by
  refine ⟨by rw [current], ?_⟩
  rw [current, alt]
  exact carries.2.symm.imp And.symm And.symm

theorem FiledEntries.home (filed : FiledEntries mask sigOf t)
    {p : Nat × Fin rteHashBucketEntries} {id : Nat}
    (stored : cells t p = some id) : Home mask sigOf id p := by
  obtain ⟨rfl, occupied⟩ := cells_eq_some.mp stored
  exact (filed.filed p occupied).home

/-- Where `make_space_bucket` would push an entry is a home of its slot. -/
theorem FiledEntries.home_next (filed : FiledEntries mask sigOf t) {b : Nat}
    {i : Fin rteHashBucketEntries}
    (occupied : (t (b, i)).keyIdx ≠ emptySlot) (j : Fin rteHashBucketEntries) :
    Home mask sigOf (t (b, i)).keyIdx (nextBkt mask t b i, j) :=
  ((filed.filed _ occupied).swap (f := ⟨_, 0, _, false⟩) rfl rfl).home

@[simp]
theorem setFlag_self (t : Buckets) (p : Nat × Fin rteHashBucketEntries) (flag : Bool) :
    setFlag t p flag p = { t p with flag := flag } := Function.update_self _ _ _

theorem setFlag_of_ne {p q : Nat × Fin rteHashBucketEntries} (ne : q ≠ p) (t : Buckets)
    (flag : Bool) : setFlag t p flag q = t q := Function.update_of_ne ne _ _

/-- Only the flag of the entry changes. -/
theorem setFlag_apply (t : Buckets) (p q : Nat × Fin rteHashBucketEntries) (flag : Bool) :
    setFlag t p flag q = { t q with flag := if q = p then flag else (t q).flag } := by
  by_cases same : q = p
  · subst same
    rw [setFlag_self, if_pos rfl]
  · rw [setFlag_of_ne same, if_neg same]

@[simp]
theorem cells_setFlag (t : Buckets) (p : Nat × Fin rteHashBucketEntries) (flag : Bool) :
    cells (setFlag t p flag) = cells t := by
  funext q
  simp [cells, setFlag_apply]

theorem FiledEntries.setFlag (filed : FiledEntries mask sigOf t)
    (p : Nat × Fin rteHashBucketEntries)
    (flag : Bool) : FiledEntries mask sigOf (setFlag t p flag) where
  vacant q empty := by
    rw [setFlag_apply] at empty ⊢
    exact filed.vacant q empty
  filed q occupied := by
    rw [setFlag_apply] at occupied ⊢
    exact filed.filed q occupied

/-- The assignments of a push taken together. -/
theorem pushEntry_eq {p q : Nat × Fin rteHashBucketEntries} (ne : p ≠ q) (t : Buckets) :
    pushEntry t p q = Function.update t q
      ⟨(t p).sigAlt, (t p).keyIdx, (t p).sigCurrent, (t q).flag⟩ := by
  simp [pushEntry, Function.update_of_ne ne]

theorem cells_pushEntry {p q : Nat × Fin rteHashBucketEntries} (ne : p ≠ q)
    (occupied : (t p).keyIdx ≠ emptySlot) :
    cells (pushEntry t p q) = Lib.Cuckoo.put (cells t) q (t p).keyIdx := by
  rw [pushEntry_eq ne]
  funext r
  by_cases same : r = q
  · subst same
    simp [cells, occupied]
  · rw [Lib.Cuckoo.put_of_ne same, cells, cells, Function.update_of_ne same]

theorem FiledEntries.pushEntry (filed : FiledEntries mask sigOf t) {b : Nat}
    {i j : Fin rteHashBucketEntries}
    (occupied : (t (b, i)).keyIdx ≠ emptySlot) (ne : (b, i) ≠ (nextBkt mask t b i, j)) :
    FiledEntries mask sigOf (pushEntry t (b, i) (nextBkt mask t b i, j)) := by
  rw [pushEntry_eq ne]
  constructor
  · intro q empty
    by_cases same : q = (nextBkt mask t b i, j)
    · subst same
      rw [Function.update_self] at empty
      exact absurd empty occupied
    · rw [Function.update_of_ne same] at empty ⊢
      exact filed.vacant q empty
  · intro q full
    by_cases same : q = (nextBkt mask t b i, j)
    · subst same
      rw [Function.update_self]
      exact (filed.filed _ occupied).swap rfl rfl
    · rw [Function.update_of_ne same] at full ⊢
      exact filed.filed q full

end Entries

/-! ## What making space does -/

/-- The bucket has no room, and neither have the other homes of the entries being pushed. -/
structure Pushing (mask : HashSig) (t : Buckets) (b : Nat) : Prop where
  full : ∀ i, (t (b, i)).keyIdx ≠ emptySlot
  chain : ∀ p, (t p).flag = true → (t p).keyIdx ≠ emptySlot ∧
    ∀ j, (t (bucketIdx mask (t p).sigAlt, j)).keyIdx ≠ emptySlot

/-- From `t` to `u` space was made at entry `i` of bucket `b`, whose slot stands elsewhere now. -/
structure MadeSpace (mask : HashSig) (sigOf : Nat → HashSig) (t : Buckets) (b : Nat)
    (i : Fin rteHashBucketEntries) (u : Buckets) : Prop where
  unpushed : (t (b, i)).flag = false
  kept : u (b, i) = t (b, i)
  flagged : ∀ p, (t p).flag = true → u p = t p
  flags : ∀ p, (u p).flag = (t p).flag
  filed : FiledEntries mask sigOf u
  moves : Lib.Cuckoo.Moves (Home mask sigOf) (cells t) (Lib.Cuckoo.clear (cells u) (b, i))

section MakingSpace

variable {mask : HashSig} {sigOf : Nat → HashSig} {t : Buckets} {b : Nat}

theorem emptyEntry_some {j : Fin rteHashBucketEntries} (found : emptyEntry t b = some j) :
    (t (b, j)).keyIdx = emptySlot := by
  simpa using List.find?_some found

theorem emptyEntry_none :
    emptyEntry t b = none ↔ ∀ j, (t (b, j)).keyIdx ≠ emptySlot := by
  simp [emptyEntry, List.find?_eq_none]

theorem pushable_some {i j : Fin rteHashBucketEntries} (found : pushable mask t b = some (i, j)) :
    (t (nextBkt mask t b i, j)).keyIdx = emptySlot := by
  obtain ⟨k, -, at_⟩ := List.exists_of_findSome?_eq_some found
  obtain ⟨room, empty, same⟩ := Option.map_eq_some_iff.mp at_
  cases same
  exact emptyEntry_some empty

theorem pushable_none (none_ : pushable mask t b = none) (i j : Fin rteHashBucketEntries) :
    (t (nextBkt mask t b i, j)).keyIdx ≠ emptySlot := by
  have full := List.findSome?_eq_none_iff.mp none_ i (List.mem_finRange i)
  exact emptyEntry_none.mp (Option.map_eq_none_iff.mp full) j

theorem unpushed_some {i : Fin rteHashBucketEntries} (found : unpushed t b = some i) :
    (t (b, i)).flag = false := by
  simpa using List.find?_some found

/-- An entry of the bucket has room in its other home. -/
theorem madeSpace_last (filed : FiledEntries mask sigOf t) (pushing : Pushing mask t b)
    {i j : Fin rteHashBucketEntries} (found : pushable mask t b = some (i, j)) :
    MadeSpace mask sigOf t b i (pushEntry t (b, i) (nextBkt mask t b i, j)) := by
  have room := pushable_some found
  have occupied := pushing.full i
  have ne : (b, i) ≠ (nextBkt mask t b i, j) := by
    intro same
    rw [← same] at room
    exact occupied room
  constructor
  · by_contra flagged
    rw [Bool.not_eq_false] at flagged
    exact (pushing.chain _ flagged).2 j room
  · rw [pushEntry_eq ne, Function.update_of_ne ne]
  · intro p flagged
    have other : p ≠ (nextBkt mask t b i, j) := by
      rintro rfl
      exact (pushing.chain _ flagged).1 room
    rw [pushEntry_eq ne, Function.update_of_ne other]
  · intro p
    rw [pushEntry_eq ne]
    by_cases same : p = (nextBkt mask t b i, j)
    · subst same
      rw [Function.update_self]
    · rw [Function.update_of_ne same]
  · exact filed.pushEntry occupied ne
  · rw [cells_pushEntry ne occupied]
    exact .copy (cells_eq_some.mpr ⟨rfl, occupied⟩) (cells_eq_none.mpr room)
      (filed.home_next occupied j)

/-- No other home has room, and the first entry not being pushed is marked. -/
theorem Pushing.deeper (pushing : Pushing mask t b) (none_ : pushable mask t b = none)
    (i : Fin rteHashBucketEntries) :
    Pushing mask (setFlag t (b, i) true) (nextBkt mask t b i) := by
  constructor
  · intro j
    rw [setFlag_apply]
    exact pushable_none none_ i j
  · intro p flagged
    by_cases same : p = (b, i)
    · subst same
      simp only [setFlag_apply]
      exact ⟨pushing.full i, fun j => pushable_none none_ i j⟩
    · rw [setFlag_of_ne same] at flagged ⊢
      simp only [setFlag_apply]
      exact pushing.chain p flagged

/-- Space made deeper down takes the marked entry, which is the surplus copy then. -/
theorem MadeSpace.link {i ret : Fin rteHashBucketEntries} {u : Buckets}
    (pushing : Pushing mask t b) (free : (t (b, i)).flag = false)
    (made : MadeSpace mask sigOf (setFlag t (b, i) true) (nextBkt mask t b i) ret u) :
    MadeSpace mask sigOf t b i
      (pushEntry (setFlag u (b, i) false) (b, i) (nextBkt mask t b i, ret)) := by
  have occupied := pushing.full i
  have ne : (b, i) ≠ (nextBkt mask t b i, ret) := by
    intro same
    have unpushed := made.unpushed
    rw [← same, setFlag_self] at unpushed
    cases unpushed
  -- the marked entry came back as it was
  have here : u (b, i) = { t (b, i) with flag := true } := by
    rw [made.flagged _ (by rw [setFlag_self]), setFlag_self]
  have back : setFlag u (b, i) false (b, i) = t (b, i) := by
    rw [setFlag_self, here, ← free]
  have still : (setFlag u (b, i) false (b, i)).keyIdx ≠ emptySlot := by
    rw [back]
    exact occupied
  have next : nextBkt mask (setFlag u (b, i) false) b i = nextBkt mask t b i := by
    rw [nextBkt, nextBkt, back]
  have flags : ∀ p, (setFlag u (b, i) false p).flag = (t p).flag := by
    intro p
    by_cases same : p = (b, i)
    · rw [same, back]
    · rw [setFlag_of_ne same, made.flags, setFlag_of_ne same]
  have filed : FiledEntries mask sigOf (setFlag u (b, i) false) := made.filed.setFlag _ _
  constructor
  · exact free
  · rw [pushEntry_eq ne, Function.update_of_ne ne, back]
  · intro p flagged
    have notHere : p ≠ (b, i) := by
      rintro rfl
      rw [free] at flagged
      cases flagged
    have marked : (setFlag t (b, i) true p).flag = true := by rwa [setFlag_of_ne notHere]
    have other : p ≠ (nextBkt mask t b i, ret) := by
      rintro rfl
      rw [made.unpushed] at marked
      cases marked
    rw [pushEntry_eq ne, Function.update_of_ne other, setFlag_of_ne notHere,
      made.flagged p marked, setFlag_of_ne notHere]
  · intro p
    rw [pushEntry_eq ne, ← flags p]
    by_cases same : p = (nextBkt mask t b i, ret)
    · subst same
      rw [Function.update_self]
    · rw [Function.update_of_ne same]
  · rw [← next] at ne ⊢
    exact filed.pushEntry still ne
  · rw [cells_pushEntry ne still, back, cells_setFlag]
    have stored : cells u (b, i) = some (t (b, i)).keyIdx := by
      rw [cells_eq_some, here]
      exact ⟨rfl, occupied⟩
    have home : Home mask sigOf (t (b, i)).keyIdx (nextBkt mask t b i, ret) := by
      have fits := filed.home_next still ret
      rwa [back, next] at fits
    have moves := made.moves
    rw [cells_setFlag] at moves
    exact moves.shift stored ne home

/-- `make_space_bucket` makes space, or fails and has changed nothing. -/
theorem makeSpaceBucket_spec (left : Nat) (filed : FiledEntries mask sigOf t)
    (pushing : Pushing mask t b) :
    (∃ i u, makeSpaceBucket mask left t b = (some i, u) ∧ MadeSpace mask sigOf t b i u) ∨
      makeSpaceBucket mask left t b = (none, t) := by
  induction left generalizing t b with
  | zero =>
      rw [makeSpaceBucket]
      split
      · next i j found => exact .inl ⟨i, _, rfl, madeSpace_last filed pushing found⟩
      · split <;> exact .inr rfl
  | succ left ih =>
      rw [makeSpaceBucket]
      split
      · next i j found => exact .inl ⟨i, _, rfl, madeSpace_last filed pushing found⟩
      · next none_ =>
          split
          · exact .inr rfl
          · next i found =>
              have free := unpushed_some found
              obtain ⟨ret, u, made, space⟩ | failed_ :=
                ih (filed.setFlag (b, i) true) (pushing.deeper none_ i)
              · simp only [made]
                exact .inl ⟨i, _, rfl, space.link pushing free⟩
              · simp only [failed_]
                refine .inr (Prod.ext rfl ?_)
                funext p
                by_cases same : p = (b, i)
                · subst same
                  simp only [setFlag_self, ← free]
                · simp only [setFlag_of_ne same]

end MakingSpace

/-! ## The invariant of a table -/

namespace QingHash

variable {K D : Type}

/-- The slots there are: the queue of the free ones holds one less than its size. -/
def capacity (h : QingHash K D) : Nat := min h.entries (h.freeSlots.size - 1)

/-- The signature of the key in a slot. -/
def sigOf (crc : K → HashSig) (h : QingHash K D) (id : Nat) : HashSig := crc (h.keyStore id).key

/-- Some entry names the slot. -/
abbrev InUse (h : QingHash K D) (id : Nat) : Prop := Lib.Cuckoo.Stored (cells h.buckets) id

structure Sound (crc : K → HashSig) (h : QingHash K D) (free : List Nat) : Prop where
  filed : FiledEntries h.bucketBitmask (h.sigOf crc) h.buckets
  once : ∀ p q id, cells h.buckets p = some id → cells h.buckets q = some id → p = q
  keys : ∀ id other, h.InUse id → h.InUse other →
    (h.keyStore id).key = (h.keyStore other).key → id = other
  flags : ∀ p, (h.buckets p).flag = false
  window : h.freeSlots.Window free
  nodup : free.Nodup
  slots : ∀ id, (id ∈ free ∨ h.InUse id) ↔ 1 ≤ id ∧ id ≤ h.capacity
  apart : ∀ id ∈ free, ¬ h.InUse id
  room : h.capacity < h.freeSlots.size

section Invariant

variable {crc : K → HashSig} {h : QingHash K D} {free : List Nat}

theorem Sound.cuckoo (sound : Sound crc h free) :
    Lib.Cuckoo.Sound (Home h.bucketBitmask (h.sigOf crc)) (cells h.buckets) :=
  ⟨fun _ _ stored => sound.filed.home stored, sound.once⟩

theorem Sound.inUse_ne (sound : Sound crc h free) {id : Nat} (inUse : h.InUse id) : 1 ≤ id :=
  ((sound.slots id).mp (.inr inUse)).1

/-- There is room in the queue for a slot that is not in it. -/
theorem Sound.notFull {queue : CircularQueue Nat} {rest : List Nat} {id limit : Nat}
    (window : queue.Window rest) (nodup : rest.Nodup)
    (within : ∀ other ∈ id :: rest, 1 ≤ other ∧ other ≤ limit) (fresh : id ∉ rest)
    (room : limit < queue.size) : queue.cirqFull = false := by
  have subset : (id :: rest) ⊆ List.range' 1 limit := by
    intro other member
    have bounds := within other member
    rw [List.mem_range'_1]
    omega
  have short := (List.nodup_cons.mpr ⟨fresh, nodup⟩).subperm subset |>.length_le
  rw [List.length_cons, List.length_range'] at short
  cases full : queue.cirqFull with
  | false => rfl
  | true =>
      have last := window.full_iff.mp full
      omega

end Invariant

/-! ## Finding a key -/

/-- The tests of the two loops: they let pass the entries of the key, and no empty one. -/
structure Tests (sig : HashSig) (prim sec : RteHashEntry → Bool) : Prop where
  first : ∀ e, e.keyIdx ≠ emptySlot → e.sigCurrent = sig → e.sigAlt = rteHashSecondaryHash sig →
    prim e = true
  second : ∀ e, e.keyIdx ≠ emptySlot → e.sigCurrent = rteHashSecondaryHash sig → e.sigAlt = sig →
    sec e = true
  vacant : ∀ e, e.keyIdx = emptySlot → e.sigCurrent = 0 → e.sigAlt = 0 →
    prim e = false ∧ sec e = false

/-- Zeroed signatures are not the two signatures of a key. -/
theorem zeroed_ne (sig : HashSig) :
    ¬ ((0 : HashSig) = sig ∧ (0 : HashSig) = rteHashSecondaryHash sig) := by
  rintro ⟨rfl, zero⟩
  exact rteHashSecondaryHash_ne 0 zero.symm

theorem addTests (sig : HashSig) :
    Tests sig (fun e => decide (e.sigCurrent = sig ∧ e.sigAlt = rteHashSecondaryHash sig))
      (fun e => decide (e.sigAlt = sig ∧ e.sigCurrent = rteHashSecondaryHash sig)) where
  first e _ current alt := decide_eq_true ⟨current, alt⟩
  second e _ current alt := decide_eq_true ⟨alt, current⟩
  vacant e _ current alt := by
    rw [current, alt]
    exact ⟨decide_eq_false (zeroed_ne sig), decide_eq_false (zeroed_ne sig)⟩

theorem delTests (sig : HashSig) :
    Tests sig (fun e => decide (e.sigCurrent = sig ∧ e.keyIdx ≠ emptySlot))
      (fun e => decide (e.sigCurrent = rteHashSecondaryHash sig ∧ e.keyIdx ≠ emptySlot)) where
  first _ occupied current _ := decide_eq_true ⟨current, occupied⟩
  second _ occupied current _ := decide_eq_true ⟨current, occupied⟩
  vacant _ empty _ _ :=
    ⟨decide_eq_false fun both => both.2 empty, decide_eq_false fun both => both.2 empty⟩

theorem lookupTests (sig : HashSig) :
    Tests sig (fun e => decide (e.sigCurrent = sig ∧ e.keyIdx ≠ emptySlot))
      (fun e => decide (e.sigCurrent = rteHashSecondaryHash sig ∧ e.sigAlt = sig)) where
  first _ occupied current _ := decide_eq_true ⟨current, occupied⟩
  second _ _ current alt := decide_eq_true ⟨current, alt⟩
  vacant e empty current alt := by
    refine ⟨decide_eq_false fun both => both.2 empty, ?_⟩
    rw [current, alt]
    exact decide_eq_false fun both => zeroed_ne sig both.symm

section Finding

variable [DecidableEq K] {crc : K → HashSig} {h : QingHash K D} {free : List Nat} {key : K}
  {prim sec : RteHashEntry → Bool}

theorem findIn_some {b : Nat} {test : RteHashEntry → Bool}
    {p : Nat × Fin rteHashBucketEntries} (found : h.findIn key b test = some p) :
    test (h.buckets p) = true ∧ key = (h.keyStore (h.buckets p).keyIdx).key := by
  obtain ⟨i, at_, rfl⟩ := Option.map_eq_some_iff.mp found
  simpa using List.find?_some at_

theorem findIn_none {b : Nat} {test : RteHashEntry → Bool} (missed : h.findIn key b test = none)
    (i : Fin rteHashBucketEntries) (passes : test (h.buckets (b, i)) = true) :
    key ≠ (h.keyStore (h.buckets (b, i)).keyIdx).key := by
  have absent := List.find?_eq_none.mp (Option.map_eq_none_iff.mp missed) i (List.mem_finRange i)
  simpa [passes] using absent

/-- What the loops find is a slot in use with the key. -/
theorem locate_some (sound : Sound crc h free) (tests : Tests (crc key) prim sec)
    {p : Nat × Fin rteHashBucketEntries}
    (found : h.locate key (crc key) prim sec = some p) :
    cells h.buckets p = some (h.buckets p).keyIdx ∧
      (h.keyStore (h.buckets p).keyIdx).key = key := by
  have passed : (prim (h.buckets p) = true ∨ sec (h.buckets p) = true) ∧
      key = (h.keyStore (h.buckets p).keyIdx).key := by
    rcases Option.or_eq_some_iff.mp found with first | ⟨-, second⟩
    · exact (findIn_some first).imp_left .inl
    · exact (findIn_some second).imp_left .inr
  refine ⟨cells_eq_some.mpr ⟨rfl, fun empty => ?_⟩, passed.2.symm⟩
  have zeroed := sound.filed.vacant p empty
  have none_ := tests.vacant _ empty zeroed.1 zeroed.2
  rcases passed.1 with first | second
  · rw [none_.1] at first
    cases first
  · rw [none_.2] at second
    cases second

/-- A key the loops do not find is in no slot in use. -/
theorem locate_none (sound : Sound crc h free) (tests : Tests (crc key) prim sec)
    (missed : h.locate key (crc key) prim sec = none) {id : Nat} (inUse : h.InUse id) :
    (h.keyStore id).key ≠ key := by
  rintro rfl
  obtain ⟨p, at_⟩ := inUse
  obtain ⟨rfl, occupied⟩ := cells_eq_some.mp at_
  have carries := sound.filed.filed p occupied
  obtain ⟨first, second⟩ := Option.or_eq_none_iff.mp missed
  obtain ⟨here, ⟨current, alt⟩ | ⟨current, alt⟩⟩ := carries
  · rw [current] at here
    have place : (bucketIdx h.bucketBitmask (crc (h.keyStore (h.buckets p).keyIdx).key), p.2) = p :=
      Prod.ext here.symm rfl
    have absent := findIn_none first p.2 (by
      rw [place]
      exact tests.first _ occupied current alt)
    rw [place] at absent
    exact absent rfl
  · rw [current] at here
    have place : (bucketIdx h.bucketBitmask
        (rteHashSecondaryHash (crc (h.keyStore (h.buckets p).keyIdx).key)), p.2) = p :=
      Prod.ext here.symm rfl
    have absent := findIn_none second p.2 (by
      rw [place]
      exact tests.second _ occupied current alt)
    rw [place] at absent
    exact absent rfl

end Finding

end QingHash

/-! ## The directory -/

/-- What a table is for: it gives keys a slot and data, and has slots to give. -/
structure Directory (K D : Type) where
  find : K → Option (Nat × D)
  free : List Nat

/-- What a call may do to a directory, and return.  Whether space can be made for a new key is left
open, the buckets being unknown here. -/
inductive Directory.Step {K D : Type} [DecidableEq K] (dir : Directory K D) :
    HashCall K D → Int × Option D → Directory K D → Prop
  | addFull {key data} (none_ : dir.free = []) : Step dir (.add key data) (-enospc, none) dir
  | addUpdate {key data slot rest id old} (some_ : dir.free = slot :: rest)
      (here : dir.find key = some (id, old)) :
      Step dir (.add key data) (0, none)
        { find := Function.update dir.find key (some (id, data)), free := rest ++ [slot] }
  | addNew {key data slot rest} (some_ : dir.free = slot :: rest) (absent : dir.find key = none) :
      Step dir (.add key data) (0, none)
        { find := Function.update dir.find key (some (slot, data)), free := rest }
  | addNoSpace {key data slot rest} (some_ : dir.free = slot :: rest)
      (absent : dir.find key = none) :
      Step dir (.add key data) (-enospc, none) { dir with free := rest ++ [slot] }
  | delHit {key id data} (here : dir.find key = some (id, data)) :
      Step dir (.del key) (id - 1, none)
        { find := Function.update dir.find key none, free := dir.free ++ [id] }
  | delMiss {key} (absent : dir.find key = none) : Step dir (.del key) (-enoent, none) dir
  | lookupHit {key id data} (here : dir.find key = some (id, data)) :
      Step dir (.lookup key) (id - 1, some data) dir
  | lookupMiss {key} (absent : dir.find key = none) : Step dir (.lookup key) (-enoent, none) dir

namespace QingHash

variable {K D : Type}

/-- The directory a table stands for. -/
structure Mirrors (crc : K → HashSig) (h : QingHash K D) (dir : Directory K D) : Prop where
  sound : Sound crc h dir.free
  find : ∀ key id data,
    dir.find key = some (id, data) ↔ h.InUse id ∧ h.keyStore id = ⟨data, key⟩

section Steps

variable {crc : K → HashSig} {h : QingHash K D} {dir : Directory K D} {free : List Nat}

theorem cirqGet_size {α : Type} (q : CircularQueue α) : q.cirqGet.2.size = q.size := by
  rw [CircularQueue.cirqGet]
  split <;> rfl

theorem cirqAdd_size {α : Type} (q : CircularQueue α) (a : α) : (q.cirqAdd a).2.size = q.size := by
  rw [CircularQueue.cirqAdd]
  split <;> rfl

theorem cells_removeEntry (h : QingHash K D) (p : Nat × Fin rteHashBucketEntries) :
    cells (h.removeEntry p).buckets = Lib.Cuckoo.clear (cells h.buckets) p := by
  funext q
  by_cases same : q = p
  · subst same
    simp [cells, removeEntry]
  · rw [Lib.Cuckoo.clear_of_ne same]
    simp only [cells, removeEntry, Function.update_of_ne same]

theorem cells_fill {slot : Nat} (positive : slot ≠ emptySlot) (h : QingHash K D)
    (p : Nat × Fin rteHashBucketEntries) (sig altHash : HashSig) :
    cells (h.fill p sig altHash slot).buckets = Lib.Cuckoo.put (cells h.buckets) p slot := by
  funext q
  by_cases same : q = p
  · subst same
    simp [cells, fill, positive]
  · rw [Lib.Cuckoo.put_of_ne same]
    simp only [cells, fill, Function.update_of_ne same]

/-- Entries that name no slot whose signature changed stay filed. -/
theorem FiledEntries.congr {mask : HashSig} {sigOf other : Nat → HashSig} {t : Buckets}
    (filed : FiledEntries mask sigOf t)
    (same : ∀ id, Lib.Cuckoo.Stored (cells t) id → other id = sigOf id) :
    FiledEntries mask other t where
  vacant := filed.vacant
  filed p occupied := by
    rw [same _ ⟨p, cells_eq_some.mpr ⟨rfl, occupied⟩⟩]
    exact filed.filed p occupied

/-- The key store may change where the keys in use stay. -/
theorem Sound.rewrite (sound : Sound crc h free) (keyStore : Nat → RteHashKey K D)
    (same : ∀ id, h.InUse id → (keyStore id).key = (h.keyStore id).key) :
    Sound crc { h with keyStore := keyStore } free where
  filed := FiledEntries.congr sound.filed fun id inUse => congrArg crc (same id inUse)
  once := sound.once
  keys id other inUse otherInUse equal :=
    sound.keys id other inUse otherInUse
      ((same id inUse).symm.trans (equal.trans (same other otherInUse)))
  flags := sound.flags
  window := sound.window
  nodup := sound.nodup
  slots := sound.slots
  apart := sound.apart
  room := sound.room

/-- A slot taken from the queue and given back stands at the end of it. -/
theorem Sound.rotate {slot : Nat} {rest : List Nat} (sound : Sound crc h (slot :: rest))
    {r : CircularQueue Nat} (window : r.Window rest) (size : r.size = h.freeSlots.size) :
    Sound crc { h with freeSlots := (r.cirqAdd slot).2 } (rest ++ [slot]) := by
  have fresh := (List.nodup_cons.mp sound.nodup).1
  have nodup := (List.nodup_cons.mp sound.nodup).2
  have notFull : r.cirqFull = false :=
    Sound.notFull window nodup (fun id member => (sound.slots id).mp (.inl member)) fresh
      (size ▸ sound.room)
  have sizes : (r.cirqAdd slot).2.size = h.freeSlots.size := (cirqAdd_size r slot).trans size
  have limit : capacity { h with freeSlots := (r.cirqAdd slot).2 } = h.capacity := by
    rw [capacity, capacity, sizes]
  have members : ∀ id, id ∈ rest ++ [slot] ↔ id ∈ slot :: rest := by
    intro id
    rw [List.mem_append, List.mem_singleton, List.mem_cons, or_comm]
  constructor
  · exact sound.filed
  · exact sound.once
  · exact sound.keys
  · exact sound.flags
  · exact window.cirqAdd notFull slot
  · exact (List.perm_append_singleton slot rest).nodup_iff.mpr sound.nodup
  · intro id
    rw [members, limit]
    exact sound.slots id
  · intro id member
    exact sound.apart id ((members id).mp member)
  · rw [limit, sizes]
    exact sound.room

theorem Mirrors.locate_some [DecidableEq K] (mirrors : Mirrors crc h dir) {key : K}
    {prim sec : RteHashEntry → Bool} (tests : Tests (crc key) prim sec)
    {p : Nat × Fin rteHashBucketEntries} (found : h.locate key (crc key) prim sec = some p) :
    dir.find key =
      some ((h.buckets p).keyIdx, (h.keyStore (h.buckets p).keyIdx).pdata) := by
  obtain ⟨stored, rfl⟩ := QingHash.locate_some mirrors.sound tests found
  exact (mirrors.find _ _ _).mpr ⟨⟨p, stored⟩, rfl⟩

theorem Mirrors.locate_none [DecidableEq K] (mirrors : Mirrors crc h dir) {key : K}
    {prim sec : RteHashEntry → Bool} (tests : Tests (crc key) prim sec)
    (missed : h.locate key (crc key) prim sec = none) : dir.find key = none := by
  apply Option.eq_none_iff_forall_ne_some.mpr
  rintro ⟨id, data⟩ here
  obtain ⟨inUse, stored⟩ := (mirrors.find key id data).mp here
  exact QingHash.locate_none mirrors.sound tests missed inUse (by rw [stored])

/-- Taking the entry out gives its slot back. -/
theorem Mirrors.remove [DecidableEq K] (mirrors : Mirrors crc h dir)
    {p : Nat × Fin rteHashBucketEntries} {id : Nat} (here : cells h.buckets p = some id) :
    Mirrors crc (h.removeEntry p)
      { find := Function.update dir.find (h.keyStore id).key none, free := dir.free ++ [id] } := by
  have sound := mirrors.sound
  obtain ⟨names, occupied⟩ := cells_eq_some.mp here
  have inUse : h.InUse id := ⟨p, here⟩
  have fresh : id ∉ dir.free := fun member => sound.apart id member inUse
  have notFull : h.freeSlots.cirqFull = false := by
    refine Sound.notFull sound.window sound.nodup ?_ fresh sound.room
    intro other member
    rcases List.mem_cons.mp member with rfl | waiting
    · exact (sound.slots other).mp (.inr inUse)
    · exact (sound.slots other).mp (.inl waiting)
  have stored : ∀ other, (h.removeEntry p).InUse other ↔ other ≠ id ∧ h.InUse other := by
    intro other
    rw [InUse, cells_removeEntry]
    exact Lib.Cuckoo.stored_clear sound.once here other
  have sizes : (h.removeEntry p).freeSlots.size = h.freeSlots.size := cirqAdd_size _ _
  have limit : (h.removeEntry p).capacity = h.capacity := by
    rw [capacity, capacity, sizes]
    rfl
  refine ⟨⟨⟨?_, ?_⟩, ?_, ?_, ?_, ?_, ?_, ?_, ?_, ?_⟩, ?_⟩
  · intro q empty
    by_cases same : q = p
    · subst same
      simp [removeEntry]
    · simp only [removeEntry, Function.update_of_ne same] at empty ⊢
      exact sound.filed.vacant q empty
  · intro q full
    by_cases same : q = p
    · subst same
      simp [removeEntry] at full
    · simp only [removeEntry, Function.update_of_ne same] at full ⊢
      exact sound.filed.filed q full
  · rw [cells_removeEntry]
    exact (sound.cuckoo.clear p).once
  · intro one other oneInUse otherInUse equal
    exact sound.keys one other ((stored one).mp oneInUse).2 ((stored other).mp otherInUse).2 equal
  · intro q
    by_cases same : q = p
    · subst same
      simp only [removeEntry, Function.update_self]
      exact sound.flags q
    · simp only [removeEntry, Function.update_of_ne same]
      exact sound.flags q
  · rw [← names]
    exact sound.window.cirqAdd notFull _
  · exact (List.perm_append_singleton id dir.free).nodup_iff.mpr
      (List.nodup_cons.mpr ⟨fresh, sound.nodup⟩)
  · intro other
    rw [limit, ← sound.slots other, List.mem_append, List.mem_singleton, stored]
    by_cases same : other = id
    · subst same
      simp [inUse]
    · simp [same]
  · intro other member
    rw [stored]
    rcases List.mem_append.mp member with waiting | last
    · exact fun both => sound.apart other waiting both.2
    · exact fun both => both.1 (List.mem_singleton.mp last)
  · rw [limit, sizes]
    exact sound.room
  · intro key other data
    dsimp only
    rw [stored]
    by_cases same : key = (h.keyStore id).key
    · rw [same, Function.update_self]
      constructor
      · intro absent
        cases absent
      · rintro ⟨⟨differs, otherInUse⟩, at_⟩
        have sameKey := congrArg RteHashKey.key at_
        exact absurd (sound.keys other id otherInUse inUse sameKey) differs
    · rw [Function.update_of_ne same]
      constructor
      · intro found
        have both := (mirrors.find key other data).mp found
        refine ⟨⟨?_, both.1⟩, both.2⟩
        rintro rfl
        exact same (by rw [both.2])
      · rintro ⟨⟨-, otherInUse⟩, at_⟩
        exact (mirrors.find key other data).mpr ⟨otherInUse, at_⟩

/-- New data under a key that is there. -/
theorem Mirrors.update [DecidableEq K] (mirrors : Mirrors crc h dir) {slot : Nat} {rest : List Nat}
    (some_ : dir.free = slot :: rest) {r : CircularQueue Nat} (window : r.Window rest)
    (size : r.size = h.freeSlots.size) {key : K} {id : Nat} {old data : D}
    (here : dir.find key = some (id, old)) :
    Mirrors crc
      { h with
        freeSlots := (r.cirqAdd slot).2
        keyStore := Function.update h.keyStore id { h.keyStore id with pdata := data } }
      { find := Function.update dir.find key (some (id, data)), free := rest ++ [slot] } := by
  obtain ⟨inUse, at_⟩ := (mirrors.find key id old).mp here
  have sound := mirrors.sound
  rw [some_] at sound
  have keys : ∀ other, (Function.update h.keyStore id { h.keyStore id with pdata := data }
      other).key = (h.keyStore other).key := by
    intro other
    by_cases same : other = id
    · subst same
      rw [Function.update_self]
    · rw [Function.update_of_ne same]
  refine ⟨(sound.rewrite _ fun other _ => keys other).rotate window size, ?_⟩
  intro name other value
  dsimp only
  by_cases same : name = key
  · subst same
    rw [Function.update_self]
    constructor
    · intro found
      cases found
      refine ⟨inUse, ?_⟩
      simp [at_]
    · rintro ⟨otherInUse, holds⟩
      have equal : other = id := by
        refine mirrors.sound.keys other id otherInUse inUse ?_
        rw [← keys other, holds, at_]
      subst equal
      rw [Function.update_self] at holds
      simp only [RteHashKey.mk.injEq] at holds
      rw [holds.1]
  · rw [Function.update_of_ne same, mirrors.find]
    refine and_congr_right fun _ => ?_
    by_cases equal : other = id
    · subst equal
      rw [Function.update_self, at_]
      constructor <;>
      · intro holds
        cases holds
        exact absurd rfl same
    · rw [Function.update_of_ne equal]

/-- A free slot may be written. -/
theorem Sound.written {slot : Nat} (sound : Sound crc h free) (waiting : slot ∈ free)
    (value : RteHashKey K D) :
    Sound crc { h with keyStore := Function.update h.keyStore slot value } free := by
  refine sound.rewrite _ fun id inUse => ?_
  rw [Function.update_of_ne]
  rintro rfl
  exact sound.apart id waiting inUse

/-- What a directory says about a slot in use is not changed by writing one that is free. -/
theorem Mirrors.find_written [DecidableEq K] (mirrors : Mirrors crc h dir) {slot : Nat}
    (waiting : slot ∈ dir.free) (value : RteHashKey K D) (key : K) (id : Nat) (data : D) :
    dir.find key = some (id, data) ↔
      h.InUse id ∧ Function.update h.keyStore slot value id = ⟨data, key⟩ := by
  rw [mirrors.find]
  refine and_congr_right fun inUse => ?_
  rw [Function.update_of_ne]
  rintro rfl
  exact mirrors.sound.apart id waiting inUse

/-- No space could be made: the slot goes back, with the key left in it. -/
theorem Mirrors.giveBack [DecidableEq K] (mirrors : Mirrors crc h dir) {slot : Nat}
    {rest : List Nat} (some_ : dir.free = slot :: rest) {r : CircularQueue Nat}
    (window : r.Window rest) (size : r.size = h.freeSlots.size) (value : RteHashKey K D) :
    Mirrors crc
      { h with
        freeSlots := (r.cirqAdd slot).2
        keyStore := Function.update h.keyStore slot value }
      { dir with free := rest ++ [slot] } := by
  have waiting : slot ∈ dir.free := by
    rw [some_]
    exact List.mem_cons_self
  have sound := mirrors.sound.written waiting value
  rw [some_] at sound
  exact ⟨sound.rotate window size, mirrors.find_written waiting value⟩

/-- A new key is filed at a place that holds no slot, or a surplus copy of one. -/
theorem Mirrors.insert [DecidableEq K] (mirrors : Mirrors crc h dir) {slot : Nat}
    {rest : List Nat} (some_ : dir.free = slot :: rest) {r : CircularQueue Nat}
    (window : r.Window rest) (size : r.size = h.freeSlots.size) {key : K} {data : D}
    (absent : dir.find key = none) {p : Nat × Fin rteHashBucketEntries} {u : Buckets}
    (prim : p.1 = bucketIdx h.bucketBitmask (crc key))
    (flags : ∀ q, (u q).flag = false)
    (filed : FiledEntries h.bucketBitmask
      (sigOf crc { h with keyStore := Function.update h.keyStore slot ⟨data, key⟩ }) u)
    (moves : Lib.Cuckoo.Moves (Home h.bucketBitmask
      (sigOf crc { h with keyStore := Function.update h.keyStore slot ⟨data, key⟩ }))
      (cells h.buckets) (Lib.Cuckoo.clear (cells u) p)) :
    Mirrors crc
      (fill
        { h with
          freeSlots := r
          keyStore := Function.update h.keyStore slot ⟨data, key⟩
          buckets := u } p (crc key) (rteHashSecondaryHash (crc key)) slot)
      { find := Function.update dir.find key (some (slot, data)), free := rest } := by
  have waiting : slot ∈ dir.free := by
    rw [some_]
    exact List.mem_cons_self
  have written := mirrors.sound.written waiting ⟨data, key⟩
  have positive : slot ≠ emptySlot := by
    have bounds := (mirrors.sound.slots slot).mp (.inl waiting)
    exact Nat.ne_of_gt bounds.1
  have unused : ¬ h.InUse slot := mirrors.sound.apart slot waiting
  have sound := mirrors.sound
  rw [some_] at sound
  have cuckoo := moves.sound written.cuckoo
  have stands : ∀ id, Lib.Cuckoo.Stored (Lib.Cuckoo.clear (cells u) p) id ↔ h.InUse id :=
    moves.stored written.cuckoo
  have stored : ∀ id, InUse (fill
        { h with
          freeSlots := r
          keyStore := Function.update h.keyStore slot ⟨data, key⟩
          buckets := u } p (crc key) (rteHashSecondaryHash (crc key)) slot) id ↔
      id = slot ∨ h.InUse id := by
    intro id
    rw [InUse, cells_fill positive, ← Lib.Cuckoo.put_clear,
      Lib.Cuckoo.stored_put (Lib.Cuckoo.clear_self _ _), stands]
  have keyed : ∀ id, h.InUse id →
      Function.update h.keyStore slot ⟨data, key⟩ id = h.keyStore id := by
    intro id inUse
    refine Function.update_of_ne ?_ _ _
    rintro rfl
    exact unused inUse
  have newKey : ∀ id, h.InUse id → (h.keyStore id).key ≠ key := by
    rintro id inUse rfl
    have found := (mirrors.find (h.keyStore id).key id (h.keyStore id).pdata).mpr ⟨inUse, rfl⟩
    rw [absent] at found
    cases found
  refine ⟨⟨⟨?_, ?_⟩, ?_, ?_, ?_, ?_, ?_, ?_, ?_, ?_⟩, ?_⟩
  · intro q empty
    by_cases same : q = p
    · subst same
      simp only [fill, Function.update_self] at empty
      exact absurd empty positive
    · simp only [fill, Function.update_of_ne same] at empty ⊢
      exact filed.vacant q empty
  · intro q full
    by_cases same : q = p
    · subst same
      simp only [fill, Function.update_self, sigOf]
      exact ⟨prim, .inl ⟨rfl, rfl⟩⟩
    · simp only [fill, Function.update_of_ne same] at full ⊢
      exact filed.filed q full
  · rw [cells_fill positive, ← Lib.Cuckoo.put_clear]
    refine (cuckoo.put (Lib.Cuckoo.clear_self _ _) (.inl ?_) ?_).once
    · simp only [prim, sigOf, Function.update_self]
    · rw [stands]
      exact unused
  · intro one other oneInUse otherInUse equal
    simp only [fill] at equal
    rcases (stored one).mp oneInUse with rfl | oneBefore <;>
      rcases (stored other).mp otherInUse with rfl | otherBefore
    · rfl
    · rw [Function.update_self, keyed other otherBefore] at equal
      exact absurd equal.symm (newKey other otherBefore)
    · rw [Function.update_self, keyed one oneBefore] at equal
      exact absurd equal (newKey one oneBefore)
    · rw [keyed one oneBefore, keyed other otherBefore] at equal
      exact sound.keys one other oneBefore otherBefore equal
  · intro q
    by_cases same : q = p
    · subst same
      simp only [fill, Function.update_self]
      exact flags q
    · simp only [fill, Function.update_of_ne same]
      exact flags q
  · exact window
  · exact (List.nodup_cons.mp sound.nodup).2
  · intro id
    have limit := sound.slots id
    rw [List.mem_cons] at limit
    rw [stored]
    simp only [fill, capacity, size] at limit ⊢
    rw [← limit]
    tauto
  · intro id member
    rw [stored]
    rintro (rfl | inUse)
    · exact (List.nodup_cons.mp sound.nodup).1 member
    · exact sound.apart id (List.mem_cons_of_mem slot member) inUse
  · simp only [fill, capacity, size]
    exact sound.room
  · intro name id value
    dsimp only
    rw [stored]
    simp only [fill]
    by_cases same : name = key
    · subst same
      rw [Function.update_self]
      constructor
      · intro found
        cases found
        exact ⟨.inl rfl, Function.update_self _ _ _⟩
      · rintro ⟨rfl | inUse, at_⟩
        · rw [Function.update_self] at at_
          cases at_
          rfl
        · rw [keyed id inUse] at at_
          exact absurd (by rw [at_]) (newKey id inUse)
    · rw [Function.update_of_ne same, mirrors.find_written waiting ⟨data, key⟩]
      constructor
      · exact fun both => ⟨.inr both.1, both.2⟩
      · rintro ⟨rfl | inUse, at_⟩
        · rw [Function.update_self] at at_
          cases at_
          exact absurd rfl same
        · exact ⟨inUse, at_⟩

end Steps

end QingHash

/-! ## Creation -/

namespace QingHash

variable {K D : Type}

theorem le_rteAlign32pow2 (n : Nat) : n ≤ rteAlign32pow2 n := by
  rw [rteAlign32pow2]
  split
  · exact Nat.le_refl n
  · have next := @Nat.lt_log2_self (n - 1)
    omega

/-- The queue takes the slots from 1 on, up to one less than its size. -/
theorem populate_window {size : Nat} (positive : 0 < size) (entries : Nat) :
    (populate entries size).Window (List.range' 1 (min entries (size - 1))) ∧
      (populate entries size).size = size := by
  induction entries with
  | zero =>
      rw [Nat.zero_min]
      exact ⟨CircularQueue.cirqInit_window positive, rfl⟩
  | succ entries ih =>
      obtain ⟨window, sizes⟩ := ih
      rw [populate, List.range_succ, List.foldl_append]
      change ((populate entries size).cirqAdd (entries + 1)).2.Window _ ∧
        ((populate entries size).cirqAdd (entries + 1)).2.size = size
      refine ⟨?_, by rw [cirqAdd_size, sizes]⟩
      have fullIff := window.full_iff
      rw [List.length_range', sizes] at fullIff
      cases full : (populate entries size).cirqFull with
      | true =>
          have last := fullIff.mp full
          rw [CircularQueue.cirqAdd_full full]
          have same : min (entries + 1) (size - 1) = min entries (size - 1) := by omega
          rwa [same]
      | false =>
          have notLast : min entries (size - 1) + 1 ≠ size := by
            intro last
            rw [fullIff.mpr last] at full
            cases full
          have grown : min (entries + 1) (size - 1) = entries + 1 := by omega
          have before : min entries (size - 1) = entries := by omega
          have added := window.cirqAdd full (entries + 1)
          rw [before] at added
          rwa [grown, List.range'_concat, Nat.one_mul, Nat.add_comm 1 entries]

/-- The table just created stands for no key, and all slots are free. -/
theorem create_mirrors (crc : K → HashSig) {blank : RteHashKey K D} {entries : Nat}
    {h : QingHash K D} (created : create blank entries = some h) :
    Mirrors crc h { find := fun _ => none, free := List.range' 1 h.capacity } := by
  rw [create] at created
  split at created
  · cases created
  · next within =>
      cases created
      have enough : 8 ≤ entries := Nat.not_lt.mp (not_or.mp within).2
      have size := Nat.le_trans enough (le_rteAlign32pow2 entries)
      obtain ⟨window, sizes⟩ := populate_window (Nat.lt_of_lt_of_le (by decide) size) entries
      have unused : ∀ id, ¬ Lib.Cuckoo.Stored (cells fun _ => {}) id := by
        rintro id ⟨p, stored⟩
        simp [cells, emptySlot] at stored
      constructor
      · constructor
        · exact ⟨fun _ _ => ⟨rfl, rfl⟩, fun _ occupied => absurd rfl occupied⟩
        · exact fun p _ id stored => absurd ⟨p, stored⟩ (unused id)
        · exact fun id _ inUse => absurd inUse (unused id)
        · exact fun _ => rfl
        · simp only [capacity, sizes]
          exact window
        · exact List.nodup_range'
        · intro id
          rw [List.mem_range'_1, or_iff_left (unused id)]
          omega
        · exact fun id _ => unused id
        · simp only [capacity, sizes]
          omega
      · intro key id data
        constructor
        · intro found
          cases found
        · exact fun both => absurd both.1 (unused id)

/-! ## Every call is a step of the directory -/

section Refinement

variable [DecidableEq K] {crc : K → HashSig} {h : QingHash K D} {dir : Directory K D}

omit [DecidableEq K] in
/-- The next free slot, when there is one. -/
theorem Mirrors.nextSlot (mirrors : Mirrors crc h dir) :
    (dir.free = [] ∧ h.freeSlots.cirqGet = (none, h.freeSlots)) ∨
      ∃ slot rest r, dir.free = slot :: rest ∧ h.freeSlots.cirqGet = (some slot, r) ∧
        r.Window rest ∧ r.size = h.freeSlots.size := by
  have window := mirrors.sound.window
  cases empty : h.freeSlots.cirqEmpty with
  | true =>
      refine .inl ⟨window.empty_iff.mp empty, ?_⟩
      rw [CircularQueue.cirqGet, if_pos empty]
  | false =>
      obtain ⟨slot, rest, free, first, next⟩ := window.cirqGet empty
      exact .inr ⟨slot, rest, h.freeSlots.cirqGet.2, free, Prod.ext first rfl, next,
        cirqGet_size _⟩

/-- The contract of `__qing_hash_add_key_with_hash`: the four things it may come to. -/
theorem Mirrors.addKeyWithHash (mirrors : Mirrors crc h dir) (key : K) (data : D) :
    (dir.free = [] ∧ h.addKeyWithHash key (crc key) data = (-enospc, h)) ∨
    ∃ slot rest, dir.free = slot :: rest ∧
      ((∃ id old u, dir.find key = some (id, old) ∧
        h.addKeyWithHash key (crc key) data = ((id : Int) - 1, u) ∧
        Mirrors crc u
          { find := Function.update dir.find key (some (id, data)), free := rest ++ [slot] }) ∨
      (dir.find key = none ∧ ∃ u,
        (h.addKeyWithHash key (crc key) data = ((slot : Int) - 1, u) ∧
          ¬ (emptyEntry h.buckets (bucketIdx h.bucketBitmask (crc key)) = none ∧
            (makeSpaceBucket h.bucketBitmask rteHashMaxPushes h.buckets
              (bucketIdx h.bucketBitmask (crc key))).1 = none) ∧
          Mirrors crc u
            { find := Function.update dir.find key (some (slot, data)), free := rest }) ∨
        (h.addKeyWithHash key (crc key) data = (-enospc, u) ∧
          emptyEntry h.buckets (bucketIdx h.bucketBitmask (crc key)) = none ∧
          (makeSpaceBucket h.bucketBitmask rteHashMaxPushes h.buckets
            (bucketIdx h.bucketBitmask (crc key))).1 = none ∧
          Mirrors crc u { dir with free := rest ++ [slot] }))) := by
  obtain ⟨none_, got⟩ | ⟨slot, rest, r, free, got, window, size⟩ := mirrors.nextSlot
  · refine .inl ⟨none_, ?_⟩
    rw [QingHash.addKeyWithHash]
    simp only [got]
  refine .inr ⟨slot, rest, free, ?_⟩
  rw [QingHash.addKeyWithHash]
  simp only [got]
  have tests := addTests (crc key)
  generalize found : h.locate key (crc key)
    (fun e => decide (e.sigCurrent = crc key ∧ e.sigAlt = rteHashSecondaryHash (crc key)))
    (fun e => decide (e.sigAlt = crc key ∧ e.sigCurrent = rteHashSecondaryHash (crc key))) = place
  cases place with
  | some p =>
      have here := mirrors.locate_some tests found
      exact .inl ⟨_, _, _, here, rfl, mirrors.update free window size here⟩
  | none =>
      have absent := mirrors.locate_none tests found
      have waiting : slot ∈ dir.free := by
        rw [free]
        exact List.mem_cons_self
      have written := mirrors.sound.written waiting ⟨data, key⟩
      refine .inr ⟨absent, ?_⟩
      generalize room : emptyEntry h.buckets (bucketIdx h.bucketBitmask (crc key)) = entry
      cases entry with
      | some i =>
          have empty := emptyEntry_some room
          refine ⟨_, .inl ⟨rfl, fun both => (by cases both.1), ?_⟩⟩
          refine mirrors.insert free window size absent rfl written.flags written.filed ?_
          have same : Lib.Cuckoo.clear (cells h.buckets)
              (bucketIdx h.bucketBitmask (crc key), i) = cells h.buckets := by
            rw [Lib.Cuckoo.clear, ← cells_eq_none.mpr empty, Function.update_eq_self]
          rw [same]
          exact .refl
      | none =>
          have full := emptyEntry_none.mp room
          have pushing : Pushing h.bucketBitmask h.buckets
              (bucketIdx h.bucketBitmask (crc key)) := by
            refine ⟨full, fun p flagged => ?_⟩
            rw [mirrors.sound.flags p] at flagged
            cases flagged
          obtain ⟨i, u, made, space⟩ | failed_ :=
            makeSpaceBucket_spec rteHashMaxPushes written.filed pushing
          · simp only [made]
            refine ⟨_, .inl ⟨rfl, fun both => (by cases both.2), ?_⟩⟩
            refine mirrors.insert free window size absent rfl ?_ space.filed space.moves
            exact fun q => (space.flags q).trans (mirrors.sound.flags q)
          · simp only [failed_]
            exact ⟨_, .inr ⟨rfl, trivial, trivial, mirrors.giveBack free window size _⟩⟩

theorem Mirrors.delKey (mirrors : Mirrors crc h dir) (key : K) :
    (∃ id data u, dir.find key = some (id, data) ∧ h.delKey crc key = ((id : Int) - 1, u) ∧
      Mirrors crc u { find := Function.update dir.find key none, free := dir.free ++ [id] }) ∨
    (dir.find key = none ∧ h.delKey crc key = (-enoent, h)) := by
  rw [QingHash.delKey, delKeyWithHash]
  have tests := delTests (crc key)
  generalize found : h.locate key (crc key)
    (fun e => decide (e.sigCurrent = crc key ∧ e.keyIdx ≠ emptySlot))
    (fun e => decide (e.sigCurrent = rteHashSecondaryHash (crc key) ∧ e.keyIdx ≠ emptySlot)) =
      place
  cases place with
  | some p =>
      obtain ⟨stored, named⟩ := QingHash.locate_some mirrors.sound tests found
      refine .inl ⟨_, _, _, mirrors.locate_some tests found, rfl, ?_⟩
      have removed := mirrors.remove stored
      rwa [named] at removed
  | none => exact .inr ⟨mirrors.locate_none tests found, rfl⟩

theorem Mirrors.lookupData (mirrors : Mirrors crc h dir) (key : K) :
    (∃ id data, dir.find key = some (id, data) ∧
      h.lookupData crc key = ((id : Int) - 1, some data)) ∨
    (dir.find key = none ∧ h.lookupData crc key = (-enoent, none)) := by
  rw [QingHash.lookupData, lookupWithHash]
  have tests := lookupTests (crc key)
  generalize found : h.locate key (crc key)
    (fun e => decide (e.sigCurrent = crc key ∧ e.keyIdx ≠ emptySlot))
    (fun e => decide (e.sigCurrent = rteHashSecondaryHash (crc key) ∧ e.sigAlt = crc key)) = place
  cases place with
  | some p => exact .inl ⟨_, _, mirrors.locate_some tests found, rfl⟩
  | none => exact .inr ⟨mirrors.locate_none tests found, rfl⟩

omit [DecidableEq K] in
/-- Positions are not negative, the first slot being a dummy. -/
theorem Mirrors.position (mirrors : Mirrors crc h dir) {key : K} {id : Nat} {data : D}
    (here : dir.find key = some (id, data)) : (0 : Int) ≤ (id : Int) - 1 := by
  have inUse := ((mirrors.find key id data).mp here).1
  have bound := mirrors.sound.inUse_ne inUse
  omega

theorem step_mirrors (mirrors : Mirrors crc h dir) (c : HashCall K D) :
    ∃ next, dir.Step c (h.call crc c).1 next ∧ Mirrors crc (h.step crc c) next := by
  cases c with
  | add key data =>
      rw [step, call]
      simp only [addKeyData]
      obtain ⟨none_, added⟩ | ⟨slot, rest, free, ⟨id, old, u, here, added, next⟩ |
        ⟨absent, u, ⟨added, -, next⟩ | ⟨added, -, -, next⟩⟩⟩ :=
          mirrors.addKeyWithHash key data
      · rw [added]
        exact ⟨dir, .addFull none_, mirrors⟩
      · rw [added, if_pos (mirrors.position here)]
        exact ⟨_, .addUpdate free here, next⟩
      · have there : Function.update dir.find key (some (slot, data)) key = some (slot, data) :=
          Function.update_self _ _ _
        rw [added, if_pos (next.position there)]
        exact ⟨_, .addNew free absent, next⟩
      · rw [added]
        exact ⟨_, .addNoSpace free absent, next⟩
  | del key =>
      rw [step, call]
      obtain ⟨id, data, u, here, deleted, next⟩ | ⟨absent, deleted⟩ := mirrors.delKey key
      · rw [deleted]
        exact ⟨_, .delHit here, next⟩
      · rw [deleted]
        exact ⟨dir, .delMiss absent, mirrors⟩
  | lookup key =>
      rw [step, call]
      obtain ⟨id, data, here, found⟩ | ⟨absent, found⟩ := mirrors.lookupData key
      · rw [found]
        exact ⟨dir, .lookupHit here, mirrors⟩
      · rw [found]
        exact ⟨dir, .lookupMiss absent, mirrors⟩

end Refinement

end QingHash

end QStack
