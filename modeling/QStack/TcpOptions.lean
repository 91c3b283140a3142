/-
# QStack.TcpOptions -- the option walk of ParseTCPOptions, byte by byte

`ParseTCPOptions` walks the option bytes of a header with one offset.  Each round reads the kind,
for most kinds a length byte, makes one bounds check in mixed signed and unsigned arithmetic, and
then reads a fixed number of bytes of its own: `parseRound` is one round with the offsets it reads,
the fields it leaves in the stream and the offset it goes on at.

A known kind moves on by its own width whatever its length byte says, and an unknown kind by its
length byte, which may be 0.  So the walk comes to an end if and only if it meets no unknown option
of length 0 (`options_terminate`), and it keeps inside the header and to the labels of the options
if and only if each option that it meets has its length byte inside the header and, when it fits,
the length of its kind (`options_sound`).  `parseTcpOptions_eq` ties the walk to the function the
model of the stack uses.
-/
import QStack.TcpIn

namespace QStack

set_option autoImplicit false

namespace Options

/-! ## One round of the loop -/

/-- The fields of a stream that an option can set. -/
structure Fields where
  mss : UInt16 := 0
  effMss : UInt16 := 0
  wscalePeer : UInt8 := 0
  sackPermit : Bool := false
  sawTimestamp : Bool := false
  tsRecent : UInt32 := 0
  tsLastTsUpd : UInt32 := 0
deriving DecidableEq, Repr

abbrev optEnd : UInt8 := 0
abbrev optNop : UInt8 := 1
abbrev optMss : UInt8 := 2
abbrev optWscale : UInt8 := 3
abbrev optSackPermit : UInt8 := 4
abbrev optTimestamp : UInt8 := 8

/-- The conversion of an `int` operand to `unsigned int`. -/
def unsigned (x : Int) : Nat := (x % 2 ^ 32).toNat

/-- What a round reads, leaves in the stream, and where the loop goes on: `none` is `break`. -/
structure Round where
  reads : List Nat
  fields : Fields
  next : Option Nat

def mssAt (tcpopt : Nat → UInt8) (i : Nat) : UInt16 :=
  ((tcpopt i).toUInt16 <<< 8) + (tcpopt (i + 1)).toUInt16

/-- `ntohl` of the four bytes at `i` -/
def ntohlAt (tcpopt : Nat → UInt8) (i : Nat) : UInt32 :=
  ((tcpopt i).toUInt32 <<< 24) ||| ((tcpopt (i + 1)).toUInt32 <<< 16) |||
    ((tcpopt (i + 2)).toUInt32 <<< 8) ||| (tcpopt (i + 3)).toUInt32

/-- The body of the loop, entered with offset `i`.  After the two reads the code holds `i + 2`, and
its check and its last branch compute `i + 2 + optlen - 2` without a sign. -/
def parseRound (curTs : UInt32) (tcpopt : Nat → UInt8) (len : Int32) (i : Nat) (s : Fields) :
    Round :=
  let opt := tcpopt i
  if opt = optEnd then ⟨[i], s, none⟩
  else if opt = optNop then ⟨[i], s, some (i + 1)⟩
  else
    let optlen := tcpopt (i + 1)
    let past := unsigned ((i : Int) + 2 + optlen.toNat - 2)
    if unsigned len.toInt < past then ⟨[i, i + 1], s, none⟩
    else if opt = optMss then
      let mss := mssAt tcpopt (i + 2)
      ⟨[i, i + 1, i + 2, i + 3], { s with mss := mss, effMss := mss }, some (i + 4)⟩
    else if opt = optWscale then
      ⟨[i, i + 1, i + 2], { s with wscalePeer := tcpopt (i + 2) }, some (i + 3)⟩
    else if opt = optSackPermit then
      ⟨[i, i + 1], { s with sackPermit := true }, some (i + 2)⟩
    else if opt = optTimestamp then
      ⟨[i, i + 1, i + 2, i + 3, i + 4, i + 5],
        { s with
          sawTimestamp := true
          tsRecent := ntohlAt tcpopt (i + 2)
          tsLastTsUpd := curTs },
        some (i + 10)⟩
    else ⟨[i, i + 1], s, some past⟩

/-- `ParseTCPOptions` from offset `i` on, for a number of rounds: none when they do not suffice. -/
def parseTCPOptions (curTs : UInt32) (tcpopt : Nat → UInt8) (len : Int32) :
    Nat → Nat → Fields → Option Fields
  | 0, _, _ => none
  | rounds + 1, i, s =>
      if len.toInt ≤ (i : Int) then some s
      else
        let round := parseRound curTs tcpopt len i s
        match round.next with
        | none => some round.fields
        | some j => parseTCPOptions curTs tcpopt len rounds j round.fields

/-- The loop is left after finitely many rounds. -/
def Finishes (curTs : UInt32) (tcpopt : Nat → UInt8) (len : Int32) (s : Fields) : Prop :=
  ∃ rounds, (parseTCPOptions curTs tcpopt len rounds 0 s).isSome = true

/-- A round of the walk over `tcpopt` begins at offset `i` with the fields `s`. -/
inductive Iterates (curTs : UInt32) (tcpopt : Nat → UInt8) (len : Int32) (s₀ : Fields) :
    Nat → Fields → Prop
  | first (inside : 0 < len.toInt) : Iterates curTs tcpopt len s₀ 0 s₀
  | next {i j : Nat} {s : Fields} (before : Iterates curTs tcpopt len s₀ i s)
      (goesOn : (parseRound curTs tcpopt len i s).next = some j) (inside : (j : Int) < len.toInt) :
      Iterates curTs tcpopt len s₀ j (parseRound curTs tcpopt len i s).fields

/-! ## Where options begin -/

/-- How far an option takes the walk. -/
def width (kind optlen : UInt8) : Nat :=
  if kind = optMss then 4
  else if kind = optWscale then 3
  else if kind = optSackPermit then 2
  else if kind = optTimestamp then 10
  else optlen.toNat

/-- An option with a length byte. -/
def Sized (kind : UInt8) : Prop := kind ≠ optEnd ∧ kind ≠ optNop

/-- A kind `ParseTCPOptions` does not know. -/
def Unknown (kind : UInt8) : Prop :=
  Sized kind ∧ kind ≠ optMss ∧ kind ≠ optWscale ∧ kind ≠ optSackPermit ∧ kind ≠ optTimestamp

/-- The length byte is the one of the kind. -/
def Labelled (kind optlen : UInt8) : Prop :=
  (kind = optMss → optlen = 4) ∧ (kind = optWscale → optlen = 3) ∧
    (kind = optSackPermit → optlen = 2) ∧ (kind = optTimestamp → optlen = 10)

instance (kind : UInt8) : Decidable (Sized kind) := inferInstanceAs (Decidable (_ ∧ _))
instance (kind : UInt8) : Decidable (Unknown kind) := inferInstanceAs (Decidable (_ ∧ _))
instance (kind optlen : UInt8) : Decidable (Labelled kind optlen) :=
  inferInstanceAs (Decidable (_ ∧ _))

/-- The option at `i` ends inside the header, by its length byte. -/
def Fits (tcpopt : Nat → UInt8) (len : Int32) (i : Nat) : Prop :=
  (i : Int) + (tcpopt (i + 1)).toNat ≤ len.toInt

/-- The offsets inside the header at which an option begins, told from the bytes. -/
inductive BeginsAt (tcpopt : Nat → UInt8) (len : Int32) : Nat → Prop
  | first (inside : 0 < len.toInt) : BeginsAt tcpopt len 0
  | afterNop {i : Nat} (before : BeginsAt tcpopt len i) (nop : tcpopt i = optNop)
      (inside : (i : Int) + 1 < len.toInt) : BeginsAt tcpopt len (i + 1)
  | afterOption {i : Nat} (before : BeginsAt tcpopt len i) (sized : Sized (tcpopt i))
      (fits : Fits tcpopt len i)
      (inside : (i : Int) + width (tcpopt i) (tcpopt (i + 1)) < len.toInt) :
      BeginsAt tcpopt len (i + width (tcpopt i) (tcpopt (i + 1)))

theorem BeginsAt.inside {tcpopt : Nat → UInt8} {len : Int32} {i : Nat}
    (begins : BeginsAt tcpopt len i) : (i : Int) < len.toInt := by
  cases begins with
  | first inside => exact inside
  | afterNop _ _ inside => exact_mod_cast inside
  | afterOption _ _ _ inside => exact_mod_cast inside

/-! ## What a round does -/

section Round

variable {curTs : UInt32} {tcpopt : Nat → UInt8} {len : Int32} {i : Nat} {s : Fields}

theorem unsigned_len (inside : (i : Int) < len.toInt) : unsigned len.toInt = len.toInt.toNat := by
  have small := len.toInt_lt
  unfold unsigned
  omega

theorem unsigned_past (inside : (i : Int) < len.toInt) (optlen : UInt8) :
    unsigned ((i : Int) + 2 + optlen.toNat - 2) = i + optlen.toNat := by
  have small := len.toInt_lt
  have byte := optlen.toNat_lt
  unfold unsigned
  omega

/-- The check of the loop says what it is meant to say: both sides are small. -/
theorem check_iff (inside : (i : Int) < len.toInt) :
    unsigned len.toInt < unsigned ((i : Int) + 2 + (tcpopt (i + 1)).toNat - 2) ↔
      ¬ Fits tcpopt len i := by
  rw [unsigned_len inside, unsigned_past inside, Fits]
  omega

theorem parseRound_end (kind : tcpopt i = optEnd) :
    parseRound curTs tcpopt len i s = ⟨[i], s, none⟩ := by
  simp [parseRound, kind]

theorem parseRound_nop (kind : tcpopt i = optNop) :
    parseRound curTs tcpopt len i s = ⟨[i], s, some (i + 1)⟩ := by
  unfold parseRound
  dsimp only
  rw [if_neg (by rw [kind]; decide), if_pos kind]

theorem parseRound_past (inside : (i : Int) < len.toInt) (sized : Sized (tcpopt i))
    (past : ¬ Fits tcpopt len i) :
    parseRound curTs tcpopt len i s = ⟨[i, i + 1], s, none⟩ := by
  unfold parseRound
  dsimp only
  rw [if_neg sized.1, if_neg sized.2, if_pos ((check_iff inside).mpr past)]

/-- A fitting option takes the walk on by its width. -/
theorem parseRound_next (inside : (i : Int) < len.toInt) (sized : Sized (tcpopt i))
    (fits : Fits tcpopt len i) :
    (parseRound curTs tcpopt len i s).next =
      some (i + width (tcpopt i) (tcpopt (i + 1))) := by
  have checked : ¬ unsigned len.toInt < unsigned ((i : Int) + 2 + (tcpopt (i + 1)).toNat - 2) :=
    fun past => (check_iff inside).mp past fits
  unfold parseRound width
  dsimp only
  rw [if_neg sized.1, if_neg sized.2, if_neg checked, unsigned_past inside]
  split_ifs <;> rfl

theorem parseRound_unknown (inside : (i : Int) < len.toInt) (unknown : Unknown (tcpopt i))
    (fits : Fits tcpopt len i) :
    parseRound curTs tcpopt len i s =
      ⟨[i, i + 1], s, some (i + (tcpopt (i + 1)).toNat)⟩ := by
  have checked : ¬ unsigned len.toInt < unsigned ((i : Int) + 2 + (tcpopt (i + 1)).toNat - 2) :=
    fun past => (check_iff inside).mp past fits
  obtain ⟨sized, mss, wscale, sack, timestamp⟩ := unknown
  unfold parseRound
  dsimp only
  rw [if_neg sized.1, if_neg sized.2, if_neg checked, if_neg mss, if_neg wscale, if_neg sack,
    if_neg timestamp, unsigned_past inside]

theorem width_unknown {kind : UInt8} (unknown : Unknown kind) (optlen : UInt8) :
    width kind optlen = optlen.toNat := by
  obtain ⟨-, mss, wscale, sack, timestamp⟩ := unknown
  simp [width, mss, wscale, sack, timestamp]

/-- Only an unknown kind can have no width. -/
theorem width_pos {kind optlen : UInt8} (sized : Sized kind)
    (some : Unknown kind → optlen ≠ 0) : 0 < width kind optlen := by
  by_cases unknown : Unknown kind
  · rw [width_unknown unknown, Nat.pos_iff_ne_zero]
    intro zero
    exact some unknown (UInt8.toNat_inj.mp zero)
  · unfold width
    split_ifs with mss wscale sack timestamp <;> try omega
    exact absurd ⟨sized, mss, wscale, sack, timestamp⟩ unknown

/-- Where a round can lead. -/
theorem next_cases {j : Nat} (inside : (i : Int) < len.toInt)
    (goesOn : (parseRound curTs tcpopt len i s).next = some j) :
    (tcpopt i = optNop ∧ j = i + 1) ∨
      (Sized (tcpopt i) ∧ Fits tcpopt len i ∧ j = i + width (tcpopt i) (tcpopt (i + 1))) := by
  by_cases ends : tcpopt i = optEnd
  · rw [parseRound_end ends] at goesOn
    cases goesOn
  by_cases nop : tcpopt i = optNop
  · rw [parseRound_nop nop] at goesOn
    exact .inl ⟨nop, (Option.some.inj goesOn).symm⟩
  by_cases fits : Fits tcpopt len i
  · rw [parseRound_next inside ⟨ends, nop⟩ fits] at goesOn
    exact .inr ⟨⟨ends, nop⟩, fits, (Option.some.inj goesOn).symm⟩
  · rw [parseRound_past inside ⟨ends, nop⟩ fits] at goesOn
    cases goesOn

end Round

/-! ## The walk and the bytes -/

section Walk

variable {curTs : UInt32} {tcpopt : Nat → UInt8} {len : Int32} {s₀ : Fields}

theorem Iterates.inside {i : Nat} {s : Fields} (iterates : Iterates curTs tcpopt len s₀ i s) :
    (i : Int) < len.toInt := by
  cases iterates with
  | first inside => exact inside
  | next _ _ inside => exact inside

/-- The rounds begin where options begin. -/
theorem Iterates.beginsAt {i : Nat} {s : Fields} (iterates : Iterates curTs tcpopt len s₀ i s) :
    BeginsAt tcpopt len i := by
  induction iterates with
  | first inside => exact .first inside
  | next before goesOn inside ih =>
      rcases next_cases before.inside goesOn with ⟨nop, rfl⟩ | ⟨sized, fits, rfl⟩
      · exact .afterNop ih nop (by exact_mod_cast inside)
      · exact .afterOption ih sized fits (by exact_mod_cast inside)

theorem BeginsAt.iterates {i : Nat} (begins : BeginsAt tcpopt len i) :
    ∃ s, Iterates curTs tcpopt len s₀ i s := by
  induction begins with
  | first inside => exact ⟨s₀, .first inside⟩
  | @afterNop i before nop inside ih =>
      obtain ⟨s, iterates⟩ := ih
      have goesOn : (parseRound curTs tcpopt len i s).next = some (i + 1) := by
        rw [parseRound_nop nop]
      exact ⟨_, .next iterates goesOn (by exact_mod_cast inside)⟩
  | afterOption before sized fits inside ih =>
      obtain ⟨s, iterates⟩ := ih
      exact ⟨_, .next iterates (parseRound_next iterates.inside sized fits)
        (by exact_mod_cast inside)⟩

end Walk

/-! ## The end of the walk -/

section Termination

variable (curTs : UInt32) (tcpopt : Nat → UInt8) (len : Int32) (s₀ : Fields)

/-- Every round moves the offset on or leaves the loop. -/
def Advances : Prop :=
  ∀ i s, Iterates curTs tcpopt len s₀ i s →
    ∀ j, (parseRound curTs tcpopt len i s).next = some j → i < j

/-- No option of a kind that is not known has length 0. -/
def NoEmptyUnknown : Prop :=
  ∀ i, BeginsAt tcpopt len i → Unknown (tcpopt i) → tcpopt (i + 1) ≠ 0

variable {curTs tcpopt len s₀}

theorem advances_of_noEmptyUnknown (some : NoEmptyUnknown tcpopt len) :
    Advances curTs tcpopt len s₀ := by
  intro i s iterates j goesOn
  rcases next_cases iterates.inside goesOn with ⟨-, rfl⟩ | ⟨sized, -, rfl⟩
  · exact Nat.lt_succ_self i
  · exact Nat.lt_add_of_pos_right (width_pos sized (some i iterates.beginsAt))

theorem noEmptyUnknown_of_advances (advances : Advances curTs tcpopt len s₀) :
    NoEmptyUnknown tcpopt len := by
  intro i begins unknown zero
  obtain ⟨s, iterates⟩ : ∃ s, Iterates curTs tcpopt len s₀ i s := begins.iterates
  have fits : Fits tcpopt len i := by
    rw [Fits, zero]
    exact le_of_lt (by simpa using iterates.inside)
  have moved := advances i s iterates (i + (tcpopt (i + 1)).toNat)
    (by rw [parseRound_unknown iterates.inside unknown fits])
  simp [zero] at moved

/-- The distance to the end of the header bounds the rounds. -/
theorem parse_isSome (advances : Advances curTs tcpopt len s₀) :
    ∀ (rounds i : Nat) (s : Fields), len.toInt < i + (rounds : Int) →
      (len.toInt ≤ i ∨ Iterates curTs tcpopt len s₀ i s) →
      (parseTCPOptions curTs tcpopt len (rounds + 1) i s).isSome = true
  | rounds, i, s, near, reached => by
      rw [parseTCPOptions]
      dsimp only
      split
      · rfl
      rename_i inside
      have iterates := reached.resolve_left inside
      generalize goesOn : (parseRound curTs tcpopt len i s).next = next
      cases next with
      | none => rfl
      | some j =>
          have moved := advances i s iterates j goesOn
          cases rounds with
          | zero => omega
          | succ rounds =>
              refine parse_isSome advances rounds j _ (by omega) ?_
              by_cases beyond : len.toInt ≤ j
              · exact .inl beyond
              · exact .inr (.next iterates goesOn (by omega))

theorem finishes_of_advances (advances : Advances curTs tcpopt len s₀) :
    Finishes curTs tcpopt len s₀ := by
  refine ⟨len.toInt.toNat + 1 + 1, parse_isSome advances _ 0 s₀ (by omega) ?_⟩
  by_cases empty : len.toInt ≤ 0
  · exact .inl (by exact_mod_cast empty)
  · exact .inr (.first (by omega))

end Termination

/-- **The walk comes to an end** and every round advances, exactly when no option of an unknown
kind has the length byte 0. -/
theorem options_terminate (curTs : UInt32) (tcpopt : Nat → UInt8) (len : Int32) (s : Fields) :
    (Finishes curTs tcpopt len s ∧ Advances curTs tcpopt len s) ↔ NoEmptyUnknown tcpopt len := by
  constructor
  · rintro ⟨-, advances⟩
    exact noEmptyUnknown_of_advances advances
  · intro some
    have advances : Advances curTs tcpopt len s := advances_of_noEmptyUnknown some
    exact ⟨finishes_of_advances advances, advances⟩

/-- Once it is at an unknown option of length 0, the loop stays there. -/
theorem parse_stuck {curTs : UInt32} {tcpopt : Nat → UInt8} {len : Int32} {i : Nat}
    (inside : (i : Int) < len.toInt) (unknown : Unknown (tcpopt i)) (zero : tcpopt (i + 1) = 0)
    (s : Fields) : ∀ rounds, parseTCPOptions curTs tcpopt len rounds i s = none
  | 0 => rfl
  | rounds + 1 => by
      have fits : Fits tcpopt len i := by
        rw [Fits, zero]
        exact le_of_lt (by simpa using inside)
      have stays : parseRound curTs tcpopt len i s = ⟨[i, i + 1], s, some i⟩ := by
        rw [parseRound_unknown inside unknown fits, zero]
        rfl
      rw [parseTCPOptions, if_neg (by omega), stays]
      exact parse_stuck inside unknown zero s rounds

/-- A header with `doff` 6 whose four option bytes are 254, 0, 0, 0. -/
def emptyOption : Nat → UInt8 := fun i => if i = 0 then 254 else 0

theorem emptyOption_hangs (curTs : UInt32) (s : Fields) : ¬ Finishes curTs emptyOption 4 s := by
  rintro ⟨rounds, some⟩
  rw [parse_stuck (by decide) (by decide) (by decide)] at some
  cases some

/-- One packet with an unknown option of length 0 keeps the stack thread in the loop. -/
theorem empty_option_hangs :
    ¬ (Finishes 0 emptyOption 4 {} ∧ Advances 0 emptyOption 4 {}) :=
  fun terminates => emptyOption_hangs 0 {} terminates.1

/-! ## The bounds and the labels -/

section Bounds

variable (curTs : UInt32) (tcpopt : Nat → UInt8) (len : Int32)

/-- The length byte of the option at `i` is inside the header and well formed: it covers the two
bytes of every option, is the length of a known kind, and ends inside the header. -/
structure WellFormed (i : Nat) : Prop where
  sized : Sized (tcpopt i)
  inside : (i : Int) + 1 < len.toInt
  covers : 2 ≤ (tcpopt (i + 1)).toNat
  labelled : Labelled (tcpopt i) (tcpopt (i + 1))
  fits : Fits tcpopt len i

/-- What a round that begins at `i` may do. -/
structure Lawful (i : Nat) : Prop where
  reads : ∀ s, ∀ o ∈ (parseRound curTs tcpopt len i s).reads, (o : Int) < len.toInt
  advance : WellFormed tcpopt len i → ∀ s,
    (parseRound curTs tcpopt len i s).next = some (i + (tcpopt (i + 1)).toNat)
  inert : Sized (tcpopt i) →
    ¬ Labelled (tcpopt i) (tcpopt (i + 1)) ∨ ¬ Fits tcpopt len i →
      ∀ s, (parseRound curTs tcpopt len i s).fields = s

/-- Each option has its length byte inside the header and, if it ends there by it, the length of
its kind. -/
def Regular : Prop :=
  ∀ i, BeginsAt tcpopt len i → Sized (tcpopt i) →
    (i : Int) + 1 < len.toInt ∧ (Fits tcpopt len i → Labelled (tcpopt i) (tcpopt (i + 1)))

variable {curTs tcpopt len}

theorem width_labelled {kind optlen : UInt8} (labelled : Labelled kind optlen) :
    width kind optlen = optlen.toNat := by
  obtain ⟨mss, wscale, sack, timestamp⟩ := labelled
  unfold width
  split_ifs with isMss isWscale isSack isTimestamp
  · rw [mss isMss]; rfl
  · rw [wscale isWscale]; rfl
  · rw [sack isSack]; rfl
  · rw [timestamp isTimestamp]; rfl
  · rfl

theorem Lawful.of_end {i : Nat} (inside : (i : Int) < len.toInt) (ends : tcpopt i = optEnd) :
    Lawful curTs tcpopt len i where
  reads := by
    intro s o read
    rw [parseRound_end ends] at read
    rw [List.mem_singleton.mp read]
    exact inside
  advance := fun formed => absurd ends formed.sized.1
  inert := fun sized => absurd ends sized.1

theorem Lawful.of_nop {i : Nat} (inside : (i : Int) < len.toInt) (nop : tcpopt i = optNop) :
    Lawful curTs tcpopt len i where
  reads := by
    intro s o read
    rw [parseRound_nop nop] at read
    rw [List.mem_singleton.mp read]
    exact inside
  advance := fun formed => absurd nop formed.sized.2
  inert := fun sized => absurd nop sized.2

theorem Lawful.of_past {i : Nat} (inside : (i : Int) + 1 < len.toInt) (sized : Sized (tcpopt i))
    (past : ¬ Fits tcpopt len i) : Lawful curTs tcpopt len i where
  reads := by
    intro s o read
    rw [parseRound_past (by omega) sized past] at read
    simp only [List.mem_cons, List.not_mem_nil, or_false] at read
    omega
  advance := fun formed => absurd formed.fits past
  inert := by
    intro _ _ s
    rw [parseRound_past (by omega) sized past]

/-- The bytes a fitting option reads lie within its width, or are its first two. -/
theorem reads_within {i : Nat} {s : Fields} (inside : (i : Int) < len.toInt)
    (sized : Sized (tcpopt i)) (fits : Fits tcpopt len i) :
    ∀ o ∈ (parseRound curTs tcpopt len i s).reads,
      o ≤ i + 1 ∨ o < i + width (tcpopt i) (tcpopt (i + 1)) := by
  have checked : ¬ unsigned len.toInt < unsigned ((i : Int) + 2 + (tcpopt (i + 1)).toNat - 2) :=
    fun past => (check_iff inside).mp past fits
  unfold parseRound width
  dsimp only
  rw [if_neg sized.1, if_neg sized.2, if_neg checked]
  split_ifs <;> simp only [List.mem_cons, List.not_mem_nil, or_false] <;> omega

theorem Lawful.of_labelled {i : Nat} (inside : (i : Int) + 1 < len.toInt)
    (sized : Sized (tcpopt i)) (fits : Fits tcpopt len i)
    (labelled : Labelled (tcpopt i) (tcpopt (i + 1))) : Lawful curTs tcpopt len i where
  reads := by
    intro s o read
    have within := reads_within (by omega) sized fits o read
    rw [width_labelled labelled] at within
    rw [Fits] at fits
    omega
  advance := by
    intro _ s
    rw [parseRound_next (by omega) sized fits, width_labelled labelled]
  inert := fun _ wrong => absurd wrong (not_or.mpr ⟨not_not.mpr labelled, not_not.mpr fits⟩)

/-- A stream in which every field differs from what the option at `i` would write. -/
def contrary (tcpopt : Nat → UInt8) (i : Nat) : Fields :=
  { mss := mssAt tcpopt (i + 2) + 1, wscalePeer := tcpopt (i + 2) + 1 }

/-- A known option that ends inside the header writes its field, whatever its length byte is. -/
theorem unknown_of_inert {i : Nat} (inside : (i : Int) < len.toInt) (sized : Sized (tcpopt i))
    (fits : Fits tcpopt len i) (inert : ∀ s, (parseRound curTs tcpopt len i s).fields = s) :
    Unknown (tcpopt i) := by
  have checked : ¬ unsigned len.toInt < unsigned ((i : Int) + 2 + (tcpopt (i + 1)).toNat - 2) :=
    fun past => (check_iff inside).mp past fits
  have same := inert (contrary tcpopt i)
  unfold parseRound contrary at same
  dsimp only at same
  rw [if_neg sized.1, if_neg sized.2, if_neg checked] at same
  split_ifs at same with mss wscale sack timestamp
  · simp at same
  · simp at same
  · simp at same
  · simp at same
  · exact ⟨sized, mss, wscale, sack, timestamp⟩

theorem labelled_unknown {kind : UInt8} (unknown : Unknown kind) (optlen : UInt8) :
    Labelled kind optlen :=
  ⟨fun mss => absurd mss unknown.2.1, fun wscale => absurd wscale unknown.2.2.1,
    fun sack => absurd sack unknown.2.2.2.1, fun stamp => absurd stamp unknown.2.2.2.2⟩

theorem lawful_of_regular (regular : Regular tcpopt len) {i : Nat}
    (begins : BeginsAt tcpopt len i) : Lawful curTs tcpopt len i := by
  by_cases ends : tcpopt i = optEnd
  · exact .of_end begins.inside ends
  by_cases nop : tcpopt i = optNop
  · exact .of_nop begins.inside nop
  obtain ⟨lengthInside, labels⟩ := regular i begins ⟨ends, nop⟩
  by_cases fits : Fits tcpopt len i
  · exact .of_labelled lengthInside ⟨ends, nop⟩ fits (labels fits)
  · exact .of_past lengthInside ⟨ends, nop⟩ fits

theorem length_read {i : Nat} {s : Fields} (sized : Sized (tcpopt i)) :
    i + 1 ∈ (parseRound curTs tcpopt len i s).reads := by
  unfold parseRound
  dsimp only
  rw [if_neg sized.1, if_neg sized.2]
  split_ifs <;> simp

theorem regular_of_lawful
    (lawful : ∀ i, BeginsAt tcpopt len i → Lawful curTs tcpopt len i) : Regular tcpopt len := by
  intro i begins sized
  have law := lawful i begins
  constructor
  · exact_mod_cast law.reads {} (i + 1) (length_read sized)
  · intro fits
    by_contra wrong
    have unknown := unknown_of_inert begins.inside sized fits (law.inert sized (.inl wrong))
    exact wrong (labelled_unknown unknown _)

end Bounds

/-- **The bounds of the walk.**  `ParseTCPOptions` reads inside the header, moves on by well-formed
lengths and ignores mislabelled options, exactly when each option has its length byte inside the
header and, if it ends there by it, the length of its kind. -/
theorem options_sound (curTs : UInt32) (tcpopt : Nat → UInt8) (len : Int32) (s₀ : Fields) :
    (∀ i s, Iterates curTs tcpopt len s₀ i s → Lawful curTs tcpopt len i) ↔
      Regular tcpopt len := by
  constructor
  · intro lawful
    apply regular_of_lawful
    intro i begins
    obtain ⟨s, iterates⟩ : ∃ s, Iterates curTs tcpopt len s₀ i s := begins.iterates
    exact lawful i s iterates
  · intro regular i s iterates
    exact lawful_of_regular regular iterates.beginsAt

/-- The bytes 2, 3, 5, 180: an MSS option whose length byte says 3. -/
def mislabelled : Nat → UInt8 := fun i => [2, 3, 5, 180].getD i 0

/-- The walk over them comes to an end, and the option has set the MSS of the stream to 1460. -/
theorem mislabelled_changes_mss :
    Finishes 0 mislabelled 4 {} ∧
      ¬ ∀ i s, Iterates 0 mislabelled 4 {} i s → Lawful 0 mislabelled 4 i := by
  refine ⟨⟨2, by decide⟩, ?_⟩
  intro lawful
  have law := lawful 0 {} (.first (by decide))
  exact absurd (law.inert (by decide) (.inl (by decide)) {}) (by decide)

/-! ## The same walk in the model of the stack -/

/-- The fields of a `TcpStream`. -/
def Fields.store (f : Fields) (st : TcpStream) : TcpStream :=
  { st with
    mss := f.mss.toNat
    effMss := f.effMss.toNat
    wscalePeer := f.wscalePeer.toNat
    sackPermit := f.sackPermit
    sawTimestamp := f.sawTimestamp
    tsRecent := f.tsRecent.toBitVec
    tsLastTsUpd := f.tsLastTsUpd.toBitVec }

theorem mssAt_toNat (tcpopt : Nat → UInt8) (i : Nat) :
    (mssAt tcpopt i).toNat = (tcpopt i).toNat * 256 + (tcpopt (i + 1)).toNat := by
  have high := (tcpopt i).toNat_lt
  have low := (tcpopt (i + 1)).toNat_lt
  simp only [mssAt, UInt16.toNat_add, UInt16.toNat_shiftLeft, UInt8.toNat_toUInt16]
  have shift : UInt16.toNat 8 % 16 = 8 := rfl
  rw [Nat.shiftLeft_eq, shift]
  omega

theorem ntohlAt_toBitVec (tcpopt : Nat → UInt8) (i : Nat) :
    (ntohlAt tcpopt i).toBitVec = BitVec.ofNat 32
      ((((tcpopt i).toNat * 256 + (tcpopt (i + 1)).toNat) * 256 + (tcpopt (i + 2)).toNat) * 256 +
        (tcpopt (i + 3)).toNat) := by
  have a := (tcpopt i).toNat_lt
  have b := (tcpopt (i + 1)).toNat_lt
  have c := (tcpopt (i + 2)).toNat_lt
  have d := (tcpopt (i + 3)).toNat_lt
  apply BitVec.eq_of_toNat_eq
  rw [BitVec.toNat_ofNat, UInt32.toNat_toBitVec]
  simp only [ntohlAt, UInt32.toNat_or, UInt32.toNat_shiftLeft, UInt8.toNat_toUInt32]
  have shifts : UInt32.toNat 24 % 32 = 24 ∧ UInt32.toNat 16 % 32 = 16 ∧ UInt32.toNat 8 % 32 = 8 :=
    ⟨rfl, rfl, rfl⟩
  rw [shifts.1, shifts.2.1, shifts.2.2, Nat.mod_eq_of_lt (by rw [Nat.shiftLeft_eq]; omega),
    Nat.mod_eq_of_lt (by rw [Nat.shiftLeft_eq]; omega),
    Nat.mod_eq_of_lt (by rw [Nat.shiftLeft_eq]; omega), Nat.or_assoc, Nat.or_assoc,
    ← Nat.shiftLeft_add_eq_or_of_lt d,
    ← Nat.shiftLeft_add_eq_or_of_lt (i := 16) (by rw [Nat.shiftLeft_eq]; omega),
    ← Nat.shiftLeft_add_eq_or_of_lt (i := 24) (by simp only [Nat.shiftLeft_eq]; omega)]
  simp only [Nat.shiftLeft_eq]
  omega

theorem parseTcpOptions_eq (curTs : UInt32) (tcpopt : Nat → UInt8) (len : Int32) (st : TcpStream) :
    ∀ (rounds i : Nat) (f : Fields), len.toInt.toNat - i < rounds →
      parseTcpOptions curTs.toBitVec (fun k => (tcpopt k).toNat) len.toInt.toNat rounds i
          (f.store st) =
        (parseTCPOptions curTs tcpopt len rounds i f).map (·.store st)
  | 0, _, _, short => absurd short (Nat.not_lt_zero _)
  | rounds + 1, i, f, short => by
      rw [parseTcpOptions, parseTCPOptions]
      by_cases beyond : len.toInt ≤ i
      · rw [if_pos (by omega), if_pos beyond]
        rfl
      have inside : (i : Int) < len.toInt := by omega
      -- every round that goes on at a later offset has the rounds it needs left
      have later : ∀ (j : Nat) (f' : Fields), i < j →
          parseTcpOptions curTs.toBitVec (fun k => (tcpopt k).toNat) len.toInt.toNat rounds j
              (f'.store st) =
            (parseTCPOptions curTs tcpopt len rounds j f').map (·.store st) :=
        fun j f' moved => parseTcpOptions_eq curTs tcpopt len st rounds j f' (by omega)
      have isEnd : (tcpopt i).toNat = 0 ↔ tcpopt i = optEnd := UInt8.toNat_inj (b := optEnd)
      have isNop : (tcpopt i).toNat = 1 ↔ tcpopt i = optNop := UInt8.toNat_inj (b := optNop)
      have isMss : (tcpopt i).toNat = 2 ↔ tcpopt i = optMss := UInt8.toNat_inj (b := optMss)
      have isWscale : (tcpopt i).toNat = 3 ↔ tcpopt i = optWscale :=
        UInt8.toNat_inj (b := optWscale)
      have isSack : (tcpopt i).toNat = 4 ↔ tcpopt i = optSackPermit :=
        UInt8.toNat_inj (b := optSackPermit)
      have isTimestamp : (tcpopt i).toNat = 8 ↔ tcpopt i = optTimestamp :=
        UInt8.toNat_inj (b := optTimestamp)
      have isZero : (tcpopt (i + 1)).toNat = 0 ↔ tcpopt (i + 1) = 0 := UInt8.toNat_inj (b := 0)
      have past : len.toInt.toNat < i + (tcpopt (i + 1)).toNat ↔
          unsigned len.toInt < unsigned ((i : Int) + 2 + (tcpopt (i + 1)).toNat - 2) := by
        rw [unsigned_len inside, unsigned_past inside]
      rw [if_neg (by omega : ¬ len.toInt.toNat ≤ i), if_neg beyond]
      dsimp only
      simp only [isEnd, isNop, isMss, isWscale, isSack, isTimestamp, isZero, past]
      unfold parseRound
      dsimp only
      by_cases ends : tcpopt i = optEnd
      · rw [if_pos ends, if_pos ends]
        rfl
      rw [if_neg ends, if_neg ends]
      by_cases nop : tcpopt i = optNop
      · rw [if_pos nop, if_pos nop]
        exact later (i + 1) f (by omega)
      rw [if_neg nop, if_neg nop]
      by_cases beyondLen : unsigned len.toInt < unsigned ((i : Int) + 2 + (tcpopt (i + 1)).toNat - 2)
      · rw [if_pos beyondLen, if_pos beyondLen]
        rfl
      rw [if_neg beyondLen, if_neg beyondLen]
      by_cases mss : tcpopt i = optMss
      · rw [if_pos mss, if_pos mss, ← mssAt_toNat tcpopt (i + 2)]
        exact later (i + 4) { f with mss := mssAt tcpopt (i + 2), effMss := mssAt tcpopt (i + 2) }
          (by omega)
      rw [if_neg mss, if_neg mss]
      by_cases wscale : tcpopt i = optWscale
      · rw [if_pos wscale, if_pos wscale]
        exact later (i + 3) { f with wscalePeer := tcpopt (i + 2) } (by omega)
      rw [if_neg wscale, if_neg wscale]
      by_cases sack : tcpopt i = optSackPermit
      · rw [if_pos sack, if_pos sack]
        exact later (i + 2) { f with sackPermit := true } (by omega)
      rw [if_neg sack, if_neg sack]
      by_cases stamp : tcpopt i = optTimestamp
      · rw [if_pos stamp, if_pos stamp, ← ntohlAt_toBitVec tcpopt (i + 2)]
        exact later (i + 10)
          { f with
            sawTimestamp := true, tsRecent := ntohlAt tcpopt (i + 2), tsLastTsUpd := curTs }
          (by omega)
      rw [if_neg stamp, if_neg stamp, unsigned_past inside]
      dsimp only
      by_cases zero : tcpopt (i + 1) = 0
      · rw [if_pos zero, zero]
        have unknown : Unknown (tcpopt i) := ⟨⟨ends, nop⟩, mss, wscale, sack, stamp⟩
        have stuck : parseTCPOptions curTs tcpopt len rounds i f = none :=
          parse_stuck inside unknown zero f rounds
        exact (congrArg (Option.map (·.store st)) stuck).symm
      · rw [if_neg zero]
        have moved : (tcpopt (i + 1)).toNat ≠ 0 := fun none => zero (isZero.mp none)
        exact later _ f (by omega)

end Options

end QStack
