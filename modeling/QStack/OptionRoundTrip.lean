/-
# QStack.OptionRoundTrip -- the options that are written are the options that are read

The layout of the options is in three functions: `calculate_option_length` counts them,
`GenerateTCPOptions` writes them and `ParseTCPOptions` reads them, each with its own padding for the
build settings `TCP_OPT_TIMESTAMP_ENABLED` and `TCP_OPT_SACK_ENABLED`.

For a SYN the three agree in each of the four builds, and also where the builds of the two sides
differ: `parse_written` gives all the fields the receiver has in the end.  Without SYN they agree
unless `flags` has `TCP_FLAG_SACK` in a build with SACK: the length then has the room of a SACK
option, and the code that would write it is a TODO behind a test of the wrong constant.
`round_trip_iff` is the exact condition.
-/
import QStack.TcpOptions
import QStack.TcpOut

namespace QStack

set_option autoImplicit false

namespace Options

/-! ## The writer -/

/-- The settings of `TCP_OPT_TIMESTAMP_ENABLED` and `TCP_OPT_SACK_ENABLED`. -/
structure Build where
  timestamp : Bool := false
  sack : Bool := false
deriving DecidableEq, Repr

abbrev flagSyn : UInt8 := 0x02
abbrev flagSack : UInt8 := 0x40

abbrev mssLen : Nat := 4
abbrev wscaleLen : Nat := 3
abbrev sackPermitLen : Nat := 2
abbrev sackLen : Nat := 10
abbrev timestampLen : Nat := 10

/-- The fields of the stream that go into its options. -/
structure Sender where
  mss : UInt16
  wscaleMine : UInt8
  tsRecent : UInt32

/-- `optlen` as `calculate_option_length` adds it up -/
def countOptions (b : Build) (flags : UInt8) : Nat :=
  if flags &&& flagSyn ≠ 0 then
    mssLen + (if b.sack then sackPermitLen + (if b.timestamp then 0 else 2) else 0) +
      (if b.timestamp then timestampLen + (if b.sack then 0 else 2) else 0) + (wscaleLen + 1)
  else
    (if b.timestamp then timestampLen + 2 else 0) +
      (if b.sack ∧ flags &&& flagSack ≠ 0 then sackLen + 2 else 0)

/-- `calculate_option_length`: none where its assertion fails. -/
def calculateOptionLength (b : Build) (flags : UInt8) : Option Nat :=
  if countOptions b flags % 4 = 0 then some (countOptions b flags) else none

/-- `htonl`, as the bytes it leaves in memory. -/
def htonl (x : UInt32) : List UInt8 :=
  [(x >>> 24).toUInt8, (x >>> 16).toUInt8, (x >>> 8).toUInt8, x.toUInt8]

def generateTCPTimestamp (st : Sender) (curTs : UInt32) : List UInt8 :=
  [optTimestamp, .ofNat timestampLen] ++ htonl curTs ++ htonl st.tsRecent

/-- The part "SACK permit" of a SYN. -/
def sackPermitPart (b : Build) : List UInt8 :=
  if b.sack then
    (if b.timestamp then [] else [optNop, optNop]) ++ [optSackPermit, .ofNat sackPermitLen]
  else []

/-- The part "Timestamp" of a SYN. -/
def timestampPart (b : Build) (st : Sender) (curTs : UInt32) : List UInt8 :=
  if b.timestamp then
    (if b.sack then [] else [optNop, optNop]) ++ generateTCPTimestamp st curTs
  else []

/-- The options of a SYN. -/
def synOptions (b : Build) (st : Sender) (curTs : UInt32) : List UInt8 :=
  [optMss, .ofNat mssLen, (st.mss >>> 8).toUInt8, (st.mss % 256).toUInt8] ++
    sackPermitPart b ++ timestampPart b st curTs ++
    [optNop, optWscale, .ofNat wscaleLen, st.wscaleMine]

/-- The options of any other segment.  The branch `flags & TCP_OPT_SACK` is there, and empty. -/
def otherOptions (b : Build) (st : Sender) (curTs : UInt32) : List UInt8 :=
  if b.timestamp then [optNop, optNop] ++ generateTCPTimestamp st curTs else []

/-- `GenerateTCPOptions`, the bytes it writes to `tcpopt`: none where its assertion fails. -/
def generateTCPOptions (b : Build) (st : Sender) (curTs : UInt32) (flags : UInt8) (optlen : Nat) :
    Option (List UInt8) :=
  let tcpopt := if flags &&& flagSyn ≠ 0 then synOptions b st curTs else otherOptions b st curTs
  if tcpopt.length = optlen then some tcpopt else none

/-! ## The reader in every build -/

/-- With time stamps `eff_mss` is smaller by the room they take. -/
def effMssOf (b : Build) (mss : UInt16) : UInt16 :=
  if b.timestamp then mss - .ofNat (timestampLen + 2) else mss

/-- A round of the loop; only `eff_mss` depends on the build. -/
def parseRoundIn (b : Build) (curTs : UInt32) (tcpopt : Nat → UInt8) (len : Int32) (i : Nat)
    (s : Fields) : Round :=
  let round := parseRound curTs tcpopt len i s
  if tcpopt i = optMss ∧ round.next ≠ none then
    { round with fields := { round.fields with effMss := effMssOf b round.fields.mss } }
  else round

/-- `ParseTCPOptions` of a build -/
def parseTCPOptionsIn (b : Build) (curTs : UInt32) (tcpopt : Nat → UInt8) (len : Int32) :
    Nat → Nat → Fields → Option Fields
  | 0, _, _ => none
  | rounds + 1, i, s =>
      if len.toInt ≤ (i : Int) then some s
      else
        let round := parseRoundIn b curTs tcpopt len i s
        match round.next with
        | none => some round.fields
        | some j => parseTCPOptionsIn b curTs tcpopt len rounds j round.fields

/-- The default build is the one without time stamps. -/
theorem parseTCPOptionsIn_default (curTs : UInt32) (tcpopt : Nat → UInt8) (len : Int32) :
    ∀ (rounds i : Nat) (s : Fields),
      parseTCPOptionsIn {} curTs tcpopt len rounds i s =
        parseTCPOptions curTs tcpopt len rounds i s := by
  have round : ∀ (i : Nat) (s : Fields),
      parseRoundIn {} curTs tcpopt len i s = parseRound curTs tcpopt len i s := by
    intro i s
    unfold parseRoundIn
    dsimp only
    split
    · rename_i taken
      obtain ⟨kind, goesOn⟩ := taken
      unfold parseRound at goesOn ⊢
      dsimp only at goesOn ⊢
      rw [kind, if_neg (by decide), if_neg (by decide)] at goesOn ⊢
      split at goesOn
      · exact absurd rfl goesOn
      · rename_i fits
        rw [if_neg fits, if_pos rfl]
        rfl
    · rfl
  intro rounds
  induction rounds with
  | zero => exact fun _ _ => rfl
  | succ rounds ih =>
      intro i s
      rw [parseTCPOptionsIn, parseTCPOptions, round]
      split
      · rfl
      · dsimp only
        cases (parseRound curTs tcpopt len i s).next with
        | none => rfl
        | some j => exact ih j _

/-! ## Blocks of options -/

/-- The bytes stand in memory from `i` on. -/
def At (tcpopt : Nat → UInt8) : Nat → List UInt8 → Prop
  | _, [] => True
  | i, byte :: bytes => tcpopt i = byte ∧ At tcpopt (i + 1) bytes

theorem at_append {tcpopt : Nat → UInt8} {xs ys : List UInt8} :
    ∀ {i : Nat}, At tcpopt i (xs ++ ys) ↔ At tcpopt i xs ∧ At tcpopt (i + xs.length) ys := by
  induction xs with
  | nil => exact fun {i} => (and_iff_right trivial).symm
  | cons x xs ih =>
      intro i
      rw [List.cons_append, At, At, ih, and_assoc, List.length_cons, Nat.add_right_comm i,
        Nat.add_assoc]

section Goes

variable {b : Build} {curTs : UInt32} {tcpopt : Nat → UInt8} {len : Int32}

/-- The walk gets from `i` with the fields `s` to `j` with the fields `s'`. -/
def Goes (b : Build) (curTs : UInt32) (tcpopt : Nat → UInt8) (len : Int32) (i : Nat) (s : Fields)
    (j : Nat) (s' : Fields) : Prop :=
  ∃ n, ∀ rounds, parseTCPOptionsIn b curTs tcpopt len (rounds + n) i s =
    parseTCPOptionsIn b curTs tcpopt len rounds j s'

theorem Goes.refl (i : Nat) (s : Fields) : Goes b curTs tcpopt len i s i s := ⟨0, fun _ => rfl⟩

theorem Goes.trans {i j k : Nat} {s s' s'' : Fields} (first : Goes b curTs tcpopt len i s j s')
    (second : Goes b curTs tcpopt len j s' k s'') : Goes b curTs tcpopt len i s k s'' := by
  obtain ⟨m, toJ⟩ := first
  obtain ⟨n, toK⟩ := second
  refine ⟨n + m, fun rounds => ?_⟩
  rw [← Nat.add_assoc, toJ, toK]

theorem Goes.step {i j : Nat} {s s' : Fields} {reads : List Nat} (inside : (i : Int) < len.toInt)
    (round : parseRoundIn b curTs tcpopt len i s = ⟨reads, s', some j⟩) :
    Goes b curTs tcpopt len i s j s' := by
  refine ⟨1, fun rounds => ?_⟩
  rw [parseTCPOptionsIn, if_neg (by omega), round]

/-- The walk ends where the options do. -/
theorem Goes.ends {i j : Nat} {s s' : Fields} (goes : Goes b curTs tcpopt len i s j s')
    (beyond : len.toInt ≤ j) : ∃ rounds, parseTCPOptionsIn b curTs tcpopt len rounds i s = some s' := by
  obtain ⟨n, eq⟩ := goes
  exact ⟨1 + n, by rw [eq, parseTCPOptionsIn, if_pos beyond]⟩

theorem goes_nop {i : Nat} (s : Fields) (inside : (i : Int) < len.toInt)
    (bytes : At tcpopt i [optNop]) : Goes b curTs tcpopt len i s (i + 1) s := by
  have nop := bytes.1
  have round : parseRoundIn b curTs tcpopt len i s = ⟨[i], s, some (i + 1)⟩ := by
    rw [parseRoundIn, if_neg (by rw [nop]; exact fun taken => absurd taken.1 (by decide)),
      parseRound_nop nop]
  exact Goes.step inside round

/-- A round over an option other than the MSS is a round of the default build. -/
theorem goes_option {i j : Nat} {s s' : Fields} {reads : List Nat}
    (inside : (i : Int) < len.toInt) (other : tcpopt i ≠ optMss)
    (round : parseRound curTs tcpopt len i s = ⟨reads, s', some j⟩) :
    Goes b curTs tcpopt len i s j s' := by
  have same : parseRoundIn b curTs tcpopt len i s = ⟨reads, s', some j⟩ := by
    rw [parseRoundIn, if_neg (fun taken => other taken.1), round]
  exact Goes.step inside same

theorem inside_of_fits {i optlen : Nat} (some_ : 0 < optlen)
    (fits : (i : Int) + optlen ≤ len.toInt) : (i : Int) < len.toInt := by
  omega

theorem not_past {i optlen : Nat} (small : optlen < 2 ^ 8) (label : tcpopt (i + 1) = .ofNat optlen)
    (some_ : 0 < optlen) (fits : (i : Int) + optlen ≤ len.toInt) :
    ¬ unsigned len.toInt < unsigned ((i : Int) + 2 + (tcpopt (i + 1)).toNat - 2) := by
  have value : (tcpopt (i + 1)).toNat = optlen := by
    rw [label, UInt8.toNat_ofNat', Nat.mod_eq_of_lt small]
  refine fun past => (check_iff (inside_of_fits some_ fits)).mp past ?_
  rw [Fits, value]
  exact fits

/-- The MSS option; only here the build of the receiver counts. -/
theorem goes_mss {i : Nat} (s : Fields) (st : Sender) (fits : (i : Int) + mssLen ≤ len.toInt)
    (bytes : At tcpopt i
      [optMss, .ofNat mssLen, (st.mss >>> 8).toUInt8, (st.mss % 256).toUInt8]) :
    Goes b curTs tcpopt len i s (i + mssLen)
      { s with mss := st.mss, effMss := effMssOf b st.mss } := by
  obtain ⟨kind, label, high, low, -⟩ := bytes
  have inside := inside_of_fits (by decide) fits
  have checked := not_past (by decide) label (by decide) fits
  have value : mssAt tcpopt (i + 2) = st.mss := by
    have bound := st.mss.toNat_lt
    have shift : (st.mss >>> 8).toNat = st.mss.toNat / 2 ^ 8 := by
      rw [UInt16.toNat_shiftRight]
      exact Nat.shiftRight_eq_div_pow _ 8
    have rest : (st.mss % 256).toNat = st.mss.toNat % 256 := UInt16.toNat_mod _ _
    rw [← UInt16.toNat_inj, mssAt_toNat, high, low, UInt16.toNat_toUInt8, UInt16.toNat_toUInt8,
      shift, rest]
    omega
  have round : parseRound curTs tcpopt len i s =
      ⟨[i, i + 1, i + 2, i + 3], { s with mss := st.mss, effMss := st.mss }, some (i + 4)⟩ := by
    unfold parseRound
    dsimp only
    rw [if_neg (by rw [kind]; decide), if_neg (by rw [kind]; decide), if_neg checked, if_pos kind,
      value]
  have adjusted : parseRoundIn b curTs tcpopt len i s =
      ⟨[i, i + 1, i + 2, i + 3], { s with mss := st.mss, effMss := effMssOf b st.mss },
        some (i + 4)⟩ := by
    rw [parseRoundIn, round]
    exact if_pos ⟨kind, Option.some_ne_none _⟩
  exact Goes.step inside adjusted

theorem goes_wscale {i : Nat} (s : Fields) (shift : UInt8)
    (fits : (i : Int) + wscaleLen ≤ len.toInt)
    (bytes : At tcpopt i [optWscale, .ofNat wscaleLen, shift]) :
    Goes b curTs tcpopt len i s (i + wscaleLen) { s with wscalePeer := shift } := by
  obtain ⟨kind, label, value, -⟩ := bytes
  have checked := not_past (by decide) label (by decide) fits
  have round : parseRound curTs tcpopt len i s =
      ⟨[i, i + 1, i + 2], { s with wscalePeer := shift }, some (i + 3)⟩ := by
    unfold parseRound
    dsimp only
    rw [if_neg (by rw [kind]; decide), if_neg (by rw [kind]; decide), if_neg checked,
      if_neg (by rw [kind]; decide), if_pos kind, value]
  exact goes_option (inside_of_fits (by decide) fits) (by rw [kind]; decide) round

theorem goes_sackPermit {i : Nat} (s : Fields) (fits : (i : Int) + sackPermitLen ≤ len.toInt)
    (bytes : At tcpopt i [optSackPermit, .ofNat sackPermitLen]) :
    Goes b curTs tcpopt len i s (i + sackPermitLen) { s with sackPermit := true } := by
  obtain ⟨kind, label, -⟩ := bytes
  have checked := not_past (by decide) label (by decide) fits
  have round : parseRound curTs tcpopt len i s =
      ⟨[i, i + 1], { s with sackPermit := true }, some (i + 2)⟩ := by
    unfold parseRound
    dsimp only
    rw [if_neg (by rw [kind]; decide), if_neg (by rw [kind]; decide), if_neg checked,
      if_neg (by rw [kind]; decide), if_neg (by rw [kind]; decide), if_pos kind]
  exact goes_option (inside_of_fits (by decide) fits) (by rw [kind]; decide) round

/-- Bytes put together by shifts do not overlap. -/
theorem or_bytes {a b c d : Nat} (second : b < 2 ^ 8) (third : c < 2 ^ 8) (last : d < 2 ^ 8) :
    2 ^ 24 * a ||| 2 ^ 16 * b ||| 2 ^ 8 * c ||| d = 2 ^ 24 * a + 2 ^ 16 * b + 2 ^ 8 * c + d := by
  have two : 2 ^ 24 * a ||| 2 ^ 16 * b = 2 ^ 16 * (2 ^ 8 * a + b) := by
    rw [← Nat.two_pow_add_eq_or_of_lt (by omega)]
    omega
  have three : 2 ^ 16 * (2 ^ 8 * a + b) ||| 2 ^ 8 * c = 2 ^ 8 * (2 ^ 16 * a + 2 ^ 8 * b + c) := by
    rw [← Nat.two_pow_add_eq_or_of_lt (by omega)]
    omega
  rw [two, three, ← Nat.two_pow_add_eq_or_of_lt last]
  omega

/-- `ntohl` reads what `htonl` wrote. -/
theorem ntohl_htonl {i : Nat} (x : UInt32) (bytes : At tcpopt i (htonl x)) :
    ntohlAt tcpopt i = x := by
  obtain ⟨first, second, third, last, -⟩ := bytes
  have bound := x.toNat_lt
  have down : ∀ k : UInt32, k.toNat < 32 → ((x >>> k).toUInt8).toNat =
      x.toNat / 2 ^ k.toNat % 2 ^ 8 := by
    intro k small
    rw [UInt32.toNat_toUInt8, UInt32.toNat_shiftRight, Nat.mod_eq_of_lt small,
      Nat.shiftRight_eq_div_pow]
  have up : ∀ (byte : UInt8) (k : UInt32), k.toNat ≤ 24 →
      (byte.toUInt32 <<< k).toNat = 2 ^ k.toNat * byte.toNat := by
    intro byte k small
    have value := byte.toNat_lt
    have power : 2 ^ k.toNat ≤ 2 ^ 24 := Nat.pow_le_pow_right (by decide) small
    have product : byte.toNat * 2 ^ k.toNat < 2 ^ 32 :=
      Nat.lt_of_le_of_lt (Nat.mul_le_mul_left _ power) (by omega)
    rw [UInt32.toNat_shiftLeft, UInt8.toNat_toUInt32, Nat.mod_eq_of_lt (by omega : k.toNat < 32),
      Nat.shiftLeft_eq, Nat.mod_eq_of_lt product, Nat.mul_comm]
  have low : x.toUInt8.toNat = x.toNat % 2 ^ 8 := UInt32.toNat_toUInt8 x
  rw [ntohlAt, first, second, third, last, ← UInt32.toNat_inj, UInt32.toNat_or, UInt32.toNat_or,
    UInt32.toNat_or, up _ 24 (by decide), up _ 16 (by decide), up _ 8 (by decide),
    UInt8.toNat_toUInt32, down 24 (by decide), down 16 (by decide), down 8 (by decide), low]
  refine (or_bytes (Nat.mod_lt _ (by decide)) (Nat.mod_lt _ (by decide))
    (Nat.mod_lt _ (by decide))).trans ?_
  have shifts : (24 : UInt32).toNat = 24 ∧ (16 : UInt32).toNat = 16 ∧ (8 : UInt32).toNat = 8 :=
    ⟨rfl, rfl, rfl⟩
  rw [shifts.1, shifts.2.1, shifts.2.2]
  omega

theorem goes_timestamp {i : Nat} (s : Fields) (st : Sender) (sent : UInt32)
    (fits : (i : Int) + timestampLen ≤ len.toInt)
    (bytes : At tcpopt i (generateTCPTimestamp st sent)) :
    Goes b curTs tcpopt len i s (i + timestampLen)
      { s with sawTimestamp := true, tsRecent := sent, tsLastTsUpd := curTs } := by
  rw [generateTCPTimestamp, List.append_assoc, at_append] at bytes
  obtain ⟨⟨kind, label, -⟩, times⟩ := bytes
  have value : ntohlAt tcpopt (i + 2) = sent := ntohl_htonl sent (at_append.mp times).1
  have checked := not_past (by decide) label (by decide) fits
  have round : parseRound curTs tcpopt len i s =
      ⟨[i, i + 1, i + 2, i + 3, i + 4, i + 5],
        { s with sawTimestamp := true, tsRecent := sent, tsLastTsUpd := curTs },
        some (i + 10)⟩ := by
    unfold parseRound
    dsimp only
    rw [if_neg (by rw [kind]; decide), if_neg (by rw [kind]; decide), if_neg checked,
      if_neg (by rw [kind]; decide), if_neg (by rw [kind]; decide), if_neg (by rw [kind]; decide),
      if_pos kind, value]
  exact goes_option (inside_of_fits (by decide) fits) (by rw [kind]; decide) round

/-! ## The parts of a SYN -/

theorem goes_nops {i : Nat} (s : Fields) (fits : (i : Int) + 2 ≤ len.toInt)
    (bytes : At tcpopt i [optNop, optNop]) : Goes b curTs tcpopt len i s (i + 2) s :=
  (goes_nop s (by omega) ⟨bytes.1, trivial⟩).trans
    (goes_nop s (by omega) ⟨bytes.2.1, trivial⟩)

variable {sender : Build}

theorem goes_sackPart {i : Nat} (s : Fields)
    (fits : (i : Int) + (sackPermitPart sender).length ≤ len.toInt)
    (bytes : At tcpopt i (sackPermitPart sender)) :
    Goes b curTs tcpopt len i s (i + (sackPermitPart sender).length)
      { s with sackPermit := s.sackPermit || sender.sack } := by
  obtain ⟨timestamp, sack⟩ := sender
  cases sack with
  | false =>
      rw [Bool.or_false]
      exact Goes.refl i s
  | true =>
      rw [Bool.or_true]
      cases timestamp with
      | true => exact goes_sackPermit s fits bytes
      | false =>
          obtain ⟨padding, option⟩ := at_append.mp bytes
          have room : (i : Int) + 4 ≤ len.toInt := fits
          have rest : ((i + 2 : Nat) : Int) + (2 : Nat) ≤ len.toInt := by omega
          exact (goes_nops s (by omega) padding).trans (goes_sackPermit s rest option)

theorem goes_timestampPart {i : Nat} (s : Fields) (st : Sender) (sent : UInt32)
    (fits : (i : Int) + (timestampPart sender st sent).length ≤ len.toInt)
    (bytes : At tcpopt i (timestampPart sender st sent)) :
    Goes b curTs tcpopt len i s (i + (timestampPart sender st sent).length)
      { s with
        sawTimestamp := s.sawTimestamp || sender.timestamp
        tsRecent := if sender.timestamp then sent else s.tsRecent
        tsLastTsUpd := if sender.timestamp then curTs else s.tsLastTsUpd } := by
  obtain ⟨timestamp, sack⟩ := sender
  cases timestamp with
  | false =>
      rw [Bool.or_false]
      exact Goes.refl i s
  | true =>
      rw [Bool.or_true]
      cases sack with
      | true => exact goes_timestamp s st sent fits bytes
      | false =>
          obtain ⟨padding, option⟩ := at_append.mp bytes
          have room : (i : Int) + 12 ≤ len.toInt := fits
          have rest : ((i + 2 : Nat) : Int) + (10 : Nat) ≤ len.toInt := by omega
          exact (goes_nops s (by omega) padding).trans (goes_timestamp s st sent rest option)

end Goes

/-! ## The round trip -/

theorem synOptions_length (b : Build) (st : Sender) (curTs : UInt32) :
    (synOptions b st curTs).length =
      mssLen + (sackPermitPart b).length + (timestampPart b st curTs).length + (wscaleLen + 1) := by
  rw [synOptions, List.length_append, List.length_append, List.length_append]
  rfl

/-- The fields of a receiver that has read the options of a SYN. -/
def received (sender receiver : Build) (st : Sender) (sent curTs : UInt32) (s : Fields) : Fields where
  mss := st.mss
  effMss := effMssOf receiver st.mss
  wscalePeer := st.wscaleMine
  sackPermit := s.sackPermit || sender.sack
  sawTimestamp := s.sawTimestamp || sender.timestamp
  tsRecent := if sender.timestamp then sent else s.tsRecent
  tsLastTsUpd := if sender.timestamp then curTs else s.tsLastTsUpd

/-- **What a SYN carries is what the receiver reads**, whatever the two builds are. -/
theorem parse_written (sender receiver : Build) (st : Sender) (sent curTs : UInt32)
    (tcpopt : Nat → UInt8) (len : Int32) (s : Fields)
    (bytes : At tcpopt 0 (synOptions sender st sent))
    (whole : len.toInt = (synOptions sender st sent).length) :
    ∃ rounds, parseTCPOptionsIn receiver curTs tcpopt len rounds 0 s =
      some (received sender receiver st sent curTs s) := by
  rw [synOptions_length] at whole
  rw [synOptions, at_append, at_append, at_append] at bytes
  obtain ⟨⟨⟨mss, sack⟩, timestamp⟩, last⟩ := bytes
  rw [List.length_append] at timestamp
  rw [List.length_append, List.length_append, Nat.zero_add] at last
  rw [Nat.zero_add] at sack timestamp
  have room : len.toInt = (4 + (sackPermitPart sender).length +
      (timestampPart sender st sent).length + 4 : Nat) := whole
  have inMss : ((0 : Nat) : Int) + (4 : Nat) ≤ len.toInt := by omega
  have first : Goes receiver curTs tcpopt len 0 s 4 _ := goes_mss s st inMss mss
  have inSack : ((4 : Nat) : Int) + (sackPermitPart sender).length ≤ len.toInt := by omega
  have second := first.trans (goes_sackPart _ inSack sack)
  have inTimestamp : ((4 + (sackPermitPart sender).length : Nat) : Int) +
      (timestampPart sender st sent).length ≤ len.toInt := by omega
  have third := second.trans (goes_timestampPart _ st sent inTimestamp timestamp)
  generalize at_ : 4 + (sackPermitPart sender).length + (timestampPart sender st sent).length = i
    at room third
  have padding : At tcpopt i [optNop] := ⟨at_ ▸ last.1, trivial⟩
  have wscale : At tcpopt (i + 1) [optWscale, .ofNat wscaleLen, st.wscaleMine] := at_ ▸ last.2
  have fourth := third.trans (goes_nop _ (by omega) padding)
  have inWscale : ((i + 1 : Nat) : Int) + (3 : Nat) ≤ len.toInt := by omega
  have fifth := fourth.trans (goes_wscale _ st.wscaleMine inWscale wscale)
  have beyond : len.toInt ≤ (i + 1 + 3 : Nat) := by omega
  exact fifth.ends beyond

/-- The assertion of `calculate_option_length` holds in every build. -/
theorem countOptions_mod (b : Build) (flags : UInt8) : countOptions b flags % 4 = 0 := by
  unfold countOptions
  obtain ⟨timestamp, sack⟩ := b
  cases timestamp <;> cases sack <;> simp <;> split_ifs <;> rfl

theorem calculateOptionLength_eq (b : Build) (flags : UInt8) :
    calculateOptionLength b flags = some (countOptions b flags) :=
  if_pos (countOptions_mod b flags)

theorem countOptions_syn (b : Build) (st : Sender) (sent : UInt32) {flags : UInt8}
    (syn : flags &&& flagSyn ≠ 0) : countOptions b flags = (synOptions b st sent).length := by
  rw [countOptions, if_pos syn, synOptions_length]
  obtain ⟨timestamp, sack⟩ := b
  cases timestamp <;> cases sack <;> rfl

theorem countOptions_other (b : Build) (st : Sender) (sent : UInt32) {flags : UInt8}
    (syn : ¬ flags &&& flagSyn ≠ 0) :
    countOptions b flags = (otherOptions b st sent).length +
      (if b.sack ∧ flags &&& flagSack ≠ 0 then sackLen + 2 else 0) := by
  rw [countOptions, if_neg syn, otherOptions]
  cases b.timestamp <;> rfl

/-- What the three functions agree on for one call: the assertions hold, as many bytes are written
as were counted, and those of a SYN are read back by a receiver of any build. -/
def RoundTrips (b : Build) (st : Sender) (sent : UInt32) (flags : UInt8) : Prop :=
  ∃ optlen bytes, calculateOptionLength b flags = some optlen ∧ optlen % 4 = 0 ∧
    generateTCPOptions b st sent flags optlen = some bytes ∧ bytes.length = optlen ∧
    (flags &&& flagSyn ≠ 0 →
      ∀ (receiver : Build) (curTs : UInt32) (tcpopt : Nat → UInt8) (s : Fields),
        At tcpopt 0 bytes →
          ∃ rounds s', parseTCPOptionsIn receiver curTs tcpopt (.ofNat optlen) rounds 0 s = some s' ∧
            s'.mss = st.mss ∧ s'.wscalePeer = st.wscaleMine ∧
            s'.sackPermit = (s.sackPermit || b.sack) ∧
            s'.sawTimestamp = (s.sawTimestamp || b.timestamp))

theorem roundTrips_syn (b : Build) (st : Sender) (sent : UInt32) {flags : UInt8}
    (syn : flags &&& flagSyn ≠ 0) : RoundTrips b st sent flags := by
  have length := countOptions_syn b st sent syn
  refine ⟨countOptions b flags, synOptions b st sent, calculateOptionLength_eq b flags,
    countOptions_mod b flags, ?_, length.symm, ?_⟩
  · rw [generateTCPOptions, if_pos syn]
    exact if_pos length.symm
  · intro _ receiver curTs tcpopt s bytes
    have small : countOptions b flags < 2 ^ 31 := by
      rw [countOptions, if_pos syn]
      split <;> split <;> decide
    have whole : (Int32.ofNat (countOptions b flags)).toInt = (synOptions b st sent).length := by
      rw [Int32.toInt_ofNat_of_lt small, length]
    obtain ⟨rounds, parsed⟩ := parse_written b receiver st sent curTs tcpopt _ s bytes whole
    exact ⟨rounds, _, parsed, rfl, rfl, rfl, rfl⟩

/-- **The exact condition**: a SYN, or no `TCP_FLAG_SACK` in a build with SACK. -/
theorem round_trip_iff (b : Build) (st : Sender) (sent : UInt32) (flags : UInt8) :
    RoundTrips b st sent flags ↔
      flags &&& flagSyn ≠ 0 ∨ b.sack = false ∨ flags &&& flagSack = 0 := by
  by_cases syn : flags &&& flagSyn ≠ 0
  · exact iff_of_true (roundTrips_syn b st sent syn) (.inl syn)
  have counted := countOptions_other b st sent syn
  have written : ∀ optlen, generateTCPOptions b st sent flags optlen =
      if (otherOptions b st sent).length = optlen then some (otherOptions b st sent) else none := by
    intro optlen
    rw [generateTCPOptions, if_neg syn]
  constructor
  · rintro ⟨optlen, bytes, length, -, generated, -⟩
    rw [calculateOptionLength_eq, Option.some_inj] at length
    subst length
    rw [written] at generated
    split at generated
    · rename_i agree
      rw [counted] at agree
      refine .inr ?_
      by_cases room : b.sack = true ∧ flags &&& flagSack ≠ 0
      · rw [if_pos room] at agree
        exact absurd agree (by omega)
      · rcases not_and_or.mp room with off | unset
        · exact .inl (Bool.eq_false_iff.mpr off)
        · exact .inr (not_not.mp unset)
    · cases generated
  · intro condition
    have none_ : ¬ (b.sack = true ∧ flags &&& flagSack ≠ 0) := by
      rintro ⟨sack, set⟩
      rcases condition with isSyn | off | unset
      · exact syn isSyn
      · rw [sack] at off
        cases off
      · exact set unset
    rw [if_neg none_, Nat.add_zero] at counted
    refine ⟨countOptions b flags, otherOptions b st sent, calculateOptionLength_eq b flags,
      countOptions_mod b flags, ?_, counted.symm, fun isSyn => absurd isSyn syn⟩
    rw [written, if_pos counted.symm]

/-- The length has room for a SACK option that is not written. -/
theorem sack_flag_asserts :
    ¬ ∀ (b : Build) (st : Sender) (sent : UInt32) (flags : UInt8), RoundTrips b st sent flags := by
  intro all
  obtain ⟨optlen, bytes, length, -, generated, -⟩ := all ⟨false, true⟩ ⟨1460, 7, 0⟩ 0 0x50
  rw [calculateOptionLength_eq, Option.some_inj] at length
  subst length
  have unequal : generateTCPOptions ⟨false, true⟩ ⟨1460, 7, 0⟩ 0 0x50
      (countOptions ⟨false, true⟩ 0x50) = none := by decide
  rw [unequal] at generated
  cases generated

/-- The default build is the one the model of the stack sends with. -/
theorem countOptions_default (f : SendFlags) (flags : UInt8)
    (syn : flags &&& flagSyn ≠ 0 ↔ f.syn = true) :
    countOptions {} flags = QStack.calculateOptionLength f := by
  rw [countOptions, QStack.calculateOptionLength]
  by_cases set : f.syn = true
  · rw [if_pos (syn.mpr set), if_pos set]
    rfl
  · rw [if_neg (fun is => set (syn.mp is)), if_neg set]
    rfl

end Options

end QStack
