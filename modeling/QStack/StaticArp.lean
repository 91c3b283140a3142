/-
# QStack.StaticArp -- the static ARP table

`sarp_set` adds an entry, an address with the length of its mask and a MAC address, and
`sarp_lookup` returns the MAC address of the first entry that an address belongs to.  The masks are
`((1<<mask)-1)<<(32-mask)` in 32 bits.  A shift by 32 is none on the machine the Makefiles build for
(`-m64`; the language leaves it undefined): with `mask` 0 the result is 0 all the same, but with
`mask` 32 it is 0 as well, where 32 ones are meant, and an entry for one host matches every address.

`sarp_law` says exactly when a lookup is right: the table has room for all entries, and no entry for
another host comes before the one that the address belongs to.  `ip_masked` has the same mask.

`inet_addr` is a parameter.  The MAC address is read as `sscanf` reads it, each byte as a word of
four bytes, of which the next one overwrites three.
-/
import QStack.Lib.Prefix
import Mathlib.Data.List.Basic
import Mathlib.Logic.Function.Basic
import Mathlib.Tactic.IntervalCases

namespace QStack

set_option autoImplicit false

open Lib.Prefix

/-! ## Byte order -/

/-- `htonl` of a machine that has the low byte first -/
def htonl (x : UInt32) : UInt32 :=
  (x >>> 24) ||| ((x >>> 8) &&& (0xff00 : UInt32)) ||| ((x <<< 8) &&& (0xff0000 : UInt32)) |||
    (x <<< 24)

def ntohl (x : UInt32) : UInt32 := htonl x

/-- Where a bit comes from. -/
def swapped (i : Nat) : Nat := 8 * (3 - i / 8) + i % 8

theorem htonl_bit (x : UInt32) {i : Nat} (inside : i < 32) :
    (htonl x).toBitVec.getLsbD i = x.toBitVec.getLsbD (swapped i) := by
  unfold htonl
  interval_cases i <;> simp [swapped]

theorem swapped_lt {i : Nat} : swapped i < 32 := by
  unfold swapped
  omega

theorem swapped_swapped {i : Nat} (inside : i < 32) : swapped (swapped i) = i := by
  unfold swapped
  omega

theorem ext_bits {x y : UInt32}
    (same : ∀ i < 32, x.toBitVec.getLsbD i = y.toBitVec.getLsbD i) : x = y :=
  UInt32.toBitVec_inj.mp (BitVec.eq_of_getLsbD_eq same)

theorem ntohl_htonl (x : UInt32) : ntohl (htonl x) = x := by
  apply ext_bits
  intro i inside
  rw [ntohl, htonl_bit _ inside, htonl_bit _ swapped_lt, swapped_swapped inside]

theorem ntohl_inj {x y : UInt32} : ntohl x = ntohl y ↔ x = y := by
  constructor
  · intro same
    have back : htonl (ntohl x) = htonl (ntohl y) := congrArg htonl same
    rwa [show htonl (ntohl x) = x from ntohl_htonl x,
      show htonl (ntohl y) = y from ntohl_htonl y] at back
  · rintro rfl
    rfl

theorem ntohl_and (x y : UInt32) : ntohl (x &&& y) = ntohl x &&& ntohl y := by
  apply ext_bits
  intro i inside
  simp only [ntohl, UInt32.toBitVec_and, BitVec.getLsbD_and, htonl_bit _ inside]

/-! ## The functions -/

/-- `((1<<mask)-1)<<(32-mask)` -/
def maskWord (mask : UInt8) : UInt32 :=
  (((1 : UInt32) <<< mask.toUInt32) - 1) <<< (32 - mask.toUInt32)

/-- `ip_masked` -/
def ipMasked (addr : UInt32) (mask : UInt8) : UInt32 := htonl (ntohl addr &&& maskWord mask)

/-- `STATIC_ARP_NUM` -/
def staticArpNum : Nat := 16

/-- `ETH_ALEN` -/
def ethAlen : Nat := 6

/-- `struct arp_table`, of which the functions use these fields.  `bytes` are those of memory from
`haddr` on: 6 of it, 2 of padding, and then `last_used`. -/
structure ArpTable where
  ip : UInt32
  ipMask : UInt32
  bytes : Nat → UInt8

def ArpTable.haddr (entry : ArpTable) : List UInt8 := (List.range ethAlen).map entry.bytes

/-- `CONFIG.sarp_num` and `CONFIG.sarp_table` -/
structure SarpConfig where
  sarpNum : Nat := 0
  sarpTable : Nat → ArpTable := fun _ => { ip := 0, ipMask := 0, bytes := fun _ => 0 }

/-! ### sscanf -/

/-- `isspace` -/
def isSpace (c : Char) : Bool := c = ' ' || (9 ≤ c.toNat && c.toNat ≤ 13)

def hexDigit (c : Char) : Option Nat :=
  if '0' ≤ c ∧ c ≤ '9' then some (c.toNat - '0'.toNat)
  else if 'a' ≤ c ∧ c ≤ 'f' then some (c.toNat - 'a'.toNat + 10)
  else if 'A' ≤ c ∧ c ≤ 'F' then some (c.toNat - 'A'.toNat + 10)
  else none

def scanSign : List Char → Bool × List Char
  | [] => (false, [])
  | c :: rest =>
      if c = '-' then (true, rest) else if c = '+' then (false, rest) else (false, c :: rest)

def scan0x : List Char → List Char
  | c :: x :: rest => if c = '0' ∧ (x = 'x' ∨ x = 'X') then rest else c :: x :: rest
  | text => text

def scanDigits : Nat → List Char → Nat × List Char
  | value, [] => (value, [])
  | value, c :: rest =>
      match hexDigit c with
      | some digit => scanDigits (16 * value + digit) rest
      | none => (value, c :: rest)

/-- The directive `%x`: the number, and what is left of the text. -/
def scanHex (text : List Char) : Option (UInt32 × List Char) :=
  let (negative, text) := scanSign (text.dropWhile isSpace)
  match scan0x text with
  | [] => none
  | c :: rest =>
      match hexDigit c with
      | none => none
      | some _ =>
          let (value, rest) := scanDigits 0 (c :: rest)
          let word : UInt32 :=
            if 2 ^ 64 ≤ value then 0xffffffff
            else if negative = true then 0 - .ofNat value
            else .ofNat value
          some (word, rest)

/-- What `sscanf` writes for one `%x`: the word at `&haddr[i]`, low byte first. -/
def scanStore (bytes : Nat → UInt8) (i : Nat) (word : UInt32) : Nat → UInt8 := fun j =>
  if i ≤ j ∧ j < i + 4 then (word >>> (.ofNat (8 * (j - i)))).toUInt8 else bytes j

/-- `"%x:%x:%x:%x:%x:%x"` from `&haddr[i]` on, with `rounds` numbers to go. -/
def sscanfHaddr : Nat → Nat → List Char → (Nat → UInt8) → Nat → UInt8
  | 0, _, _, bytes => bytes
  | rounds + 1, i, text, bytes =>
      match scanHex text with
      | none => bytes
      | some (word, rest) =>
          match rest with
          | ':' :: rest => sscanfHaddr rounds (i + 1) rest (scanStore bytes i word)
          | _ => scanStore bytes i word

/-! ### sarp_set and sarp_lookup -/

/-- The arguments of `sarp_set` -/
structure SarpCall where
  dip : String
  mask : UInt8
  haddr : String
deriving DecidableEq

section Functions

variable (inetAddr : String → UInt32)

/-- `sarp_set`; `none` if it writes behind the table. -/
def sarpSet (c : SarpConfig) (call : SarpCall) : Option SarpConfig :=
  if c.sarpNum < staticArpNum then
    some
      { sarpNum := c.sarpNum + 1
        sarpTable := Function.update c.sarpTable c.sarpNum
          { ip := inetAddr call.dip
            ipMask := htonl (maskWord call.mask)
            bytes := sscanfHaddr ethAlen 0 call.haddr.toList (c.sarpTable c.sarpNum).bytes } }
  else none

/-- The calls one after the other. -/
def sarpBuild : List SarpCall → SarpConfig → Option SarpConfig
  | [], c => some c
  | call :: calls, c => (sarpSet inetAddr c call).bind (sarpBuild calls)

/-- The loop of `sarp_lookup`, from `i` on: the entry whose `haddr` is returned. -/
def sarpLoop (c : SarpConfig) (dip : UInt32) : Nat → Nat → Option Nat
  | 0, _ => none
  | rounds + 1, i =>
      let entry := c.sarpTable i
      if entry.ip &&& entry.ipMask = dip &&& entry.ipMask then some i
      else sarpLoop c dip rounds (i + 1)

def sarpLookup (c : SarpConfig) (dip : UInt32) : Option Nat := sarpLoop c dip c.sarpNum 0

/-! ## What a lookup is for -/

/-- The address has the prefix of the entry. -/
def Contains (call : SarpCall) (dst : UInt32) : Prop :=
  Agree (32 - call.mask.toNat) (ntohl (inetAddr call.dip)).toNat (ntohl dst).toNat

instance (call : SarpCall) (dst : UInt32) : Decidable (Contains inetAddr call dst) :=
  inferInstanceAs (Decidable (Agree _ _ _))

def firstContaining (calls : List SarpCall) (dst : UInt32) : Option Nat :=
  calls.findIdx? fun call => decide (Contains inetAddr call dst)

/-- Two digits -/
def octet (a b : Char) : Option UInt8 :=
  (hexDigit a).bind fun x => (hexDigit b).map fun y => .ofNat (16 * x + y)

/-- `"xx:xx:xx:xx:xx:xx"` -/
def macOf : List Char → Option (List UInt8)
  | [a, b] => (octet a b).map fun o => [o]
  | a :: b :: ':' :: rest => (octet a b).bind fun o => (macOf rest).map fun mac => o :: mac
  | _ => none

/-- The table has been built, a lookup returns the first entry with the address, and the MAC address
of an entry is that of its text. -/
def Correct (calls : List SarpCall) (dst : UInt32) : Prop :=
  ∃ c, sarpBuild inetAddr calls {} = some c ∧ sarpLookup c dst = firstContaining inetAddr calls dst ∧
    ∀ (i : Nat) (call : SarpCall) mac, calls[i]? = some call → macOf call.haddr.toList = some mac →
      mac.length = ethAlen → (c.sarpTable i).haddr = mac

/-- An entry for another host comes behind one that the address belongs to. -/
def OthersBehind (calls : List SarpCall) (dst : UInt32) : Prop :=
  ∀ (k : Nat) (call : SarpCall), calls[k]? = some call → call.mask = 32 → inetAddr call.dip ≠ dst →
    ∃ j < k, ∃ earlier, calls[j]? = some earlier ∧ Contains inetAddr earlier dst

end Functions

/-! ## Masks -/

theorem maskWord_ofNat : ∀ m < 32, (maskWord (.ofNat m)).toNat = mask m (32 - m) := by
  decide

theorem maskWord_32 : maskWord 32 = 0 := by decide

variable {inetAddr : String → UInt32} {call : SarpCall} {dst : UInt32}

/-- What `sarp_lookup` compares is what `ip_masked` returns. -/
theorem masked_iff (ip : UInt32) (m : UInt8) :
    ip &&& htonl (maskWord m) = dst &&& htonl (maskWord m) ↔ ipMasked ip m = ipMasked dst m := by
  rw [← ntohl_inj, ntohl_and, ntohl_and, ntohl_htonl, ipMasked, ipMasked, ← ntohl_inj (x := htonl _),
    ntohl_htonl, ntohl_htonl]

/-- **The test of the loop**: a mask of 32 lets everything through. -/
theorem ipMasked_eq_iff (le : call.mask ≤ 32) :
    ipMasked (inetAddr call.dip) call.mask = ipMasked dst call.mask ↔
      call.mask = 32 ∨ Contains inetAddr call dst := by
  by_cases host : call.mask = 32
  · simp [host, ipMasked, maskWord_32]
  · have small : call.mask.toNat < 32 := by
      have le' : call.mask.toNat ≤ 32 := UInt8.le_iff_toNat_le.mp le
      have ne : call.mask.toNat ≠ 32 := fun same => host (UInt8.toNat_inj.mp same)
      omega
    have width : 2 ^ (call.mask.toNat + (32 - call.mask.toNat)) = 2 ^ 32 := by
      rw [Nat.add_sub_cancel' small.le]
    have word := maskWord_ofNat call.mask.toNat small
    rw [UInt8.ofNat_toNat] at word
    rw [ipMasked, ipMasked, ← ntohl_inj, ntohl_htonl, ntohl_htonl, ← UInt32.toNat_inj,
      UInt32.toNat_and, UInt32.toNat_and, word,
      and_mask_eq_iff (width ▸ UInt32.toNat_lt _) (width ▸ UInt32.toNat_lt _)]
    simp [host, Contains]

/-- An entry for a host contains the host. -/
theorem contains_host (host : call.mask = 32) :
    Contains inetAddr call dst ↔ inetAddr call.dip = dst := by
  rw [Contains, host]
  show Agree 0 _ _ ↔ _
  rw [agree_zero, UInt32.toNat_inj, ntohl_inj]

/-! ## The loop -/

theorem sarpLoop_eq {c : SarpConfig} {calls : List SarpCall} {i : Nat}
    (table : ∀ (j : Nat) (call : SarpCall), calls[j]? = some call → (c.sarpTable (i + j)).ip = inetAddr call.dip ∧
      (c.sarpTable (i + j)).ipMask = htonl (maskWord call.mask)) :
    sarpLoop c dst calls.length i = (calls.findIdx? fun call =>
      decide (ipMasked (inetAddr call.dip) call.mask = ipMasked dst call.mask)).map (i + ·) := by
  induction calls generalizing i with
  | nil => rfl
  | cons call calls ih =>
      obtain ⟨ip, ipMask⟩ := table 0 call rfl
      rw [Nat.add_zero] at ip ipMask
      simp only [List.length_cons, sarpLoop, ip, ipMask, masked_iff, List.findIdx?_cons,
        decide_eq_true_eq]
      split
      · rfl
      · rw [ih fun j later found => by
          have here := table (j + 1) later found
          rwa [Nat.add_comm j, ← Nat.add_assoc] at here]
        rw [Option.map_map]
        congr 1
        funext j
        show i + 1 + j = i + (j + 1)
        omega

/-- A weaker test finds the same if what only it finds comes too late. -/
theorem findIdx?_eq_iff {α : Type} {p q : α → Bool} {xs : List α}
    (weaker : ∀ x ∈ xs, q x = true → p x = true) : xs.findIdx? p = xs.findIdx? q ↔
      ∀ (k : Nat) (x : α), xs[k]? = some x → p x = true → q x = false →
        ∃ j < k, ∃ y, xs[j]? = some y ∧ q y = true := by
  induction xs with
  | nil => simp
  | cons x xs ih =>
      obtain ⟨here, weaker⟩ := List.forall_mem_cons.mp weaker
      rw [List.findIdx?_cons, List.findIdx?_cons]
      cases first : q x with
      | true =>
          rw [here first]
          refine iff_of_true rfl fun k y found _ no => ?_
          cases k with
          | zero =>
              obtain rfl : x = y := by simpa using found
              simp [first] at no
          | succ k => exact ⟨0, Nat.succ_pos k, x, rfl, first⟩
      | false =>
          cases only : p x with
          | true =>
              refine iff_of_false (by simp) fun late => ?_
              obtain ⟨j, none_, -⟩ := late 0 x rfl only first
              exact absurd none_ (Nat.not_lt_zero j)
          | false =>
              rw [if_neg Bool.false_ne_true, if_neg Bool.false_ne_true,
                (Option.map_injective fun _ _ => Nat.succ.inj).eq_iff, ih weaker]
              constructor
              · intro late k y found yes no
                cases k with
                | zero =>
                    obtain rfl : x = y := by simpa using found
                    simp [only] at yes
                | succ k =>
                    obtain ⟨j, before, z, there, right⟩ := late k y found yes no
                    exact ⟨j + 1, Nat.succ_lt_succ before, z, there, right⟩
              · intro late k y found yes no
                obtain ⟨j, before, z, there, right⟩ := late (k + 1) y found yes no
                cases j with
                | zero =>
                    obtain rfl : x = z := by simpa using there
                    simp [first] at right
                | succ j => exact ⟨j, Nat.lt_of_succ_lt_succ before, z, there, right⟩

/-! ## Building the table -/

/-- Where an entry comes from. -/
structure EntryOf (inetAddr : String → UInt32) (call : SarpCall) (entry : ArpTable) : Prop where
  ip : entry.ip = inetAddr call.dip
  ipMask : entry.ipMask = htonl (maskWord call.mask)
  bytes : ∃ before, entry.bytes = sscanfHaddr ethAlen 0 call.haddr.toList before

theorem sarpBuild_spec {calls : List SarpCall} : ∀ {c : SarpConfig},
    c.sarpNum + calls.length ≤ staticArpNum →
      ∃ c', sarpBuild inetAddr calls c = some c' ∧ c'.sarpNum = c.sarpNum + calls.length ∧
        (∀ i < c.sarpNum, c'.sarpTable i = c.sarpTable i) ∧
        ∀ (i : Nat) (call : SarpCall), calls[i]? = some call →
          EntryOf inetAddr call (c'.sarpTable (c.sarpNum + i)) := by
  induction calls with
  | nil => exact fun _ => ⟨_, rfl, rfl, fun _ _ => rfl, fun i call found => by simp at found⟩
  | cons call calls ih =>
      intro c room
      rw [List.length_cons] at room
      have free : c.sarpNum < staticArpNum := by omega
      obtain ⟨c', built, num, kept, entries⟩ := ih (c := { sarpNum := c.sarpNum + 1, sarpTable := _ })
        (by show c.sarpNum + 1 + calls.length ≤ staticArpNum; omega)
      refine ⟨c', ?_, ?_, ?_, ?_⟩
      · rw [sarpBuild, sarpSet, if_pos free, Option.bind_some]
        exact built
      · rw [num, List.length_cons]
        show c.sarpNum + 1 + calls.length = c.sarpNum + (calls.length + 1)
        omega
      · intro i before
        rw [kept i (Nat.lt_succ_of_lt before)]
        exact Function.update_of_ne (Nat.ne_of_lt before) _ _
      · intro i later found
        cases i with
        | zero =>
            obtain rfl : call = later := by simpa using found
            rw [Nat.add_zero, kept c.sarpNum (Nat.lt_succ_self _)]
            simp only [Function.update_self]
            exact ⟨rfl, rfl, _, rfl⟩
        | succ i =>
            have here := entries i later found
            rwa [show c.sarpNum + 1 + i = c.sarpNum + (i + 1) by omega] at here

/-- The seventeenth call writes behind the table. -/
theorem sarpBuild_full {calls : List SarpCall} : ∀ {c : SarpConfig},
    c.sarpNum ≤ staticArpNum → staticArpNum < c.sarpNum + calls.length →
      sarpBuild inetAddr calls c = none := by
  induction calls with
  | nil =>
      intro c le more
      rw [List.length_nil] at more
      omega
  | cons call calls ih =>
      intro c le more
      rw [List.length_cons] at more
      rw [sarpBuild, sarpSet]
      split
      · rename_i free
        apply ih
        · exact free
        · show staticArpNum < c.sarpNum + 1 + calls.length
          omega
      · rfl

/-! ## The MAC address -/

theorem hexDigit_range {c : Char} {d : Nat} (digit : hexDigit c = some d) :
    48 ≤ c.toNat ∧ d < 16 := by
  unfold hexDigit at digit
  simp only [Char.le_def, UInt32.le_iff_toNat_le] at digit
  have code : c.val.toNat = c.toNat := rfl
  have codes : '0'.toNat = 48 ∧ '9'.toNat = 57 ∧ 'a'.toNat = 97 ∧ 'f'.toNat = 102 ∧
    'A'.toNat = 65 ∧ 'F'.toNat = 70 := by decide
  simp only [← Char.toNat_val] at *
  split at digit
  · simp only [Option.some.injEq] at digit
    omega
  split at digit
  · simp only [Option.some.injEq] at digit
    omega
  split at digit
  · simp only [Option.some.injEq] at digit
    omega
  · cases digit

theorem scanHex_octet {a b : Char} {o : UInt8} (two : octet a b = some o) {rest : List Char}
    (stops : rest = [] ∨ ∃ more, rest = ':' :: more) :
    ∃ word, scanHex (a :: b :: rest) = some (word, rest) ∧ word.toUInt8 = o := by
  obtain ⟨x, first, two⟩ := Option.bind_eq_some_iff.mp two
  obtain ⟨y, second, rfl⟩ := Option.map_eq_some_iff.mp two
  have high := hexDigit_range first
  have low := hexDigit_range second
  have space : isSpace a = false := by
    have other : a ≠ ' ' := by
      rintro rfl
      simp [hexDigit] at first
    have code : ¬ a.toNat ≤ 13 := by omega
    simp [isSpace, other, code]
  have minus : a ≠ '-' := by
    rintro rfl
    simp [hexDigit] at first
  have plus : a ≠ '+' := by
    rintro rfl
    simp [hexDigit] at first
  have lower : b ≠ 'x' := by
    rintro rfl
    simp [hexDigit] at second
  have upper : b ≠ 'X' := by
    rintro rfl
    simp [hexDigit] at second
  have digits : scanDigits 0 (a :: b :: rest) = (16 * x + y, rest) := by
    rcases stops with rfl | ⟨more, rfl⟩
    · simp [scanDigits, first, second]
    · have colon : hexDigit ':' = none := by decide
      simp [scanDigits, first, second, colon]
  refine ⟨.ofNat (16 * x + y), ?_, ?_⟩
  · simp [scanHex, space, scanSign, minus, plus, scan0x, lower, upper, first, digits]
    intro huge
    omega
  · simp

theorem scanStore_self (bytes : Nat → UInt8) (i : Nat) (word : UInt32) :
    scanStore bytes i word i = word.toUInt8 := by simp [scanStore]

theorem scanStore_before {bytes : Nat → UInt8} {i j : Nat} {word : UInt32} (before : j < i) :
    scanStore bytes i word j = bytes j := by simp [scanStore, Nat.not_le.mpr before]

/-- The numbers that follow are written behind. -/
theorem sscanfHaddr_before (rounds : Nat) {i j : Nat} {text : List Char} {bytes : Nat → UInt8}
    (before : j < i) : sscanfHaddr rounds i text bytes j = bytes j := by
  fun_induction sscanfHaddr rounds i text bytes with
  | case1 => rfl
  | case2 => rfl
  | case3 rounds i text bytes word _ rest ih =>
      rw [ih (Nat.lt_succ_of_lt before), scanStore_before before]
  | case4 => exact scanStore_before before

theorem macOf_cons {text : List Char} {o : UInt8} {mac : List UInt8}
    (isMac : macOf text = some (o :: mac)) : ∃ a b rest, text = a :: b :: rest ∧
      octet a b = some o ∧ ((rest = [] ∧ mac = []) ∨
        ∃ more, rest = ':' :: more ∧ macOf more = some mac) := by
  unfold macOf at isMac
  split at isMac
  · rename_i a b
    obtain ⟨o', two, same⟩ := Option.map_eq_some_iff.mp isMac
    simp only [List.cons.injEq] at same
    obtain ⟨rfl, rfl⟩ := same
    exact ⟨a, b, [], rfl, two, .inl ⟨rfl, rfl⟩⟩
  · rename_i a b more
    obtain ⟨o', two, rest⟩ := Option.bind_eq_some_iff.mp isMac
    obtain ⟨mac', later, same⟩ := Option.map_eq_some_iff.mp rest
    simp only [List.cons.injEq] at same
    obtain ⟨rfl, rfl⟩ := same
    exact ⟨a, b, ':' :: more, rfl, two, .inr ⟨more, rfl, later⟩⟩
  · cases isMac

/-- **What `sscanf` leaves**: the byte of each number, as the words it is written with are
overwritten behind their first byte. -/
theorem sscanfHaddr_mac (mac : List UInt8) : ∀ (i : Nat) {text : List Char} (bytes : Nat → UInt8),
    macOf text = some mac → ∀ (k : Nat) (o : UInt8), mac[k]? = some o →
      sscanfHaddr mac.length i text bytes (i + k) = o := by
  induction mac with
  | nil =>
      intro i text bytes _ k o found
      simp at found
  | cons first mac ih =>
      intro i text bytes isMac k o found
      obtain ⟨a, b, rest, rfl, two, ends⟩ := macOf_cons isMac
      have stops : rest = [] ∨ ∃ more, rest = ':' :: more := by
        rcases ends with ⟨nil, -⟩ | ⟨more, colon, -⟩
        · exact .inl nil
        · exact .inr ⟨more, colon⟩
      obtain ⟨word, scanned, byte⟩ := scanHex_octet two stops
      rw [List.length_cons, sscanfHaddr, scanned]
      rcases ends with ⟨rfl, rfl⟩ | ⟨more, rfl, later⟩
      · cases k with
        | zero =>
            obtain rfl : first = o := by simpa using found
            exact (scanStore_self bytes i word).trans byte
        | succ k => simp at found
      · cases k with
        | zero =>
            obtain rfl : first = o := by simpa using found
            show sscanfHaddr mac.length (i + 1) more (scanStore bytes i word) i = first
            rw [sscanfHaddr_before mac.length (Nat.lt_succ_self i), scanStore_self, byte]
        | succ k =>
            have here := ih (i + 1) (scanStore bytes i word) later k o found
            rwa [show i + 1 + k = i + (k + 1) by omega] at here

theorem haddr_mac {entry : ArpTable} {mac : List UInt8} (of : EntryOf inetAddr call entry)
    (isMac : macOf call.haddr.toList = some mac) (length : mac.length = ethAlen) :
    entry.haddr = mac := by
  obtain ⟨before, bytes⟩ := of.bytes
  apply List.ext_getElem
  · simp [ArpTable.haddr, length]
  · intro k bound bound'
    have byte := sscanfHaddr_mac mac 0 before isMac k _
      (List.getElem?_eq_getElem bound')
    rw [length, Nat.zero_add] at byte
    simp only [ArpTable.haddr, List.getElem_map, List.getElem_range, bytes]
    exact byte

/-! ## The law -/

/-- What the loop finds is what it should find, unless another host is in the way. -/
theorem found_iff {calls : List SarpCall} (masks : ∀ call ∈ calls, call.mask ≤ 32) :
    (calls.findIdx? fun call =>
        decide (ipMasked (inetAddr call.dip) call.mask = ipMasked dst call.mask)) =
      firstContaining inetAddr calls dst ↔ OthersBehind inetAddr calls dst := by
  rw [firstContaining, findIdx?_eq_iff]
  · refine forall_congr' fun k => forall_congr' fun call => forall_congr' fun found => ?_
    have test : ipMasked (inetAddr call.dip) call.mask = ipMasked dst call.mask ↔
        call.mask = 32 ∨ Contains inetAddr call dst :=
      ipMasked_eq_iff (masks call (List.mem_of_getElem? found))
    simp only [decide_eq_true_eq, decide_eq_false_iff_not]
    constructor
    · intro late host other
      exact late (test.mpr (.inl host)) fun contains => other ((contains_host host).mp contains)
    · intro late yes no
      have host := (test.mp yes).resolve_right no
      exact late host fun same => no ((contains_host host).mpr same)
  · intro call member contains
    simp only [decide_eq_true_eq] at contains ⊢
    exact (ipMasked_eq_iff (masks call member)).mpr (.inr contains)

/-- **Exactly when a lookup is right.**  For every table of entries with masks up to 32 and every
address: `sarp_lookup` finds the first entry the address belongs to, with its MAC address, if and
only if there are no more than `STATIC_ARP_NUM` entries, and an entry for another host comes behind
one that the address belongs to. -/
theorem sarp_law (inetAddr : String → UInt32) (calls : List SarpCall)
    (masks : ∀ call ∈ calls, call.mask ≤ 32) (dst : UInt32) :
    Correct inetAddr calls dst ↔
      calls.length ≤ staticArpNum ∧ OthersBehind inetAddr calls dst := by
  by_cases room : calls.length ≤ staticArpNum
  · obtain ⟨c, built, num, -, entries⟩ := @sarpBuild_spec inetAddr calls {}
      ((Nat.zero_add _).le.trans room)
    have num' : c.sarpNum = calls.length := num.trans (Nat.zero_add _)
    have entry : ∀ (i : Nat) (call : SarpCall), calls[i]? = some call →
        EntryOf inetAddr call (c.sarpTable i) := by
      intro i call found
      have here := entries i call found
      rwa [show ({} : SarpConfig).sarpNum + i = i from Nat.zero_add i] at here
    have lookup : sarpLookup c dst = calls.findIdx? fun call =>
        decide (ipMasked (inetAddr call.dip) call.mask = ipMasked dst call.mask) := by
      rw [sarpLookup, num', @sarpLoop_eq inetAddr dst c calls 0]
      · simp
      · intro j call found
        rw [Nat.zero_add]
        exact ⟨(entry j call found).ip, (entry j call found).ipMask⟩
    rw [and_iff_right room, ← found_iff masks, ← lookup]
    constructor
    · rintro ⟨c', built', found, -⟩
      obtain rfl : c = c' := Option.some_inj.mp (built.symm.trans built')
      exact found
    · intro found
      exact ⟨c, built, found, fun i call mac at_ isMac length =>
        haddr_mac (entry i call at_) isMac length⟩
  · refine iff_of_false ?_ fun both => room both.1
    rintro ⟨c, built, -⟩
    have full := @sarpBuild_full inetAddr calls {} (Nat.zero_le staticArpNum)
      ((Nat.not_le.mp room).trans_eq (Nat.zero_add _).symm)
    simp [full] at built

/-- `inet_addr`, for the texts used here -/
def addresses (dip : String) : UInt32 :=
  if dip = "10.0.0.0" then 0x0000000a
  else if dip = "10.0.0.1" then 0x0100000a
  else 0xffffffff

/-- Two entries, the host last, and an address of the net -/
theorem sarp_law_net :
    Correct addresses [⟨"10.0.0.0", 8, "00:1b:21:0a:0B:0c"⟩, ⟨"10.0.0.1", 32, "00:1b:21:0a:0b:0d"⟩]
      0x0200000a := by
  apply (sarp_law addresses _ (by decide) _).mpr
  refine ⟨by decide, fun k call found host other => ⟨0, ?_, _, rfl, by decide⟩⟩
  cases k with
  | zero =>
      obtain rfl : _ = call := by simpa using found
      exact absurd host (by decide)
  | succ k => exact Nat.succ_pos k

/-- **An entry for one host answers for all others**: 10.0.0.2 gets the MAC address of 10.0.0.1. -/
theorem host_matches_all :
    ¬ ∀ (inetAddr : String → UInt32) (calls : List SarpCall) (dst : UInt32),
      (∀ call ∈ calls, call.mask ≤ 32) → Correct inetAddr calls dst := by
  intro all
  obtain ⟨c, built, found, -⟩ :=
    all addresses [⟨"10.0.0.1", 32, "00:1b:21:0a:0b:0d"⟩] 0x0200000a (by decide)
  have nothing : firstContaining addresses [⟨"10.0.0.1", 32, "00:1b:21:0a:0b:0d"⟩] 0x0200000a =
      none := by decide
  rw [nothing] at found
  obtain rfl := Option.some_inj.mp (built : some _ = some c)
  exact absurd found (by decide)

end QStack
