/-
# QStack.Checksum -- tcp_csum

`tcp_csum` adds up the packet in words of the host, which is little-endian, and the pseudo header in
the same order, folds the carries at the end and complements.  `internetChecksum` is what it should
be: the complement of the one's complement sum of the words in network order.  The order of the
bytes does not matter to such a sum as long as the result is stored in the same order, and the
32-bit accumulator is wide enough for a packet of 65535 bytes, so the two agree
(`tcpCsum_internet`), and a segment that carries its checksum adds up to all ones
(`tcpCsum_verifies`).

The last byte of an odd packet is read as a word; the byte behind the packet is masked out.
-/
import QStack.Lib.OnesComplement
import Mathlib.Logic.Function.Basic

namespace QStack

set_option autoImplicit false

open Lib.OnesComplement

/-! ## The code -/

/-- `htons` and `ntohs` of a little-endian host -/
def htons (x : UInt16) : UInt16 := .ofNat (swap 256 x.toNat)

/-- `IPPROTO_TCP`, as the pseudo header has it. -/
def pseudoProtocol : UInt16 := 6

/-- The word at `w`, as the host loads it. -/
def loadWord (buf : Nat → UInt8) (w : Nat) : UInt16 :=
  .ofNat ((buf (2 * w)).toNat + 256 * (buf (2 * w + 1)).toNat)

/-- The loop of `tcp_csum`: `nleft`, `w` and `sum` when it ends. -/
def csumLoop (buf : Nat → UInt8) : Nat → Nat → UInt32 → Nat × Nat × UInt32
  | nleft + 2, w, sum => csumLoop buf nleft (w + 1) (sum + (loadWord buf w).toUInt32)
  | nleft, w, sum => (nleft, w, sum)

/-- `sum` with the pseudo header added -/
def csumAcc (buf : Nat → UInt8) (len : UInt16) (saddr daddr : UInt32) : UInt32 :=
  match csumLoop buf len.toNat 0 0 with
  | (nleft, w, sum) =>
      let sum := if nleft ≠ 0 then sum + (loadWord buf w &&& htons 0xFF00).toUInt32 else sum
      let sum := sum + ((saddr &&& (0x0000FFFF : UInt32)) + (saddr >>> 16))
      let sum := sum + ((daddr &&& (0x0000FFFF : UInt32)) + (daddr >>> 16))
      let sum := sum + (htons len).toUInt32
      sum + (htons pseudoProtocol).toUInt32

def tcpCsum (buf : Nat → UInt8) (len : UInt16) (saddr daddr : UInt32) : UInt16 :=
  let sum := csumAcc buf len saddr daddr
  let sum := (sum >>> 16) + (sum &&& 0xFFFF)
  let sum := sum + (sum >>> 16)
  (~~~sum).toUInt16

/-! ## The Internet checksum -/

/-- Bytes as words in network order, the last one padded with a zero byte. -/
def networkWords : List UInt8 → List Nat
  | hi :: lo :: rest => (hi.toNat * 256 + lo.toNat) :: networkWords rest
  | [hi] => [hi.toNat * 256]
  | [] => []

/-- The complement of the one's complement sum. -/
def internetChecksum (bytes : List UInt8) : Nat := 0xFFFF - sum 0xFFFF (networkWords bytes)

/-- A 32-bit value as it stands in memory, for an address in network order. -/
def addrBytes (addr : UInt32) : List UInt8 :=
  [.ofNat addr.toNat, .ofNat (addr.toNat / 2 ^ 8), .ofNat (addr.toNat / 2 ^ 16),
    .ofNat (addr.toNat / 2 ^ 24)]

/-- Source, destination, zero, protocol and length. -/
def pseudoHeader (saddr daddr : UInt32) (len : UInt16) : List UInt8 :=
  addrBytes saddr ++ addrBytes daddr ++
    [0, pseudoProtocol.toUInt8, .ofNat (len.toNat / 256), .ofNat len.toNat]

/-- `len` bytes from `start` on -/
def bytesFrom (buf : Nat → UInt8) (start len : Nat) : List UInt8 :=
  (List.range' start len).map buf

/-- What the checksum of a segment covers. -/
def covered (buf : Nat → UInt8) (len : UInt16) (saddr daddr : UInt32) : List UInt8 :=
  pseudoHeader saddr daddr len ++ bytesFrom buf 0 len.toNat

/-! ## Words of the host -/

/-- The words as the host reads them. -/
def hostWords (bytes : List UInt8) : List Nat := (networkWords bytes).map (swap 256)

theorem swap_word (hi lo : UInt8) :
    swap 256 (hi.toNat * 256 + lo.toNat) = hi.toNat + 256 * lo.toNat := by
  have low := lo.toNat_lt
  unfold swap
  omega

theorem hostWords_cons (hi lo : UInt8) (rest : List UInt8) :
    hostWords (hi :: lo :: rest) = (hi.toNat + 256 * lo.toNat) :: hostWords rest :=
  congrArg (· :: hostWords rest) (swap_word hi lo)

theorem hostWords_single (hi : UInt8) : hostWords [hi] = [hi.toNat] := by
  have word := swap_word hi 0
  rw [UInt8.toNat_zero, Nat.add_zero, Nat.mul_zero, Nat.add_zero] at word
  rw [hostWords, networkWords, List.map_singleton, word]

theorem networkWords_le (bytes : List UInt8) : ∀ x ∈ networkWords bytes, x ≤ 0xFFFF := by
  induction bytes using networkWords.induct with
  | case1 hi lo rest ih =>
      have high := hi.toNat_lt
      have low := lo.toNat_lt
      rw [networkWords]
      exact List.forall_mem_cons.mpr ⟨by omega, ih⟩
  | case2 hi =>
      have high := hi.toNat_lt
      rw [networkWords]
      exact List.forall_mem_cons.mpr ⟨by omega, fun x mem => by cases mem⟩
  | case3 => exact fun x mem => by cases mem

/-- In words of the host the checksum has its bytes in the other order. -/
theorem internetChecksum_host (bytes : List UInt8) :
    0xFFFF - reduce 0xFFFF (hostWords bytes).sum = swap 256 (internetChecksum bytes) := by
  have total : reduce 0xFFFF (hostWords bytes).sum = swap 256 (sum 0xFFFF (networkWords bytes)) := by
    rw [sum_eq_reduce (by decide) (networkWords_le bytes)]
    exact reduce_sum_swap (by decide) (by decide) (by decide) _
  have bound : sum 0xFFFF (networkWords bytes) ≤ 0xFFFF := by
    rw [sum_eq_reduce (by decide) (networkWords_le bytes)]
    exact reduce_le (by decide) _
  rw [total, internetChecksum]
  generalize sum 0xFFFF (networkWords bytes) = s at bound
  unfold swap
  omega

/-! ## The accumulator -/

theorem loadWord_toNat (buf : Nat → UInt8) (w : Nat) :
    (loadWord buf w).toNat = (buf (2 * w)).toNat + 256 * (buf (2 * w + 1)).toNat := by
  have low := (buf (2 * w)).toNat_lt
  have high := (buf (2 * w + 1)).toNat_lt
  rw [loadWord, UInt16.toNat_ofNat']
  omega

theorem htons_toNat (x : UInt16) : (htons x).toNat = swap 256 x.toNat := by
  have bound := x.toNat_lt
  have small := swap_le (b := 256) (m := 0xFFFF) (by decide) (by decide) (Nat.lt_succ_iff.mp bound)
  rw [htons, UInt16.toNat_ofNat']
  omega

/-- The mask leaves the first byte of a word. -/
theorem lastByte_toNat (buf : Nat → UInt8) (w : Nat) :
    (loadWord buf w &&& htons 0xFF00).toNat = (buf (2 * w)).toNat := by
  have low := (buf (2 * w)).toNat_lt
  have mask : (htons 0xFF00).toNat = 2 ^ 8 - 1 := by decide
  rw [UInt16.toNat_and, mask, Nat.and_two_pow_sub_one_eq_mod, loadWord_toNat]
  omega

/-- What the loop and the odd byte add to `sum`. -/
def bodySum (buf : Nat → UInt8) : Nat → Nat → Nat
  | nleft + 2, w => (loadWord buf w).toNat + bodySum buf nleft (w + 1)
  | 1, w => (buf (2 * w)).toNat
  | 0, _ => 0

theorem bodySum_host (buf : Nat → UInt8) (nleft w : Nat) :
    bodySum buf nleft w = (hostWords (bytesFrom buf (2 * w) nleft)).sum := by
  induction nleft, w using bodySum.induct with
  | case1 nleft w ih =>
      have bytes : bytesFrom buf (2 * w) (nleft + 2) =
          buf (2 * w) :: buf (2 * w + 1) :: bytesFrom buf (2 * (w + 1)) nleft := rfl
      rw [bodySum, ih, bytes, hostWords_cons, List.sum_cons, loadWord_toNat]
  | case2 w => exact congrArg List.sum (hostWords_single (buf (2 * w))).symm
  | case3 => rfl

theorem bodySum_le (buf : Nat → UInt8) (nleft w : Nat) :
    bodySum buf nleft w ≤ 0xFFFF * ((nleft + 1) / 2) := by
  induction nleft, w using bodySum.induct with
  | case1 nleft w ih =>
      have word := (loadWord buf w).toNat_lt
      rw [bodySum]
      omega
  | case2 w =>
      have byte := (buf (2 * w)).toNat_lt
      rw [bodySum]
      omega
  | case3 w => exact Nat.zero_le _

/-- The loop adds exactly, as long as the accumulator can hold what it adds. -/
theorem csumLoop_spec (buf : Nat → UInt8) : ∀ (nleft w : Nat) (sum : UInt32),
    sum.toNat + bodySum buf nleft w < 2 ^ 32 →
      (csumLoop buf nleft w sum).1 ≤ 1 ∧
        (csumLoop buf nleft w sum).2.2.toNat +
          (if (csumLoop buf nleft w sum).1 ≠ 0 then
            (buf (2 * (csumLoop buf nleft w sum).2.1)).toNat else 0) =
          sum.toNat + bodySum buf nleft w := by
  intro nleft w
  induction nleft, w using bodySum.induct with
  | case1 nleft w ih =>
      intro sum fits
      rw [bodySum] at fits ⊢
      have word := (loadWord buf w).toNat_lt
      have added : (sum + (loadWord buf w).toUInt32).toNat = sum.toNat + (loadWord buf w).toNat := by
        rw [UInt32.toNat_add, UInt16.toNat_toUInt32, Nat.mod_eq_of_lt (by omega)]
      have rest := ih (sum + (loadWord buf w).toUInt32) (by rw [added]; omega)
      rw [added, Nat.add_assoc] at rest
      rw [csumLoop]
      exact rest
  | case2 w => exact fun sum _ => ⟨Nat.le_refl 1, rfl⟩
  | case3 w => exact fun sum _ => ⟨Nat.zero_le 1, rfl⟩

/-- The two halves of an address are the words of its bytes. -/
theorem halves_toNat (addr : UInt32) :
    ((addr &&& (0x0000FFFF : UInt32)) + (addr >>> 16)).toNat =
      addr.toNat % 2 ^ 16 + addr.toNat / 2 ^ 16 := by
  have bound := addr.toNat_lt
  have low : (addr &&& (0x0000FFFF : UInt32)).toNat = addr.toNat % 2 ^ 16 := by
    rw [UInt32.toNat_and]
    exact Nat.and_two_pow_sub_one_eq_mod _ 16
  have high : (addr >>> 16).toNat = addr.toNat / 2 ^ 16 := by
    rw [UInt32.toNat_shiftRight]
    exact Nat.shiftRight_eq_div_pow _ 16
  rw [UInt32.toNat_add, low, high, Nat.mod_eq_of_lt (by omega)]

theorem hostWords_addr (addr : UInt32) (rest : List UInt8) :
    (hostWords (addrBytes addr ++ rest)).sum =
      addr.toNat % 2 ^ 16 + addr.toNat / 2 ^ 16 + (hostWords rest).sum := by
  have bound := addr.toNat_lt
  rw [addrBytes]
  simp only [List.cons_append, List.nil_append, hostWords_cons, List.sum_cons, UInt8.toNat_ofNat']
  omega

/-- The exact sum of all the words. -/
def csumTotal (buf : Nat → UInt8) (len : UInt16) (saddr daddr : UInt32) : Nat :=
  (hostWords (covered buf len saddr daddr)).sum

theorem csumTotal_eq (buf : Nat → UInt8) (len : UInt16) (saddr daddr : UInt32) :
    csumTotal buf len saddr daddr = bodySum buf len.toNat 0 +
      (saddr.toNat % 2 ^ 16 + saddr.toNat / 2 ^ 16) +
      (daddr.toNat % 2 ^ 16 + daddr.toNat / 2 ^ 16) + (htons len).toNat +
      (htons pseudoProtocol).toNat := by
  have bound := len.toNat_lt
  rw [csumTotal, covered, pseudoHeader, List.append_assoc, List.append_assoc, hostWords_addr,
    hostWords_addr, bodySum_host, htons_toNat, htons_toNat]
  simp only [List.cons_append, List.nil_append, hostWords_cons, List.sum_cons, UInt8.toNat_ofNat',
    swap]
  have protocol : pseudoProtocol.toNat = 6 := rfl
  have zero : (0 : UInt8).toNat = 0 := rfl
  have byte : pseudoProtocol.toUInt8.toNat = 6 := rfl
  rw [protocol, zero, byte]
  generalize (hostWords _).sum = body
  omega

theorem csumTotal_le (buf : Nat → UInt8) (len : UInt16) (saddr daddr : UInt32) :
    csumTotal buf len saddr daddr ≤ 0xFFFF * 0x8006 := by
  have bound := len.toNat_lt
  have body := bodySum_le buf len.toNat 0
  have source := saddr.toNat_lt
  have destination := daddr.toNat_lt
  have length := (htons len).toNat_lt
  have protocol : (htons pseudoProtocol).toNat = 0x0600 := by decide
  rw [csumTotal_eq]
  omega

/-- **The accumulator does not overflow**: it is the exact sum. -/
theorem csumAcc_toNat (buf : Nat → UInt8) (len : UInt16) (saddr daddr : UInt32) :
    (csumAcc buf len saddr daddr).toNat = csumTotal buf len saddr daddr := by
  have bound := csumTotal_le buf len saddr daddr
  have total := csumTotal_eq buf len saddr daddr
  rw [total] at bound
  have loop := csumLoop_spec buf len.toNat 0 0 (by rw [UInt32.toNat_zero]; omega)
  rw [UInt32.toNat_zero, Nat.zero_add] at loop
  rw [total]
  unfold csumAcc
  generalize csumLoop buf len.toNat 0 0 = result at loop ⊢
  obtain ⟨nleft, w, sum⟩ := result
  obtain ⟨-, body⟩ := loop
  dsimp only at body ⊢
  have odd : (if nleft ≠ 0 then sum + (loadWord buf w &&& htons 0xFF00).toUInt32 else sum).toNat =
      bodySum buf len.toNat 0 := by
    split
    · rename_i some_
      rw [if_pos some_] at body
      rw [UInt32.toNat_add, UInt16.toNat_toUInt32, lastByte_toNat, body, Nat.mod_eq_of_lt (by omega)]
    · rename_i none_
      rw [if_neg none_] at body
      exact body
  generalize (if nleft ≠ 0 then sum + (loadWord buf w &&& htons 0xFF00).toUInt32 else sum) = body'
    at odd
  have source := halves_toNat saddr
  have destination := halves_toNat daddr
  generalize (saddr &&& (0x0000FFFF : UInt32)) + (saddr >>> 16) = src at source ⊢
  generalize (daddr &&& (0x0000FFFF : UInt32)) + (daddr >>> 16) = dst at destination ⊢
  rw [UInt32.toNat_add, UInt32.toNat_add, UInt32.toNat_add, UInt32.toNat_add,
    UInt16.toNat_toUInt32, UInt16.toNat_toUInt32, odd, source, destination]
  omega

/-! ## The result -/

/-- Twice folding is enough for a sum of so few words. -/
theorem fold_twice {total : Nat} (bound : total ≤ 0xFFFF * 0x8006) :
    (total / 2 ^ 16 + total % 2 ^ 16 + (total / 2 ^ 16 + total % 2 ^ 16) / 2 ^ 16) % 2 ^ 16 =
      reduce 0xFFFF total := by
  have once := reduce_fold (m := 0xFFFF) total
  have high : total / 2 ^ 16 ≤ 0x8006 := by omega
  have low : total % 2 ^ 16 < 2 ^ 16 := Nat.mod_lt _ (by decide)
  rw [← once]
  change _ = reduce 0xFFFF (total / 2 ^ 16 + total % 2 ^ 16)
  generalize total / 2 ^ 16 = h at high
  generalize total % 2 ^ 16 = l at low
  by_cases carries : h + l ≤ 0xFFFF
  · rw [reduce_of_le carries]
    omega
  · have again := reduce_fold (m := 0xFFFF) (h + l)
    have small : (h + l) / (0xFFFF + 1) + (h + l) % (0xFFFF + 1) ≤ 0xFFFF := by omega
    rw [← again, reduce_of_le small]
    omega

/-- The value, in words of the host. -/
theorem tcpCsum_toNat (buf : Nat → UInt8) (len : UInt16) (saddr daddr : UInt32) :
    (tcpCsum buf len saddr daddr).toNat =
      0xFFFF - reduce 0xFFFF (csumTotal buf len saddr daddr) := by
  have bound := csumTotal_le buf len saddr daddr
  have exact_ := csumAcc_toNat buf len saddr daddr
  have folded := fold_twice bound
  unfold tcpCsum
  dsimp only
  generalize csumAcc buf len saddr daddr = acc at exact_
  generalize csumTotal buf len saddr daddr = total at bound exact_ folded
  have low : (acc &&& (0xFFFF : UInt32)).toNat = total % 2 ^ 16 := by
    rw [UInt32.toNat_and, exact_]
    exact Nat.and_two_pow_sub_one_eq_mod _ 16
  have high : ∀ x : UInt32, (x >>> 16).toNat = x.toNat / 2 ^ 16 := by
    intro x
    rw [UInt32.toNat_shiftRight]
    exact Nat.shiftRight_eq_div_pow _ 16
  have first : ((acc >>> 16) + (acc &&& (0xFFFF : UInt32))).toNat =
      total / 2 ^ 16 + total % 2 ^ 16 := by
    rw [UInt32.toNat_add, high, low, exact_]
    omega
  generalize (acc >>> 16) + (acc &&& (0xFFFF : UInt32)) = once at first ⊢
  have second : (once + (once >>> 16)).toNat = total / 2 ^ 16 + total % 2 ^ 16 +
      (total / 2 ^ 16 + total % 2 ^ 16) / 2 ^ 16 := by
    rw [UInt32.toNat_add, high, first]
    omega
  generalize once + (once >>> 16) = twice at second ⊢
  have size : UInt32.size = 2 ^ 32 := rfl
  rw [UInt32.toNat_toUInt16, UInt32.toNat_not, second, ← folded, size]
  omega

/-- **`tcp_csum` is the Internet checksum** of the pseudo header and the packet, in the byte order
of the network, and its accumulator does not overflow. -/
theorem tcpCsum_internet (buf : Nat → UInt8) (len : UInt16) (saddr daddr : UInt32) :
    (htons (tcpCsum buf len saddr daddr)).toNat =
      internetChecksum (covered buf len saddr daddr) := by
  have bound : internetChecksum (covered buf len saddr daddr) ≤ 0xFFFF := Nat.sub_le _ _
  rw [htons_toNat, tcpCsum_toNat, csumTotal, internetChecksum_host]
  generalize internetChecksum _ = c at bound
  unfold swap
  omega

/-! ## A segment that carries its checksum -/

/-- The host stores a word at `w`. -/
def storeWord (buf : Nat → UInt8) (w : Nat) (x : UInt16) : Nat → UInt8 :=
  Function.update (Function.update buf (2 * w) (.ofNat x.toNat)) (2 * w + 1)
    (.ofNat (x.toNat / 256))

theorem storeWord_other (buf : Nat → UInt8) (w : Nat) (x : UInt16) {i : Nat}
    (low : i ≠ 2 * w) (high : i ≠ 2 * w + 1) : storeWord buf w x i = buf i := by
  rw [storeWord, Function.update_of_ne high, Function.update_of_ne low]

theorem loadWord_store (buf : Nat → UInt8) (w : Nat) (x : UInt16) :
    (loadWord (storeWord buf w x) w).toNat = x.toNat := by
  have bound := x.toNat_lt
  have low : storeWord buf w x (2 * w) = .ofNat x.toNat := by
    rw [storeWord, Function.update_of_ne (by omega), Function.update_self]
  have high : storeWord buf w x (2 * w + 1) = .ofNat (x.toNat / 256) := Function.update_self ..
  rw [loadWord_toNat, low, high, UInt8.toNat_ofNat', UInt8.toNat_ofNat']
  omega

theorem loadWord_store_other (buf : Nat → UInt8) (k : Nat) (x : UInt16) {w : Nat} (ne : w ≠ k) :
    loadWord (storeWord buf k x) w = loadWord buf w := by
  rw [loadWord, loadWord, storeWord_other buf k x (by omega) (by omega),
    storeWord_other buf k x (by omega) (by omega)]

theorem bodySum_store_before (buf : Nat → UInt8) (k : Nat) (x : UInt16) (nleft w : Nat)
    (before : k < w) : bodySum (storeWord buf k x) nleft w = bodySum buf nleft w := by
  induction nleft, w using bodySum.induct with
  | case1 nleft w ih =>
      rw [bodySum, bodySum, loadWord_store_other buf k x (by omega), ih (by omega)]
  | case2 w =>
      rw [bodySum, bodySum, storeWord_other buf k x (by omega) (by omega)]
  | case3 => rfl

/-- A word stored in place of a zero adds itself. -/
theorem bodySum_store (buf : Nat → UInt8) (k : Nat) (x : UInt16) (nleft w : Nat) (from_ : w ≤ k)
    (inside : 2 * k + 1 < 2 * w + nleft) (zero : loadWord buf k = 0) :
    bodySum (storeWord buf k x) nleft w = bodySum buf nleft w + x.toNat := by
  induction nleft, w using bodySum.induct with
  | case1 nleft w ih =>
      rw [bodySum, bodySum]
      by_cases here : w = k
      · subst here
        rw [loadWord_store, bodySum_store_before buf w x nleft (w + 1) (Nat.lt_succ_self w), zero,
          UInt16.toNat_zero, Nat.zero_add, Nat.add_comm]
      · rw [loadWord_store_other buf k x here, ih (by omega) (by omega), Nat.add_assoc]
  | case2 w => omega
  | case3 w => omega

/-- **A segment verifies** once its checksum is in a field that was zero. -/
theorem tcpCsum_verifies (buf : Nat → UInt8) (len : UInt16) (saddr daddr : UInt32) (field : Nat)
    (inside : 2 * field + 1 < len.toNat) (zero : loadWord buf field = 0) :
    tcpCsum (storeWord buf field (tcpCsum buf len saddr daddr)) len saddr daddr = 0 := by
  have total : csumTotal (storeWord buf field (tcpCsum buf len saddr daddr)) len saddr daddr =
      csumTotal buf len saddr daddr + (0xFFFF - reduce 0xFFFF (csumTotal buf len saddr daddr)) := by
    rw [← tcpCsum_toNat, csumTotal_eq, csumTotal_eq,
      bodySum_store buf field _ len.toNat 0 (Nat.zero_le field) (by omega) zero]
    omega
  have ones := reduce_complement (m := 0xFFFF) (by decide) (csumTotal buf len saddr daddr)
  rw [← UInt16.toNat_inj, tcpCsum_toNat, total, ones]
  rfl

/-- **`tcp_csum` is right**: the accumulator holds the exact sum, the result is the Internet
checksum, and a segment that carries it verifies. -/
theorem tcpCsum_law (buf : Nat → UInt8) (len : UInt16) (saddr daddr : UInt32) :
    (csumAcc buf len saddr daddr).toNat = csumTotal buf len saddr daddr ∧
      (htons (tcpCsum buf len saddr daddr)).toNat =
        internetChecksum (covered buf len saddr daddr) ∧
      ∀ field, 2 * field + 1 < len.toNat → loadWord buf field = 0 →
        tcpCsum (storeWord buf field (tcpCsum buf len saddr daddr)) len saddr daddr = 0 :=
  ⟨csumAcc_toNat buf len saddr daddr, tcpCsum_internet buf len saddr daddr,
    tcpCsum_verifies buf len saddr daddr⟩

/-- A header of zeros between two hosts: the field of the checksum is its word 8. -/
theorem tcpCsum_law_header :
    tcpCsum (storeWord (fun _ => 0) 8 (tcpCsum (fun _ => 0) 20 0x0100000A 0x0200000A)) 20
      0x0100000A 0x0200000A = 0 :=
  (tcpCsum_law (fun _ => 0) 20 0x0100000A 0x0200000A).2.2 8 (by decide) (by decide)

end QStack
