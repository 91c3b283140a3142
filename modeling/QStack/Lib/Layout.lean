/-
# QStack.Lib.Layout -- bytes in a memory, and the words they make

A memory gives each address a byte.  `store` overwrites a range with a list of bytes, `load` reads
a range back.  What is loaded from inside a stored range is the slice of the list that was stored
there (`load_store_slice`), and what is loaded from outside is what was there before
(`load_store_apart`); a record that is stored as one list of bytes is read back field by field with
these two.  Words have the low byte first.
-/
import Mathlib.Data.List.Basic

namespace QStack.Lib.Layout

set_option autoImplicit false

abbrev Mem : Type := Nat → UInt8

def store (mem : Mem) (addr : Nat) (bytes : List UInt8) : Mem := fun i =>
  if addr ≤ i then (bytes[i - addr]?).getD (mem i) else mem i

def load (mem : Mem) (addr n : Nat) : List UInt8 := (List.range n).map fun i => mem (addr + i)

section Ranges

variable {mem mem' : Mem} {addr start n : Nat} {bytes : List UInt8}

@[simp] theorem load_length : (load mem addr n).length = n := by
  rw [load, List.length_map, List.length_range]

theorem store_inside {i : Nat} (inside : i < bytes.length) :
    store mem addr bytes (addr + i) = bytes[i] := by
  rw [store, if_pos (Nat.le_add_right _ _), Nat.add_sub_cancel_left,
    List.getElem?_eq_getElem inside, Option.getD_some]

theorem store_outside {i : Nat} (outside : i < addr ∨ addr + bytes.length ≤ i) :
    store mem addr bytes i = mem i := by
  rw [store]
  split
  · rw [List.getElem?_eq_none (by omega), Option.getD_none]
  · rfl

theorem load_congr (same : ∀ i, addr ≤ i → i < addr + n → mem i = mem' i) :
    load mem addr n = load mem' addr n := by
  apply List.map_congr_left
  intro i inside
  rw [List.mem_range] at inside
  exact same _ (Nat.le_add_right _ _) (by omega)

theorem load_store_apart (apart : start + n ≤ addr ∨ addr + bytes.length ≤ start) :
    load (store mem addr bytes) start n = load mem start n :=
  load_congr fun _ _ _ => store_outside (by omega)

theorem load_store_slice {k : Nat} (inside : k + n ≤ bytes.length) :
    load (store mem addr bytes) (addr + k) n = (bytes.drop k).take n := by
  apply List.ext_getElem
  · rw [load_length, List.length_take, List.length_drop]
    omega
  · intro i hi _
    rw [load_length] at hi
    simp only [load, List.getElem_map, List.getElem_range, List.getElem_take, List.getElem_drop]
    rw [Nat.add_assoc, store_inside (by omega)]

theorem load_store : load (store mem addr bytes) addr bytes.length = bytes := by
  have whole := @load_store_slice mem addr bytes.length bytes 0 (by omega)
  rwa [Nat.add_zero, List.drop_zero, List.take_length] at whole

theorem load_append (m : Nat) :
    load mem addr (m + n) = load mem addr m ++ load mem (addr + m) n := by
  rw [load, List.range_add, List.map_append, List.map_map]
  congr 1
  apply List.map_congr_left
  intro i _
  show mem (addr + (m + i)) = mem (addr + m + i)
  rw [Nat.add_assoc]

theorem take_load {k : Nat} (inside : k ≤ n) : (load mem addr n).take k = load mem addr k := by
  obtain ⟨rest, rfl⟩ := Nat.exists_eq_add_of_le inside
  rw [load_append]
  exact List.take_left' load_length

theorem drop_load {k : Nat} (inside : k ≤ n) :
    (load mem addr n).drop k = load mem (addr + k) (n - k) := by
  obtain ⟨rest, rfl⟩ := Nat.exists_eq_add_of_le inside
  rw [load_append, Nat.add_sub_cancel_left]
  exact List.drop_left' load_length

/-- A store inside the range that is loaded -/
theorem load_store_within {k : Nat} (inside : k + bytes.length ≤ n) :
    load (store mem (addr + k) bytes) addr n =
      (load mem addr n).take k ++ bytes ++ (load mem addr n).drop (k + bytes.length) := by
  obtain ⟨rest, rfl⟩ := Nat.exists_eq_add_of_le inside
  rw [take_load (by omega), drop_load inside, Nat.add_sub_cancel_left, load_append, load_append,
    load_store, load_store_apart (by omega), load_store_apart (by omega)]

end Ranges

/-! ## Words -/

def bytes16 (w : UInt16) : List UInt8 := [.ofNat w.toNat, .ofNat (w.toNat / 256)]

@[simp] theorem bytes16_length (w : UInt16) : (bytes16 w).length = 2 := rfl

def word16 : List UInt8 → UInt16
  | [a, b] => .ofNat (a.toNat + 256 * b.toNat)
  | _ => 0

def bytes32 (w : UInt32) : List UInt8 :=
  [.ofNat w.toNat, .ofNat (w.toNat / 256), .ofNat (w.toNat / 65536), .ofNat (w.toNat / 16777216)]

def word32 : List UInt8 → UInt32
  | [a, b, c, d] => .ofNat (a.toNat + 256 * b.toNat + 65536 * c.toNat + 16777216 * d.toNat)
  | _ => 0

@[simp] theorem word16_bytes16 (w : UInt16) : word16 (bytes16 w) = w := by
  have bound : w.toNat < 2 ^ 16 := w.toNat_lt
  rw [bytes16, word16]
  apply UInt16.toNat.inj
  simp only [UInt8.toNat_ofNat', UInt16.toNat_ofNat']
  omega

@[simp] theorem word32_bytes32 (w : UInt32) : word32 (bytes32 w) = w := by
  have bound : w.toNat < 2 ^ 32 := w.toNat_lt
  rw [bytes32, word32]
  apply UInt32.toNat.inj
  simp only [UInt8.toNat_ofNat', UInt32.toNat_ofNat']
  omega

/-- Two fields of four bits in a byte, the high one first -/
def nibbles (high low : BitVec 4) : UInt8 := .ofBitVec (high ++ low)

def highNibble (byte : UInt8) : BitVec 4 := byte.toBitVec.extractLsb' 4 4
def lowNibble (byte : UInt8) : BitVec 4 := byte.toBitVec.extractLsb' 0 4

@[simp] theorem highNibble_nibbles (high low : BitVec 4) :
    highNibble (nibbles high low) = high := by
  show (high ++ low : BitVec (4 + 4)).extractLsb' 4 4 = high
  exact BitVec.extractLsb'_append_eq_left

@[simp] theorem lowNibble_nibbles (high low : BitVec 4) :
    lowNibble (nibbles high low) = low := by
  show (high ++ low : BitVec (4 + 4)).extractLsb' 0 4 = low
  exact BitVec.extractLsb'_append_eq_right

end QStack.Lib.Layout
