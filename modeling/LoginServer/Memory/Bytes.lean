import Mathlib.Algebra.Group.Int.Defs
import Mathlib.Algebra.Group.Nat.Defs
import Mathlib.Data.List.Basic

namespace LoginServer
namespace Memory

/-!
# Byte memory

A memory assigns a byte to every address.  A block operation of C (`memmove`,
`memcpy`) becomes `read`, which lists the bytes of an interval, and `write`,
which replaces an interval by a list.  Since `read` returns a value, copying
between overlapping intervals needs no separate treatment.

The laws below are the ones block copies are reasoned about with: what a
written interval reads as, what a write leaves alone, and how adjacent
intervals combine.
-/

/-- A `char`, taken as its eight bits. -/
abbrev Byte := BitVec 8

/-- Contents of an address space. -/
abbrev Bytes := Nat -> Byte

/-- The `count` bytes starting at `address`. -/
def read (memory : Bytes) (address count : Nat) : List Byte :=
  (List.range count).map fun offset => memory (address + offset)

/-- Store a list of bytes from `address` on. -/
def write (memory : Bytes) (address : Nat) (bytes : List Byte) : Bytes := fun target =>
  if address ≤ target then bytes[target - address]?.getD (memory target) else memory target

@[simp] theorem read_length (memory : Bytes) (address count : Nat) :
    (read memory address count).length = count := by
  simp [read]

@[simp] theorem read_zero (memory : Bytes) (address : Nat) : read memory address 0 = [] := rfl

@[simp] theorem read_getElem (memory : Bytes) (address count offset : Nat)
    (inside : offset < (read memory address count).length) :
    (read memory address count)[offset] = memory (address + offset) := by
  simp [read]

/-- Two intervals read alike exactly when their bytes agree pointwise. -/
theorem read_eq_iff (left right : Bytes) (leftAddress rightAddress count : Nat) :
    read left leftAddress count = read right rightAddress count ↔
      forall offset, offset < count ->
        left (leftAddress + offset) = right (rightAddress + offset) := by
  constructor
  · intro equal offset inside
    have entry := congrArg (fun bytes => bytes[offset]?) equal
    simpa [read, inside] using entry
  · intro agree
    apply List.ext_getElem (by simp)
    intro offset leftInside _
    simp only [read_length] at leftInside
    simpa using agree offset leftInside

/-- An interval reads as a given list exactly when each byte is that entry. -/
theorem read_eq_list_iff (memory : Bytes) (address : Nat) (bytes : List Byte) :
    read memory address bytes.length = bytes ↔
      forall offset, (inside : offset < bytes.length) -> memory (address + offset) = bytes[offset] := by
  constructor
  · intro equal offset inside
    have entry := congrArg (fun list => list[offset]?) equal
    simpa [read, inside] using entry
  · intro agree
    apply List.ext_getElem (by simp)
    intro offset _ rightInside
    simpa using agree offset rightInside

theorem read_add (memory : Bytes) (address first second : Nat) :
    read memory address (first + second) =
      read memory address first ++ read memory (address + first) second := by
  simp [read, List.range_add, Nat.add_assoc]

theorem read_take (memory : Bytes) (address count kept : Nat) (le : kept ≤ count) :
    (read memory address count).take kept = read memory address kept := by
  obtain ⟨rest, rfl⟩ := Nat.exists_eq_add_of_le le
  rw [read_add, List.take_append_of_le_length (by simp)]
  exact List.take_of_length_le (by simp)

theorem read_drop (memory : Bytes) (address count dropped : Nat) (le : dropped ≤ count) :
    (read memory address count).drop dropped = read memory (address + dropped) (count - dropped) := by
  obtain ⟨rest, rfl⟩ := Nat.exists_eq_add_of_le le
  rw [read_add, List.drop_append_of_le_length (by simp), List.drop_of_length_le (by simp)]
  simp

theorem write_inside (memory : Bytes) (address : Nat) (bytes : List Byte) (offset : Nat)
    (inside : offset < bytes.length) :
    write memory address bytes (address + offset) = bytes[offset] := by
  simp [write, inside]

theorem write_outside (memory : Bytes) (address : Nat) (bytes : List Byte) (target : Nat)
    (outside : target < address ∨ address + bytes.length ≤ target) :
    write memory address bytes target = memory target := by
  unfold write
  split
  · have beyond : bytes.length ≤ target - address := by omega
    simp [beyond]
  · rfl

/-- What a write leaves at a target depends on the memory only there. -/
theorem write_congr {left right : Bytes} {target : Nat} (same : left target = right target)
    (address : Nat) (bytes : List Byte) :
    write left address bytes target = write right address bytes target := by
  simp only [write, same]

@[simp] theorem write_nil (memory : Bytes) (address : Nat) : write memory address [] = memory := by
  funext target
  exact write_outside memory address [] target (by simp; omega)

/-- A freshly written interval reads back as the list written. -/
@[simp] theorem read_write (memory : Bytes) (address : Nat) (bytes : List Byte) :
    read (write memory address bytes) address bytes.length = bytes :=
  (read_eq_list_iff _ address bytes).mpr (write_inside memory address bytes)

/-- A write leaves every disjoint interval alone. -/
theorem read_write_disjoint (memory : Bytes) (address : Nat) (bytes : List Byte)
    (source count : Nat)
    (disjoint : source + count ≤ address ∨ address + bytes.length ≤ source) :
    read (write memory address bytes) source count = read memory source count := by
  apply (read_eq_iff _ _ source source count).mpr
  intro offset inside
  exact write_outside memory address bytes _ (by omega)

theorem write_append (memory : Bytes) (address : Nat) (first second : List Byte) :
    write memory address (first ++ second) =
      write (write memory address first) (address + first.length) second := by
  funext target
  by_cases below : target < address + first.length
  · rw [write_outside _ _ second target (Or.inl below)]
    unfold write
    split
    · rw [List.getElem?_append_left (by omega)]
    · rfl
  · have past : address + first.length ≤ target := Nat.le_of_not_lt below
    simp only [write, past, if_true, if_pos (Nat.le_trans (Nat.le_add_right _ _) past)]
    rw [List.getElem?_append_right (by omega), List.getElem?_eq_none (l := first) (by omega)]
    rw [Option.getD_none, Nat.sub_sub]

theorem write_cons (memory : Bytes) (address : Nat) (byte : Byte) (rest : List Byte) :
    write memory address (byte :: rest) = write (write memory address [byte]) (address + 1) rest :=
  write_append memory address [byte] rest

theorem read_succ (memory : Bytes) (address count : Nat) :
    read memory address (count + 1) = memory address :: read memory (address + 1) count := by
  rw [Nat.add_comm, read_add]
  rfl

/-- Inside a written interval, a read takes its part of the list. -/
theorem read_write_inside (memory : Bytes) (address : Nat) (bytes : List Byte) (offset count : Nat)
    (inside : offset + count ≤ bytes.length) :
    read (write memory address bytes) (address + offset) count = (bytes.drop offset).take count := by
  calc
    read (write memory address bytes) (address + offset) count
        = ((read (write memory address bytes) address bytes.length).drop offset).take count := by
          rw [read_drop _ _ _ _ (by omega), read_take _ _ _ _ (by omega)]
    _ = (bytes.drop offset).take count := by rw [read_write]

/-- Storing what is already there changes nothing. -/
theorem write_read (memory : Bytes) (address count : Nat) :
    write memory address (read memory address count) = memory := by
  funext target
  by_cases inside : address ≤ target ∧ target < address + count
  · have place : address + (target - address) = target := by omega
    have entry := write_inside memory address (read memory address count) (target - address)
      (by rw [read_length]; omega)
    rw [place, read_getElem, place] at entry
    exact entry
  · exact write_outside memory address _ target (by rw [read_length]; omega)

/-- A write into a freshly written interval replaces a part of the list. -/
theorem write_write_inside (memory : Bytes) (address : Nat) (bytes piece : List Byte) (offset : Nat)
    (inside : offset + piece.length ≤ bytes.length) :
    write (write memory address bytes) (address + offset) piece =
      write memory address (bytes.take offset ++ piece ++ bytes.drop (offset + piece.length)) := by
  have split : bytes = bytes.take offset ++ (bytes.drop offset).take piece.length ++
      bytes.drop (offset + piece.length) := by
    rw [← List.drop_drop, List.append_assoc, List.take_append_drop, List.take_append_drop]
  have front : (bytes.take offset).length = offset := by rw [List.length_take]; omega
  have middle : ((bytes.drop offset).take piece.length).length = piece.length := by
    rw [List.length_take, List.length_drop]
    omega
  funext target
  by_cases here : address + offset ≤ target ∧ target < address + offset + piece.length
  · have place : address + offset + (target - (address + offset)) = target := by omega
    have left := write_inside (write memory address bytes) (address + offset) piece
      (target - (address + offset)) (by omega)
    rw [place] at left
    rw [left, List.append_assoc, write_append, front, write_append,
      write_outside _ _ (bytes.drop (offset + piece.length)) target (by omega)]
    have right := write_inside (write memory address (bytes.take offset)) (address + offset) piece
      (target - (address + offset)) (by omega)
    rw [place] at right
    exact right.symm
  · rw [write_outside _ _ piece target (by omega)]
    conv_lhs => rw [split]
    rw [List.append_assoc, List.append_assoc, write_append, write_append, write_append, write_append,
      front, middle]
    apply write_congr
    rw [write_outside _ _ _ target (by omega), write_outside _ _ piece target (by omega)]

/-! ## Integers in memory -/

/-- Value of a byte string, least significant byte first. -/
def littleEndian : List Byte -> Nat
  | [] => 0
  | byte :: rest => byte.toNat + 256 * littleEndian rest

/-- The `count` low bytes of a value, least significant byte first. -/
def littleEndianBytes (count value : Nat) : List Byte :=
  (List.range count).map fun index => BitVec.ofNat 8 (value / 256 ^ index)

@[simp] theorem littleEndianBytes_length (count value : Nat) :
    (littleEndianBytes count value).length = count := by
  simp [littleEndianBytes]

theorem littleEndianBytes_succ (count value : Nat) :
    littleEndianBytes (count + 1) value =
      BitVec.ofNat 8 value :: littleEndianBytes count (value / 256) := by
  simp [littleEndianBytes, List.range_succ_eq_map, Function.comp_def, Nat.pow_succ',
    ← Nat.div_div_eq_div_mul]

/-- Stored bytes give the value back, as far as they reach. -/
theorem littleEndian_littleEndianBytes (count value : Nat) :
    littleEndian (littleEndianBytes count value) = value % 256 ^ count := by
  induction count generalizing value with
  | zero => simp [littleEndianBytes, littleEndian, Nat.mod_one]
  | succ count inductionHypothesis =>
      rw [littleEndianBytes_succ, littleEndian, inductionHypothesis, Nat.pow_succ', Nat.mod_mul,
        BitVec.toNat_ofNat]

end Memory
end LoginServer
