import LoginServer.Memory.Bytes

namespace LoginServer
namespace Memory

/-!
# Circular byte buffers

A circular buffer of `size` bytes occupies the addresses below `size`; the
byte after the last address is the one at address zero.  `readCircular` is the
abstract view, one byte per index modulo `size`.  Programs copy such an
interval in at most two straight pieces, and the theorems here say when one or
two pieces make up a circular interval, for reading and for writing.
-/

/-- Below twice the size, reduction modulo the size subtracts at most once. -/
theorem mod_eq_wrap {size position : Nat} (bound : position < 2 * size) :
    position % size = if position < size then position else position - size := by
  split
  next inside => exact Nat.mod_eq_of_lt inside
  next outside =>
    rw [Nat.mod_eq_sub_mod (Nat.le_of_not_lt outside)]
    exact Nat.mod_eq_of_lt (by omega)

/-- The `count` bytes from `start` on, going round at `size`. -/
def readCircular (memory : Bytes) (size start count : Nat) : List Byte :=
  (List.range count).map fun index => memory ((start + index) % size)

@[simp] theorem readCircular_length (memory : Bytes) (size start count : Nat) :
    (readCircular memory size start count).length = count := by
  simp [readCircular]

@[simp] theorem readCircular_zero (memory : Bytes) (size start : Nat) :
    readCircular memory size start 0 = [] := rfl

theorem readCircular_eq_iff (left right : Bytes) (size leftStart rightStart count : Nat) :
    readCircular left size leftStart count = readCircular right size rightStart count ↔
      forall index, index < count ->
        left ((leftStart + index) % size) = right ((rightStart + index) % size) := by
  constructor
  · intro equal index inside
    have entry := congrArg (fun bytes => bytes[index]?) equal
    simpa [readCircular, inside] using entry
  · intro agree
    apply List.ext_getElem (by simp)
    intro index inside _
    simp only [readCircular_length] at inside
    simpa [readCircular] using agree index inside

/-- A circular interval may be continued from the place where it stops. -/
theorem readCircular_add (memory : Bytes) (size start first second : Nat) :
    readCircular memory size start (first + second) =
      readCircular memory size start first ++
        readCircular memory size ((start + first) % size) second := by
  simp [readCircular, List.range_add, Nat.add_assoc]

theorem readCircular_take (memory : Bytes) (size start count kept : Nat) (le : kept ≤ count) :
    (readCircular memory size start count).take kept = readCircular memory size start kept := by
  obtain ⟨rest, rfl⟩ := Nat.exists_eq_add_of_le le
  rw [readCircular_add, List.take_append_of_le_length (by simp)]
  exact List.take_of_length_le (by simp)

theorem readCircular_drop (memory : Bytes) (size start count dropped : Nat)
    (le : dropped ≤ count) :
    (readCircular memory size start count).drop dropped =
      readCircular memory size ((start + dropped) % size) (count - dropped) := by
  obtain ⟨rest, rfl⟩ := Nat.exists_eq_add_of_le le
  rw [readCircular_add, List.drop_append_of_le_length (by simp), List.drop_of_length_le (by simp)]
  simp

/-- An interval that stops before the end of the buffer is one straight piece. -/
theorem readCircular_direct (memory : Bytes) (size start count : Nat)
    (inside : start + count ≤ size) :
    readCircular memory size start count = read memory start count := by
  apply List.map_congr_left
  intro index member
  have bound : start + index < size := by
    have := List.mem_range.mp member
    omega
  rw [Nat.mod_eq_of_lt bound]

/-- An interval that reaches the end of the buffer is two straight pieces,
the second of which starts at address zero. -/
theorem readCircular_wrap (memory : Bytes) (size start count : Nat)
    (startInside : start < size) (reaches : size ≤ start + count) (fits : count ≤ size) :
    readCircular memory size start count =
      read memory start (size - start) ++ read memory 0 (count - (size - start)) := by
  have split : count = (size - start) + (count - (size - start)) := by omega
  rw [split, readCircular_add, readCircular_direct _ _ _ _ (by omega)]
  have zero : (start + (size - start)) % size = 0 := by
    rw [Nat.add_sub_cancel' (Nat.le_of_lt startInside), Nat.mod_self]
  rw [zero, readCircular_direct _ _ _ _ (by omega)]
  congr 2
  omega

/-- Store a list from `start` on, going round at `size`: one piece when it
stops before the end of the buffer, otherwise two. -/
def writeCircular (memory : Bytes) (size start : Nat) (bytes : List Byte) : Bytes :=
  if start + bytes.length ≤ size then write memory start bytes
  else write (write memory start (bytes.take (size - start))) 0 (bytes.drop (size - start))

/-- The entry a circular write puts at a position, found by its distance from
the start of the write; positions further away keep their byte. -/
theorem writeCircular_apply (memory : Bytes) (size start : Nat) (bytes : List Byte)
    (startInside : start < size) (fits : bytes.length ≤ size)
    (index : Nat) (indexInside : index < size) :
    writeCircular memory size start bytes ((start + index) % size) =
      bytes[index]?.getD (memory ((start + index) % size)) := by
  rw [mod_eq_wrap (by omega)]
  unfold writeCircular
  by_cases straight : start + bytes.length ≤ size
  · rw [if_pos straight]
    by_cases below : start + index < size
    · simp [if_pos below, write]
    · rw [if_neg below, write_outside _ _ _ _ (by omega), List.getElem?_eq_none (by omega)]
      rfl
  · rw [if_neg straight]
    by_cases below : start + index < size
    · have first : index < (bytes.take (size - start)).length := by
        rw [List.length_take]; omega
      rw [if_pos below, write_outside _ _ _ _ (by rw [List.length_drop]; omega),
        write_inside _ _ _ _ first, List.getElem_take]
      simp [show index < bytes.length by omega]
    · rw [if_neg below]
      have position : start + index - size = 0 + (start + index - size) := (Nat.zero_add _).symm
      by_cases written : index < bytes.length
      · have second : start + index - size < (bytes.drop (size - start)).length := by
          rw [List.length_drop]; omega
        rw [position, write_inside _ _ _ _ (by omega), List.getElem_drop]
        simp [show size - start + (start + index - size) = index by omega, written]
      · rw [write_outside _ _ _ _ (by rw [List.length_drop]; omega),
          write_outside _ _ _ _ (by rw [List.length_take]; omega),
          List.getElem?_eq_none (by omega)]
        rfl

/-- Writing right behind a circular interval appends to it. -/
theorem readCircular_append (memory : Bytes) (size start count : Nat) (bytes : List Byte)
    (startInside : start < size) (fits : count + bytes.length ≤ size) :
    readCircular (writeCircular memory size ((start + count) % size) bytes) size start
        (count + bytes.length) =
      readCircular memory size start count ++ bytes := by
  have positive : 0 < size := Nat.lt_of_le_of_lt (Nat.zero_le _) startInside
  have pivotInside : (start + count) % size < size := Nat.mod_lt _ positive
  rw [readCircular_add]
  congr 1
  · apply (readCircular_eq_iff _ _ size start start count).mpr
    intro index inside
    -- Seen from the start of the write, an old byte lies beyond the bytes written.
    have distance : (start + index) % size =
        ((start + count) % size + (size - count + index)) % size := by
      rw [Nat.mod_add_mod]
      have turn : start + count + (size - count + index) = start + index + size := by omega
      rw [turn, Nat.add_mod_right]
    rw [distance, writeCircular_apply _ _ _ _ pivotInside (by omega) _ (by omega),
      List.getElem?_eq_none (by omega)]
    rfl
  · apply List.ext_getElem (by simp)
    intro index inside _
    simp only [readCircular_length] at inside
    simp only [readCircular, List.getElem_map, List.getElem_range]
    rw [writeCircular_apply _ _ _ _ pivotInside (by omega) _ (by omega)]
    simp [inside]

end Memory
end LoginServer
