import LoginServer.Memory.Bytes
import Mathlib.Data.List.TakeWhile

namespace LoginServer
namespace Database

open Memory

/-!
# The rows of a query

`query` stores each row of the result over the fields of `dbResult`, which it
visits in the order of the hash map.  One `index` runs over the columns.  It is
set to zero once, before the first row, and moves on where a column is not
NULL; so it is the first NULL column from the previous `index` on that decides
where the next row is read from.

The hash map is the list of its entries in iteration order.  An access to a row
at or past the number of columns has no result.
-/

/-- What `mysql_fetch_row` answers: `nullptr` for NULL, otherwise the bytes of
the column, which the library closes with a NUL byte. -/
abbrev Row := List (Option (List Byte))

/-- `string(const char*)` ends at the first NUL byte. -/
def stringOf (bytes : List Byte) : List Byte := bytes.takeWhile (· != 0)

section Loops

variable {Name : Type}

/-- `for (auto& it : _result.result)` on one row, with the `index` behind it. -/
def fieldLoop (row : Row) :
    (index : Nat) -> List (Name × List Byte) -> Option (Nat × List (Name × List Byte))
  | index, [] => some (index, [])
  | index, it :: rest =>
      match row[index]? with
      | none => none
      | some none =>
          (fieldLoop row index rest).map fun visited => (visited.1, (it.1, []) :: visited.2)
      | some (some column) =>
          (fieldLoop row (index + 1) rest).map fun visited =>
            (visited.1, (it.1, stringOf column) :: visited.2)

/-- The row loop of `query`. -/
def rowLoop : (index : Nat) -> List (Name × List Byte) -> List Row -> Option (List (Name × List Byte))
  | _, result, [] => some result
  | index, result, row :: rows =>
      match fieldLoop row index result with
      | none => none
      | some (index, result) => rowLoop index result rows

def queryRows (result : List (Name × List Byte)) (rows : List Row) :
    Option (List (Name × List Byte)) :=
  rowLoop 0 result rows

/-- The row loop of `testFunc`, which starts every row with `int index = 0`. -/
def testFuncRows : List (Name × List Byte) -> List Row -> Option (List (Name × List Byte))
  | result, [] => some result
  | result, row :: rows =>
      match fieldLoop row 0 result with
      | none => none
      | some (_, result) => testFuncRows result rows

end Loops

/-- A `dbResult` and the rows of a query with its columns. -/
structure ResultSet (Name : Type) where
  columns : List Name
  distinct : columns.Nodup
  result : List (Name × List Byte)
  order : (result.map Prod.fst).Perm columns
  rows : List Row
  width : forall row, row ∈ rows -> row.length = columns.length

namespace ResultSet

variable {Name : Type} [DecidableEq Name]

/-- The value of a row in the column of a field; NULL counts as empty. -/
def ownValue (set : ResultSet Name) (name : Name) (row : Row) : List Byte :=
  (row[set.columns.idxOf name]?.join).getD []

/-- The fields as they should be: with the values of the last row. -/
def intended (set : ResultSet Name) : List (Name × List Byte) :=
  match set.rows.getLast? with
  | none => set.result
  | some row => set.result.map fun it => (it.1, set.ownValue it.1 row)

/-- `query` stays inside the rows and stores every value in its own field. -/
def LandsInOwnFields (set : ResultSet Name) : Prop :=
  queryRows set.result set.rows = some set.intended

end ResultSet

/-! ## Where a row is read -/

/-- The first NULL column from `start` on, or the number of columns. -/
def firstNull (row : Row) (start : Nat) : Nat :=
  start + ((row.drop start).takeWhile Option.isSome).length

/-- What the field at a position gets from a row that is read from `start` on. -/
def shiftedValue (row : Row) (start position : Nat) : List Byte :=
  if start + position < firstNull row start then stringOf ((row[start + position]?.join).getD [])
  else []

/-- No row that is read from behind its first column is without NULL from there on. -/
def StaysInside (columns : Nat) : (start : Nat) -> List Row -> Prop
  | _, [] => True
  | start, row :: rows =>
      (start = 0 ∨ firstNull row start < columns) ∧ StaysInside columns (firstNull row start) rows

instance decidableStaysInside (columns : Nat) :
    (start : Nat) -> (rows : List Row) -> Decidable (StaysInside columns start rows)
  | _, [] => isTrue trivial
  | start, row :: rows =>
      have := decidableStaysInside columns (firstNull row start) rows
      inferInstanceAs (Decidable (_ ∧ _))

/-- The column the last row is read from. -/
def lastStart (start : Nat) (rows : List Row) : Nat :=
  rows.dropLast.foldl (fun start row => firstNull row start) start

theorem firstNull_le {row : Row} {start : Nat} (inside : start ≤ row.length) :
    start ≤ firstNull row start ∧ firstNull row start ≤ row.length := by
  have shorter := (List.takeWhile_prefix (p := Option.isSome) (l := row.drop start)).length_le
  rw [List.length_drop] at shorter
  unfold firstNull
  omega

theorem firstNull_null {row : Row} {start : Nat} (null : row[start]? = some none) :
    firstNull row start = start := by
  rcases List.getElem?_eq_some_iff.mp null with ⟨inside, entry⟩
  rw [firstNull, List.drop_eq_getElem_cons inside, entry]
  rfl

theorem firstNull_step {row : Row} {start : Nat} {column : List Byte}
    (present : row[start]? = some (some column)) :
    firstNull row start = firstNull row (start + 1) := by
  rcases List.getElem?_eq_some_iff.mp present with ⟨inside, entry⟩
  rw [firstNull, firstNull, List.drop_eq_getElem_cons inside, entry, List.takeWhile_cons_of_pos rfl,
    List.length_cons]
  omega

/-- One row: the fields it leaves and the column it stops at. -/
theorem fieldLoop_eq {Name : Type} (row : Row) (start : Nat) (result : List (Name × List Byte))
    (inside : start ≤ row.length) :
    fieldLoop row start result =
      if firstNull row start < row.length ∨ start + result.length ≤ row.length then
        some (min (firstNull row start) (start + result.length),
          result.mapIdx fun position it => (it.1, shiftedValue row start position))
      else none := by
  induction result generalizing start with
  | nil =>
      have bounds := firstNull_le inside
      rw [List.length_nil, Nat.add_zero, if_pos (Or.inr inside), fieldLoop,
        Nat.min_eq_right bounds.1]
      rfl
  | cons it rest inductionHypothesis =>
      have bounds := firstNull_le inside
      rw [List.mapIdx_cons, List.length_cons, fieldLoop]
      match entry : row[start]? with
      | none =>
          have beyond : row.length ≤ start := List.getElem?_eq_none_iff.mp entry
          rw [if_neg (by omega)]
      | some none =>
          have here := firstNull_null entry
          rcases List.getElem?_eq_some_iff.mp entry with ⟨before, _⟩
          have values : (fun position (it : Name × List Byte) =>
              (it.1, shiftedValue row start (position + 1))) =
              fun position it => (it.1, shiftedValue row start position) := by
            funext position it
            rw [shiftedValue, shiftedValue, here, if_neg (by omega), if_neg (by omega)]
          have first : shiftedValue row start 0 = [] := by
            rw [shiftedValue, here, if_neg (by omega)]
          dsimp only
          rw [inductionHypothesis start inside, values, first, here, if_pos (Or.inl before),
            if_pos (Or.inl before)]
          simp only [Option.map_some, Nat.min_eq_left (Nat.le_add_right start _)]
      | some (some column) =>
          have next := firstNull_step entry
          rcases List.getElem?_eq_some_iff.mp entry with ⟨before, _⟩
          have later : start + 1 ≤ firstNull row (start + 1) ∧ firstNull row (start + 1) ≤ row.length :=
            firstNull_le before
          have values : (fun position (it : Name × List Byte) =>
              (it.1, shiftedValue row start (position + 1))) =
              fun position it => (it.1, shiftedValue row (start + 1) position) := by
            funext position it
            rw [shiftedValue, shiftedValue, next, Nat.add_comm position 1, ← Nat.add_assoc]
          have first : shiftedValue row start 0 = stringOf column := by
            rw [shiftedValue, if_pos (by omega), Nat.add_zero, entry]
            rfl
          have total : start + 1 + rest.length = start + (rest.length + 1) := by omega
          dsimp only
          rw [inductionHypothesis (start + 1) before, values, first, next, total]
          split
          · rfl
          · rfl

/-- A row that fills as many fields as it has columns stops at its first NULL. -/
theorem fieldLoop_whole {Name : Type} (row : Row) (start : Nat) (result : List (Name × List Byte))
    (inside : start ≤ row.length) (whole : result.length = row.length) :
    fieldLoop row start result =
      if start = 0 ∨ firstNull row start < row.length then
        some (firstNull row start,
          result.mapIdx fun position it => (it.1, shiftedValue row start position))
      else none := by
  have bounds := firstNull_le inside
  rw [fieldLoop_eq row start result inside, whole]
  by_cases stays : start = 0 ∨ firstNull row start < row.length
  · rw [if_pos (by omega), if_pos stays, Nat.min_eq_left (by omega)]
  · rw [if_neg (by omega), if_neg stays]

/-- All rows: the fields are overwritten by each of them, and the last one stays. -/
theorem rowLoop_eq {Name : Type} (columns start : Nat) (result : List (Name × List Byte))
    (rows : List Row) (width : forall row, row ∈ rows -> row.length = columns)
    (inside : start ≤ columns) (whole : result.length = columns) :
    rowLoop start result rows =
      if StaysInside columns start rows then
        some (match rows.getLast? with
          | none => result
          | some row =>
              result.mapIdx fun position it =>
                (it.1, shiftedValue row (lastStart start rows) position))
      else none := by
  induction rows generalizing start result with
  | nil =>
      have none : StaysInside columns start [] := trivial
      rw [if_pos none]
      rfl
  | cons row rows inductionHypothesis =>
      have here : row.length = columns := width row List.mem_cons_self
      have later : forall row, row ∈ rows -> row.length = columns :=
        fun row member => width row (List.mem_cons_of_mem _ member)
      have bounds : start ≤ firstNull row start ∧ firstNull row start ≤ row.length :=
        firstNull_le (by omega)
      rw [rowLoop, fieldLoop_whole row start result (by omega) (by omega), here]
      by_cases stays : start = 0 ∨ firstNull row start < columns
      · rw [if_pos stays]
        dsimp only
        rw [inductionHypothesis (firstNull row start) _ later (by omega)
          (by rw [List.length_mapIdx, whole])]
        by_cases rest : StaysInside columns (firstNull row start) rows
        · rw [if_pos rest, if_pos ⟨stays, rest⟩]
          cases rows with
          | nil => rfl
          | cons next rows =>
              rw [List.getLast?_cons_cons, List.getLast?_eq_some_getLast (List.cons_ne_nil next rows)]
              dsimp only
              rw [List.mapIdx_mapIdx]
              rfl
        · rw [if_neg rest, if_neg (fun both => rest both.2)]
      · rw [if_neg stays, if_neg (fun both => stays both.1)]

/-! ## The condition -/

namespace ResultSet

variable {Name : Type}

theorem result_length (set : ResultSet Name) : set.result.length = set.columns.length := by
  rw [← set.order.length_eq, List.length_map]

variable [DecidableEq Name]

/-- Rows after the first are read from NULL columns on, and in the last row every
field stands where its own column is read: with the same text, or, from the first
NULL column on, with none in its own column either. -/
structure Aligned (set : ResultSet Name) : Prop where
  inside : StaysInside set.columns.length 0 set.rows
  lastRow : forall row, set.rows.getLast? = some row ->
    forall position, (entry : position < set.result.length) ->
      set.ownValue set.result[position].1 row =
        shiftedValue row (lastStart 0 set.rows) position

/-- `query` stores the result in the right fields exactly when the rows and the order of the
hash map are aligned.  As the index is not reset between rows, each row is read on from the NULL
column at which the one before it stopped, and beyond its end if that one had none. -/
theorem landsInOwnFields_iff (set : ResultSet Name) : set.LandsInOwnFields ↔ set.Aligned := by
  have loop := rowLoop_eq set.columns.length 0 set.result set.rows set.width (Nat.zero_le _)
    set.result_length
  unfold LandsInOwnFields queryRows
  rw [loop]
  constructor
  · intro lands
    by_cases inside : StaysInside set.columns.length 0 set.rows
    · refine ⟨inside, ?_⟩
      intro row last position entry
      rw [if_pos inside, last, intended, last] at lands
      have fields := Option.some.inj lands
      have field := congrArg (fun fields => fields[position]?) fields
      simp only [List.getElem?_mapIdx, List.getElem?_map, List.getElem?_eq_getElem entry,
        Option.map_some, Option.some.injEq, Prod.mk.injEq, true_and] at field
      exact field.symm
    · rw [if_neg inside] at lands
      cases lands
  · intro aligned
    rw [if_pos aligned.inside, intended]
    cases last : set.rows.getLast? with
    | none => rfl
    | some row =>
        apply congrArg some
        apply List.ext_getElem (by simp)
        intro position entry _
        rw [List.length_mapIdx] at entry
        rw [List.getElem_mapIdx, List.getElem_map, aligned.lastRow row last position entry]

/-- The case the loop is right for: one row of texts, in the order of the columns. -/
theorem inOrder_lands (set : ResultSet Name) (row : Row) (single : set.rows = [row])
    (sameOrder : set.result.map Prod.fst = set.columns)
    (texts : forall column, column ∈ row -> Exists fun text : List Byte =>
      column = some text ∧ stringOf text = text) : set.LandsInOwnFields := by
  have width := set.width row (by rw [single]; exact List.mem_singleton_self row)
  have full : firstNull row 0 = row.length := by
    rw [firstNull, List.drop_zero, Nat.zero_add, List.takeWhile_eq_self_iff.mpr]
    intro column member
    rcases texts column member with ⟨text, rfl, _⟩
    rfl
  refine set.landsInOwnFields_iff.mpr ⟨?_, ?_⟩
  · rw [single]
    exact ⟨Or.inl rfl, trivial⟩
  · intro other last position entry
    rw [single, List.getLast?_singleton, Option.some.injEq] at last
    subst other
    have inside : position < row.length := by rw [width, ← set.result_length]; exact entry
    have column : position < set.columns.length := by rw [← width]; exact inside
    have name : set.result[position].1 = set.columns[position] := by
      simp only [← sameOrder, List.getElem_map]
    rcases texts row[position] (List.getElem_mem inside) with ⟨text, value, whole⟩
    have start : lastStart 0 set.rows = 0 := by rw [single]; rfl
    rw [ownValue, name, set.distinct.idxOf_getElem position column, shiftedValue, start, full,
      Nat.zero_add, if_pos inside, List.getElem?_eq_getElem inside, value]
    exact whole.symm

/-- One column and two rows: the second row is read at index 1. -/
def twoRows : ResultSet String where
  columns := ["sessionKey"]
  distinct := by simp
  result := [("sessionKey", [])]
  order := List.Perm.refl _
  rows := [[some [0x41]], [some [0x42]]]
  width := by simp

theorem twoRows_misread : ¬ forall set : ResultSet String, set.LandsInOwnFields := by
  intro always
  have lands := always twoRows
  have none : queryRows twoRows.result twoRows.rows = none := rfl
  rw [LandsInOwnFields, none] at lands
  cases lands

/-- One row, with NULL in front of a value: neither field gets the value. -/
example : queryRows [("accountNo", []), ("sessionKey", [])] [[none, some [0x41]]] =
    some [("accountNo", []), ("sessionKey", [])] := rfl

end ResultSet

/-! ## The loop of `testFunc` -/

/-- With `index` set to zero for each row, no row is indexed past its columns. -/
theorem testFuncRows_inside {Name : Type} (columns : Nat) (result : List (Name × List Byte))
    (rows : List Row) (width : forall row, row ∈ rows -> row.length = columns)
    (whole : result.length = columns) :
    testFuncRows result rows = some (match rows.getLast? with
      | none => result
      | some row => result.mapIdx fun position it => (it.1, shiftedValue row 0 position)) := by
  induction rows generalizing result with
  | nil => rfl
  | cons row rows inductionHypothesis =>
      have here : row.length = columns := width row List.mem_cons_self
      have later : forall row, row ∈ rows -> row.length = columns :=
        fun row member => width row (List.mem_cons_of_mem _ member)
      rw [testFuncRows, fieldLoop_whole row 0 result (Nat.zero_le _) (by omega), if_pos (Or.inl rfl)]
      dsimp only
      rw [inductionHypothesis _ later (by rw [List.length_mapIdx, whole])]
      cases rows with
      | nil => rfl
      | cons next rows =>
          rw [List.getLast?_cons_cons, List.getLast?_eq_some_getLast (List.cons_ne_nil next rows)]
          dsimp only
          rw [List.mapIdx_mapIdx]
          rfl

end Database
end LoginServer
