import LoginServer.Network.NetworkMessage
import Mathlib.Data.List.TakeWhile
import Mathlib.Logic.Function.Basic

/-!
# `DBResult`: a stored result set

The rows of a `MYSQL_RES`, the map from field names to columns, and a cursor.
A cell is SQL `NULL` or a text.  `getString` and `getNumber` return `none`
where the source would use a pointer it does not have: a row behind the last
one, or the null pointer of a `NULL` cell handed to `boost::lexical_cast`.
-/

namespace LoginServer

open LoginServer.Network

/-- A cell of a `MYSQL_ROW`; `none` is the null pointer of SQL `NULL`. -/
abbrev Cell := Option Bytes

/-- What `mysql_store_result` leaves: field names and rows of cells. -/
structure ResultSet where
  fields : List Bytes
  rows : List (List Cell)
  deriving DecidableEq, Repr

/-- The types `getNumber` is used at. -/
inductive Number where
  | uint16
  | uint64
  | int
  deriving DecidableEq, Repr

def Number.width : Number → Nat
  | .uint16 => 16
  | .uint64 => 64
  | .int => 32

/-- `std::numeric_limits<T>::max()`. -/
def Number.max : Number → Nat
  | .uint16 => 2 ^ 16 - 1
  | .uint64 => 2 ^ 64 - 1
  | .int => 2 ^ 31 - 1

/-- `boost::lexical_cast<T>`; `none` is `bad_lexical_cast`. -/
abbrev LexicalCast := (t : Number) → Bytes → Option (BitVec t.width)

/-- A `char*` read as a string: the text up to its first zero byte. -/
def cString (cell : Bytes) : Bytes := cell.takeWhile (· ≠ 0)

theorem cString_eq_iff {cell : Bytes} : cString cell = cell ↔ 0 ∉ cell := by
  rw [cString, List.takeWhile_eq_self_iff]
  constructor
  · intro h hzero
    exact absurd (h 0 hzero) (by decide)
  · intro h byte hbyte
    exact decide_eq_true (fun hzero => h (hzero ▸ hbyte))

structure DBResult where
  fields : Bytes → Option Nat
  rows : List (List Cell)
  index : Nat := 0

namespace DBResult

/-- `m_fields[field->name] = i++`. -/
def insertField (fields : Bytes → Option Nat) (field : Bytes × Nat) : Bytes → Option Nat :=
  Function.update fields field.1 (some field.2)

def ofResultSet (res : ResultSet) : DBResult :=
  { fields := res.fields.zipIdx.foldl insertField fun _ => none
    rows := res.rows }

def next (r : DBResult) : DBResult := { r with index := r.index + 1 }

def hasNext (r : DBResult) : Bool := r.index < r.rows.length

/-- `m_rows[m_index][column]`; `none` is a read past the rows or the row. -/
def cell? (r : DBResult) (column : Nat) : Option Cell :=
  match r.rows[r.index]? with
  | none => none
  | some row => row[column]?

/-- `getString(field)`.  The test compares the size with the index the other
way round than `getNumber` does, and lets the index of the end through. -/
def getString (r : DBResult) (field : Bytes) : Option Bytes :=
  if r.rows.isEmpty ∨ r.rows.length < r.index then some []
  else
    match r.fields field with
    | none => some []
    | some column =>
        match r.cell? column with
        | none => none
        | some none => some []
        | some (some cell) => some (cString cell)

/-- `getNumber<T>(field)`; a text that does not convert gives `T{}`. -/
def getNumber (cast : LexicalCast) (t : Number) (r : DBResult) (field : Bytes) :
    Option (BitVec t.width) :=
  if r.rows.isEmpty ∨ r.index ≥ r.rows.length then some 0
  else
    match r.fields field with
    | none => some 0
    | some column =>
        match r.cell? column with
        | some (some cell) => some ((cast t (cString cell)).getD 0)
        | _ => none

/-! ### What the accessors return -/

theorem ne_empty_of_row {r : DBResult} {row : List Cell}
    (hrow : r.rows[r.index]? = some row) :
    r.rows.isEmpty = false ∧ r.index < r.rows.length := by
  have hindex : r.index < r.rows.length := (List.getElem?_eq_some_iff.mp hrow).1
  refine ⟨?_, hindex⟩
  rw [List.isEmpty_eq_false_iff]
  intro hempty
  rw [hempty] at hindex
  exact Nat.not_lt_zero _ hindex

section
variable {r : DBResult} {row : List Cell} {field : Bytes} {column : Nat} {cell : Cell}
  (hrow : r.rows[r.index]? = some row) (hfield : r.fields field = some column)
  (hcell : row[column]? = some cell)
include hrow hfield hcell

/-- The text of a cell of the current row; `NULL` is the empty text. -/
theorem getString_of_cell : r.getString field = some ((cell.map cString).getD []) := by
  obtain ⟨hrows, hindex⟩ := ne_empty_of_row hrow
  unfold getString
  rw [hrows, if_neg (by simp; omega)]
  simp only [hfield, cell?, hrow, hcell]
  cases cell <;> rfl

/-- The number of a cell of the current row, 0 where its text does not
convert; nothing where the cell is `NULL`. -/
theorem getNumber_of_cell (cast : LexicalCast) (t : Number) :
    r.getNumber cast t field = cell.map fun cell => (cast t (cString cell)).getD 0 := by
  obtain ⟨hrows, hindex⟩ := ne_empty_of_row hrow
  unfold getNumber
  rw [hrows, if_neg (by simp; omega)]
  simp only [hfield, cell?, hrow, hcell]
  cases cell <;> rfl

end

end DBResult

/-! ## Decimal text -/

def isDigit (byte : UInt8) : Prop := 48 ≤ byte.toNat ∧ byte.toNat ≤ 57

instance (byte : UInt8) : Decidable (isDigit byte) :=
  inferInstanceAs (Decidable (_ ∧ _))

instance (text : Bytes) : Decidable (∀ byte ∈ text, isDigit byte) :=
  List.decidableBAll isDigit text

/-- The number a string of digits stands for. -/
def decimalValue (digits : Bytes) : Nat :=
  digits.foldl (fun value digit => 10 * value + (digit.toNat - 48)) 0

/-- `text` is a decimal numeral of `n`. -/
structure Decimal (text : Bytes) (n : Nat) : Prop where
  nonempty : text ≠ []
  digits : ∀ byte ∈ text, isDigit byte
  value : decimalValue text = n

/-- A numeral has no zero byte. -/
theorem Decimal.cString_eq {text : Bytes} {n : Nat} (h : Decimal text n) :
    cString text = text := by
  apply cString_eq_iff.mpr
  intro hzero
  exact absurd (h.digits 0 hzero).1 (by decide)

/-- What `lexical_cast` does with a numeral: its number where the type has
it, `bad_lexical_cast` where it has not. -/
def LexicalCast.ReadsDecimal (cast : LexicalCast) : Prop :=
  ∀ (t : Number) (text : Bytes) (n : Nat), Decimal text n →
    cast t text = if n ≤ t.max then some (BitVec.ofNat t.width n) else none

/-- The cast of unsigned numerals. -/
def decimalCast : LexicalCast := fun t text =>
  if text ≠ [] ∧ (∀ byte ∈ text, isDigit byte) ∧ decimalValue text ≤ t.max then
    some (BitVec.ofNat t.width (decimalValue text))
  else none

theorem decimalCast_readsDecimal : decimalCast.ReadsDecimal := by
  intro t text n h
  unfold decimalCast
  rw [h.value]
  by_cases hmax : n ≤ t.max
  · rw [if_pos hmax, if_pos ⟨h.nonempty, h.digits, hmax⟩]
  · rw [if_neg hmax, if_neg (fun h => hmax h.2.2)]

end LoginServer
