import LoginServer.Database.DBResult
import Mathlib.Data.List.Induction
import Mathlib.Logic.Function.Iterate

/-!
# `DBResult` at every cursor position

What the accessors should return is said by the result set alone: the cell of
the current row in the column of the field, the default where there is none.
`getNumber` stops at the row count.  `getString` compares the other way round
and stops one later, so a loop that has run to the end leaves it a cursor at
which it reads behind the rows.  The other two differences are in the cells:
`getNumber` has no test for `NULL`, and neither knows the length of a cell, so
both stop at a zero byte.

## Main results

* `fields_ofResultSet` — a name stands for the last column that has it.
* `getString_eq`, `getNumber_eq` — both accessors at any position.
* `answers_iff_inReach` — where both return what they should.
-/

namespace LoginServer

open LoginServer.Network

namespace ResultSet

/-- Every row has a cell for every field. -/
def Rectangular (res : ResultSet) : Prop :=
  ∀ row ∈ res.rows, row.length = res.fields.length

/-- The column of a field, the last one where the name occurs twice. -/
def column (res : ResultSet) (field : Bytes) : Option Nat :=
  ((res.fields.zipIdx.filter fun c => c.1 = field).getLast?).map Prod.snd

/-- The cell of a field in row `n`. -/
def cellAt (res : ResultSet) (n : Nat) (field : Bytes) : Option Cell :=
  match res.rows[n]?, res.column field with
  | some row, some column => row[column]?
  | _, _ => none

/-- The string a cell stands for; empty without a cell and for `NULL`. -/
def text : Option Cell → Bytes
  | some (some cell) => cell
  | _ => []

/-- The number a cell stands for; zero also where its text does not convert. -/
def number (cast : LexicalCast) (t : Number) : Option Cell → BitVec t.width
  | some (some cell) => (cast t cell).getD 0
  | _ => 0

end ResultSet

namespace DBResult

open ResultSet

/-- The result after `n` calls of `next`. -/
def cursor (res : ResultSet) (n : Nat) : DBResult := next^[n] (ofResultSet res)

/-- The accessors read no row behind the last one, follow no null pointer and
return the current row's cell or the default. -/
structure Answers (res : ResultSet) (n : Nat) (field : Bytes) : Prop where
  string : (cursor res n).getString field = some (text (res.cellAt n field))
  number : ∀ (cast : LexicalCast) (t : Number),
    (cursor res n).getNumber cast t field = some (ResultSet.number cast t (res.cellAt n field))

/-- The positions and cells the accessors were written for: not the row count
itself, no `NULL`, no zero byte. -/
structure InReach (res : ResultSet) (n : Nat) (field : Bytes) : Prop where
  notAtEnd : ¬ (res.rows ≠ [] ∧ n = res.rows.length ∧ field ∈ res.fields)
  cell : ∀ cell, res.cellAt n field = some cell → ∃ bytes, cell = some bytes ∧ 0 ∉ bytes

/-! ### The columns -/

theorem foldl_insertField_eq (columns : List (Bytes × Nat)) (init : Bytes → Option Nat)
    (field : Bytes) :
    columns.foldl insertField init field =
      (((columns.filter fun c => c.1 = field).getLast?).map Prod.snd).or (init field) := by
  induction columns using List.reverseRecOn with
  | nil => rfl
  | append_singleton columns c ih =>
      rw [List.foldl_append, List.filter_append]
      by_cases hc : c.1 = field
      · have hlast : [c].filter (fun c => c.1 = field) = [c] := by simp [hc]
        rw [hlast, List.getLast?_concat, ← hc]
        exact Function.update_self _ _ _
      · have hlast : [c].filter (fun c => c.1 = field) = [] := by simp [hc]
        rw [hlast, List.append_nil, ← ih]
        exact Function.update_of_ne (Ne.symm hc) _ _

/-- `m_fields` has the last column of every name. -/
theorem fields_ofResultSet (res : ResultSet) (field : Bytes) :
    (ofResultSet res).fields field = res.column field := by
  have h := foldl_insertField_eq res.fields.zipIdx (fun _ => none) field
  rw [Option.or_none] at h
  exact h

theorem column_eq_none {res : ResultSet} {field : Bytes} :
    res.column field = none ↔ field ∉ res.fields := by
  rw [column, Option.map_eq_none_iff, List.getLast?_eq_none_iff, List.filter_eq_nil_iff]
  constructor
  · intro h hmem
    obtain ⟨i, hi, rfl⟩ := List.mem_iff_getElem.mp hmem
    exact h (res.fields[i], i) (List.mem_zipIdx_iff_getElem?.mpr (by simp)) (by simp)
  · intro h c hc heq
    have hmem := List.mem_zipIdx_iff_getElem?.mp hc
    exact h ((of_decide_eq_true heq) ▸ List.mem_of_getElem? hmem)

theorem getElem?_column {res : ResultSet} {field : Bytes} {column : Nat}
    (h : res.column field = some column) : res.fields[column]? = some field := by
  rw [ResultSet.column, Option.map_eq_some_iff] at h
  obtain ⟨c, hc, rfl⟩ := h
  have hlast := List.mem_filter.mp (List.mem_of_getLast? hc)
  have hname : c.1 = field := of_decide_eq_true hlast.2
  exact hname ▸ List.mem_zipIdx_iff_getElem?.mp hlast.1

theorem column_lt {res : ResultSet} {field : Bytes} {column : Nat}
    (h : res.column field = some column) : column < res.fields.length :=
  (List.getElem?_eq_some_iff.mp (getElem?_column h)).1

/-- Where every name is there once, its column is the only one. -/
theorem column_of_nodup {res : ResultSet} (hnodup : res.fields.Nodup) {field : Bytes}
    (hmem : field ∈ res.fields) : res.column field = some (res.fields.idxOf field) := by
  cases hcolumn : res.column field with
  | none => exact absurd hmem (column_eq_none.mp hcolumn)
  | some column =>
      obtain ⟨hlt, rfl⟩ := List.getElem?_eq_some_iff.mp (getElem?_column hcolumn)
      rw [hnodup.idxOf_getElem]

/-! ### The accessors -/

/-- The calls of `next` move the index, and nothing else. -/
theorem cursor_eq (res : ResultSet) (n : Nat) :
    (cursor res n).fields = (ofResultSet res).fields ∧ (cursor res n).rows = res.rows ∧
      (cursor res n).index = n := by
  induction n with
  | zero => exact ⟨rfl, rfl, rfl⟩
  | succ n ih =>
      rw [cursor, Function.iterate_succ_apply', ← cursor]
      exact ⟨ih.1, ih.2.1, congrArg (· + 1) ih.2.2⟩

@[simp] theorem cursor_fields (res : ResultSet) (n : Nat) (field : Bytes) :
    (cursor res n).fields field = res.column field := by
  rw [(cursor_eq res n).1, fields_ofResultSet]

@[simp] theorem cursor_rows (res : ResultSet) (n : Nat) : (cursor res n).rows = res.rows :=
  (cursor_eq res n).2.1

@[simp] theorem cursor_index (res : ResultSet) (n : Nat) : (cursor res n).index = n :=
  (cursor_eq res n).2.2

/-- A row and a known field have a cell. -/
theorem cellAt_of_row {res : ResultSet} (hrect : res.Rectangular) {n column : Nat}
    {row : List Cell} {field : Bytes} (hrow : res.rows[n]? = some row)
    (hcolumn : res.column field = some column) :
    ∃ cell, row[column]? = some cell ∧ res.cellAt n field = some cell := by
  have hlen : row.length = res.fields.length := hrect row (List.mem_of_getElem? hrow)
  have hlt : column < row.length := by
    rw [hlen]
    exact column_lt hcolumn
  refine ⟨row[column], List.getElem?_eq_getElem hlt, ?_⟩
  rw [cellAt, hrow, hcolumn]
  exact List.getElem?_eq_getElem hlt

theorem cellAt_of_unknown {res : ResultSet} {n : Nat} {field : Bytes}
    (h : res.column field = none) : res.cellAt n field = none := by
  rw [cellAt, h]
  split <;> simp_all

theorem cellAt_of_end {res : ResultSet} {n : Nat} {field : Bytes}
    (h : res.rows.length ≤ n) : res.cellAt n field = none := by
  rw [cellAt, List.getElem?_eq_none h]

/-- `getString` at any position: behind the rows at the row count, and else
the text up to its first zero byte. -/
theorem getString_eq {res : ResultSet} (hrect : res.Rectangular) (n : Nat) (field : Bytes) :
    (cursor res n).getString field =
      if res.rows ≠ [] ∧ n = res.rows.length ∧ field ∈ res.fields then none
      else some (cString (text (res.cellAt n field))) := by
  cases hcolumn : res.column field with
  | none =>
      have hunknown := column_eq_none.mp hcolumn
      rw [if_neg (fun h => hunknown h.2.2), cellAt_of_unknown hcolumn]
      unfold getString
      simp only [cursor_fields, hcolumn]
      split <;> rfl
  | some column =>
      have hknown : field ∈ res.fields := by
        by_contra h
        rw [column_eq_none.mpr h] at hcolumn
        cases hcolumn
      by_cases hlt : n < res.rows.length
      · have hrow : res.rows[n]? = some res.rows[n] := List.getElem?_eq_getElem hlt
        obtain ⟨cell, hcell, hcellAt⟩ := cellAt_of_row hrect hrow hcolumn
        rw [if_neg (by omega), hcellAt,
          getString_of_cell (by simp [hlt]) ((cursor_fields res n field).trans hcolumn)
            hcell]
        cases cell <;> rfl
      · rw [cellAt_of_end (Nat.le_of_not_lt hlt)]
        by_cases hend : res.rows ≠ [] ∧ n = res.rows.length
        · -- the size is not below the index, and there is no such row
          have hpast : ¬ (res.rows.isEmpty = true ∨ res.rows.length < n) := by
            simp [hend.1, hend.2]
          have hnone : res.rows[n]? = none := List.getElem?_eq_none (Nat.le_of_not_lt hlt)
          unfold getString
          simp only [cursor_fields, cursor_rows, cursor_index, cell?, hcolumn, hnone]
          rw [if_neg hpast, if_pos ⟨hend.1, hend.2, hknown⟩]
        · have hguard : res.rows.isEmpty = true ∨ res.rows.length < n := by
            rw [List.isEmpty_iff]
            by_cases hempty : res.rows = []
            · exact Or.inl hempty
            · have hne : n ≠ res.rows.length := fun h => hend ⟨hempty, h⟩
              exact Or.inr (by omega)
          unfold getString
          rw [cursor_rows, cursor_index, if_pos hguard,
            if_neg (fun h => hend ⟨h.1, h.2.1⟩)]
          rfl

/-- `getNumber` at any position: a null pointer in a cell that is `NULL`, and
else what the text up to its first zero byte converts to. -/
theorem getNumber_eq {res : ResultSet} (hrect : res.Rectangular) (n : Nat) (field : Bytes)
    (cast : LexicalCast) (t : Number) :
    (cursor res n).getNumber cast t field =
      if res.cellAt n field = some none then none
      else some (ResultSet.number (fun t cell => cast t (cString cell)) t
        (res.cellAt n field)) := by
  by_cases hlt : n < res.rows.length
  · have hrow : res.rows[n]? = some res.rows[n] := List.getElem?_eq_getElem hlt
    cases hcolumn : res.column field with
    | none =>
        rw [cellAt_of_unknown hcolumn, if_neg (by simp)]
        unfold getNumber
        simp only [cursor_fields, hcolumn]
        split <;> rfl
    | some column =>
        obtain ⟨cell, hcell, hcellAt⟩ := cellAt_of_row hrect hrow hcolumn
        rw [hcellAt, getNumber_of_cell (by simp [hlt])
          ((cursor_fields res n field).trans hcolumn) hcell]
        cases cell <;> rfl
  · have hguard : res.rows.isEmpty = true ∨ n ≥ res.rows.length :=
      Or.inr (Nat.le_of_not_lt hlt)
    unfold getNumber
    rw [cellAt_of_end (Nat.le_of_not_lt hlt), cursor_rows, cursor_index, if_pos hguard,
      if_neg (by simp)]
    rfl

/-! ### Where they answer -/

/-- For every result set, position and field: the accessors answer if and only
if the position and the cell are in reach. -/
theorem answers_iff_inReach {res : ResultSet} (hrect : res.Rectangular) (n : Nat)
    (field : Bytes) : Answers res n field ↔ InReach res n field := by
  constructor
  · intro h
    have hstring := h.string
    have hnumber := h.number (fun _ _ => none) .int
    rw [getString_eq hrect] at hstring
    rw [getNumber_eq hrect] at hnumber
    have hnotAtEnd : ¬ (res.rows ≠ [] ∧ n = res.rows.length ∧ field ∈ res.fields) := by
      intro hend
      rw [if_pos hend] at hstring
      cases hstring
    rw [if_neg hnotAtEnd] at hstring
    refine ⟨hnotAtEnd, fun cell hcell => ?_⟩
    rw [hcell] at hstring hnumber
    cases cell with
    | none => cases hnumber
    | some bytes => exact ⟨bytes, rfl, cString_eq_iff.mp (Option.some.inj hstring)⟩
  · intro h
    have hcells : ∀ cell, res.cellAt n field = some cell →
        ∃ bytes, cell = some bytes ∧ cString bytes = bytes := by
      intro cell hcell
      obtain ⟨bytes, hbytes, hzero⟩ := h.cell cell hcell
      exact ⟨bytes, hbytes, cString_eq_iff.mpr hzero⟩
    constructor
    · rw [getString_eq hrect, if_neg h.notAtEnd]
      cases hcell : res.cellAt n field with
      | none => rfl
      | some cell =>
          obtain ⟨bytes, rfl, hbytes⟩ := hcells cell hcell
          exact congrArg some hbytes
    · intro cast t
      rw [getNumber_eq hrect]
      cases hcell : res.cellAt n field with
      | none => rfl
      | some cell =>
          obtain ⟨bytes, rfl, hbytes⟩ := hcells cell hcell
          rw [if_neg (by simp)]
          simp only [ResultSet.number, hbytes]

/-- One row with an account number, and one with a name that is `NULL`. -/
def sampleResult : ResultSet :=
  { fields := [[105, 100], [110]]
    rows := [[some [55], none]] }

/-- `id` in the row itself. -/
theorem answers_sample :
    sampleResult.Rectangular ∧ (Answers sampleResult 0 [105, 100] ↔
      InReach sampleResult 0 [105, 100]) :=
  ⟨by simp [ResultSet.Rectangular, sampleResult],
    answers_iff_inReach (by simp [ResultSet.Rectangular, sampleResult]) 0 [105, 100]⟩

/-- A loop over the one row ends at position one, where `getString` reads
behind the rows and `getNumber` does not; and in the row itself `getNumber`
follows the null pointer of a `NULL`. -/
theorem getString_past_end :
    ¬ Answers sampleResult 1 [105, 100] ∧
      (cursor sampleResult 1).hasNext = false ∧
      (cursor sampleResult 1).getString [105, 100] = none ∧
      (cursor sampleResult 1).getNumber decimalCast .uint16 [105, 100] = some 0 ∧
      (cursor sampleResult 0).getNumber decimalCast .uint16 [110] = none := by
  have hstring : (cursor sampleResult 1).getString [105, 100] = none := by decide
  refine ⟨fun h => ?_, by decide, hstring, by decide, by decide⟩
  have := h.string
  rw [hstring] at this
  cases this

end DBResult

end LoginServer
