import FormBasic.Proofs.Data.Rows

/-!
# Tables that are filled

A table keeps one list of columns, which it takes from the first row that has any. Each row keeps
its cells under their names, so a name finds its cell in a row of any result; a position counts
among the table's columns, whichever result the row came from.

## Main definitions

* `Data.DataTable.filled` - a table with the rows of a result appended
* `Data.DataTable.Reached` - tables that were filled any number of times
* `Data.DataTable.cell` - the cell of a table in a row under a key
* `Data.DataTable.heads` - the columns of a table, or those of a result if it has none

## Main statements

* `Data.DataTable.cell_filled_of_lt` - the earlier rows stay
* `Data.DataTable.cell_filled_name` - a name leads to the cell of the result
* `Data.DataTable.cell_filled_position` - a position leads to the cell of the result if it has the
  same name in the table
-/

namespace FormBasic.Data

/-- The names of a row are those of its columns. -/
theorem keys_rowOf {columns : List Text} {cells : List Value} (hnodup : columns.Nodup)
    (hwidth : cells.length = columns.length) : (rowOf columns cells).keys = columns := by
  have hnames : (columns.zip cells).map Prod.fst = columns :=
    List.map_fst_zip (Nat.le_of_eq hwidth.symm)
  have hentries := Table.entries_setAll (Table.empty : Table Value) (columns.zip cells)
    (by rw [hnames]; exact hnodup)
  rw [Table.keys, rowOf, Table.ofList, hentries]
  exact hnames

namespace DataTable

variable {t : DataTable} {columns : List Text} {rows : List (List Value)}

/-- The table with the rows of a result appended. -/
def filled (t : DataTable) (columns : List Text) (rows : List (List Value)) : DataTable :=
  (rows.map (rowOf columns)).foldl addRow t

/-- Whether a table was made by filling a fresh or cleared one with results. -/
inductive Reached : DataTable → Prop where
  | fresh : Reached {}
  | filled {t : DataTable} (columns : List Text) (rows : List (List Value)) (h : Reached t) :
      Reached (t.filled columns rows)

/-- Whether the rows of a table are empty unless the table has columns. -/
def Headed (t : DataTable) : Prop := t.columns = [] → ∀ row ∈ t.rows, row.entries = []

theorem Headed.addRow (h : t.Headed) (row : Table Value) : (t.addRow row).Headed := by
  intro hcolumns other hother
  cases hheads : t.columns with
  | cons name names => simp [DataTable.addRow, hheads] at hcolumns
  | nil =>
    simp only [DataTable.addRow, hheads, List.isEmpty_nil, if_true, Table.keys,
      List.map_eq_nil_iff] at hcolumns
    rcases Array.mem_push.1 hother with hmem | rfl
    · exact h hheads other hmem
    · exact hcolumns

theorem Headed.foldl (h : t.Headed) (rows : List (Table Value)) :
    (rows.foldl DataTable.addRow t).Headed := by
  induction rows generalizing t with
  | nil => exact h
  | cons row rest ih => exact ih (h.addRow row)

theorem Reached.headed (h : t.Reached) : t.Headed := by
  induction h with
  | fresh => exact fun _ row hrow => absurd hrow (Array.not_mem_empty row)
  | filled columns rows _ ih => exact ih.foldl _

theorem rows_filled (t : DataTable) (columns : List Text) (rows : List (List Value)) :
    (t.filled columns rows).rows = t.rows ++ (rows.map (rowOf columns)).toArray := by
  rw [filled]
  induction rows.map (rowOf columns) generalizing t with
  | nil => simp
  | cons row rest ih => simp [ih, addRow]

/-- The columns of the table; those of a result if the table has none. -/
def heads (t : DataTable) (columns : List Text) : List Text :=
  if t.columns.isEmpty then columns else t.columns

theorem columns_addRow {row : Table Value} (hkeys : row.keys = columns) :
    (t.addRow row).columns = t.heads columns := by
  rw [addRow, heads, hkeys]

theorem heads_addRow {row : Table Value} (hkeys : row.keys = columns) :
    (t.addRow row).heads columns = t.heads columns := by
  rw [heads, columns_addRow hkeys]
  cases hcolumns : t.columns with
  | nil => simp [heads, hcolumns]
  | cons name names => simp [heads, hcolumns]

/-- A filled table keeps its columns, and takes those of the result if it has none. -/
theorem columns_filled (hnodup : columns.Nodup)
    (hwidth : ∀ row ∈ rows, row.length = columns.length) (hrows : rows ≠ []) :
    (t.filled columns rows).columns = t.heads columns := by
  induction rows generalizing t with
  | nil => exact absurd rfl hrows
  | cons row rest ih =>
    rw [List.forall_mem_cons] at hwidth
    have hkeys := keys_rowOf hnodup hwidth.1
    have hstep : t.filled columns (row :: rest) =
        (t.addRow (rowOf columns row)).filled columns rest := rfl
    rw [hstep]
    by_cases hrest : rest = []
    · subst hrest
      exact columns_addRow hkeys
    · rw [ih hwidth.2 hrest, heads_addRow hkeys]

-- ════════════════════════════════════════════════════════════════════════════
-- Cells
-- ════════════════════════════════════════════════════════════════════════════

/-- The cell of a table in a row under a key; nothing if there is no such row. -/
def cell (t : DataTable) (i : Nat) (key : Value) : Except Refusal Value :=
  match t.rows[i]? with
  | some row => lookupColumn row t.columns key
  | none => .ok .nothing

/-- The columns do not matter for an empty row. -/
theorem lookupColumn_of_isEmpty {row : Table Value} (h : row.entries = [])
    (columns columns' : List Text) (key : Value) :
    lookupColumn row columns key = lookupColumn row columns' key := by
  have hget : row.get? = fun _ => none := funext fun name => by rw [Table.get?, h]; rfl
  have hposition : ∀ name : Option Text, (name.bind fun _ => (none : Option Value)) = none := by
    rintro (_ | name) <;> rfl
  unfold lookupColumn
  rw [hget]
  simp only [hposition]
  cases key with
  | float x => exact bind_congr fun _ => rfl
  | _ =>
    refine bind_congr fun position => ?_
    cases position with
    | some n => rfl
    | none =>
      refine bind_congr fun name => ?_
      split <;> split <;> rfl

theorem columns_foldl (h : t.columns ≠ []) (rows : List (Table Value)) :
    (rows.foldl addRow t).columns = t.columns := by
  induction rows generalizing t with
  | nil => rfl
  | cons row rest ih =>
    have hstep : (t.addRow row).columns = t.columns := by
      rw [addRow, if_neg (by simpa using h)]
    rw [List.foldl_cons, ih (by rwa [hstep]), hstep]

/-- The rows that a table has stay as they are when it is filled. -/
theorem cell_filled_of_lt (h : t.Headed) {i : Nat} (hi : i < t.rows.size)
    (columns : List Text) (rows : List (List Value)) (key : Value) :
    (t.filled columns rows).cell i key = t.cell i key := by
  have hrow : (t.filled columns rows).rows[i]? = t.rows[i]? := by
    rw [rows_filled, Array.getElem?_append_left hi]
  rw [cell, cell, hrow, Array.getElem?_eq_getElem hi]
  by_cases hcolumns : t.columns = []
  · exact lookupColumn_of_isEmpty (h hcolumns _ (Array.getElem_mem hi)) _ _ key
  · rw [filled, columns_foldl hcolumns]

theorem cell_filled (t : DataTable) (columns : List Text) {rows : List (List Value)} {i : Nat}
    {row : List Value} (hi : rows[i]? = some row) (key : Value) :
    (t.filled columns rows).cell (t.rows.size + i) key =
      lookupColumn (rowOf columns row) (t.filled columns rows).columns key := by
  have hrow : (t.filled columns rows).rows[t.rows.size + i]? = some (rowOf columns row) := by
    rw [rows_filled, Array.getElem?_append_right (Nat.le_add_right ..)]
    simp [hi]
  rw [cell, hrow]

section Appended

variable {i j l : Nat} {row : List Value} {name : Text} {cell : Value}

/-- The name of a column leads to its cell, whatever columns the table has. -/
theorem cell_filled_name (t : DataTable) (hnodup : columns.Nodup)
    (hwidth : ∀ row ∈ rows, row.length = columns.length) (hi : rows[i]? = some row)
    (hname : columns[j]? = some name) (hcell : row[j]? = some cell) :
    (t.filled columns rows).cell (t.rows.size + i) (.text name) = .ok cell := by
  obtain ⟨hj, -⟩ := List.getElem?_eq_some_iff.1 hname
  rw [cell_filled t columns hi]
  refine lookupColumn_name ?_ _
  rw [get?_rowOf (hwidth row (List.mem_of_getElem? hi)) (nodup_iff_lastNamed.1 hnodup j hj) hname,
    hcell]

/-- A position leads to the cell under the name that the table has there. -/
theorem cell_filled_position (t : DataTable) (hnodup : columns.Nodup)
    (hwidth : ∀ row ∈ rows, row.length = columns.length) (hi : rows[i]? = some row) (j : Nat) :
    (t.filled columns rows).cell (t.rows.size + i) (.int j) =
      .ok (((t.heads columns)[j]?.bind (rowOf columns row).get?).getD .nothing) := by
  rw [cell_filled t columns hi, lookupColumn_int,
    columns_filled hnodup hwidth (List.ne_nil_of_mem (List.mem_of_getElem? hi))]

/-- A position leads to the cell of the column that has the name of the table's column there. -/
theorem cell_filled_of_head (t : DataTable) (hnodup : columns.Nodup)
    (hwidth : ∀ row ∈ rows, row.length = columns.length) (hi : rows[i]? = some row)
    (hhead : (t.heads columns)[j]? = columns[l]?) (hcell : row[l]? = some cell) :
    (t.filled columns rows).cell (t.rows.size + i) (.int j) = .ok cell := by
  have hlength := hwidth row (List.mem_of_getElem? hi)
  have hl : l < columns.length := hlength ▸ (List.getElem?_eq_some_iff.1 hcell).1
  have hname : columns[l]? = some columns[l] := List.getElem?_eq_getElem hl
  rw [cell_filled_position t hnodup hwidth hi, hhead, hname, Option.bind_some,
    get?_rowOf hlength (nodup_iff_lastNamed.1 hnodup l hl) hname, hcell]
  rfl

/-- A position at which the table has no column of the result leads to nothing. -/
theorem cell_filled_of_no_head (t : DataTable) (hnodup : columns.Nodup)
    (hwidth : ∀ row ∈ rows, row.length = columns.length) (hi : rows[i]? = some row)
    (hhead : ∀ name ∈ columns, (t.heads columns)[j]? ≠ some name) :
    (t.filled columns rows).cell (t.rows.size + i) (.int j) = .ok .nothing := by
  rw [cell_filled_position t hnodup hwidth hi]
  cases hname : (t.heads columns)[j]? with
  | none => rfl
  | some name =>
    have hnew : name ∉ (rowOf columns row).keys := by
      rw [keys_rowOf hnodup (hwidth row (List.mem_of_getElem? hi))]
      exact fun hmem => hhead name hmem hname
    have hget : (rowOf columns row).get? name = none :=
      Option.eq_none_iff_forall_ne_some.2 fun cell hcell => hnew (Table.mem_keys_of_get? hcell)
    rw [Option.bind_some, hget]
    rfl

end Appended

end DataTable

end FormBasic.Data
