import FormBasic.Data.Object
import FormBasic.Proofs.Table
import Mathlib.Data.List.Nodup
import Mathlib.Data.Nat.Find

/-!
# Cells of rows

A row of a result is stored under the names of its columns, so a name has one cell only: that of the
last column with this name. A position is looked up by way of the name of the column there, so it
leads to that cell, too.

## Main definitions

* `Data.LastNamed` - the last column that has the name of a given one

## Main statements

* `Data.exists_lastNamed`, `Data.LastNamed.eq_iff` - there is a last column for every one, and it is
  the column itself unless a later one has its name
* `Data.get?_rowOf` - the cell of a row under the name of a column
* `Data.lookupColumn_position`, `Data.lookupColumn_name` - the two ways to a cell
-/

namespace FormBasic

/-- The last entry under a name is the one that counts. -/
theorem Table.lookup_reverse {β : Type} {es : List (Text × β)} {i : Nat} {name : Text} {value : β}
    (hi : es[i]? = some (name, value)) (hlast : ∀ l e, i < l → es[l]? = some e → e.1 ≠ name) :
    Table.lookup name es.reverse = some value := by
  obtain ⟨hlt, hget⟩ := List.getElem?_eq_some_iff.1 hi
  have hsplit : es.reverse = (es.drop (i + 1)).reverse ++ (name, value) :: (es.take i).reverse := by
    conv => lhs; rw [← List.take_append_drop i es, List.drop_eq_getElem_cons hlt, hget]
    simp
  have hlater : Table.lookup name (es.drop (i + 1)).reverse = none := by
    rw [← Option.not_isSome_iff_eq_none, Table.isSome_lookup, List.contains_iff_mem]
    intro hmem
    obtain ⟨e, he, rfl⟩ := List.mem_map.1 hmem
    obtain ⟨l, hl⟩ := List.mem_iff_getElem?.1 (List.mem_reverse.1 he)
    rw [List.getElem?_drop] at hl
    exact hlast _ e (by omega) hl rfl
  rw [hsplit, Table.lookup_append, hlater, Table.lookup]
  simp

namespace Data

variable {columns : List Text} {cells : List Value} {i j : Nat}

/-- Whether the column at `i` is the last one that has the name of the column at `j`. -/
structure LastNamed (columns : List Text) (j i : Nat) : Prop where
  name_eq : columns[i]? = columns[j]?
  last : ∀ l, i < l → columns[l]? ≠ columns[j]?

theorem exists_lastNamed (hj : j < columns.length) : ∃ i, LastNamed columns j i := by
  classical
  let named : Nat → Prop := fun l => columns[l]? = columns[j]?
  refine ⟨Nat.findGreatest named columns.length,
    Nat.findGreatest_spec (P := named) (Nat.le_of_lt hj) rfl, fun l hl => ?_⟩
  by_cases hle : l ≤ columns.length
  · exact Nat.findGreatest_is_greatest hl hle
  · rw [List.getElem?_eq_none (Nat.le_of_not_le hle), List.getElem?_eq_getElem hj]
    exact nofun

theorem LastNamed.lt_length (h : LastNamed columns j i) (hj : j < columns.length) :
    i < columns.length :=
  (List.getElem?_eq_some_iff.1 (h.name_eq.trans (List.getElem?_eq_getElem hj))).1

/-- A column is the last one of its name unless a later one has the name. -/
theorem LastNamed.eq_iff (h : LastNamed columns j i) :
    i = j ↔ ∀ l, j < l → columns[l]? ≠ columns[j]? := by
  refine ⟨fun heq => heq ▸ h.last, fun hlast => ?_⟩
  rcases Nat.lt_trichotomy i j with hlt | heq | hlt
  · exact absurd rfl (h.last j hlt)
  · exact heq
  · exact absurd h.name_eq (hlast i hlt)

/-- The names of columns differ if every column is the last one of its name. -/
theorem nodup_iff_lastNamed : columns.Nodup ↔ ∀ j < columns.length, LastNamed columns j j := by
  rw [List.nodup_iff_getElem?_ne_getElem?]
  constructor
  · intro h j hj
    refine ⟨rfl, fun l hl => ?_⟩
    by_cases hlt : l < columns.length
    · exact (h j l hl hlt).symm
    · rw [List.getElem?_eq_none (Nat.le_of_not_lt hlt), List.getElem?_eq_getElem hj]
      exact nofun
  · exact fun h j l hjl hl => ((h j (Nat.lt_trans hjl hl)).last l hjl).symm

/-- The cell of a row under the name of a column is that of the last column with the name. -/
theorem get?_rowOf (hwidth : cells.length = columns.length) (h : LastNamed columns j i)
    {name : Text} (hj : columns[j]? = some name) :
    (rowOf columns cells).get? name = cells[i]? := by
  have hi : columns[i]? = some name := h.name_eq.trans hj
  obtain ⟨cell, hcell⟩ : ∃ cell, cells[i]? = some cell := by
    obtain ⟨hlt, -⟩ := List.getElem?_eq_some_iff.1 hi
    exact ⟨_, List.getElem?_eq_getElem (hwidth ▸ hlt)⟩
  have hentry : (columns.zip cells)[i]? = some (name, cell) :=
    List.getElem?_zip_eq_some.2 ⟨hi, hcell⟩
  have hlast : ∀ l e, i < l → (columns.zip cells)[l]? = some e → e.1 ≠ name := by
    intro l e hl he heq
    exact h.last l hl (((List.getElem?_zip_eq_some.1 he).1.trans (congrArg _ heq)).trans hj.symm)
  rw [rowOf, Table.ofList, Table.get?_setAll, Table.lookup_reverse hentry hlast, hcell]
  rfl

/-- A position among the columns of a table leads to the cell under the name of that column. -/
theorem lookupColumn_int (row : Table Value) (columns : List Text) (j : Nat) :
    lookupColumn row columns (.int j) = .ok ((columns[j]?.bind row.get?).getD .nothing) := by
  change (if (0 : Int) ≤ j then pure ((columns[(j : Int).toNat]?.bind row.get?).getD .nothing)
    else pure .nothing : Except Refusal Value) = _
  rw [if_pos (Int.natCast_nonneg j), Int.toNat_natCast]
  rfl

/-- At the position of a column a row has the cell of the last column with its name. -/
theorem lookupColumn_position (hwidth : cells.length = columns.length)
    (h : LastNamed columns j i) (hj : j < columns.length) :
    lookupColumn (rowOf columns cells) columns (.int j) = .ok (cells[i]?.getD .nothing) := by
  have hname : columns[j]? = some columns[j] := List.getElem?_eq_getElem hj
  rw [lookupColumn_int, hname, Option.bind_some, get?_rowOf hwidth h hname]

/-- A name that a row has leads to its cell, whatever columns there are. -/
theorem lookupColumn_name {row : Table Value} {name : Text} {cell : Value}
    (h : row.get? name = some cell) (columns : List Text) :
    lookupColumn row columns (.text name) = .ok cell := by
  have hdisplay : (Value.text name).display = pure name := rfl
  unfold lookupColumn
  simp only [hdisplay, pure_bind, h]
  rfl

end Data

end FormBasic
