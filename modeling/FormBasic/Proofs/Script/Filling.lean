import FormBasic.Proofs.Data.Tables
import FormBasic.Proofs.Script.Queries
import FormBasic.Script.Eval

/-!
# Filling a table

An adapter runs its command and appends the result to a table. Scripts see the table through a
variable: the number of rows, and the cell in a row under a key. What they read there is the cell of
the table as it is, so the laws of filled tables are laws of what scripts read.

## Main definitions

* `Script.rowCount`, `Script.cellOf` - the expressions that read a table
* `Script.ReadsCell` - what is read in a row under a key
* `World.withTable` - the world with another content of a table

## Main statements

* `Script.invoke_fill`, `Script.invoke_clear` - what filling comes to, whatever happens before the
  reply, and what clearing does
* `Script.eval_rowCount`, `Script.eval_cellOf` - what scripts read is what the table has
* `Script.fill_appends` - what scripts read after a table was filled
-/

namespace FormBasic

open Data (Command DataTable Object Store)

/-- The world with the content of a table replaced. -/
def World.withTable (w : World) (table : Handle) (t : DataTable) : World :=
  { w with objects := w.objects.set table (.table t) }

namespace Script

variable {w : World} {h adapter command table : Handle} {c : Command} {t : DataTable} {link : Nat}
  {parameters : List (Text × Value)} {line : Line} {name : Text}

/-- An adapter asks for the result of its command once and appends it to the table as the table then
is. -/
theorem invoke_fill (ha : w.objects.get? adapter = some (.adapter (.object command)))
    (hc : w.objects.get? command = some (.command c)) (hsends : w.Sends c link parameters)
    (ht : w.objects.get? table = some (.table t)) (hname : Text.word name = "fill")
    (rest : List Value) :
    invoke adapter name (.object table :: rest) w =
      .asking w (.execute link c.text parameters) fun w' reply =>
        match reply with
        | .ok (.ok result) =>
          match w'.objects.get? table with
          | some (.table t) =>
            .done (w'.withTable table (t.filled (result.columns.getD []) result.rows))
              (.int result.rows.length)
          | _ => .done w' (.int result.rows.length)
        | .ok (.error reason) => .failed w' (.database (.failed "ExecuteReader" reason))
        | .error fault => .failed w' fault := by
  have hinvoke : invoke adapter name (.object table :: rest) w =
      fill (.object command) (.object table) w := by
    refine (bind_of_done (m := world) rfl _).trans ?_
    rw [ha, hname]
    rfl
  rw [hinvoke]
  refine (bind_of_done (m := object? (.object table)) (object?_apply table w) _).trans ?_
  rw [ht]
  refine (bind_of_done (object?_apply command w) _).trans ?_
  rw [hc]
  refine bind_of_asking (executeReader_apply hsends) fun w' reply => ?_
  obtain fault | reason | result := reply
  · rfl
  · rfl
  · let reader := Data.Reader.ofResult (result.columns.getD []) result.rows
    have hlength : reader.rows.length = result.rows.length := List.length_map ..
    refine (bind_of_done (m := (fun w => .done w reader : Script _)) rfl _).trans ?_
    refine (bind_of_done (object?_apply table w') _).trans ?_
    simp only [hlength]
    cases hfound : w'.objects.get? table with
    | none => rfl
    | some object => cases object <;> rfl

/-- A table is cleared directly or by way of its rows, and is then as a fresh one. -/
theorem invoke_clear (hclears : w.objects.get? h = some (.table t) ∧ table = h ∨
      w.objects.get? h = some (.rows table)) (hname : Text.word name = "clear")
    (args : List Value) : invoke h name args w = .done (w.withTable table {}) .nothing := by
  refine (bind_of_done (m := world) rfl _).trans ?_
  obtain ⟨ht, rfl⟩ | hrows := hclears
  · rw [ht, hname]
    rfl
  · rw [hrows, hname]
    rfl

/-- The number of rows of a table. -/
def rowCount (name : Text) : Expr := .member (.member (.ident name) "Rows") "Count"

/-- The cell of a table in a row under a key. -/
def cellOf (name : Text) (row key : Expr) : Expr :=
  .call (.call (.member (.ident name) "Rows") [row]) [key]

section Variables

theorem staticClass?_variable (hvar : w.globals.get? name = some (.object h)) :
    w.staticClass? (.ident name) = none := by
  have hcontains : w.globals.contains name = true := by
    rw [Table.contains, hvar]
    rfl
  rw [World.staticClass?, hcontains, Bool.true_or, if_pos rfl]

variable (hself : name ≠ selfName) (hvar : w.globals.get? name = some (.object h))

include hself hvar

theorem component?_variable : w.component? (.ident name) = none := by
  have hholds : w.holdsObject name = true := by
    rw [World.holdsObject, hvar]
    rfl
  rw [World.component?, if_neg hself, if_pos hholds]

theorem eval_variable (line : Line) : eval line (.ident name) w = .done w (.object h) := by
  have hvalue : w.identifier name = .object h := by
    rw [World.identifier, if_neg hself, hvar]
  rw [eval, bind_of_done (m := world) rfl, hvalue]
  rfl

/-- A member of a variable that holds an object is read from the object. -/
theorem eval_variableMember (line : Line) (property : Text) :
    eval line (.member (.ident name) property) w = member h property w := by
  rw [eval]
  refine (bind_of_done (m := world) rfl _).trans ?_
  rw [component?_variable hself hvar, staticClass?_variable hvar]
  exact bind_of_done (eval_variable hself hvar line) _

/-- A method of a variable that holds an object is the object's. -/
theorem eval_variableCall {args : List Expr} {values : List Value}
    (hargs : evalAll line args w = .done w values) (method : Text) :
    eval line (.call (.member (.ident name) method) args) w = invoke h method values w := by
  rw [eval, bind_of_done hargs]
  refine (bind_of_done (m := callOnList? (.ident name) _ _) rfl _).trans ?_
  refine (bind_of_done (m := world) rfl _).trans ?_
  rw [component?_variable hself hvar, staticClass?_variable hvar]
  simp only [if_neg hself]
  exact bind_of_done (eval_variable hself hvar line) _

end Variables

section Reading

variable {i : Nat} {key : Value} {ei ek : Expr}

/-- Reading the rows of a table makes a collection that refers to it. -/
theorem member_rows (ht : w.objects.get? h = some (.table t)) :
    member h "Rows" w = .done (w.adding (.rows h)) (.object (w.objects.add (.rows h)).2) := by
  have hmember : w.objects.member h "Rows" = w.objects.addValue (.rows h) := by
    unfold Store.member
    rw [ht]
    rfl
  rw [member, bind_of_done (m := world) rfl, hmember]
  rfl

theorem table?_eq {s : Store} (ht : s.get? h = some (.table t)) : s.table? h = some t := by
  rw [Store.table?, ht]

/-- The number of rows is that of the table. -/
theorem eval_rowCount (hself : name ≠ selfName) (hvar : w.globals.get? name = some (.object h))
    (ht : w.objects.get? h = some (.table t)) (line : Line) :
    ∃ w', eval line (rowCount name) w = .done w' (.int t.rows.size) := by
  let rows := (w.objects.add (.rows h)).2
  have hrows : eval line (.member (.ident name) "Rows") w =
      .done (w.adding (.rows h)) (.object rows) :=
    (eval_variableMember hself hvar line "Rows").trans (member_rows ht)
  have hcount : (w.adding (.rows h)).objects.member rows "Count" =
      ((w.adding (.rows h)).objects, .int t.rows.size) := by
    unfold Store.member
    rw [World.get?_adding_self]
    change (_, Value.int ((w.adding (.rows h)).objects.rowCount h)) = _
    rw [Store.rowCount, table?_eq (World.get?_adding_of_get? ht _)]
  refine ⟨w.adding (.rows h), ?_⟩
  rw [rowCount, eval]
  refine (bind_of_done (m := world) rfl _).trans ?_
  have hfree : w.component? (.member (.ident name) "Rows") = none :=
    if_neg fun hboth => hself hboth.1
  rw [hfree]
  refine (bind_of_done hrows _).trans ?_
  refine (bind_of_done (m := world) rfl _).trans ?_
  rw [hcount]
  rfl

/-- A row of a table is a new object with the cells and the table's columns. -/
theorem index_rows {rows : Handle} (hrows : w.objects.get? rows = some (.rows h))
    (ht : w.objects.get? h = some (.table t)) (i : Nat) :
    index (.object rows) (.int i) w =
      t.rows[i]?.elim (.done w .nothing) fun row =>
        let object := Object.row ⟨row, t.columns⟩
        .done (w.adding object) (.object (w.objects.add object).2) := by
  have hitem : w.objects.item rows (.int i) =
      .ok (t.rows[i]?.elim (w.objects, .nothing) fun row =>
        w.objects.addValue (.row ⟨row, t.columns⟩)) := by
    have hposition : (Value.int i).toPosition = pure (i : Int) := rfl
    unfold Store.item
    simp only [hrows, hposition, pure_bind, table?_eq ht, Int.natCast_nonneg, if_true,
      Int.toNat_natCast]
    cases t.rows[i]? <;> rfl
  refine (bind_of_done (m := world) rfl _).trans ?_
  change (lift ((w.objects.item rows (.int i)).mapError .refused) >>= _) w = _
  rw [hitem]
  cases t.rows[i]? <;> rfl

/-- The cell of a row is read from the row, which no reading changes. -/
theorem index_row {row : Handle} {content : Data.Row}
    (hrow : w.objects.get? row = some (.row content)) (key : Value) :
    index (.object row) key w =
      .ended w ((Data.lookupColumn content.values content.columns key).mapError .refused) := by
  have hitem : w.objects.item row key =
      (Data.lookupColumn content.values content.columns key).map fun cell => (w.objects, cell) := by
    unfold Store.item
    rw [hrow]
    change (Data.lookupColumn content.values content.columns key >>= fun cell =>
      pure (w.objects, cell)) = _
    cases Data.lookupColumn content.values content.columns key <;> rfl
  refine (bind_of_done (m := world) rfl _).trans ?_
  change (lift ((w.objects.item row key).mapError .refused) >>= _) w = _
  rw [hitem]
  cases Data.lookupColumn content.values content.columns key <;> rfl

/-- A cell that is read is that of the table, whatever the row and the key are. -/
theorem eval_cellOf (hself : name ≠ selfName) (hvar : w.globals.get? name = some (.object h))
    (ht : w.objects.get? h = some (.table t)) (hi : eval line ei w = .done w (.int i))
    (hkey : eval line ek w = .done w key) :
    ∃ w', eval line (cellOf name ei ek) w = .ended w' ((t.cell i key).mapError .refused) := by
  let rows := (w.objects.add (.rows h)).2
  let found := w.adding (.rows h)
  have hrow : eval line (.call (.member (.ident name) "Rows") [ei]) w =
      index (.object rows) (.int i) found := by
    rw [eval_variableCall hself hvar (evalAll_singleton hi)]
    have hinvoke : invoke h "Rows" [.int i] w = invokeMember h "Rows" [.int i] w := by
      refine (bind_of_done (m := world) rfl _).trans ?_
      rw [ht]
      rfl
    rw [hinvoke, invokeMember, bind_of_done (member_rows ht)]
    rfl
  rw [index_rows (World.get?_adding_self w _) (World.get?_adding_of_get? ht _)] at hrow
  have hcell : eval line (cellOf name ei ek) w =
      (eval line (.call (.member (.ident name) "Rows") [ei]) >>= fun row => indexed row [key]) w :=
    bind_of_done (evalAll_singleton hkey) _
  rw [hcell, DataTable.cell]
  cases hfound : t.rows[i]? with
  | none =>
    rw [hfound] at hrow
    refine ⟨found, (bind_of_done (a := Value.nothing) hrow _).trans ?_⟩
    rfl
  | some row =>
    rw [hfound] at hrow
    refine ⟨found.adding (.row ⟨row, t.columns⟩), (bind_of_done hrow _).trans ?_⟩
    exact index_row (World.get?_adding_self found _) key

/-- Whether the cell of a table, in a row and under a key of these values, is read as this. -/
def ReadsCell (line : Line) (w : World) (name : Text) (i : Nat) (key : Value)
    (result : Except Fault Value) : Prop :=
  ∀ ei ek, eval line ei w = .done w (.int i) → eval line ek w = .done w key →
    ∃ w', eval line (cellOf name ei ek) w = .ended w' result

theorem readsCell (hself : name ≠ selfName) (hvar : w.globals.get? name = some (.object h))
    (ht : w.objects.get? h = some (.table t)) (line : Line) (i : Nat) (key : Value) :
    ReadsCell line w name i key ((t.cell i key).mapError .refused) :=
  fun _ _ hi hkey => eval_cellOf hself hvar ht hi hkey

end Reading

-- ════════════════════════════════════════════════════════════════════════════
-- Filling and reading
-- ════════════════════════════════════════════════════════════════════════════

/-- An adapter appends the result of its command to a table, which is as a fresh one after it was
cleared. The rows that were there stay, a name leads to the cell of the result, and a position leads
to the cell that has the same name in the table: a table keeps the columns that it has. -/
theorem fill_appends (ha : w.objects.get? adapter = some (.adapter (.object command)))
    (hc : w.objects.get? command = some (.command c)) (hsends : w.Sends c link parameters)
    (ht : w.objects.get? table = some (.table t)) (hname : Text.word name = "fill") :
    (∀ found u h clearing args, found.objects.get? h = some (.table u) ∧ table = h ∨
        found.objects.get? h = some (.rows table) → Text.word clearing = "clear" →
      invoke h clearing args found = .done (found.withTable table {}) .nothing) ∧
    ∃ resume, invoke adapter name [.object table] w =
        .asking w (.execute link c.text parameters) resume ∧
      ∀ found t (result : ResultSet), let columns := result.columns.getD []
        found.objects.get? table = some (.table t) → t.Reached → columns.Nodup →
        (∀ row ∈ result.rows, row.length = columns.length) →
        let filled := found.withTable table (t.filled columns result.rows)
        resume found (.ok (.ok result)) = .done filled (.int result.rows.length) ∧
        ∀ line name, name ≠ selfName → found.globals.get? name = some (.object table) →
          (∃ w', eval line (rowCount name) found = .done w' (.int t.rows.size)) ∧
          (∃ w', eval line (rowCount name) filled =
            .done w' (.int (t.rows.size + result.rows.length : Nat))) ∧
          (∀ i < t.rows.size, ∀ key, ∃ cell,
            ReadsCell line found name i key cell ∧ ReadsCell line filled name i key cell) ∧
          ∀ i row, result.rows[i]? = some row →
            (∀ (j : Nat) column cell, columns[j]? = some column → row[j]? = some cell →
              ReadsCell line filled name (t.rows.size + i) (.text column) (.ok cell)) ∧
            (∀ (j l : Nat) cell, (t.heads columns)[j]? = columns[l]? → row[l]? = some cell →
              ReadsCell line filled name (t.rows.size + i) (.int j) (.ok cell)) ∧
            ∀ j : Nat, (∀ column ∈ columns, (t.heads columns)[j]? ≠ some column) →
              ReadsCell line filled name (t.rows.size + i) (.int j) (.ok .nothing) := by
  refine ⟨fun _ _ _ _ args hclears hclearing => invoke_clear hclears hclearing args, _,
    invoke_fill ha hc hsends ht hname [], ?_⟩
  intro found t result columns hfound hreached hnodup hwidth filled
  refine ⟨by rw [hfound], fun line name hself hvar => ?_⟩
  have hfilled : filled.objects.get? table = some (.table (t.filled columns result.rows)) :=
    Store.get?_set_self hfound _
  have hvar' : filled.globals.get? name = some (.object table) := hvar
  have hreads : ∀ {i key cell}, (t.filled columns result.rows).cell i key = .ok cell →
      ReadsCell line filled name i key (.ok cell) := by
    intro i key cell hcell
    have := readsCell hself hvar' hfilled line i key
    rwa [hcell] at this
  refine ⟨eval_rowCount hself hvar hfound line, ?_, fun i hi key => ?_,
    fun i row hi => ⟨?_, ?_, ?_⟩⟩
  · obtain ⟨w', hcount⟩ := eval_rowCount hself hvar' hfilled line
    refine ⟨w', hcount.trans ?_⟩
    rw [DataTable.rows_filled]
    simp
  · refine ⟨_, readsCell hself hvar hfound line i key, ?_⟩
    rw [← DataTable.cell_filled_of_lt hreached.headed hi columns result.rows key]
    exact readsCell hself hvar' hfilled line i key
  · exact fun j column cell hcolumn hcell =>
      hreads (DataTable.cell_filled_name t hnodup hwidth hi hcolumn hcell)
  · exact fun j l cell hhead hcell =>
      hreads (DataTable.cell_filled_of_head t hnodup hwidth hi hhead hcell)
  · exact fun j hhead => hreads (DataTable.cell_filled_of_no_head t hnodup hwidth hi hhead)

/-- A table that was filled with one row. -/
def oneRow : DataTable := ({} : DataTable).filled ["a"] [[.int 1]]

/-- The command of an adapter, on an open connection. -/
def nextQuery : Command where
  text := "SELECT * FROM t"
  connection := .object ⟨0⟩

/-- A world in which the table of a variable can be filled once more. -/
def refilling : World where
  globals := .ofList [("t", .object ⟨3⟩)]
  objects := { objects := #[.connection (Data.Connection.opened {} 1), .command nextQuery,
    .adapter (.object ⟨1⟩), .table oneRow] }

theorem sends_nextQuery : refilling.Sends nextQuery 1 [] :=
  ⟨⟨⟨0⟩, Data.Connection.opened {} 1, rfl, rfl, rfl⟩, rfl⟩

/-- Without clearing, both rows are read by position and by name after a second result with the same
column. -/
theorem fill_appends_sameColumn :
    (refilling.objects.get? ⟨2⟩ = some (.adapter (.object ⟨1⟩)) ∧
      refilling.objects.get? ⟨1⟩ = some (.command nextQuery) ∧ refilling.Sends nextQuery 1 [] ∧
      refilling.objects.get? ⟨3⟩ = some (.table oneRow) ∧ Text.word "Fill" = "fill" ∧
      oneRow.Reached ∧ ["a"].Nodup ∧ refilling.globals.get? "t" = some (.object ⟨3⟩)) ∧
    invoke ⟨3⟩ "Clear" [] refilling = .done (refilling.withTable ⟨3⟩ {}) .nothing ∧
    ∃ resume filled, invoke ⟨2⟩ "Fill" [.object ⟨3⟩] refilling =
        .asking refilling (.execute 1 nextQuery.text []) resume ∧
      resume refilling (.ok (.ok { columns := some ["a"], rows := [[.int 5]] })) =
        .done filled (.int 1) ∧
      (∃ w', eval none (rowCount "t") filled = .done w' (.int 2)) ∧
      ReadsCell none filled "t" 1 (.int 0) (.ok (.int 5)) ∧
      ReadsCell none filled "t" 1 (.text "a") (.ok (.int 5)) := by
  have ha : refilling.objects.get? ⟨2⟩ = some (.adapter (.object ⟨1⟩)) := rfl
  have hc : refilling.objects.get? ⟨1⟩ = some (.command nextQuery) := rfl
  have ht : refilling.objects.get? ⟨3⟩ = some (.table oneRow) := rfl
  have hname : Text.word "Fill" = "fill" := by decide
  have hreached : oneRow.Reached := .filled _ _ .fresh
  have hvar : refilling.globals.get? "t" = some (.object ⟨3⟩) := rfl
  obtain ⟨hclear, resume, hinvoke, hfill⟩ := fill_appends ha hc sends_nextQuery ht hname
  refine ⟨⟨ha, hc, sends_nextQuery, ht, hname, hreached, by decide, hvar⟩,
    hclear refilling oneRow ⟨3⟩ "Clear" [] (.inl ⟨ht, rfl⟩) (by decide), ?_⟩
  obtain ⟨hdone, hreads⟩ := hfill refilling oneRow
    { columns := some ["a"], rows := [[.int 5]] } ht hreached (by decide) (by decide)
  obtain ⟨-, hcount, -, hcells⟩ := hreads none "t" (by decide) hvar
  obtain ⟨hnamed, hplaced, -⟩ := hcells 0 [.int 5] rfl
  exact ⟨resume, _, hinvoke, hdone, hcount, hplaced 0 0 (.int 5) rfl rfl,
    hnamed 0 "a" (.int 5) rfl rfl⟩

/-- After a second result with another column, a position leads to nothing in the new row: the table
keeps its one column, which the row has not. -/
theorem not_readsCell_position_otherColumn :
    oneRow.Reached ∧
    ∃ resume filled, invoke ⟨2⟩ "Fill" [.object ⟨3⟩] refilling =
        .asking refilling (.execute 1 nextQuery.text []) resume ∧
      resume refilling (.ok (.ok { columns := some ["b"], rows := [[.int 5]] })) =
        .done filled (.int 1) ∧
      ReadsCell none filled "t" 1 (.int 0) (.ok .nothing) ∧
      ¬ ReadsCell none filled "t" 1 (.int 0) (.ok (.int 5)) := by
  let filled := refilling.withTable ⟨3⟩ (oneRow.filled ["b"] [[.int 5]])
  have hnothing : ReadsCell none filled "t" 1 (.int 0) (.ok .nothing) :=
    readsCell (t := oneRow.filled ["b"] [[.int 5]]) (by decide) rfl rfl none 1 (.int 0)
  refine ⟨.filled _ _ .fresh, _, filled,
    invoke_fill (t := oneRow) rfl rfl sends_nextQuery rfl (by decide) [], rfl, hnothing,
    fun hfive => ?_⟩
  obtain ⟨w', hw'⟩ := hnothing (.number (.int 1)) (.number (.int 0)) rfl rfl
  obtain ⟨w'', hw''⟩ := hfive (.number (.int 1)) (.number (.int 0)) rfl rfl
  cases (Outcome.eq_of_ended (hw'.symm.trans hw'')).2

end Script

end FormBasic
