import FormBasic.Proofs.Script.Queries

/-!
# Reading the result of a query

A reader moves over the rows of a result. Where it stands follows from the calls of its methods
alone: how often it was read before it was first closed, and whether it was closed. A row is current
after as many reads as its place in the result; before the first read, after the last row and once
the reader is closed there is none, and every cell is nothing.

A cell is looked up by way of the name of its column, so a position leads to the cell of the last
column that has the same name: where the names of a result differ, these are its cells as they are.

## Main definitions

* `Data.Reader.Place` - where a reader stands after some calls
* `Data.Reader.StandsAt` - readers over a result at a place
* `Script.Calls` - histories of calls of the methods of an object

## Main statements

* `Script.invokeReader_step` - what one call does to the place and answers
* `Script.Calls.standsAt` - what a whole history does
* `Script.reader_returns_cells` - what a reader answers after any history of calls
-/

namespace FormBasic

-- ════════════════════════════════════════════════════════════════════════════
-- Places
-- ════════════════════════════════════════════════════════════════════════════

namespace Data

/-- Where a reader stands. -/
@[ext]
structure Reader.Place where
  /-- How often the reader was read while it was open. -/
  reads : Nat := 0
  closed : Bool := false

namespace Reader.Place

/-- Whether calling a member of this name reads the next row. -/
def isRead (name : Text) : Bool := Text.word name == "read"

/-- Whether calling a member of this name closes the reader. -/
def isClose (name : Text) : Bool := Text.word name == "close"

/-- Where a reader stands after calls of members of these names. -/
def after (calls : List Text) : Place where
  reads := (calls.takeWhile fun name => !isClose name).countP isRead
  closed := calls.any isClose

/-- Where a reader stands after one more call. -/
def next (p : Place) (name : Text) : Place where
  reads := if isRead name && !p.closed then p.reads + 1 else p.reads
  closed := p.closed || isClose name

theorem isClose_of_isRead {name : Text} (h : isRead name = true) : isClose name = false := by
  rw [isRead, beq_iff_eq] at h
  rw [isClose, h]
  rfl

theorem reads_after_cons (call : Text) (calls : List Text) :
    (after (call :: calls)).reads =
      if isClose call then 0
      else if isRead call then (after calls).reads + 1 else (after calls).reads := by
  cases hclose : isClose call with
  | true => simp [after, hclose]
  | false => simp [after, hclose, List.countP_cons]; split <;> rfl

/-- Every call moves a reader by one step. -/
theorem after_concat (calls : List Text) (name : Text) :
    after (calls ++ [name]) = (after calls).next name := by
  have hclosed : (after (calls ++ [name])).closed = ((after calls).next name).closed := by
    simp [after, next]
  have hreads : (after (calls ++ [name])).reads = ((after calls).next name).reads := by
    induction calls with
    | nil =>
      rw [List.nil_append, reads_after_cons]
      cases hread : isRead name with
      | true => rw [isClose_of_isRead hread]; simp [next, after, hread]
      | false => simp [next, after, hread]
    | cons call calls ih =>
      have ih := ih (by simp [after, next])
      rw [List.cons_append, reads_after_cons, ih, next, next, reads_after_cons]
      cases hclose : isClose call with
      | true => simp [after, hclose]
      | false => cases hread : isRead call <;> simp [after, hclose]; split <;> rfl
  exact Place.ext hreads hclosed

variable {α : Type}

/-- The row of a result that is current at a place. -/
def row? (p : Place) (rows : List α) : Option α :=
  if p.closed then none
  else
    match p.reads with
    | 0 => none
    | k + 1 => rows[k]?

theorem mem_of_row? {p : Place} {rows : List α} {row : α} (h : p.row? rows = some row) :
    row ∈ rows := by
  unfold row? at h
  split at h
  · cases h
  · split at h
    · cases h
    · exact List.mem_of_getElem? h

/-- Whether a read at a place finds another row. -/
def finds (p : Place) (rows : List α) : Bool := !p.closed && decide (p.reads < rows.length)

end Reader.Place

/-- A reader over a result at a place. -/
structure Reader.StandsAt (columns : List Text) (rows : List (List Value)) (p : Reader.Place)
    (r : Reader) : Prop where
  columns_eq : r.columns = columns
  ahead_eq : r.ahead = (rows.drop p.reads).map (rowOf columns)
  current_eq : r.current = (p.row? rows).map (rowOf columns)
  closed_eq : r.closed = p.closed

namespace Reader

variable {columns : List Text} {rows : List (List Value)} {p : Place} {r : Reader}

theorem standsAt_ofResult (columns : List Text) (rows : List (List Value)) :
    (ofResult columns rows).StandsAt columns rows {} :=
  ⟨rfl, rfl, rfl, rfl⟩

/-- A read finds a row if one is left, and makes it the current one. -/
theorem StandsAt.read (h : r.StandsAt columns rows p) {name : Text}
    (hname : Place.isRead name = true) :
    r.read.2 = p.finds rows ∧ r.read.1.StandsAt columns rows (p.next name) := by
  have hopen := Place.isClose_of_isRead hname
  obtain ⟨reads, closed⟩ := p
  rw [Place.next, hname, hopen]
  cases closed with
  | true =>
    rw [Reader.read, h.closed_eq, if_pos rfl]
    exact ⟨rfl, h⟩
  | false =>
    have hclosed : ¬ r.closed = true := by simp [h.closed_eq]
    have hahead := h.ahead_eq
    by_cases hreads : reads < rows.length
    · rw [List.drop_eq_getElem_cons hreads, List.map_cons] at hahead
      rw [Reader.read, if_neg hclosed, hahead]
      refine ⟨by simp [Place.finds, hreads], h.columns_eq, rfl, ?_, h.closed_eq⟩
      simp [Place.row?, hreads]
    · rw [List.drop_eq_nil_of_le (Nat.le_of_not_lt hreads), List.map_nil] at hahead
      rw [Reader.read, if_neg hclosed, hahead]
      refine ⟨by simp [Place.finds, hreads], h.columns_eq, ?_, ?_, h.closed_eq⟩
      · rw [List.drop_eq_nil_of_le]
        · rfl
        · exact Nat.le_succ_of_le (Nat.le_of_not_lt hreads)
      · simp [Place.row?, Nat.le_of_not_lt hreads]

theorem StandsAt.close (h : r.StandsAt columns rows p) {name : Text}
    (hname : Place.isClose name = true) : r.close.StandsAt columns rows (p.next name) := by
  have hread : Place.isRead name = false := by
    refine Bool.eq_false_iff.2 fun hread => ?_
    rw [Place.isClose_of_isRead hread] at hname
    cases hname
  rw [Place.next, hname, hread, Bool.or_true]
  exact ⟨h.columns_eq, h.ahead_eq, rfl, rfl⟩

/-- Any other call leaves a reader where it is. -/
theorem StandsAt.stay (h : r.StandsAt columns rows p) {name : Text}
    (hread : Place.isRead name = false) (hclose : Place.isClose name = false) :
    r.StandsAt columns rows (p.next name) := by
  have hnext : p.next name = p := by
    rw [Place.next, hread, hclose, Bool.or_false]
    rfl
  rwa [hnext]

/-- A cell of a reader is a cell of the current row, if there is one. -/
theorem StandsAt.value_eq (h : r.StandsAt columns rows p) (key : Value) :
    r.value key =
      match p.row? rows with
      | some row => lookupColumn (rowOf columns row) columns key
      | none => .ok .nothing := by
  rw [value, h.current_eq, h.columns_eq]
  cases p.row? rows <;> rfl

end Reader

end Data

-- ════════════════════════════════════════════════════════════════════════════
-- Calls
-- ════════════════════════════════════════════════════════════════════════════

namespace Script

open Data (Command LastNamed Reader Store)

variable {w w' : World} {h : Handle} {c : Command} {r : Reader} {columns : List Text}
  {rows : List (List Value)} {p : Reader.Place} {link : Nat} {parameters : List (Text × Value)}

/-- Histories of calls of members of an object, by their names: a call may fail, and anything else
may happen in between that leaves the object as it is. -/
inductive Calls (h : Handle) (w : World) : List Text → World → Prop where
  | none : Calls h w [] w
  | call {w' w'' : World} {calls : List Text} {name : Text} {args : List Value}
      {result : Except Fault Value} (before : Calls h w calls w')
      (called : invoke h name args w' = .ended w'' result) : Calls h w (calls ++ [name]) w''
  | other {w' w'' : World} {calls : List Text} (before : Calls h w calls w')
      (same : w''.objects.get? h = w'.objects.get? h) : Calls h w calls w''

theorem invoke_reader (hr : w.objects.get? h = some (.reader r)) (name : Text)
    (args : List Value) : invoke h name args w = invokeReader h r name args w := by
  refine (bind_of_done (m := world) rfl _).trans ?_
  rw [hr]

/-- Members of a reader that are no methods are read without any effect. -/
theorem still_invokeMember (hr : w.objects.get? h = some (.reader r)) (name : Text)
    (args : List Value) : (invokeMember h name args).Still w := by
  have hmember : ∃ value, w.objects.member h name = (w.objects, value) ∧
      ((∃ b, value = .bool b) ∨ (∃ n, value = .int n) ∨ value = .nothing) := by
    unfold Store.member
    rw [hr]
    split
    all_goals first
      | exact ⟨_, rfl, .inl ⟨_, rfl⟩⟩
      | exact ⟨_, rfl, .inr (.inl ⟨_, rfl⟩)⟩
      | exact ⟨_, rfl, .inr (.inr rfl)⟩
      | cases ‹some _ = some _›
  obtain ⟨value, hmember, hvalue⟩ := hmember
  have hread : member h name w = .done w value := by
    rw [member, bind_of_done (m := world) rfl, hmember]
    rfl
  rw [invokeMember, Still, bind_of_done hread]
  -- these values have no items
  cases args with
  | nil => exact still_pure value w
  | cons key rest => obtain ⟨b, rfl⟩ | ⟨n, rfl⟩ | rfl := hvalue <;> exact ⟨.ok .nothing, rfl⟩

theorem invoke_read (hr : w.objects.get? h = some (.reader r)) {name : Text}
    (hname : Reader.Place.isRead name = true) (args : List Value) :
    invoke h name args w =
      .done { w with objects := w.objects.set h (.reader r.read.1) } (.bool r.read.2) := by
  rw [Reader.Place.isRead, beq_iff_eq] at hname
  rw [invoke_reader hr]
  unfold invokeReader
  rw [hname]
  rfl

theorem invoke_close (hr : w.objects.get? h = some (.reader r)) {name : Text}
    (hname : Reader.Place.isClose name = true) (args : List Value) :
    invoke h name args w =
      .done { w with objects := w.objects.set h (.reader r.close) } .nothing := by
  rw [Reader.Place.isClose, beq_iff_eq] at hname
  rw [invoke_reader hr]
  unfold invokeReader
  rw [hname]
  rfl

/-- Whether calling a member of this name gives a cell. -/
def isGetValue (name : Text) : Bool := Text.word name == "getvalue" || Text.word name == "item"

theorem invoke_getValue (hr : w.objects.get? h = some (.reader r)) {name : Text}
    (hname : isGetValue name = true) (args : List Value) :
    invoke h name args w = compute (r.value (Library.arg args 0 .nothing)) w := by
  rw [isGetValue, Bool.or_eq_true, beq_iff_eq, beq_iff_eq] at hname
  rw [invoke_reader hr]
  unfold invokeReader
  obtain hname | hname := hname <;> rw [hname] <;> rfl

/-- Methods other than these two leave a reader as it is. -/
theorem still_invokeReader (hr : w.objects.get? h = some (.reader r)) {name : Text}
    (hread : Reader.Place.isRead name = false) (hclose : Reader.Place.isClose name = false)
    (args : List Value) :
    (invokeReader h r name args).Still w := by
  rw [Reader.Place.isRead, beq_eq_false_iff_ne] at hread
  rw [Reader.Place.isClose, beq_eq_false_iff_ne] at hclose
  have hvalue := still_compute (r.value (Library.arg args 0 .nothing)) w
  unfold invokeReader
  split
  · next hname => exact absurd hname hread
  · next hname => exact absurd hname hclose
  · exact hvalue.bind fun _ => (still_compute _ w).bind fun _ => still_pure _ w
  · exact hvalue.bind fun _ => (still_compute _ w).bind fun _ => still_pure _ w
  · exact hvalue
  · exact hvalue
  · exact hvalue.bind fun _ => still_pure _ w
  · exact still_invokeMember hr name args

/-- Every call of a member of a reader gives its result at once and moves the reader by a step. -/
theorem invoke_reader_step (hr : w.objects.get? h = some (.reader r))
    (hstands : r.StandsAt columns rows p) (name : Text) (args : List Value) :
    ∃ w' result r', invoke h name args w = .ended w' result ∧
      w'.objects.get? h = some (.reader r') ∧ r'.StandsAt columns rows (p.next name) := by
  cases hread : Reader.Place.isRead name with
  | true =>
    exact ⟨_, .ok _, _, invoke_read hr hread args, Store.get?_set_self hr _,
      (hstands.read hread).2⟩
  | false =>
    cases hclose : Reader.Place.isClose name with
    | true =>
      exact ⟨_, .ok _, _, invoke_close hr hclose args, Store.get?_set_self hr _,
        hstands.close hclose⟩
    | false =>
      obtain ⟨result, hresult⟩ := still_invokeReader hr hread hclose args
      exact ⟨w, result, r, (invoke_reader hr name args).trans hresult, hr,
        hstands.stay hread hclose⟩

/-- A history of calls moves a reader by a step for each. -/
theorem Calls.standsAt {calls : List Text} (hcalls : Calls h w calls w')
    (hr : w.objects.get? h = some (.reader r)) (hstands : r.StandsAt columns rows {}) :
    ∃ r', w'.objects.get? h = some (.reader r') ∧
      r'.StandsAt columns rows (Reader.Place.after calls) := by
  induction hcalls with
  | none => exact ⟨r, hr, hstands⟩
  | call before called ih =>
    obtain ⟨r₁, hr₁, hstands₁⟩ := ih
    obtain ⟨w₂, result, r₂, hinvoke, hr₂, hstands₂⟩ := invoke_reader_step hr₁ hstands₁ _ _
    obtain ⟨rfl, -⟩ := Outcome.eq_of_ended (called.symm.trans hinvoke)
    exact ⟨r₂, hr₂, Reader.Place.after_concat .. ▸ hstands₂⟩
  | other before same ih =>
    obtain ⟨r₁, hr₁, hstands₁⟩ := ih
    exact ⟨r₁, same.trans hr₁, hstands₁⟩

/-- A query that can be sent gives a new reader over the result. -/
theorem invoke_executeReader (hc : w.objects.get? h = some (.command c))
    (hsends : w.Sends c link parameters) {name : Text} (hname : Text.word name = "executereader")
    (args : List Value) :
    invoke h name args w = .asking w (.execute link c.text parameters) fun w' reply =>
      match reply with
      | .ok (.ok result) =>
        let r := Reader.ofResult (result.columns.getD []) result.rows
        .done (w'.adding (.reader r)) (.object (w'.objects.add (.reader r)).2)
      | .ok (.error reason) => .failed w' (.database (.failed "ExecuteReader" reason))
      | .error fault => .failed w' fault := by
  have hinvoke : invoke h name args w =
      (executeReader c >>= fun r => create (.reader r)) w := by
    refine (bind_of_done (m := world) rfl _).trans ?_
    rw [hc, hname]
    rfl
  rw [hinvoke]
  refine bind_of_asking (executeReader_apply hsends) fun w' reply => ?_
  obtain fault | reason | result := reply
  · rfl
  · rfl
  · rfl

/-- A query gives a reader that returns the cells of the result. After any history of calls of its
members, a read tells whether a row is left; a cell is nothing unless a row is current, and else at
a column's position that of the last column with the same name: that is the column itself unless a
later one has its name. -/
theorem reader_returns_cells (hc : w.objects.get? h = some (.command c))
    (hsends : w.Sends c link parameters) {name : Text} (hname : Text.word name = "executereader")
    (args : List Value) :
    ∃ resume, invoke h name args w = .asking w (.execute link c.text parameters) resume ∧
      ∀ found (result : ResultSet), let columns := result.columns.getD []
        (∀ row ∈ result.rows, row.length = columns.length) →
        ∃ reader opened, resume found (.ok (.ok result)) = .done opened (.object reader) ∧
          ∀ calls w', Calls reader opened calls w' → let place := Reader.Place.after calls
            (∀ name args, Reader.Place.isRead name = true →
              ∃ w'', invoke reader name args w' = .done w'' (.bool (place.finds result.rows))) ∧
            ∀ name, isGetValue name = true →
              (place.row? result.rows = none →
                ∀ args, invoke reader name args w' = .done w' .nothing) ∧
              ∀ row, place.row? result.rows = some row → ∀ j < columns.length,
                ∃ i cell, LastNamed columns j i ∧
                  (i = j ↔ ∀ l, j < l → columns[l]? ≠ columns[j]?) ∧ row[i]? = some cell ∧
                  ∀ rest, invoke reader name (.int j :: rest) w' = .done w' cell := by
  refine ⟨_, invoke_executeReader hc hsends hname args, fun found result hwidth => ?_⟩
  refine ⟨_, _, rfl, fun calls w' hcalls => ?_⟩
  obtain ⟨r, hr, hstands⟩ := hcalls.standsAt (Store.get?_add_self found.objects _)
    (Reader.standsAt_ofResult (result.columns.getD []) result.rows)
  refine ⟨fun name args hread => ?_, fun name hvalue => ⟨fun hnone args => ?_, ?_⟩⟩
  · have hinvoke := invoke_read hr hread args
    rw [(hstands.read hread).1] at hinvoke
    exact ⟨_, hinvoke⟩
  · rw [invoke_getValue hr hvalue, hstands.value_eq, hnone]
    rfl
  · intro row hrow j hj
    have hlength := hwidth row (Reader.Place.mem_of_row? hrow)
    obtain ⟨i, hi⟩ := Data.exists_lastNamed hj
    have hlt : i < row.length := hlength ▸ hi.lt_length hj
    refine ⟨i, row[i], hi, hi.eq_iff, List.getElem?_eq_getElem hlt, fun rest => ?_⟩
    have hcell := Data.lookupColumn_position hlength hi hj
    rw [invoke_getValue hr hvalue, hstands.value_eq, hrow]
    change compute (Data.lookupColumn (Data.rowOf _ row) _ (.int j)) w' = _
    rw [hcell, List.getElem?_eq_getElem hlt]
    rfl

/-- A query with two columns of one name, on an open connection. -/
def twinQuery : Command where
  text := "SELECT 1 AS a, 2 AS a"
  connection := .object ⟨0⟩

/-- A world with such a query. -/
def querying : World where
  objects := { objects := #[.connection (Data.Connection.opened {} 1), .command twinQuery] }

/-- The result of the query. -/
def twins : ResultSet where
  columns := some ["a", "a"]
  rows := [[.int 1, .int 2]]

/-- The first of two columns of one name is read as the second. -/
theorem reader_returns_cells_twins :
    (querying.objects.get? ⟨1⟩ = some (.command twinQuery) ∧ querying.Sends twinQuery 1 [] ∧
      Text.word "ExecuteReader" = "executereader") ∧
    ∃ resume, invoke ⟨1⟩ "ExecuteReader" [] querying =
        .asking querying (.execute 1 twinQuery.text []) resume ∧
      ∃ reader opened w', resume querying (.ok (.ok twins)) = .done opened (.object reader) ∧
        invoke reader "Read" [] opened = .done w' (.bool true) ∧
        invoke reader "GetValue" [.int 0] w' = .done w' (.int 2) := by
  have hc : querying.objects.get? ⟨1⟩ = some (.command twinQuery) := rfl
  have hsends : querying.Sends twinQuery 1 [] :=
    ⟨⟨⟨0⟩, Data.Connection.opened {} 1, rfl, rfl, rfl⟩, rfl⟩
  have hname : Text.word "ExecuteReader" = "executereader" := by decide
  refine ⟨⟨hc, hsends, hname⟩, ?_⟩
  obtain ⟨resume, hinvoke, hresult⟩ := reader_returns_cells hc hsends hname []
  obtain ⟨reader, opened, hopened, hcells⟩ := hresult querying twins (by decide)
  obtain ⟨w', hread⟩ := (hcells [] opened .none).1 "Read" [] (by decide)
  have hcalled : invoke reader "Read" [] opened = .ended w' (.ok (.bool true)) := hread
  have hafter := (hcells ["Read"] w' (.call .none hcalled)).2 "GetValue" (by decide)
  obtain ⟨i, cell, hlast, -, hcell, hvalue⟩ := hafter.2 [.int 1, .int 2] rfl 0 (by decide)
  refine ⟨resume, hinvoke, reader, opened, w', hopened, hread, ?_⟩
  have hi : i = 1 := by
    have hlt : i < 2 := hlast.lt_length (by decide)
    have hzero : i ≠ 0 := fun hi => hlast.last 1 (by omega) (by decide)
    omega
  subst hi
  obtain rfl := Option.some.inj hcell
  exact hvalue []

end Script

end FormBasic
