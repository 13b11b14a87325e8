import FormBasic.Fault
import FormBasic.Table
import FormBasic.Text.Slice
import FormBasic.Value.Coerce

/-!
# Data access objects

The objects through which scripts reach a database: connections, commands with parameters, readers
over the result of a query, and tables that an adapter fills. Objects are shared, so they live in a
store and values refer to them by handle. A collection of rows or of parameters refers to the table
or the command it belongs to.

## Main definitions

* `Connection`, `Command`, `Reader`, `DataTable`, `Row` - the objects' contents
* `Object` - any data access object
* `Store` - the objects by handle
* `lookupColumn` - a cell of a row, by position or by name
-/

namespace FormBasic.Data

-- ════════════════════════════════════════════════════════════════════════════
-- Contents
-- ════════════════════════════════════════════════════════════════════════════

/-- A connection string, the state that scripts read, and, while the connection is open, the number
of its database. -/
structure Connection where
  connectionString : Text := ""
  state : Text := "Closed"
  link : Option Nat := none

namespace Connection

/-- The connection once it is open. -/
def opened (c : Connection) (link : Nat) : Connection := { c with link := some link, state := "Open" }

/-- The connection once it is closed. -/
def closed (c : Connection) : Connection := { c with link := none, state := "Closed" }

end Connection

/-- A statement, the connection it runs on, and the parameters it names. -/
structure Command where
  text : Text := ""
  connection : Value := .nothing
  parameters : Table Value := .empty

/-- A cursor that moves forward over the rows of a result. -/
structure Reader where
  columns : List Text := []
  rows : List (Table Value) := []
  /-- The rows that were not read yet. -/
  ahead : List (Table Value) := rows
  current : Option (Table Value) := none
  closed : Bool := false

/-- A table in memory. -/
structure DataTable where
  columns : List Text := []
  rows : Array (Table Value) := #[]

/-- One row of a table, with the columns that the table had when the row was taken. -/
structure Row where
  values : Table Value := .empty
  columns : List Text := []

/-- A data access object. -/
inductive Object where
  | connection (c : Connection)
  | command (c : Command)
  | reader (r : Reader)
  | table (t : DataTable)
  | row (r : Row)
  /-- The rows of a table. -/
  | rows (table : Handle)
  /-- The parameters of a command. -/
  | parameters (command : Handle)
  /-- An adapter and the command it runs. -/
  | adapter (command : Value)

/-- The name of an object's class. -/
def Object.className : Object → Text
  | .connection _ => "SqlConnection"
  | .command _ => "SqlCommand"
  | .reader _ => "SqlDataReader"
  | .table _ => "DataTable"
  | .row _ => "DataRow"
  | .rows _ => "DataRowCollection"
  | .parameters _ => "SqlParameterCollection"
  | .adapter _ => "SqlDataAdapter"

-- ════════════════════════════════════════════════════════════════════════════
-- The store
-- ════════════════════════════════════════════════════════════════════════════

/-- The objects of a session; an object's handle is its position. -/
structure Store where
  objects : Array Object := #[]

namespace Store

/-- The object of a handle. -/
def get? (s : Store) (h : Handle) : Option Object := s.objects[h.index]?

/-- Adds an object and gives its handle. -/
def add (s : Store) (object : Object) : Store × Handle :=
  (⟨s.objects.push object⟩, ⟨s.objects.size⟩)

/-- Replaces the object of a handle. -/
def set (s : Store) (h : Handle) (object : Object) : Store :=
  ⟨s.objects.setIfInBounds h.index object⟩

/-- Adds an object and gives the value that refers to it. -/
def addValue (s : Store) (object : Object) : Store × Value :=
  let (s, h) := s.add object
  (s, .object h)

/-- The table of a handle. -/
def table? (s : Store) (h : Handle) : Option DataTable :=
  match s.get? h with
  | some (.table t) => some t
  | _ => none

/-- The command of a handle. -/
def command? (s : Store) (h : Handle) : Option Command :=
  match s.get? h with
  | some (.command c) => some c
  | _ => none

/-- A new object keeps the old ones. -/
theorem get?_add_of_lt (s : Store) (object : Object) {h : Handle} (hh : h.index < s.objects.size) :
    (s.add object).1.get? h = s.get? h := by
  simp [add, get?, Array.getElem?_push, Nat.ne_of_lt hh]

/-- The handle of a new object refers to it. -/
@[simp]
theorem get?_add_self (s : Store) (object : Object) :
    (s.add object).1.get? (s.add object).2 = some object := by
  simp [add, get?]

end Store

-- ════════════════════════════════════════════════════════════════════════════
-- Rows
-- ════════════════════════════════════════════════════════════════════════════

/-- The row that pairs column names with cells; cells without a column are dropped, and of several
cells under one name the last one counts. -/
def rowOf (columns : List Text) (cells : List Value) : Table Value :=
  .ofList (columns.zip cells)

/-- A cell of a row: a number is a position among the columns, everything else a column name, exact
or up to letter case. -/
def lookupColumn (row : Table Value) (columns : List Text) (key : Value) :
    Except Refusal Value := do
  let position? ← match key with
    | .int n => pure (some n)
    | .float x => do pure (some (← Number.truncate (.float x)))
    | .nan _ => .error .nanToInteger
    | _ => pure none
  match position? with
  | some n =>
    if 0 ≤ n then return ((columns[n.toNat]?).bind row.get?).getD .nothing else return .nothing
  | none =>
    let name ← key.display
    match row.get? name with
    | some cell => return cell
    | none =>
      match columns.find? fun c => Text.lower c = Text.lower name with
      | some column => return (row.get? column).getD .nothing
      | none => return .nothing

namespace Reader

/-- A reader over the result of a query. -/
def ofResult (columns : List Text) (rows : List (List Value)) : Reader :=
  let rows := rows.map (rowOf columns)
  { columns, rows, ahead := rows }

/-- Moves to the next row; whether there is one. -/
def read (r : Reader) : Reader × Bool :=
  if r.closed then (r, false)
  else
    match r.ahead with
    | row :: ahead => ({ r with ahead, current := some row }, true)
    | [] => ({ r with current := none }, false)

/-- A cell of the current row. -/
def value (r : Reader) (column : Value) : Except Refusal Value :=
  match r.current with
  | none => .ok .nothing
  | some row => lookupColumn row r.columns column

/-- Closes the reader. -/
def close (r : Reader) : Reader := { r with closed := true, current := none }

end Reader

namespace DataTable

/-- Adds a row; a table without columns takes the row's. -/
def addRow (t : DataTable) (row : Table Value) : DataTable :=
  { columns := if t.columns.isEmpty then row.keys else t.columns
    rows := t.rows.push row }

end DataTable

-- ════════════════════════════════════════════════════════════════════════════
-- Connection strings
-- ════════════════════════════════════════════════════════════════════════════

/-- The file that one part of a connection string names. -/
def partSource? (part : Text) : Option Text :=
  match Text.cutAt? '=' part with
  | none => none
  | some (key, value) =>
    let name := Text.ofList ((Text.lower (Text.trim key)).toList.filter (· != .char ' '))
    if name = "datasource" ∨ name = "filename" then some (Text.trim value) else none

/-- The file that a connection string names. -/
def dataSource? (connectionString : Text) : Option Text :=
  (Text.splitAt ';' connectionString).findSome? partSource?

/-- The path that stands for a database in memory. -/
def memoryPath : Text := ":memory:"

/-- The file that a connection string opens; none when it opens a database in memory. -/
def filePath? (connectionString : Text) : Option Text :=
  match dataSource? connectionString with
  | some path => if path.isEmpty ∨ path = memoryPath then none else some path
  | none => none

end FormBasic.Data
