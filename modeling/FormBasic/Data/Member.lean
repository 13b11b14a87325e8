import FormBasic.Data.Object

/-!
# Members of data access objects

What scripts read from data access objects and write to them without running a statement. Member
names are matched without regard to letter case. Reading a collection makes a new object for it, so
reading may add to the store, but it never changes an object that is there.

## Main definitions

* `Store.member` - reads a member
* `Store.setMember` - writes a member
* `Store.item` - the item of an object under a key
* `Store.index` - the item of any value under a key
-/

namespace FormBasic.Data.Store

/-- Number of rows of a table. -/
def rowCount (s : Store) (table : Handle) : Nat :=
  match s.table? table with
  | some t => t.rows.size
  | none => 0

/-- Number of parameters of a command. -/
def parameterCount (s : Store) (command : Handle) : Nat :=
  match s.command? command with
  | some c => c.parameters.size
  | none => 0

/-- Reads a member of an object; nothing when it has no such member. -/
def member (s : Store) (h : Handle) (name : Text) : Store × Value :=
  match s.get? h, Text.word name with
  | some (.connection c), "state" => (s, .text c.state)
  | some (.connection c), "connectionstring" => (s, .text c.connectionString)
  | some (.command c), "commandtext" => (s, .text c.text)
  | some (.command _), "parameters" => s.addValue (.parameters h)
  | some (.command c), "connection" => (s, c.connection)
  | some (.reader r), "hasrows" => (s, .bool !r.rows.isEmpty)
  | some (.reader r), "fieldcount" => (s, .int r.columns.length)
  | some (.reader r), "isclosed" => (s, .bool r.closed)
  | some (.table _), "rows" => s.addValue (.rows h)
  | some (.table t), "columns" => (s, .list (t.columns.map .text))
  | some (.rows t), "count" => (s, .int (s.rowCount t))
  | some (.parameters c), "count" => (s, .int (s.parameterCount c))
  | some (.adapter command), "selectcommand" => (s, command)
  | _, _ => (s, .nothing)

/-- Writes a member of an object; a member that cannot be written stays as it is. -/
def setMember (s : Store) (h : Handle) (name : Text) (value : Value) : Except Refusal Store :=
  match s.get? h, Text.word name with
  | some (.connection c), "connectionstring" => do
    return s.set h (.connection { c with connectionString := ← value.display })
  | some (.command c), "commandtext" => do
    return s.set h (.command { c with text := ← value.display })
  | some (.command c), "connection" => .ok (s.set h (.command { c with connection := value }))
  | some (.adapter _), "selectcommand" => .ok (s.set h (.adapter value))
  | _, _ => .ok s

/-- The item of an object under a key: a cell of a row or of a reader's current row, or a row of a
collection. -/
def item (s : Store) (h : Handle) (key : Value) : Except Refusal (Store × Value) :=
  match s.get? h with
  | some (.reader r) => do return (s, ← r.value key)
  | some (.row r) => do return (s, ← lookupColumn r.values r.columns key)
  | some (.rows t) => do
    let n ← key.toPosition
    match s.table? t with
    | some table =>
      match (if 0 ≤ n then table.rows[n.toNat]? else none) with
      | some values => return s.addValue (.row ⟨values, table.columns⟩)
      | none => return (s, .nothing)
    | none => return (s, .nothing)
  | _ => .ok (s, .nothing)

/-- The item of a value under a key: a position in a list or a text, a key of a dictionary, an item
of an object. Other values have no items. -/
def index (s : Store) (container key : Value) : Except Fault (Store × Value) :=
  match container with
  | .list items => do
    let n ← (key.toPosition).mapError .refused
    return (s, (if 0 ≤ n then items[n.toNat]? else none).getD .nothing)
  | .text text => do
    let n ← (key.toPosition).mapError .refused
    match (if 0 ≤ n then text.toList[n.toNat]? else none) with
    | some c => return (s, .text (Text.ofList [c]))
    | none => return (s, .nothing)
  | .dict entries =>
    match key.key? with
    | some k => .ok (s, (Entries.get? entries k).getD .nothing)
    | none => .error .unusableKey
  | .object h => (s.item h key).mapError .refused
  | _ => .ok (s, .nothing)

end FormBasic.Data.Store
