import FormBasic.Library.Strings
import FormBasic.Script.Property

/-!
# Data access from scripts

What the methods of data access objects do. Connections open databases, by file or in memory, and
the databases in memory are shared: a connection string that names no file always leads to the same
one. Commands run statements with their parameters bound by name.

## Main definitions

* `Script.openDatabase`, `Script.closeConnection` - the life of a connection
* `Script.execute` - runs the statement of a command
* `Script.fill` - appends a result to a table
* `Script.construct?` - new objects
* `Script.invoke` - the methods of all objects
* `Script.resetDatabases` - drops the databases in memory
-/

namespace FormBasic.Script

open Data (Object Connection Command Reader DataTable)

-- ════════════════════════════════════════════════════════════════════════════
-- Objects
-- ════════════════════════════════════════════════════════════════════════════

/-- Adds an object and gives the value that refers to it. -/
def create (object : Object) : Script Value := do
  let w ← world
  let (objects, value) := w.objects.addValue object
  enter { w with objects }
  return value

/-- Replaces the object of a handle. -/
def replace (h : Handle) (object : Object) : Script Unit :=
  update fun w => { w with objects := w.objects.set h object }

/-- Reads a member of an object. -/
def member (h : Handle) (name : Text) : Script Value := do
  let w ← world
  let (objects, value) := w.objects.member h name
  enter { w with objects }
  return value

/-- Writes a member of an object. -/
def setMember (h : Handle) (name : Text) (value : Value) : Script Unit := do
  let w ← world
  let objects ← compute (w.objects.setMember h name value)
  enter { w with objects }

/-- The object that a value refers to. -/
def object? (value : Value) : Script (Option Object) := do
  match value with
  | .object h => return (← world).objects.get? h
  | _ => return none

/-- The object that a type name and arguments describe; none if the name is no such type. -/
def construct? (typeName : String) (args : List Value) : Option (Script Value) :=
  match typeName with
  | "sqlconnection" => some do
    let connectionString ← display (Library.arg args 0 (.text ""))
    create (.connection { connectionString })
  | "sqlcommand" => some do
    let text ← display (Library.arg args 0 (.text ""))
    let connection := Library.arg args 1 .nothing
    match connection, ← object? connection with
    | .nothing, _ => create (.command { text })
    | _, some (.connection _) => create (.command { text, connection })
    | _, _ => throw (.database .notAConnection)
  | "datatable" => some (create (.table {}))
  | "sqldataadapter" => some (create (.adapter (Library.arg args 0 .nothing)))
  | _ => none

-- ════════════════════════════════════════════════════════════════════════════
-- Connections
-- ════════════════════════════════════════════════════════════════════════════

/-- Opens the database of a file. -/
def connectFile (path : Text) : Script Nat := do
  match ← ask (.connect path) with
  | .ok link => return link
  | .error reason => throw (.database (.cannotOpen path reason))

/-- Opens a new database in memory, at which only a broken engine fails. -/
def connectMemory : Script Nat := do
  match ← ask (.connect Data.memoryPath) with
  | .ok link => return link
  | .error _ => throw .engineFailure

/-- The database that a connection string leads to: a file of its own, or the shared database in
memory, which is made when it is first asked for. -/
def openDatabase (connectionString : Text) : Script Nat := do
  match Data.filePath? connectionString with
  | some path => connectFile path
  | none =>
    match (← world).memory.get? connectionString with
    | some link => return link
    | none =>
      let link ← connectMemory
      update fun w => { w with memory := w.memory.set connectionString link }
      return link

/-- Opens a connection. -/
def openConnection (h : Handle) (c : Connection) : Script Unit := do
  let link ← openDatabase c.connectionString
  replace h (.connection (c.opened link))

/-- Closes a connection; the databases in memory stay open. -/
def closeConnection (h : Handle) (c : Connection) : Script Unit := do
  match c.link with
  | none => pure ()
  | some link =>
    ask (.commit link)
    if !(← world).memory.values.contains link then ask (.disconnect link)
  replace h (.connection c.closed)

/-- Closes the databases in memory, one after the other, and forgets them. -/
def resetDatabases : Script Unit := do
  let links := (← world).memory.values
  links.forM fun link => ask (.disconnect link)
  update fun w => { w with memory := .empty }

-- ════════════════════════════════════════════════════════════════════════════
-- Commands
-- ════════════════════════════════════════════════════════════════════════════

/-- The form in which a value is bound to a parameter: truth values as numbers, and what a database
cannot hold as its display text. -/
def bound (value : Value) : Except Refusal Value :=
  match value with
  | .bool b => .ok (.int (if b then 1 else 0))
  | .nothing | .int _ | .float _ | .nan _ | .text _ => .ok value
  | .list _ | .dict _ | .object _ => do return .text (← value.display)

/-- The parameters of a command in the form in which they are bound. -/
def boundParameters (c : Command) : Except Refusal (List (Text × Value)) :=
  c.parameters.entries.mapM fun e => do return (e.1, ← bound e.2)

/-- The open database of a command's connection. -/
def requireOpen (operation : Text) (connection : Value) : Script Nat := do
  match connection, ← object? connection with
  | .nothing, _ => throw (.database (.noConnection operation))
  | _, some (.connection c) =>
    match c.link with
    | some link => return link
    | none => throw (.database (.notOpen operation))
  | _, _ => throw .missingMember

/-- Runs the statement of a command. -/
def execute (operation : Text) (c : Command) : Script (Nat × ResultSet) := do
  let link ← requireOpen operation c.connection
  let parameters ← compute (boundParameters c)
  match ← ask (.execute link c.text parameters) with
  | .ok result => return (link, result)
  | .error reason => throw (.database (.failed operation reason))

/-- Runs a query and reads its result. -/
def executeReader (c : Command) : Script Reader := do
  let (_, result) ← execute "ExecuteReader" c
  return .ofResult (result.columns.getD []) result.rows

/-- Runs a statement for its effect; the number of rows it touched. -/
def executeNonQuery (c : Command) : Script Value := do
  let (link, result) ← execute "ExecuteNonQuery" c
  ask (.commit link)
  return result.rowCount

/-- Runs a query for the first cell of its result. -/
def executeScalar (c : Command) : Script Value := do
  let (link, result) ← execute "ExecuteScalar" c
  ask (.commit link)
  return (result.rows.head?.bind List.head?).getD .nothing

/-- A parameter name without the marks in front of it. -/
def parameterName (name : Text) : Text :=
  .ofList (name.toList.dropWhile (CodePoint.satisfies ['@', ':', '$'].contains))

/-- Appends the result of an adapter's command to a table; the number of rows added. -/
def fill (command target : Value) : Script Value := do
  if command.isNothing then throw (.database .noSelectCommand)
  match target, ← object? target with
  | .object h, some (.table _) =>
    match ← object? command with
    | some (.command c) =>
      let reader ← executeReader c
      match ← object? target with
      | some (.table t) => replace h (.table (reader.rows.foldl DataTable.addRow t))
      | _ => pure ()
      return .int reader.rows.length
    | _ => throw .missingMember
  | _, _ => throw (.database .notATable)

-- ════════════════════════════════════════════════════════════════════════════
-- Methods
-- ════════════════════════════════════════════════════════════════════════════

/-- Calls a member that is no method: the member's value, or its item under the first argument. -/
def invokeMember (h : Handle) (name : Text) (args : List Value) : Script Value := do
  indexed (← member h name) args

/-- Calls a method of a reader. -/
def invokeReader (h : Handle) (r : Reader) (name : Text) (args : List Value) : Script Value := do
  let column := Library.arg args 0 .nothing
  match Text.word name with
  | "read" =>
    let (r, found) := r.read
    replace h (.reader r)
    return .bool found
  | "close" =>
    replace h (.reader r.close)
    return .nothing
  | "getstring" => return .text (← display (← compute (r.value column)))
  | "getint32" => return .int (← compute (← compute (r.value column)).toPosition)
  | "getvalue" | "item" => compute (r.value column)
  | "isdbnull" => return .bool (← compute (r.value column)).isNothing
  | _ => invokeMember h name args

/-- Empties a table. -/
def clearTable (h : Handle) : Script Value := do
  replace h (.table {})
  return .nothing

/-- Changes the parameters of a command. -/
def changeParameters (h : Handle) (f : Table Value → Table Value) : Script Value := do
  match (← world).objects.command? h with
  | some c => replace h (.command { c with parameters := f c.parameters })
  | none => pure ()
  return .nothing

/-- Adds a parameter to a command. -/
def addParameter (command : Handle) : List Value → Script Value
  | [] => throw (.database .parameterName)
  | name :: rest => do
    let name ← display name
    changeParameters command fun ps => ps.set (parameterName name) (Library.arg rest 0 .nothing)

/-- Calls a method of a data access object. -/
def invoke (h : Handle) (name : Text) (args : List Value) : Script Value := do
  match (← world).objects.get? h, Text.word name with
  | some (.connection c), "open" => openConnection h c; return .nothing
  | some (.connection c), "close" => closeConnection h c; return .nothing
  | some (.connection _), "createcommand" => create (.command { connection := .object h })
  | some (.command c), "executereader" => create (.reader (← executeReader c))
  | some (.command c), "executenonquery" => executeNonQuery c
  | some (.command c), "executescalar" => executeScalar c
  | some (.reader r), _ => invokeReader h r name args
  | some (.row _), "item" =>
    match args with
    | key :: _ => index (.object h) key
    | [] => invokeMember h name args
  | some (.rows table), "clear" => clearTable table
  | some (.table _), "clear" => clearTable h
  | some (.parameters command), "add" => addParameter command args
  | some (.parameters command), "addwithvalue" => addParameter command args
  | some (.parameters command), "clear" => changeParameters command fun _ => .empty
  | some (.adapter command), "fill" => fill command (Library.arg args 0 .nothing)
  | _, _ => invokeMember h name args

end FormBasic.Script
