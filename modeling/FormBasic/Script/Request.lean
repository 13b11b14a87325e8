import FormBasic.Line
import FormBasic.Value.Basic

/-!
# Requests

A script reaches the outside world through requests: it says what it wants and waits for the reply.
What kind of reply a request gets is part of its type, so a reply never has to be checked.

## Main definitions

* `ResultSet` - what a database engine answers to a statement
* `Request` - everything a script can ask for
* `Request.Reply` - the kind of reply to a request
-/

namespace FormBasic

/-- What a database engine answers to a statement. -/
structure ResultSet where
  /-- The names of the columns, if the statement has a result. -/
  columns : Option (List Text) := none
  rows : List (List Value) := []
  rowCount : Value := .int (-1)

/-- What a script asks of the world around it. -/
inductive Request where
  /-- A property of a component has been written. -/
  | propertyChanged (component property : Text) (value : Value)
  /-- A line is written to the console. -/
  | consoleLine (text : Text)
  /-- A text is written to the console, without a line end. -/
  | consoleText (text : Text)
  /-- A diagnosis is shown; the script goes on. -/
  | errorReport (message : Text) (line : Line)
  /-- A message box is shown until it is closed. -/
  | messageBox (text : Text)
  /-- An input box is shown until it is closed. -/
  | inputBox (prompt : Text) (title initial : Option Text)
  | readLine
  | readKey
  | saveText (name content extension : Text)
  | loadText (name extension : Text)
  /-- A number between zero and one. -/
  | random
  /-- A database is opened. -/
  | connect (path : Text)
  /-- A statement is run on a database that is open under a number. -/
  | execute (link : Nat) (sql : Text) (parameters : List (Text × Value))
  | commit (link : Nat)
  | disconnect (link : Nat)

/-- The kind of reply to a request. -/
def Request.Reply : Request → Type
  | .propertyChanged _ _ _ => Unit
  | .consoleLine _ => Unit
  | .consoleText _ => Unit
  | .errorReport _ _ => Unit
  | .messageBox _ => Unit
  | .inputBox _ _ _ => Value
  | .readLine => Value
  | .readKey => Value
  | .saveText _ _ _ => Unit
  | .loadText _ _ => Value
  | .random => Float
  | .connect _ => Except Text Nat
  | .execute _ _ _ => Except Text ResultSet
  | .commit _ => Unit
  | .disconnect _ => Unit

end FormBasic
