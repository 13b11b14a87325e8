import FormBasic.Value.Equal

/-!
# JSON documents

The data of JSON documents. Integers and floats are told apart, and objects keep the order of their
members.

## Main definitions

* `Json` - documents
* `Json.member?` - a member of an object
* `Json.toValue` - a document as a script value
-/

namespace FormBasic

/-- JSON documents. -/
inductive Json where
  | null
  | bool (b : Bool)
  | int (n : Int)
  | float (x : Float)
  | text (s : Text)
  | list (items : List Json)
  | object (members : List (Text × Json))

namespace Json

instance : Inhabited Json := ⟨.null⟩

/-- A member of an object. -/
def member? (name : Text) : Json → Option Json
  | .object members => (members.find? fun m => m.1 == name).map Prod.snd
  | _ => none

/-- The mark of the NaNs of documents, which are all the same one. -/
def nanMark : Nat := 0

/-- A number of a document as a script value. -/
def floatValue (x : Float) : Value := if x.isNaN then .nan nanMark else .float x

mutual

/-- The document as a script value; an object is a dictionary. -/
def toValue : Json → Value
  | .null => .nothing
  | .bool b => .bool b
  | .int n => .int n
  | .float x => floatValue x
  | .text s => .text s
  | .list items => .list (toValues items)
  | .object members => .dict (toEntries members [])
termination_by structural j => j

/-- Several documents as script values. -/
def toValues : List Json → List Value
  | [] => []
  | j :: js => j.toValue :: toValues js
termination_by structural js => js

/-- The members of an object added to the entries of a dictionary. -/
def toEntries : List (Text × Json) → List (Key × Value) → List (Key × Value)
  | [], entries => entries
  | m :: ms, entries => toEntries ms (addMember m entries)
termination_by structural ms => ms

/-- A member of an object added to the entries of a dictionary. -/
def addMember : Text × Json → List (Key × Value) → List (Key × Value)
  | (name, j), entries => Entries.set entries (.text name) j.toValue
termination_by structural m => m

end

end Json

end FormBasic
