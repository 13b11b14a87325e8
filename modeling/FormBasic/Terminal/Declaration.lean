import FormBasic.Component
import FormBasic.Fault
import FormBasic.Json.Read

/-!
# Declared components

Components can be declared in a document: a list of objects, each with a name and, if need be, a
type and properties. Properties are given as an object or as a list of pairs. Names and types need
not be texts.

## Main definitions

* `Component.ofJson` - a component from its declaration
* `declaredComponents` - the components of a document
-/

namespace FormBasic

/-- The complaint about an entry of a list of pairs that has another length. -/
def pairComplaint (position length : Nat) : Fault :=
  .trouble ("dictionary update sequence element #" ++ toString position ++ " has length " ++
    toString length ++ "; 2 is required")

/-- The pair that an entry of a list of pairs stands for. -/
def pairOf (position : Nat) : Json → Except Fault (Key × Value)
  | .list [key, value] =>
    match key.toValue.key? with
    | some key => .ok (key, value.toValue)
    | none => .error .wrongShape
  | .list items => .error (pairComplaint position items.length)
  | .text s =>
    match s.toList with
    | [key, value] => .ok (.text (Text.ofList [key]), .text (Text.ofList [value]))
    | cs => .error (pairComplaint position cs.length)
  | .object [(key, _), (value, _)] => .ok (.text key, .text value)
  | .object members => .error (pairComplaint position members.length)
  | _ => .error .wrongShape

/-- The pairs that a list stands for, counted from a position. -/
def pairsOf : Nat → List Json → Except Fault (List (Key × Value))
  | _, [] => .ok []
  | position, entry :: rest => do
    let pair ← pairOf position entry
    let pairs ← pairsOf (position + 1) rest
    return pair :: pairs

/-- The properties of a declaration. -/
def declaredProperties : Option Json → Except Fault (Entries Value)
  | none => .ok []
  | some (.object members) => .ok (.ofList (members.map fun m => (.text m.1, m.2.toValue)))
  | some (.list entries) => do return .ofList (← pairsOf 0 entries)
  | some (.text s) => do
    return .ofList (← pairsOf 0 (s.toList.map fun c => .text (Text.ofList [c])))
  | some _ => .error .wrongShape

/-- A component from its declaration; the type is a plain control unless it is given. -/
def Component.ofJson (declaration : Json) : Except Fault Component :=
  match declaration with
  | .object _ =>
    match declaration.member? "name" with
    | none => .error .missingName
    | some name => do
      let typeName := (declaration.member? "type").getD (.text "Control")
      let properties ← declaredProperties (declaration.member? "properties")
      return { name := name.toValue, typeName := typeName.toValue, properties }
  | _ => .error .wrongShape

/-- The components of a document: a list of declarations, or something empty. -/
def declaredComponents : Json → Except Fault (List Component)
  | .list declarations => declarations.mapM Component.ofJson
  | .object [] => .ok []
  | .text "" => .ok []
  | _ => .error .wrongShape

end FormBasic
