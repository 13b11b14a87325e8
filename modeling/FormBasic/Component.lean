import FormBasic.Fault
import FormBasic.Text.Case
import FormBasic.Value.Entries

/-!
# Components

A component is a control of a simulated form: a name, a type name and an open bag of properties.
Property names are matched without regard to letter case where they are known, by way of their
canonical spelling; a name that is not known is its own spelling.

Declarations may give names, type names and property names that are no texts. Scripts cannot refer
to such a component or property, and to ask for the letter case of one is a fault.

## Main definitions

* `Component` - a control
* `canonicalProperty` - the spelling under which a property is stored
* `Component.property` - what a script reads
-/

namespace FormBasic

/-- A control of a form. -/
structure Component where
  name : Value
  typeName : Value
  properties : Entries Value := []

/-- The known property names in lower case, with their spelling. -/
def propertySpellings : List (Text × Text) :=
  [("text", "text"), ("value", "value"), ("enabled", "enabled"), ("visible", "visible"),
   ("checked", "checked"), ("backcolor", "backColor"), ("forecolor", "foreColor"),
   ("left", "left"), ("top", "top"), ("width", "width"), ("height", "height"),
   ("selectedindex", "selectedIndex"), ("maximum", "maximum"), ("minimum", "minimum"),
   ("interval", "interval"), ("items", "items"), ("count", "count")]

/-- The spelling under which a property is stored. -/
def canonicalProperty (name : Text) : Text :=
  (propertySpellings.lookup (Text.lower name)).getD name

/-- The items of a list value. -/
def Value.items? : Value → Option (List Value)
  | .list items => some items
  | _ => none

namespace Component

/-- Whether the name is this text. -/
def isNamed (c : Component) (name : Text) : Bool :=
  match c.name with
  | .text s => s == name
  | _ => false

/-- The property stored under a spelling. -/
def stored? (c : Component) (spelling : Text) : Option Value := c.properties.get? (.text spelling)

/-- The items of a component, if it has a list of them. -/
def items? (c : Component) : Option (List Value) := (c.stored? "items").bind Value.items?

/-- The item that the selected index points at. -/
def selectedItem (c : Component) : Value :=
  match c.items?, c.stored? "selectedIndex" with
  | some items, some (.int n) => if 0 ≤ n then items[n.toNat]?.getD .nothing else .nothing
  | some items, some (.bool b) => items[if b then 1 else 0]?.getD .nothing
  | _, _ => .nothing

/-- The first property whose name agrees with a lowered one up to letter case. -/
def foundInAnyCase (lowered : Text) : Entries Value → Except Fault (Option Value)
  | [] => .ok none
  | (.text name, value) :: rest =>
    if Text.lower name = lowered then .ok (some value) else foundInAnyCase lowered rest
  | _ :: _ => .error .missingMember

/-- What a script reads as a property: the number of items, the property under its spelling, the
first one that agrees up to letter case, or the selected item. -/
def property (c : Component) (name : Text) : Except Fault Value :=
  let key := canonicalProperty name
  let lowered := Text.lower name
  match (if key = "count" then c.items? else none), c.stored? key with
  | some items, _ => .ok (.int items.length)
  | none, some value => .ok value
  | none, none => do
    match ← foundInAnyCase lowered c.properties with
    | some value => return value
    | none => return if lowered = "selecteditem" then c.selectedItem else .nothing

/-- The component with a property stored under its spelling. -/
def store (c : Component) (name : Text) (value : Value) : Component :=
  { c with properties := c.properties.set (.text (canonicalProperty name)) value }

end Component

end FormBasic
