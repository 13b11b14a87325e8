import FormBasic.Number.Basic

/-!
# Script values

The values that variables and properties hold. Integers and floats are different values, and truth
values are a sort of their own although they count as the numbers one and zero. Data access objects
are held by reference.

A NaN equals no number, itself included. Yet a list or a dictionary that holds one equals itself,
because the parts of a collection are first compared by identity: a NaN that comes with data bears a
mark, and inside a collection it equals the NaN of the same mark.

## Main definitions

* `Handle` - a reference to a data access object
* `Key` - the values that can be keys of a dictionary
* `Value` - the values of scripts
* `Value.number?` - numbers and truth values as numbers
-/

namespace FormBasic

/-- A reference to a data access object. -/
structure Handle where
  index : Nat
  deriving Repr, DecidableEq

/-- The keys of dictionaries. -/
inductive Key where
  | nothing
  | bool (b : Bool)
  | int (n : Int)
  | float (x : Float)
  /-- A NaN that came with data. -/
  | nan (mark : Nat)
  | text (s : Text)
  | object (h : Handle)

/-- The values of scripts. -/
inductive Value where
  | nothing
  | bool (b : Bool)
  | int (n : Int)
  | float (x : Float)
  /-- A NaN that came with data. -/
  | nan (mark : Nat)
  | text (s : Text)
  | list (items : List Value)
  /-- Keys with values, in the order in which they were added. -/
  | dict (entries : List (Key × Value))
  | object (h : Handle)

instance : Inhabited Value := ⟨.nothing⟩

/-- A number as a value. -/
def Value.ofNumber : Number → Value
  | .int n => .int n
  | .float x => .float x

/-- Numbers and truth values as numbers; none for other values. -/
def Value.number? : Value → Option Number
  | .bool b => some (.int (if b then 1 else 0))
  | .int n => some (.int n)
  | .float x => some (.float x)
  | .nan _ => some (.float Binary64.notANumber)
  | _ => none

/-- A key as a value. -/
def Key.toValue : Key → Value
  | .nothing => .nothing
  | .bool b => .bool b
  | .int n => .int n
  | .float x => .float x
  | .nan mark => .nan mark
  | .text s => .text s
  | .object h => .object h

/-- A value as a key; lists and dictionaries cannot be keys. -/
def Value.key? : Value → Option Key
  | .nothing => some .nothing
  | .bool b => some (.bool b)
  | .int n => some (.int n)
  | .float x => some (.float x)
  | .nan mark => some (.nan mark)
  | .text s => some (.text s)
  | .object h => some (.object h)
  | .list _ => none
  | .dict _ => none

/-- Whether the value is a data access object. -/
def Value.isObject : Value → Bool
  | .object _ => true
  | _ => false

/-- Whether the value is `Nothing`. -/
def Value.isNothing : Value → Bool
  | .nothing => true
  | _ => false

end FormBasic
