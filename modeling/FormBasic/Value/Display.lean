import FormBasic.Value.Basic

/-!
# Values as text

The display text of a value is what scripts see when they join it to a text. The literal text is
what a trace shows: texts in quotes, lists and dictionaries in brackets. Both are refused for
integers with too many digits.

## Main definitions

* `Value.literal` - the text of a value in a trace
* `Value.display` - the text of a value for scripts
* `Key.shown` - the text of a key in a name
-/

namespace FormBasic

/-- The display text of a truth value. -/
def boolText (b : Bool) : Text := if b then "True" else "False"

/-- The text that stands for an object. -/
def objectText : Text := "<object>"

/-- The literal text of a key. -/
def Key.literal : Key → Except Refusal Text
  | .nothing => .ok "None"
  | .bool b => .ok (boolText b)
  | .int n => Number.integerText n
  | .float x => .ok (Binary64.write x)
  | .nan _ => .ok (Binary64.write Binary64.notANumber)
  | .text s => .ok (Text.quoted s)
  | .object _ => .ok objectText

mutual

/-- The literal text of a value. -/
def Value.literal : Value → Except Refusal Text
  | .nothing => .ok "None"
  | .bool b => .ok (boolText b)
  | .int n => Number.integerText n
  | .float x => .ok (Binary64.write x)
  | .nan _ => .ok (Binary64.write Binary64.notANumber)
  | .text s => .ok (Text.quoted s)
  | .list xs => do
    let items ← literalItems xs
    return "[" ++ Text.joined ", " items ++ "]"
  | .dict es => do
    let items ← literalEntries es
    return "\x7b" ++ Text.joined ", " items ++ "\x7d"
  | .object _ => .ok objectText
termination_by structural v => v

/-- The literal texts of several values. -/
def literalItems : List Value → Except Refusal (List Text)
  | [] => .ok []
  | x :: xs => do
    let text ← x.literal
    let texts ← literalItems xs
    return text :: texts
termination_by structural xs => xs

/-- The literal texts of the entries of a dictionary. -/
def literalEntries : List (Key × Value) → Except Refusal (List Text)
  | [] => .ok []
  | e :: es => do
    let text ← literalEntry e
    let texts ← literalEntries es
    return text :: texts
termination_by structural es => es

/-- The literal text of an entry of a dictionary. -/
def literalEntry : Key × Value → Except Refusal Text
  | (k, v) => do
    let key ← k.literal
    let value ← v.literal
    return key ++ ": " ++ value
termination_by structural e => e

end

mutual

/-- The display text of a value: nothing is empty, a whole float is written as an integer, and the
items of a list are separated by commas. -/
def Value.display : Value → Except Refusal Text
  | .nothing => .ok ""
  | .bool b => .ok (boolText b)
  | .int n => Number.integerText n
  | .float x => (Number.normalize (.float x)).text
  | .nan _ => .ok (Binary64.write Binary64.notANumber)
  | .text s => .ok s
  | .list xs => do
    let items ← displayItems xs
    return Text.joined "," items
  | .dict es => (Value.dict es).literal
  | .object _ => .ok objectText
termination_by structural v => v

/-- The display texts of several values. -/
def displayItems : List Value → Except Refusal (List Text)
  | [] => .ok []
  | x :: xs => do
    let text ← x.display
    let texts ← displayItems xs
    return text :: texts
termination_by structural xs => xs

end

/-- The text of a key in a name or in a message. -/
def Key.shown : Key → Text
  | .nothing => "None"
  | .bool b => boolText b
  | .int n => .ofChars (Number.integerDigits n)
  | .float x => Binary64.write x
  | .nan _ => Binary64.write Binary64.notANumber
  | .text s => s
  | .object _ => objectText

end FormBasic
