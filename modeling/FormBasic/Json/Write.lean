import FormBasic.Json.Basic
import FormBasic.Text.Quoted

/-!
# Writing JSON documents

A document is written with one item or member to a line, indented by two blanks for each level. All
characters outside the printable ASCII range are escaped.

## Main definitions

* `Json.quote` - a text between quotes
* `Json.pretty` - a document over several lines
-/

namespace FormBasic.Json

/-- The escape of a character by number; one beyond 16 bits is written as two halves. -/
def escapeNumber (n : Nat) : List Char :=
  if n < 0x10000 then '\\' :: 'u' :: Text.hex 4 n
  else
    let m := n - 0x10000
    ('\\' :: 'u' :: Text.hex 4 (0xD800 + m / 0x400)) ++
      ('\\' :: 'u' :: Text.hex 4 (0xDC00 + m % 0x400))

/-- One character of a quoted text. -/
def escapeChar (c : Char) : List Char :=
  if c == '"' || c == '\\' then ['\\', c]
  else if c == '\n' then ['\\', 'n']
  else if c == '\r' then ['\\', 'r']
  else if c == '\t' then ['\\', 't']
  else if c.toNat = 8 then ['\\', 'b']
  else if c.toNat = 12 then ['\\', 'f']
  else if 0x20 ≤ c.toNat ∧ c.toNat < 0x7F then [c]
  else escapeNumber c.toNat

/-- One code point of a quoted text. -/
def escapePoint : CodePoint → List Char
  | .char c => escapeChar c
  | .half offset => escapeNumber (CodePoint.code (.half offset))

/-- A text between quotes. -/
def quote (s : Text) : String := String.ofList ('"' :: s.toList.flatMap escapePoint ++ ['"'])

/-- The text of a float. -/
def floatText (x : Float) : String :=
  match Binary64.decode x with
  | .nan => "NaN"
  | .infinite negative => if negative then "-Infinity" else "Infinity"
  | .finite _ _ _ => Binary64.write x

/-- A new line with the indentation of a level. -/
def lineBreak (level : Nat) : String := "\n" ++ String.ofList (List.replicate (2 * level) ' ')

/-- Parts between brackets, one to a line; without parts the brackets stand alone. -/
def bracketed (opening closing : String) (level : Nat) (parts : List String) : String :=
  if parts.isEmpty then opening ++ closing
  else
    opening ++ lineBreak (level + 1) ++ ("," ++ lineBreak (level + 1)).intercalate parts ++
      lineBreak level ++ closing

mutual

/-- A document over several lines, at a level of indentation. -/
def pretty (level : Nat) : Json → String
  | .null => "null"
  | .bool b => if b then "true" else "false"
  | .int n => String.ofList (Number.integerDigits n)
  | .float x => floatText x
  | .text s => quote s
  | .list items => bracketed "[" "]" level (prettyItems (level + 1) items)
  | .object members => bracketed "\x7b" "\x7d" level (prettyMembers (level + 1) members)
termination_by structural j => j

/-- The items of a list. -/
def prettyItems (level : Nat) : List Json → List String
  | [] => []
  | j :: js => pretty level j :: prettyItems level js
termination_by structural js => js

/-- The members of an object. -/
def prettyMembers (level : Nat) : List (Text × Json) → List String
  | [] => []
  | m :: ms => prettyMember level m :: prettyMembers level ms
termination_by structural ms => ms

/-- A member of an object. -/
def prettyMember (level : Nat) : Text × Json → String
  | (name, j) => quote name ++ ": " ++ pretty level j
termination_by structural m => m

end

end FormBasic.Json
