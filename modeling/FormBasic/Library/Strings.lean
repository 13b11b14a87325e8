import FormBasic.Text.Slice
import FormBasic.Value.Coerce

/-!
# Functions on texts

The text functions that scripts call by name, and the methods of texts. Functions count positions
from one and move them into the text; the method `Substring` takes bounds as a slice does, so that a
negative bound counts from the end.

## Main definitions

* `left`, `right`, `mid` - parts of a text
* `inStr` - the position of one text in another
* `character`, `characterCode` - characters and their codes
* `callMethod` - the methods of texts
-/

namespace FormBasic.Library

/-- The argument at a position, or a default. -/
def arg (args : List Value) (position : Nat) (default : Value) : Value :=
  args[position]?.getD default

/-- The value as a count: its number without the fraction, at least zero. -/
def count (v : Value) : Except Refusal Nat := do return (← v.toPosition).toNat

/-- The first characters of a text. -/
def left (text length : Value) : Except Refusal Value := do
  let s ← text.display
  let n ← count length
  return .text (Text.ofList (s.toList.take n))

/-- The last characters of a text. -/
def right (text length : Value) : Except Refusal Value := do
  let s ← text.display
  let n ← count length
  return .text (Text.ofList (s.toList.drop (s.toList.length - n)))

/-- The characters of a text from a position on, at most a given number of them. -/
def mid (text start length : Value) : Except Refusal Value := do
  let s ← text.display
  let begin ← start.toPosition
  let rest := s.toList.drop (begin - 1).toNat
  match length with
  | .nothing => return .text (Text.ofList rest)
  | length => return .text (Text.ofList (rest.take (← count length)))

/-- The position of one text in another, counted from one; zero when it does not occur. With three
arguments the first is the position at which the search starts. -/
def inStr (args : List Value) : Except Refusal Value := do
  let (start, haystack, needle) ← match args with
    | first :: second :: third :: _ => do pure (max (← first.toPosition) 1, second, third)
    | _ => pure (1, arg args 0 .nothing, arg args 1 .nothing)
  let text ← haystack.display
  let sought ← needle.display
  match Text.indexFrom? sought.toList text.toList (start - 1).toNat with
  | some i => return .int (i + 1)
  | none => return .int 0

/-- The first integer beyond those of 32 bits with a sign. -/
def limit32 : Int := 2147483648

/-- The first integer beyond those of 64 bits with a sign. -/
def limit64 : Int := 9223372036854775808

/-- The character with a given code, as a text. -/
def character (code : Value) : Except Refusal Value := do
  let n ← code.toPosition
  if n < -limit32 ∨ limit32 ≤ n then .error .characterCodeTooLarge
  else
    match if n < 0 then none else CodePoint.ofCode? n.toNat with
    | some c => return .text (.ofList [c])
    | none => .error .characterOutOfRange

/-- The code of the first character of a text, zero for the empty text. -/
def characterCode (text : Value) : Except Refusal Value := do
  match (← text.display).toList with
  | [] => return .int 0
  | c :: _ => return .int c.code

/-- A text in which every occurrence of another is replaced. -/
def replaceIn (text : Text) (old new : Value) : Except Refusal Value := do
  let o ← old.display
  let n ← new.display
  return .text (Text.ofList (Text.replaceAll o.toList n.toList text.toList))

/-- A text of blanks. -/
def space (length : Value) : Except Refusal Value := do
  let n ← count length
  if limit64 ≤ n then .error .repetitionTooLarge
  else return .text (.ofChars (List.replicate n ' '))

/-- The part of a text between two bounds, which count from the end where they are negative. -/
def substring (text : Text) (args : List Value) : Except Refusal Value := do
  let start ← (arg args 0 (.int 0)).toPosition
  match args[1]? with
  | some length =>
    let n ← length.toPosition
    return .text (Text.ofList (Text.slice text.toList start (start + n)))
  | none => return .text (Text.ofList (Text.sliceFrom text.toList start))

/-- Calls a method of a text; a method that texts do not have gives the text itself. -/
def callMethod (text method : Text) (args : List Value) : Except Refusal Value :=
  let first := arg args 0 .nothing
  match Text.word method with
  | "length" => .ok (.int text.length)
  | "toupper" => .ok (.text (Text.upper text))
  | "tolower" => .ok (.text (Text.lower text))
  | "trim" => .ok (.text (Text.trim text))
  | "substring" => substring text args
  | "contains" => do
    let sought ← first.display
    return .bool (Text.indexOf? sought.toList text.toList).isSome
  | "indexof" => do
    let sought ← first.display
    match Text.indexOf? sought.toList text.toList with
    | some i => return .int i
    | none => return .int (-1)
  | "replace" => replaceIn text first (arg args 1 .nothing)
  | "split" => do
    let sep ← (arg args 0 (.text ",")).display
    match Text.splitOn? sep.toList text.toList with
    | some pieces => return .list (pieces.map fun p => .text (Text.ofList p))
    | none => .error .emptySeparator
  | "startswith" => do return .bool ((← first.display).toList.isPrefixOf text.toList)
  | "endswith" => do return .bool ((← first.display).toList.isSuffixOf text.toList)
  | _ => .ok (.text text)

/-- The methods of texts that can also be read as properties. -/
def textProperties : List String := ["length", "toupper", "tolower", "trim"]

end FormBasic.Library
