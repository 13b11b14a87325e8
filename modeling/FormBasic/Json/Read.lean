import FormBasic.Json.Basic
import FormBasic.Number.Decimal
import FormBasic.Table

/-!
# Reading JSON documents

A reader with exact diagnoses: what was expected, and the line, the column and the position at which
something else was found. Besides the numbers of the standard it knows the words for infinity and
for a number that is none. Of several members of one name the last one counts, at the place of the
first.

## Main definitions

* `Complaint` - what is wrong with a text
* `ReadFailure` - a complaint and its place, or a number that cannot be read
* `Json.read` - reads a document

## Design notes

The reader works on the characters that are left; a place is remembered as how many were left there.
-/

namespace FormBasic

/-- What is wrong with a text. -/
inductive Complaint where
  | value | propertyName | colon | comma
  | unterminated | controlCharacter | escape | numericEscape
  | extraData | byteOrderMark
  deriving Repr, DecidableEq

/-- The wording of a complaint. -/
def Complaint.message : Complaint → String
  | .value => "Expecting value"
  | .propertyName => "Expecting property name enclosed in double quotes"
  | .colon => "Expecting ':' delimiter"
  | .comma => "Expecting ',' delimiter"
  | .unterminated => "Unterminated string starting at"
  | .controlCharacter => "Invalid control character at"
  | .escape => "Invalid \\escape"
  | .numericEscape => "Invalid \\uXXXX escape"
  | .extraData => "Extra data"
  | .byteOrderMark => "Unexpected UTF-8 BOM (decode using utf-8-sig)"

/-- Why a text cannot be read. -/
inductive ReadFailure where
  /-- A complaint, and how many characters were left at its place. -/
  | malformed (complaint : Complaint) (left : Nat)
  | refused (refusal : Refusal)
  deriving Repr, DecidableEq

/-- The wording of a complaint at a position of a text. -/
def Complaint.messageAt (complaint : Complaint) (text : List Char) (position : Nat) : String :=
  let before := text.take position
  let line := before.count '\n' + 1
  let column := (before.reverse.takeWhile fun c => c != '\n').length + 1
  complaint.message ++ ": line " ++ toString line ++ " column " ++ toString column ++
    " (char " ++ toString position ++ ")"

/-- The wording of a failure to read a text. -/
def ReadFailure.message (text : String) : ReadFailure → Text
  | .malformed complaint left => complaint.messageAt text.toList (text.toList.length - left)
  | .refused refusal => refusal.message

namespace Json

/-- A complaint about the place where some characters are left. -/
def complain {α : Type} (complaint : Complaint) (left : List Char) : Except ReadFailure α :=
  .error (.malformed complaint left.length)

/-- Whether the character may stand between the parts of a document. -/
def isGap (c : Char) : Bool := c == ' ' || c == '\t' || c == '\n' || c == '\r'

/-- The characters after a gap. -/
def skipGap (cs : List Char) : List Char := cs.dropWhile isGap

-- ════════════════════════════════════════════════════════════════════════════
-- Texts
-- ════════════════════════════════════════════════════════════════════════════

/-- The value of a hexadecimal digit. -/
def hexDigit? (c : Char) : Option Nat :=
  if '0' ≤ c ∧ c ≤ '9' then some (c.toNat - '0'.toNat)
  else if 'a' ≤ c ∧ c ≤ 'f' then some (c.toNat - 'a'.toNat + 10)
  else if 'A' ≤ c ∧ c ≤ 'F' then some (c.toNat - 'A'.toNat + 10)
  else none

/-- The number of four hexadecimal digits. -/
def hexNumber? (a b c d : Char) : Option Nat := do
  return ((← hexDigit? a) * 16 + (← hexDigit? b)) * 256 + (← hexDigit? c) * 16 + (← hexDigit? d)

/-- The character that a letter after a backslash stands for. -/
def plainEscape? : Char → Option Char
  | '"' => some '"'
  | '\\' => some '\\'
  | '/' => some '/'
  | 'b' => some (Char.ofNat 8)
  | 'f' => some (Char.ofNat 12)
  | 'n' => some '\n'
  | 'r' => some '\r'
  | 't' => some '\t'
  | _ => none

/-- Reads the rest of a text up to its closing quote, as the numbers of its characters, where
`opening` is how many characters were left at the opening quote and `before` are the numbers read so
far, the last one first. -/
def readUnits (opening : Nat) (before : List Nat) :
    List Char → Except ReadFailure (List Nat × List Char)
  | [] => .error (.malformed .unterminated opening)
  | '"' :: rest => .ok (before.reverse, rest)
  | '\\' :: [] => .error (.malformed .unterminated opening)
  | '\\' :: 'u' :: a :: b :: c :: d :: x :: rest =>
    match hexNumber? a b c d with
    | none => .error (.malformed .numericEscape (rest.length + 6))
    | some n => readUnits opening (n :: before) (x :: rest)
  | '\\' :: c :: rest =>
    match plainEscape? c with
    | some e => readUnits opening (e.toNat :: before) rest
    | none =>
      if c == 'u' then .error (.malformed .numericEscape (rest.length + 1))
      else .error (.malformed .escape (rest.length + 2))
  | c :: rest =>
    if c.toNat < 0x20 then .error (.malformed .controlCharacter (rest.length + 1))
    else readUnits opening (c.toNat :: before) rest

/-- Puts the code point of a number in front of others; the first half of a pair joins a second half
that follows it. -/
def consUnit (n : Nat) (cs : List CodePoint) : List CodePoint :=
  let second? := match cs with
    | .half offset :: rest =>
      if n < 0xDC00 ∧ 0x400 ≤ offset.val then some (offset.val - 0x400, rest) else none
    | _ => none
  match CodePoint.ofCode? n, second? with
  | some (.half first), some (low, rest) =>
    .char (Char.ofNat (0x10000 + first.val * 0x400 + low)) :: rest
  | some c, _ => c :: cs
  | none, _ => cs

/-- Reads the rest of a text up to its closing quote. -/
def readText (opening : Nat) (cs : List Char) : Except ReadFailure (Text × List Char) := do
  let (units, rest) ← readUnits opening [] cs
  return (.ofList (units.foldr consUnit []), rest)

-- ════════════════════════════════════════════════════════════════════════════
-- Numbers and words
-- ════════════════════════════════════════════════════════════════════════════

/-- The digits of a number before its point: a zero on its own, or digits that do not start with
one. -/
def takeWhole (cs : List Char) : List Char × List Char :=
  match cs with
  | '0' :: rest => (['0'], rest)
  | cs => (cs.takeWhile Text.isAsciiDigit, cs.dropWhile Text.isAsciiDigit)

/-- The point of a number with the digits after it; nothing if no digit follows the point. -/
def takeFraction (cs : List Char) : List Char × List Char :=
  match cs with
  | '.' :: rest =>
    let digits := rest.takeWhile Text.isAsciiDigit
    if digits.isEmpty then ([], cs) else ('.' :: digits, rest.dropWhile Text.isAsciiDigit)
  | cs => ([], cs)

/-- The exponent of a number; nothing if it has no digits. -/
def takeExponent (cs : List Char) : List Char × List Char :=
  match cs with
  | e :: rest =>
    if e == 'e' || e == 'E' then
      let (sign, digits) := match rest with
        | '+' :: ds => (['+'], ds)
        | '-' :: ds => (['-'], ds)
        | ds => ([], ds)
      let found := digits.takeWhile Text.isAsciiDigit
      if found.isEmpty then ([], cs)
      else ('e' :: sign ++ found, digits.dropWhile Text.isAsciiDigit)
    else ([], cs)
  | [] => ([], [])

/-- Reads a number. -/
def readNumber (cs : List Char) : Except ReadFailure (Json × List Char) :=
  let (sign, unsigned) := match cs with
    | '-' :: rest => (['-'], rest)
    | rest => ([], rest)
  let (whole, rest) := takeWhole unsigned
  if whole.isEmpty then complain .value cs
  else
    let (fraction, rest) := takeFraction rest
    let (exponent, rest) := takeExponent rest
    let text := String.ofList (sign ++ whole ++ fraction ++ exponent)
    if fraction.isEmpty && exponent.isEmpty then
      match Number.readInteger text with
      | .ok n => .ok (.int n, rest)
      | .error refusal => .error (.refused refusal)
    else
      match Number.readDecimal text with
      | .ok x => .ok (.float x, rest)
      | .error refusal => .error (.refused refusal)

/-- The words that are documents. -/
def words : List (String × Json) :=
  [("null", .null), ("true", .bool true), ("false", .bool false),
   ("NaN", .float Binary64.notANumber),
   ("Infinity", .float (Binary64.ofMagnitude false Binary64.infinityBits)),
   ("-Infinity", .float (Binary64.ofMagnitude true Binary64.infinityBits))]

/-- Reads a word or a number. -/
def readSimple (cs : List Char) : Except ReadFailure (Json × List Char) :=
  match words.find? fun w => w.1.toList.isPrefixOf cs with
  | some w => .ok (w.2, cs.drop w.1.toList.length)
  | none => readNumber cs

-- ════════════════════════════════════════════════════════════════════════════
-- Documents
-- ════════════════════════════════════════════════════════════════════════════

mutual

/-- Reads a document, in at most `depth` nested steps. -/
def readValue (depth : Nat) (cs : List Char) : Except ReadFailure (Json × List Char) :=
  match depth, cs with
  | 0, cs => complain .value cs
  | _ + 1, '"' :: rest => do
    let (content, rest) ← readText cs.length rest
    return (.text content, rest)
  | depth + 1, '\x7b' :: rest =>
    match skipGap rest with
    | '\x7d' :: rest => .ok (.object [], rest)
    | rest => do
      let (members, rest) ← readMembers depth rest
      return (.object (Table.ofList members).entries, rest)
  | depth + 1, '[' :: rest =>
    match skipGap rest with
    | ']' :: rest => .ok (.list [], rest)
    | rest => do
      let (items, rest) ← readItems depth rest
      return (.list items, rest)
  | _ + 1, cs => readSimple cs
termination_by structural depth

/-- Reads the items of a list and its closing bracket. -/
def readItems (depth : Nat) (cs : List Char) : Except ReadFailure (List Json × List Char) :=
  match depth with
  | 0 => complain .value cs
  | depth + 1 => do
    let (item, rest) ← readValue depth cs
    match skipGap rest with
    | ']' :: rest => return ([item], rest)
    | ',' :: rest =>
      let (items, rest) ← readItems depth (skipGap rest)
      return (item :: items, rest)
    | rest => complain .comma rest
termination_by structural depth

/-- Reads the members of an object and its closing brace. -/
def readMembers (depth : Nat) (cs : List Char) :
    Except ReadFailure (List (Text × Json) × List Char) :=
  match depth, cs with
  | 0, cs => complain .value cs
  | depth + 1, '"' :: rest => do
    let (name, rest) ← readText cs.length rest
    match skipGap rest with
    | ':' :: rest =>
      let (value, rest) ← readValue depth (skipGap rest)
      match skipGap rest with
      | '\x7d' :: rest => return ([(name, value)], rest)
      | ',' :: rest =>
        let (members, rest) ← readMembers depth (skipGap rest)
        return ((name, value) :: members, rest)
      | rest => complain .comma rest
    | rest => complain .colon rest
  | _ + 1, cs => complain .propertyName cs
termination_by structural depth

end

/-- Reads a document that takes up a whole text. -/
def read (text : String) : Except ReadFailure Json := do
  let cs := text.toList
  if cs.head? = some (Char.ofNat 0xFEFF) then .error (.malformed .byteOrderMark cs.length)
  else
    let (document, rest) ← readValue (2 * cs.length + 2) (skipGap cs)
    match skipGap rest with
    | [] => return document
    | rest => .error (.malformed .extraData rest.length)

end Json

end FormBasic
