import FormBasic.Text.Basic
import FormBasic.Text.PrintableTable
import FormBasic.Text.Range

/-!
# Quoted texts

How a text is shown inside a diagnostic or a trace: between single quotes, or between double quotes
when it holds a single quote and no double quote. The backslash, the quote in use, line ends and
tabs are escaped; other characters that do not print, and halves that stand alone, are given by
number in hexadecimal, with two, four or eight digits.

## Main definitions

* `isPrintable` - the characters shown as they are
* `hex` - a number in hexadecimal with a given number of digits
* `quoted` - the text between quotes
-/

namespace FormBasic.Text

/-- Whether a quoted text shows the character as it is. -/
def isPrintable (c : Char) : Bool :=
  if c.toNat < 0x80 then 0x20 ≤ c.toNat && c.toNat < 0x7F else !within hiddenRanges c

/-- The last `width` hexadecimal digits of a number. -/
def hex (width n : Nat) : List Char :=
  match width with
  | 0 => []
  | w + 1 => hex w (n / 16) ++ [Nat.digitChar (n % 16)]

/-- A code by its number. -/
def escapeCode (n : Nat) : List Char :=
  if n < 0x100 then '\\' :: 'x' :: hex 2 n
  else if n < 0x10000 then '\\' :: 'u' :: hex 4 n
  else '\\' :: 'U' :: hex 8 n

/-- One character of a text quoted with `quote`. -/
def escapeChar (quote c : Char) : List Char :=
  if c == '\\' || c == quote then ['\\', c]
  else if c == '\n' then ['\\', 'n']
  else if c == '\r' then ['\\', 'r']
  else if c == '\t' then ['\\', 't']
  else if isPrintable c then [c]
  else escapeCode c.toNat

/-- One code point of a text quoted with `quote`. -/
def escapePoint (quote : Char) : CodePoint → List Char
  | .char c => escapeChar quote c
  | .half offset => escapeCode (CodePoint.code (.half offset))

/-- The single quote. -/
def singleQuote : Char := Char.ofNat 39

/-- The quote that surrounds a text. -/
def quoteFor (cs : List CodePoint) : Char :=
  if cs.contains (.char singleQuote) && !cs.contains (.char '"') then '"' else singleQuote

/-- The text between quotes. -/
def quoted (s : Text) : String :=
  let quote := quoteFor s.toList
  String.ofList (quote :: s.toList.flatMap (escapePoint quote) ++ [quote])

end FormBasic.Text
