import FormBasic.Text.Basic

/-!
# Lines

The number of the line on which something stands. The lines of a source text are counted from one;
tokens and trees that other tools build bring numbers of their own, or none.

## Main definitions

* `Line` - the number of a line, if there is one
* `Line.place` - how a message ends that speaks of a line
-/

namespace FormBasic

/-- The number of a line; none where it is not known. -/
abbrev Line := Option Int

namespace Line

/-- The line of a source text with a given number. -/
def ofNat (n : Nat) : Line := some n

/-- The number of a line as text, empty where it is not known. -/
def text : Line → Text
  | some n => toString n
  | none => ""

/-- How a message ends that speaks of a line: it names the line where it is known. -/
def place : Line → Text
  | some n => " at line " ++ toString n
  | none => ""

end Line

end FormBasic
