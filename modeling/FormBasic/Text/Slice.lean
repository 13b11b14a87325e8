import FormBasic.Text.Basic

/-!
# Cutting and searching texts

Texts are cut and searched as lists of code points, so positions count code points. A slice is given
by two integer bounds: a negative bound counts from the end, and bounds beyond the text are moved to
its ends.

## Main definitions

* `slice`, `sliceFrom` - the elements between two bounds
* `indexOf?`, `indexFrom?` - the first occurrence of a text in another
* `replaceAll` - every occurrence replaced, from left to right
* `splitOn?`, `splitAt`, `cutAt?` - the pieces between the occurrences of a separator
-/

namespace FormBasic.Text

-- ════════════════════════════════════════════════════════════════════════════
-- Slices
-- ════════════════════════════════════════════════════════════════════════════

/-- The position that an integer bound stands for in a text of `length` code points. -/
def clampBound (length : Nat) (bound : Int) : Nat :=
  if bound < 0 then (bound + length).toNat else min bound.toNat length

/-- The elements from bound `start` up to bound `stop`. -/
def slice {α : Type} (xs : List α) (start stop : Int) : List α :=
  let first := clampBound xs.length start
  (xs.take (clampBound xs.length stop)).drop first

/-- The elements from bound `start` to the end. -/
def sliceFrom {α : Type} (xs : List α) (start : Int) : List α :=
  xs.drop (clampBound xs.length start)

-- ════════════════════════════════════════════════════════════════════════════
-- Search
-- ════════════════════════════════════════════════════════════════════════════

/-- Position of the first occurrence of `needle`. -/
def indexOf? (needle : List CodePoint) : List CodePoint → Option Nat
  | [] => if needle.isEmpty then some 0 else none
  | c :: cs =>
    if needle.isPrefixOf (c :: cs) then some 0 else (indexOf? needle cs).map (· + 1)

/-- Position of the first occurrence of `needle` at or after `start`; none when `start` lies beyond
the end. -/
def indexFrom? (needle text : List CodePoint) (start : Nat) : Option Nat :=
  if text.length < start then none else (indexOf? needle (text.drop start)).map (· + start)

-- ════════════════════════════════════════════════════════════════════════════
-- Replacing and splitting
-- ════════════════════════════════════════════════════════════════════════════

/-- Replaces the occurrences of a non-empty text, from left to right, after passing over `skip`
code points. -/
def replaceAfter (old new : List CodePoint) : Nat → List CodePoint → List CodePoint
  | _, [] => []
  | skip + 1, _ :: cs => replaceAfter old new skip cs
  | 0, c :: cs =>
    if old.isPrefixOf (c :: cs) then new ++ replaceAfter old new (old.length - 1) cs
    else c :: replaceAfter old new 0 cs

/-- Replaces every occurrence of `old`. The empty text occurs before every code point and at the
end. -/
def replaceAll (old new text : List CodePoint) : List CodePoint :=
  if old.isEmpty then (text.flatMap fun c => new ++ [c]) ++ new
  else replaceAfter old new 0 text

/-- Puts a code point at the front of the first piece. -/
def consToFirst (c : CodePoint) : List (List CodePoint) → List (List CodePoint)
  | [] => [[c]]
  | p :: ps => (c :: p) :: ps

/-- The pieces between the occurrences of a non-empty separator, after passing over `skip`
code points. -/
def splitAfter (sep : List CodePoint) : Nat → List CodePoint → List (List CodePoint)
  | _, [] => [[]]
  | skip + 1, _ :: cs => splitAfter sep skip cs
  | 0, c :: cs =>
    if sep.isPrefixOf (c :: cs) then [] :: splitAfter sep (sep.length - 1) cs
    else consToFirst c (splitAfter sep 0 cs)

/-- The pieces between the occurrences of a separator; none when the separator is empty. -/
def splitOn? (sep text : List CodePoint) : Option (List (List CodePoint)) :=
  if sep.isEmpty then none else some (splitAfter sep 0 text)

/-- The pieces of a text between the occurrences of one character. -/
def splitAt (sep : Char) (s : Text) : List Text :=
  (splitAfter [.char sep] 0 s.toList).map .ofList

/-- The parts before and after the first occurrence of a character. -/
def cutAt? (sep : Char) (s : Text) : Option (Text × Text) :=
  if s.toList.contains (.char sep) then
    some (.ofList (s.toList.takeWhile (· != .char sep)),
      .ofList ((s.toList.dropWhile (· != .char sep)).drop 1))
  else none

end FormBasic.Text
