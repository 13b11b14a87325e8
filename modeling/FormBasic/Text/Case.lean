import FormBasic.Text.Basic
import FormBasic.Text.CaseTable
import FormBasic.Text.LetterTable
import FormBasic.Text.Range

/-!
# Upper and lower case

Case mappings of whole texts. A letter may map to several letters, and a capital sigma is written in
its final form at the end of a word, so lowering looks at the neighbours of a letter.

## Main definitions

* `upper`, `lower` - a text in one case
* `word` - the lower case of a name as a string
* `capitalize` - first letter as at the start of a capitalised word, the others lowered
* `isLetter` - letters of any script
-/

namespace FormBasic.Text

-- ════════════════════════════════════════════════════════════════════════════
-- Single letters
-- ════════════════════════════════════════════════════════════════════════════

/-- Whether `c` is an ASCII capital. -/
def isAsciiUpper (c : Char) : Bool :=
  'A'.toNat ≤ c.toNat && c.toNat ≤ 'Z'.toNat

/-- Whether `c` is an ASCII small letter. -/
def isAsciiLower (c : Char) : Bool :=
  'a'.toNat ≤ c.toNat && c.toNat ≤ 'z'.toNat

/-- Whether `c` is a letter of any script. -/
def isLetter (c : Char) : Bool :=
  isAsciiUpper c || isAsciiLower c || within letterRanges c

/-- Whether the run maps the code point `n`. -/
def CaseRun.covers (r : CaseRun) (n : Nat) : Bool :=
  r.first ≤ n && n ≤ r.last && (n - r.first) % r.step == 0

/-- The image of a code point under a table of runs, itself where no run covers it. -/
def mapByRuns (runs : List CaseRun) (n : Nat) : Nat :=
  match runs.find? fun r => r.covers n with
  | some r => (n + r.offset).toNat
  | none => n

/-- The image of a code point under a table of expansions. -/
def expansion? (table : List (Nat × List Nat)) (n : Nat) : Option (List Char) :=
  (table.lookup n).map fun ns => ns.map Char.ofNat

/-- The upper case of one character. -/
def upperChar (c : Char) : List Char :=
  if c.toNat < 0x80 then [if isAsciiLower c then Char.ofNat (c.toNat - 32) else c]
  else
    match expansion? upperExpansions c.toNat with
    | some cs => cs
    | none => [Char.ofNat (mapByRuns upperRuns c.toNat)]

/-- The lower case of one character that is not a capital sigma. -/
def lowerChar (c : Char) : List Char :=
  if c.toNat < 0x80 then [if isAsciiUpper c then Char.ofNat (c.toNat + 32) else c]
  else if c.toNat = 0x0130 then [Char.ofNat 0x0069, Char.ofNat 0x0307]
  else [Char.ofNat (mapByRuns lowerRuns c.toNat)]

/-- The form of one character at the start of a capitalised word. -/
def titleChar (c : Char) : List Char :=
  if within titleFixedRanges c then [c]
  else
    match expansion? titleExpansions c.toNat with
    | some cs => cs
    | none => upperChar c

-- ════════════════════════════════════════════════════════════════════════════
-- Whole texts
-- ════════════════════════════════════════════════════════════════════════════

/-- Whether the nearest code point that is not passed over has case. -/
def nextIsCased (cs : List CodePoint) : Bool :=
  (cs.dropWhile (CodePoint.satisfies (within ignorableRanges))).head?.any
    (CodePoint.satisfies (within casedRanges))

/-- The capital sigma. -/
def capitalSigma : Char := Char.ofNat 0x03A3

/-- The small sigma, in its form at the end of a word or in its usual form. -/
def smallSigma (final : Bool) : Char := Char.ofNat (if final then 0x03C2 else 0x03C3)

/-- Lower case of the code points that follow `before`, which is given last one first: a capital
sigma is final when a letter with case comes before it and none comes after it. -/
def lowerAfter (before : List CodePoint) : List CodePoint → List CodePoint
  | [] => []
  | c :: cs =>
    (if c = .char capitalSigma then [.char (smallSigma (nextIsCased before && !nextIsCased cs))]
    else c.mapChar lowerChar) ++ lowerAfter (c :: before) cs

/-- The text in upper case. -/
def upper (s : Text) : Text := .ofList (s.toList.flatMap (CodePoint.mapChar upperChar))

/-- The text in lower case. -/
def lower (s : Text) : Text := .ofList (lowerAfter [] s.toList)

/-- The word by which a name is looked up in any letter case: its lower case. A text with lone
halves names nothing, and its word is empty. -/
def word (s : Text) : String := (lower s).plain?.getD ""

/-- The text with its first letter as at the start of a capitalised word and the others lowered. -/
def capitalize (s : Text) : Text :=
  match s.toList with
  | [] => ""
  | c :: cs => .ofList (c.mapChar titleChar ++ lowerAfter [c] cs)

/-- Whether the text has at least one character and only letters. -/
def isAlphabetic (s : Text) : Bool :=
  !s.isEmpty && s.toList.all (CodePoint.satisfies isLetter)

end FormBasic.Text
