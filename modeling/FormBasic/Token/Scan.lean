import FormBasic.Token.Basic

/-!
# Scanning source text

Source text is cut into tokens from left to right. Scanning never fails: spaces and tabs separate
tokens, and a character that starts no token is passed over. A line ends at a line feed, a carriage
return, or the two together; no other token reaches across the end of a line.

## Main definitions

* `Lexeme` - what is recognised at one place: kind, text and how many characters it takes
* `lexemeAt` - the lexeme that starts with a given character, if any
* `Token.scanFrom` - the tokens of the text from a given position on
* `Token.scan` - the tokens of a whole text
-/

namespace FormBasic

-- ════════════════════════════════════════════════════════════════════════════
-- Character classes
-- ════════════════════════════════════════════════════════════════════════════

/-- The words that are not identifiers, in lower case. -/
def keywords : List String :=
  ["dim", "as", "integer", "string", "boolean", "double", "single", "long", "object",
   "if", "then", "else", "elseif", "end", "sub", "function", "return",
   "for", "to", "step", "next", "while", "wend", "do", "loop", "until",
   "true", "false", "not", "and", "or", "mod",
   "private", "public", "class", "new", "me", "nothing",
   "select", "case", "exit", "byval", "byref",
   "try", "catch", "finally"]

/-- The comparison operators of two characters. -/
def longOperators : List (Char × Char) := [('<', '>'), ('<', '='), ('>', '=')]

/-- Whether the character is an operator of its own. -/
def isOperatorChar (c : Char) : Bool :=
  ['=', '<', '>', '+', '-', '*', '/', '\\', '^', '&'].contains c

/-- Whether the character is punctuation. -/
def isPunctuationChar (c : Char) : Bool :=
  ['(', ')', ',', '.'].contains c

/-- Whether the character is a digit of a numeric literal. -/
def isDigitChar (c : Char) : Bool := '0' ≤ c && c ≤ '9'

/-- Whether an identifier can start with the character. -/
def isIdentStart (c : Char) : Bool :=
  ('A' ≤ c && c ≤ 'Z') || ('a' ≤ c && c ≤ 'z') || c == '_'

/-- Whether an identifier can go on with the character. -/
def isIdentChar (c : Char) : Bool := isIdentStart c || isDigitChar c

/-- Whether the character ends a line. -/
def isLineEnd (c : Char) : Bool := c == '\r' || c == '\n'

/-- The character that starts a comment. -/
def commentMark : Char := Char.ofNat 39

/-- The longest start of a text that consists of characters with a property. -/
def takeChars (p : Char → Bool) (cs : List CodePoint) : List Char :=
  (cs.takeWhile (CodePoint.satisfies p)).filterMap CodePoint.char?

/-- Whether the text starts with a character that has a property. -/
def startsWith (p : Char → Bool) (cs : List CodePoint) : Bool :=
  cs.head?.any (CodePoint.satisfies p)

-- ════════════════════════════════════════════════════════════════════════════
-- Lexemes
-- ════════════════════════════════════════════════════════════════════════════

/-- What is recognised at one place of the source. -/
structure Lexeme where
  kind : Token.Kind
  text : Text
  /-- Number of characters taken beyond the first. -/
  extra : Nat
  deriving Repr, DecidableEq

/-- A lexeme spelled by exactly the characters it takes. -/
def Lexeme.spelled (kind : Token.Kind) (cs : List Char) : Lexeme :=
  ⟨kind, .ofChars cs, cs.length - 1⟩

/-- The characters of a numeric literal: digits, and a point that stands before a digit. -/
def numberChars (cs : List CodePoint) : List Char :=
  let whole := takeChars isDigitChar cs
  match cs.drop whole.length with
  | .char '.' :: rest =>
    if startsWith isDigitChar rest then whole ++ '.' :: takeChars isDigitChar rest else whole
  | _ => whole

/-- A word is a keyword in any letter case, or else an identifier. -/
def wordLexeme (cs : List Char) : Lexeme :=
  let lowered := String.ofList (cs.map Char.toLower)
  if keywords.contains lowered then ⟨.keyword, lowered, cs.length - 1⟩
  else .spelled .identifier cs

/-- The start of a text up to a line end, or up to a character with a property. -/
def takeLine (stop : Char → Bool) (cs : List CodePoint) : List CodePoint :=
  cs.takeWhile fun c => !c.satisfies fun d => stop d || isLineEnd d

/-- A string literal without its opening quote: it ends before the next quote, which it takes, or at
the end of the line. -/
def stringLexeme (cs : List CodePoint) : Lexeme :=
  let body := takeLine (· == '"') cs
  let closed := startsWith (· == '"') (cs.drop body.length)
  ⟨.string, .ofList body, body.length + if closed then 1 else 0⟩

/-- A comment up to the end of the line, without its mark. -/
def commentLexeme (cs : List CodePoint) : Lexeme :=
  let body := takeLine (fun _ => false) cs
  ⟨.comment, .ofList (.char commentMark :: body), body.length⟩

/-- Whether a number starts with `c` before `cs`. -/
def startsNumber (c : Char) (cs : List CodePoint) : Bool :=
  isDigitChar c || (c == '.' && startsWith isDigitChar cs)

/-- Whether `c` before `cs` starts an operator of two characters. -/
def startsLongOperator (c : Char) (cs : List CodePoint) : Bool :=
  startsWith (fun d => longOperators.contains (c, d)) cs

/-- The lexeme that starts with `c` before `cs`; none when `c` starts no token. -/
def lexemeAt (c : Char) (cs : List CodePoint) : Option Lexeme :=
  if isLineEnd c then
    some ⟨.newline, "\n", if c == '\r' && startsWith (· == '\n') cs then 1 else 0⟩
  else if c == commentMark then some (commentLexeme cs)
  else if c == '"' then some (stringLexeme cs)
  else if startsNumber c cs then some (.spelled .number (numberChars (.char c :: cs)))
  else if isIdentStart c then some (wordLexeme (c :: takeChars isIdentChar cs))
  else if startsLongOperator c cs then
    some (.spelled .operator (c :: (cs.head?.bind CodePoint.char?).toList))
  else if isOperatorChar c then some (.spelled .operator [c])
  else if isPunctuationChar c then some (.spelled .punctuation [c])
  else none

-- ════════════════════════════════════════════════════════════════════════════
-- Whole texts
-- ════════════════════════════════════════════════════════════════════════════

namespace Token

/-- The tokens of a text that starts at the given position, followed by the end marker. -/
def scanFrom (line col : Nat) : List CodePoint → List Token
  | [] => [⟨.eof, "", .ofNat line, col⟩]
  | c :: cs =>
    match c.char?.bind fun c => lexemeAt c cs with
    | none => scanFrom line (col + 1) cs
    | some l =>
      let token : Token := ⟨l.kind, l.text, .ofNat line, col⟩
      if l.kind = .newline then token :: scanFrom (line + 1) 1 (cs.drop l.extra)
      else token :: scanFrom line (col + 1 + l.extra) (cs.drop l.extra)
termination_by cs => cs.length
decreasing_by all_goals (simp only [List.length_cons, List.length_drop]; omega)

/-- The tokens of a source text, followed by the end marker. -/
def scan (source : Text) : List Token := scanFrom 1 1 source.toList

end Token

end FormBasic
