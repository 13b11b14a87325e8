import FormBasic.Refusal
import FormBasic.Token.Scan

/-!
# Reading positions

A parser reads a list of tokens that ends before the first end marker; the marker itself is kept
aside, because diagnostics at the end of the text speak of it. A parsing step answers with a value
and the tokens that remain, together with the proof that there are fewer of them, which is what
makes the parsers total.

## Main definitions

* `Misparse`, `ParseError` - why a text is not accepted, and where
* `ParseFailure` - a malformed text, or a literal that cannot be read
* `Stream` - the tokens of a text and its end marker
* `Parsed` - a value and the remaining tokens
* `expect` - takes one given symbol
-/

namespace FormBasic

-- ════════════════════════════════════════════════════════════════════════════
-- Failures
-- ════════════════════════════════════════════════════════════════════════════

/-- Why a text is not accepted. -/
inductive Misparse where
  /-- No name after `Sub` or `Function`. -/
  | nameAfter (word : Text)
  | pointInHandles
  | variableName (got : Text)
  | typeName (got : Text)
  | loopVariable (got : Text)
  /-- A condition in front of a `Do` loop. -/
  | leadingTest
  | memberName (got : Text)
  | endOfStatement
  | unexpected (got : Text)
  | expected (want got : Text)
  /-- Something follows a complete expression. -/
  | trailing (got : Text)
  deriving Repr, DecidableEq

/-- The wording of a misparse. -/
def Misparse.text : Misparse → Text
  | .nameAfter word => "Expected a name after '" ++ word ++ "'"
  | .pointInHandles => "Expected '.' in Handles clause"
  | .variableName got => "Expected variable name after 'Dim' but got '" ++ got ++ "'"
  | .typeName got => "Expected type name but got '" ++ got ++ "'"
  | .loopVariable got => "Expected loop variable after 'For' but got '" ++ got ++ "'"
  | .leadingTest =>
    "Leading Do While/Until conditions are not supported; use Loop While/Until"
  | .memberName got => "Expected member name after '.' but got '" ++ got ++ "'"
  | .endOfStatement => "Unexpected end of statement"
  | .unexpected got => "Unexpected token '" ++ got ++ "'"
  | .expected want got => "Expected '" ++ want ++ "' but got '" ++ got ++ "'"
  | .trailing got => "Unexpected token '" ++ got ++ "' after expression"

/-- A misparse and the line of the token it was found at. -/
structure ParseError where
  cause : Misparse
  line : Line
  deriving Repr, DecidableEq

/-- The wording of a parse error. -/
def ParseError.message (e : ParseError) : Text :=
  e.cause.text ++ e.line.place

/-- Why a text has no tree. -/
inductive ParseFailure where
  | malformed (error : ParseError)
  /-- A numeric literal cannot be read. -/
  | refused (refusal : Refusal)
  deriving Repr, DecidableEq

/-- Fails at a token. -/
def failAt {α : Type} (t : Token) (cause : Misparse) : Except ParseFailure α :=
  .error (.malformed ⟨cause, t.line⟩)

-- ════════════════════════════════════════════════════════════════════════════
-- Tokens to be read
-- ════════════════════════════════════════════════════════════════════════════

/-- The tokens before the first end marker, without comments, and the marker. -/
structure Stream where
  tokens : List Token
  stop : Token

/-- Prepares tokens for parsing. Where no end marker follows, one is assumed on the line of the last
token. -/
def Stream.ofTokens (all : List Token) : Stream :=
  let ts := all.filter fun t => t.kind != .comment
  let implied : Token := ⟨.eof, "", (ts.getLast?.map Token.line).getD (.ofNat 1), 0⟩
  { tokens := ts.takeWhile fun t => t.kind != .eof
    stop := ((ts.dropWhile fun t => t.kind != .eof).head?).getD implied }

/-- The stream of a source text. -/
def Stream.ofSource (source : Text) : Stream := .ofTokens (Token.scan source)

/-- The next token, or the end marker. -/
def peek (stop : Token) (ts : List Token) : Token := ts.head?.getD stop

/-- Whether the next token is one of the symbols. -/
def nextIs (ts : List Token) (texts : List Text) : Bool :=
  ts.head?.any fun t => t.isAnyOf texts

/-- Whether the next two tokens are `End` and one of the words. -/
def atEndOf (ts : List Token) (words : List Text) : Bool :=
  nextIs ts ["end"] && nextIs (ts.drop 1) words

/-- Whether no further token belongs to the statement. -/
def atStatementEnd (ts : List Token) : Bool :=
  ts.head?.all Token.endsStatement

/-- The tokens after leading line ends. -/
def skipNewlines (ts : List Token) : List Token :=
  ts.dropWhile fun t => t.kind == .newline

theorem length_dropWhile_le {α : Type} (p : α → Bool) (xs : List α) :
    (xs.dropWhile p).length ≤ xs.length := by
  induction xs with
  | nil => simp
  | cons x xs ih =>
    rw [List.dropWhile_cons]
    split
    · exact Nat.le_succ_of_le ih
    · exact Nat.le_refl _

theorem length_skipNewlines_le (ts : List Token) : (skipNewlines ts).length ≤ ts.length :=
  length_dropWhile_le _ ts

theorem exists_of_nextIs {ts : List Token} {texts : List Text} (h : nextIs ts texts = true) :
    ∃ t rest, ts = t :: rest ∧ t.isAnyOf texts = true := by
  cases ts with
  | nil => simp [nextIs] at h
  | cons t rest => exact ⟨t, rest, rfl, by simpa [nextIs] using h⟩

theorem length_pos_of_nextIs {ts : List Token} {texts : List Text}
    (h : nextIs ts texts = true) : 0 < ts.length := by
  obtain ⟨t, rest, rfl, _⟩ := exists_of_nextIs h
  simp

-- ════════════════════════════════════════════════════════════════════════════
-- Results
-- ════════════════════════════════════════════════════════════════════════════

/-- A value and the tokens that remain after it, fewer than `bound` of them. -/
structure Parsed (α : Type) (bound : Nat) where
  value : α
  rest : List Token
  fewer : rest.length < bound

/-- What a parsing step answers. -/
abbrev Answer (α : Type) (bound : Nat) := Except ParseFailure (Parsed α bound)

namespace Parsed

variable {α β : Type} {bound bound' : Nat}

/-- The same result under a larger bound. -/
def weaken (h : bound ≤ bound') (p : Parsed α bound) : Parsed α bound' :=
  ⟨p.value, p.rest, Nat.lt_of_lt_of_le p.fewer h⟩

/-- The same remaining tokens with another value. -/
def map (f : α → β) (p : Parsed α bound) : Parsed β bound := ⟨f p.value, p.rest, p.fewer⟩

/-- A value that takes no token. -/
def stay (value : α) (ts : List Token) : Parsed α (ts.length + 1) := ⟨value, ts, Nat.lt_succ_self _⟩

/-- The same result after one more token. -/
def next (p : Parsed α bound) : Parsed α (bound + 1) := p.weaken (Nat.le_succ bound)

/-- A result read from where another one ends. -/
def andThen (p : Parsed α bound) (q : Parsed β (p.rest.length + 1)) : Parsed β bound :=
  q.weaken (Nat.succ_le_of_lt p.fewer)

/-- A result read after dropped tokens. -/
def ofDrop {n : Nat} {ts : List Token} (p : Parsed α ((ts.drop n).length + 1)) :
    Parsed α (ts.length + 1) :=
  p.weaken (Nat.succ_le_succ (by rw [List.length_drop]; exact Nat.sub_le _ _))

end Parsed

/-- What a diagnostic shows for a token: the end of a line by name, all else by its text. -/
def shown (t : Token) : Text := if t.kind = .newline then "end of line" else t.text

/-- Takes a given symbol. -/
def expect (stop : Token) (want : Text) : (ts : List Token) → Answer Token ts.length
  | [] => failAt stop (.expected want (shown stop))
  | t :: rest =>
    if t.isSymbol want then .ok ⟨t, rest, Nat.lt_succ_self _⟩
    else failAt t (.expected want (shown t))

end FormBasic
