import FormBasic.Line

/-!
# Tokens

A token is a piece of source text with its kind and its position, both counted from one.

## Main definitions

* `Token.Kind` - the nine kinds of token, and room for kinds that other tools make
* `Token` - kind, text, line and column
* `Token.isSymbol` - keywords, operators and punctuation match by their text
-/

namespace FormBasic

/-- The kinds of token. -/
inductive Token.Kind where
  | keyword
  | identifier
  | number
  | string
  | operator
  | punctuation
  | newline
  | comment
  | eof
  /-- A kind that the scanner does not make. -/
  | other (name : Text)
  deriving Repr, DecidableEq

/-- The name of a kind, as listings show it. -/
def Token.Kind.name : Token.Kind → Text
  | .keyword => "KEYWORD"
  | .identifier => "IDENTIFIER"
  | .number => "NUMBER"
  | .string => "STRING"
  | .operator => "OPERATOR"
  | .punctuation => "PUNCTUATION"
  | .newline => "NEWLINE"
  | .comment => "COMMENT"
  | .eof => "EOF"
  | .other name => name

/-- The kind with a given name. -/
def Token.Kind.ofName (name : Text) : Token.Kind :=
  let known : List Token.Kind :=
    [.keyword, .identifier, .number, .string, .operator, .punctuation, .newline, .comment, .eof]
  match known.find? fun k => k.name == name with
  | some k => k
  | none => .other name

/-- A piece of source text. -/
structure Token where
  kind : Token.Kind
  /-- What the token says: a keyword in lower case, a string without its quotes. -/
  text : Text
  line : Line
  col : Nat
  deriving Repr, DecidableEq

namespace Token

/-- Keywords, operators and punctuation match by their text; literals never do. -/
def isSymbol (t : Token) (text : Text) : Bool :=
  (t.kind == .keyword || t.kind == .operator || t.kind == .punctuation) && t.text == text

/-- Whether the token is one of several symbols. -/
def isAnyOf (t : Token) (texts : List Text) : Bool :=
  texts.any t.isSymbol

/-- Whether the token ends a statement. -/
def endsStatement (t : Token) : Bool :=
  t.kind == .newline || t.kind == .eof

/-- Whether the token can name a member or a type. -/
def isName (t : Token) : Bool :=
  t.kind == .identifier || t.kind == .keyword

theorem isAnyOf_eq_true_iff {t : Token} {texts : List Text} :
    t.isAnyOf texts = true ↔ ∃ s ∈ texts, t.isSymbol s = true := by
  simp [isAnyOf]

theorem text_eq_of_isSymbol {t : Token} {s : Text} (h : t.isSymbol s = true) : t.text = s := by
  simp only [isSymbol, Bool.and_eq_true, beq_iff_eq] at h
  exact h.2

end Token

end FormBasic
