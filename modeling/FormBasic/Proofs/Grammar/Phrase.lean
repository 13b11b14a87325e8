import FormBasic.Proofs.Grammar.Accepted
import FormBasic.Proofs.Grammar.Expressions

/-!
# The grammar of expressions

The grammar as a relation between rows of tokens and trees, one rule for each way to build a phrase.
A row of two operands and an operator belongs to the operator's own rank, its left operand to the
same rank and its right operand to the next tighter one. What the grammar derives is parsed as
derived: the parser of a rank reads the tokens of a phrase of this rank and goes on with the tree of
the phrase in hand.

## Main definitions

* `Rank` - the sorts of phrase, from the loosest to the tightest
* `Phrase`, `Arguments` - the grammar
* `Rank.read`, `Rank.more` - the parser of a rank, and what it does after a phrase
* `Rank.Stops` - what may follow a phrase so that no tighter one goes on

## Main statements

* `Phrase.read` - a phrase is read as its tree
* `Phrase.parse` - a phrase that nothing continues is read as a whole expression
-/

namespace FormBasic

-- ════════════════════════════════════════════════════════════════════════════
-- The grammar
-- ════════════════════════════════════════════════════════════════════════════

/-- The sorts of phrase. -/
inductive Rank where
  /-- Phrases that an operator of the level may stand in. -/
  | binary (level : Level)
  | negation
  | signed
  /-- Phrases with member accesses and calls. -/
  | suffixed
  | primary
  deriving DecidableEq

/-- The next tighter sort of phrase. -/
def Rank.tighter? : Rank → Option Rank
  | .binary .disjunction => some (.binary .conjunction)
  | .binary .conjunction => some .negation
  | .negation => some (.binary .comparison)
  | .binary .comparison => some (.binary .concatenation)
  | .binary .concatenation => some (.binary .sum)
  | .binary .sum => some (.binary .product)
  | .binary .product => some (.binary .power)
  | .binary .power => some .signed
  | .signed => some .suffixed
  | .suffixed => some .primary
  | .primary => none

/-- The signs of a level's operators and the operators they stand for. -/
def Level.signs : Level → List (Text × BinaryOp)
  | .disjunction => [("or", .or)]
  | .conjunction => [("and", .and)]
  | .comparison => [("=", .eq), ("<>", .ne), ("<", .lt), (">", .gt), ("<=", .le), (">=", .ge)]
  | .concatenation => [("&", .concat)]
  | .sum => [("+", .add), ("-", .sub)]
  | .product => [("*", .mul), ("/", .div), ("\\", .intDiv), ("mod", .mod)]
  | .power => [("^", .pow)]

mutual

/-- The rows of tokens that a tree of a rank is written with. -/
inductive Phrase : Rank → List Token → Expr → Prop
  | lift {rank inner : Rank} {ts : List Token} {e : Expr} (next : rank.tighter? = some inner)
      (phrase : Phrase inner ts e) : Phrase rank ts e
  | binary {level : Level} {inner : Rank} {us vs : List Token} {t : Token} {l r : Expr}
      {sign : Text} {op : BinaryOp} (next : (Rank.binary level).tighter? = some inner)
      (operator : (sign, op) ∈ level.signs) (token : t.isSymbol sign = true)
      (left : Phrase (.binary level) us l) (right : Phrase inner vs r) :
      Phrase (.binary level) (us ++ t :: vs) (.binary op l r)
  | not {t : Token} {us : List Token} {e : Expr} (token : t.isSymbol "not" = true)
      (operand : Phrase .negation us e) : Phrase .negation (t :: us) (.unary .not e)
  | minus {t : Token} {us : List Token} {e : Expr} (token : t.isSymbol "-" = true)
      (operand : Phrase .signed us e) : Phrase .signed (t :: us) (.unary .neg e)
  | plus {t : Token} {us : List Token} {e : Expr} (token : t.isSymbol "+" = true)
      (operand : Phrase .signed us e) : Phrase .signed (t :: us) e
  | member {us : List Token} {e : Expr} {point name : Token} (object : Phrase .suffixed us e)
      (token : point.isSymbol "." = true) (word : name.kind = .identifier ∨ name.kind = .keyword) :
      Phrase .suffixed (us ++ [point, name]) (.member e name.text)
  | callNone {us : List Token} {e : Expr} {left right : Token} (target : Phrase .suffixed us e)
      (opens : left.isSymbol "(" = true) (closes : right.isSymbol ")" = true) :
      Phrase .suffixed (us ++ [left, right]) (.call e [])
  | call {us vs : List Token} {e : Expr} {es : List Expr} {left right : Token}
      (target : Phrase .suffixed us e) (opens : left.isSymbol "(" = true)
      (arguments : Arguments vs es) (closes : right.isSymbol ")" = true) :
      Phrase .suffixed (us ++ left :: (vs ++ [right])) (.call e es)
  | group {us : List Token} {e : Expr} {left right : Token} (opens : left.isSymbol "(" = true)
      (inside : Phrase (.binary .disjunction) us e) (closes : right.isSymbol ")" = true) :
      Phrase .primary (left :: (us ++ [right])) e
  | integer {t : Token} {n : Int} (kind : t.kind = .number)
      (pointless : t.text.toList.contains (.char '.') = false)
      (value : Number.readInteger t.text = .ok n) : Phrase .primary [t] (.number (.int n))
  | decimal {t : Token} {x : Float} (kind : t.kind = .number)
      (pointed : t.text.toList.contains (.char '.') = true)
      (value : Number.readDecimal t.text = .ok x) : Phrase .primary [t] (.number (.float x))
  | string {t : Token} (kind : t.kind = .string) : Phrase .primary [t] (.string t.text)
  | name {t : Token} (kind : t.kind = .identifier) : Phrase .primary [t] (.ident t.text)
  | truth {t : Token} (token : t.isSymbol "true" = true) : Phrase .primary [t] (.boolean true)
  | falsehood {t : Token} (token : t.isSymbol "false" = true) : Phrase .primary [t] (.boolean false)
  | nothing {t : Token} (token : t.isSymbol "nothing" = true) : Phrase .primary [t] .nothing
  | me {t : Token} (token : t.isSymbol "me" = true) : Phrase .primary [t] (.ident "Me")
  | type {t : Token} {word : Text}
      (known : word ∈ (["integer", "string", "boolean", "double", "single", "long", "object"] :
        List Text))
      (token : t.isSymbol word = true) : Phrase .primary [t] (.ident word)

/-- The rows of tokens that the arguments of a call are written with. -/
inductive Arguments : List Token → List Expr → Prop
  | last {us : List Token} {e : Expr} (phrase : Phrase (.binary .disjunction) us e) :
      Arguments us [e]
  | cons {us vs : List Token} {t : Token} {e : Expr} {es : List Expr}
      (phrase : Phrase (.binary .disjunction) us e) (token : t.isSymbol "," = true)
      (others : Arguments vs es) : Arguments (us ++ t :: vs) (e :: es)

end

-- ════════════════════════════════════════════════════════════════════════════
-- What may follow a phrase
-- ════════════════════════════════════════════════════════════════════════════

/-- The distance of a rank from the tightest one. -/
def Rank.height : Rank → Nat
  | .binary level => level.height
  | .negation => 8
  | .signed => 2
  | .suffixed => 1
  | .primary => 0

/-- The symbols that continue a phrase of a rank. -/
def Rank.symbols : Rank → List Text
  | .binary level => level.operators
  | .suffixed => [".", "("]
  | .negation | .signed | .primary => []

/-- What may follow a phrase of a rank: nothing that a phrase of a tighter rank goes on with. -/
def Rank.Stops (rank : Rank) (rest : List Token) : Prop :=
  ∀ inner : Rank, inner.height < rank.height → nextIs rest inner.symbols = false

theorem Rank.height_lt_of_tighter {rank inner : Rank} (h : rank.tighter? = some inner) :
    inner.height < rank.height := by
  revert h
  cases rank with
  | binary level => cases level <;> (intro h; cases h; decide)
  | negation | signed | suffixed => intro h; cases h; decide
  | primary => intro h; cases h

theorem Rank.Stops.tighter {rank inner : Rank} {rest : List Token} (h : rank.Stops rest)
    (hn : rank.tighter? = some inner) : inner.Stops rest :=
  fun r hr => h r (Nat.lt_trans hr (Rank.height_lt_of_tighter hn))

theorem stops_suffixed (rest : List Token) : Rank.suffixed.Stops rest := by
  intro inner h
  cases inner with
  | primary => cases rest <;> rfl
  | binary level => cases level <;> exact absurd h (by decide)
  | negation | signed | suffixed => exact absurd h (by decide)

theorem mem_texts_of_isAnyOf {t : Token} {texts : List Text} {s : Text}
    (ht : t.isSymbol s = true) (h : t.isAnyOf texts = true) : s ∈ texts := by
  obtain ⟨s', hs', ht'⟩ := Token.isAnyOf_eq_true_iff.1 h
  rwa [← Token.text_eq_of_isSymbol ht, Token.text_eq_of_isSymbol ht']

theorem Rank.symbols_subset (rank : Rank) : rank.symbols ⊆ continuations := by
  cases rank with
  | binary level => cases level <;> decide
  | negation | signed | suffixed | primary => decide

theorem isAnyOf_of_isSymbol {t : Token} {s : Text} {texts : List Text} (ht : t.isSymbol s = true)
    (hs : s ∉ texts) : t.isAnyOf texts = false := by
  rw [Bool.eq_false_iff]
  exact fun h => hs (mem_texts_of_isAnyOf ht h)

/-- A symbol that continues nothing may follow any phrase. -/
theorem nextIs_symbols {t : Token} {s : Text} (ht : t.isSymbol s = true) (hs : s ∉ continuations)
    (rank : Rank) (rest : List Token) : nextIs (t :: rest) rank.symbols = false :=
  isAnyOf_of_isSymbol ht fun h => hs (rank.symbols_subset h)

theorem nextIs_of_newlines {rest : List Token} (h : ∀ t ∈ rest, t.kind = .newline)
    (texts : List Text) : nextIs rest texts = false := by
  cases rest with
  | nil => rfl
  | cons t rest =>
    rw [nextIs_cons, Token.isAnyOf, List.any_eq_false]
    simp [Token.isSymbol, h t List.mem_cons_self]

/-- The operators of a level stand in no tighter phrase. -/
theorem stops_of_sign {level : Level} {sign : Text} {op : BinaryOp} {t : Token}
    (hop : (sign, op) ∈ level.signs) (ht : t.isSymbol sign = true) (rest : List Token) :
    (Rank.binary level).Stops (t :: rest) := by
  have hall : ∀ (level : Level) (inner : Rank), inner.height < (Rank.binary level).height →
      ∀ p ∈ level.signs, p.1 ∉ inner.symbols := by
    intro level inner
    cases inner with
    | binary other => cases level <;> cases other <;> decide
    | negation | signed | suffixed | primary => cases level <;> decide
  intro inner hinner
  rw [nextIs_cons, Bool.eq_false_iff]
  intro h
  exact hall level inner hinner _ hop (mem_texts_of_isAnyOf ht h)

-- ════════════════════════════════════════════════════════════════════════════
-- What a phrase starts with
-- ════════════════════════════════════════════════════════════════════════════

/-- The symbols that no phrase of a rank starts with. -/
def Rank.barred : Rank → List Text
  | .binary .disjunction | .binary .conjunction | .negation => [")"]
  | .binary _ | .signed => [")", "not"]
  | .suffixed | .primary => [")", "not", "+", "-"]

theorem Rank.barred_subset {rank inner : Rank} (h : rank.tighter? = some inner) :
    rank.barred ⊆ inner.barred := by
  revert h
  cases rank with
  | binary level => cases level <;> (intro h; cases h; decide)
  | negation | signed | suffixed => intro h; cases h; decide
  | primary => intro h; cases h

/-- Whether a phrase of a rank may start with a token. -/
def Rank.Admits (rank : Rank) (t : Token) : Prop :=
  t.isAnyOf rank.barred = false ∧ t.kind ≠ .newline

theorem admits_of_symbol {rank : Rank} {t : Token} {s : Text} (ht : t.isSymbol s = true)
    (hs : s ∉ rank.barred) : rank.Admits t := by
  refine ⟨isAnyOf_of_isSymbol ht hs, fun hk => ?_⟩
  simp [Token.isSymbol, hk] at ht

theorem admits_of_literal {rank : Rank} {t : Token}
    (h : t.kind = .number ∨ t.kind = .string ∨ t.kind = .identifier) : rank.Admits t := by
  rw [Rank.Admits, Token.isAnyOf, List.any_eq_false]
  rcases h with h | h | h <;> simp [Token.isSymbol, h]

theorem Rank.Admits.lift {rank inner : Rank} {t : Token} (hn : rank.tighter? = some inner)
    (h : inner.Admits t) : rank.Admits t := by
  have hnext : nextIs [t] inner.barred = false := h.1
  exact ⟨nextIs_subset (Rank.barred_subset hn) hnext, h.2⟩

/-- A phrase starts with a token that its rank admits. -/
theorem Phrase.head {rank : Rank} {ts : List Token} {e : Expr} (h : Phrase rank ts e) :
    ∃ t us, ts = t :: us ∧ rank.Admits t := by
  match h with
  | .lift next phrase =>
    obtain ⟨t, us, rfl, ht⟩ := phrase.head
    exact ⟨t, us, rfl, ht.lift next⟩
  | .binary _ _ _ phrase _ | .member phrase _ _ | .callNone phrase _ _ | .call phrase _ _ _ =>
    obtain ⟨t, us, rfl, ht⟩ := phrase.head
    exact ⟨t, _, rfl, ht⟩
  | .not token _ | .minus token _ | .plus token _ | .group token _ _ | .truth token
  | .falsehood token | .nothing token | .me token =>
    exact ⟨_, _, rfl, admits_of_symbol token (by decide)⟩
  | .integer kind _ _ | .decimal kind _ _ => exact ⟨_, _, rfl, admits_of_literal (.inl kind)⟩
  | .string kind => exact ⟨_, _, rfl, admits_of_literal (.inr (.inl kind))⟩
  | .name kind => exact ⟨_, _, rfl, admits_of_literal (.inr (.inr kind))⟩
  | .type known token =>
    have hall : ∀ word ∈ typeKeywords, word ∉ Rank.primary.barred := by decide
    exact ⟨_, _, rfl, admits_of_symbol token (hall _ known)⟩

theorem Phrase.nextIs_append {rank : Rank} {ts : List Token} {e : Expr} (h : Phrase rank ts e)
    (rest : List Token) : nextIs (ts ++ rest) rank.barred = false := by
  obtain ⟨t, us, rfl, ht⟩ := h.head
  exact ht.1

theorem Arguments.nextIs_append {ts : List Token} {es : List Expr} (h : Arguments ts es)
    (rest : List Token) : nextIs (ts ++ rest) [")"] = false := by
  cases h with
  | last phrase => exact phrase.nextIs_append rest
  | cons phrase token others =>
    rw [List.append_assoc]
    exact phrase.nextIs_append _

-- ════════════════════════════════════════════════════════════════════════════
-- Reading phrases
-- ════════════════════════════════════════════════════════════════════════════

section Reading

variable (stop : Token)

/-- The parser of a rank. -/
def Rank.read (rank : Rank) (ts : List Token) : Except ParseFailure (Expr × List Token) :=
  match rank with
  | .binary level => (parseBinary stop level ts).plain
  | .negation => (parseNot stop ts).plain
  | .signed => (parseSigned stop ts).plain
  | .suffixed => (parsePostfix stop ts).plain
  | .primary => (parsePrimary stop ts).plain

/-- What the parser of a rank does with a phrase in hand. -/
def Rank.more (rank : Rank) (e : Expr) (rest : List Token) :
    Except ParseFailure (Expr × List Token) :=
  match rank with
  | .binary level => (parseOperators stop level e rest).plain
  | .suffixed => (parseSuffixes stop e rest).plain
  | .negation | .signed | .primary => .ok (e, rest)

/-- The arguments of a call up to the closing parenthesis. -/
def readArguments (ts : List Token) : Except ParseFailure (List Expr × List Token) := do
  let (first, rest) ← (parseBinary stop .disjunction ts).plain
  let (others, rest) ← (parseMoreArguments stop rest).plain
  return (first :: others, rest)

variable {stop}

/-- A phrase in hand is all that is read when nothing continues it. -/
theorem Rank.more_eq {rank : Rank} {e : Expr} {rest : List Token}
    (h : nextIs rest rank.symbols = false) : rank.more stop e rest = .ok (e, rest) := by
  cases rank with
  | binary level => exact plain_parseOperators_stop h
  | suffixed => exact plain_parseSuffixes_stop h
  | negation | signed | primary => rfl

/-- A level reads its operands as phrases of the next tighter rank. -/
theorem plain_parseOperand {level : Level} {inner : Rank}
    (h : (Rank.binary level).tighter? = some inner) (ts : List Token) :
    (parseOperand stop level ts).plain = inner.read stop ts := by
  cases level <;> (cases h; rw [parseOperand]; rfl)

theorem plain_parseSigned_of_suffixed {ts : List Token} (hminus : nextIs ts ["-"] = false)
    (hplus : nextIs ts ["+"] = false) :
    (parseSigned stop ts).plain = (parsePostfix stop ts).plain := by
  cases ts with
  | nil => exact plain_parseSigned_nil stop
  | cons t ts =>
    rw [plain_parseSigned_cons, isSymbol_of_nextIs hminus (by simp),
      isSymbol_of_nextIs hplus (by simp)]
    rfl

/-- A rank reads a phrase of the next tighter rank and goes on with it, unless its own sign stands
in front. -/
theorem Rank.read_tighter {rank inner : Rank} (hn : rank.tighter? = some inner)
    {ts rest : List Token} (ht : nextIs ts inner.barred = false) {e : Expr}
    (h : inner.read stop ts = .ok (e, rest)) : rank.read stop ts = rank.more stop e rest := by
  cases rank with
  | binary level =>
    rw [← plain_parseOperand hn] at h
    simp only [Rank.read, plain_parseBinary, h]
    rfl
  | negation =>
    cases hn
    exact (plain_parseNot_of_comparison (nextIs_subset (by decide) ht)).trans h
  | signed =>
    cases hn
    exact (plain_parseSigned_of_suffixed (nextIs_subset (by decide) ht)
      (nextIs_subset (by decide) ht)).trans h
  | suffixed =>
    cases hn
    simp only [Rank.read] at h
    simp only [Rank.read, plain_parsePostfix, h]
    rfl
  | primary => cases hn

theorem text_ofText_of_sign {level : Level} {sign : Text} {op : BinaryOp}
    (h : (sign, op) ∈ level.signs) : sign ∈ level.operators ∧ BinaryOp.ofText sign = op := by
  have hall : ∀ level : Level, ∀ p ∈ level.signs,
      p.1 ∈ level.operators ∧ BinaryOp.ofText p.1 = p.2 := by
    intro level
    cases level <;> decide
  exact hall level _ h

theorem Rank.more_sign {level : Level} {inner : Rank}
    (hn : (Rank.binary level).tighter? = some inner) {sign : Text} {op : BinaryOp}
    (hop : (sign, op) ∈ level.signs) {t : Token} (ht : t.isSymbol sign = true) {ts rest : List Token}
    {l r : Expr} (h : inner.read stop ts = .ok (r, rest)) :
    (Rank.binary level).more stop l (t :: ts) =
      (Rank.binary level).more stop (.binary op l r) rest := by
  obtain ⟨hmem, hof⟩ := text_ofText_of_sign hop
  have hany : t.isAnyOf level.operators = true := Token.isAnyOf_eq_true_iff.2 ⟨sign, hmem, ht⟩
  simp only [Rank.more, plain_parseOperators_cons, hany, if_true, plain_parseOperand hn, h,
    Token.text_eq_of_isSymbol ht, hof]
  rfl

theorem plain_parseMoreArguments_comma {t : Token} (h : t.isSymbol "," = true) (ts : List Token) :
    (parseMoreArguments stop (t :: ts)).plain = readArguments stop ts := by
  rw [plain_parseMoreArguments_cons, if_pos h]
  rfl

theorem plain_parseArguments_none {right : Token} (hr : right.isSymbol ")" = true)
    (rest : List Token) : (parseArguments stop (right :: rest)).plain = .ok ([], rest) := by
  have hnext : nextIs (right :: rest) [")"] = true :=
    Token.isAnyOf_eq_true_iff.2 ⟨_, List.mem_singleton.2 rfl, hr⟩
  rw [plain_parseArguments, hnext]
  rfl

theorem plain_parseArguments_of_read {ts rest : List Token} {es : List Expr} {left : Token}
    (ht : nextIs ts [")"] = false) (hl : left.isSymbol ")" = true)
    (h : readArguments stop ts = .ok (es, left :: rest)) :
    (parseArguments stop ts).plain = .ok (es, rest) := by
  rw [readArguments] at h
  obtain ⟨⟨first, r⟩, hfirst, h⟩ := bind_eq_ok h
  obtain ⟨⟨others, r'⟩, hothers, h⟩ := bind_eq_ok h
  cases h
  rw [plain_parseArguments, if_neg (by simp [ht]), hfirst]
  simp only [bind, Except.bind, hothers, plain_expect_cons, hl, if_true]
  rfl

theorem leafOf?_integer {t : Token} {n : Int} (kind : t.kind = .number)
    (pointless : t.text.toList.contains (.char '.') = false)
    (value : Number.readInteger t.text = .ok n) : leafOf? t = some (.ok (.number (.int n))) := by
  simp only [leafOf?, kind, numberOf, pointless, value]
  rfl

theorem leafOf?_decimal {t : Token} {x : Float} (kind : t.kind = .number)
    (pointed : t.text.toList.contains (.char '.') = true)
    (value : Number.readDecimal t.text = .ok x) : leafOf? t = some (.ok (.number (.float x))) := by
  simp only [leafOf?, kind, numberOf, pointed, value]
  rfl

theorem Token.isName_iff {t : Token} :
    t.isName = true ↔ t.kind = .identifier ∨ t.kind = .keyword := by
  simp [Token.isName]

theorem isSymbol_iff {t : Token} {s : Text} : t.isSymbol s = true ↔
    (t.kind = .keyword ∨ t.kind = .operator ∨ t.kind = .punctuation) ∧ t.text = s := by
  simp [Token.isSymbol, or_assoc]

/-- The leaf that a symbol stands for is the same for all tokens that say it. -/
theorem leafOf?_symbol {t : Token} {s : Text} (h : t.isSymbol s = true) :
    leafOf? t = leafOf? (Token.Content.keyword s).token := by
  obtain ⟨hk, rfl⟩ := isSymbol_iff.1 h
  have hsym : t.isSymbol = (Token.Content.keyword t.text).token.isSymbol := by
    funext u
    rcases hk with hk | hk | hk <;>
      simp [Token.isSymbol, Token.Content.token, Token.Content.keyword, hk]
  rcases hk with hk | hk | hk <;> simp only [leafOf?, hk, Token.isAnyOf, hsym] <;> rfl

theorem leafOf?_type {t : Token} {word : Text} (known : word ∈ typeKeywords)
    (token : t.isSymbol word = true) : leafOf? t = some (.ok (.ident word)) := by
  rw [leafOf?_symbol token]
  simp only [typeKeywords, List.mem_cons, List.not_mem_nil, or_false] at known
  rcases known with rfl | rfl | rfl | rfl | rfl | rfl | rfl <;> rfl

theorem isSymbol_of_isSymbol {t : Token} {s u : Text} (h : t.isSymbol s = true) (hne : s ≠ u) :
    t.isSymbol u = false := by
  rw [Bool.eq_false_iff]
  exact fun hu => hne ((Token.text_eq_of_isSymbol h).symm.trans (Token.text_eq_of_isSymbol hu))

theorem more_suffixed_call {left : Token} (opens : left.isSymbol "(" = true) {ts rest : List Token}
    {e : Expr} {es : List Expr} (h : (parseArguments stop ts).plain = .ok (es, rest)) :
    Rank.suffixed.more stop e (left :: ts) = Rank.suffixed.more stop (.call e es) rest := by
  have hpoint : left.isSymbol "." = false := isSymbol_of_isSymbol opens (by decide)
  simp only [Rank.more, plain_parseSuffixes_other stop e hpoint, opens, if_true, h]
  rfl

theorem read_group {left right : Token} (opens : left.isSymbol "(" = true)
    (closes : right.isSymbol ")" = true) {ts rest : List Token} {e : Expr}
    (h : (Rank.binary .disjunction).read stop ts = .ok (e, right :: rest)) :
    Rank.primary.read stop (left :: ts) = .ok (e, rest) := by
  have hnew : left.isSymbol "new" = false := isSymbol_of_isSymbol opens (by decide)
  simp only [Rank.read] at h
  simp only [Rank.read, plain_parsePrimary_parenthesis stop (leafOf?_symbol opens) hnew opens, h]
  simp only [bind, Except.bind, plain_expect_cons, closes, if_true]
  rfl

mutual

/-- A phrase is read as its tree. -/
theorem Phrase.read {rank : Rank} {ts : List Token} {e : Expr} (h : Phrase rank ts e)
    (rest : List Token) (hrest : rank.Stops rest) :
    rank.read stop (ts ++ rest) = rank.more stop e rest := by
  match h with
  | .lift next phrase =>
    refine Rank.read_tighter next (phrase.nextIs_append rest) ?_
    rw [phrase.read rest (hrest.tighter next)]
    exact Rank.more_eq (hrest _ (Rank.height_lt_of_tighter next))
  | .binary next operator token left right =>
    have hright := right.read rest (hrest.tighter next)
    rw [Rank.more_eq (hrest _ (Rank.height_lt_of_tighter next))] at hright
    rw [List.append_assoc, List.cons_append, left.read _ (stops_of_sign operator token _)]
    exact Rank.more_sign next operator token hright
  | .not token operand =>
    have ho := operand.read rest hrest
    simp only [Rank.read, Rank.more] at ho
    simp only [Rank.read, List.cons_append, plain_parseNot_cons, token, if_true, ho]
    rfl
  | .minus token operand =>
    have ho := operand.read rest hrest
    simp only [Rank.read, Rank.more] at ho
    simp only [Rank.read, List.cons_append, plain_parseSigned_cons, token, if_true, ho]
    rfl
  | .plus token operand =>
    have hminus := isSymbol_of_isSymbol token (show "+" ≠ ("-" : Text) by decide)
    simp only [Rank.read, List.cons_append, plain_parseSigned_cons, hminus, token, if_true]
    exact operand.read rest hrest
  | .member object token word =>
    rw [List.append_assoc, object.read _ (stops_suffixed _)]
    exact (plain_parseSuffixes_point stop _ token _ rest).trans
      (if_pos (Token.isName_iff.2 word))
  | .callNone target opens closes =>
    rw [List.append_assoc, target.read _ (stops_suffixed _)]
    exact more_suffixed_call opens (plain_parseArguments_none closes rest)
  | .call target opens arguments closes =>
    have hargs := plain_parseArguments_of_read (arguments.nextIs_append _) closes
      (arguments.read closes rest)
    rw [List.append_assoc, target.read _ (stops_suffixed _), List.cons_append, List.append_assoc]
    exact more_suffixed_call opens hargs
  | .group opens inside closes =>
    have hnext := fun rank => nextIs_symbols closes (by decide) rank rest
    have hin := (inside.read _ fun inner _ => hnext inner).trans (Rank.more_eq (hnext _))
    rw [List.cons_append, List.append_assoc]
    exact read_group opens closes hin
  | .integer kind pointless value =>
    exact plain_parsePrimary_leaf stop (leafOf?_integer kind pointless value) rest
  | .decimal kind pointed value =>
    exact plain_parsePrimary_leaf stop (leafOf?_decimal kind pointed value) rest
  | .string kind => exact plain_parsePrimary_leaf stop (by simp only [leafOf?, kind]) rest
  | .name kind => exact plain_parsePrimary_leaf stop (by simp only [leafOf?, kind]) rest
  | .truth token => exact plain_parsePrimary_leaf stop (leafOf?_symbol token) rest
  | .falsehood token => exact plain_parsePrimary_leaf stop (leafOf?_symbol token) rest
  | .nothing token => exact plain_parsePrimary_leaf stop (leafOf?_symbol token) rest
  | .me token => exact plain_parsePrimary_leaf stop (leafOf?_symbol token) rest
  | .type known token => exact plain_parsePrimary_leaf stop (leafOf?_type known token) rest

/-- The arguments of a call are read as their trees. -/
theorem Arguments.read {ts : List Token} {es : List Expr} (h : Arguments ts es) {right : Token}
    (hr : right.isSymbol ")" = true) (rest : List Token) :
    readArguments stop (ts ++ right :: rest) = .ok (es, right :: rest) := by
  match h with
  | .last phrase =>
    have hnext := fun rank => nextIs_symbols hr (by decide) rank rest
    have hfirst := (phrase.read _ fun inner _ => hnext inner).trans (Rank.more_eq (hnext _))
    have hcomma : right.isSymbol "," = false := isSymbol_of_isSymbol hr (by decide)
    simp only [Rank.read] at hfirst
    simp only [readArguments, hfirst, bind, Except.bind, plain_parseMoreArguments_cons, hcomma]
    rfl
  | .cons phrase token others =>
    have hnext := fun rest rank => nextIs_symbols token (by decide) rank rest
    have hfirst := fun rest =>
      (phrase.read _ fun inner _ => hnext rest inner).trans (Rank.more_eq (hnext rest _))
    have hothers := others.read hr rest
    simp only [Rank.read] at hfirst
    rw [List.append_assoc, List.cons_append, readArguments, hfirst]
    simp only [bind, Except.bind, plain_parseMoreArguments_comma token, hothers]
    rfl

end

/-- A phrase that nothing continues is read as a whole expression. -/
theorem Phrase.parse {ts : List Token} {e : Expr} (h : Phrase (.binary .disjunction) ts e)
    {rest : List Token} (hrest : ∀ t ∈ rest, t.kind = .newline) :
    (parseExpr stop (ts ++ rest)).plain = .ok (e, rest) :=
  (h.read rest fun _ _ => nextIs_of_newlines hrest _).trans
    (plain_parseOperators_stop (nextIs_of_newlines hrest _))

end Reading

end FormBasic
