import FormBasic.Proofs.Grammar.Accepted
import FormBasic.Proofs.Grammar.Phrase
import Mathlib.Data.List.Forall2

/-!
# Expressions read in tandem

Two texts that differ where it does not matter are read in the same way: a text by itself and in
front of more text, or with blanks around it and without. What they have to do with each other
is said once here, of their rows of tokens, together with how the trees of the two correspond. From
that it follows, once for all such pairs, that the parsers of expressions go through the second row
as they go through the first. Only successful runs are followed; two rows of which each follows the
other are read alike.

## Main definitions

* `Tracks` - steps of which the second succeeds when the first does
* `Likeness` - trees that correspond to each other
* `Tandem` - rows of tokens that belong together

## Main statements

* `Rank.exists_read_error` - no phrase starts at the end of a line
* `Tandem.tracks_parseBinary` to `Tandem.tracks_parsePrimary` - the parsers of expressions
-/

namespace FormBasic

open Token (Content)

-- ════════════════════════════════════════════════════════════════════════════
-- Tokens that say the same
-- ════════════════════════════════════════════════════════════════════════════

section Congruence

variable {t u : Token} (same : u.content = t.content)
include same

theorem Token.kind_congr : u.kind = t.kind := Token.kind_of_content same

theorem Token.text_congr : u.text = t.text := Token.text_of_content same

theorem Token.isSymbol_congr (text : Text) : u.isSymbol text = t.isSymbol text :=
  isSymbol_of_content same text

theorem Token.isAnyOf_congr (texts : List Text) : u.isAnyOf texts = t.isAnyOf texts :=
  isAnyOf_of_content same texts

theorem Token.isName_congr : u.isName = t.isName := isName_of_content same

theorem Token.endsStatement_congr : u.endsStatement = t.endsStatement :=
  endsStatement_of_content same

theorem leafOf?_congr : leafOf? u = leafOf? t := leafOf?_of_content same

end Congruence

-- ════════════════════════════════════════════════════════════════════════════
-- Line ends
-- ════════════════════════════════════════════════════════════════════════════

/-- Whether the list has no token before the end of a line. -/
def AtLineEnd (ts : List Token) : Prop := ∀ t ∈ ts.head?, t.kind = .newline

/-- Whether no token with the property is a line end. -/
def OffLineEnds (p : Token → Bool) : Prop := ∀ t : Token, t.kind = .newline → p t = false

theorem offLineEnds_isSymbol (text : Text) : OffLineEnds fun t => t.isSymbol text := by
  intro t ht
  simp [Token.isSymbol, ht]

theorem offLineEnds_isAnyOf (texts : List Text) : OffLineEnds fun t => t.isAnyOf texts := by
  intro t ht
  refine List.any_eq_false.2 fun s _ => ?_
  rw [show t.isSymbol s = false from offLineEnds_isSymbol s t ht]
  exact Bool.false_ne_true

theorem offLineEnds_isName : OffLineEnds Token.isName := by
  intro t ht
  simp [Token.isName, ht]

theorem offLineEnds_identifier : OffLineEnds fun t => t.kind == .identifier := by
  intro t ht
  simp [ht]

namespace AtLineEnd

variable {ts : List Token}

theorem any_head (h : AtLineEnd ts) {p : Token → Bool} (hp : OffLineEnds p) :
    ts.head?.any p = false := by
  cases ts with
  | nil => rfl
  | cons t ts => exact hp t (h t rfl)

theorem nextIs (h : AtLineEnd ts) (texts : List Text) : nextIs ts texts = false :=
  h.any_head (offLineEnds_isAnyOf texts)

theorem atStatementEnd (h : AtLineEnd ts) : atStatementEnd ts = true := by
  cases ts with
  | nil => rfl
  | cons t ts => simp [FormBasic.atStatementEnd, Token.endsStatement, h t rfl]

end AtLineEnd

section LineEnds

variable {stop : Token} {ts : List Token}

theorem exists_plain_expect_error (stop : Token) (want : Text) (h : AtLineEnd ts) :
    ∃ e, (expect stop want ts).plain = .error e := by
  cases ts with
  | nil => exact ⟨_, rfl⟩
  | cons t ts =>
    rw [plain_expect_cons, show t.isSymbol want = false from offLineEnds_isSymbol want t (h t rfl)]
    exact ⟨_, rfl⟩

theorem exists_plain_parseTypeName_error (stop : Token) (h : AtLineEnd ts) :
    ∃ e, (parseTypeName stop ts).plain = .error e := by
  cases ts with
  | nil => exact ⟨_, rfl⟩
  | cons t ts =>
    have hname : t.isName = false := offLineEnds_isName t (h t rfl)
    rw [parseTypeName, if_neg (by simp [hname])]
    exact ⟨_, rfl⟩

theorem exists_plain_parsePrimary_error (stop : Token) (h : AtLineEnd ts) :
    ∃ e, (parsePrimary stop ts).plain = .error e := by
  cases ts with
  | nil => exact ⟨_, plain_parsePrimary_nil stop⟩
  | cons t ts =>
    have hsym : ∀ text, t.isSymbol text = false := fun text => offLineEnds_isSymbol text t (h t rfl)
    have hleaf : leafOf? t = none := by
      simp [leafOf?, h t rfl, Token.isAnyOf, hsym, typeKeywords]
    rw [plain_parsePrimary_other stop hleaf (hsym _) (hsym _), if_pos (h t rfl)]
    exact ⟨_, rfl⟩

theorem exists_plain_parseSuffixes_error (stop : Token) (e : Expr) {t : Token}
    (ht : t.isSymbol "." = true) (h : AtLineEnd ts) :
    ∃ e', (parseSuffixes stop e (t :: ts)).plain = .error e' := by
  cases ts with
  | nil => exact ⟨_, plain_parseSuffixes_last stop e ht⟩
  | cons n ts =>
    have hname : n.isName = false := offLineEnds_isName n (h n rfl)
    rw [plain_parseSuffixes_point stop e ht, if_neg (by simp [hname])]
    exact ⟨_, rfl⟩

theorem plain_parseMoreArguments_stop (h : nextIs ts [","] = false) :
    (parseMoreArguments stop ts).plain = .ok ([], ts) := by
  cases ts with
  | nil => exact plain_parseMoreArguments_nil stop
  | cons t ts =>
    rw [plain_parseMoreArguments_cons, isSymbol_of_nextIs h (List.mem_singleton.2 rfl)]
    rfl

/-- No phrase of any rank starts at the end of a line. -/
theorem Rank.exists_read_error (stop : Token) (h : AtLineEnd ts) (rank : Rank) :
    ∃ e, rank.read stop ts = .error e := by
  match rank with
  | .primary => exact exists_plain_parsePrimary_error stop h
  | .suffixed =>
    obtain ⟨e, he⟩ := exists_read_error stop h .primary
    simp only [Rank.read] at he
    exact ⟨e, by simp only [Rank.read, plain_parsePostfix, he]; rfl⟩
  | .signed =>
    obtain ⟨e, he⟩ := exists_read_error stop h .suffixed
    exact ⟨e, (plain_parseSigned_of_suffixed (h.nextIs _) (h.nextIs _)).trans he⟩
  | .negation =>
    obtain ⟨e, he⟩ := exists_read_error stop h (.binary .comparison)
    exact ⟨e, (plain_parseNot_of_comparison (h.nextIs _)).trans he⟩
  | .binary level =>
    obtain ⟨inner, hn⟩ : ∃ inner, (Rank.binary level).tighter? = some inner := by
      cases level <;> exact ⟨_, rfl⟩
    have := Rank.height_lt_of_tighter hn
    obtain ⟨e, he⟩ := exists_read_error stop h inner
    refine ⟨e, ?_⟩
    rw [Rank.read, plain_parseBinary, plain_parseOperand hn, he]
    rfl
termination_by rank.height
decreasing_by
  · decide
  · decide
  · decide
  · exact this

end LineEnds

-- ════════════════════════════════════════════════════════════════════════════
-- Steps that follow others
-- ════════════════════════════════════════════════════════════════════════════

/-- Whether the second step succeeds when the first one does; their values and the remaining tokens
belong together. -/
def Tracks {α β : Type} (P : List Token → List Token → Prop) (R : α → β → Prop)
    (x : Except ParseFailure (α × List Token)) (y : Except ParseFailure (β × List Token)) : Prop :=
  ∀ a ts, x = .ok (a, ts) → ∃ b us, y = .ok (b, us) ∧ R a b ∧ P ts us

namespace Tracks

variable {α β α' β' : Type} {P : List Token → List Token → Prop} {R : α → β → Prop}
  {R' : α' → β' → Prop}

theorem ok {a : α} {b : β} {ts us : List Token} (value : R a b) (rest : P ts us) :
    Tracks P R (.ok (a, ts)) (.ok (b, us)) := by
  rintro _ _ ⟨⟩
  exact ⟨b, us, rfl, value, rest⟩

theorem error (e : ParseFailure) (y : Except ParseFailure (β × List Token)) :
    Tracks P R (.error e) y :=
  fun _ _ h => nomatch h

/-- Anything follows a step that fails. -/
theorem of_error {x : Except ParseFailure (α × List Token)}
    {y : Except ParseFailure (β × List Token)} (h : ∃ e, x = .error e) : Tracks P R x y := by
  obtain ⟨e, rfl⟩ := h
  exact .error e y

/-- A step that takes a token takes none of an empty row. -/
theorem nil {x : Answer α 0} {y : Except ParseFailure (β × List Token)} : Tracks P R x.plain y :=
  fun _ _ h => absurd (Answer.fewer_of_plain h) (Nat.not_lt_zero _)

/-- Steps one after the other follow steps one after the other. -/
theorem bind {x : Except ParseFailure (α × List Token)} {y : Except ParseFailure (β × List Token)}
    {f : α × List Token → Except ParseFailure (α' × List Token)}
    {g : β × List Token → Except ParseFailure (β' × List Token)} (h : Tracks P R x y)
    (hf : ∀ a b ts us, x = .ok (a, ts) → R a b → P ts us →
      Tracks P R' (f (a, ts)) (g (b, us))) :
    Tracks P R' (x >>= f) (y >>= g) := by
  intro a' ts' hx
  obtain ⟨⟨a, ts⟩, ha, hfa⟩ := bind_eq_ok hx
  obtain ⟨b, us, hb, value, rest⟩ := h a ts ha
  obtain ⟨b', us', hb', value', rest'⟩ := hf a b ts us ha value rest a' ts' hfa
  exact ⟨b', us', by rw [hb]; exact hb', value', rest'⟩

theorem mono {x : Except ParseFailure (α × List Token)} {y : Except ParseFailure (β × List Token)}
    {R₂ : α → β → Prop} (h : Tracks P R x y) (weaker : ∀ a b, R a b → R₂ a b) :
    Tracks P R₂ x y := by
  intro a ts hx
  obtain ⟨b, us, hy, value, rest⟩ := h a ts hx
  exact ⟨b, us, hy, weaker a b value, rest⟩

/-- Steps that are chosen by the same condition follow each other. -/
theorem ite {c : Prop} [Decidable c] {x x' : Except ParseFailure (α × List Token)}
    {y y' : Except ParseFailure (β × List Token)} (h : c → Tracks P R x y)
    (h' : ¬ c → Tracks P R x' y') :
    Tracks P R (if c then x else x') (if c then y else y') := by
  by_cases hc : c
  · rw [if_pos hc, if_pos hc]
    exact h hc
  · rw [if_neg hc, if_neg hc]
    exact h' hc

end Tracks

-- ════════════════════════════════════════════════════════════════════════════
-- Trees that correspond
-- ════════════════════════════════════════════════════════════════════════════

/-- Trees that correspond to each other, and names of types that do. Whatever trees are built from
corresponding parts correspond. -/
structure Likeness where
  same : Expr → Expr → Prop
  names : Text → Text → Prop
  refl (e : Expr) : same e e
  unary (op : UnaryOp) {e e' : Expr} (operand : same e e') : same (.unary op e) (.unary op e')
  binary (op : BinaryOp) {l l' r r' : Expr} (left : same l l') (right : same r r') :
    same (.binary op l r) (.binary op l' r')
  member (name : Text) {e e' : Expr} (object : same e e') : same (.member e name) (.member e' name)
  call {e e' : Expr} {es es' : List Expr} (target : same e e') (args : List.Forall₂ same es es') :
    same (.call e es) (.call e' es')
  made {n n' : Text} {es es' : List Expr} (name : names n n') (args : List.Forall₂ same es es') :
    same (.call (.ident n) es) (.call (.ident n') es')

namespace Likeness

/-- Each tree corresponds to itself only. -/
def eq : Likeness where
  same := Eq
  names := Eq
  refl _ := rfl
  unary op _ _ operand := congrArg (Expr.unary op) operand
  binary op _ _ _ _ left right := congrArg₂ (Expr.binary op) left right
  member name _ _ object := congrArg (Expr.member · name) object
  call target args := congrArg₂ Expr.call target (List.forall₂_eq_eq_eq ▸ args)
  made name args := congrArg₂ (fun n => Expr.call (.ident n)) name (List.forall₂_eq_eq_eq ▸ args)

variable {L : Likeness} {t u : Token}

/-- Tokens that say the same, up to strings that correspond. -/
structure Agree (L : Likeness) (t u : Token) : Prop where
  kind : u.kind = t.kind
  text : t.kind ≠ .string → u.text = t.text
  string : t.kind = .string → L.same (.string t.text) (.string u.text)

theorem agree_of_content (same : u.content = t.content) : L.Agree t u := by
  refine ⟨Token.kind_congr same, fun _ => Token.text_congr same, fun _ => ?_⟩
  rw [Token.text_congr same]
  exact L.refl _

namespace Agree

variable (h : L.Agree t u)
include h

theorem content (hkind : t.kind ≠ .string) : u.content = t.content := by
  rw [Token.content, Token.content, h.kind, h.text hkind]

theorem isSymbol (text : Text) : u.isSymbol text = t.isSymbol text := by
  by_cases hkind : t.kind = .string
  · rw [Token.isSymbol, Token.isSymbol, h.kind, hkind]
    rfl
  · exact Token.isSymbol_congr (h.content hkind) text

theorem isAnyOf (texts : List Text) : u.isAnyOf texts = t.isAnyOf texts := by
  rw [Token.isAnyOf, Token.isAnyOf, funext h.isSymbol]

theorem isName : u.isName = t.isName := by
  simp only [Token.isName, h.kind]

theorem text_of_isName (hname : t.isName = true) : u.text = t.text := by
  refine h.text fun hkind => ?_
  simp [Token.isName, hkind] at hname

theorem text_of_isAnyOf {texts : List Text} (hany : t.isAnyOf texts = true) : u.text = t.text := by
  obtain ⟨s, -, ht⟩ := Token.isAnyOf_eq_true_iff.1 hany
  exact (Token.text_eq_of_isSymbol ((h.isSymbol s).trans ht)).trans
    (Token.text_eq_of_isSymbol ht).symm

/-- Tokens that agree stand for corresponding leaves. -/
theorem exists_leafOf? {e : Expr} (hleaf : leafOf? t = some (.ok e)) :
    ∃ e', leafOf? u = some (.ok e') ∧ L.same e e' := by
  by_cases hkind : t.kind = .string
  · have hkind' : u.kind = .string := h.kind.trans hkind
    simp only [leafOf?, hkind, Option.some.injEq, Except.ok.injEq] at hleaf
    exact ⟨.string u.text, by simp only [leafOf?, hkind'], hleaf ▸ h.string hkind⟩
  · exact ⟨e, (leafOf?_congr (h.content hkind)).trans hleaf, L.refl e⟩

theorem leafOf?_eq_none (hleaf : leafOf? t = none) : leafOf? u = none := by
  refine (leafOf?_congr (h.content fun hkind => ?_)).trans hleaf
  simp [leafOf?, hkind] at hleaf

end Agree

end Likeness

-- ════════════════════════════════════════════════════════════════════════════
-- Rows that belong together
-- ════════════════════════════════════════════════════════════════════════════

/-- The symbols that go on with an expression, with a declared name or with arguments. -/
def joints : List Text := "as" :: "," :: continuations

/-- What a parser of expressions sees of two rows that belong together; `onward` are the rows that
belong together after a token, `inType` those where a type name may start. -/
inductive Tandem.Seen (L : Likeness) (onward inType : List Token → List Token → Prop) :
    List Token → List Token → Prop
  /-- The first row is at the end of a line, and the second one does not go on. -/
  | line {ts us : List Token} (ends : AtLineEnd ts) (stops : nextIs us joints = false) :
    Seen L onward inType ts us
  /-- The next tokens agree. -/
  | token {t u : Token} {ts us : List Token} (agree : L.Agree t u) (rest : onward ts us)
    (made : t.isSymbol "new" = true → inType ts us) : Seen L onward inType (t :: ts) (u :: us)

/-- Rows of tokens that belong together, in front of the end markers `stop` and `stop'`: the second
row goes on as the first does. Type names are a matter of their own, since a point of a type name
takes the next token for a name, whatever it is. -/
structure Tandem (L : Likeness) (stop stop' : Token) where
  /-- The rows that belong together where an expression may start. -/
  start : List Token → List Token → Prop
  /-- The rows that belong together after a token. -/
  onward : List Token → List Token → Prop
  /-- The rows that belong together where a type name may start. -/
  inType : List Token → List Token → Prop
  start_of_onward {ts us : List Token} (h : onward ts us) : start ts us
  seen {ts us : List Token} (h : start ts us) : Tandem.Seen L onward inType ts us
  typeName {ts us : List Token} (h : inType ts us) :
    Tracks onward L.names (parseTypeName stop ts).plain (parseTypeName stop' us).plain

namespace Tandem

variable {L : Likeness} {stop stop' : Token} (T : Tandem L stop stop')

theorem tracks_expect (want : Text) {ts us : List Token} (h : T.start ts us) :
    Tracks T.onward (fun _ _ => True) (expect stop want ts).plain (expect stop' want us).plain := by
  cases T.seen h with
  | line ends stops => exact .of_error (exists_plain_expect_error stop want ends)
  | token agree rest made =>
    rw [plain_expect_cons, plain_expect_cons, agree.isSymbol]
    exact .ite (fun _ => .ok trivial rest) fun _ => .error _ _

mutual

theorem tracks_parseBinary (level : Level) (ts us : List Token) (h : T.start ts us) :
    Tracks T.onward L.same (parseBinary stop level ts).plain
      (parseBinary stop' level us).plain := by
  rw [plain_parseBinary, plain_parseBinary]
  refine (tracks_parseOperand level ts us h).bind ?_
  intro left left' rest rest' hleft hsame hrest
  have := Answer.fewer_of_plain hleft
  exact tracks_parseOperators level hsame rest rest' hrest
termination_by (ts.length, 2 * level.height + 1)

theorem tracks_parseOperand (level : Level) (ts us : List Token) (h : T.start ts us) :
    Tracks T.onward L.same (parseOperand stop level ts).plain
      (parseOperand stop' level us).plain := by
  rw [parseOperand.eq_def, parseOperand.eq_def]
  match level with
  | .disjunction => exact tracks_parseBinary .conjunction ts us h
  | .conjunction => exact tracks_parseNot ts us h
  | .comparison => exact tracks_parseBinary .concatenation ts us h
  | .concatenation => exact tracks_parseBinary .sum ts us h
  | .sum => exact tracks_parseBinary .product ts us h
  | .product => exact tracks_parseBinary .power ts us h
  | .power => exact tracks_parseSigned ts us h
termination_by (ts.length, 2 * level.height)
decreasing_by all_goals exact Prod.Lex.right _ (by decide)

theorem tracks_parseOperators (level : Level) {left left' : Expr} (hleft : L.same left left')
    (ts us : List Token) (h : T.onward ts us) :
    Tracks T.onward L.same (parseOperators stop level left ts).plain
      (parseOperators stop' level left' us).plain := by
  match ts, us, h, T.seen (T.start_of_onward h) with
  | ts, us, h, .line ends stops =>
    rw [plain_parseOperators_stop (ends.nextIs _),
      plain_parseOperators_stop (nextIs_subset (by cases level <;> decide) stops)]
    exact .ok hleft h
  | t :: ts, u :: us, h, .token agree rest _ =>
    rw [plain_parseOperators_cons, plain_parseOperators_cons, agree.isAnyOf]
    refine .ite (fun hop => ?_) fun _ => .ok hleft h
    rw [agree.text_of_isAnyOf hop]
    refine (tracks_parseOperand level ts us (T.start_of_onward rest)).bind ?_
    intro right right' r r' hright hsame hr
    have := Answer.fewer_of_plain hright
    exact tracks_parseOperators level (L.binary _ hleft hsame) r r' hr
termination_by (ts.length, 0)
decreasing_by
  · simp only [List.length_cons]; exact Prod.Lex.left _ _ (by omega)
  · simp only [List.length_cons]; exact Prod.Lex.left _ _ (by omega)

theorem tracks_parseNot (ts us : List Token) (h : T.start ts us) :
    Tracks T.onward L.same (parseNot stop ts).plain (parseNot stop' us).plain := by
  match ts, us, h, T.seen h with
  | ts, us, h, .line ends _ => exact .of_error (Rank.exists_read_error stop ends .negation)
  | t :: ts, u :: us, h, .token agree rest _ =>
    rw [plain_parseNot_cons, plain_parseNot_cons, agree.isSymbol]
    refine .ite (fun _ => ?_) fun _ => tracks_parseBinary .comparison (t :: ts) (u :: us) h
    refine (tracks_parseNot ts us (T.start_of_onward rest)).bind ?_
    intro e e' r r' _ hsame hr
    exact .ok (L.unary _ hsame) hr
termination_by (ts.length, 16)
decreasing_by
  · exact Prod.Lex.left _ _ (Nat.lt_succ_self _)
  · exact Prod.Lex.right _ (by decide)

theorem tracks_parseSigned (ts us : List Token) (h : T.start ts us) :
    Tracks T.onward L.same (parseSigned stop ts).plain (parseSigned stop' us).plain := by
  match ts, us, h, T.seen h with
  | ts, us, h, .line ends _ => exact .of_error (Rank.exists_read_error stop ends .signed)
  | t :: ts, u :: us, h, .token agree rest _ =>
    rw [plain_parseSigned_cons, plain_parseSigned_cons, agree.isSymbol, agree.isSymbol]
    refine .ite (fun _ => ?_) fun _ => .ite (fun _ => ?_) fun _ => ?_
    · refine (tracks_parseSigned ts us (T.start_of_onward rest)).bind ?_
      intro e e' r r' _ hsame hr
      exact .ok (L.unary _ hsame) hr
    · exact tracks_parseSigned ts us (T.start_of_onward rest)
    · exact tracks_parsePostfix (t :: ts) (u :: us) h
termination_by (ts.length, 4)

theorem tracks_parsePostfix (ts us : List Token) (h : T.start ts us) :
    Tracks T.onward L.same (parsePostfix stop ts).plain (parsePostfix stop' us).plain := by
  rw [plain_parsePostfix, plain_parsePostfix]
  refine (tracks_parsePrimary ts us h).bind ?_
  intro e e' rest rest' he hsame hrest
  have := Answer.fewer_of_plain he
  exact tracks_parseSuffixes hsame rest rest' hrest
termination_by (ts.length, 3)

theorem tracks_parseSuffixes {e e' : Expr} (hsame : L.same e e') (ts us : List Token)
    (h : T.onward ts us) :
    Tracks T.onward L.same (parseSuffixes stop e ts).plain (parseSuffixes stop' e' us).plain := by
  match ts, us, h, T.seen (T.start_of_onward h) with
  | ts, us, h, .line ends stops =>
    rw [plain_parseSuffixes_stop (ends.nextIs _),
      plain_parseSuffixes_stop (nextIs_subset (by decide) stops)]
    exact .ok hsame h
  | t :: ts, u :: us, h, .token agree rest _ =>
    by_cases hpoint : t.isSymbol "." = true
    · have hpoint' : u.isSymbol "." = true := (agree.isSymbol _).trans hpoint
      match ts, us, T.seen (T.start_of_onward rest) with
      | ts, us, .line ends _ =>
        exact .of_error (exists_plain_parseSuffixes_error stop e hpoint ends)
      | n :: ts, m :: us, .token agree' rest' _ =>
        rw [plain_parseSuffixes_point stop e hpoint, plain_parseSuffixes_point stop' e' hpoint',
          agree'.isName]
        refine .ite (fun hname => ?_) fun _ => .error _ _
        rw [agree'.text_of_isName hname]
        exact tracks_parseSuffixes (L.member _ hsame) ts us rest'
    · have hother : t.isSymbol "." = false := by simpa using hpoint
      rw [plain_parseSuffixes_other stop e hother,
        plain_parseSuffixes_other stop' e' ((agree.isSymbol _).trans hother), agree.isSymbol]
      refine .ite (fun _ => ?_) fun _ => .ok hsame h
      refine (tracks_parseArguments ts us (T.start_of_onward rest)).bind ?_
      intro args args' r r' hargs hsames hr
      have := Answer.fewer_of_plain hargs
      exact tracks_parseSuffixes (L.call hsame hsames) r r' hr
termination_by (ts.length, 0)
decreasing_by
  all_goals
    simp only [List.length_cons]
    exact Prod.Lex.left _ _ (by omega)

theorem tracks_parseArguments (ts us : List Token) (h : T.start ts us) :
    Tracks T.onward (List.Forall₂ L.same) (parseArguments stop ts).plain
      (parseArguments stop' us).plain := by
  rw [plain_parseArguments, plain_parseArguments]
  match ts, us, h, T.seen h with
  | ts, us, h, .line ends _ =>
    rw [if_neg (by simp [ends.nextIs])]
    obtain ⟨e, he⟩ := Rank.exists_read_error stop ends (.binary .disjunction)
    simp only [Rank.read] at he
    rw [he]
    exact .error e _
  | t :: ts, u :: us, h, .token agree rest _ =>
    rw [nextIs_cons, nextIs_cons, agree.isAnyOf]
    refine .ite (fun _ => .ok .nil rest) fun _ => ?_
    refine (tracks_parseBinary .disjunction (t :: ts) (u :: us) h).bind ?_
    intro first first' r r' hfirst hsame hr
    have := Answer.fewer_of_plain hfirst
    refine (tracks_parseMoreArguments r r' hr).bind ?_
    intro others others' s s' _ hsames hs
    refine (T.tracks_expect ")" (T.start_of_onward hs)).bind ?_
    intro _ _ v v' _ _ hv
    exact .ok (.cons hsame hsames) hv
termination_by (ts.length, 22)
decreasing_by
  · exact Prod.Lex.right _ (by decide)
  · exact Prod.Lex.left _ _ (by simpa using this)

theorem tracks_parseMoreArguments (ts us : List Token) (h : T.onward ts us) :
    Tracks T.onward (List.Forall₂ L.same) (parseMoreArguments stop ts).plain
      (parseMoreArguments stop' us).plain := by
  match ts, us, h, T.seen (T.start_of_onward h) with
  | ts, us, h, .line ends stops =>
    rw [plain_parseMoreArguments_stop (ends.nextIs _),
      plain_parseMoreArguments_stop (nextIs_subset (by decide) stops)]
    exact .ok .nil h
  | t :: ts, u :: us, h, .token agree rest _ =>
    rw [plain_parseMoreArguments_cons, plain_parseMoreArguments_cons, agree.isSymbol]
    refine .ite (fun _ => ?_) fun _ => .ok .nil h
    refine (tracks_parseBinary .disjunction ts us (T.start_of_onward rest)).bind ?_
    intro first first' r r' hfirst hsame hr
    have := Answer.fewer_of_plain hfirst
    refine (tracks_parseMoreArguments r r' hr).bind ?_
    intro others others' s s' _ hsames hs
    exact .ok (.cons hsame hsames) hs
termination_by (ts.length, 0)
decreasing_by
  · simp only [List.length_cons]; exact Prod.Lex.left _ _ (by omega)
  · simp only [List.length_cons]; exact Prod.Lex.left _ _ (by omega)

theorem tracks_parseNew (ts us : List Token) (h : T.inType ts us) :
    Tracks T.onward (fun p q => L.names p.1 q.1 ∧ List.Forall₂ L.same p.2 q.2)
      (parseNew stop ts).plain (parseNew stop' us).plain := by
  rw [plain_parseNew, plain_parseNew]
  refine (T.typeName h).bind ?_
  intro name name' rest rest' hname hnames hrest
  have := Answer.fewer_of_plain hname
  match rest, rest', hrest, T.seen (T.start_of_onward hrest) with
  | rest, rest', hrest, .line ends stops =>
    have hopen : nextIs rest' ["("] = false := nextIs_subset (by decide) stops
    simp only [ends.nextIs, hopen, Bool.false_eq_true, if_false]
    exact .ok ⟨hnames, .nil⟩ hrest
  | t :: rest, u :: rest', hrest, .token agree onward _ =>
    simp only [nextIs_cons, agree.isAnyOf]
    refine .ite (fun _ => ?_) fun _ => .ok ⟨hnames, .nil⟩ hrest
    refine (tracks_parseArguments rest rest' (T.start_of_onward onward)).bind ?_
    intro args args' r r' _ hsames hr
    exact .ok ⟨hnames, hsames⟩ hr
termination_by (ts.length, 0)
decreasing_by
  simp only [List.length_cons] at this
  exact Prod.Lex.left _ _ (by omega)

theorem tracks_parsePrimary (ts us : List Token) (h : T.start ts us) :
    Tracks T.onward L.same (parsePrimary stop ts).plain (parsePrimary stop' us).plain := by
  match ts, us, T.seen h with
  | ts, us, .line ends _ => exact .of_error (exists_plain_parsePrimary_error stop ends)
  | t :: ts, u :: us, .token agree rest made =>
    cases hleaf : leafOf? t with
    | some leaf =>
      cases leaf with
      | error e =>
        rw [parsePrimary]
        simp only [hleaf]
        exact .error _ _
      | ok e =>
        obtain ⟨e', hleaf', hsame⟩ := agree.exists_leafOf? hleaf
        rw [plain_parsePrimary_leaf stop hleaf, plain_parsePrimary_leaf stop' hleaf']
        exact .ok hsame rest
    | none =>
      have hleaf' := agree.leafOf?_eq_none hleaf
      by_cases hnew : t.isSymbol "new" = true
      · rw [plain_parsePrimary_new stop hleaf hnew,
          plain_parsePrimary_new stop' hleaf' ((agree.isSymbol _).trans hnew)]
        refine (tracks_parseNew ts us (made hnew)).bind ?_
        intro p p' r r' _ hsames hr
        exact .ok (L.made hsames.1 hsames.2) hr
      · have hold : t.isSymbol "new" = false := by simpa using hnew
        by_cases hparen : t.isSymbol "(" = true
        · rw [plain_parsePrimary_parenthesis stop hleaf hold hparen,
            plain_parsePrimary_parenthesis stop' hleaf' ((agree.isSymbol _).trans hold)
              ((agree.isSymbol _).trans hparen)]
          refine (tracks_parseBinary .disjunction ts us (T.start_of_onward rest)).bind ?_
          intro e e' r r' _ hsame hr
          refine (T.tracks_expect ")" (T.start_of_onward hr)).bind ?_
          intro _ _ v v' _ _ hv
          exact .ok hsame hv
        · rw [plain_parsePrimary_other stop hleaf hold (by simpa using hparen)]
          split
          · exact .error _ _
          · exact .error _ _
termination_by (ts.length, 2)

end

/-- Expressions are read in tandem. -/
theorem tracks_parseExpr {ts us : List Token} (h : T.start ts us) :
    Tracks T.onward L.same (parseExpr stop ts).plain (parseExpr stop' us).plain :=
  T.tracks_parseBinary .disjunction ts us h

end Tandem

end FormBasic
