import FormBasic.Proofs.Grammar.Phrase
import Mathlib

/-!
# What is accepted as an expression

The parsers accept no more than the grammar: a row of tokens that a parser takes is a phrase of its
rank with the tree it answers, and a row that it does not take is malformed. Object creation is left
out, and numerals are taken to be readable; both are conditions on the single tokens.

## Main definitions

* `Readable` - rows of tokens without object creation whose numerals stand for numbers
* `Spells` - rows of tokens that are one phrase between line ends

## Main statements

* `derived_parseBinary` to `derived_parsePrimary` - what each parser takes is a phrase
* `Expr.parse_iff_phrase` - an expression is accepted exactly when the grammar derives it
-/

namespace FormBasic

-- ════════════════════════════════════════════════════════════════════════════
-- Promises
-- ════════════════════════════════════════════════════════════════════════════

/-- What a parsing step promises: its value and the remaining tokens have a property, or else the
text is malformed. -/
def Promises {α : Type} (P : α → List Token → Prop) : Except ParseFailure (α × List Token) → Prop
  | .ok (v, rest) => P v rest
  | .error f => ∃ error, f = .malformed error

section Promises

variable {α β : Type} {P : α → List Token → Prop} {Q : β → List Token → Prop}

theorem promises_failAt (t : Token) (cause : Misparse) :
    Promises P (failAt t cause : Except ParseFailure (α × List Token)) := ⟨_, rfl⟩

theorem Promises.bind {a : Except ParseFailure (α × List Token)}
    {f : α × List Token → Except ParseFailure (β × List Token)} (h : Promises P a)
    (next : ∀ v rest, a = .ok (v, rest) → P v rest → Promises Q (f (v, rest))) :
    Promises Q (a >>= f) := by
  cases a with
  | error e => exact h
  | ok p => exact next p.1 p.2 rfl h

theorem Promises.mono {R : α → List Token → Prop} {a : Except ParseFailure (α × List Token)}
    (h : Promises P a) (weaker : ∀ v rest, P v rest → R v rest) : Promises R a := by
  cases a with
  | error e => exact h
  | ok p => exact weaker p.1 p.2 h

end Promises

/-- Rows of tokens without object creation whose numerals stand for numbers. -/
def Readable (ts : List Token) : Prop :=
  ∀ t ∈ ts, t.isSymbol "new" = false ∧ (t.kind = .number → ∃ n, numberOf t.text = .ok n)

theorem Readable.tail {t : Token} {ts : List Token} (h : Readable (t :: ts)) : Readable ts :=
  fun u hu => h u (List.mem_cons_of_mem t hu)

theorem Readable.rest {us rest : List Token} (h : Readable (us ++ rest)) : Readable rest :=
  fun t ht => h t (List.mem_append_right us ht)

/-- The tokens before the remaining ones complete a row to a phrase. -/
def Completes (rank : Rank) (us ts : List Token) (e : Expr) (rest : List Token) : Prop :=
  ∃ vs, ts = vs ++ rest ∧ Phrase rank (us ++ vs) e

/-- The tokens before the remaining ones are the arguments of a call and its closing
parenthesis. -/
def Encloses (ts : List Token) (es : List Expr) (rest : List Token) : Prop :=
  ∃ vs right, ts = vs ++ right :: rest ∧ right.isSymbol ")" = true ∧
    (vs = [] ∧ es = [] ∨ Arguments vs es)

/-- The tokens before the remaining ones complete a first argument to all arguments. -/
def Lists (us : List Token) (e : Expr) (ts : List Token) (es : List Expr) (rest : List Token) :
    Prop :=
  ∃ vs, ts = vs ++ rest ∧ Arguments (us ++ vs) (e :: es)

theorem Completes.lift {rank inner : Rank} {ts rest : List Token} {e : Expr}
    (hn : rank.tighter? = some inner) (h : Completes inner [] ts e rest) :
    Completes rank [] ts e rest := by
  obtain ⟨vs, hts, hvs⟩ := h
  exact ⟨vs, hts, .lift hn hvs⟩

theorem Completes.after {rank : Rank} {us vs ts rest : List Token} {e : Expr}
    (h : Completes rank (us ++ vs) ts e rest) : Completes rank us (vs ++ ts) e rest := by
  obtain ⟨ws, rfl, hws⟩ := h
  exact ⟨vs ++ ws, (List.append_assoc ..).symm, by rwa [← List.append_assoc]⟩

/-- What a symbol or a literal stands for as a leaf is what the grammar says. -/
theorem phrase_leafOf? {t : Token} {e : Expr} (h : leafOf? t = some (.ok e)) :
    Phrase .primary [t] e := by
  unfold leafOf? at h
  split at h
  · next hk =>
    simp only [Option.some.injEq] at h
    unfold numberOf at h
    split at h
    · next hpoint =>
      split at h
      · next x hx => cases h; exact .decimal hk hpoint hx
      · cases h
    · next hpoint =>
      split at h
      · next n hn => cases h; exact .integer hk (by simpa using hpoint) hn
      · cases h
  · next hk => cases h; exact .string hk
  · next hk => cases h; exact .name hk
  · split at h
    · next hany =>
      obtain ⟨s, hs, ht⟩ := Token.isAnyOf_eq_true_iff.1 hany
      simp only [Token.text_eq_of_isSymbol ht, Option.some.injEq, Except.ok.injEq] at h
      simp only [List.mem_cons, List.not_mem_nil, or_false] at hs
      rcases hs with rfl | rfl
      · subst h; exact .truth ht
      · subst h; exact .falsehood ht
    split at h
    · next ht => cases h; exact .nothing ht
    split at h
    · next ht => cases h; exact .me ht
    split at h
    · next hany =>
      obtain ⟨s, hs, ht⟩ := Token.isAnyOf_eq_true_iff.1 hany
      cases h
      rw [Token.text_eq_of_isSymbol ht]
      exact .type hs ht
    · cases h

theorem leafOf?_ne_error {t : Token} (h : Readable [t]) {f : ParseFailure} :
    leafOf? t ≠ some (.error f) := by
  intro hleaf
  unfold leafOf? at hleaf
  split at hleaf
  · next hk =>
    obtain ⟨n, hn⟩ := (h t (List.mem_singleton.2 rfl)).2 hk
    rw [hn] at hleaf
    cases hleaf
  · cases hleaf
  · cases hleaf
  · split at hleaf
    · cases hleaf
    split at hleaf
    · cases hleaf
    split at hleaf
    · cases hleaf
    split at hleaf <;> cases hleaf

theorem promises_expect {stop : Token} {want : Text} (ts : List Token) :
    Promises (fun t rest => ts = t :: rest ∧ t.isSymbol want = true)
      (expect stop want ts).plain := by
  cases ts with
  | nil => exact promises_failAt stop _
  | cons t ts =>
    rw [plain_expect_cons]
    split
    · next ht => exact ⟨rfl, ht⟩
    · exact promises_failAt t _

theorem sign_of_isAnyOf {level : Level} {t : Token} (h : t.isAnyOf level.operators = true) :
    ∃ sign, (sign, BinaryOp.ofText t.text) ∈ level.signs ∧ t.isSymbol sign = true := by
  obtain ⟨s, hs, ht⟩ := Token.isAnyOf_eq_true_iff.1 h
  have hall : ∀ level : Level, ∀ s ∈ level.operators, (s, BinaryOp.ofText s) ∈ level.signs := by
    intro level
    cases level <;> decide
  exact ⟨s, Token.text_eq_of_isSymbol ht ▸ hall level s hs, ht⟩

-- ════════════════════════════════════════════════════════════════════════════
-- The parsers
-- ════════════════════════════════════════════════════════════════════════════

section Parsers

variable (stop : Token)

mutual

theorem derived_parseBinary (level : Level) (ts : List Token) (hs : Readable ts) :
    Promises (Completes (.binary level) [] ts) (parseBinary stop level ts).plain := by
  rw [plain_parseBinary]
  refine (derived_parseOperand level ts hs).bind ?_
  rintro left rest hleft ⟨inner, us, hn, hts, hus⟩
  have := Answer.fewer_of_plain hleft
  rw [hts] at hs ⊢
  exact (derived_parseOperators level us left (.lift hn hus) rest hs.rest).mono
    fun _ _ h => Completes.after h
termination_by (ts.length, 2 * level.height + 1)

theorem derived_parseOperand (level : Level) (ts : List Token) (hs : Readable ts) :
    Promises (fun e rest => ∃ inner us, (Rank.binary level).tighter? = some inner ∧
      ts = us ++ rest ∧ Phrase inner us e) (parseOperand stop level ts).plain := by
  rw [parseOperand.eq_def]
  match level with
  | .disjunction =>
    exact (derived_parseBinary .conjunction ts hs).mono fun _ _ ⟨us, h, hp⟩ => ⟨_, us, rfl, h, hp⟩
  | .conjunction =>
    exact (derived_parseNot ts hs).mono fun _ _ ⟨us, h, hp⟩ => ⟨_, us, rfl, h, hp⟩
  | .comparison =>
    exact (derived_parseBinary .concatenation ts hs).mono fun _ _ ⟨us, h, hp⟩ => ⟨_, us, rfl, h, hp⟩
  | .concatenation =>
    exact (derived_parseBinary .sum ts hs).mono fun _ _ ⟨us, h, hp⟩ => ⟨_, us, rfl, h, hp⟩
  | .sum =>
    exact (derived_parseBinary .product ts hs).mono fun _ _ ⟨us, h, hp⟩ => ⟨_, us, rfl, h, hp⟩
  | .product =>
    exact (derived_parseBinary .power ts hs).mono fun _ _ ⟨us, h, hp⟩ => ⟨_, us, rfl, h, hp⟩
  | .power =>
    exact (derived_parseSigned ts hs).mono fun _ _ ⟨us, h, hp⟩ => ⟨_, us, rfl, h, hp⟩
termination_by (ts.length, 2 * level.height)
decreasing_by all_goals exact Prod.Lex.right _ (by decide)

theorem derived_parseOperators (level : Level) (us : List Token) (left : Expr)
    (hl : Phrase (.binary level) us left) (ts : List Token) (hs : Readable ts) :
    Promises (Completes (.binary level) us ts) (parseOperators stop level left ts).plain := by
  match ts with
  | [] =>
    rw [plain_parseOperators_nil]
    exact ⟨[], rfl, by rwa [List.append_nil]⟩
  | t :: ts =>
    rw [plain_parseOperators_cons]
    split
    · next hop =>
      obtain ⟨sign, hsign, ht⟩ := sign_of_isAnyOf hop
      refine (derived_parseOperand level ts hs.tail).bind ?_
      rintro right rest hright ⟨inner, vs, hn, hts, hvs⟩
      have := Answer.fewer_of_plain hright
      rw [hts, ← List.cons_append] at hs ⊢
      have hboth := Phrase.binary hn hsign ht hl hvs
      exact (derived_parseOperators level _ _ hboth rest hs.rest).mono
        fun _ _ h => Completes.after h
    · exact ⟨[], rfl, by rwa [List.append_nil]⟩
termination_by (ts.length, 0)
decreasing_by
  · simp only [List.length_cons]; exact Prod.Lex.left _ _ (by omega)
  · simp only [List.length_cons]; exact Prod.Lex.left _ _ (by omega)

theorem derived_parseNot (ts : List Token) (hs : Readable ts) :
    Promises (Completes .negation [] ts) (parseNot stop ts).plain := by
  match ts with
  | [] =>
    rw [plain_parseNot_nil]
    exact (derived_parseBinary .comparison [] hs).mono fun _ _ h => h.lift rfl
  | t :: ts =>
    rw [plain_parseNot_cons]
    split
    · next ht =>
      refine (derived_parseNot ts hs.tail).bind ?_
      rintro e rest - ⟨us, rfl, hus⟩
      exact ⟨t :: us, rfl, .not ht hus⟩
    · exact (derived_parseBinary .comparison (t :: ts) hs).mono fun _ _ h => h.lift rfl
termination_by (ts.length, 16)
decreasing_by
  · exact Prod.Lex.right _ (by decide)
  · exact Prod.Lex.right _ (by decide)
  · exact Prod.Lex.left _ _ (Nat.lt_succ_self _)

theorem derived_parseSigned (ts : List Token) (hs : Readable ts) :
    Promises (Completes .signed [] ts) (parseSigned stop ts).plain := by
  match ts with
  | [] =>
    rw [plain_parseSigned_nil]
    exact (derived_parsePostfix [] hs).mono fun _ _ h => h.lift rfl
  | t :: ts =>
    rw [plain_parseSigned_cons]
    split
    · next ht =>
      refine (derived_parseSigned ts hs.tail).bind ?_
      rintro e rest - ⟨us, rfl, hus⟩
      exact ⟨t :: us, rfl, .minus ht hus⟩
    split
    · next ht =>
      refine (derived_parseSigned ts hs.tail).mono ?_
      rintro e rest ⟨us, rfl, hus⟩
      exact ⟨t :: us, rfl, .plus ht hus⟩
    · exact (derived_parsePostfix (t :: ts) hs).mono fun _ _ h => h.lift rfl
termination_by (ts.length, 4)

theorem derived_parsePostfix (ts : List Token) (hs : Readable ts) :
    Promises (Completes .suffixed [] ts) (parsePostfix stop ts).plain := by
  rw [plain_parsePostfix]
  refine (derived_parsePrimary ts hs).bind ?_
  rintro e rest he ⟨us, hts, hus⟩
  have := Answer.fewer_of_plain he
  rw [hts] at hs ⊢
  exact (derived_parseSuffixes us e (.lift rfl hus) rest hs.rest).mono
    fun _ _ h => Completes.after h
termination_by (ts.length, 3)

theorem derived_parseSuffixes (us : List Token) (e : Expr) (he : Phrase .suffixed us e)
    (ts : List Token) (hs : Readable ts) :
    Promises (Completes .suffixed us ts) (parseSuffixes stop e ts).plain := by
  match ts with
  | [] =>
    rw [plain_parseSuffixes_nil]
    exact ⟨[], rfl, by rwa [List.append_nil]⟩
  | t :: ts =>
    by_cases hp : t.isSymbol "." = true
    · match ts with
      | [] =>
        rw [plain_parseSuffixes_last stop e hp]
        exact promises_failAt stop _
      | n :: ts =>
        rw [plain_parseSuffixes_point stop e hp]
        split
        · next hn =>
          have hmember := Phrase.member he hp (Token.isName_iff.1 hn)
          exact (derived_parseSuffixes _ _ hmember ts hs.tail.tail).mono
            fun _ _ h => (Completes.after h : Completes _ us ([t, n] ++ ts) _ _)
        · exact promises_failAt n _
    · rw [plain_parseSuffixes_other stop e (by simpa using hp)]
      split
      · next hopen =>
        refine (derived_parseArguments ts hs.tail).bind ?_
        rintro es rest hes ⟨vs, right, hts, hclose, hvs⟩
        have := Answer.fewer_of_plain hes
        have hcall : Phrase .suffixed (us ++ t :: (vs ++ [right])) (.call e es) := by
          rcases hvs with ⟨rfl, rfl⟩ | hvs
          · exact .callNone he hopen hclose
          · exact .call he hopen hvs hclose
        have hrest : t :: ts = t :: (vs ++ [right]) ++ rest := by simp [hts]
        rw [hrest] at hs ⊢
        exact (derived_parseSuffixes _ _ hcall rest hs.rest).mono
          fun _ _ h => Completes.after h
      · exact ⟨[], rfl, by rwa [List.append_nil]⟩
termination_by (ts.length, 0)
decreasing_by
  · simp only [List.length_cons]; exact Prod.Lex.left _ _ (by omega)
  · simp only [List.length_cons]; exact Prod.Lex.left _ _ (by omega)
  · simp only [List.length_cons]; exact Prod.Lex.left _ _ (by omega)

theorem derived_parseArguments (ts : List Token) (hs : Readable ts) :
    Promises (Encloses ts) (parseArguments stop ts).plain := by
  rw [plain_parseArguments]
  split
  · next hnext =>
    obtain ⟨t, rest, rfl, ht⟩ := exists_of_nextIs hnext
    obtain ⟨s, hmem, hclose⟩ := Token.isAnyOf_eq_true_iff.1 ht
    rw [List.mem_singleton.1 hmem] at hclose
    exact ⟨[], t, rfl, hclose, .inl ⟨rfl, rfl⟩⟩
  · refine (derived_parseBinary .disjunction ts hs).bind ?_
    rintro first rest hfirst ⟨us, hts, hus⟩
    have := Answer.fewer_of_plain hfirst
    rw [hts] at hs ⊢
    refine (derived_parseMoreArguments us first hus rest hs.rest).bind ?_
    rintro others rest' - ⟨vs, rfl, hvs⟩
    refine (promises_expect rest').bind ?_
    rintro right rest'' - ⟨rfl, hright⟩
    exact ⟨us ++ vs, right, (List.append_assoc ..).symm, hright, .inr hvs⟩
termination_by (ts.length, 22)
decreasing_by
  · exact Prod.Lex.right _ (by decide)
  · exact Prod.Lex.left _ _ (by omega)

theorem derived_parseMoreArguments (us : List Token) (e : Expr)
    (he : Phrase (.binary .disjunction) us e) (ts : List Token) (hs : Readable ts) :
    Promises (Lists us e ts) (parseMoreArguments stop ts).plain := by
  match ts with
  | [] =>
    rw [plain_parseMoreArguments_nil]
    exact ⟨[], rfl, by rw [List.append_nil]; exact .last he⟩
  | t :: ts =>
    rw [plain_parseMoreArguments_cons]
    split
    · next ht =>
      refine (derived_parseBinary .disjunction ts hs.tail).bind ?_
      rintro first rest hfirst ⟨vs, hts, hvs⟩
      have := Answer.fewer_of_plain hfirst
      rw [hts] at hs ⊢
      refine (derived_parseMoreArguments vs first hvs rest hs.tail.rest).bind ?_
      rintro others rest' - ⟨ws, rfl, hws⟩
      exact ⟨t :: (vs ++ ws), by simp, .cons he ht hws⟩
    · exact ⟨[], rfl, by rw [List.append_nil]; exact .last he⟩
termination_by (ts.length, 0)
decreasing_by
  · simp only [List.length_cons]; exact Prod.Lex.left _ _ (by omega)
  · simp only [List.length_cons]; exact Prod.Lex.left _ _ (by omega)

theorem derived_parsePrimary (ts : List Token) (hs : Readable ts) :
    Promises (Completes .primary [] ts) (parsePrimary stop ts).plain := by
  match ts with
  | [] =>
    rw [plain_parsePrimary_nil]
    exact promises_failAt stop _
  | t :: ts =>
    have hnew := (hs t List.mem_cons_self).1
    match hleaf : leafOf? t with
    | some (.error f) =>
      exact absurd hleaf (leafOf?_ne_error fun u hu => hs u (by simp_all))
    | some (.ok e) =>
      rw [plain_parsePrimary_leaf stop hleaf]
      exact ⟨[t], rfl, phrase_leafOf? hleaf⟩
    | none =>
      by_cases hopen : t.isSymbol "(" = true
      · rw [plain_parsePrimary_parenthesis stop hleaf hnew hopen]
        refine (derived_parseBinary .disjunction ts hs.tail).bind ?_
        rintro e rest - ⟨us, rfl, hus⟩
        refine (promises_expect rest).bind ?_
        rintro right rest' - ⟨rfl, hright⟩
        exact ⟨t :: (us ++ [right]), by simp, .group hopen hus hright⟩
      · rw [plain_parsePrimary_other stop hleaf hnew (by simpa using hopen)]
        split
        · exact promises_failAt t _
        · exact promises_failAt t _
termination_by (ts.length, 2)

end

end Parsers

-- ════════════════════════════════════════════════════════════════════════════
-- Whole expressions
-- ════════════════════════════════════════════════════════════════════════════

/-- Whether a row of tokens is one phrase with the tree, apart from line ends around it. -/
def Expr.IsSpelled (e : Expr) (ts : List Token) : Prop :=
  ∃ before us after, ts = before ++ us ++ after ∧ (∀ t ∈ before ++ after, t.kind = .newline) ∧
    Phrase (.binary .disjunction) us e

theorem Stream.expr_eq (s : Stream) :
    s.expr = ((parseExpr s.stop (skipNewlines s.tokens)).plain >>= fun (e, rest) =>
      match skipNewlines rest with
      | [] => .ok e
      | t :: _ => failAt t (.trailing t.text)) := by
  unfold Stream.expr
  cases parseExpr s.stop (skipNewlines s.tokens) <;> rfl

theorem skipNewlines_eq_nil_iff {ts : List Token} :
    skipNewlines ts = [] ↔ ∀ t ∈ ts, t.kind = .newline := by
  simp only [skipNewlines, List.dropWhile_eq_nil_iff, beq_iff_eq]

theorem skipNewlines_append {before ts : List Token} (h : ∀ t ∈ before, t.kind = .newline) :
    skipNewlines (before ++ ts) = skipNewlines ts :=
  List.dropWhile_append_of_pos fun t ht => beq_iff_eq.2 (h t ht)

theorem exists_newlines_append (ts : List Token) :
    ∃ before, ts = before ++ skipNewlines ts ∧ ∀ t ∈ before, t.kind = .newline := by
  refine ⟨ts.takeWhile fun t => t.kind == .newline, List.takeWhile_append_dropWhile.symm, ?_⟩
  intro t ht
  have hkind := List.mem_takeWhile_imp ht
  exact beq_iff_eq.1 hkind

/-- A spelled expression is accepted. -/
theorem Stream.expr_of_isSpelled {s : Stream} {e : Expr} (h : e.IsSpelled s.tokens) :
    s.expr = .ok e := by
  obtain ⟨before, us, after, hts, hlines, phrase⟩ := h
  have hskip : skipNewlines s.tokens = us ++ after := by
    obtain ⟨t, us, rfl, ht⟩ := phrase.head
    rw [hts, List.append_assoc,
      skipNewlines_append fun t ht => hlines t (List.mem_append_left after ht)]
    simp [skipNewlines, ht.2]
  have hafter : ∀ t ∈ after, t.kind = .newline :=
    fun t ht => hlines t (List.mem_append_right before ht)
  rw [Stream.expr_eq, hskip, phrase.parse hafter]
  simp only [bind, Except.bind, skipNewlines_eq_nil_iff.2 hafter]

/-- What is accepted is spelled, and what is not accepted is malformed. -/
theorem Stream.isSpelled_or_malformed {s : Stream} (hs : Readable s.tokens) :
    (∃ e, s.expr = .ok e ∧ e.IsSpelled s.tokens) ∨ ∃ error, s.expr = .error (.malformed error) := by
  obtain ⟨before, hbefore, hlines⟩ := exists_newlines_append s.tokens
  have hread := derived_parseBinary s.stop .disjunction (skipNewlines s.tokens)
    (hbefore ▸ hs).rest
  rw [Stream.expr_eq, parseExpr]
  cases hp : (parseBinary s.stop .disjunction (skipNewlines s.tokens)).plain with
  | error f =>
    rw [hp] at hread
    obtain ⟨error, rfl⟩ := hread
    exact .inr ⟨error, rfl⟩
  | ok p =>
    obtain ⟨e, rest⟩ := p
    rw [hp] at hread
    obtain ⟨us, hus, phrase⟩ := hread
    cases hrest : skipNewlines rest with
    | cons t ts => exact .inr ⟨_, by simp only [bind, Except.bind, hrest]; rfl⟩
    | nil =>
      refine .inl ⟨e, by simp only [bind, Except.bind, hrest], before, us, rest, ?_, ?_, phrase⟩
      · rw [List.append_assoc, ← hus]
        exact hbefore
      · intro t ht
        exact (List.mem_append.1 ht).elim (hlines t) (skipNewlines_eq_nil_iff.1 hrest t)

/-- A source without object creation and with integers of at most 4300 digits is accepted as an
expression exactly when the grammar derives the expression from its tokens, which it does for one
tree at most; every other source is malformed. -/
theorem Expr.parse_iff_phrase (source : Text)
    (plain : ∀ t ∈ (Stream.ofSource source).tokens, t.isSymbol "new" = false)
    (short : ∀ t ∈ (Stream.ofSource source).tokens, t.kind = .number →
      t.text.toList.contains (.char '.') = false → t.text.toList.length ≤ digitLimit) :
    (∀ e, Expr.parse source = .ok e ↔ e.IsSpelled (Stream.ofSource source).tokens) ∧
      (∀ e e' : Expr, e.IsSpelled (Stream.ofSource source).tokens →
        e'.IsSpelled (Stream.ofSource source).tokens → e = e') ∧
      ((∀ e : Expr, ¬ e.IsSpelled (Stream.ofSource source).tokens) →
        ∃ error, Expr.parse source = .error (.malformed error)) := by
  have hread : Readable (Stream.ofSource source).tokens := fun t ht =>
    ⟨plain t ht, fun hk => exists_numberOf (isNumeral_of_mem_scan (mem_scan_of_mem_tokens ht) hk)
      (short t ht hk)⟩
  have hcomplete : ∀ e : Expr, e.IsSpelled (Stream.ofSource source).tokens →
      Expr.parse source = .ok e := fun e => Stream.expr_of_isSpelled
  have hsound : (∃ e : Expr, Expr.parse source = .ok e ∧
      e.IsSpelled (Stream.ofSource source).tokens) ∨
      ∃ error, Expr.parse source = .error (.malformed error) := Stream.isSpelled_or_malformed hread
  refine ⟨fun e => ⟨fun h => ?_, hcomplete e⟩, fun e e' h h' => ?_, fun h => ?_⟩
  · obtain ⟨e', he', hspelled⟩ | ⟨error, herror⟩ := hsound
    · cases h.symm.trans he'
      exact hspelled
    · cases h.symm.trans herror
  · exact Except.ok.inj ((hcomplete e h).symm.trans (hcomplete e' h'))
  · obtain ⟨e, -, he⟩ | herror := hsound
    · exact absurd he (h e)
    · exact herror

/-- A source with a sign, a power, a call and a member. -/
def sampleSource : Text := "-2 ^ f(x) - Me.End"

/-- The expression of the sample source: the sign binds tighter than the power. -/
def sampleExpr : Expr :=
  .binary .sub (.binary .pow (.unary .neg (.number (.int 2))) (.call (.ident "f") [.ident "x"]))
    (.member (.ident "Me") "end")

theorem Expr.parse_iff_phrase_sample :
    (∀ t ∈ (Stream.ofSource sampleSource).tokens, t.isSymbol "new" = false) ∧
    (∀ t ∈ (Stream.ofSource sampleSource).tokens, t.kind = .number →
      t.text.toList.contains (.char '.') = false → t.text.toList.length ≤ digitLimit) ∧
    Expr.parse sampleSource = .ok sampleExpr ∧
    sampleExpr.IsSpelled (Stream.ofSource sampleSource).tokens ∧
    ∀ e : Expr, e.IsSpelled (Stream.ofSource sampleSource).tokens → e = sampleExpr := by
  have plain : ∀ t ∈ (Stream.ofSource sampleSource).tokens, t.isSymbol "new" = false := by
    decide +kernel
  have short : ∀ t ∈ (Stream.ofSource sampleSource).tokens, t.kind = .number →
      t.text.toList.contains (.char '.') = false → t.text.toList.length ≤ digitLimit := by
    decide +kernel
  have hscan : Token.scan sampleSource =
      [⟨.operator, "-", .ofNat 1, 1⟩, ⟨.number, "2", .ofNat 1, 2⟩, ⟨.operator, "^", .ofNat 1, 4⟩,
        ⟨.identifier, "f", .ofNat 1, 6⟩, ⟨.punctuation, "(", .ofNat 1, 7⟩,
        ⟨.identifier, "x", .ofNat 1, 8⟩, ⟨.punctuation, ")", .ofNat 1, 9⟩,
        ⟨.operator, "-", .ofNat 1, 11⟩, ⟨.keyword, "me", .ofNat 1, 13⟩,
        ⟨.punctuation, ".", .ofNat 1, 15⟩, ⟨.keyword, "end", .ofNat 1, 16⟩,
        ⟨.eof, "", .ofNat 1, 19⟩] := by
    decide +kernel
  have hparse : Expr.parse sampleSource = .ok sampleExpr := by
    rw [Expr.parse, Stream.ofSource, hscan]
    cbv
  obtain ⟨hiff, hunique, -⟩ := Expr.parse_iff_phrase sampleSource plain short
  have hspelled := (hiff sampleExpr).1 hparse
  exact ⟨plain, short, hparse, hspelled, fun e he => hunique e sampleExpr he hspelled⟩

end FormBasic
