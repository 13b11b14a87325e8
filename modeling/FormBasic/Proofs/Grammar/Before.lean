import FormBasic.Proofs.Grammar.Enclosed

/-!
# Pieces of a line before what follows them

A parser that reads a piece of a line by itself reads it in the same way where more follows, as long
as what follows does not go on with it. Only successful runs are compared: at the end of the piece a
run that fails may find more to read in what follows. The piece must not end with a point, since a
point of a type name takes the next token for a name, whatever it is.

## Main definitions

* `Before` - the tokens of a piece, by themselves and before what follows
* `Carries` - steps of which the second succeeds like the first

## Main statements

* `carries_parseExpr` - expressions
* `carries_parseStatement` - declarations, assignments, calls, returns and exits
-/

namespace FormBasic

open Token (Content)

/-- The tokens of a piece of a line, and tokens that say the same with `rest` after them, which does
not go on with the piece. A point is not the last token of the piece. -/
inductive Before (rest : List Token) : List Token → List Token → Prop
  | done (cut : nextIs rest joints = false) : Before rest [] rest
  | cons {t u : Token} {ts us : List Token} (same : u.content = t.content)
    (whole : t.isSymbol "." = true → ts ≠ []) (tail : Before rest ts us) :
    Before rest (t :: ts) (u :: us)

/-- Whether the last token is a point. -/
def endsWithPoint (ts : List Token) : Bool := ts.getLast?.any fun t => t.isSymbol "."

theorem endsWithPoint_concat (ts : List Token) (t : Token) :
    endsWithPoint (ts ++ [t]) = t.isSymbol "." := by
  simp [endsWithPoint]

namespace Before

variable {rest ts us : List Token}

/-- Both lists go on with the same joint, or both with none. -/
theorem nextIs (h : Before rest ts us) {texts : List Text} (hsub : texts ⊆ joints) :
    FormBasic.nextIs us texts = FormBasic.nextIs ts texts := by
  cases h with
  | done cut => exact nextIs_subset hsub cut
  | cons same whole tail => exact Token.isAnyOf_congr same texts

theorem tail {t u : Token} (h : Before rest (t :: ts) (u :: us)) : Before rest ts us := by
  cases h with
  | cons _ _ tail => exact tail

theorem drop_one (h : Before rest ts us) {texts : List Text}
    (hnext : FormBasic.nextIs ts texts = true) : Before rest (ts.drop 1) (us.drop 1) := by
  cases h with
  | done => cases hnext
  | cons same whole tail => exact tail

/-- A piece whose last token is not a point stands before anything that does not go on with it. -/
theorem append (cut : FormBasic.nextIs rest joints = false) {ts us : List Token}
    (same : us.map Token.content = ts.map Token.content)
    (whole : endsWithPoint ts = false) : Before rest ts (us ++ rest) := by
  induction ts generalizing us with
  | nil =>
    rw [List.map_eq_nil_iff.1 same]
    exact .done cut
  | cons t ts ih =>
    obtain ⟨u, us, rfl, hu, hus⟩ := List.map_eq_cons_iff.1 same
    cases ts with
    | nil =>
      refine .cons hu (fun hpoint => ?_) (ih hus rfl)
      simp [endsWithPoint, hpoint] at whole
    | cons t' ts =>
      rw [endsWithPoint, List.getLast?_cons_cons] at whole
      exact .cons hu (fun _ => List.cons_ne_nil _ _) (ih hus whole)

end Before

-- ════════════════════════════════════════════════════════════════════════════
-- Steps that succeed in the same way
-- ════════════════════════════════════════════════════════════════════════════

/-- Whether a step succeeds before `rest` when it succeeds in the piece alone; the values and the
remaining tokens belong together. -/
def Carries {α β : Type} (rest : List Token) (R : α → β → Prop)
    (x : Except ParseFailure (α × List Token)) (y : Except ParseFailure (β × List Token)) : Prop :=
  ∀ a ts, x = .ok (a, ts) → ∃ b us, y = .ok (b, us) ∧ R a b ∧ Before rest ts us

namespace Carries

variable {α β α' β' : Type} {rest : List Token} {R : α → β → Prop} {R' : α' → β' → Prop}

theorem ok {a : α} {b : β} {ts us : List Token} (value : R a b) (h : Before rest ts us) :
    Carries rest R (.ok (a, ts)) (.ok (b, us)) :=
  Tracks.ok value h

theorem error (e : ParseFailure) (y : Except ParseFailure (β × List Token)) :
    Carries rest R (.error e) y :=
  Tracks.error e y

/-- A step that takes a token takes none of the empty piece. -/
theorem nil {x : Answer α 0} {y : Except ParseFailure (β × List Token)} :
    Carries rest R x.plain y :=
  Tracks.nil

/-- Steps one after the other succeed in the same way. -/
theorem bind {x : Except ParseFailure (α × List Token)} {y : Except ParseFailure (β × List Token)}
    {f : α × List Token → Except ParseFailure (α' × List Token)}
    {g : β × List Token → Except ParseFailure (β' × List Token)} (h : Carries rest R x y)
    (hf : ∀ a b ts us, x = .ok (a, ts) → R a b → Before rest ts us →
      Carries rest R' (f (a, ts)) (g (b, us))) :
    Carries rest R' (x >>= f) (y >>= g) :=
  Tracks.bind h hf

/-- Steps that are chosen by the same condition succeed in the same way. -/
theorem ite {c : Prop} [Decidable c] {x x' : Except ParseFailure (α × List Token)}
    {y y' : Except ParseFailure (β × List Token)} (h : c → Carries rest R x y)
    (h' : ¬ c → Carries rest R x' y') :
    Carries rest R (if c then x else x') (if c then y else y') :=
  Tracks.ite h h'

end Carries

-- ════════════════════════════════════════════════════════════════════════════
-- Expressions
-- ════════════════════════════════════════════════════════════════════════════

section Expressions

variable (stop stop' : Token) {rest : List Token}

/-- The segments of a type name: a point is not the last token of the piece, so that the name after
it stands in both lists. -/
theorem before_typeSegments (name : Text) (ts us : List Token) (h : Before rest ts us) :
    (typeSegments stop' name us).value = (typeSegments stop name ts).value ∧
      Before rest (typeSegments stop name ts).rest (typeSegments stop' name us).rest := by
  by_cases hpoint : nextIs ts ["."] = true
  · cases h with
    | done => cases hpoint
    | @cons t u ts us same whole tail =>
      have ht : t.isSymbol "." = true := by simpa [Token.isAnyOf] using hpoint
      have hu : u.isSymbol "." = true := (Token.isSymbol_congr same _).trans ht
      cases tail with
      | done => exact absurd rfl (whole ht)
      | @cons n m ts us same' whole' tail' =>
        rw [typeSegments, typeSegments, if_pos ht, if_pos hu, Token.text_congr same']
        exact before_typeSegments n.text ts us tail'
  · have hstop : nextIs ts ["."] = false := by simpa using hpoint
    obtain ⟨hv, hr⟩ := typeSegments_stop stop name hstop
    obtain ⟨hv', hr'⟩ := typeSegments_stop stop' name ((h.nextIs (by decide)).trans hstop)
    rw [hv, hr, hv', hr']
    exact ⟨rfl, h⟩
termination_by ts.length

theorem carries_parseTypeName {ts us : List Token} (h : Before rest ts us) :
    Carries rest Eq (parseTypeName stop ts).plain (parseTypeName stop' us).plain := by
  cases h with
  | done => exact .nil
  | @cons t u ts us same whole tail =>
    rw [parseTypeName, parseTypeName, Token.isName_congr same, Token.text_congr same]
    split
    · obtain ⟨hvalue, hrest⟩ := before_typeSegments stop stop' t.text ts us tail
      exact .ok hvalue.symm hrest
    · exact .error _ _

/-- A piece and the same piece before what follows are read in tandem. -/
def Before.tandem (rest : List Token) : Tandem .eq stop stop' where
  start := Before rest
  onward := Before rest
  inType := Before rest
  start_of_onward := id
  seen h := by
    cases h with
    | done cut => exact .line (fun _ ht => nomatch ht) cut
    | cons same whole tail => exact .token (Likeness.agree_of_content same) tail fun _ => tail
  typeName := carries_parseTypeName stop stop'

theorem carries_parsePostfix (ts us : List Token) (h : Before rest ts us) :
    Carries rest Eq (parsePostfix stop ts).plain (parsePostfix stop' us).plain :=
  (Before.tandem stop stop' rest).tracks_parsePostfix ts us h

theorem carries_parseMoreArguments (ts us : List Token) (h : Before rest ts us) :
    Carries rest Eq (parseMoreArguments stop ts).plain (parseMoreArguments stop' us).plain :=
  ((Before.tandem stop stop' rest).tracks_parseMoreArguments ts us h).mono
    fun _ _ => List.forall₂_eq_eq_eq ▸ id

theorem carries_parseNew (ts us : List Token) (h : Before rest ts us) :
    Carries rest Eq (parseNew stop ts).plain (parseNew stop' us).plain :=
  ((Before.tandem stop stop' rest).tracks_parseNew ts us h).mono
    fun _ _ hsame => Prod.ext hsame.1 (List.forall₂_eq_eq_eq ▸ hsame.2)

/-- An expression is read before what does not go on with it. -/
theorem carries_parseExpr {ts us : List Token} (h : Before rest ts us) :
    Carries rest Eq (parseExpr stop ts).plain (parseExpr stop' us).plain :=
  (Before.tandem stop stop' rest).tracks_parseExpr h

end Expressions

-- ════════════════════════════════════════════════════════════════════════════
-- Simple statements
-- ════════════════════════════════════════════════════════════════════════════

section Simple

variable (stop stop' : Token) {rest : List Token}

theorem carries_parseClause {symbol : Text} (hsymbol : symbol ∈ joints) {ts us : List Token}
    (h : Before rest ts us) :
    Carries rest Eq (parseClause stop symbol ts).plain (parseClause stop' symbol us).plain := by
  cases h with
  | done cut =>
    rw [plain_parseClause_stop rfl,
      plain_parseClause_stop (nextIs_subset (List.cons_subset.2 ⟨hsymbol, List.nil_subset _⟩) cut)]
    exact .ok rfl (.done cut)
  | cons same whole tail =>
    rw [plain_parseClause_cons, plain_parseClause_cons, Token.isSymbol_congr same]
    refine .ite (fun _ => ?_) fun _ => .ok rfl (.cons same whole tail)
    refine (carries_parseExpr stop stop' tail).bind ?_
    rintro e _ ts' us' - rfl hrest
    exact .ok rfl hrest

theorem carries_parseAs {ts us : List Token} (h : Before rest ts us) :
    Carries rest Eq (parseAs stop ts).plain (parseAs stop' us).plain := by
  cases h with
  | done => exact .nil
  | @cons t u ts us same whole tail =>
    by_cases hnew : t.isSymbol "new" = true
    · rw [plain_parseAs_new stop hnew,
        plain_parseAs_new stop' ((Token.isSymbol_congr same _).trans hnew)]
      refine (carries_parseNew stop stop' ts us tail).bind ?_
      rintro ⟨name, args⟩ _ ts' us' - rfl hrest
      exact .ok rfl hrest
    · have hold : t.isSymbol "new" = false := by simpa using hnew
      rw [plain_parseAs_name stop hold,
        plain_parseAs_name stop' ((Token.isSymbol_congr same _).trans hold)]
      refine (carries_parseTypeName stop stop' (.cons same whole tail)).bind ?_
      rintro name _ ts' us' - rfl hrest
      exact .ok rfl hrest

theorem carries_parseType {ts us : List Token} (h : Before rest ts us) :
    Carries rest Eq (parseType stop ts).plain (parseType stop' us).plain := by
  cases h with
  | done cut =>
    rw [plain_parseType_stop rfl, plain_parseType_stop (nextIs_subset (by decide) cut)]
    exact .ok rfl (.done cut)
  | cons same whole tail =>
    rw [plain_parseType_cons, plain_parseType_cons, Token.isSymbol_congr same]
    exact .ite (fun _ => carries_parseAs stop stop' tail) fun _ => .ok rfl (.cons same whole tail)

theorem carries_parseDim (line line' : Line) {ts us : List Token} (h : Before rest ts us) :
    Carries rest Stmt.Matches (parseDim stop line ts).plain (parseDim stop' line' us).plain := by
  cases h with
  | done => exact .error _ _
  | cons same whole tail =>
    rw [plain_parseDim_cons, plain_parseDim_cons, Token.kind_congr same, Token.text_congr same]
    refine .ite (fun _ => ?_) fun _ => .error _ _
    refine (carries_parseType stop stop' tail).bind ?_
    rintro ⟨typeName, made⟩ _ ts' us' - rfl hrest
    refine (carries_parseClause stop stop' (by decide) hrest).bind ?_
    rintro given _ ts' us' - rfl hrest
    exact .ok rfl hrest

/-- Without a value, a `Return` must stand at the end of the line. -/
theorem carries_parseReturn (line line' : Line) {ts us : List Token} (h : Before rest ts us)
    (hbare : ts = [] → atStatementEnd rest = true) :
    Carries rest Stmt.Matches (parseReturn stop line ts).plain
      (parseReturn stop' line' us).plain := by
  have hends : atStatementEnd us = atStatementEnd ts := by
    cases h with
    | done => exact hbare rfl
    | cons same whole tail => exact Token.endsStatement_congr same
  rw [plain_parseReturn, plain_parseReturn, hends]
  refine .ite (fun _ => .ok rfl h) fun _ => ?_
  refine (carries_parseExpr stop stop' h).bind ?_
  rintro e _ ts' us' - rfl hrest
  exact .ok rfl hrest

/-- Arguments are read before what does not go on with them. -/
theorem carries_readArguments {ts us : List Token} (h : Before rest ts us) :
    Carries rest Eq (readArguments stop ts) (readArguments stop' us) := by
  refine (carries_parseExpr stop stop' h).bind ?_
  rintro first _ ts' us' - rfl hrest
  refine (carries_parseMoreArguments stop stop' ts' us' hrest).bind ?_
  rintro others _ ts' us' - rfl hrest
  exact .ok rfl hrest

/-- Whether a call without parentheses ends here. -/
def endsCall (ts : List Token) : Bool := atStatementEnd ts || nextIs ts ["else"]

theorem endsStatement_of_isSymbol {t : Token} {s : Text} (h : t.isSymbol s = true) :
    t.endsStatement = false := by
  simp only [Token.isSymbol, Bool.and_eq_true, Bool.or_eq_true, beq_iff_eq] at h
  obtain ⟨(hk | hk) | hk, -⟩ := h <;> simp [Token.endsStatement, hk]

theorem nextIs_joints_of_endsCall {ts : List Token} (h : endsCall ts = true) :
    nextIs ts joints = false := by
  cases ts with
  | nil => rfl
  | cons t ts =>
    rw [nextIs_cons, Token.isAnyOf, List.any_eq_false]
    intro s hs hsymbol
    have hend : t.endsStatement = false := endsStatement_of_isSymbol hsymbol
    have helse : t.isSymbol "else" = false :=
      isSymbol_of_isSymbol hsymbol (by rintro rfl; revert hs; decide)
    simp [endsCall, atStatementEnd, Token.isAnyOf, hend, helse] at h

theorem carries_parseClassicArguments (hends : endsCall rest = true) {ts us : List Token}
    (h : Before rest ts us) :
    Carries rest Eq (parseClassicArguments stop ts).plain
      (parseClassicArguments stop' us).plain := by
  have hsame : endsCall us = endsCall ts := by
    cases h with
    | done => exact hends
    | @cons t u ts us same whole tail =>
      have hend : atStatementEnd (u :: us) = atStatementEnd (t :: ts) :=
        Token.endsStatement_congr same
      rw [endsCall, endsCall, hend, nextIs_cons, nextIs_cons, Token.isAnyOf_congr same]
  rw [endsCall, endsCall] at hsame
  rw [plain_parseClassicArguments, plain_parseClassicArguments, hsame]
  exact .ite (fun _ => .ok rfl h) fun _ => carries_readArguments stop stop' h

theorem carries_parseExprStatement (hends : endsCall rest = true) (line line' : Line)
    {ts us : List Token} (h : Before rest ts us) :
    Carries rest MatchingSteps (parseExprStatement stop line ts).plain
      (parseExprStatement stop' line' us).plain := by
  rw [plain_parseExprStatement, plain_parseExprStatement]
  refine (carries_parsePostfix stop stop' ts us h).bind ?_
  rintro target _ ts' us' - rfl hb
  have hequals : nextIs us' ["="] = nextIs ts' ["="] := hb.nextIs (by decide)
  simp only [hequals]
  split
  · next hplace =>
    rw [Bool.and_eq_true] at hplace
    refine (carries_parseExpr stop stop' (hb.drop_one hplace.2)).bind ?_
    rintro value _ ts' us' - rfl hrest
    exact .ok rfl hrest
  · refine (carries_parseExpr stop stop' h).bind ?_
    rintro e _ ts' us' - rfl hrest
    cases e with
    | call target args => exact .ok rfl hrest
    | _ =>
      simp only
      split
      · refine (carries_parseClassicArguments stop stop' hends hrest).bind ?_
        rintro args _ ts' us' - rfl hrest
        exact .ok rfl hrest
      · exact .ok rfl hrest

end Simple

-- ════════════════════════════════════════════════════════════════════════════
-- Statements without blocks
-- ════════════════════════════════════════════════════════════════════════════

/-- Whether the statement holds no other statements. -/
def Stmt.isFlat : Stmt → Bool
  | .dim .. | .assign .. | .call .. | .ret .. | .exit .. => true
  | .cond .. | .forLoop .. | .whileLoop .. | .doLoop .. | .alien _ => false

section Flat

variable {stop : Token} {line : Line} {ts r : List Token} {s : Stmt}

theorem isFlat_of_parseCond (h : (parseCond stop line ts).plain = .ok (s, r)) :
    s.isFlat = false := by
  rw [plain_parseCond_eq] at h
  obtain ⟨⟨test, r₁⟩, -, h⟩ := bind_eq_ok h
  obtain ⟨⟨_, r₂⟩, -, h⟩ := bind_eq_ok h
  cases r₂ with
  | nil =>
    cases h
    rfl
  | cons t r₂ =>
    simp only [readCond] at h
    split at h
    · obtain ⟨_, -, h⟩ := bind_eq_ok h
      obtain ⟨_, -, h⟩ := bind_eq_ok h
      obtain ⟨_, -, h⟩ := bind_eq_ok h
      cases h
      rfl
    · obtain ⟨⟨first, r₃⟩, -, h⟩ := bind_eq_ok h
      simp only at h
      split at h
      · obtain ⟨_, -, h⟩ := bind_eq_ok h
        cases h
        rfl
      · cases h
        rfl

theorem isFlat_of_parseFor (h : (parseFor stop line ts).plain = .ok (s, r)) :
    s.isFlat = false := by
  cases ts with
  | nil =>
    rw [parseFor] at h
    cases h
  | cons v ts =>
    rw [plain_parseFor_cons] at h
    split at h
    · iterate 6 obtain ⟨_, -, h⟩ := bind_eq_ok h
      cases h
      rfl
    · cases h

theorem isFlat_of_parseWhile (h : (parseWhile stop line ts).plain = .ok (s, r)) :
    s.isFlat = false := by
  rw [plain_parseWhile] at h
  iterate 2 obtain ⟨_, -, h⟩ := bind_eq_ok h
  cases h
  rfl

theorem isFlat_of_parseDo (h : (parseDo stop line ts).plain = .ok (s, r)) : s.isFlat = false := by
  rw [plain_parseDo] at h
  split at h
  · cases h
  · iterate 2 obtain ⟨_, -, h⟩ := bind_eq_ok h
    cases h
    rfl

/-- The same of a statement that is wrapped up as one that has an effect. -/
theorem isFlat_of_step {x : Except ParseFailure (Stmt × List Token)}
    (hx : ∀ {s r}, x = .ok (s, r) → s.isFlat = false)
    (h : (do let (s, rest) ← x; return (some s, rest)) = Except.ok (some s, r)) :
    s.isFlat = false := by
  obtain ⟨_, hs, hret⟩ := bind_eq_ok h
  cases hret
  exact hx hs

end Flat

/-- Whether the statement is a word that looks for something after it, and nothing else. -/
def isBareWord (ts : List Token) : Bool :=
  ts.length == 1 && nextIs ts ["return", "exit"]

/-- Nothing is left before what follows the piece. -/
theorem Carries.whole {α β : Type} {rest : List Token} {R : α → β → Prop}
    {x : Except ParseFailure (α × List Token)} {y : Except ParseFailure (β × List Token)}
    (h : Carries rest R x y) {a : α} (hx : x = .ok (a, [])) :
    ∃ b, y = .ok (b, rest) ∧ R a b := by
  obtain ⟨b, us, hy, value, hrest⟩ := h a [] hx
  cases hrest
  exact ⟨b, hy, value⟩

/-- An `Exit` takes one word, whatever it is, unless the line ends. -/
theorem parseExit_before (line line' : Line) {ts us rest : List Token}
    (hsame : us.map Token.content = ts.map Token.content) (hwhole : (parseExit line ts).rest = [])
    (hbare : ts = [] → atStatementEnd rest = true) :
    (parseExit line' (us ++ rest)).rest = rest ∧
      (parseExit line ts).value.Matches (parseExit line' (us ++ rest)).value := by
  cases ts with
  | nil =>
    obtain rfl := List.map_eq_nil_iff.1 hsame
    obtain ⟨hvalue, hrest⟩ := parseExit_of_atStatementEnd line' (hbare rfl)
    refine ⟨hrest, ?_⟩
    rw [List.nil_append, hvalue]
    rfl
  | cons t ts =>
    obtain ⟨u, us, rfl, same, hus⟩ := List.map_eq_cons_iff.1 hsame
    have hword : t.endsStatement = false := by
      rw [Bool.eq_false_iff]
      intro hend
      have hend : atStatementEnd (t :: ts) = true := hend
      rw [(parseExit_of_atStatementEnd line hend).2] at hwhole
      cases hwhole
    have hword' : u.endsStatement = false := (Token.endsStatement_congr same).trans hword
    simp only [parseExit, hword, hword', List.cons_append, Token.text_congr same] at hwhole ⊢
    obtain rfl : ts = [] := hwhole
    obtain rfl := List.map_eq_nil_iff.1 hus
    exact ⟨rfl, rfl⟩

/-- A declaration, an assignment, a call, a return or an exit that is read by itself is read in the
same way before the end of the line or an `Else`, if a point at its end is the word of an `Exit`. A
`Return` or an `Exit` without anything after it is read so before the end of the line only. -/
theorem carries_parseStatement (stop stop' : Token) {t u : Token} {ts us rest : List Token}
    {a : Stmt} (h : (parseStatement stop t ts).plain = .ok (some a, [])) (flat : a.isFlat = true)
    (same : u.content = t.content) (hsame : us.map Token.content = ts.map Token.content)
    (whole : t.isSymbol "exit" = false → endsWithPoint (t :: ts) = false) (hends : endsCall rest = true)
    (bare : isBareWord (t :: ts) = true → atStatementEnd rest = true) :
    ∃ b, (parseStatement stop' u (us ++ rest)).plain = .ok (some b, rest) ∧ a.Matches b := by
  have hbefore : t.isSymbol "exit" = false → Before rest (t :: ts) (u :: (us ++ rest)) := by
    intro hexit
    rw [← List.cons_append]
    refine .append (nextIs_joints_of_endsCall hends) ?_ (whole hexit)
    rw [List.map_cons, List.map_cons, same, hsame]
  rw [plain_parseStatement] at h ⊢
  simp only [Token.isSymbol_congr same]
  split at h
  · next hdim =>
    obtain ⟨⟨s, _⟩, hs, hret⟩ := bind_eq_ok h
    cases hret
    have htail := (hbefore (isSymbol_of_isSymbol hdim (by decide))).tail
    obtain ⟨b, hb, hmatch⟩ := (carries_parseDim stop stop' t.line u.line htail).whole hs
    exact ⟨b, by rw [if_pos hdim, hb]; rfl, hmatch⟩
  next hdim =>
  split at h
  · exact absurd (isFlat_of_step isFlat_of_parseCond h) (by simp [flat])
  next hif =>
  split at h
  · exact absurd (isFlat_of_step isFlat_of_parseFor h) (by simp [flat])
  next hfor =>
  split at h
  · exact absurd (isFlat_of_step isFlat_of_parseWhile h) (by simp [flat])
  next hwhile =>
  split at h
  · exact absurd (isFlat_of_step isFlat_of_parseDo h) (by simp [flat])
  next hdo =>
  rw [if_neg hdim, if_neg hif, if_neg hfor, if_neg hwhile, if_neg hdo]
  split at h
  · next hreturn =>
    obtain ⟨⟨s, _⟩, hs, hret⟩ := bind_eq_ok h
    cases hret
    have hbare : ts = [] → atStatementEnd rest = true := by
      rintro rfl
      exact bare (by simp [isBareWord, Token.isAnyOf, hreturn])
    have htail := (hbefore (isSymbol_of_isSymbol hreturn (by decide))).tail
    obtain ⟨b, hb, hmatch⟩ := (carries_parseReturn stop stop' t.line u.line htail hbare).whole hs
    exact ⟨b, by rw [if_pos hreturn, hb]; rfl, hmatch⟩
  next hreturn =>
  rw [if_neg hreturn]
  split at h
  · next hexit =>
    rw [if_pos hexit]
    obtain ⟨hvalue, hwhole⟩ := Prod.mk.inj (Except.ok.inj h)
    have hbare : ts = [] → atStatementEnd rest = true := by
      rintro rfl
      exact bare (by simp [isBareWord, Token.isAnyOf, hexit])
    obtain ⟨hrest, hmatch⟩ := parseExit_before t.line u.line hsame hwhole hbare
    rw [Option.some.inj hvalue] at hmatch
    exact ⟨_, by rw [hrest], hmatch⟩
  next hexit =>
  split at h
  · cases h
  next hend =>
  rw [if_neg hexit, if_neg hend]
  have hwhole := hbefore (by simpa using hexit)
  obtain ⟨o, ho, hmatch⟩ :=
    (carries_parseExprStatement stop stop' hends t.line u.line hwhole).whole h
  cases o with
  | none => cases hmatch
  | some b => exact ⟨b, ho, (List.cons.inj hmatch).1⟩

end FormBasic
