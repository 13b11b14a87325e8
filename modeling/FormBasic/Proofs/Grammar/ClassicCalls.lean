import FormBasic.Proofs.Grammar.SingleLine

/-!
# Calls without parentheses

The arguments of a call that is a statement of its own may stand after the target without
parentheses. Such a statement is first read as an expression, so a first argument whose text starts
with a minus sign makes a difference of the target and the argument, and one whose text starts with
a parenthesis makes a call of the target inside the argument. No other first argument goes on with
the target.

## Main definitions

* `Expr.isChain` - names, and names joined by points
* `classicCall`, `callText` - the two ways to write a call
* `joinsName` - texts that go on with the name before them

## Main statements

* `exists_plain_parseExprStatement_eq_call` - what both ways to write a call are read as
* `not_matchingBlocks_of_joins` - what a first argument does that goes on with the target
* `classicCall_matches_callText_iff` - when both are read as the same call
-/

namespace FormBasic

open Token (Content)

/-- Whether the expression is a name, or names joined by points. -/
def Expr.isChain : Expr → Bool
  | .ident _ => true
  | .member object _ => object.isChain
  | _ => false

/-- A call without parentheses. -/
def classicCall (target : Text) (args : List Text) : Text := target ++ " " ++ commaSeparated args

/-- A call with parentheses. -/
def callText (target : Text) (args : List Text) : Text :=
  target ++ parenthesized (commaSeparated args)

/-- The signs that go on with a name and that an expression may start with. -/
def isJoiningChar (c : Char) : Bool := c == '-' || c == '('

/-- Whether the text starts with a sign that goes on with the name before it. -/
def joinsName (s : Text) : Bool := startsWith isJoiningChar s.toList

/-- Whether the first token of the written expression goes on with a name before it. -/
def Expr.joins : Expr → Bool
  | .member o _ | .index o _ | .call o _ | .binary _ o _ => !o.isSimple || o.joins
  | .unary op _ => op == .neg
  | _ => false

-- ════════════════════════════════════════════════════════════════════════════
-- First characters and first tokens
-- ════════════════════════════════════════════════════════════════════════════

/-- Whether the text has a first character, and whether this one goes on with a name. -/
def Begins (text : Text) (joins : Bool) : Prop :=
  ∃ c cs, text.toList = c :: cs ∧ CodePoint.satisfies isJoiningChar c = joins

theorem Begins.append {text : Text} {joins : Bool} (h : Begins text joins) (text' : Text) :
    Begins (text ++ text') joins := by
  obtain ⟨c, cs, htext, hc⟩ := h
  exact ⟨c, cs ++ text'.toList, by rw [Text.toList_append, htext, List.cons_append], hc⟩

theorem Begins.atom {text : Text} {joins : Bool} (h : Begins text joins) (simple : Bool) :
    Begins (if simple then text else parenthesized text) (!simple || joins) := by
  cases simple with
  | true => exact h
  | false =>
    have hopen : Begins "(" true := ⟨_, _, rfl, by decide⟩
    exact (hopen.append text).append ")"

theorem Begins.joinsName_eq {text : Text} {joins : Bool} (h : Begins text joins) :
    joinsName text = joins := by
  obtain ⟨c, cs, htext, hc⟩ := h
  rw [joinsName, htext]
  exact hc

theorem isJoiningChar_of_isIdentChar {c : Char} (h : isIdentChar c = true) :
    isJoiningChar c = false := by
  rw [isJoiningChar, Bool.or_eq_false_iff, beq_eq_false_iff_ne, beq_eq_false_iff_ne]
  exact ⟨ne_of_isIdentChar h (by decide), ne_of_isIdentChar h (by decide)⟩

theorem begins_of_isIdentifier {s : Text} (h : s.isIdentifier = true) : Begins s false := by
  obtain ⟨c, cs, rfl, hc, -⟩ := exists_chars_of_isIdentifier h
  exact ⟨_, _, Text.toList_ofChars _, isJoiningChar_of_isIdentChar (isIdentChar_of_isIdentStart hc)⟩

theorem begins_of_isNumeral {s : Text} (h : isNumeral s = true) : Begins s false := by
  obtain ⟨c, cs, rfl, hcs⟩ := chars_of_isNumeral h
  refine ⟨_, _, Text.toList_ofChars _, ?_⟩
  rcases hcs c List.mem_cons_self with hc | rfl
  · exact isJoiningChar_of_isIdentChar (isIdentChar_of_isDigitChar hc)
  · decide

theorem begins_literal {n : Number} (h : n.readsBack = true) {text : Text}
    (htext : n.literal = .ok text) : Begins text false := by
  rw [Number.readsBack, htext] at h
  exact begins_of_isNumeral (Bool.and_eq_true_iff.1 h).1

/-- The first character of a written expression tells whether it goes on with a name. -/
theorem Expr.begins_write : ∀ e : Expr, e.legible = true → ∀ text, e.write = .ok text →
    Begins text e.joins
  | .number n, h, text, htext => by
    simp only [Expr.legible, Expr.every, Expr.fits, Expr.isClear, Bool.true_and] at h
    exact begins_literal h htext
  | .string s, _, _, rfl => by
    have hquote : Begins "\"" false := ⟨_, _, rfl, by decide⟩
    exact (hquote.append s).append "\""
  | .boolean b, _, _, rfl => by cases b <;> exact ⟨_, _, rfl, by decide⟩
  | .nothing, _, _, rfl => ⟨_, _, rfl, by decide⟩
  | .ident name, h, _, rfl => by
    simp only [Expr.legible, Expr.every, Expr.fits, Expr.isClear, Bool.true_and] at h
    exact begins_of_isIdentifier (isIdentifier_of_isReferenceName h)
  | .member o property, h, text, htext => by
    simp only [Expr.legible, Expr.every, Bool.and_eq_true] at h
    obtain ⟨target, htarget, hret⟩ := bind_eq_ok htext
    cases hret
    exact (((o.begins_write h.2 target htarget).atom o.isSimple).append ".").append property
  | .index _ _, h, _, _ => by
    simp [Expr.legible, Expr.every, Expr.fits] at h
  | .call callee args, h, text, htext => by
    simp only [Expr.legible, Expr.every, Bool.and_eq_true] at h
    obtain ⟨target, htarget, htext⟩ := bind_eq_ok htext
    obtain ⟨texts, -, hret⟩ := bind_eq_ok htext
    cases hret
    exact ((callee.begins_write h.1.2 target htarget).atom callee.isSimple).append _
  | .binary op l r, h, text, htext => by
    simp only [Expr.legible, Expr.every, Bool.and_eq_true] at h
    obtain ⟨left, hleft, htext⟩ := bind_eq_ok htext
    obtain ⟨right, -, hret⟩ := bind_eq_ok htext
    cases hret
    have hbegins := (l.begins_write h.1.2 left hleft).atom l.isSimple
    exact (((hbegins.append " ").append op.spelling).append " ").append _
  | .unary op o, h, text, htext => by
    simp only [Expr.legible, Expr.every, Expr.fits, Expr.isClear, Bool.and_true,
      Bool.and_eq_true, Bool.or_eq_true, beq_iff_eq] at h
    obtain ⟨operand, -, hret⟩ := bind_eq_ok htext
    cases hret
    have hspelling : Begins op.spelling (op == .neg) := by
      rcases h.1 with rfl | rfl
      · exact ⟨.char '-', [], by decide +kernel, by decide⟩
      · exact ⟨.char 'N', [.char 'o', .char 't', .char ' '], by decide +kernel, by decide⟩
    exact hspelling.append _
  | .alien _, h, _, _ => by
    simp [Expr.legible, Expr.every, Expr.fits] at h

theorem isAnyOf_continuations_ofName {s : Text} (h : isReferenceName s = true) :
    (Content.ofName s).token.isAnyOf continuations = false := by
  simp only [isReferenceName, Bool.or_eq_true, beq_iff_eq, List.contains_iff_mem] at h
  rcases h with (h | rfl) | h
  · rw [ofName_of_isPlainName h]
    rfl
  · decide
  · have hall : ∀ s ∈ typeKeywords, (Content.ofName s).token.isAnyOf continuations = false := by
      decide
    exact hall s h

/-- The first token of a written expression that does not go on with a name. -/
theorem Expr.exists_head_of_joins : ∀ e : Expr, e.legible = true → e.joins = false →
    ∃ c ws, e.contents = c :: ws ∧ c.token.isAnyOf continuations = false
  | .number _, _, _ | .string _, _, _ | .nothing, _, _ => ⟨_, _, rfl, rfl⟩
  | .boolean b, _, _ => ⟨_, _, rfl, by cases b <;> decide⟩
  | .ident name, h, _ => by
    simp only [Expr.legible, Expr.every, Expr.fits, Expr.isClear, Bool.true_and] at h
    exact ⟨_, _, rfl, isAnyOf_continuations_ofName h⟩
  | .member o _, h, hjoins => by
    simp only [Expr.legible, Expr.every, Bool.and_eq_true] at h
    simp only [Expr.joins, Bool.or_eq_false_iff, Bool.not_eq_false'] at hjoins
    obtain ⟨c, ws, hws, hc⟩ := o.exists_head_of_joins h.2 hjoins.2
    exact ⟨c, _, by rw [Expr.contents, if_pos hjoins.1, hws, List.cons_append], hc⟩
  | .call o _, h, hjoins => by
    simp only [Expr.legible, Expr.every, Bool.and_eq_true] at h
    simp only [Expr.joins, Bool.or_eq_false_iff, Bool.not_eq_false'] at hjoins
    obtain ⟨c, ws, hws, hc⟩ := o.exists_head_of_joins h.1.2 hjoins.2
    exact ⟨c, _, by rw [Expr.contents, if_pos hjoins.1, hws, List.cons_append], hc⟩
  | .binary _ l _, h, hjoins => by
    simp only [Expr.legible, Expr.every, Bool.and_eq_true] at h
    simp only [Expr.joins, Bool.or_eq_false_iff, Bool.not_eq_false'] at hjoins
    obtain ⟨c, ws, hws, hc⟩ := l.exists_head_of_joins h.1.2 hjoins.2
    exact ⟨c, _, by rw [Expr.contents, if_pos hjoins.1, hws, List.cons_append], hc⟩
  | .unary op o, h, hjoins => by
    simp only [Expr.legible, Expr.every, Expr.fits, Expr.isClear, Bool.and_true,
      Bool.and_eq_true, Bool.or_eq_true, beq_iff_eq] at h
    obtain ⟨rfl | rfl, -⟩ := h
    · cases hjoins
    · exact ⟨_, _, rfl, by decide⟩
  | .index _ _, h, _ | .alien _, h, _ => by
    simp [Expr.legible, Expr.every, Expr.fits] at h

-- ════════════════════════════════════════════════════════════════════════════
-- A first argument that does not go on with the target
-- ════════════════════════════════════════════════════════════════════════════

/-- A chain of names is read back as it is. -/
theorem Expr.eq_of_isChain : ∀ e : Expr, e.isChain = true → ∀ e', e.same e' = true → e' = e
  | .ident name, _, e', hsame => by
    cases e' <;> simp [Expr.same] at hsame
    rw [hsame]
  | .member o property, h, e', hsame => by
    cases e' <;> simp [Expr.same] at hsame
    rw [o.eq_of_isChain h _ hsame.1, hsame.2]

theorem Expr.isPlace_of_isChain {e : Expr} (h : e.isChain = true) : e.isPlace = true := by
  cases e <;> first | rfl | cases h

section Reading

variable {stop : Token} {target first : Expr} {others : List Expr} {us vs : List Token}

/-- An operand that nothing goes on with is a whole expression. -/
theorem plain_parseExpr_of_parsePostfix {t : Token} {c : Content} (ht : t.content = c)
    (hc : c.opens = true) {ts rest : List Token} {e : Expr}
    (h : (parsePostfix stop (t :: ts)).plain = .ok (e, rest)) (hrest : Closed rest) :
    (parseExpr stop (t :: ts)).plain = .ok (e, rest) := by
  have hnext : ∀ s ∉ openers, nextIs (t :: ts) [s] = false := fun s hs =>
    nextIs_of_opens hc ht ts fun _ hmem => List.mem_singleton.1 hmem ▸ hs
  have hsigned :=
    (plain_parseSigned_of_suffixed (hnext "-" (by decide)) (hnext "+" (by decide))).trans h
  refine plain_parseBinary_of_operand ?_ (hrest.operators _)
  exact plain_parseOperand_of_signed hsigned (hnext "not" (by decide)) _
    fun level _ => hrest.operators level

/-- A first argument that does not go on with a name, after a name. -/
theorem closed_of_joins (h : legibleExprs (first :: others) = true) (hjoins : first.joins = false)
    (hvs : vs.map Token.content = argumentContents (first :: others)) : Closed vs := by
  simp only [legibleExprs, everyExpr, Bool.and_eq_true] at h
  obtain ⟨c, ws, hws, hc⟩ := first.exists_head_of_joins h.1 hjoins
  rw [argumentContents, hws] at hvs
  obtain ⟨v, vs, rfl, hv, -⟩ := List.map_eq_cons_iff.1 hvs
  exact closed_of_content hv hc vs

/-- The tokens of arguments are read as the arguments, whatever follows that does not go on with
them. -/
theorem exists_readArguments (stop : Token) (h : legibleExprs (first :: others) = true)
    (hvs : vs.map Token.content = argumentContents (first :: others)) :
    ∃ args, sameExprs (first :: others) args = true ∧ ∀ rest, Closed rest →
      nextIs rest [","] = false → readArguments stop (vs ++ rest) = .ok (args, rest) := by
  simp only [legibleExprs, everyExpr, Bool.and_eq_true] at h
  obtain ⟨vs, vs', rfl, hvs, hvs'⟩ := List.map_eq_append_iff.1 hvs
  obtain ⟨e, hsame, hfirst⟩ := (first.reads stop h.1).2 vs hvs
  obtain ⟨es, hsame', hothers⟩ := readsMore stop others h.2 vs' hvs'
  refine ⟨e :: es, by simp [sameExprs, hsame, hsame'], fun rest hrest hcomma => ?_⟩
  obtain ⟨hclosed, hmore⟩ := hothers rest hrest hcomma
  rw [List.append_assoc, readArguments, hfirst _ hclosed]
  simp only [bind, Except.bind, hmore]
  rfl

/-- What a statement that is a call is read as. -/
theorem plain_parseExprStatement_call (line : Line) {ts rest : List Token} {callee : Expr}
    {args : List Expr} (hreads : (parsePostfix stop ts).plain = .ok (.call callee args, rest))
    (hexpr : (parseExpr stop ts).plain = .ok (.call callee args, rest)) :
    (parseExprStatement stop line ts).plain = .ok (some (.call callee args line), rest) := by
  rw [plain_parseExprStatement, hreads]
  simp only [bind, Except.bind, Expr.isPlace, Bool.false_and, Bool.false_eq_true, if_false, hexpr]
  rfl

/-- What a statement that starts with a chain of names is read as. -/
theorem plain_parseExprStatement_chain (line : Line) {ts rest : List Token} {e : Expr}
    (hchain : e.isChain = true) (hreads : (parsePostfix stop ts).plain = .ok (e, rest))
    (hexpr : (parseExpr stop ts).plain = .ok (e, rest)) (hequals : nextIs rest ["="] = false) :
    (parseExprStatement stop line ts).plain = (do
      let (args, rest) ← (parseClassicArguments stop rest).plain
      return (some (.call e args line), rest)) := by
  rw [plain_parseExprStatement, hreads]
  simp only [bind, Except.bind, hequals, Bool.and_false, Bool.false_eq_true, if_false, hexpr]
  cases e with
  | ident name => rfl
  | member o property => rfl
  | _ => cases hchain

/-- A chain of names starts with a token that an operand starts with. -/
theorem exists_head_of_isChain (hchain : target.isChain = true) (htarget : target.legible = true) :
    ∃ c ws, target.contents = c :: ws ∧ c.opens = true := by
  have hsimple := isSimple_of_isPlace (Expr.isPlace_of_isChain hchain)
  obtain ⟨c, ws, hws, hc⟩ := exists_head_atomContents target htarget
  rw [Expr.atomContents, if_pos hsimple] at hws
  exact ⟨c, ws, hws, hc⟩

/-- Arguments start neither with a closing parenthesis nor with the end of a line. -/
theorem exists_head_of_arguments (h : legibleExprs (first :: others) = true)
    (hvs : vs.map Token.content = argumentContents (first :: others)) :
    ∃ v vs', vs = v :: vs' ∧ v.isAnyOf [")"] = false ∧ v.endsStatement = false := by
  simp only [legibleExprs, everyExpr, Bool.and_eq_true] at h
  obtain ⟨c, ws, hws, hc, hend⟩ := exists_head_contents first h.1
  rw [argumentContents, hws] at hvs
  obtain ⟨v, vs, rfl, hv, -⟩ := List.map_eq_cons_iff.1 hvs
  exact ⟨v, vs, rfl, (isAnyOf_of_content hv _).trans hc, (endsStatement_of_content hv).trans hend⟩

/-- Arguments without parentheses are read as the arguments. -/
theorem plain_parseClassicArguments_of_read {args : List Expr}
    (h : legibleExprs (first :: others) = true)
    (hvs : vs.map Token.content = argumentContents (first :: others))
    (hread : readArguments stop vs = .ok (args, [])) :
    (parseClassicArguments stop vs).plain = .ok (args, []) := by
  obtain ⟨v, vs, rfl, -, hend⟩ := exists_head_of_arguments h hvs
  have hend : atStatementEnd (v :: vs) = false := hend
  have hword : nextIs (v :: vs) foreignWords = false := by
    rw [nextIs_cons, Bool.eq_false_iff]
    intro hforeign
    obtain ⟨failure, hfails⟩ := exists_plain_parseExpr_error_of_foreign stop hforeign vs
    obtain ⟨_, hfirst, -⟩ := bind_eq_ok hread
    rw [parseExpr] at hfails
    rw [hfails] at hfirst
    cases hfirst
  have helse : nextIs (v :: vs) ["else"] = false := nextIs_subset (by decide) hword
  rw [plain_parseClassicArguments, hend, helse]
  exact hread

/-- Both ways to write a call are read as the call, the one without parentheses if the first
argument does not go on with the target. -/
theorem exists_plain_parseExprStatement_eq_call (stop : Token) (hchain : target.isChain = true)
    (htarget : target.legible = true) (hargs : legibleExprs (first :: others) = true)
    (hus : us.map Token.content = target.contents)
    (hvs : vs.map Token.content = argumentContents (first :: others)) :
    ∃ args, sameExprs (first :: others) args = true ∧
      (first.joins = false → ∀ line, (parseExprStatement stop line (us ++ vs)).plain =
        .ok (some (.call target args line), [])) ∧
      ∀ l r : Token, l.content = .punctuation "(" → r.content = .punctuation ")" → ∀ line,
        (parseExprStatement stop line (us ++ l :: (vs ++ [r]))).plain =
          .ok (some (.call target args line), []) := by
  have hatom : target.atomContents = target.contents :=
    if_pos (isSimple_of_isPlace (Expr.isPlace_of_isChain hchain))
  obtain ⟨c, ws, hws, hc⟩ := exists_head_of_isChain hchain htarget
  obtain ⟨target', hsame, hreads⟩ := (target.reads stop htarget).1 us (hus.trans hatom.symm)
  obtain rfl := (target.eq_of_isChain hchain target' hsame).symm
  obtain ⟨args, hsameArgs, hread⟩ := exists_readArguments stop hargs hvs
  obtain ⟨u, us, rfl, hu, -⟩ := List.map_eq_cons_iff.1 (hus.trans hws)
  refine ⟨args, hsameArgs, fun hjoins line => ?_, fun l r hl hr line => ?_⟩
  · have hclosed : Closed vs := closed_of_joins hargs hjoins hvs
    have hoperand := (hreads vs).trans (plain_parseSuffixes_stop hclosed.suffixes)
    have hexpr := plain_parseExpr_of_parsePostfix hu hc hoperand hclosed
    have hequals : nextIs vs ["="] = false := nextIs_subset (by decide) hclosed
    have hread := hread [] rfl rfl
    rw [List.append_nil] at hread
    rw [plain_parseExprStatement_chain line hchain hoperand hexpr hequals,
      plain_parseClassicArguments_of_read hargs hvs hread]
    rfl
  · have hclose : Closed [r] := closed_of_content hr (by decide) []
    have hread := hread [r] hclose (by rw [nextIs_cons, isAnyOf_of_content hr]; decide)
    have hbarred : nextIs (vs ++ [r]) [")"] = false := by
      obtain ⟨v, vs, rfl, hv, -⟩ := exists_head_of_arguments hargs hvs
      exact hv
    have hopen : l.isSymbol "(" = true := (isSymbol_of_content hl _).trans (by decide)
    have hsuffix : (parseSuffixes stop target (l :: (vs ++ [r]))).plain =
        .ok (.call target args, []) :=
      (more_suffixed_call hopen (plain_parseArguments_of_read hbarred
        ((isSymbol_of_content hr _).trans (by decide)) hread)).trans (Rank.more_eq rfl)
    have hoperand := (hreads (l :: (vs ++ [r]))).trans hsuffix
    exact plain_parseExprStatement_call line hoperand
      (plain_parseExpr_of_parsePostfix hu hc hoperand rfl)

/-- A call is read as the same call from all tokens that say the same. -/
theorem exists_plain_parseExprStatement_congr (stop' : Token) (line' : Line) {line : Line}
    {ts ts' : List Token} {callee : Expr} {args : List Expr}
    (h : (parseExprStatement stop line ts).plain = .ok (some (.call callee args line), []))
    (hts : ts'.map Token.content = ts.map Token.content) (whole : endsWithPoint ts = false) :
    ∃ l, (parseExprStatement stop' line' ts').plain = .ok (some (.call callee args l), []) := by
  have hcut : nextIs [] joints = false := rfl
  have hbefore : Before [] ts ts' := by simpa using Before.append hcut hts whole
  obtain ⟨o, ho, hmatch⟩ :=
    (carries_parseExprStatement stop stop' rfl line line' hbefore).whole h
  cases o with
  | none => cases hmatch
  | some s =>
    have hs : s.unplaced = (Stmt.call callee args line).unplaced := (List.cons.inj hmatch).1
    cases s <;> cases hs
    exact ⟨_, ho⟩

end Reading

-- ════════════════════════════════════════════════════════════════════════════
-- A first argument that goes on with the target
-- ════════════════════════════════════════════════════════════════════════════

/-- Whether the expression, as a statement of its own, would call a chain of names. -/
def Expr.callsChain : Expr → Bool
  | .call callee _ => callee.isChain
  | e => e.isChain

theorem Expr.isChain_of_callsChain {e : Expr} (h : e.callsChain = false) : e.isChain = false := by
  cases e <;> first | exact h | rfl

theorem Expr.isChain_of_same : ∀ e e' : Expr, e.same e' = true → e'.isChain = e.isChain
  | .member o _, e', h => by
    cases e' with
    | member o' property =>
      simp only [Expr.same, Bool.and_eq_true] at h
      exact o.isChain_of_same o' h.1
    | _ => simp [Expr.same] at h
  | .ident _, e', h | .number _, e', h | .string _, e', h | .boolean _, e', h | .nothing, e', h
  | .index _ _, e', h | .call _ _, e', h | .binary _ _ _, e', h | .unary _ _, e', h
  | .alien _, e', h => by
    cases e' <;> first | rfl | simp [Expr.same] at h

theorem Expr.callsChain_of_same {e e' : Expr} (h : e.same e' = true) :
    e'.callsChain = e.callsChain := by
  have hchain := e.isChain_of_same e' h
  cases e with
  | call callee args =>
    obtain ⟨callee', args', rfl, hcallee, -⟩ := eq_call_of_same h
    exact callee.isChain_of_same callee' hcallee
  | _ => cases e' <;> first | exact hchain | simp [Expr.same] at h

/-- What the tokens of a target and of an expression that goes on with it make together. -/
structure Merges (target e x : Expr) : Prop where
  legible : x.legible = true
  contents : x.contents = target.contents ++ e.contents
  simple : x.isSimple = e.isSimple
  callsChain : x.callsChain = false

section Merging

variable {target : Expr}

/-- The first operand of an expression that goes on with a target. -/
theorem exists_merged_operand (hsimple : target.isSimple = true) (htarget : target.legible = true)
    {o : Expr} (ho : o.legible = true) (hjoins : (!o.isSimple || o.joins) = true)
    (ih : o.joins = true → ∃ x, Merges target o x) :
    ∃ x : Expr, x.legible = true ∧ x.isSimple = true ∧ x.isChain = false ∧
      x.contents = target.contents ++ if o.isSimple then o.contents else enclosed o.contents := by
  cases hs : o.isSimple with
  | true =>
    rw [hs] at hjoins
    obtain ⟨x, hx⟩ := ih hjoins
    exact ⟨x, hx.legible, hx.simple.trans hs, Expr.isChain_of_callsChain hx.callsChain, hx.contents⟩
  | false =>
    refine ⟨.call target [o], ?_, rfl, rfl, ?_⟩
    · simp only [Expr.legible, Expr.every, everyExpr, Bool.and_eq_true]
      exact ⟨⟨⟨rfl, rfl⟩, htarget⟩, ho, trivial⟩
    · simp [Expr.contents, argumentContents, moreContents, hsimple]

/-- The tokens of a target and of an expression that goes on with it make one expression, in which
the target is the left operand of a difference or is called. -/
theorem Expr.exists_merges (hsimple : target.isSimple = true) (htarget : target.legible = true) :
    ∀ e : Expr, e.legible = true → e.joins = true → ∃ x, Merges target e x
  | .member o property, h, hjoins => by
    simp only [Expr.legible, Expr.every, Bool.and_eq_true] at h
    obtain ⟨x, hlegible, hx, hchain, hcontents⟩ :=
      exists_merged_operand hsimple htarget h.2 hjoins (o.exists_merges hsimple htarget h.2)
    refine ⟨.member x property, ?_, ?_, rfl, hchain⟩
    · simp only [Expr.legible, Expr.every, Bool.and_eq_true]
      exact ⟨h.1, hlegible⟩
    · rw [Expr.contents, Expr.contents, if_pos hx, hcontents, List.append_assoc]
  | .call callee args, h, hjoins => by
    simp only [Expr.legible, Expr.every, Bool.and_eq_true] at h
    obtain ⟨x, hlegible, hx, hchain, hcontents⟩ :=
      exists_merged_operand hsimple htarget h.1.2 hjoins (callee.exists_merges hsimple htarget h.1.2)
    refine ⟨.call x args, ?_, ?_, rfl, hchain⟩
    · simp only [Expr.legible, Expr.every, Bool.and_eq_true]
      exact ⟨⟨h.1.1, hlegible⟩, h.2⟩
    · rw [Expr.contents, Expr.contents, if_pos hx, hcontents, List.append_assoc]
  | .binary op l r, h, hjoins => by
    simp only [Expr.legible, Expr.every, Bool.and_eq_true] at h
    obtain ⟨x, hlegible, hx, -, hcontents⟩ :=
      exists_merged_operand hsimple htarget h.1.2 hjoins (l.exists_merges hsimple htarget h.1.2)
    refine ⟨.binary op x r, ?_, ?_, rfl, rfl⟩
    · simp only [Expr.legible, Expr.every, Bool.and_eq_true]
      exact ⟨⟨h.1.1, hlegible⟩, h.2⟩
    · rw [Expr.contents, Expr.contents, if_pos hx, hcontents, List.append_assoc]
  | .unary op o, h, hjoins => by
    simp only [Expr.legible, Expr.every, Bool.and_eq_true] at h
    obtain rfl : op = .neg := beq_iff_eq.1 hjoins
    refine ⟨.binary .sub target o, ?_, ?_, rfl, rfl⟩
    · simp only [Expr.legible, Expr.every, Bool.and_eq_true]
      exact ⟨⟨⟨rfl, rfl⟩, htarget⟩, h.2⟩
    · rw [Expr.contents, Expr.contents, if_pos hsimple]
      rfl
  | .index _ _, h, _ | .alien _, h, _ => by
    simp [Expr.legible, Expr.every, Expr.fits] at h
  | .number _, _, hjoins | .string _, _, hjoins | .boolean _, _, hjoins | .nothing, _, hjoins
  | .ident _, _, hjoins => by cases hjoins

end Merging

section Apart

variable {stop : Token} {target first : Expr} {others : List Expr} {ts rest : List Token}

/-- A statement that is read as an expression calls the chain of names that the expression calls,
or none. -/
theorem isChain_of_parseExprStatement {line : Line} {e : Expr} {o : Option Stmt} {r : List Token}
    (hexpr : (parseExpr stop ts).plain = .ok (e, rest)) (he : e.callsChain = false)
    (h : (parseExprStatement stop line ts).plain = .ok (o, r)) :
    (o = none ∧ r = rest) ∨
      ∃ s, o = some s ∧ ∀ callee args l, s = .call callee args l → callee.isChain = false := by
  rw [plain_parseExprStatement] at h
  obtain ⟨⟨place, r₁⟩, -, h⟩ := bind_eq_ok h
  simp only at h
  split at h
  · obtain ⟨⟨value, r₂⟩, -, hret⟩ := bind_eq_ok h
    cases hret
    exact .inr ⟨_, rfl, fun _ _ _ hs => nomatch hs⟩
  · rw [hexpr] at h
    simp only [bind, Except.bind] at h
    cases e with
    | call callee args =>
      cases h
      exact .inr ⟨_, rfl, by rintro _ _ _ ⟨⟩; exact he⟩
    | _ =>
      simp only at h
      split at h
      · obtain ⟨⟨args, r₂⟩, -, hret⟩ := bind_eq_ok h
        cases hret
        exact .inr ⟨_, rfl, by rintro _ _ _ ⟨⟩; exact he⟩
      · cases h
        exact .inl ⟨rfl, rfl⟩

/-- No block starts with a comma. -/
theorem exists_plain_parseBlock_error_of_comma (stop : Token) {t : Token}
    (h : t.content = .punctuation ",") (ts : List Token) :
    ∃ failure, (parseBlock stop .handler (t :: ts)).plain = .error failure := by
  have hcomma : t.isSymbol "," = true := (isSymbol_of_content h _).trans (by decide)
  have hopen : (atHandlerEnd (t :: ts) || Closer.handler.closes (t :: ts)) = false := by
    rw [Bool.eq_false_iff]
    intro hclose
    have hforeign := nextIs_of_closes hclose
    rw [nextIs_cons, isAnyOf_of_content h] at hforeign
    revert hforeign
    decide
  obtain ⟨failure, hfails⟩ :=
    exists_plain_parsePrimary_error_of_symbol stop hcomma rfl (by decide) (by decide) ts
  have hstatement : (parseStatement stop t ts).plain = .error failure := by
    rw [plain_parseStatement]
    iterate 8
      rw [if_neg (by rw [isSymbol_of_isSymbol hcomma (by decide)]; exact Bool.false_ne_true)]
    rw [plain_parseExprStatement, plain_parsePostfix, hfails]
    rfl
  refine ⟨failure, ?_⟩
  rw [plain_parseBlock, skipNewlines_cons_other (by rw [Token.kind_of_content h]; decide)]
  simp only [hopen, Bool.false_eq_true, if_false, hstatement]
  rfl

/-- A statement that starts with an operand is read as an expression. -/
theorem exists_exprStatement_of_parseBody {text : Text} {t : Token} {c : Content}
    {body : List Stmt} (htokens : tokensOf text = t :: ts) (ht : t.content = c)
    (hc : c.opens = true) (h : parseBody text = .ok body) (hne : body ≠ []) :
    ∃ o r others r',
      (parseExprStatement (Stream.ofSource text).stop t.line (t :: ts)).plain = .ok (o, r) ∧
      (parseBlock (Stream.ofSource text).stop .handler r).plain = .ok (others, r') ∧
      body = o.toList ++ others := by
  have hkind : t.kind ≠ .newline :=
    kind_ne_newline_of_endsStatement ((endsStatement_of_content ht).trans (endsStatement_of_opens hc))
  obtain ⟨o, r, others, r', ho, hothers, hbody⟩ :=
    exists_statement_of_parseBody htokens hkind h hne
  rw [plain_parseStatement_of_opens ht hc] at ho
  exact ⟨o, r, others, r', ho, hothers, hbody⟩

/-- A first argument that goes on with the target makes something else of the statement than the
call. -/
theorem not_matchingBlocks_of_joins (hchain : target.isChain = true)
    (htarget : target.legible = true) (hargs : legibleExprs (first :: others) = true)
    (hjoins : first.joins = true) {text : Text}
    (htokens : (tokensOf text).map Token.content =
      target.contents ++ argumentContents (first :: others))
    {body : List Stmt} (hbody : parseBody text = .ok body) (args : List Expr) (line : Line) :
    ¬ MatchingBlocks [.call target args line] body := by
  intro hmatch
  simp only [legibleExprs, everyExpr, Bool.and_eq_true] at hargs
  have hsimple := isSimple_of_isPlace (Expr.isPlace_of_isChain hchain)
  obtain ⟨x, hx⟩ := Expr.exists_merges hsimple htarget first hargs.1 hjoins
  rw [argumentContents, ← List.append_assoc, ← hx.contents] at htokens
  obtain ⟨xs, ms, htokens, hxs, hms⟩ := List.map_eq_append_iff.1 htokens
  obtain ⟨c, ws, hws, hc⟩ := exists_head_of_isChain hchain htarget
  obtain ⟨t, ts, rfl, ht⟩ : ∃ t ts, xs = t :: ts ∧ t.content = c := by
    rw [hx.contents, hws] at hxs
    obtain ⟨t, ts, rfl, ht, -⟩ := List.map_eq_cons_iff.1 hxs
    exact ⟨t, ts, rfl, ht⟩
  have hne : body ≠ [] := by
    rintro rfl
    cases hmatch
  obtain ⟨o, r, others', r', ho, hothers, rfl⟩ :=
    exists_exprStatement_of_parseBody htokens ht hc hbody hne
  obtain ⟨e, hsame, hread⟩ := (x.reads (Stream.ofSource text).stop hx.legible).2 (t :: ts) hxs
  obtain ⟨_, -, hmore⟩ := readsMore (Stream.ofSource text).stop others hargs.2 ms hms
  have hclosed : Closed ms := by simpa using (hmore [] rfl rfl).1
  have hcalls : e.callsChain = false := (Expr.callsChain_of_same hsame).trans hx.callsChain
  rcases isChain_of_parseExprStatement (hread ms hclosed) hcalls ho with ⟨rfl, rfl⟩ | ⟨s, rfl, hs⟩
  · -- nothing can follow a dropped expression
    cases others with
    | nil =>
      obtain rfl := List.map_eq_nil_iff.1 hms
      rw [plain_parseBlock] at hothers
      cases hothers
      exact hne rfl
    | cons e' es =>
      obtain ⟨m, ms, rfl, hm, -⟩ := List.map_eq_cons_iff.1 hms
      obtain ⟨failure, hfails⟩ :=
        exists_plain_parseBlock_error_of_comma (Stream.ofSource text).stop hm ms
      rw [hfails] at hothers
      cases hothers
  · have hcall : s.unplaced = .call target args none := (List.cons.inj hmatch).1
    cases s <;> cases hcall
    rw [hs _ _ _ rfl] at hchain
    cases hchain

end Apart

-- ════════════════════════════════════════════════════════════════════════════
-- Both texts
-- ════════════════════════════════════════════════════════════════════════════

section Texts

variable {target first : Expr} {others : List Expr}

theorem scans_classicCall {t : Text} {texts : List Text} {ws vs : List Content}
    (h : Scans t.toList ws Detached) (h' : Scans (commaSeparated texts).toList vs Detached) :
    Scans (classicCall t texts).toList (ws ++ vs) Detached := by
  simpa [classicCall] using h.spaced.before h'

/-- A text whose tokens are read as a call is a body of one call. -/
theorem exists_parseBody_of_exprStatement {text : Text} {c : Content} {ws : List Content}
    (hwords : (tokensOf text).map Token.content = c :: ws) (hc : c.opens = true) {callee : Expr}
    {args : List Expr}
    (h : ∀ line, ∃ line', (parseExprStatement (Stream.ofSource text).stop line
      (tokensOf text)).plain = .ok (some (.call callee args line'), [])) :
    ∃ line, parseBody text = .ok [.call callee args line] := by
  obtain ⟨t, ts, htokens, ht, -⟩ := List.map_eq_cons_iff.1 hwords
  obtain ⟨line, hline⟩ := h t.line
  have hkind : t.kind ≠ .newline :=
    kind_ne_newline_of_endsStatement ((endsStatement_of_content ht).trans (endsStatement_of_opens hc))
  rw [htokens, ← plain_parseStatement_of_opens ht hc] at hline
  exact ⟨line, body_of_parseStatement htokens hkind hline⟩

/-- Two texts whose tokens say a call without and with parentheses are read as the same call, the
first one if the first argument does not go on with the target. -/
theorem exists_parseBody_eq_call (hchain : target.isChain = true) (htarget : target.legible = true)
    (hargs : legibleExprs (first :: others) = true) {classic paren : Text}
    (hclassic : (tokensOf classic).map Token.content =
      target.contents ++ argumentContents (first :: others))
    (hparen : (tokensOf paren).map Token.content =
      target.contents ++ enclosed (argumentContents (first :: others))) :
    ∃ args, sameExprs (first :: others) args = true ∧
      (first.joins = false → ∃ line, parseBody classic = .ok [.call target args line]) ∧
      ∃ line, parseBody paren = .ok [.call target args line] := by
  obtain ⟨c, ws, hws, hc⟩ := exists_head_of_isChain hchain htarget
  obtain ⟨us, vs, htokens, hus, hvs⟩ := List.map_eq_append_iff.1 hclassic
  obtain ⟨us', ls, htokens', hus', hls⟩ := List.map_eq_append_iff.1 hparen
  obtain ⟨l, ls, rfl, hl, hls⟩ := List.map_eq_cons_iff.1 hls
  obtain ⟨vs', rs, rfl, hvs', hrs⟩ := List.map_eq_append_iff.1 hls
  obtain ⟨r, rfl, hr⟩ : ∃ r, rs = [r] ∧ r.content = .punctuation ")" := by simpa using hrs
  obtain ⟨args, hsame, hrun, hrun'⟩ := exists_plain_parseExprStatement_eq_call
    (Stream.ofSource classic).stop hchain htarget hargs hus hvs
  rw [hws] at hclassic hparen
  refine ⟨args, hsame, fun hjoins => ?_, ?_⟩
  · refine exists_parseBody_of_exprStatement hclassic hc fun line => ⟨line, ?_⟩
    rw [htokens]
    exact hrun hjoins line
  · -- the tokens of the first text, put in parentheses, say the same as those of the second one
    refine exists_parseBody_of_exprStatement hparen hc fun line => ?_
    rw [htokens']
    refine exists_plain_parseExprStatement_congr _ line (hrun' l r hl hr none) ?_ ?_
    · simp [hus, hus', hvs, hvs']
    · rw [← List.cons_append, ← List.append_assoc, endsWithPoint_concat, isSymbol_of_content hr]
      decide

/-- A call with parentheses is read as the call. The same call without parentheses is read as the
same if and only if the text of its first argument starts neither with a minus sign nor with a
parenthesis. -/
theorem classicCall_matches_callText_iff (hchain : target.isChain = true)
    (htarget : target.legible = true) (hargs : legibleExprs (first :: others) = true) :
    ∃ t text texts args line,
      target.write = .ok t ∧ first.write = .ok text ∧ writeAll others = .ok texts ∧
      sameExprs (first :: others) args = true ∧
      parseBody (callText t (text :: texts)) = .ok [.call target args line] ∧
      ((∃ body, parseBody (classicCall t (text :: texts)) = .ok body ∧
        MatchingBlocks [.call target args line] body) ↔ joinsName text = false) := by
  obtain ⟨t, ht, hscan⟩ := target.spells_write htarget
  obtain ⟨all, hall, hscan'⟩ := spells_writeAll (first :: others) hargs
  obtain ⟨text, hfirst, hall⟩ := bind_eq_ok hall
  obtain ⟨texts, hothers, hret⟩ := bind_eq_ok hall
  cases hret
  have hclassic := map_content_tokensOf (scans_classicCall hscan hscan') detached_nil
  have hparen : (tokensOf (callText t (text :: texts))).map Token.content = _ :=
    map_content_tokensOf (scans_call hscan hscan') detached_nil
  obtain ⟨args, hsame, hread, line, hcall⟩ :=
    exists_parseBody_eq_call hchain htarget hargs hclassic hparen
  have hjoins : joinsName text = first.joins := by
    simp only [legibleExprs, everyExpr, Bool.and_eq_true] at hargs
    exact (first.begins_write hargs.1 text hfirst).joinsName_eq
  refine ⟨t, text, texts, args, line, ht, hfirst, hothers, hsame, hcall, ?_, fun hopen => ?_⟩
  · rintro ⟨body, hbody, hmatch⟩
    rw [hjoins, Bool.eq_false_iff]
    intro hgoesOn
    exact not_matchingBlocks_of_joins hchain htarget hargs hgoesOn hclassic hbody args line hmatch
  · obtain ⟨line', hbody⟩ := hread (hjoins.symm.trans hopen)
    exact ⟨_, hbody, rfl⟩

end Texts

theorem classicCall_matches_callText_iff_writeLine :
    (Expr.member (.ident "Console") "WriteLine").isChain = true ∧
    (Expr.member (.ident "Console") "WriteLine").legible = true ∧
    legibleExprs [.string "hi", .unary .neg (.ident "x")] = true ∧
    ∃ t text texts args line,
      (Expr.member (.ident "Console") "WriteLine").write = .ok t ∧
      (Expr.string "hi").write = .ok text ∧
      writeAll [.unary .neg (.ident "x")] = .ok texts ∧
      sameExprs [.string "hi", .unary .neg (.ident "x")] args = true ∧
      parseBody (callText t (text :: texts)) =
        .ok [.call (.member (.ident "Console") "WriteLine") args line] ∧
      ((∃ body, parseBody (classicCall t (text :: texts)) = .ok body ∧
        MatchingBlocks [.call (.member (.ident "Console") "WriteLine") args line] body) ↔
          joinsName text = false) :=
  ⟨rfl, by decide +kernel, by decide +kernel,
    classicCall_matches_callText_iff rfl (by decide +kernel) (by decide +kernel)⟩

/-- With a minus sign in front of its argument, a call without parentheses is a difference that is
dropped. -/
theorem parseBody_classicCall_minus :
    (Expr.ident "f").isChain = true ∧ (Expr.ident "f").legible = true ∧
    legibleExprs [.unary .neg (.ident "x")] = true ∧ (Expr.ident "f").write = .ok "f" ∧
    writeAll [.unary .neg (.ident "x")] = .ok ["-x"] ∧
    parseBody (classicCall "f" ["-x"]) = .ok [] ∧
    parseBody (callText "f" ["-x"]) =
      .ok [.call (.ident "f") [.unary .neg (.ident "x")] (.ofNat 1)] := by
  have hclassic : Token.scan (classicCall "f" ["-x"]) =
      [⟨.identifier, "f", .ofNat 1, 1⟩, ⟨.operator, "-", .ofNat 1, 3⟩,
        ⟨.identifier, "x", .ofNat 1, 4⟩, ⟨.eof, "", .ofNat 1, 5⟩] := by
    decide +kernel
  have hcall : Token.scan (callText "f" ["-x"]) =
      [⟨.identifier, "f", .ofNat 1, 1⟩, ⟨.punctuation, "(", .ofNat 1, 2⟩,
        ⟨.operator, "-", .ofNat 1, 3⟩, ⟨.identifier, "x", .ofNat 1, 4⟩,
        ⟨.punctuation, ")", .ofNat 1, 5⟩, ⟨.eof, "", .ofNat 1, 6⟩] := by
    decide +kernel
  refine ⟨rfl, by decide +kernel, by decide +kernel, rfl, by decide +kernel, ?_, ?_⟩
  · rw [parseBody, Stream.ofSource, hclassic]
    cbv
  · rw [parseBody, Stream.ofSource, hcall]
    cbv

end FormBasic
