import FormBasic.Proofs.Grammar.Plain
import FormBasic.Proofs.Tree.Scanned
import FormBasic.Tree.Same

/-!
# Reading expressions back

The tokens of a written expression are parsed as the expression they were written for. An operand is
written as a primary expression with its member accesses and calls, so the parsers of all levels
hand it down unread; an operator is met by the parser of its own level only.

## Main definitions

* `Closed` - what may follow an expression
* `BinaryOp.level` - the level of an operator
* `ReadsAsAtom`, `ReadsWhole` - expressions that are read back, as operands and by themselves

## Main statements

* `plain_parseBinary_of_operand`, `plain_parseBinary_lift` - from level to level
* `Expr.reads` - a legible expression is read back
-/

namespace FormBasic

open Token (Content)

/-- A token that says a given thing. -/
def Token.Content.token (c : Content) : Token := ⟨c.kind, c.text, .ofNat 0, 0⟩

theorem isSymbol_of_content {t : Token} {c : Content} (h : t.content = c) (s : Text) :
    t.isSymbol s = c.token.isSymbol s := h ▸ rfl

theorem isAnyOf_of_content {t : Token} {c : Content} (h : t.content = c) (texts : List Text) :
    t.isAnyOf texts = c.token.isAnyOf texts := h ▸ rfl

theorem isName_of_content {t : Token} {c : Content} (h : t.content = c) :
    t.isName = c.token.isName := h ▸ rfl

theorem endsStatement_of_content {t : Token} {c : Content} (h : t.content = c) :
    t.endsStatement = c.token.endsStatement := h ▸ rfl

@[simp]
theorem nextIs_cons (t : Token) (ts : List Token) (texts : List Text) :
    nextIs (t :: ts) texts = t.isAnyOf texts := rfl

theorem nextIs_subset {ts : List Token} {texts more : List Text} (hsub : texts ⊆ more)
    (h : nextIs ts more = false) : nextIs ts texts = false := by
  rw [Bool.eq_false_iff] at h ⊢
  intro hnext
  obtain ⟨t, rest, rfl, ht⟩ := exists_of_nextIs hnext
  obtain ⟨s, hs, hsym⟩ := Token.isAnyOf_eq_true_iff.1 ht
  exact h (Token.isAnyOf_eq_true_iff.2 ⟨s, hsub hs, hsym⟩)

theorem isSymbol_of_nextIs {t : Token} {ts : List Token} {texts : List Text} {s : Text}
    (h : nextIs (t :: ts) texts = false) (hs : s ∈ texts) : t.isSymbol s = false := by
  rw [nextIs_cons, Token.isAnyOf, List.any_eq_false] at h
  simpa using h s hs

/-- The symbols that would continue an expression. -/
def continuations : List Text :=
  [".", "(", "or", "and", "=", "<>", "<", ">", "<=", ">=", "&", "+", "-", "*", "/", "\\", "mod",
   "^"]

/-- What may follow an expression: nothing that continues it. -/
def Closed (rest : List Token) : Prop := nextIs rest continuations = false

theorem Closed.operators {rest : List Token} (h : Closed rest) (level : Level) :
    nextIs rest level.operators = false :=
  nextIs_subset (by cases level <;> decide) h

theorem Closed.suffixes {rest : List Token} (h : Closed rest) : nextIs rest [".", "("] = false :=
  nextIs_subset (by decide) h

theorem closed_of_content {t : Token} {c : Content} (h : t.content = c)
    (hc : c.token.isAnyOf continuations = false) (rest : List Token) : Closed (t :: rest) := by
  rw [Closed, nextIs_cons, isAnyOf_of_content h, hc]

section Levels

variable {stop : Token} {ts rest : List Token} {e : Expr}

theorem plain_parseSuffixes_stop (h : nextIs rest [".", "("] = false) :
    (parseSuffixes stop e rest).plain = .ok (e, rest) := by
  cases rest with
  | nil => exact plain_parseSuffixes_nil stop e
  | cons t rest =>
    rw [plain_parseSuffixes_other stop e (isSymbol_of_nextIs h (by simp)),
      isSymbol_of_nextIs h (by simp)]
    rfl

theorem plain_parseOperators_stop {level : Level} (h : nextIs rest level.operators = false) :
    (parseOperators stop level e rest).plain = .ok (e, rest) := by
  cases rest with
  | nil => exact plain_parseOperators_nil stop level e
  | cons t rest =>
    rw [nextIs_cons] at h
    rw [plain_parseOperators_cons, h]
    rfl

/-- An operand without an operator of its level after it. -/
theorem plain_parseBinary_of_operand {level : Level}
    (h : (parseOperand stop level ts).plain = .ok (e, rest))
    (hr : nextIs rest level.operators = false) :
    (parseBinary stop level ts).plain = .ok (e, rest) := by
  rw [plain_parseBinary, h]
  exact plain_parseOperators_stop hr

theorem plain_parseNot_of_comparison (hnot : nextIs ts ["not"] = false) :
    (parseNot stop ts).plain = (parseBinary stop .comparison ts).plain := by
  cases ts with
  | nil => exact plain_parseNot_nil stop
  | cons t ts =>
    rw [plain_parseNot_cons, isSymbol_of_nextIs hnot (by simp)]
    rfl

/-- What the tightest level reads is an operand of every level, unless a tighter operator
follows. -/
theorem plain_parseOperand_of_signed (h : (parseSigned stop ts).plain = .ok (e, rest))
    (hnot : nextIs ts ["not"] = false) : ∀ level : Level,
    (∀ tighter : Level, tighter.height < level.height →
      nextIs rest tighter.operators = false) →
    (parseOperand stop level ts).plain = .ok (e, rest)
  | .power, _ => by
    rw [parseOperand]
    exact h
  | .product, hr => by
    rw [parseOperand]
    exact plain_parseBinary_of_operand
      (plain_parseOperand_of_signed h hnot .power fun l hl => hr l (Nat.lt_trans hl (by decide)))
      (hr .power (by decide))
  | .sum, hr => by
    rw [parseOperand]
    exact plain_parseBinary_of_operand
      (plain_parseOperand_of_signed h hnot .product fun l hl => hr l (Nat.lt_trans hl (by decide)))
      (hr .product (by decide))
  | .concatenation, hr => by
    rw [parseOperand]
    exact plain_parseBinary_of_operand
      (plain_parseOperand_of_signed h hnot .sum fun l hl => hr l (Nat.lt_trans hl (by decide)))
      (hr .sum (by decide))
  | .comparison, hr => by
    rw [parseOperand]
    exact plain_parseBinary_of_operand
      (plain_parseOperand_of_signed h hnot .concatenation
        fun l hl => hr l (Nat.lt_trans hl (by decide)))
      (hr .concatenation (by decide))
  | .conjunction, hr => by
    rw [parseOperand, plain_parseNot_of_comparison hnot]
    exact plain_parseBinary_of_operand
      (plain_parseOperand_of_signed h hnot .comparison
        fun l hl => hr l (Nat.lt_trans hl (by decide)))
      (hr .comparison (by decide))
  | .disjunction, hr => by
    rw [parseOperand]
    exact plain_parseBinary_of_operand
      (plain_parseOperand_of_signed h hnot .conjunction
        fun l hl => hr l (Nat.lt_trans hl (by decide)))
      (hr .conjunction (by decide))
termination_by level => level.height
decreasing_by all_goals decide

/-- What any level reads is a whole expression when nothing continues it. -/
theorem plain_parseBinary_lift (hrest : Closed rest) (hnot : nextIs ts ["not"] = false) :
    ∀ level : Level, (parseBinary stop level ts).plain = .ok (e, rest) →
      (parseBinary stop .disjunction ts).plain = .ok (e, rest)
  | .disjunction, h => h
  | .conjunction, h =>
    plain_parseBinary_lift hrest hnot .disjunction
      (plain_parseBinary_of_operand (by rw [parseOperand]; exact h) (hrest.operators _))
  | .comparison, h =>
    plain_parseBinary_lift hrest hnot .conjunction (plain_parseBinary_of_operand
      (by rw [parseOperand, plain_parseNot_of_comparison hnot]; exact h) (hrest.operators _))
  | .concatenation, h =>
    plain_parseBinary_lift hrest hnot .comparison
      (plain_parseBinary_of_operand (by rw [parseOperand]; exact h) (hrest.operators _))
  | .sum, h =>
    plain_parseBinary_lift hrest hnot .concatenation
      (plain_parseBinary_of_operand (by rw [parseOperand]; exact h) (hrest.operators _))
  | .product, h =>
    plain_parseBinary_lift hrest hnot .sum
      (plain_parseBinary_of_operand (by rw [parseOperand]; exact h) (hrest.operators _))
  | .power, h =>
    plain_parseBinary_lift hrest hnot .product
      (plain_parseBinary_of_operand (by rw [parseOperand]; exact h) (hrest.operators _))
termination_by level => 10 - level.height
decreasing_by all_goals decide

end Levels

/-- The level of an operator; the tightest one for those that the language does not have. -/
def BinaryOp.level : BinaryOp → Level
  | .or => .disjunction
  | .and => .conjunction
  | .eq | .ne | .lt | .gt | .le | .ge => .comparison
  | .concat => .concatenation
  | .add | .sub => .sum
  | .mul | .div | .intDiv | .mod => .product
  | .pow | .unknown _ => .power

theorem ofText_text {op : BinaryOp} (h : op ∈ BinaryOp.known) :
    BinaryOp.ofText op.content.text = op := by
  have hall : BinaryOp.known.all (fun op => BinaryOp.ofText op.content.text == op) = true := by
    decide
  exact beq_iff_eq.1 (List.all_eq_true.1 hall op h)

/-- An operator belongs to its own level and to no tighter one. -/
theorem level_spec {op : BinaryOp} (h : op ∈ BinaryOp.known) (level : Level) :
    (level = op.level → op.content.token.isAnyOf level.operators = true) ∧
    (level.height < op.level.height → op.content.token.isAnyOf level.operators = false) := by
  simp only [BinaryOp.known, List.mem_cons, List.not_mem_nil, or_false] at h
  rcases h with rfl | rfl | rfl | rfl | rfl | rfl | rfl | rfl | rfl | rfl | rfl | rfl | rfl | rfl |
    rfl | rfl <;> cases level <;> decide

theorem content_isSuffix {op : BinaryOp} (h : op ∈ BinaryOp.known) :
    op.content.token.isAnyOf [".", "("] = false := by
  have hall : BinaryOp.known.all (fun op => !op.content.token.isAnyOf [".", "("]) = true := by
    decide
  simpa using List.all_eq_true.1 hall op h

/-- The symbols that an operand may start with. -/
def openers : List Text := "true" :: "false" :: "nothing" :: "me" :: "(" :: typeKeywords

/-- Whether an operand may start with the token. -/
def Token.Content.opens (c : Content) : Bool :=
  c.kind == .number || c.kind == .string || c.kind == .identifier || c.token.isAnyOf openers

/-- The first token of an operand is no other symbol. -/
theorem isSymbol_of_opens {c : Content} (h : c.opens = true) {s : Text} (hs : s ∉ openers) :
    c.token.isSymbol s = false := by
  rw [Bool.eq_false_iff]
  intro hsym
  simp only [Content.opens, Bool.or_eq_true, beq_iff_eq] at h
  rcases h with ((h | h) | h) | h
  · simp [Content.token, Token.isSymbol, h] at hsym
  · simp [Content.token, Token.isSymbol, h] at hsym
  · simp [Content.token, Token.isSymbol, h] at hsym
  · obtain ⟨s', hs', hsym'⟩ := Token.isAnyOf_eq_true_iff.1 h
    have := (Token.text_eq_of_isSymbol hsym).symm.trans (Token.text_eq_of_isSymbol hsym')
    exact hs (this ▸ hs')

theorem endsStatement_of_opens {c : Content} (h : c.opens = true) :
    c.token.endsStatement = false := by
  obtain ⟨kind, text⟩ := c
  cases kind <;> first
    | rfl
    | simp [Content.opens, Content.token, Token.isAnyOf, Token.isSymbol] at h

theorem nextIs_of_opens {c : Content} (h : c.opens = true) {t : Token} (ht : t.content = c)
    (rest : List Token) {texts : List Text} (hs : ∀ s ∈ texts, s ∉ openers) :
    nextIs (t :: rest) texts = false := by
  rw [nextIs_cons, isAnyOf_of_content ht, Token.isAnyOf, List.any_eq_false]
  intro s hmem
  simpa using isSymbol_of_opens h (hs s hmem)

theorem opens_ofName {s : Text} (h : isReferenceName s = true) :
    (Content.ofName s).opens = true := by
  simp only [isReferenceName, Bool.or_eq_true, beq_iff_eq, List.contains_iff_mem] at h
  rcases h with (h | rfl) | h
  · rw [ofName_of_isPlainName h]
    rfl
  · decide
  · have hall : typeKeywords.all (fun s => (Content.ofName s).opens) = true := by decide
    exact List.all_eq_true.1 hall s h

/-- What an operand is written with. -/
def Expr.atomContents (e : Expr) : List Content :=
  if e.isSimple then e.contents else enclosed e.contents

theorem exists_head_atomContents : ∀ e : Expr, e.legible = true →
    ∃ c ws, e.atomContents = c :: ws ∧ c.opens = true
  | .number _, _ | .string _, _ | .nothing, _ => ⟨_, _, rfl, rfl⟩
  | .boolean b, _ => ⟨_, _, rfl, by cases b <;> decide⟩
  | .ident name, h => by
    simp only [Expr.legible, Expr.every, Expr.fits, Expr.isClear, Bool.true_and] at h
    exact ⟨_, _, rfl, opens_ofName h⟩
  | .unary _ _, _ | .binary _ _ _, _ | .alien _, _ => ⟨_, _, rfl, by decide⟩
  | .member o _, h => by
    simp only [Expr.legible, Expr.every, Bool.and_eq_true] at h
    obtain ⟨c, ws, hws, hc⟩ := exists_head_atomContents o h.2
    exact ⟨c, _, congrArg (· ++ _) hws, hc⟩
  | .index o _, h => by
    simp [Expr.legible, Expr.every, Expr.fits] at h
  | .call o _, h => by
    simp only [Expr.legible, Expr.every, Bool.and_eq_true] at h
    obtain ⟨c, ws, hws, hc⟩ := exists_head_atomContents o h.1.2
    exact ⟨c, _, congrArg (· ++ _) hws, hc⟩

/-- No expression starts with a closing parenthesis or with the end of a line. -/
theorem exists_head_contents (e : Expr) (h : e.legible = true) :
    ∃ c ws, e.contents = c :: ws ∧ c.token.isAnyOf [")"] = false ∧
      c.token.endsStatement = false := by
  have hopens : ∀ c : Content, c.opens = true → c.token.isAnyOf [")"] = false ∧
      c.token.endsStatement = false := by
    intro c hc
    refine ⟨?_, endsStatement_of_opens hc⟩
    rw [Token.isAnyOf, List.any_eq_false]
    intro s hs
    simpa using isSymbol_of_opens hc (show s ∉ openers by
      rw [List.mem_singleton] at hs; subst hs; decide)
  by_cases hs : e.isSimple = true
  · obtain ⟨c, ws, hws, hc⟩ := exists_head_atomContents e h
    rw [Expr.atomContents, if_pos hs] at hws
    exact ⟨c, ws, hws, hopens c hc⟩
  · cases e with
    | unary op o =>
      simp only [Expr.legible, Expr.every, Expr.fits, Expr.isClear, Bool.and_true,
        Bool.and_eq_true, Bool.or_eq_true, beq_iff_eq] at h
      refine ⟨_, _, rfl, ?_⟩
      obtain ⟨rfl | rfl, -⟩ := h
      · decide
      · decide
    | binary op l r =>
      simp only [Expr.legible, Expr.every, Bool.and_eq_true] at h
      obtain ⟨c, ws, hws, hc⟩ := exists_head_atomContents l h.1.2
      exact ⟨c, _, congrArg (· ++ _) hws, hopens c hc⟩
    | alien kind => simp [Expr.legible, Expr.every, Expr.fits] at h
    | _ => exact absurd rfl hs

theorem leafOf?_of_content {t : Token} {c : Content} (h : t.content = c) :
    leafOf? t = leafOf? c.token := h ▸ rfl

theorem leafOf?_number {t : Token} {n : Number} (h : n.readsBack = true)
    (ht : t.content = ⟨.number, n.literal.toOption.getD ""⟩) :
    ∃ m, leafOf? t = some (.ok (.number m)) ∧ Number.same n m = true := by
  unfold Number.readsBack at h
  split at h
  · cases h
  next text htext =>
  simp only [Bool.and_eq_true] at h
  split at h
  · exact absurd h.2 (by decide)
  next m hm =>
  refine ⟨m, ?_, h.2⟩
  rw [leafOf?_of_content ht, htext]
  simp only [leafOf?, Content.token, Except.toOption, Option.getD_some, hm]
  rfl

theorem leafOf?_name {t : Token} {s : Text} (h : isReferenceName s = true)
    (ht : t.content = .ofName s) : leafOf? t = some (.ok (.ident s)) := by
  rw [leafOf?_of_content ht]
  simp only [isReferenceName, Bool.or_eq_true, beq_iff_eq, List.contains_iff_mem] at h
  rcases h with (h | rfl) | h
  · rw [ofName_of_isPlainName h]
    rfl
  · rfl
  · simp only [typeKeywords, List.mem_cons, List.not_mem_nil, or_false] at h
    rcases h with rfl | rfl | rfl | rfl | rfl | rfl | rfl <;> rfl

theorem leafOf?_parenthesis {t : Token} (ht : t.content = .punctuation "(") : leafOf? t = none := by
  rw [leafOf?_of_content ht]
  rfl

section Reading

variable (stop : Token)

/-- The tokens `ws` are read as the operand `e`, with whatever is attached to it. -/
def ReadsAsAtom (e : Expr) (ws : List Content) : Prop :=
  ∀ ts : List Token, ts.map Token.content = ws → ∃ e', e.same e' = true ∧
    ∀ rest, (parsePostfix stop (ts ++ rest)).plain = (parseSuffixes stop e' rest).plain

/-- The tokens of `e` are read as `e` when nothing continues them. -/
def ReadsWhole (e : Expr) : Prop :=
  ∀ ts : List Token, ts.map Token.content = e.contents → ∃ e', e.same e' = true ∧
    ∀ rest, Closed rest → (parseBinary stop .disjunction (ts ++ rest)).plain = .ok (e', rest)

variable {stop} {e : Expr} {ws : List Content}

theorem readsAsAtom_of_leaf {c : Content}
    (h : ∀ t : Token, t.content = c → ∃ e', e.same e' = true ∧ leafOf? t = some (.ok e')) :
    ReadsAsAtom stop e [c] := by
  intro ts hts
  obtain ⟨t, rfl, ht⟩ : ∃ t, ts = [t] ∧ t.content = c := by simpa using hts
  obtain ⟨e', hsame, hleaf⟩ := h t ht
  refine ⟨e', hsame, fun rest => ?_⟩
  rw [List.singleton_append, plain_parsePostfix, plain_parsePrimary_leaf stop hleaf]
  rfl

/-- Parentheses make an operand of any expression. -/
theorem ReadsWhole.enclosed (h : ReadsWhole stop e) :
    ReadsAsAtom stop e (enclosed e.contents) := by
  intro ts hts
  obtain ⟨t, ts, rfl, ht, hts⟩ := List.map_eq_cons_iff.1 hts
  obtain ⟨us, vs, rfl, hus, hvs⟩ := List.map_eq_append_iff.1 hts
  obtain ⟨t', rfl, ht'⟩ : ∃ t', vs = [t'] ∧ t'.content = .punctuation ")" := by simpa using hvs
  obtain ⟨e', hsame, hparse⟩ := h us hus
  refine ⟨e', hsame, fun rest => ?_⟩
  have hclosed : Closed (t' :: rest) := closed_of_content ht' (by decide) rest
  have hexpect : (expect stop ")" (t' :: rest)).plain = .ok (t', rest) := by
    rw [plain_expect_cons, isSymbol_of_content ht', if_pos (by decide)]
  rw [List.cons_append, List.append_assoc, List.singleton_append, plain_parsePostfix,
    plain_parsePrimary_parenthesis stop (leafOf?_parenthesis ht)
      (by rw [isSymbol_of_content ht]; decide) (by rw [isSymbol_of_content ht]; decide),
    hparse _ hclosed]
  simp only [bind, Except.bind, hexpect]
  rfl

/-- An operand is read by the tightest level. -/
theorem ReadsAsAtom.signed (h : ReadsAsAtom stop e ws) {c : Content} {vs : List Content}
    (hws : ws = c :: vs) (hc : c.opens = true) {ts : List Token}
    (hts : ts.map Token.content = ws) :
    ∃ e', e.same e' = true ∧ ∀ rest, nextIs (ts ++ rest) ["not"] = false ∧
      (nextIs rest [".", "("] = false →
        (parseSigned stop (ts ++ rest)).plain = .ok (e', rest)) := by
  obtain ⟨e', hsame, hparse⟩ := h ts hts
  rw [hws] at hts
  obtain ⟨t, ts, rfl, ht, -⟩ := List.map_eq_cons_iff.1 hts
  refine ⟨e', hsame, fun rest => ⟨?_, fun hrest => ?_⟩⟩
  · exact nextIs_of_opens hc ht _ (by decide)
  · have hminus : t.isSymbol "-" = false := by
      rw [isSymbol_of_content ht]
      exact isSymbol_of_opens hc (by decide)
    have hplus : t.isSymbol "+" = false := by
      rw [isSymbol_of_content ht]
      exact isSymbol_of_opens hc (by decide)
    rw [List.cons_append, plain_parseSigned_cons, hminus, hplus, ← List.cons_append]
    exact (hparse rest).trans (plain_parseSuffixes_stop hrest)

/-- A simple expression that is read as an operand is read by itself. -/
theorem ReadsAsAtom.whole (h : ReadsAsAtom stop e e.contents) {c : Content} {vs : List Content}
    (hws : e.contents = c :: vs) (hc : c.opens = true) : ReadsWhole stop e := by
  intro ts hts
  obtain ⟨e', hsame, hparse⟩ := h.signed hws hc hts
  refine ⟨e', hsame, fun rest hrest => ?_⟩
  refine plain_parseBinary_of_operand ?_ (hrest.operators _)
  exact plain_parseOperand_of_signed ((hparse rest).2 hrest.suffixes) (hparse rest).1 _
    fun level _ => hrest.operators level

theorem readsWhole_neg {o : Expr} (h : ReadsAsAtom stop o o.atomContents) (hl : o.legible = true) :
    ReadsWhole stop (.unary .neg o) := by
  intro ts hts
  obtain ⟨t, ts, rfl, ht, hts⟩ := List.map_eq_cons_iff.1 hts
  obtain ⟨c, vs, hws, hc⟩ := exists_head_atomContents o hl
  obtain ⟨e', hsame, hparse⟩ := h.signed hws hc hts
  refine ⟨.unary .neg e', by simpa [Expr.same] using hsame, fun rest hrest => ?_⟩
  have hsigned : (parseSigned stop (t :: ts ++ rest)).plain = .ok (.unary .neg e', rest) := by
    rw [List.cons_append, plain_parseSigned_cons, isSymbol_of_content ht, if_pos (by decide),
      (hparse rest).2 hrest.suffixes]
    rfl
  have hnot : nextIs (t :: ts ++ rest) ["not"] = false := by
    rw [List.cons_append, nextIs_cons, isAnyOf_of_content ht]
    decide
  refine plain_parseBinary_of_operand ?_ (hrest.operators _)
  exact plain_parseOperand_of_signed hsigned hnot _ fun level _ => hrest.operators level

theorem readsWhole_not {o : Expr} (h : ReadsAsAtom stop o o.atomContents) (hl : o.legible = true) :
    ReadsWhole stop (.unary .not o) := by
  intro ts hts
  obtain ⟨t, ts, rfl, ht, hts⟩ := List.map_eq_cons_iff.1 hts
  obtain ⟨c, vs, hws, hc⟩ := exists_head_atomContents o hl
  obtain ⟨e', hsame, hparse⟩ := h.signed hws hc hts
  refine ⟨.unary .not e', by simpa [Expr.same] using hsame, fun rest hrest => ?_⟩
  have hoperand : (parseNot stop (ts ++ rest)).plain = .ok (e', rest) := by
    rw [plain_parseNot_of_comparison (hparse rest).1]
    refine plain_parseBinary_of_operand ?_ (hrest.operators _)
    exact plain_parseOperand_of_signed ((hparse rest).2 hrest.suffixes) (hparse rest).1 _
      fun level _ => hrest.operators level
  have hnot : (parseNot stop (t :: ts ++ rest)).plain = .ok (.unary .not e', rest) := by
    rw [List.cons_append, plain_parseNot_cons, isSymbol_of_content ht, if_pos (by decide), hoperand]
    rfl
  -- the two levels above a negation
  have hconj : (parseBinary stop .conjunction (t :: ts ++ rest)).plain =
      .ok (.unary .not e', rest) :=
    plain_parseBinary_of_operand (by rw [parseOperand]; exact hnot) (hrest.operators _)
  exact plain_parseBinary_of_operand (by rw [parseOperand]; exact hconj) (hrest.operators _)

theorem readsWhole_binary {op : BinaryOp} {l r : Expr} (hop : op ∈ BinaryOp.known)
    (hl : ReadsAsAtom stop l l.atomContents) (hr : ReadsAsAtom stop r r.atomContents)
    (hll : l.legible = true) (hrl : r.legible = true) : ReadsWhole stop (.binary op l r) := by
  intro ts hts
  obtain ⟨us, vs, rfl, hus, hvs⟩ := List.map_eq_append_iff.1 hts
  obtain ⟨t, vs, rfl, ht, hvs⟩ := List.map_eq_cons_iff.1 hvs
  obtain ⟨c, ws, hws, hc⟩ := exists_head_atomContents l hll
  obtain ⟨d, ws', hws', hd⟩ := exists_head_atomContents r hrl
  obtain ⟨l', hlsame, hlparse⟩ := hl.signed hws hc hus
  obtain ⟨r', hrsame, hrparse⟩ := hr.signed hws' hd hvs
  refine ⟨.binary op l' r', by simp [Expr.same, hlsame, hrsame], fun rest hrest => ?_⟩
  have hsuffix : nextIs (t :: (vs ++ rest)) [".", "("] = false := by
    rw [nextIs_cons, isAnyOf_of_content ht]
    exact content_isSuffix hop
  have hleft : (parseOperand stop op.level (us ++ t :: (vs ++ rest))).plain =
      .ok (l', t :: (vs ++ rest)) := by
    refine plain_parseOperand_of_signed ((hlparse _).2 hsuffix) (hlparse _).1 _ ?_
    intro level hlevel
    rw [nextIs_cons, isAnyOf_of_content ht]
    exact (level_spec hop level).2 hlevel
  have hright : (parseOperand stop op.level (vs ++ rest)).plain = .ok (r', rest) :=
    plain_parseOperand_of_signed ((hrparse rest).2 hrest.suffixes) (hrparse rest).1 _
      fun level _ => hrest.operators level
  have hown : t.isAnyOf op.level.operators = true := by
    rw [isAnyOf_of_content ht]
    exact (level_spec hop _).1 rfl
  have htext : BinaryOp.ofText t.text = op := by
    rw [Token.text_of_content ht]
    exact ofText_text hop
  have hbinary : (parseBinary stop op.level (us ++ t :: (vs ++ rest))).plain =
      .ok (.binary op l' r', rest) := by
    rw [plain_parseBinary, hleft]
    simp only [bind, Except.bind]
    rw [plain_parseOperators_cons, if_pos hown, hright, htext]
    exact plain_parseOperators_stop (hrest.operators _)
  have hnot := (hlparse (t :: (vs ++ rest))).1
  rw [List.append_assoc]
  exact plain_parseBinary_lift hrest hnot op.level hbinary

theorem readsAsAtom_member {o : Expr} {property : Text} (h : ReadsAsAtom stop o ws)
    (hp : isMemberName property = true) :
    ReadsAsAtom stop (.member o property) (ws ++ [.punctuation ".", .ofName property]) := by
  intro ts hts
  obtain ⟨us, vs, rfl, hus, hvs⟩ := List.map_eq_append_iff.1 hts
  obtain ⟨t, n, rfl, ht, hn⟩ : ∃ t n, vs = [t, n] ∧ t.content = .punctuation "." ∧
      n.content = .ofName property := by
    obtain ⟨t, vs, rfl, ht, hvs⟩ := List.map_eq_cons_iff.1 hvs
    obtain ⟨n, rfl, hn⟩ : ∃ n, vs = [n] ∧ n.content = .ofName property := by simpa using hvs
    exact ⟨t, n, rfl, ht, hn⟩
  obtain ⟨o', hsame, hparse⟩ := h us hus
  refine ⟨.member o' property, by simp [Expr.same, hsame], fun rest => ?_⟩
  have hname : n.isName = true ∧ n.text = property := by
    simp only [isMemberName, Bool.or_eq_true] at hp
    rcases hp with hp | hp
    · rw [ofName_of_isPlainName hp] at hn
      exact ⟨by rw [isName_of_content hn]; rfl, Token.text_of_content hn⟩
    · rw [ofName_of_isKeyword hp] at hn
      exact ⟨by rw [isName_of_content hn]; rfl, Token.text_of_content hn⟩
  rw [List.append_assoc, hparse, List.cons_append, List.cons_append, List.nil_append,
    plain_parseSuffixes_point stop o' (by rw [isSymbol_of_content ht]; decide), hname.1, hname.2]
  rfl

/-- The tokens of arguments and the closing parenthesis are read as the arguments. -/
def ReadsArguments (stop : Token) (es : List Expr) : Prop :=
  ∀ ts : List Token, ts.map Token.content = argumentContents es ++ [.punctuation ")"] →
    ∃ es', sameExprs es es' = true ∧
      ∀ rest, (parseArguments stop (ts ++ rest)).plain = .ok (es', rest)

/-- The tokens of further arguments are read as the arguments when no more follow. -/
def ReadsMore (stop : Token) (es : List Expr) : Prop :=
  ∀ ts : List Token, ts.map Token.content = moreContents es → ∃ es', sameExprs es es' = true ∧
    ∀ rest, Closed rest → nextIs rest [","] = false →
      Closed (ts ++ rest) ∧ (parseMoreArguments stop (ts ++ rest)).plain = .ok (es', rest)

theorem readsAsAtom_call {o : Expr} {args : List Expr} (h : ReadsAsAtom stop o ws)
    (hargs : ReadsArguments stop args) :
    ReadsAsAtom stop (.call o args) (ws ++ enclosed (argumentContents args)) := by
  intro ts hts
  obtain ⟨us, vs, rfl, hus, hvs⟩ := List.map_eq_append_iff.1 hts
  obtain ⟨t, vs, rfl, ht, hvs⟩ := List.map_eq_cons_iff.1 hvs
  obtain ⟨o', hsame, hparse⟩ := h us hus
  obtain ⟨args', hsame', hparse'⟩ := hargs vs hvs
  refine ⟨.call o' args', by simp [Expr.same, hsame, hsame'], fun rest => ?_⟩
  rw [List.append_assoc, hparse, List.cons_append,
    plain_parseSuffixes_other stop o' (by rw [isSymbol_of_content ht]; decide),
    isSymbol_of_content ht, if_pos (by decide), hparse']
  rfl

theorem readsMore_nil : ReadsMore stop [] := by
  intro ts hts
  obtain rfl : ts = [] := by simpa [moreContents] using hts
  refine ⟨[], rfl, fun rest hrest hcomma => ⟨hrest, ?_⟩⟩
  cases rest with
  | nil => exact plain_parseMoreArguments_nil stop
  | cons t rest =>
    rw [List.nil_append, plain_parseMoreArguments_cons, isSymbol_of_nextIs hcomma (by simp)]
    rfl

theorem readsMore_cons {es : List Expr} (h : ReadsWhole stop e) (hes : ReadsMore stop es) :
    ReadsMore stop (e :: es) := by
  intro ts hts
  rw [moreContents] at hts
  obtain ⟨t, ts, rfl, ht, hts⟩ := List.map_eq_cons_iff.1 hts
  obtain ⟨us, vs, rfl, hus, hvs⟩ := List.map_eq_append_iff.1 hts
  obtain ⟨e', hsame, hparse⟩ := h us hus
  obtain ⟨es', hsame', hparse'⟩ := hes vs hvs
  refine ⟨e' :: es', by simp [sameExprs, hsame, hsame'], fun rest hrest hcomma => ⟨?_, ?_⟩⟩
  · exact closed_of_content ht (by decide) _
  · obtain ⟨hclosed, hmore⟩ := hparse' rest hrest hcomma
    rw [List.cons_append, List.append_assoc, plain_parseMoreArguments_cons,
      isSymbol_of_content ht, if_pos (by decide), hparse _ hclosed]
    simp only [bind, Except.bind, hmore]
    rfl

theorem readsArguments_nil : ReadsArguments stop [] := by
  intro ts hts
  obtain ⟨t, rfl, ht⟩ : ∃ t, ts = [t] ∧ t.content = .punctuation ")" := by
    simpa [argumentContents] using hts
  refine ⟨[], rfl, fun rest => ?_⟩
  rw [plain_parseArguments, List.singleton_append, nextIs_cons, isAnyOf_of_content ht,
    if_pos (by decide)]
  rfl

theorem readsArguments_cons {es : List Expr} (h : ReadsWhole stop e) (hl : e.legible = true)
    (hes : ReadsMore stop es) : ReadsArguments stop (e :: es) := by
  intro ts hts
  rw [argumentContents, List.append_assoc] at hts
  obtain ⟨us, others, rfl, hus, hothers⟩ := List.map_eq_append_iff.1 hts
  obtain ⟨vs, us', rfl, hvs, hus'⟩ := List.map_eq_append_iff.1 hothers
  obtain ⟨t, rfl, ht⟩ : ∃ t, us' = [t] ∧ t.content = .punctuation ")" := by simpa using hus'
  obtain ⟨e', hsame, hparse⟩ := h us hus
  obtain ⟨es', hsame', hparse'⟩ := hes vs hvs
  refine ⟨e' :: es', by simp [sameExprs, hsame, hsame'], fun rest => ?_⟩
  have hnext : nextIs (us ++ (vs ++ t :: rest)) [")"] = false := by
    obtain ⟨c, ws, hws, hc, -⟩ := exists_head_contents e hl
    rw [hws] at hus
    obtain ⟨u, us, rfl, hu, -⟩ := List.map_eq_cons_iff.1 hus
    rw [List.cons_append, nextIs_cons, isAnyOf_of_content hu]
    exact hc
  obtain ⟨hclosed, hmore⟩ := hparse' (t :: rest) (closed_of_content ht (by decide) rest)
    (by rw [nextIs_cons, isAnyOf_of_content ht]; decide)
  have hexpect : (expect stop ")" (t :: rest)).plain = .ok (t, rest) := by
    rw [plain_expect_cons, isSymbol_of_content ht, if_pos (by decide)]
  rw [List.append_assoc, List.append_assoc, List.singleton_append, plain_parseArguments, hnext,
    hparse _ hclosed]
  simp only [Bool.false_eq_true, if_false, bind, Except.bind, hmore, hexpect]
  rfl

/-- An expression that is read as an operand is read by itself, and the other way round. -/
theorem reads_of_simple (hs : e.isSimple = true) (hl : e.legible = true)
    (h : ReadsAsAtom stop e e.contents) :
    ReadsAsAtom stop e e.atomContents ∧ ReadsWhole stop e := by
  have hatom : e.atomContents = e.contents := if_pos hs
  obtain ⟨c, vs, hws, hc⟩ := exists_head_atomContents e hl
  rw [hatom] at hws ⊢
  exact ⟨h, h.whole hws hc⟩

theorem reads_of_operation (hs : e.isSimple = false) (h : ReadsWhole stop e) :
    ReadsAsAtom stop e e.atomContents ∧ ReadsWhole stop e := by
  refine ⟨?_, h⟩
  rw [Expr.atomContents, hs]
  exact h.enclosed

mutual

/-- A legible expression is read back, as an operand and by itself. -/
theorem Expr.reads (stop : Token) : ∀ e : Expr, e.legible = true →
    ReadsAsAtom stop e e.atomContents ∧ ReadsWhole stop e
  | .number n, h => by
    refine reads_of_simple rfl h (readsAsAtom_of_leaf fun t ht => ?_)
    simp only [Expr.legible, Expr.every, Expr.fits, Expr.isClear, Bool.true_and] at h
    obtain ⟨m, hleaf, hsame⟩ := leafOf?_number h ht
    exact ⟨_, by simpa [Expr.same] using hsame, hleaf⟩
  | .string s, h => by
    refine reads_of_simple rfl h (readsAsAtom_of_leaf fun t ht => ?_)
    exact ⟨.string s, by simp [Expr.same], by rw [leafOf?_of_content ht]; rfl⟩
  | .boolean b, h => by
    refine reads_of_simple rfl h (readsAsAtom_of_leaf fun t ht => ?_)
    exact ⟨.boolean b, by simp [Expr.same], by rw [leafOf?_of_content ht]; cases b <;> rfl⟩
  | .nothing, h => by
    refine reads_of_simple rfl h (readsAsAtom_of_leaf fun t ht => ?_)
    exact ⟨.nothing, rfl, by rw [leafOf?_of_content ht]; rfl⟩
  | .ident name, h => by
    refine reads_of_simple rfl h (readsAsAtom_of_leaf fun t ht => ?_)
    simp only [Expr.legible, Expr.every, Expr.fits, Expr.isClear, Bool.true_and] at h
    exact ⟨.ident name, by simp [Expr.same], leafOf?_name h ht⟩
  | .member o _, h => by
    refine reads_of_simple rfl h ?_
    simp only [Expr.legible, Expr.every, Expr.fits, Expr.isClear, Bool.and_true,
      Bool.and_eq_true] at h
    exact readsAsAtom_member (o.reads stop h.2).1 h.1
  | .index _ _, h => by
    simp [Expr.legible, Expr.every, Expr.fits] at h
  | .call o args, h => by
    refine reads_of_simple rfl h ?_
    simp only [Expr.legible, Expr.every, Bool.and_eq_true] at h
    exact readsAsAtom_call (o.reads stop h.1.2).1 (readsArguments stop args h.2)
  | .binary op l r, h => by
    refine reads_of_operation rfl ?_
    simp only [Expr.legible, Expr.every, Expr.fits, Expr.isClear, Bool.and_true,
      Bool.and_eq_true, List.contains_iff_mem] at h
    exact readsWhole_binary h.1.1 (l.reads stop h.1.2).1 (r.reads stop h.2).1 h.1.2 h.2
  | .unary op o, h => by
    refine reads_of_operation rfl ?_
    simp only [Expr.legible, Expr.every, Expr.fits, Expr.isClear, Bool.and_true,
      Bool.and_eq_true, Bool.or_eq_true, beq_iff_eq] at h
    obtain ⟨rfl | rfl, ho⟩ := h
    · exact readsWhole_neg (o.reads stop ho).1 ho
    · exact readsWhole_not (o.reads stop ho).1 ho
  | .alien _, h => by
    simp [Expr.legible, Expr.every, Expr.fits] at h

theorem readsArguments (stop : Token) : ∀ es : List Expr, legibleExprs es = true →
    ReadsArguments stop es
  | [], _ => readsArguments_nil
  | e :: es, h => by
    simp only [legibleExprs, everyExpr, Bool.and_eq_true] at h
    exact readsArguments_cons (e.reads stop h.1).2 h.1 (readsMore stop es h.2)

theorem readsMore (stop : Token) : ∀ es : List Expr, legibleExprs es = true → ReadsMore stop es
  | [], _ => readsMore_nil
  | e :: es, h => by
    simp only [legibleExprs, everyExpr, Bool.and_eq_true] at h
    exact readsMore_cons (e.reads stop h.1).2 (readsMore stop es h.2)

end

end Reading

end FormBasic
