import FormBasic.Proofs.Grammar.Expressions

/-!
# Reading statements back

The tokens of a written block are parsed as the block they were written for. Every statement is
followed by the end of a line, and a block by the end of a line and its closing words, which no
statement starts with.

## Main definitions

* `OnNewline` - what follows a statement
* `Ends` - what follows the last line of a block
* `ReadsStmt`, `ReadsBlock` - statements and blocks that are read back

## Main statements

* `Stmt.reads`, `readsBlock` - legible statements and blocks are read back
-/

namespace FormBasic

open Token (Content)

/-- The end of a line and what comes after it. -/
def OnNewline (rest : List Token) : Prop := ∃ n r, rest = n :: r ∧ n.content = .newline

/-- The words that no statement starts with: those that close a block, and those that stand outside
handlers only. -/
def foreignWords : List Text :=
  ["else", "elseif", "end", "next", "wend", "loop", "private", "public", "class", "sub", "function"]

/-- What follows the last line of a block: nothing, or what closes it. -/
def Ends (closer : Closer) (rest : List Token) : Prop :=
  rest = [] ∨ (atHandlerEnd rest || closer.closes rest) = true

theorem OnNewline.closed {rest : List Token} (h : OnNewline rest) : Closed rest := by
  obtain ⟨n, r, rfl, hn⟩ := h
  exact closed_of_content hn (by decide) r

theorem OnNewline.nextIs {rest : List Token} (h : OnNewline rest) (texts : List Text) :
    nextIs rest texts = false := by
  obtain ⟨n, r, rfl, hn⟩ := h
  rw [nextIs_cons, Token.isAnyOf, List.any_eq_false]
  intro s _
  simp [Token.isSymbol, Token.kind_of_content hn, Content.newline]

theorem OnNewline.atStatementEnd {rest : List Token} (h : OnNewline rest) :
    atStatementEnd rest = true := by
  obtain ⟨n, r, rfl, hn⟩ := h
  exact (endsStatement_of_content hn).trans rfl

theorem OnNewline.append {ts rest : List Token} {ws : List Content}
    (hts : ts.map Token.content = ws) (hws : ws = [] ∨ ∃ vs, ws = .newline :: vs)
    (h : OnNewline rest) : OnNewline (ts ++ rest) := by
  rcases hws with rfl | ⟨vs, rfl⟩
  · obtain rfl : ts = [] := by simpa using hts
    exact h
  · obtain ⟨n, ts, rfl, hn, -⟩ := List.map_eq_cons_iff.1 hts
    exact ⟨n, _, rfl, hn⟩

theorem nextIs_of_closes {closer : Closer} {rest : List Token}
    (h : (atHandlerEnd rest || closer.closes rest) = true) : nextIs rest foreignWords = true := by
  have hmono : ∀ texts : List Text, texts ⊆ foreignWords → nextIs rest texts = true →
      nextIs rest foreignWords = true := by
    intro texts hsub hnext
    cases hw : nextIs rest foreignWords with
    | true => rfl
    | false => exact absurd hnext (by rw [nextIs_subset hsub hw]; decide)
  simp only [atHandlerEnd, atEndOf, Bool.or_eq_true, Bool.and_eq_true] at h
  rcases h with h | h
  · exact hmono ["end"] (by decide) h.1
  · cases closer with
    | handler => cases h
    | branch =>
      simp only [Closer.closes, atEndOf, Bool.or_eq_true, Bool.and_eq_true] at h
      exact h.elim (hmono ["else", "elseif"] (by decide)) fun h => hmono ["end"] (by decide) h.1
    | lastBranch =>
      simp only [Closer.closes, atEndOf, Bool.and_eq_true] at h
      exact hmono ["end"] (by decide) h.1
    | forBody => exact hmono ["next"] (by decide) h
    | whileBody =>
      simp only [Closer.closes, atEndOf, Bool.or_eq_true, Bool.and_eq_true] at h
      exact h.elim (hmono ["wend"] (by decide)) fun h => hmono ["end"] (by decide) h.1
    | doBody => exact hmono ["loop"] (by decide) h

theorem skipNewlines_cons_newline {n : Token} (hn : n.content = .newline) (rest : List Token) :
    skipNewlines (n :: rest) = skipNewlines rest := by
  simp [skipNewlines, Token.kind_of_content hn, Content.newline]

theorem skipNewlines_cons_other {t : Token} (ht : t.kind ≠ .newline) (rest : List Token) :
    skipNewlines (t :: rest) = t :: rest := by
  simp [skipNewlines, ht]

theorem Ends.skipNewlines {closer : Closer} {rest : List Token} (h : Ends closer rest) :
    skipNewlines rest = rest := by
  rcases h with rfl | h
  · rfl
  · obtain ⟨t, r, rfl, ht⟩ := exists_of_nextIs (nextIs_of_closes h)
    refine skipNewlines_cons_other ?_ r
    intro hkind
    obtain ⟨s, -, hs⟩ := Token.isAnyOf_eq_true_iff.1 ht
    simp [Token.isSymbol, hkind] at hs

section Blocks

variable {stop : Token} {closer : Closer} {n : Token} {rest : List Token}

/-- A block without statements ends at once. -/
theorem plain_parseBlock_end (hn : n.content = .newline) (h : Ends closer rest) :
    (parseBlock stop closer (n :: rest)).plain = .ok ([], rest) := by
  rw [plain_parseBlock, skipNewlines_cons_newline hn, h.skipNewlines]
  rcases h with rfl | h
  · rfl
  · obtain ⟨t, r, rfl, -⟩ := exists_of_nextIs (nextIs_of_closes h)
    simp only [h, if_true]

/-- A first statement, which starts with no foreign word, and the others. -/
theorem plain_parseBlock_step {t : Token} {us : List Token} {s : Stmt} (hn : n.content = .newline)
    (hkind : t.kind ≠ .newline) (hword : t.isAnyOf foreignWords = false)
    (h : (parseStatement stop t us).plain = .ok (some s, rest)) :
    (parseBlock stop closer (n :: t :: us)).plain = (do
      let (ss, rest) ← (parseBlock stop closer rest).plain
      return (s :: ss, rest)) := by
  have hopen : (atHandlerEnd (t :: us) || closer.closes (t :: us)) = false := by
    rw [Bool.eq_false_iff]
    intro hclose
    have := nextIs_of_closes hclose
    rw [nextIs_cons, hword] at this
    cases this
  rw [plain_parseBlock, skipNewlines_cons_newline hn, skipNewlines_cons_other hkind]
  simp only [hopen, Bool.false_eq_true, if_false, h]
  rfl

end Blocks

section Reading

variable (stop : Token)

/-- The tokens of a statement are read as the statement when its line ends there. -/
def ReadsStmt (s : Stmt) : Prop :=
  ∀ ts : List Token, ts.map Token.content = s.contents → ∃ t us s', ts = t :: us ∧
    t.kind ≠ .newline ∧ t.isAnyOf foreignWords = false ∧ s.same s' = true ∧
    ∀ rest, OnNewline rest → (parseStatement stop t (us ++ rest)).plain = .ok (some s', rest)

/-- The tokens of a block are read as the block when it is closed there. -/
def ReadsBlock (ss : List Stmt) : Prop :=
  ∀ ts : List Token, ts.map Token.content = blockContents ss → ∃ ss', sameBlock ss ss' = true ∧
    ∀ closer n rest, n.content = .newline → Ends closer rest →
      (parseBlock stop closer (ts ++ n :: rest)).plain = .ok (ss', rest)

/-- The tokens of further branches are read as the branches when no others follow. -/
def ReadsElseIfs (es : List ElseIf) : Prop :=
  ∀ ts : List Token, ts.map Token.content = elseIfContents es → ∃ es', sameElseIfs es es' = true ∧
    ∀ n rest, n.content = .newline → nextIs rest ["elseif"] = false → Ends .branch rest →
      ∃ n' rest', ts ++ n :: rest = n' :: rest' ∧ n'.content = .newline ∧ Ends .branch rest' ∧
        (parseElseIfs stop rest').plain = .ok (es', rest)

variable {stop}

/-- An expression before something that does not continue it. -/
theorem plain_parseExpr_of_legible (stop : Token) {e : Expr} (h : e.legible = true)
    {ts : List Token}
    (hts : ts.map Token.content = e.contents) :
    ∃ e', e.same e' = true ∧
      ∀ rest, Closed rest → (parseExpr stop (ts ++ rest)).plain = .ok (e', rest) :=
  (e.reads stop h).2 ts hts

/-- An optional clause before the end of the line. -/
theorem plain_parseClause_of_legible (stop : Token) {symbol : Text} {c : Content}
    {clause : Option Expr}
    (hc : c.token.isSymbol symbol = true)
    (h : clause.all (Expr.every fun e => e.fits && e.isClear) = true) {ts : List Token}
    (hts : ts.map Token.content = clauseContents [c] clause) :
    ∃ clause', sameOption clause clause' = true ∧ ∀ rest, OnNewline rest →
      (parseClause stop symbol (ts ++ rest)).plain = .ok (clause', rest) := by
  cases clause with
  | none =>
    obtain rfl : ts = [] := by simpa [clauseContents] using hts
    refine ⟨none, rfl, fun rest hrest => ?_⟩
    have hnext := hrest.nextIs [symbol]
    obtain ⟨n, r, rfl, hn⟩ := hrest
    rw [List.nil_append, plain_parseClause_cons, isSymbol_of_nextIs hnext (by simp)]
    rfl
  | some e =>
    obtain ⟨t, ts, rfl, ht, hts⟩ := List.map_eq_cons_iff.1 hts
    obtain ⟨e', hsame, hparse⟩ := plain_parseExpr_of_legible stop h hts
    refine ⟨some e', hsame, fun rest hrest => ?_⟩
    rw [List.cons_append, plain_parseClause_cons, isSymbol_of_content ht, hc, if_pos rfl,
      hparse rest hrest.closed]
    rfl

theorem closed_clause {c : Content} {clause : Option Expr}
    (hc : c.token.isAnyOf continuations = false) {ts : List Token}
    (hts : ts.map Token.content = clauseContents [c] clause) {rest : List Token}
    (h : OnNewline rest) : Closed (ts ++ rest) := by
  cases clause with
  | none =>
    obtain rfl : ts = [] := by simpa [clauseContents] using hts
    exact h.closed
  | some e =>
    obtain ⟨t, ts, rfl, ht, -⟩ := List.map_eq_cons_iff.1 hts
    exact closed_of_content ht hc _

theorem plain_expect {want : Text} {t : Token} {c : Content} (ht : t.content = c)
    (hc : c.token.isSymbol want = true) (rest : List Token) :
    (expect stop want (t :: rest)).plain = .ok (t, rest) := by
  rw [plain_expect_cons, isSymbol_of_content ht, hc, if_pos rfl]

/-- A statement that starts with a keyword of its own. -/
theorem readsStmt_of_keyword {s : Stmt} {word : Text} {ws : List Content}
    (hs : s.contents = .keyword word :: ws)
    (hword : (Content.keyword word).token.isAnyOf foreignWords = false)
    (h : ∀ t : Token, t.content = .keyword word → ∀ us : List Token,
      us.map Token.content = ws → ∃ s', s.same s' = true ∧ ∀ rest, OnNewline rest →
        (parseStatement stop t (us ++ rest)).plain = .ok (some s', rest)) :
    ReadsStmt stop s := by
  intro ts hts
  rw [hs] at hts
  obtain ⟨t, us, rfl, ht, hus⟩ := List.map_eq_cons_iff.1 hts
  obtain ⟨s', hsame, hparse⟩ := h t ht us hus
  refine ⟨t, us, s', rfl, ?_, ?_, hsame, hparse⟩
  · rw [Token.kind_of_content ht]
    exact fun h => by cases h
  · rw [isAnyOf_of_content ht, hword]

theorem typeSegments_stop (stop : Token) (name : Text) {rest : List Token}
    (h : nextIs rest ["."] = false) :
    (typeSegments stop name rest).value = name ∧ (typeSegments stop name rest).rest = rest := by
  match rest, h with
  | [], _ => exact ⟨rfl, rfl⟩
  | [t], h =>
    have ht := isSymbol_of_nextIs h (List.mem_singleton.2 rfl)
    simp [typeSegments, ht]
  | t :: n :: rest, h =>
    have ht := isSymbol_of_nextIs h (List.mem_singleton.2 rfl)
    simp [typeSegments, ht]

/-- The type of a declaration, which is left out when it is the default one. -/
theorem plain_parseType_of_isTypeName {typeName : Text} (h : isTypeName typeName = true)
    {ts : List Token}
    (hts : ts.map Token.content =
      if typeName = "Object" then [] else [.keyword "as", .ofName typeName]) {rest : List Token}
    (hrest : nextIs rest [".", "as"] = false) (hne : rest ≠ []) :
    (parseType stop (ts ++ rest)).plain = .ok ((typeName, none), rest) := by
  split at hts
  · next hobject =>
    obtain rfl : ts = [] := by simpa using hts
    cases rest with
    | nil => exact absurd rfl hne
    | cons t rest =>
      rw [List.nil_append, plain_parseType_cons, isSymbol_of_nextIs hrest (by simp), hobject]
      rfl
  · next hobject =>
    obtain ⟨t, ts, rfl, ht, hts⟩ := List.map_eq_cons_iff.1 hts
    obtain ⟨n, rfl, hn⟩ : ∃ n, ts = [n] ∧ n.content = .ofName typeName := by simpa using hts
    have hname : n.isName = true ∧ n.text = typeName ∧ n.isSymbol "new" = false := by
      simp only [isTypeName, Bool.or_eq_true, beq_iff_eq, Bool.and_eq_true, bne_iff_ne] at h
      rcases h with (h | h) | h
      · exact absurd h hobject
      · rw [ofName_of_isPlainName h] at hn
        exact ⟨by rw [isName_of_content hn]; rfl, Token.text_of_content hn,
          by rw [isSymbol_of_content hn]; rfl⟩
      · rw [ofName_of_isKeyword h.1] at hn
        refine ⟨by rw [isName_of_content hn]; rfl, Token.text_of_content hn, ?_⟩
        simpa [Token.isSymbol, Token.text_of_content hn, Content.keyword] using fun _ => h.2
    obtain ⟨hvalue, hremain⟩ := typeSegments_stop stop typeName
      (nextIs_subset (by simp) hrest)
    rw [List.cons_append, plain_parseType_cons, isSymbol_of_content ht, if_pos (by decide),
      List.singleton_append, plain_parseAs_name stop hname.2.2, parseTypeName, if_pos hname.1]
    simp only [Answer.plain_ok, hname.2.1, hvalue, hremain]
    rfl

theorem readsStmt_dim {name typeName : Text} {initial : Option Expr} (line : Line)
    (hname : isPlainName name = true) (htype : isTypeName typeName = true)
    (h : initial.all (Expr.every fun e => e.fits && e.isClear) = true) :
    ReadsStmt stop (.dim name typeName initial line) := by
  refine readsStmt_of_keyword rfl (by decide) ?_
  intro t ht us hus
  obtain ⟨n, us, rfl, hn, hus⟩ := List.map_eq_cons_iff.1 hus
  obtain ⟨ts, vs, rfl, hts, hvs⟩ := List.map_eq_append_iff.1 hus
  obtain ⟨initial', hsame, hparse⟩ := plain_parseClause_of_legible stop
    (show (Content.operator "=").token.isSymbol "=" = true by decide) h hvs
  refine ⟨.dim name typeName initial' t.line, by simp [Stmt.same, hsame], fun rest hrest => ?_⟩
  rw [ofName_of_isPlainName hname] at hn
  have hnext : nextIs (vs ++ rest) [".", "as"] = false := by
    cases initial with
    | none =>
      obtain rfl : vs = [] := by simpa [clauseContents] using hvs
      exact hrest.nextIs _
    | some e =>
      obtain ⟨u, vs, rfl, hu, -⟩ := List.map_eq_cons_iff.1 hvs
      rw [List.cons_append, nextIs_cons, isAnyOf_of_content hu]
      decide
  have hne : vs ++ rest ≠ [] := by
    obtain ⟨m, r, rfl, -⟩ := hrest
    simp
  have hdim : (parseDim stop t.line (n :: (ts ++ (vs ++ rest)))).plain =
      .ok (.dim name typeName initial' t.line, rest) := by
    rw [plain_parseDim_cons, if_pos (Token.kind_of_content hn),
      plain_parseType_of_isTypeName htype hts hnext hne]
    simp only [bind, Except.bind, hparse rest hrest, Token.text_of_content hn, Option.or_none]
    rfl
  rw [plain_parseStatement, isSymbol_of_content ht, if_pos (by decide), List.cons_append,
    List.append_assoc, hdim]
  rfl

theorem readsStmt_return {value : Option Expr} (line : Line)
    (h : value.all (Expr.every fun e => e.fits && e.isClear) = true) :
    ReadsStmt stop (.ret value line) := by
  refine readsStmt_of_keyword rfl (by decide) ?_
  intro t ht us hus
  have hdispatch : ∀ (s' : Stmt) (rest : List Token),
      (parseReturn stop t.line (us ++ rest)).plain = .ok (s', rest) →
      (parseStatement stop t (us ++ rest)).plain = .ok (some s', rest) := by
    intro s' rest hret
    simp only [plain_parseStatement, isSymbol_of_content ht]
    rw [if_neg (by decide), if_neg (by decide), if_neg (by decide), if_neg (by decide),
      if_neg (by decide), if_pos (by decide), hret]
    rfl
  cases value with
  | none =>
    obtain rfl : us = [] := by simpa [clauseContents] using hus
    refine ⟨.ret none t.line, rfl, fun rest hrest => hdispatch _ _ ?_⟩
    rw [List.nil_append, plain_parseReturn, hrest.atStatementEnd]
    rfl
  | some e =>
    obtain ⟨e', hsame, hparse⟩ := plain_parseExpr_of_legible stop h hus
    refine ⟨.ret (some e') t.line, by simpa [Stmt.same, sameOption] using hsame,
      fun rest hrest => hdispatch _ _ ?_⟩
    have hstart : atStatementEnd (us ++ rest) = false := by
      obtain ⟨c, ws, hws, -, hc⟩ := exists_head_contents e h
      simp only [clauseContents, List.nil_append] at hus
      rw [hws] at hus
      obtain ⟨u, us, rfl, hu, -⟩ := List.map_eq_cons_iff.1 hus
      exact (endsStatement_of_content hu).trans hc
    rw [plain_parseReturn, hstart, hparse rest hrest.closed]
    rfl

theorem exitContents_spec {what : Text} (h : isExitWord what = true) (hne : what ≠ "") :
    ∃ c, exitContents what = [c] ∧ c.token.endsStatement = false ∧ Text.lower c.text = what := by
  simp only [isExitWord, Bool.or_eq_true, beq_iff_eq, List.contains_iff_mem] at h
  rw [exitContents, if_neg hne]
  split
  · next hsmall =>
    refine ⟨_, rfl, ?_, ?_⟩
    · unfold Content.ofName
      split <;> rfl
    · obtain ⟨hident, hlow⟩ := capitalize_of_isSmallWord hsmall
      simp only [isSmallWord, Bool.and_eq_true, beq_iff_eq] at hsmall
      unfold Content.ofName
      split
      · simp only [Content.keyword, ofString_word hident, hlow, hsmall.2]
      · exact hlow
  next hsmall =>
  split
  · next hnum => exact ⟨_, rfl, rfl, (capitalize_of_isNumeral hnum).2⟩
  next hnum =>
  split
  · next hop =>
    rw [List.contains_iff_mem] at hop
    exact ⟨_, rfl, rfl, (capitalize_of_sign (List.mem_append_left _ hop)).2⟩
  · next hop =>
    have hp : what ∈ punctuationSigns := by
      rcases h with (((h | h) | h) | h) | h
      · exact absurd h hne
      · exact absurd h hsmall
      · exact absurd h hnum
      · exact absurd (List.contains_iff_mem.2 h) hop
      · exact h
    exact ⟨_, rfl, rfl, (capitalize_of_sign (List.mem_append_right _ hp)).2⟩

theorem readsStmt_exit {what : Text} (line : Line) (h : isExitWord what = true) :
    ReadsStmt stop (.exit what line) := by
  refine readsStmt_of_keyword rfl (by decide) ?_
  intro t ht us hus
  refine ⟨.exit what t.line, by simp [Stmt.same], fun rest hrest => ?_⟩
  simp only [plain_parseStatement, isSymbol_of_content ht]
  rw [if_neg (by decide), if_neg (by decide), if_neg (by decide), if_neg (by decide),
    if_neg (by decide), if_neg (by decide), if_pos (by decide)]
  by_cases hw : what = ""
  · subst hw
    obtain rfl : us = [] := by simpa [exitContents] using hus
    obtain ⟨n, r, rfl, hn⟩ := hrest
    have hend : n.endsStatement = true := (endsStatement_of_content hn).trans rfl
    simp [parseExit, hend, Parsed.stay]
  · obtain ⟨c, hc, hends, hlow⟩ := exitContents_spec h hw
    rw [hc] at hus
    obtain ⟨u, rfl, hu⟩ : ∃ u, us = [u] ∧ u.content = c := by simpa using hus
    have hend : u.endsStatement = false := (endsStatement_of_content hu).trans hends
    have htext : Text.lower u.text = what := by rw [Token.text_of_content hu, hlow]
    simp [parseExit, hend, htext, Parsed.stay, Parsed.next, Parsed.weaken]

/-- A token that an operand starts with begins no other statement. -/
theorem plain_parseStatement_of_opens {t : Token} {c : Content} (ht : t.content = c)
    (hc : c.opens = true) (us : List Token) :
    (parseStatement stop t us).plain = (parseExprStatement stop t.line (t :: us)).plain := by
  have hsym : ∀ s, s ∉ openers → t.isSymbol s = false := by
    intro s hs
    rw [isSymbol_of_content ht]
    exact isSymbol_of_opens hc hs
  rw [plain_parseStatement, hsym "dim" (by decide), hsym "if" (by decide), hsym "for" (by decide),
    hsym "while" (by decide), hsym "do" (by decide), hsym "return" (by decide),
    hsym "exit" (by decide), hsym "end" (by decide)]
  rfl

theorem readsStmt_of_opens {s : Stmt} {c : Content} {ws : List Content}
    (hs : s.contents = c :: ws) (hc : c.opens = true)
    (h : ∀ (line : Line) (ts : List Token), ts.map Token.content = s.contents →
      ∃ s', s.same s' = true ∧ ∀ rest, OnNewline rest →
        (parseExprStatement stop line (ts ++ rest)).plain = .ok (some s', rest)) :
    ReadsStmt stop s := by
  intro ts hts
  rw [hs] at hts
  obtain ⟨t, us, rfl, ht, hus⟩ := List.map_eq_cons_iff.1 hts
  obtain ⟨s', hsame, hparse⟩ := h t.line (t :: us) (hts.trans hs.symm)
  refine ⟨t, us, s', rfl, ?_, ?_, hsame, fun rest hrest => ?_⟩
  · intro hkind
    have := endsStatement_of_opens hc
    rw [← endsStatement_of_content ht, Token.endsStatement, hkind] at this
    cases this
  · exact nextIs_of_opens hc ht us (show ∀ s ∈ foreignWords, s ∉ openers by decide)
  · rw [plain_parseStatement_of_opens ht hc]
    exact hparse rest hrest

theorem isPlace_of_same {e e' : Expr} (h : e.same e' = true) : e'.isPlace = e.isPlace := by
  cases e <;> cases e' <;> first | rfl | (simp [Expr.same] at h)

theorem eq_call_of_same {o e' : Expr} {args : List Expr} (h : (Expr.call o args).same e' = true) :
    ∃ o' args', e' = .call o' args' ∧ o.same o' = true ∧ sameExprs args args' = true := by
  cases e' with
  | call o' args' => exact ⟨o', args', rfl, by simpa [Expr.same] using h⟩
  | _ => simp [Expr.same] at h

theorem isSimple_of_isPlace {e : Expr} (h : e.isPlace = true) : e.isSimple = true := by
  cases e <;> first | rfl | cases h

theorem readsStmt_assign {target value : Expr} (line : Line) (hplace : target.isPlace = true)
    (ht : target.legible = true) (hv : value.legible = true) :
    ReadsStmt stop (.assign target value line) := by
  have hatom : target.atomContents = target.contents := if_pos (isSimple_of_isPlace hplace)
  obtain ⟨c, ws, hws, hc⟩ := exists_head_atomContents target ht
  rw [hatom] at hws
  refine readsStmt_of_opens (congrArg (· ++ _) hws) hc ?_
  intro line' ts hts
  obtain ⟨us, vs, rfl, hus, hvs⟩ := List.map_eq_append_iff.1 hts
  obtain ⟨t, vs, rfl, heq, hvs⟩ := List.map_eq_cons_iff.1 hvs
  have hreads := (target.reads stop ht).1
  rw [hatom] at hreads
  obtain ⟨target', hsame, hparse⟩ := hreads us hus
  obtain ⟨value', hsame', hparse'⟩ := plain_parseExpr_of_legible stop hv hvs
  refine ⟨.assign target' value' line', by simp [Stmt.same, hsame, hsame'], fun rest hrest => ?_⟩
  have htarget : (parsePostfix stop (us ++ t :: (vs ++ rest))).plain =
      .ok (target', t :: (vs ++ rest)) := by
    rw [hparse]
    refine plain_parseSuffixes_stop ?_
    rw [nextIs_cons, isAnyOf_of_content heq]
    decide
  have hnext : nextIs (t :: (vs ++ rest)) ["="] = true := by
    rw [nextIs_cons, isAnyOf_of_content heq]
    decide
  have hvalue : (parseExpr stop ((t :: (vs ++ rest)).drop 1)).plain = .ok (value', rest) :=
    hparse' rest hrest.closed
  rw [List.append_assoc, List.cons_append, plain_parseExprStatement, htarget]
  simp only [bind, Except.bind, isPlace_of_same hsame, hplace, hnext, Bool.and_self, if_true,
    hvalue]
  rfl

theorem readsStmt_call {callee : Expr} {args : List Expr} (line : Line)
    (hc : callee.legible = true) (ha : legibleExprs args = true) :
    ReadsStmt stop (.call callee args line) := by
  have hlegible : (Expr.call callee args).legible = true := by
    simp only [Expr.legible, Expr.every, Expr.fits, Expr.isClear, Bool.and_self, Bool.true_and,
      Bool.and_eq_true]
    exact ⟨hc, ha⟩
  obtain ⟨c, ws, hws, hopens⟩ := exists_head_atomContents (.call callee args) hlegible
  refine readsStmt_of_opens hws hopens ?_
  intro line' ts hts
  obtain ⟨e', hsame, hparse⟩ := ((Expr.call callee args).reads stop hlegible).1 ts hts
  obtain ⟨e'', hsame', hparse'⟩ := plain_parseExpr_of_legible stop hlegible hts
  obtain ⟨callee', args', rfl, hcsame, hasame⟩ := eq_call_of_same hsame'
  refine ⟨.call callee' args' line', by simp [Stmt.same, hcsame, hasame], fun rest hrest => ?_⟩
  have hplace : e'.isPlace = false := isPlace_of_same hsame
  rw [plain_parseExprStatement, hparse rest, plain_parseSuffixes_stop (hrest.nextIs _)]
  simp only [bind, Except.bind, hplace, Bool.false_and, Bool.false_eq_true, if_false,
    hparse' rest hrest.closed]
  rfl

theorem blockContents_cases (ss : List Stmt) :
    blockContents ss = [] ∨ ∃ vs, blockContents ss = .newline :: vs := by
  cases ss with
  | nil => exact .inl rfl
  | cons s ss => exact .inr ⟨_, rfl⟩

theorem readsBlock_nil : ReadsBlock stop [] := by
  intro ts hts
  obtain rfl : ts = [] := by simpa [blockContents] using hts
  exact ⟨[], rfl, fun closer n rest hn hrest => plain_parseBlock_end hn hrest⟩

theorem readsBlock_cons {s : Stmt} {ss : List Stmt} (hs : ReadsStmt stop s)
    (hss : ReadsBlock stop ss) : ReadsBlock stop (s :: ss) := by
  intro ts hts
  rw [blockContents] at hts
  obtain ⟨n, ts, rfl, hn, hts⟩ := List.map_eq_cons_iff.1 hts
  obtain ⟨us, vs, rfl, hus, hvs⟩ := List.map_eq_append_iff.1 hts
  obtain ⟨t, us, s', rfl, hkind, hword, hsame, hparse⟩ := hs us hus
  obtain ⟨ss', hsame', hparse'⟩ := hss vs hvs
  refine ⟨s' :: ss', by simp [sameBlock, hsame, hsame'], fun closer m rest hm hrest => ?_⟩
  have hline : OnNewline (vs ++ m :: rest) :=
    OnNewline.append hvs (blockContents_cases ss) ⟨m, rest, rfl, hm⟩
  have hfirst : (parseStatement stop t (us ++ (vs ++ m :: rest))).plain =
      .ok (some s', vs ++ m :: rest) := hparse _ hline
  rw [List.cons_append, List.cons_append, List.cons_append, List.append_assoc,
    plain_parseBlock_step hn hkind hword hfirst, hparse' closer m rest hm hrest]
  rfl

theorem readsStmt_while {test : Expr} {body : List Stmt} (line : Line) (ht : test.legible = true)
    (hb : ReadsBlock stop body) : ReadsStmt stop (.whileLoop test body line) := by
  refine readsStmt_of_keyword rfl (by decide) ?_
  intro t hword ts hts
  obtain ⟨us, others, rfl, hus, hothers⟩ := List.map_eq_append_iff.1 hts
  obtain ⟨vs, ends, rfl, hvs, hends⟩ := List.map_eq_append_iff.1 hothers
  obtain ⟨n, ends, rfl, hn, hends⟩ := List.map_eq_cons_iff.1 hends
  obtain ⟨w, rfl, hw⟩ : ∃ w, ends = [w] ∧ w.content = .keyword "wend" := by simpa using hends
  obtain ⟨test', hsame, hparse⟩ := plain_parseExpr_of_legible stop ht hus
  obtain ⟨body', hsame', hparse'⟩ := hb vs hvs
  refine ⟨.whileLoop test' body' t.line, by simp [Stmt.same, hsame, hsame'], fun rest hrest => ?_⟩
  have hwend : nextIs (w :: rest) ["wend"] = true := by
    rw [nextIs_cons, isAnyOf_of_content hw]
    decide
  have hbody : (parseBlock stop .whileBody (vs ++ n :: w :: rest)).plain =
      .ok (body', w :: rest) :=
    hparse' .whileBody n (w :: rest) hn (.inr (by simp [Closer.closes, hwend]))
  have hclosed : Closed (vs ++ n :: w :: rest) :=
    (OnNewline.append hvs (blockContents_cases body) ⟨n, _, rfl, hn⟩).closed
  have hafter : afterWend (w :: rest) = rest := by simp [afterWend, hwend]
  have hwhile : (parseWhile stop t.line (us ++ (vs ++ n :: w :: rest))).plain =
      .ok (.whileLoop test' body' t.line, rest) := by
    rw [plain_parseWhile, hparse _ hclosed]
    simp only [bind, Except.bind, hbody, hafter]
    rfl
  simp only [plain_parseStatement, isSymbol_of_content hword]
  rw [if_neg (by decide), if_neg (by decide), if_neg (by decide), if_pos (by decide),
    List.append_assoc, List.append_assoc, List.cons_append, List.singleton_append, hwhile]
  rfl

theorem readsStmt_for {counter : Text} {start last : Expr} {step : Option Expr}
    {body : List Stmt} (line : Line) (hc : isPlainName counter = true)
    (hs : start.legible = true) (hl : last.legible = true)
    (hstep : step.all (Expr.every fun e => e.fits && e.isClear) = true)
    (hb : ReadsBlock stop body) :
    ReadsStmt stop (.forLoop counter start last step body line) := by
  refine readsStmt_of_keyword rfl (by decide) ?_
  intro t hword ts hts
  obtain ⟨v, ts, rfl, hv, hts⟩ := List.map_eq_cons_iff.1 hts
  obtain ⟨q, ts, rfl, hq, hts⟩ := List.map_eq_cons_iff.1 hts
  obtain ⟨us, ts, rfl, hus, hts⟩ := List.map_eq_append_iff.1 hts
  obtain ⟨o, ts, rfl, ho, hts⟩ := List.map_eq_cons_iff.1 hts
  obtain ⟨us', ts, rfl, hus', hts⟩ := List.map_eq_append_iff.1 hts
  obtain ⟨cs, ts, rfl, hcs, hts⟩ := List.map_eq_append_iff.1 hts
  obtain ⟨vs, ends, rfl, hvs, hends⟩ := List.map_eq_append_iff.1 hts
  obtain ⟨n, ends, rfl, hn, hends⟩ := List.map_eq_cons_iff.1 hends
  obtain ⟨w, rfl, hw⟩ : ∃ w, ends = [w] ∧ w.content = .keyword "next" := by simpa using hends
  obtain ⟨start', hsame₁, hparse₁⟩ := plain_parseExpr_of_legible stop hs hus
  obtain ⟨last', hsame₂, hparse₂⟩ := plain_parseExpr_of_legible stop hl hus'
  obtain ⟨step', hsame₃, hparse₃⟩ := plain_parseClause_of_legible stop
    (show (Content.keyword "step").token.isSymbol "step" = true by decide) hstep hcs
  obtain ⟨body', hsame₄, hparse₄⟩ := hb vs hvs
  refine ⟨.forLoop counter start' last' step' body' t.line,
    by simp [Stmt.same, hsame₁, hsame₂, hsame₃, hsame₄], fun rest hrest => ?_⟩
  have hnext : nextIs (w :: rest) ["next"] = true := by
    rw [nextIs_cons, isAnyOf_of_content hw]
    decide
  have hline : OnNewline (vs ++ n :: w :: rest) :=
    OnNewline.append hvs (blockContents_cases body) ⟨n, _, rfl, hn⟩
  have hbody : (parseBlock stop .forBody (vs ++ n :: w :: rest)).plain = .ok (body', w :: rest) :=
    hparse₄ .forBody n (w :: rest) hn (.inr (by simp [Closer.closes, hnext]))
  have hafter : afterNext (w :: rest) = rest := by
    obtain ⟨m, r, rfl, hm⟩ := hrest
    have hkind : m.kind = .newline := Token.kind_of_content hm
    simp [afterNext, hnext, hkind, dropWhen]
  have hclosed₁ : Closed (o :: (us' ++ (cs ++ (vs ++ n :: w :: rest)))) :=
    closed_of_content ho (by decide) _
  have hclosed₂ : Closed (cs ++ (vs ++ n :: w :: rest)) :=
    closed_clause (by decide) hcs hline
  rw [ofName_of_isPlainName hc] at hv
  have hfor : (parseFor stop t.line
      (v :: q :: (us ++ o :: (us' ++ (cs ++ (vs ++ n :: w :: rest)))))).plain =
      .ok (.forLoop counter start' last' step' body' t.line, rest) := by
    have hequals :
        (expect stop "=" (q :: (us ++ o :: (us' ++ (cs ++ (vs ++ n :: w :: rest)))))).plain
        = .ok (q, us ++ o :: (us' ++ (cs ++ (vs ++ n :: w :: rest)))) :=
      plain_expect hq (by decide) _
    have hto : (expect stop "to" (o :: (us' ++ (cs ++ (vs ++ n :: w :: rest))))).plain =
        .ok (o, us' ++ (cs ++ (vs ++ n :: w :: rest))) := plain_expect ho (by decide) _
    rw [plain_parseFor_cons, if_pos (Token.kind_of_content hv)]
    simp only [bind, Except.bind, hequals, hparse₁ _ hclosed₁, hto, hparse₂ _ hclosed₂,
      hparse₃ _ hline, hbody, hafter, Token.text_of_content hv]
    rfl
  have htokens : v :: q :: (us ++ o :: (us' ++ (cs ++ (vs ++ [n, w])))) ++ rest =
      v :: q :: (us ++ o :: (us' ++ (cs ++ (vs ++ n :: w :: rest)))) := by simp
  rw [htokens, plain_parseStatement]
  simp only [isSymbol_of_content hword]
  rw [if_neg (by decide), if_neg (by decide), if_pos (by decide), hfor]
  rfl

theorem readsStmt_do {body : List Stmt} {test : Option Expr} {ending : Bool} (line : Line)
    (hending : test.isSome = true ∨ ending = true)
    (ht : test.all (Expr.every fun e => e.fits && e.isClear) = true)
    (hb : ReadsBlock stop body) : ReadsStmt stop (.doLoop body test ending true line) := by
  refine readsStmt_of_keyword rfl (by decide) ?_
  intro t hword ts hts
  obtain ⟨vs, ts, rfl, hvs, hts⟩ := List.map_eq_append_iff.1 hts
  obtain ⟨n, ts, rfl, hn, hts⟩ := List.map_eq_cons_iff.1 hts
  obtain ⟨w, cs, rfl, hw, hcs⟩ := List.map_eq_cons_iff.1 hts
  obtain ⟨body', hsame, hparse⟩ := hb vs hvs
  have hloop : ∃ test', sameOption test test' = true ∧ ∀ rest, OnNewline rest →
      (parseLoopTest stop (w :: (cs ++ rest))).plain = .ok ((test', ending), rest) := by
    have hsym : w.isSymbol "loop" = true := by
      rw [isSymbol_of_content hw]
      decide
    cases test with
    | none =>
      obtain rfl : cs = [] := by simpa [clauseContents] using hcs
      obtain rfl : ending = true := by simpa using hending
      refine ⟨none, rfl, fun rest hrest => ?_⟩
      have hbare := hrest.nextIs ["until", "while"]
      obtain ⟨m, r, rfl, -⟩ := hrest
      exact plain_parseLoopTest_bare stop hsym hbare r
    | some e =>
      obtain ⟨u, cs, rfl, hu, hcs⟩ := List.map_eq_cons_iff.1 hcs
      obtain ⟨e', hsame, hparse⟩ := plain_parseExpr_of_legible stop ht hcs
      refine ⟨some e', hsame, fun rest hrest => ?_⟩
      have hany : u.isAnyOf ["until", "while"] = true := by
        rw [isAnyOf_of_content hu]
        cases ending <;> decide
      have htext : (u.text == "until") = ending := by
        rw [Token.text_of_content hu]
        cases ending <;> decide
      rw [List.cons_append, plain_parseLoopTest_test stop hsym hany, hparse rest hrest.closed]
      simp only [bind, Except.bind, htext]
      rfl
  obtain ⟨test', hsame', hparse'⟩ := hloop
  refine ⟨.doLoop body' test' ending true t.line, by simp [Stmt.same, hsame, hsame'],
    fun rest hrest => ?_⟩
  have hends : nextIs (w :: (cs ++ rest)) ["loop"] = true := by
    rw [nextIs_cons, isAnyOf_of_content hw]
    decide
  have hbody : (parseBlock stop .doBody (vs ++ n :: w :: (cs ++ rest))).plain =
      .ok (body', w :: (cs ++ rest)) :=
    hparse .doBody n (w :: (cs ++ rest)) hn (.inr (by simp [Closer.closes, hends]))
  have hleading : nextIs (vs ++ n :: w :: (cs ++ rest)) ["while", "until"] = false :=
    (OnNewline.append hvs (blockContents_cases body) ⟨n, _, rfl, hn⟩).nextIs _
  have hdo : (parseDo stop t.line (vs ++ n :: w :: (cs ++ rest))).plain =
      .ok (.doLoop body' test' ending true t.line, rest) := by
    rw [plain_parseDo, hleading]
    simp only [Bool.false_eq_true, if_false, bind, Except.bind, hbody, hparse' rest hrest]
    rfl
  simp only [plain_parseStatement, isSymbol_of_content hword]
  rw [if_neg (by decide), if_neg (by decide), if_neg (by decide), if_neg (by decide),
    if_pos (by decide), List.append_assoc, List.cons_append, List.cons_append, hdo]
  rfl

theorem readsElseIfs_nil : ReadsElseIfs stop [] := by
  intro ts hts
  obtain rfl : ts = [] := by simpa [elseIfContents] using hts
  refine ⟨[], rfl, fun n rest hn hnext hends => ⟨n, rest, rfl, hn, hends, ?_⟩⟩
  cases rest with
  | nil =>
    rw [parseElseIfs]
    rfl
  | cons t rest =>
    rw [plain_parseElseIfs_cons, isSymbol_of_nextIs hnext (by simp)]
    rfl

theorem readsElseIfs_cons {test : Expr} {body : List Stmt} {es : List ElseIf}
    (ht : test.legible = true) (hb : ReadsBlock stop body) (hes : ReadsElseIfs stop es) :
    ReadsElseIfs stop (.mk test body :: es) := by
  intro ts hts
  rw [elseIfContents, ElseIf.contents] at hts
  obtain ⟨m, ts, rfl, hm, hts⟩ := List.map_eq_cons_iff.1 hts
  obtain ⟨ts, vs, rfl, hts, hvs⟩ := List.map_eq_append_iff.1 hts
  obtain ⟨w, ts, rfl, hw, hts⟩ := List.map_eq_cons_iff.1 hts
  obtain ⟨us, ts, rfl, hus, hts⟩ := List.map_eq_append_iff.1 hts
  obtain ⟨h, bs, rfl, hh, hbs⟩ := List.map_eq_cons_iff.1 hts
  obtain ⟨test', hsame₁, hparse₁⟩ := plain_parseExpr_of_legible stop ht hus
  obtain ⟨body', hsame₂, hparse₂⟩ := hb bs hbs
  obtain ⟨es', hsame₃, hparse₃⟩ := hes vs hvs
  refine ⟨.mk test' body' :: es', by simp [sameElseIfs, ElseIf.same, hsame₁, hsame₂, hsame₃],
    fun n rest hn hnext hends => ?_⟩
  obtain ⟨n', rest', hrest', hn', hends', htail⟩ := hparse₃ n rest hn hnext hends
  refine ⟨m, w :: (us ++ h :: (bs ++ n' :: rest')), ?_, hm, .inr ?_, ?_⟩
  · rw [← hrest']
    simp
  · have : nextIs (w :: (us ++ h :: (bs ++ n' :: rest'))) ["else", "elseif"] = true := by
      rw [nextIs_cons, isAnyOf_of_content hw]
      decide
    simp [Closer.closes, this]
  · have hthen :
        (expect stop "then" (h :: (bs ++ n' :: rest'))).plain = .ok (h, bs ++ n' :: rest') :=
      plain_expect hh (by decide) _
    rw [plain_parseElseIfs_cons, isSymbol_of_content hw, if_pos (by decide)]
    simp only [bind, Except.bind, hparse₁ _ (closed_of_content hh (by decide) _), hthen,
      hparse₂ .branch n' rest' hn' hends', htail]
    rfl

/-- The last branch, which is not written when it is empty, and the end of the conditional. -/
theorem plain_parseElse_of_contents {otherwise : List Stmt} (ho : ReadsBlock stop otherwise)
    {ts : List Token} (hts : ts.map Token.content =
      (if otherwise.isEmpty then [] else .newline :: .keyword "else" :: blockContents otherwise) ++
        [.newline, .keyword "end", .keyword "if"]) :
    ∃ otherwise', sameBlock otherwise otherwise' = true ∧ ∀ rest, ∃ n rest' rest'',
      ts ++ rest = n :: rest' ∧ n.content = .newline ∧ nextIs rest' ["elseif"] = false ∧
      Ends .branch rest' ∧ (parseElse stop rest').plain = .ok (otherwise', rest'') ∧
      afterEndIf rest'' = rest := by
  obtain ⟨es, ends, rfl, hes, hends⟩ := List.map_eq_append_iff.1 hts
  obtain ⟨n, ends, rfl, hn, hends⟩ := List.map_eq_cons_iff.1 hends
  obtain ⟨d, ends, rfl, hd, hends⟩ := List.map_eq_cons_iff.1 hends
  obtain ⟨f, rfl, hf⟩ : ∃ f, ends = [f] ∧ f.content = .keyword "if" := by simpa using hends
  have hend : ∀ rest, atEndOf (d :: f :: rest) ["if"] = true := by
    intro rest
    simp only [atEndOf, List.drop_succ_cons, List.drop_zero, nextIs_cons, isAnyOf_of_content hd,
      isAnyOf_of_content hf]
    decide
  have hafter : ∀ rest, afterEndIf (d :: f :: rest) = rest := by
    intro rest
    simp [afterEndIf, hend rest, dropWhen]
  split at hes
  · next hempty =>
    obtain rfl : otherwise = [] := by simpa using hempty
    obtain rfl : es = [] := by simpa using hes
    refine ⟨[], rfl, fun rest => ⟨n, d :: f :: rest, _, rfl, hn, ?_, ?_, ?_, hafter rest⟩⟩
    · rw [nextIs_cons, isAnyOf_of_content hd]
      decide
    · exact .inr (by simp [Closer.closes, hend rest])
    · rw [plain_parseElse_cons, isSymbol_of_content hd, if_neg (by decide)]
  · obtain ⟨m, es, rfl, hm, hes⟩ := List.map_eq_cons_iff.1 hes
    obtain ⟨w, bs, rfl, hw, hbs⟩ := List.map_eq_cons_iff.1 hes
    obtain ⟨otherwise', hsame, hparse⟩ := ho bs hbs
    refine ⟨otherwise', hsame, fun rest =>
      ⟨m, w :: (bs ++ n :: d :: f :: rest), _, by simp, hm, ?_, ?_, ?_, hafter rest⟩⟩
    · rw [nextIs_cons, isAnyOf_of_content hw]
      decide
    · have : nextIs (w :: (bs ++ n :: d :: f :: rest)) ["else", "elseif"] = true := by
        rw [nextIs_cons, isAnyOf_of_content hw]
        decide
      exact .inr (by simp [Closer.closes, this])
    · rw [plain_parseElse_cons, isSymbol_of_content hw, if_pos (by decide)]
      exact hparse .lastBranch n (d :: f :: rest) hn (.inr (by simp [Closer.closes, hend rest]))

theorem readsStmt_cond {test : Expr} {body : List Stmt} {elseIfs : List ElseIf}
    {otherwise : List Stmt} (line : Line) (ht : test.legible = true) (hb : ReadsBlock stop body)
    (hes : ReadsElseIfs stop elseIfs) (ho : ReadsBlock stop otherwise) :
    ReadsStmt stop (.cond test body elseIfs otherwise line) := by
  refine readsStmt_of_keyword rfl (by decide) ?_
  intro t hword ts hts
  obtain ⟨us, ts, rfl, hus, hts⟩ := List.map_eq_append_iff.1 hts
  obtain ⟨h, ts, rfl, hh, hts⟩ := List.map_eq_cons_iff.1 hts
  obtain ⟨bs, ts, rfl, hbs, hts⟩ := List.map_eq_append_iff.1 hts
  obtain ⟨vs, ends, rfl, hvs, hends⟩ := List.map_eq_append_iff.1 hts
  obtain ⟨test', hsame₁, hparse₁⟩ := plain_parseExpr_of_legible stop ht hus
  obtain ⟨body', hsame₂, hparse₂⟩ := hb bs hbs
  obtain ⟨elseIfs', hsame₃, hparse₃⟩ := hes vs hvs
  obtain ⟨otherwise', hsame₄, hparse₄⟩ := plain_parseElse_of_contents ho hends
  refine ⟨.cond test' body' elseIfs' otherwise' t.line,
    by simp [Stmt.same, hsame₁, hsame₂, hsame₃, hsame₄], fun rest hrest => ?_⟩
  obtain ⟨n, r, r', htail, hn, hnext, hend, helse, hafter⟩ := hparse₄ rest
  obtain ⟨n', q, hq, hn', hend', helseIfs⟩ := hparse₃ n r hn hnext hend
  have htokens : us ++ h :: (bs ++ (vs ++ ends)) ++ rest = us ++ h :: (bs ++ n' :: q) := by
    rw [← hq, ← htail]
    simp
  have hthen : (expect stop "then" (h :: (bs ++ n' :: q))).plain = .ok (h, bs ++ n' :: q) :=
    plain_expect hh (by decide) _
  obtain ⟨m, p, hp, hm⟩ : OnNewline (bs ++ n' :: q) :=
    OnNewline.append hbs (blockContents_cases body) ⟨n', q, rfl, hn'⟩
  have hbody : (parseBlock stop .branch (m :: p)).plain = .ok (body', q) :=
    hp ▸ hparse₂ .branch n' q hn' hend'
  have hcond : (parseCond stop t.line (us ++ h :: (bs ++ n' :: q))).plain =
      .ok (.cond test' body' elseIfs' otherwise' t.line, rest) := by
    rw [plain_parseCond, hparse₁ _ (closed_of_content hh (by decide) _)]
    simp only [bind, Except.bind, hthen]
    rw [hp]
    simp only [endsStatement_of_content hm,
      show Content.newline.token.endsStatement = true from rfl,
      if_true, hbody, helseIfs, helse, hafter]
    rfl
  rw [htokens, plain_parseStatement]
  simp only [isSymbol_of_content hword]
  rw [if_neg (by decide), if_pos (by decide), hcond]
  rfl

mutual

/-- A legible statement is read back. -/
theorem Stmt.reads (stop : Token) : ∀ s : Stmt, s.legible = true → ReadsStmt stop s
  | .dim _ _ _ line, h => by
    simp only [Stmt.legible, Stmt.every, Stmt.fits, Stmt.isClear, Bool.and_eq_true] at h
    exact readsStmt_dim line h.1.1 h.1.2 h.2
  | .assign _ _ line, h => by
    simp only [Stmt.legible, Stmt.every, Stmt.fits, Stmt.isClear, Bool.and_true,
      Bool.and_eq_true] at h
    exact readsStmt_assign line h.1.1 h.1.2 h.2
  | .call _ _ line, h => by
    simp only [Stmt.legible, Stmt.every, Bool.and_eq_true] at h
    exact readsStmt_call line h.1.2 h.2
  | .cond _ body elseIfs otherwise line, h => by
    simp only [Stmt.legible, Stmt.every, Bool.and_eq_true] at h
    exact readsStmt_cond line h.1.1.1.2 (readsBlock stop body h.1.1.2)
      (readsElseIfs stop elseIfs h.1.2) (readsBlock stop otherwise h.2)
  | .forLoop _ _ _ _ body line, h => by
    simp only [Stmt.legible, Stmt.every, Stmt.fits, Stmt.isClear, Bool.and_true,
      Bool.and_eq_true] at h
    exact readsStmt_for line h.1.1.1.1 h.1.1.1.2 h.1.1.2 h.1.2 (readsBlock stop body h.2)
  | .whileLoop _ body line, h => by
    simp only [Stmt.legible, Stmt.every, Bool.and_eq_true] at h
    exact readsStmt_while line h.1.2 (readsBlock stop body h.2)
  | .doLoop body _ _ _ line, h => by
    simp only [Stmt.legible, Stmt.every, Stmt.fits, Stmt.isClear, Bool.and_true,
      Bool.and_eq_true, Bool.or_eq_true] at h
    obtain ⟨⟨⟨rfl, hending⟩, hbody⟩, htest⟩ := h
    exact readsStmt_do line hending htest (readsBlock stop body hbody)
  | .ret _ line, h => by
    simp only [Stmt.legible, Stmt.every, Bool.and_eq_true] at h
    exact readsStmt_return line h.2
  | .exit _ line, h => by
    simp only [Stmt.legible, Stmt.every, Stmt.fits, Stmt.isClear, Bool.true_and] at h
    exact readsStmt_exit line h
  | .alien _, h => by
    simp [Stmt.legible, Stmt.every, Stmt.fits] at h

/-- A legible block is read back. -/
theorem readsBlock (stop : Token) : ∀ ss : List Stmt, legibleBlock ss = true → ReadsBlock stop ss
  | [], _ => readsBlock_nil
  | s :: ss, h => by
    simp only [legibleBlock, everyStmt, Bool.and_eq_true] at h
    exact readsBlock_cons (s.reads stop h.1) (readsBlock stop ss h.2)

theorem readsElseIfs (stop : Token) : ∀ es : List ElseIf, legibleElseIfs es = true →
    ReadsElseIfs stop es
  | [], _ => readsElseIfs_nil
  | .mk _ body :: es, h => by
    simp only [legibleElseIfs, everyElseIf, ElseIf.every, Bool.and_eq_true] at h
    exact readsElseIfs_cons h.1.1 (readsBlock stop body h.1.2) (readsElseIfs stop es h.2)

end

end Reading

end FormBasic
