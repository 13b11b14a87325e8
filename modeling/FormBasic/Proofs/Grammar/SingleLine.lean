import FormBasic.Proofs.Grammar.Before
import FormBasic.Proofs.Grammar.Bounded
import FormBasic.Proofs.Grammar.Isolation
import FormBasic.Proofs.Grammar.RoundTrip
import FormBasic.Proofs.Token.Pieces

/-!
# Conditionals on one line

A conditional whose statements stand on one line means the same as the one whose statements stand
on lines of their own. It is enough that the condition and the two statements can be read by
themselves, each from its first token to its last, and that the first statement can stand before
`Else`: a `Return` or an `Exit` with nothing after it cannot, since it takes the `Else` for what
belongs to it.

## Main definitions

* `oneLineIf`, `blockIf` - the two ways to write a conditional
* `IsCondition`, `IsStatement` - texts on one line that are read by themselves

## Main statements

* `parseBody_blockIf`, `parseBody_oneLineIf` - what each is read as
* `oneLineIf_matches_blockIf_iff` - when both are read as the same conditional
-/

namespace FormBasic

open Token (Content)

/-- A conditional on one line. -/
def oneLineIf (test first second : Text) : Text :=
  "If " ++ test ++ " Then " ++ first ++ " Else " ++ second

/-- A conditional with its statements on lines of their own. -/
def blockIf (test first second : Text) : Text :=
  "If " ++ test ++ " Then\n" ++ first ++ "\nElse\n" ++ second ++ "\nEnd If"

/-- The tokens of a text without comments. -/
def tokensOf (s : Text) : List Token := (Stream.ofSource s).tokens

/-- The statement that a text starts with, and the tokens after it. -/
def leadingStatement (s : Text) : Except ParseFailure (Option Stmt × List Token) :=
  match tokensOf s with
  | [] => .ok (none, [])
  | t :: ts => (parseStatement (Stream.ofSource s).stop t ts).plain

/-- A text on one line that is read as an expression. Its string literals are closed, and it does
not end with the point of a type name. -/
structure IsCondition (s : Text) (e : Expr) : Prop where
  line : s.OneLine
  closed : s.isClosed = true
  whole : endsWithPoint (tokensOf s) = false
  parse : Expr.parse s = .ok e

/-- A text on one line that is read, from its first token to its last, as one statement that holds
no others. It does not end with the point of a type name. -/
structure IsStatement (s : Text) (a : Stmt) : Prop where
  line : s.OneLine
  flat : a.isFlat = true
  whole : nextIs (tokensOf s) ["exit"] = false → endsWithPoint (tokensOf s) = false
  reads : leadingStatement s = .ok (some a, [])

-- ════════════════════════════════════════════════════════════════════════════
-- Pieces
-- ════════════════════════════════════════════════════════════════════════════

/-- The tokens of a text that is made of pieces. -/
theorem map_content_tokensOf {text : Text} {ws : List Content} {after : List CodePoint → Prop}
    (h : Scans text.toList ws after) (hnil : after []) :
    (tokensOf text).map Token.content = ws := by
  obtain ⟨ts, stop, hts, hws, hstop⟩ := scanFrom_of_scans h hnil 1 1
  rw [tokensOf, Stream.ofSource, Token.scan, hts, stream_of_contents (hws ▸ h.kinds) hstop]
  exact hws

/-- The tokens of a text on one line, and the same text inside a longer one. -/
theorem Text.OneLine.scans {s : Text} (h : s.OneLine) :
    (∀ t ∈ tokensOf s, t.kind ≠ .newline) ∧
      Scans s.toList ((tokensOf s).map Token.content) (Follows s.toList) := by
  obtain ⟨ts, stop, hts, hstop, hkinds, hscan⟩ := scans_oneLine h
  have htokens : tokensOf s = ts := by
    rw [tokensOf, Stream.ofSource, hts, stream_of_contents hscan.kinds hstop]
  rw [htokens]
  exact ⟨hkinds, hscan⟩

theorem skipNewlines_of_kinds {ts : List Token} (h : ∀ t ∈ ts, t.kind ≠ .newline) :
    skipNewlines ts = ts := by
  cases ts with
  | nil => rfl
  | cons t ts => exact skipNewlines_cons_other (h t List.mem_cons_self) ts

theorem kind_ne_newline_of_endsStatement {t : Token} (h : t.endsStatement = false) :
    t.kind ≠ .newline := by
  intro hk
  simp [Token.endsStatement, hk] at h

/-- A text that is read as an expression is read so to its last token. -/
theorem IsCondition.reads {s : Text} {e : Expr} (h : IsCondition s e) :
    (parseExpr (Stream.ofSource s).stop (tokensOf s)).plain = .ok (e, []) := by
  have hkinds := h.line.scans.1
  have hparse := h.parse
  rw [Expr.parse, Stream.expr, show (Stream.ofSource s).tokens = tokensOf s from rfl,
    skipNewlines_of_kinds hkinds] at hparse
  obtain ⟨p, hp, hend⟩ := bind_eq_ok hparse
  have hrest : skipNewlines p.rest = p.rest :=
    skipNewlines_of_kinds fun t ht => hkinds t (((stays_parseExpr _ _).suffix hp).subset ht)
  rw [hrest] at hend
  obtain ⟨value, rest, fewer⟩ := p
  cases rest with
  | nil =>
    cases hend
    rw [hp]
    rfl
  | cons t rest => cases hend

/-- The tokens of a condition are read as the condition before what does not go on with it. -/
theorem IsCondition.carries {s : Text} {e : Expr} (h : IsCondition s e) (stop : Token)
    {us : List Token} (same : us.map Token.content = (tokensOf s).map Token.content)
    {rest : List Token} (cut : nextIs rest joints = false) :
    (parseExpr stop (us ++ rest)).plain = .ok (e, rest) := by
  obtain ⟨_, hparse, rfl⟩ :=
    (carries_parseExpr (Stream.ofSource s).stop stop (.append cut same h.whole)).whole h.reads
  exact hparse

theorem isSymbol_of_foreign {t : Token} (h : t.isAnyOf foreignWords = true) {s : Text}
    (hs : s ∉ foreignWords) : t.isSymbol s = false := by
  obtain ⟨w, hw, hword⟩ := Token.isAnyOf_eq_true_iff.1 h
  exact isSymbol_of_isSymbol hword fun heq => hs (heq ▸ hw)

/-- No expression starts with a symbol that is no leaf and opens nothing. -/
theorem exists_plain_parsePrimary_error_of_symbol (stop : Token) {t : Token} {s : Text}
    (h : t.isSymbol s = true) (hleaf : leafOf? (Content.keyword s).token = none) (hnew : s ≠ "new")
    (hopen : s ≠ "(") (ts : List Token) :
    ∃ failure, (parsePrimary stop (t :: ts)).plain = .error failure := by
  rw [plain_parsePrimary_other stop ((leafOf?_symbol h).trans hleaf) (isSymbol_of_isSymbol h hnew)
    (isSymbol_of_isSymbol h hopen)]
  split <;> exact ⟨_, rfl⟩

/-- No expression starts with a word that closes a block or stands outside handlers. -/
theorem exists_plain_parsePrimary_error_of_foreign (stop : Token) {t : Token}
    (h : t.isAnyOf foreignWords = true) (ts : List Token) :
    ∃ failure, (parsePrimary stop (t :: ts)).plain = .error failure := by
  obtain ⟨w, hw, hword⟩ := Token.isAnyOf_eq_true_iff.1 h
  simp only [foreignWords, List.mem_cons, List.not_mem_nil, or_false] at hw
  rcases hw with rfl | rfl | rfl | rfl | rfl | rfl | rfl | rfl | rfl | rfl | rfl <;>
    exact exists_plain_parsePrimary_error_of_symbol stop hword rfl (by decide) (by decide) ts

theorem exists_plain_parseExpr_error_of_foreign (stop : Token) {t : Token}
    (h : t.isAnyOf foreignWords = true) (ts : List Token) :
    ∃ failure, (parseExpr stop (t :: ts)).plain = .error failure := by
  obtain ⟨failure, hfails⟩ := exists_plain_parsePrimary_error_of_foreign stop h ts
  have hnot : t.isSymbol "not" = false := isSymbol_of_foreign h (by decide)
  have hminus : t.isSymbol "-" = false := isSymbol_of_foreign h (by decide)
  have hplus : t.isSymbol "+" = false := isSymbol_of_foreign h (by decide)
  refine ⟨failure, ?_⟩
  simp only [parseExpr, plain_parseBinary, parseOperand, plain_parseNot_cons,
    plain_parseSigned_cons, plain_parsePostfix, hnot, hminus, hplus, hfails, Bool.false_eq_true,
    if_false, bind, Except.bind]

theorem plain_parseStatement_end (stop : Token) {d : Token} (hd : d.isSymbol "end" = true)
    (ts : List Token) :
    (parseStatement stop d ts).plain = .ok (none, (parseStrayEnd ts).rest) := by
  rw [plain_parseStatement]
  iterate 7 rw [if_neg (by rw [isSymbol_of_isSymbol hd (by decide)]; exact Bool.false_ne_true)]
  rw [if_pos hd]

/-- A statement that is read starts with no word that closes a block or stands outside handlers. -/
theorem isAnyOf_foreignWords_of_parseStatement {stop t : Token} {ts r : List Token} {s : Stmt}
    (h : (parseStatement stop t ts).plain = .ok (some s, r)) :
    t.isAnyOf foreignWords = false := by
  rw [Bool.eq_false_iff]
  intro hforeign
  obtain ⟨failure, hfails⟩ := exists_plain_parsePrimary_error_of_foreign stop hforeign ts
  by_cases hend : t.isSymbol "end" = true
  · rw [plain_parseStatement_end stop hend] at h
    cases h
  · rw [plain_parseStatement] at h
    iterate 7
      rw [if_neg (by rw [isSymbol_of_foreign hforeign (by decide)]; exact Bool.false_ne_true)] at h
    rw [if_neg hend, plain_parseExprStatement, plain_parsePostfix, hfails] at h
    cases h

theorem IsStatement.exists_tokens {s : Text} {a : Stmt} (h : IsStatement s a) :
    ∃ t ts, tokensOf s = t :: ts ∧
      (parseStatement (Stream.ofSource s).stop t ts).plain = .ok (some a, []) := by
  have hreads := h.reads
  rw [leadingStatement] at hreads
  split at hreads
  · cases hreads
  · next t ts htokens => exact ⟨t, ts, htokens, hreads⟩

/-- The tokens of a statement are read as the statement at the end of a line and, if it is no word
that looks for something after it, before an `Else`. -/
theorem IsStatement.carries {s : Text} {a : Stmt} (h : IsStatement s a) (stop : Token)
    {us : List Token} (same : us.map Token.content = (tokensOf s).map Token.content) :
    ∃ u us', us = u :: us' ∧ u.endsStatement = false ∧ u.isAnyOf foreignWords = false ∧
      ∀ rest, endsCall rest = true →
        (isBareWord (tokensOf s) = true → atStatementEnd rest = true) →
        ∃ b, (parseStatement stop u (us' ++ rest)).plain = .ok (some b, rest) ∧ a.Matches b := by
  obtain ⟨hkinds, hscan⟩ := h.line.scans
  have hwhole := h.whole
  obtain ⟨t, ts, htokens, hparse⟩ := h.exists_tokens
  rw [htokens] at same hwhole hkinds hscan ⊢
  obtain ⟨u, us, rfl, hu, hus⟩ := List.map_eq_cons_iff.1 same
  refine ⟨u, us, rfl, ?_, ?_, fun rest hends hbare => ?_⟩
  · have hnewline := hkinds t List.mem_cons_self
    have heof : t.kind ≠ .eof := (hscan.kinds t.content List.mem_cons_self).2
    rw [Token.endsStatement_congr hu]
    simp [Token.endsStatement, hnewline, heof]
  · exact (Token.isAnyOf_congr hu _).trans (isAnyOf_foreignWords_of_parseStatement hparse)
  · refine carries_parseStatement _ stop hparse h.flat hu hus (fun hexit => hwhole ?_) hends hbare
    simpa [Token.isAnyOf] using hexit

-- ════════════════════════════════════════════════════════════════════════════
-- The tokens of both texts
-- ════════════════════════════════════════════════════════════════════════════

section Scanning

variable {test first second : Text} {e : Expr} {a b : Stmt}

theorem Text.follows_of_isClosed {s : Text} (h : s.isClosed = true) {rest : List CodePoint}
    (hrest : Apart rest) : Follows s.toList rest :=
  ⟨hrest, .inl (by simpa [Text.isClosed] using h)⟩

theorem Text.follows_newline (s : Text) (rest : List CodePoint) :
    Follows s.toList (.char '\n' :: rest) :=
  ⟨.newline rest, .inr fun _ h => nomatch h⟩

/-- What the tokens of a conditional on one line say. -/
theorem scans_oneLineIf (hc : IsCondition test e) (hs : IsStatement first a)
    (ht : IsStatement second b) (closed : first.isClosed = true) :
    Scans (oneLineIf test first second).toList
      (.keyword "if" :: ((tokensOf test).map Token.content ++ .keyword "then" ::
        ((tokensOf first).map Token.content ++ .keyword "else" ::
          (tokensOf second).map Token.content))) (Follows second.toList) := by
  have hif : Scans ("If " : Text).toList [.keyword "if"] Anything :=
    scans_opening (s := "If") rfl (by decide) (by decide)
  have hthen : Scans (" Then " : Text).toList [.keyword "then"] Anything :=
    scans_between (s := "Then") rfl (by decide) (by decide)
  have helse : Scans (" Else " : Text).toList [.keyword "else"] Anything :=
    scans_between (s := "Else") rfl (by decide) (by decide)
  have hsecond := hs.line.scans.2.append (helse.before ht.line.scans.2)
    fun _ _ => Text.follows_of_isClosed closed (.space _)
  have hfirst := hc.line.scans.2.append (hthen.before hsecond)
    fun _ _ => Text.follows_of_isClosed hc.closed (.space _)
  simpa [oneLineIf, Text.toList_append] using hif.before hfirst

/-- What the tokens of a conditional on several lines say. -/
theorem scans_blockIf (hc : IsCondition test e) (hs : IsStatement first a)
    (ht : IsStatement second b) :
    Scans (blockIf test first second).toList
      (.keyword "if" :: ((tokensOf test).map Token.content ++ .keyword "then" :: .newline ::
        ((tokensOf first).map Token.content ++ .newline :: .keyword "else" :: .newline ::
          ((tokensOf second).map Token.content ++
            [.newline, .keyword "end", .keyword "if"])))) Detached := by
  have hif : Scans ("If " : Text).toList [.keyword "if"] Anything :=
    scans_opening (s := "If") rfl (by decide) (by decide)
  have hthen : Scans (" Then\n" : Text).toList [.keyword "then", .newline] Anything := by
    have hword : Scans ("Then" : Text).toList [.keyword "then"] Detached :=
      scans_keyword (by decide) (by decide)
    exact (hword.append scans_newline fun rest _ => detached_cons (by decide) (by decide) rest)
      |>.afterBlank
  have helse : Scans ("\nElse\n" : Text).toList [.newline, .keyword "else", .newline]
      Anything := by
    have hword : Scans ("Else" : Text).toList [.keyword "else"] Detached :=
      scans_keyword (by decide) (by decide)
    exact scans_newline.before
      (hword.append scans_newline fun rest _ => detached_cons (by decide) (by decide) rest)
  have hend : Scans ("\nEnd If" : Text).toList [.newline, .keyword "end", .keyword "if"]
      Detached := by
    have hword : Scans ("End" : Text).toList [.keyword "end"] Detached :=
      scans_keyword (by decide) (by decide)
    have hword' : Scans ("If" : Text).toList [.keyword "if"] Detached :=
      scans_keyword (by decide) (by decide)
    exact scans_newline.before (hword.spaced.before hword')
  have hlast := ht.line.scans.2.append hend fun _ _ => second.follows_newline _
  have hsecond := hs.line.scans.2.append (helse.before hlast) fun _ _ => first.follows_newline _
  have hfirst := hc.line.scans.2.append (hthen.before hsecond)
    fun _ _ => Text.follows_of_isClosed hc.closed (.space _)
  simpa [blockIf, Text.toList_append] using hif.before hfirst

end Scanning

-- ════════════════════════════════════════════════════════════════════════════
-- Reading both
-- ════════════════════════════════════════════════════════════════════════════

section Reading

variable {test first second : Text} {e : Expr} {a b : Stmt}

theorem plain_parseStatement_if {stop i : Token} (hif : i.content = .keyword "if")
    (ts : List Token) :
    (parseStatement stop i ts).plain = (do
      let (s, rest) ← (parseCond stop i.line ts).plain
      return (some s, rest)) := by
  rw [plain_parseStatement]
  simp only [isSymbol_of_content hif]
  rw [if_neg (by decide), if_pos (by decide)]

/-- A conditional after its condition. -/
theorem IsCondition.plain_parseCond (hc : IsCondition test e) (stop : Token) (line : Line)
    {us : List Token} {h : Token}
    (hus : us.map Token.content = (tokensOf test).map Token.content)
    (hthen : h.content = .keyword "then") (rest : List Token) :
    (parseCond stop line (us ++ h :: rest)).plain = readCond stop line e rest := by
  have hcut : nextIs (h :: rest) joints = false := by
    rw [nextIs_cons, isAnyOf_of_content hthen]
    decide
  have hexpect : (expect stop "then" (h :: rest)).plain = .ok (h, rest) :=
    plain_expect hthen (by decide) rest
  rw [plain_parseCond_eq, hc.carries stop hus hcut]
  simp only [bind, Except.bind, hexpect]

/-- The statements of a conditional on one line. -/
theorem readCond_oneLine (hs : IsStatement first a) (ht : IsStatement second b)
    (bare : isBareWord (tokensOf first) = false) (stop : Token) (line : Line) (e : Expr)
    {vs ws : List Token} {l : Token}
    (hvs : vs.map Token.content = (tokensOf first).map Token.content)
    (helse : l.content = .keyword "else")
    (hws : ws.map Token.content = (tokensOf second).map Token.content) :
    ∃ a' b', readCond stop line e (vs ++ l :: ws) = .ok (.cond e [a'] [] [b'] line, []) ∧
      a.Matches a' ∧ b.Matches b' := by
  obtain ⟨v, vs, rfl, hv, -, hparse⟩ := hs.carries stop hvs
  obtain ⟨w, ws, rfl, hw, -, hparse'⟩ := ht.carries stop hws
  have hnext : nextIs (l :: w :: ws) ["else"] = true := by
    rw [nextIs_cons, isAnyOf_of_content helse]
    decide
  obtain ⟨a', ha', hmatch⟩ := hparse (l :: w :: ws) (by simp [endsCall, hnext]) (by simp [bare])
  obtain ⟨b', hb', hmatch'⟩ := hparse' [] rfl fun _ => rfl
  rw [List.append_nil] at hb'
  have hsingle : (parseSingle stop ((l :: w :: ws).drop 1)).plain = .ok ([b'], []) := by
    rw [List.drop_succ_cons, List.drop_zero, plain_parseSingle,
      skipNewlines_cons_other (kind_ne_newline_of_endsStatement hw)]
    simp only [hb']
    rfl
  refine ⟨a', b', ?_, hmatch, hmatch'⟩
  simp only [readCond, List.cons_append, hv, Bool.false_eq_true, if_false, bind, Except.bind, ha',
    hnext, if_true, hsingle]
  rfl

/-- The statements of a conditional on several lines. -/
theorem readCond_block (hs : IsStatement first a) (ht : IsStatement second b) (stop : Token)
    (line : Line) (e : Expr) {vs ws : List Token} {l n₁ n₂ n₃ n₄ d k : Token}
    (hn₁ : n₁.content = .newline)
    (hvs : vs.map Token.content = (tokensOf first).map Token.content)
    (hn₂ : n₂.content = .newline) (helse : l.content = .keyword "else")
    (hn₃ : n₃.content = .newline)
    (hws : ws.map Token.content = (tokensOf second).map Token.content)
    (hn₄ : n₄.content = .newline) (hend : d.content = .keyword "end")
    (hif : k.content = .keyword "if") :
    ∃ a' b', readCond stop line e (n₁ :: (vs ++ n₂ :: l :: n₃ :: (ws ++ [n₄, d, k]))) =
      .ok (.cond e [a'] [] [b'] line, []) ∧ a.Matches a' ∧ b.Matches b' := by
  obtain ⟨v, vs, rfl, hv, hforeign, hparse⟩ := hs.carries stop hvs
  obtain ⟨w, ws, rfl, hw, hforeign', hparse'⟩ := ht.carries stop hws
  have hlines : ∀ {n : Token} {rest : List Token}, n.content = .newline →
      atStatementEnd (n :: rest) = true :=
    fun hn => (show OnNewline (_ :: _) from ⟨_, _, rfl, hn⟩).atStatementEnd
  obtain ⟨a', ha', hmatch⟩ := hparse (n₂ :: l :: n₃ :: (w :: ws ++ [n₄, d, k]))
    (by simp [endsCall, hlines hn₂]) fun _ => hlines hn₂
  obtain ⟨b', hb', hmatch'⟩ := hparse' [n₄, d, k] (by simp [endsCall, hlines hn₄])
    fun _ => hlines hn₄
  have hends : Ends .branch (l :: n₃ :: (w :: ws ++ [n₄, d, k])) := by
    refine .inr ?_
    rw [Closer.closes, nextIs_cons, isAnyOf_of_content helse,
      show (Content.keyword "else").token.isAnyOf ["else", "elseif"] = true by decide,
      Bool.true_or, Bool.or_true]
  have hclose : atEndOf [d, k] ["if"] = true := by
    rw [atEndOf, nextIs_cons, isAnyOf_of_content hend, List.drop_succ_cons, List.drop_zero,
      nextIs_cons, isAnyOf_of_content hif]
    decide
  have hends' : Ends .lastBranch [d, k] := .inr (by rw [Closer.closes, hclose, Bool.or_true])
  have hbody : (parseBlock stop .branch (n₁ :: v :: (vs ++ n₂ :: l :: n₃ ::
      (w :: ws ++ [n₄, d, k])))).plain = .ok ([a'], l :: n₃ :: (w :: ws ++ [n₄, d, k])) := by
    rw [plain_parseBlock_step hn₁ (kind_ne_newline_of_endsStatement hv) hforeign ha',
      plain_parseBlock_end hn₂ hends]
    rfl
  have hotherwise : (parseBlock stop .lastBranch (n₃ :: w :: (ws ++ [n₄, d, k]))).plain =
      .ok ([b'], [d, k]) := by
    rw [plain_parseBlock_step hn₃ (kind_ne_newline_of_endsStatement hw) hforeign' hb',
      plain_parseBlock_end hn₄ hends']
    rfl
  have helseIfs : (parseElseIfs stop (l :: n₃ :: (w :: ws ++ [n₄, d, k]))).plain =
      .ok ([], l :: n₃ :: (w :: ws ++ [n₄, d, k])) := by
    refine plain_parseElseIfs_stop ?_
    rw [nextIs_cons, isAnyOf_of_content helse]
    decide
  have helse : (parseElse stop (l :: n₃ :: (w :: ws ++ [n₄, d, k]))).plain =
      .ok ([b'], [d, k]) := by
    rw [plain_parseElse_cons, isSymbol_of_content helse, if_pos (by decide)]
    exact hotherwise
  refine ⟨a', b', ?_, hmatch, hmatch'⟩
  have hline : AtLineEnd (n₁ :: (v :: vs ++ n₂ :: l :: n₃ :: (w :: ws ++ [n₄, d, k]))) := by
    rintro t ⟨⟩
    exact Token.kind_of_content hn₁
  rw [readCond_of_atLineEnd line e hline, readBranches]
  simp only [List.cons_append] at hbody helseIfs helse ⊢
  simp only [hbody, bind, Except.bind, helseIfs, helse, afterEndIf, hclose, dropWhen, if_true]
  rfl

/-- Before an `Else`, a `Return` or an `Exit` with nothing after it takes the `Else`, so that there
is no conditional with two branches. -/
theorem readCond_of_isBareWord (hs : IsStatement first a) (bare : isBareWord (tokensOf first) = true)
    (stop : Token) (line : Line) (e : Expr) {vs ws r : List Token} {l : Token} {s : Stmt}
    (hvs : vs.map Token.content = (tokensOf first).map Token.content)
    (helse : l.content = .keyword "else")
    (hws : nextIs ws ["else"] = false)
    (h : readCond stop line e (vs ++ l :: ws) = .ok (s, r)) :
    ∃ block, s = .cond e block [] [] line := by
  obtain ⟨v, vs, rfl, hv, -, -⟩ := hs.carries stop hvs
  obtain ⟨rfl, hword⟩ : vs = [] ∧ v.isAnyOf ["return", "exit"] = true := by
    obtain ⟨t, ts, htokens, -⟩ := hs.exists_tokens
    rw [htokens] at bare hvs
    obtain ⟨hvt, hrest⟩ := List.cons.inj hvs
    obtain ⟨hlength, hnext⟩ := Bool.and_eq_true_iff.1 bare
    obtain rfl : ts = [] := by simpa using hlength
    exact ⟨List.map_eq_nil_iff.1 hrest, (Token.isAnyOf_congr hvt _).trans hnext⟩
  have hsymbol : l.isSymbol "else" = true := (isSymbol_of_content helse _).trans (by decide)
  have hopen : l.endsStatement = false := endsStatement_of_isSymbol hsymbol
  simp only [List.cons_append, List.nil_append, readCond, hv, Bool.false_eq_true, if_false] at h
  obtain ⟨⟨first', r'⟩, hfirst, h⟩ := bind_eq_ok h
  obtain ⟨w, hw, hword⟩ := Token.isAnyOf_eq_true_iff.1 hword
  have hother : ∀ x, w ≠ x → v.isSymbol x = false := fun x => isSymbol_of_isSymbol hword
  simp only [List.mem_cons, List.not_mem_nil, or_false] at hw
  rw [plain_parseStatement] at hfirst
  rcases hw with rfl | rfl
  · -- the value of the `Return` would have to start with the `Else`
    have hends : atStatementEnd (l :: ws) = false := hopen
    have hforeign : l.isAnyOf foreignWords = true :=
      Token.isAnyOf_eq_true_iff.2 ⟨"else", by decide, hsymbol⟩
    obtain ⟨failure, hfails⟩ := exists_plain_parseExpr_error_of_foreign stop hforeign ws
    iterate 5 rw [if_neg (by rw [hother _ (by decide)]; exact Bool.false_ne_true)] at hfirst
    rw [if_pos hword, plain_parseReturn, if_neg (by rw [hends]; exact Bool.false_ne_true),
      hfails] at hfirst
    cases hfirst
  · -- the `Else` is the word of the `Exit`
    iterate 6 rw [if_neg (by rw [hother _ (by decide)]; exact Bool.false_ne_true)] at hfirst
    rw [if_pos hword] at hfirst
    simp only [parseExit, hopen, Bool.false_eq_true, if_false] at hfirst
    cases hfirst
    rw [if_neg (by exact Bool.eq_false_iff.1 hws)] at h
    cases h
    exact ⟨_, rfl⟩

/-- A body that is one statement. -/
theorem body_of_parseStatement {s : Stream} {t : Token} {ts : List Token} {a : Stmt}
    (htokens : s.tokens = t :: ts) (hkind : t.kind ≠ .newline)
    (h : (parseStatement s.stop t ts).plain = .ok (some a, [])) : s.body = .ok [a] := by
  have hopen : (atHandlerEnd (t :: ts) || Closer.handler.closes (t :: ts)) = false := by
    rw [Bool.eq_false_iff]
    intro hclose
    have hforeign := nextIs_of_closes hclose
    rw [nextIs_cons, isAnyOf_foreignWords_of_parseStatement h] at hforeign
    cases hforeign
  have hnone : (parseBlock s.stop .handler []).plain = .ok ([], []) := plain_parseBlock _ _ _
  have hblock : (parseBlock s.stop .handler s.tokens).plain = .ok ([a], []) := by
    rw [htokens, plain_parseBlock, skipNewlines_cons_other hkind]
    simp only [hopen, Bool.false_eq_true, if_false, h, bind, Except.bind, hnone]
    rfl
  exact body_of_plain hblock

/-- A body that is not empty is its first statement and the others. -/
theorem exists_statement_of_parseBody {text : Text} {t : Token} {ts : List Token}
    {body : List Stmt} (htokens : tokensOf text = t :: ts) (hkind : t.kind ≠ .newline)
    (h : parseBody text = .ok body) (hne : body ≠ []) :
    ∃ s rest others r,
      (parseStatement (Stream.ofSource text).stop t ts).plain = .ok (s, rest) ∧
      (parseBlock (Stream.ofSource text).stop .handler rest).plain = .ok (others, r) ∧
      body = s.toList ++ others := by
  obtain ⟨p, hp, hret⟩ := bind_eq_ok h
  cases hret
  have hblock : (parseBlock (Stream.ofSource text).stop .handler (tokensOf text)).plain =
      .ok (p.value, p.rest) := by
    rw [tokensOf, hp]
    rfl
  rw [htokens, plain_parseBlock, skipNewlines_cons_other hkind] at hblock
  simp only at hblock
  split at hblock
  · exact absurd (Prod.mk.inj (Except.ok.inj hblock)).1.symm hne
  · obtain ⟨⟨s, rest⟩, hs, hblock⟩ := bind_eq_ok hblock
    obtain ⟨⟨others, r⟩, hothers, hret⟩ := bind_eq_ok hblock
    exact ⟨s, rest, others, r, hs, hothers, (Prod.mk.inj (Except.ok.inj hret)).1.symm⟩

/-- A text that is one statement is a body of one statement. -/
theorem IsStatement.parseBody (hs : IsStatement first a) : parseBody first = .ok [a] := by
  obtain ⟨t, ts, htokens, hparse⟩ := hs.exists_tokens
  have hkind : t.kind ≠ .newline := hs.line.scans.1 t (htokens ▸ List.mem_cons_self)
  exact body_of_parseStatement htokens hkind hparse

/-- A text whose tokens are those of a conditional, from what follows `Then` on. -/
theorem exists_stream_of_scans (hc : IsCondition test e) {text : Text} {ws : List Content}
    {after : List CodePoint → Prop}
    (hscan : Scans text.toList
      (.keyword "if" :: ((tokensOf test).map Token.content ++ .keyword "then" :: ws)) after)
    (hnil : after []) :
    ∃ i us h vs, tokensOf text = i :: (us ++ h :: vs) ∧ i.content = .keyword "if" ∧
      vs.map Token.content = ws ∧
      (parseStatement (Stream.ofSource text).stop i (us ++ h :: vs)).plain = (do
        let (s, rest) ← readCond (Stream.ofSource text).stop i.line e vs
        return (some s, rest)) := by
  obtain ⟨i, ts, htokens, hif, hws⟩ := List.map_eq_cons_iff.1 (map_content_tokensOf hscan hnil)
  obtain ⟨us, vs, rfl, hus, hvs⟩ := List.map_eq_append_iff.1 hws
  obtain ⟨h, vs, rfl, hthen, hvs⟩ := List.map_eq_cons_iff.1 hvs
  refine ⟨i, us, h, vs, htokens, hif, hvs, ?_⟩
  rw [plain_parseStatement_if hif, hc.plain_parseCond _ i.line hus hthen vs]

/-- Such a text is the conditional that is read after its `Then`. -/
theorem parseBody_of_scans (hc : IsCondition test e) {text : Text} {ws : List Content}
    {after : List CodePoint → Prop}
    (hscan : Scans text.toList
      (.keyword "if" :: ((tokensOf test).map Token.content ++ .keyword "then" :: ws)) after)
    (hnil : after [])
    (hread : ∀ stop line ts, ts.map Token.content = ws → ∃ a' b',
      readCond stop line e ts = .ok (.cond e [a'] [] [b'] line, []) ∧ a.Matches a' ∧ b.Matches b') :
    ∃ body, parseBody text = .ok body ∧ MatchingBlocks [.cond e [a] [] [b] none] body := by
  obtain ⟨i, us, h, vs, htokens, hif, hvs, hparse⟩ := exists_stream_of_scans hc hscan hnil
  obtain ⟨a', b', hcond, hmatch, hmatch'⟩ := hread (Stream.ofSource text).stop i.line vs hvs
  have hkind : i.kind ≠ .newline := by
    rw [Token.kind_of_content hif]
    exact Token.Kind.noConfusion
  refine ⟨[.cond e [a'] [] [b'] i.line], body_of_parseStatement htokens hkind ?_, ?_⟩
  · rw [hparse, hcond]
    rfl
  · exact (matches_cond e none i.line hmatch.some rfl hmatch'.some).some

/-- On several lines, two statements are the two branches of a conditional. -/
theorem parseBody_blockIf (hc : IsCondition test e) (hs : IsStatement first a)
    (ht : IsStatement second b) :
    ∃ body, parseBody (blockIf test first second) = .ok body ∧
      MatchingBlocks [.cond e [a] [] [b] none] body := by
  refine parseBody_of_scans hc (scans_blockIf hc hs ht) detached_nil fun stop line ts hts => ?_
  obtain ⟨n₁, ts, rfl, hn₁, hts⟩ := List.map_eq_cons_iff.1 hts
  obtain ⟨vs, ts, rfl, hvs, hts⟩ := List.map_eq_append_iff.1 hts
  obtain ⟨n₂, ts, rfl, hn₂, hts⟩ := List.map_eq_cons_iff.1 hts
  obtain ⟨l, ts, rfl, helse, hts⟩ := List.map_eq_cons_iff.1 hts
  obtain ⟨n₃, ts, rfl, hn₃, hts⟩ := List.map_eq_cons_iff.1 hts
  obtain ⟨ws, ts, rfl, hws, hts⟩ := List.map_eq_append_iff.1 hts
  obtain ⟨n₄, ts, rfl, hn₄, hts⟩ := List.map_eq_cons_iff.1 hts
  obtain ⟨d, ts, rfl, hend, hts⟩ := List.map_eq_cons_iff.1 hts
  obtain ⟨k, ts, rfl, hif, hts⟩ := List.map_eq_cons_iff.1 hts
  obtain rfl := List.map_eq_nil_iff.1 hts
  exact readCond_block hs ht stop line e hn₁ hvs hn₂ helse hn₃ hws hn₄ hend hif

/-- On one line, two statements are the two branches of a conditional if the first one can stand
before `Else`. -/
theorem parseBody_oneLineIf (hc : IsCondition test e) (hs : IsStatement first a)
    (ht : IsStatement second b) (closed : first.isClosed = true)
    (bare : isBareWord (tokensOf first) = false) :
    ∃ body, parseBody (oneLineIf test first second) = .ok body ∧
      MatchingBlocks [.cond e [a] [] [b] none] body := by
  refine parseBody_of_scans hc (scans_oneLineIf hc hs ht closed)
    ⟨.nil, .inr fun _ h => nomatch h⟩ fun stop line ts hts => ?_
  obtain ⟨vs, ws, rfl, hvs, hws⟩ := List.map_eq_append_iff.1 hts
  obtain ⟨l, ws, rfl, helse, hws⟩ := List.map_eq_cons_iff.1 hws
  exact readCond_oneLine hs ht bare stop line e hvs helse hws

/-- Otherwise it is no such conditional. -/
theorem not_matchingBlocks_of_isBareWord (hc : IsCondition test e) (hs : IsStatement first a)
    (ht : IsStatement second b) (closed : first.isClosed = true)
    (bare : isBareWord (tokensOf first) = true) {body : List Stmt}
    (hbody : parseBody (oneLineIf test first second) = .ok body) :
    ¬ MatchingBlocks [.cond e [a] [] [b] none] body := by
  obtain ⟨i, us, h, rest, htokens, hif, hrest, hparse⟩ :=
    exists_stream_of_scans hc (scans_oneLineIf hc hs ht closed) ⟨.nil, .inr fun _ h => nomatch h⟩
  obtain ⟨vs, ws, rfl, hvs, hws⟩ := List.map_eq_append_iff.1 hrest
  obtain ⟨l, ws, rfl, helse, hws⟩ := List.map_eq_cons_iff.1 hws
  have hnext : nextIs ws ["else"] = false := by
    obtain ⟨w, ws, rfl, -, hforeign, -⟩ := ht.carries (Stream.ofSource "").stop hws
    exact nextIs_subset (by decide) (show nextIs (w :: ws) foreignWords = false from hforeign)
  have hkind : i.kind ≠ .newline := by
    rw [Token.kind_of_content hif]
    exact Token.Kind.noConfusion
  intro hmatch
  have hne : body ≠ [] := by
    rintro rfl
    cases hmatch
  obtain ⟨s, r, others, r', hfirst, -, rfl⟩ :=
    exists_statement_of_parseBody htokens hkind hbody hne
  rw [hparse] at hfirst
  obtain ⟨⟨s, r''⟩, hcond, hret⟩ := bind_eq_ok hfirst
  cases hret
  obtain ⟨block, rfl⟩ :=
    readCond_of_isBareWord hs bare _ i.line e hvs helse hnext hcond
  have hotherwise := (Stmt.cond.inj (List.cons.inj hmatch).1).2.2.2.1
  cases hotherwise

/-- A conditional on several lines is read as its condition and its two statements. On one line it
is read as the same, apart from the lines of its statements, if and only if the first statement is
no `Return` or `Exit` with nothing after it. -/
theorem oneLineIf_matches_blockIf_iff (hc : IsCondition test e) (hs : IsStatement first a)
    (ht : IsStatement second b) (closed : first.isClosed = true) :
    ∃ body, parseBody (blockIf test first second) = .ok body ∧
      MatchingBlocks [.cond e [a] [] [b] none] body ∧
      ((∃ body', parseBody (oneLineIf test first second) = .ok body' ∧ MatchingBlocks body body') ↔
        isBareWord (tokensOf first) = false) := by
  obtain ⟨body, hbody, hmatch⟩ := parseBody_blockIf hc hs ht
  refine ⟨body, hbody, hmatch, ?_, fun bare => ?_⟩
  · rintro ⟨body', hbody', hmatch'⟩
    rw [Bool.eq_false_iff]
    intro bare
    exact not_matchingBlocks_of_isBareWord hc hs ht closed bare hbody' (hmatch'.trans hmatch)
  · obtain ⟨body', hbody', hmatch'⟩ := parseBody_oneLineIf hc hs ht closed bare
    exact ⟨body', hbody', hmatch'.trans hmatch.symm⟩

end Reading

theorem isCondition_comparison :
    IsCondition "x > 1" (.binary .gt (.ident "x") (.number (.int 1))) where
  line := ⟨by decide +kernel, by decide +kernel⟩
  closed := by decide +kernel
  whole := by decide +kernel
  parse := by
    have hscan : Token.scan "x > 1" =
        [⟨.identifier, "x", .ofNat 1, 1⟩, ⟨.operator, ">", .ofNat 1, 3⟩,
          ⟨.number, "1", .ofNat 1, 5⟩, ⟨.eof, "", .ofNat 1, 6⟩] := by
      decide +kernel
    rw [Expr.parse, Stream.ofSource, hscan]
    cbv

theorem isStatement_classicCall :
    IsStatement "f 2, \"a\"" (.call (.ident "f") [.number (.int 2), .string "a"] (.ofNat 1)) where
  line := ⟨by decide +kernel, by decide +kernel⟩
  flat := rfl
  whole := by decide +kernel
  reads := by
    have hscan : Token.scan "f 2, \"a\"" =
        [⟨.identifier, "f", .ofNat 1, 1⟩, ⟨.number, "2", .ofNat 1, 3⟩,
          ⟨.punctuation, ",", .ofNat 1, 4⟩, ⟨.string, "a", .ofNat 1, 6⟩,
          ⟨.eof, "", .ofNat 1, 9⟩] := by
      decide +kernel
    rw [leadingStatement, tokensOf, Stream.ofSource, hscan]
    cbv

theorem isStatement_exitSub : IsStatement "Exit Sub" (.exit "sub" (.ofNat 1)) where
  line := ⟨by decide +kernel, by decide +kernel⟩
  flat := rfl
  whole := by decide +kernel
  reads := by
    have hscan : Token.scan "Exit Sub" =
        [⟨.keyword, "exit", .ofNat 1, 1⟩, ⟨.keyword, "sub", .ofNat 1, 6⟩,
          ⟨.eof, "", .ofNat 1, 9⟩] := by
      decide +kernel
    rw [leadingStatement, tokensOf, Stream.ofSource, hscan]
    cbv

theorem oneLineIf_matches_blockIf_iff_classicCall :
    IsCondition "x > 1" (.binary .gt (.ident "x") (.number (.int 1))) ∧
    IsStatement "f 2, \"a\"" (.call (.ident "f") [.number (.int 2), .string "a"] (.ofNat 1)) ∧
    IsStatement "Exit Sub" (.exit "sub" (.ofNat 1)) ∧
    Text.isClosed "f 2, \"a\"" = true ∧
    ∃ body, parseBody (blockIf "x > 1" "f 2, \"a\"" "Exit Sub") = .ok body ∧
      MatchingBlocks [.cond (.binary .gt (.ident "x") (.number (.int 1)))
        [.call (.ident "f") [.number (.int 2), .string "a"] (.ofNat 1)] []
        [.exit "sub" (.ofNat 1)] none] body ∧
      ((∃ body', parseBody (oneLineIf "x > 1" "f 2, \"a\"" "Exit Sub") = .ok body' ∧
        MatchingBlocks body body') ↔ isBareWord (tokensOf "f 2, \"a\"") = false) :=
  ⟨isCondition_comparison, isStatement_classicCall, isStatement_exitSub, by decide +kernel,
    oneLineIf_matches_blockIf_iff isCondition_comparison isStatement_classicCall
      isStatement_exitSub (by decide +kernel)⟩

/-- Only by itself does a `Return` take the `Else` after it. -/
example : isBareWord (tokensOf "Return") = true ∧ isBareWord (tokensOf "Return x") = false :=
  ⟨by decide +kernel, by decide +kernel⟩

end FormBasic
