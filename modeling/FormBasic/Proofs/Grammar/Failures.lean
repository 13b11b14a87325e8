import FormBasic.Proofs.Grammar.Derivation
import FormBasic.Proofs.Grammar.Positions
import FormBasic.Proofs.Grammar.RoundTrip

/-!
# Texts that have no tree

A text may be read as a module, as the body of a handler or as an expression. Where it has no tree,
either something is wrong at one of its tokens, and the failure carries the line of that token, or
one of its integers has more digits than can be read. The second sort of failure is no diagnosis: it
has no line.

## Main definitions

* `ParseFailure.FoundIn`, `Accounted` - failures that have their reason in a text

## Main statements

* `accounted_parse` - every failure has its reason in the text
* `Expr.parse_digits` - which rows of digits are read
-/

namespace FormBasic

/-- What may be wrong with a text: one of its tokens, at the line of that token, or an integer among
them that has too many digits to be read. -/
inductive ParseFailure.FoundIn (all : List Token) : ParseFailure → Prop where
  | token {e : ParseError} {t : Token} (ht : t ∈ all) (hline : e.line = t.line)
    (hplace : t.line.isSome = true) : FoundIn all (.malformed e)
  | integer {t : Token} (ht : t ∈ all) (hkind : t.kind = .number)
    (hpoint : t.text.toList.contains (.char '.') = false)
    (hlong : digitLimit < t.text.toList.length) :
    FoundIn all (.refused (.tooManyDigits t.text.toList.length))

/-- Whether a text is read, or else the failure has its reason in the text. -/
def Accounted {α : Type} (source : Text) : Except ParseFailure α → Prop
  | .ok _ => True
  | .error failure => failure.FoundIn (Token.scan source)

-- ════════════════════════════════════════════════════════════════════════════
-- Tokens
-- ════════════════════════════════════════════════════════════════════════════

/-- Every text is scanned up to an end marker. -/
theorem exists_marker_scanFrom (line col : Nat) (cs : List CodePoint) :
    ∃ t ∈ Token.scanFrom line col cs, t.kind = .eof := by
  fun_induction Token.scanFrom line col cs with
  | case1 line col => exact ⟨_, List.mem_singleton_self _, rfl⟩
  | case2 line col c cs hlex ih => exact ih
  | case3 line col c cs l hlex token hkind ih =>
    obtain ⟨t, ht, heof⟩ := ih
    exact ⟨t, List.mem_cons_of_mem _ ht, heof⟩
  | case4 line col c cs l hlex token hkind ih =>
    obtain ⟨t, ht, heof⟩ := ih
    exact ⟨t, List.mem_cons_of_mem _ ht, heof⟩

/-- The end marker of a text is the one that the scanner makes. -/
theorem stop_mem_scan (source : Text) : (Stream.ofSource source).stop ∈ Token.scan source := by
  obtain ⟨t, ht, heof⟩ := exists_marker_scanFrom 1 1 source.toList
  have hkept : t ∈ (Token.scan source).filter fun t => t.kind != .comment :=
    List.mem_filter.2 ⟨ht, by rw [heof]; rfl⟩
  simp only [Stream.ofSource, Stream.ofTokens]
  cases hrest : ((Token.scan source).filter fun t => t.kind != .comment).dropWhile
      fun t => t.kind != .eof with
  | nil =>
    have hbefore := List.dropWhile_eq_nil_iff.1 hrest t hkept
    rw [heof] at hbefore
    cases hbefore
  | cons u rest =>
    have hmem : u ∈ ((Token.scan source).filter fun t => t.kind != .comment).dropWhile
        fun t => t.kind != .eof := hrest ▸ List.mem_cons_self
    exact (List.mem_filter.1 ((List.dropWhile_suffix _).subset hmem)).1

theorem mem_scan_of_mem_stream {source : Text} {t : Token}
    (h : t ∈ (Stream.ofSource source).stop :: (Stream.ofSource source).tokens) :
    t ∈ Token.scan source := by
  rcases List.mem_cons.1 h with rfl | h
  · exact stop_mem_scan source
  · exact mem_scan_of_mem_tokens h

/-- A numeral that is refused is an integer with too many digits. -/
theorem long_of_numberOf {s : Text} (hs : isNumeral s = true) {refusal : Refusal}
    (h : numberOf s = .error (.refused refusal)) :
    s.toList.contains (.char '.') = false ∧ digitLimit < s.toList.length ∧
      refusal = .tooManyDigits s.toList.length := by
  have hlimit : ¬ (s.toList.contains (.char '.') = false → s.toList.length ≤ digitLimit) := by
    intro hlen
    obtain ⟨n, hn⟩ := exists_numberOf hs hlen
    cases hn.symm.trans h
  obtain ⟨hpoint, hlong⟩ := Classical.not_imp.1 hlimit
  refine ⟨hpoint, Nat.lt_of_not_le hlong, ?_⟩
  rcases numeral_cases hs with ⟨c, cs, rfl, hcs⟩ | ⟨ds, es, rfl, -, -, -⟩
  · rw [Text.toList_ofChars, List.length_map] at hlong ⊢
    rw [numberOf_long_digits hcs (Nat.lt_of_not_le hlong)] at h
    cases h
    rfl
  · simp at hpoint

/-- What is wrong at the tokens that are read is wrong with the text. -/
theorem ParseFailure.At.foundIn {source : Text} {failure : ParseFailure}
    (h : failure.At (Stream.ofSource source).stop (Stream.ofSource source).tokens) :
    failure.FoundIn (Token.scan source) := by
  cases failure with
  | malformed e =>
    obtain ⟨t, ht, hline⟩ := h
    have hmem := mem_scan_of_mem_stream ht
    exact .token hmem hline (isSome_line_of_mem_scanFrom 1 1 source.toList t hmem)
  | refused refusal =>
    obtain ⟨t, ht, hkind, hrefused⟩ := h
    have hmem := mem_scan_of_mem_tokens ht
    obtain ⟨hpoint, hlong, rfl⟩ := long_of_numberOf (isNumeral_of_mem_scan hmem hkind) hrefused
    exact .integer hmem hkind hpoint hlong

theorem FailsWithin.accounted {α : Type} {source : Text} {result : Except ParseFailure α}
    (h : FailsWithin (Stream.ofSource source).stop (Stream.ofSource source).tokens result) :
    Accounted source result := by
  cases result with
  | ok => trivial
  | error failure => exact ParseFailure.At.foundIn h

-- ════════════════════════════════════════════════════════════════════════════
-- Whole texts
-- ════════════════════════════════════════════════════════════════════════════

/-- An expression fails within its tokens, also where something follows it. -/
theorem failsWithin_expr (s : Stream) : FailsWithin s.stop s.tokens s.expr := by
  refine FailsWithin.of_suffix ?_ (suffix_skipNewlines _)
  refine (stays_parseExpr s.stop _).failsWithin fun e rest _ => ?_
  simp only
  split
  · trivial
  · next t later hrest =>
    have hmem : t ∈ rest := (suffix_skipNewlines _).subset (hrest ▸ List.mem_cons_self)
    exact ⟨t, List.mem_cons_of_mem _ hmem, rfl⟩

/-- Whatever a text is read as, it has a tree, or the failure is at one of its tokens and carries
the line of that token, or the text has an integer with too many digits. -/
theorem accounted_parse (source : Text) :
    Accounted source (parseBody source) ∧ Accounted source (Program.parse source) ∧
      Accounted source (Expr.parse source) := by
  have hbounded := Stream.bounded_ofTokens (Token.scan source)
  refine ⟨?_, ?_, ?_⟩
  · exact FailsWithin.accounted hbounded.body
  · exact FailsWithin.accounted hbounded.program
  · exact FailsWithin.accounted (failsWithin_expr _)

-- ════════════════════════════════════════════════════════════════════════════
-- Rows of digits
-- ════════════════════════════════════════════════════════════════════════════

section Digits

variable {stop t : Token} {result : Except ParseFailure Expr}

theorem isSymbol_of_number (hkind : t.kind = .number) (s : Text) : t.isSymbol s = false := by
  rw [Token.isSymbol, hkind]
  rfl

/-- A number by itself is read, or refused, by the innermost parser, and the levels around it hand
the result on. -/
theorem plain_parseBinary_number (hkind : t.kind = .number) (hleaf : leafOf? t = some result)
    (level : Level) :
    (parseBinary stop level [t]).plain = result.map fun e => (e, []) := by
  have hsigned : (parseSigned stop [t]).plain = result.map fun e => (e, []) := by
    have hprimary : (parsePrimary stop [t]).plain = result.map fun e => (e, []) := by
      rw [parsePrimary]
      simp only [hleaf]
      cases result <;> rfl
    rw [plain_parseSigned_cons, isSymbol_of_number hkind, isSymbol_of_number hkind,
      plain_parsePostfix, hprimary]
    cases result with
    | error => rfl
    | ok e => exact plain_parseSuffixes_nil stop e
  have hlevel : ∀ level, (parseOperand stop level [t]).plain = (result.map fun e => (e, [])) →
      (parseBinary stop level [t]).plain = result.map fun e => (e, []) := by
    intro level h
    rw [plain_parseBinary, h]
    cases result with
    | error => rfl
    | ok e => exact plain_parseOperators_nil stop level e
  have hpower := hlevel .power (by rw [parseOperand]; exact hsigned)
  have hproduct := hlevel .product (by rw [parseOperand]; exact hpower)
  have hsum := hlevel .sum (by rw [parseOperand]; exact hproduct)
  have hconcatenation := hlevel .concatenation (by rw [parseOperand]; exact hsum)
  have hcomparison := hlevel .comparison (by rw [parseOperand]; exact hconcatenation)
  have hconjunction := hlevel .conjunction (by
    rw [parseOperand, plain_parseNot_cons, isSymbol_of_number hkind]
    exact hcomparison)
  have hdisjunction := hlevel .disjunction (by rw [parseOperand]; exact hconjunction)
  cases level <;> assumption

/-- A numeral by itself is the number that it stands for, or is refused. -/
theorem Expr.parse_numeral {s : Text} (h : isNumeral s = true) :
    Expr.parse s = (numberOf s).map .number := by
  obtain ⟨ts, stop, hscan, hcontents, hstop⟩ := scanFrom_of_scans (scans_numeral h) detached_nil 1 1
  obtain ⟨t, rfl, ht⟩ : ∃ t, ts = [t] ∧ t.content = ⟨.number, s⟩ := by simpa using hcontents
  have hkind : t.kind = .number := Token.kind_of_content ht
  have hleaf : leafOf? t = some ((numberOf s).map .number) := by
    rw [leafOf?, hkind, Token.text_of_content ht]
  have hstream : Stream.ofSource s = { tokens := [t], stop := stop } := by
    rw [Stream.ofSource, Token.scan, hscan]
    exact stream_of_contents (by simp [ht]) hstop
  have hskip : skipNewlines [t] = [t] := by
    simp [skipNewlines, hkind]
  rw [Expr.parse, hstream, Stream.expr_eq, hskip, parseExpr, plain_parseBinary_number hkind hleaf]
  cases numberOf s <;> rfl

/-- A row of digits is read as the integer it stands for, unless there are too many digits. -/
theorem Expr.parse_digits {cs : List Char} (h : cs.all isDigitChar = true) (hne : cs ≠ []) :
    Expr.parse (.ofChars cs) =
      if cs.length ≤ digitLimit then .ok (.number (.int (Nat.ofDigitChars 10 cs 0)))
      else .error (.refused (.tooManyDigits cs.length)) := by
  rw [Expr.parse_numeral (isNumeral_of_digits h hne)]
  split
  · next hlen =>
    rw [numberOf_digits h hne hlen]
    rfl
  · next hlen =>
    rw [numberOf_long_digits h (Nat.lt_of_not_le hlen)]
    rfl

end Digits

end FormBasic
