import FormBasic.Proofs.Number.Literal
import FormBasic.Proofs.Token.Pieces
import Mathlib.Data.List.Forall2

/-!
# Where tokens stand in the source

Every token of a text but the end marker stands for a span of the text that spells it. The spans
follow each other without overlap, what lies between them starts no token, and the place that a
token carries is that of the first character of its span.

## Main definitions

* `placeAt` - the line and the column of a character
* `Span` - a stretch of a text
* `Token.Content.IsSpelled` - what the spelling of a token looks like
* `Token.StandsAt` - a token and its span
* `CodePoint.startsToken` - the characters with which a token can start

## Main statements

* `Lexeme.spells_of_lexemeAt` - a lexeme takes the characters that spell it
* `Token.scan_spans` - the tokens of a text and their spans
-/

namespace FormBasic

-- ════════════════════════════════════════════════════════════════════════════
-- Places
-- ════════════════════════════════════════════════════════════════════════════

/-- Whether the first character of a text completes a line end: a line feed does, and a carriage
return that no line feed follows. -/
def completesLine : List CodePoint → Bool
  | .char c :: rest => c == '\n' || (c == '\r' && !startsWith (· == '\n') rest)
  | _ => false

/-- The line and the column of the character at an index, both counted from one. -/
def placeAt (source : List CodePoint) : Nat → Nat × Nat
  | 0 => (1, 1)
  | i + 1 =>
    let (line, col) := placeAt source i
    if completesLine (source.drop i) then (line + 1, 1) else (line, col + 1)

section Places

variable {source : List CodePoint} {i line col : Nat}

theorem completesLine_of_not_isLineEnd {c : CodePoint} (h : c.satisfies isLineEnd = false)
    (rest : List CodePoint) : completesLine (c :: rest) = false := by
  cases c with
  | half _ => rfl
  | char c =>
    simp only [CodePoint.satisfies, isLineEnd, Bool.or_eq_false_iff] at h
    simp [completesLine, h.1, h.2]

theorem drop_succ_of_drop {c : CodePoint} {cs : List CodePoint} (hdrop : source.drop i = c :: cs) :
    source.drop (i + 1) = cs := by
  rw [← List.drop_drop, hdrop, List.drop_succ_cons, List.drop_zero]

theorem placeAt_succ (h : placeAt source i = (line, col)) :
    placeAt source (i + 1) =
      if completesLine (source.drop i) then (line + 1, 1) else (line, col + 1) := by
  rw [placeAt, h]

/-- Characters that end no line stand on one line, each a column after the one before. -/
theorem placeAt_add (h : placeAt source i = (line, col)) {cs rest : List CodePoint}
    (hdrop : source.drop i = cs ++ rest) (hcs : ∀ c ∈ cs, c.satisfies isLineEnd = false) :
    placeAt source (i + cs.length) = (line, col + cs.length) := by
  induction cs generalizing i col with
  | nil => exact h
  | cons c cs ih =>
    rw [List.forall_mem_cons] at hcs
    have hnext : placeAt source (i + 1) = (line, col + 1) := by
      rw [placeAt_succ h, hdrop, List.cons_append, completesLine_of_not_isLineEnd hcs.1]
      rfl
    rw [List.length_cons, Nat.add_comm cs.length 1, ← Nat.add_assoc, ← Nat.add_assoc]
    exact ih hnext (drop_succ_of_drop hdrop) hcs.2

end Places

-- ════════════════════════════════════════════════════════════════════════════
-- Spellings
-- ════════════════════════════════════════════════════════════════════════════

/-- Whether some characters, in front of others, spell what a token says: a keyword in any letter
case; a string between quotes, of which the second one may be missing at the end of the line; one of
the three line ends; and everything else character by character. -/
def Token.Content.IsSpelled (w : Token.Content) (cs rest : List CodePoint) : Prop :=
  match w.kind with
  | .keyword => cs.map CodePoint.asciiLower = w.text.toList
  | .string =>
    w.text.toList.all isQuotable = true ∧
      (cs = .char '"' :: (w.text.toList ++ [.char '"']) ∨
        cs = .char '"' :: w.text.toList ∧ (rest = [] ∨ startsWith isLineEnd rest = true))
  | .newline =>
    cs = [.char '\n'] ∨ cs = [.char '\r', .char '\n'] ∨
      cs = [.char '\r'] ∧ startsWith (· == '\n') rest = false
  | _ => cs = w.text.toList

/-- The characters with which a token can start: those that end a line, the marks of comments and
strings, digits, letters and the underscore, operators and punctuation. -/
def CodePoint.startsToken : CodePoint → Bool :=
  CodePoint.satisfies fun c => isLineEnd c || c == commentMark || c == '"' || isDigitChar c ||
    isIdentStart c || isOperatorChar c || isPunctuationChar c

section Lexemes

variable {c : Char} {cs : List CodePoint} {l : Lexeme}

theorem exists_of_startsWith {p : Char → Bool} (h : startsWith p cs = true) :
    ∃ d rest, cs = .char d :: rest ∧ p d = true := by
  cases cs with
  | nil => cases h
  | cons d rest =>
    cases d with
    | half _ => cases h
    | char d => exact ⟨d, rest, rfl, h⟩

/-- A character of a class without the line ends ends no line. -/
theorem isLineEnd_of_excluded {p : Char → Bool} (h : p c = true) (hreturn : p '\r' = false)
    (hfeed : p '\n' = false) : isLineEnd c = false := by
  refine Bool.eq_false_iff.2 fun hline => ?_
  rw [isLineEnd, Bool.or_eq_true, beq_iff_eq, beq_iff_eq] at hline
  obtain rfl | rfl := hline
  · rw [hreturn] at h
    cases h
  · rw [hfeed] at h
    cases h

theorem CodePoint.not_isLineEnd_of_startsToken {c : CodePoint} (h : c.startsToken = false) :
    c.satisfies isLineEnd = false := by
  cases c with
  | half _ => rfl
  | char c =>
    simp only [CodePoint.startsToken, CodePoint.satisfies, Bool.or_eq_false_iff] at h
    exact h.1.1.1.1.1.1

/-- Nothing is recognised exactly where a character starts no token, whatever follows it. -/
theorem leadingLexeme_eq_none_iff (c : CodePoint) (cs : List CodePoint) :
    leadingLexeme c cs = none ↔ c.startsToken = false := by
  cases c with
  | half _ => exact ⟨fun _ => rfl, fun _ => rfl⟩
  | char c =>
    have hnone : ∀ {p : Bool} {l : Lexeme} {o : Option Lexeme},
        (if p then some l else o) = none ↔ p = false ∧ o = none := by
      intro p l o
      cases p <;> simp
    change lexemeAt c cs = none ↔ _
    simp only [lexemeAt, hnone, and_true]
    simp only [CodePoint.startsToken, CodePoint.satisfies, startsNumber, Bool.or_eq_false_iff,
      and_assoc]
    constructor
    · rintro ⟨hline, hmark, hquote, hdigit, -, hident, -, hoperator, hpunctuation⟩
      exact ⟨hline, hmark, hquote, hdigit, hident, hoperator, hpunctuation⟩
    · rintro ⟨hline, hmark, hquote, hdigit, hident, hoperator, hpunctuation⟩
      have hpoint : (c == '.') = false := by
        refine beq_eq_false_iff_ne.2 ?_
        rintro rfl
        cases hpunctuation
      have hlong : startsLongOperator c cs = false := by
        refine startsLongOperator_eq_false ?_ ?_ cs <;> rintro rfl <;> cases hoperator
      exact ⟨hline, hmark, hquote, hdigit, by rw [hpoint]; rfl, hident, hlong, hoperator,
        hpunctuation⟩

/-- Whether the characters that a lexeme takes, of which `c` is the first, spell it; only line ends
take characters that end a line. -/
structure Lexeme.Spells (l : Lexeme) (c : Char) (cs : List CodePoint) : Prop where
  spelled : Token.Content.IsSpelled ⟨l.kind, l.text⟩ (.char c :: cs.take l.extra) (cs.drop l.extra)
  on_line : l.kind ≠ .newline →
    ∀ d ∈ CodePoint.char c :: cs.take l.extra, d.satisfies isLineEnd = false

theorem take_length_takeLine (stop : Char → Bool) (cs : List CodePoint) :
    cs.take (takeLine stop cs).length = takeLine stop cs :=
  (List.prefix_iff_eq_take.1 (List.takeWhile_prefix _)).symm

/-- The part of a line up to a character ends no line. -/
theorem not_isLineEnd_of_mem_takeLine {stop : Char → Bool} {d : CodePoint}
    (h : d ∈ takeLine stop cs) : d.satisfies isLineEnd = false := by
  have hd := List.all_eq_true.1 (List.all_takeWhile (l := cs)) d h
  cases d with
  | half _ => rfl
  | char d =>
    simp only [CodePoint.satisfies, Bool.not_eq_true', Bool.or_eq_false_iff] at hd
    exact hd.2

/-- After the part of a line up to a character stands such a character, or the line ends. -/
theorem drop_length_takeLine (stop : Char → Bool) (cs : List CodePoint) :
    cs.drop (takeLine stop cs).length = [] ∨
      startsWith stop (cs.drop (takeLine stop cs).length) = true ∨
      startsWith isLineEnd (cs.drop (takeLine stop cs).length) = true := by
  induction cs with
  | nil => exact .inl rfl
  | cons d cs ih =>
    by_cases hd : (d.satisfies fun c => stop c || isLineEnd c) = true
    · have htake : takeLine stop (d :: cs) = [] := List.takeWhile_cons_of_neg (by simp [hd])
      cases d with
      | half _ => cases hd
      | char d =>
        rw [htake]
        exact .inr (Bool.or_eq_true_iff.1 hd)
    · have htake : takeLine stop (d :: cs) = d :: takeLine stop cs :=
        List.takeWhile_cons_of_pos (by simpa using hd)
      rw [htake]
      exact ih

/-- A first character and the characters taken after it are the characters of the lexeme. -/
theorem take_of_chars {chars : List Char} {rest : List CodePoint}
    (h : chars.map .char ++ rest = .char c :: cs) (hne : chars ≠ []) :
    CodePoint.char c :: cs.take (chars.length - 1) = chars.map .char := by
  obtain ⟨d, chars, rfl⟩ := List.exists_cons_of_ne_nil hne
  rw [List.map_cons, List.cons_append, List.cons.injEq] at h
  obtain ⟨hd, rfl⟩ := h
  rw [List.map_cons, hd, List.length_cons, Nat.add_sub_cancel, List.take_left' (List.length_map _)]

theorem Lexeme.spells_newline (hline : isLineEnd c = true) :
    Lexeme.Spells ⟨.newline, "\n", if c == '\r' && startsWith (· == '\n') cs then 1 else 0⟩ c cs := by
  refine ⟨?_, fun h => absurd rfl h⟩
  simp only [Token.Content.IsSpelled]
  simp only [isLineEnd, Bool.or_eq_true, beq_iff_eq] at hline
  rcases hline with rfl | rfl
  · cases hfeed : startsWith (· == '\n') cs with
    | false => exact .inr (.inr ⟨rfl, hfeed⟩)
    | true =>
      obtain ⟨d, rest, rfl, hd⟩ := exists_of_startsWith hfeed
      obtain rfl : d = '\n' := by simpa using hd
      exact .inr (.inl rfl)
  · exact .inl rfl

theorem Lexeme.spells_comment (cs : List CodePoint) : (commentLexeme cs).Spells commentMark cs := by
  have htake := take_length_takeLine (fun _ => false) cs
  refine ⟨?_, fun _ => ?_⟩
  · simp only [Token.Content.IsSpelled, commentLexeme, htake, Text.toList_ofList]
  · simp only [commentLexeme, htake, List.forall_mem_cons]
    exact ⟨rfl, fun _ => not_isLineEnd_of_mem_takeLine⟩

theorem Lexeme.spells_string (cs : List CodePoint) : (stringLexeme cs).Spells '"' cs := by
  have htake := take_length_takeLine (· == '"') cs
  have hquotable : (takeLine (· == '"') cs).all isQuotable = true := List.all_takeWhile
  cases hclosed : startsWith (· == '"') (cs.drop (takeLine (· == '"') cs).length) with
  | true =>
    obtain ⟨d, rest, hrest, hd⟩ := exists_of_startsWith hclosed
    obtain rfl : d = '"' := by simpa using hd
    have htaken : cs.take ((takeLine (· == '"') cs).length + 1) =
        takeLine (· == '"') cs ++ [.char '"'] := by
      rw [List.take_add, htake, hrest]
      rfl
    refine ⟨?_, fun _ => ?_⟩
    · simp only [Token.Content.IsSpelled, stringLexeme, hclosed, if_true, htaken,
        Text.toList_ofList]
      exact ⟨hquotable, .inl trivial⟩
    · simp only [stringLexeme, hclosed, if_true, htaken, List.forall_mem_cons,
        List.forall_mem_append]
      exact ⟨rfl, fun _ => not_isLineEnd_of_mem_takeLine, rfl, List.forall_mem_nil _⟩
  | false =>
    have hend := (drop_length_takeLine (· == '"') cs).imp_right fun h =>
      h.resolve_left (by rw [hclosed]; exact Bool.false_ne_true)
    refine ⟨?_, fun _ => ?_⟩
    · simp only [Token.Content.IsSpelled, stringLexeme, hclosed, Bool.false_eq_true, if_false,
        Nat.add_zero, htake, Text.toList_ofList]
      exact ⟨hquotable, .inr ⟨trivial, hend⟩⟩
    · simp only [stringLexeme, hclosed, Bool.false_eq_true, if_false, Nat.add_zero, htake,
        List.forall_mem_cons]
      exact ⟨rfl, fun _ => not_isLineEnd_of_mem_takeLine⟩

/-- A lexeme that says what it takes. -/
theorem Lexeme.spells_spelled {kind : Token.Kind} {chars : List Char} {rest : List CodePoint}
    (hkind : kind ≠ .keyword ∧ kind ≠ .string ∧ kind ≠ .newline)
    (h : chars.map .char ++ rest = .char c :: cs) (hne : chars ≠ [])
    (hline : ∀ d ∈ chars, isLineEnd d = false) : (Lexeme.spelled kind chars).Spells c cs := by
  have htake := take_of_chars h hne
  refine ⟨?_, fun _ => ?_⟩
  · simp only [Lexeme.spelled, htake, Token.Content.IsSpelled]
    split
    · exact absurd rfl hkind.1
    · exact absurd rfl hkind.2.1
    · exact absurd rfl hkind.2.2
    · rw [Text.toList_ofChars]
  · simp only [Lexeme.spelled, htake, List.forall_mem_map]
    exact hline

theorem Lexeme.spells_word (hident : isIdentStart c = true) :
    (wordLexeme (c :: takeChars isIdentChar cs)).Spells c cs := by
  have hchars : (c :: takeChars isIdentChar cs).map .char ++
      cs.drop (takeChars isIdentChar cs).length = .char c :: cs := by
    rw [List.map_cons, List.cons_append, takeChars_append_drop]
  have hline : ∀ d ∈ c :: takeChars isIdentChar cs, isLineEnd d = false := by
    rw [List.forall_mem_cons]
    exact ⟨isLineEnd_of_isIdentChar (isIdentChar_of_isIdentStart hident), fun d hd =>
      isLineEnd_of_isIdentChar (List.all_eq_true.1 (all_takeChars isIdentChar cs) d hd)⟩
  simp only [wordLexeme]
  split
  · have htake := take_of_chars hchars (List.cons_ne_nil _ _)
    refine ⟨?_, fun _ => ?_⟩
    · simp only [htake, Token.Content.IsSpelled, List.map_map, Text.toList_ofString,
        String.toList_ofList]
      rfl
    · simp only [htake, List.forall_mem_map]
      exact hline
  · exact spells_spelled (by decide) hchars (List.cons_ne_nil _ _) hline

/-- The characters that a lexeme takes spell it. -/
theorem Lexeme.spells_of_lexemeAt (h : lexemeAt c cs = some l) : l.Spells c cs := by
  unfold lexemeAt at h
  split at h
  · next hline =>
    cases h
    exact spells_newline hline
  split at h
  · next hmark =>
    cases h
    obtain rfl : c = commentMark := by simpa using hmark
    exact spells_comment cs
  split at h
  · next hquote =>
    cases h
    obtain rfl : c = '"' := by simpa using hquote
    exact spells_string cs
  split at h
  · next hnumber =>
    cases h
    refine spells_spelled (by decide) (numberChars_append_drop (.char c :: cs)) ?_ fun d hd => ?_
    · intro hnil
      have := isNumeral_numberChars hnumber
      rw [hnil] at this
      revert this
      decide
    · have hd := isNumeralChar_of_mem_numberChars hd
      simp only [Number.isNumeralChar, Bool.or_eq_true, beq_iff_eq] at hd
      rcases hd with hd | rfl
      · exact isLineEnd_of_isIdentChar (isIdentChar_of_isDigitChar hd)
      · rfl
  split at h
  · next hident =>
    cases h
    exact spells_word hident
  split at h
  · next hlong =>
    cases h
    obtain ⟨d, rest, rfl, hd⟩ := exists_of_startsWith hlong
    refine spells_spelled (by decide) (show [.char c, .char d] ++ rest = _ from rfl)
      (List.cons_ne_nil _ _) ?_
    have hlong : ∀ e ∈ longOperators, isLineEnd e.1 = false ∧ isLineEnd e.2 = false := by decide
    obtain ⟨hfirst, hsecond⟩ := hlong _ (List.contains_iff_mem.1 hd)
    rw [List.forall_mem_cons]
    exact ⟨hfirst, List.forall_mem_singleton.2 hsecond⟩
  split at h
  · next hoperator =>
    cases h
    refine spells_spelled (by decide) (show [.char c] ++ cs = _ from rfl) (List.cons_ne_nil _ _) ?_
    exact List.forall_mem_singleton.2 (isLineEnd_of_excluded hoperator rfl rfl)
  split at h
  · next hpunctuation =>
    cases h
    refine spells_spelled (by decide) (show [.char c] ++ cs = _ from rfl) (List.cons_ne_nil _ _) ?_
    exact List.forall_mem_singleton.2 (isLineEnd_of_excluded hpunctuation rfl rfl)
  · cases h

end Lexemes

-- ════════════════════════════════════════════════════════════════════════════
-- Spans
-- ════════════════════════════════════════════════════════════════════════════

/-- A stretch of a text, from an index up to, but not including, another one. -/
structure Span where
  start : Nat
  stop : Nat

namespace Span

/-- The characters of a span. -/
def of (s : Span) (source : List CodePoint) : List CodePoint :=
  (source.drop s.start).take (s.stop - s.start)

/-- Whether the character at an index belongs to the span. -/
def Contains (s : Span) (i : Nat) : Prop := s.start ≤ i ∧ i < s.stop

end Span

/-- The place behind a lexeme that starts at a place: the start of the next line after a line end. -/
def Lexeme.placeBehind (l : Lexeme) (line col : Nat) : Nat × Nat :=
  if l.kind = .newline then (line + 1, 1) else (line, col + 1 + l.extra)

namespace Token

/-- Whether a token stands for a span of the source: the span has characters, they spell the token,
and the token carries the place of the first one. -/
structure StandsAt (source : List CodePoint) (s : Span) (t : Token) : Prop where
  nonempty : s.start < s.stop
  within : s.stop ≤ source.length
  spelled : t.content.IsSpelled (s.of source) (source.drop s.stop)
  line : t.line = .ofNat (placeAt source s.start).1
  col : t.col = (placeAt source s.start).2

/-- Tokens and their spans in the part of a source that starts at an index. -/
structure Laid (source : List CodePoint) (i : Nat) (spans : List Span) (ts : List Token) :
    Prop where
  stand : List.Forall₂ (StandsAt source) spans ts
  ordered : spans.Pairwise fun a b => a.stop ≤ b.start
  from_index : ∀ s ∈ spans, i ≤ s.start
  outside : ∀ j c, i ≤ j → source[j]? = some c → (∀ s ∈ spans, ¬ s.Contains j) →
    c.startsToken = false

namespace Laid

variable {source : List CodePoint} {i : Nat} {spans : List Span} {ts : List Token}

theorem nil (h : source.length ≤ i) : Laid source i [] [] where
  stand := .nil
  ordered := .nil
  from_index := nofun
  outside j c hj hc _ := by
    rw [List.getElem?_eq_none (Nat.le_trans h hj)] at hc
    cases hc

/-- A character that starts no token in front. -/
theorem skip {c : CodePoint} (hc : source[i]? = some c) (hskip : c.startsToken = false)
    (h : Laid source (i + 1) spans ts) : Laid source i spans ts where
  stand := h.stand
  ordered := h.ordered
  from_index s hs := Nat.le_of_succ_le (h.from_index s hs)
  outside j d hj hd hout := by
    rcases Nat.eq_or_lt_of_le hj with rfl | hj
    · rw [hc] at hd
      exact Option.some.inj hd ▸ hskip
    · exact h.outside j d hj hd hout

/-- A span in front. -/
theorem cons {stop : Nat} {t : Token} (ht : StandsAt source ⟨i, stop⟩ t)
    (h : Laid source stop spans ts) : Laid source i (⟨i, stop⟩ :: spans) (t :: ts) where
  stand := .cons ht h.stand
  ordered := .cons h.from_index h.ordered
  from_index s hs := by
    rcases List.mem_cons.1 hs with rfl | hs
    · exact Nat.le_refl _
    · exact Nat.le_trans (Nat.le_of_lt ht.nonempty) (h.from_index s hs)
  outside j c hj hc hout := by
    rw [List.forall_mem_cons] at hout
    refine h.outside j c (Nat.le_of_not_lt fun hlt => ?_) hc hout.2
    exact hout.1 ⟨hj, hlt⟩

end Laid

section LeadingLexeme

variable {source : List CodePoint} {i line col : Nat} {c : Char} {cs : List CodePoint} {l : Lexeme}

/-- What comes after a lexeme is scanned from the place behind it. -/
theorem scanFrom_of_lexemeAt (h : lexemeAt c cs = some l) (line col : Nat) :
    scanFrom line col (.char c :: cs) = ⟨l.kind, l.text, .ofNat line, col⟩ ::
      scanFrom (l.placeBehind line col).1 (l.placeBehind line col).2 (cs.drop l.extra) := by
  rw [scanFrom, show (CodePoint.char c).char?.bind (fun c => lexemeAt c cs) = some l from h]
  simp only [Lexeme.placeBehind]
  split <;> rfl

theorem placeAt_of_lexemeAt (hplace : placeAt source i = (line, col))
    (hdrop : source.drop i = .char c :: cs) (h : lexemeAt c cs = some l) :
    placeAt source (i + 1 + l.extra) = l.placeBehind line col := by
  have hspells := Lexeme.spells_of_lexemeAt h
  have hlength : (cs.take l.extra).length = l.extra :=
    List.length_take_of_le (extra_le_of_lexemeAt h)
  rw [Lexeme.placeBehind]
  split
  · next hkind =>
    have hspelled := hspells.spelled
    simp only [Content.IsSpelled, hkind, List.cons.injEq] at hspelled
    rcases hspelled with ⟨hc, htake⟩ | ⟨hc, htake⟩ | ⟨⟨hc, htake⟩, hfeed⟩ <;>
      rw [htake] at hlength <;> rw [← hlength]
    · rw [List.length_nil, Nat.add_zero, placeAt_succ hplace, hdrop, hc]
      rfl
    · have hcs : cs = .char '\n' :: cs.drop l.extra := by
        rw [← List.singleton_append, ← htake, List.take_append_drop]
      have hreturn : placeAt source (i + 1) = (line, col + 1) := by
        rw [placeAt_succ hplace, hdrop, hc, hcs]
        rfl
      rw [List.length_singleton, placeAt_succ hreturn, drop_succ_of_drop hdrop, hcs]
      rfl
    · have hcs : cs = cs.drop l.extra := by
        rw [← List.nil_append (cs.drop _), ← htake, List.take_append_drop]
      rw [List.length_nil, Nat.add_zero, placeAt_succ hplace, hdrop, hc, completesLine, hcs, hfeed]
      rfl
  · next hkind =>
    have hsplit : source.drop i = (.char c :: cs.take l.extra) ++ cs.drop l.extra := by
      rw [hdrop, List.cons_append, List.take_append_drop]
    have hadd := placeAt_add hplace hsplit (hspells.on_line hkind)
    rw [List.length_cons, hlength] at hadd
    rw [Nat.add_assoc, Nat.add_comm 1, hadd, Nat.add_assoc, Nat.add_comm 1]

/-- A lexeme is a token whose span is the characters that it takes. -/
theorem standsAt_of_lexemeAt (hplace : placeAt source i = (line, col))
    (hdrop : source.drop i = .char c :: cs) (h : lexemeAt c cs = some l) :
    StandsAt source ⟨i, i + 1 + l.extra⟩ ⟨l.kind, l.text, .ofNat line, col⟩ where
  nonempty := Nat.lt_of_lt_of_le (Nat.lt_succ_self i) (Nat.le_add_right ..)
  within := by
    have hextra := extra_le_of_lexemeAt h
    have hlength := congrArg List.length hdrop
    rw [List.length_drop, List.length_cons] at hlength
    simp only
    omega
  spelled := by
    have hof : Span.of ⟨i, i + 1 + l.extra⟩ source = .char c :: cs.take l.extra := by
      simp only [Span.of, hdrop]
      rw [show i + 1 + l.extra - i = l.extra + 1 by omega, List.take_succ_cons]
    rw [hof, ← List.drop_drop, drop_succ_of_drop hdrop]
    exact (Lexeme.spells_of_lexemeAt h).spelled
  line := by rw [hplace]
  col := by rw [hplace]

end LeadingLexeme

/-- The tokens of the part of a source that starts at an index, with their spans. -/
theorem exists_laid (source : List CodePoint) (i line col : Nat) (hi : i ≤ source.length)
    (hplace : placeAt source i = (line, col)) :
    ∃ ts spans, scanFrom line col (source.drop i) =
        ts ++ [⟨.eof, "", .ofNat (placeAt source source.length).1,
          (placeAt source source.length).2⟩] ∧
      (∀ t ∈ ts, t.kind ≠ .eof) ∧ Laid source i spans ts := by
  cases hdrop : source.drop i with
  | nil =>
    have hend : source.length ≤ i := List.drop_eq_nil_iff.1 hdrop
    rw [Nat.le_antisymm hend hi, hplace]
    refine ⟨[], [], ?_, nofun, .nil hend⟩
    rw [scanFrom, List.nil_append]
  | cons c cs =>
    have hlt : i < source.length := by
      refine Nat.lt_of_le_of_ne hi ?_
      rintro rfl
      rw [List.drop_length] at hdrop
      cases hdrop
    cases hl : leadingLexeme c cs with
    | none =>
      have hc : source[i]? = some c := by
        rw [← List.head?_drop, hdrop, List.head?_cons]
      have hskip := (leadingLexeme_eq_none_iff c cs).1 hl
      have hbehind : placeAt source (i + 1) = (line, col + 1) :=
        placeAt_add hplace (show source.drop i = [c] ++ cs from hdrop)
          (List.forall_mem_singleton.2 (CodePoint.not_isLineEnd_of_startsToken hskip))
      obtain ⟨ts, spans, hscan, hkinds, hlaid⟩ :=
        exists_laid source (i + 1) line (col + 1) hlt hbehind
      rw [scanFrom_of_none hl, ← drop_succ_of_drop hdrop]
      exact ⟨ts, spans, hscan, hkinds, hlaid.skip hc hskip⟩
    | some l =>
      obtain ⟨d, rfl, hlex⟩ : ∃ d, c = .char d ∧ lexemeAt d cs = some l := by
        cases c with
        | half _ => cases hl
        | char d => exact ⟨d, rfl, hl⟩
      have hstands := standsAt_of_lexemeAt hplace hdrop hlex
      obtain ⟨ts, spans, hscan, hkinds, hlaid⟩ :=
        exists_laid source (i + 1 + l.extra) (l.placeBehind line col).1 (l.placeBehind line col).2
          hstands.within (placeAt_of_lexemeAt hplace hdrop hlex)
      rw [← List.drop_drop, drop_succ_of_drop hdrop] at hscan
      rw [scanFrom_of_lexemeAt hlex, hscan]
      exact ⟨_ :: ts, _ :: spans, rfl,
        List.forall_mem_cons.2 ⟨kind_ne_eof_of_lexemeAt hlex, hkinds⟩, .cons hstands hlaid⟩
termination_by source.length - i

/-- Every token of a text but the end marker stands for a span of the text; the spans follow each
other without overlap, and a character outside of them starts no token. The end marker carries the
place after the last character. -/
theorem scan_spans (source : Text) :
    ∃ ts spans, scan source =
        ts ++ [⟨.eof, "", .ofNat (placeAt source.toList source.length).1,
          (placeAt source.toList source.length).2⟩] ∧
      (∀ t ∈ ts, t.kind ≠ .eof) ∧
      List.Forall₂ (StandsAt source.toList) spans ts ∧
      (spans.Pairwise fun a b => a.stop ≤ b.start) ∧
      ∀ i c, source.toList[i]? = some c → (∀ s ∈ spans, ¬ s.Contains i) →
        c.startsToken = false := by
  obtain ⟨ts, spans, hscan, hkinds, hlaid⟩ :=
    exists_laid source.toList 0 1 1 (Nat.zero_le _) rfl
  exact ⟨ts, spans, hscan, hkinds, hlaid.stand, hlaid.ordered,
    fun i c hc hout => hlaid.outside i c (Nat.zero_le i) hc hout⟩

end Token

end FormBasic
