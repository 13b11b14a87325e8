import FormBasic.Grammar.Cursor
import FormBasic.Proofs.Text.Ascii
import FormBasic.Proofs.Token.Spans

/-!
# Blanks around a text

Trimming takes more from a text than blanks that separate tokens: line ends are blank, and the
blanks at the end of a comment or of a string without a closing quote belong to it. A text and its
trimmed form therefore have the same tokens but for line ends at both ends and the text of the last
string.

## Main definitions

* `Trimmed` - the tokens of a text with blanks behind it, and those of the text alone
* `Lexeme.Widened` - a lexeme of a text with blanks behind it, and the lexeme of the text alone

## Main statements

* `Text.exists_blanks` - what is trimmed from a text is blank
* `scanFrom_blanks` - blanks in front of a text are scanned as line ends
* `trimmed_scanFrom` - how blanks behind a text are scanned
-/

namespace FormBasic

open Text (isBlankPoint)

/-- Whether code points are all blank. -/
def AllBlank (cs : List CodePoint) : Prop := ∀ c ∈ cs, isBlankPoint c = true

section Blanks

variable {c : CodePoint} {cs bs : List CodePoint}

theorem AllBlank.tail (h : AllBlank (c :: cs)) : AllBlank cs :=
  fun d hd => h d (List.mem_cons_of_mem c hd)

theorem AllBlank.drop (h : AllBlank cs) (n : Nat) : AllBlank (cs.drop n) :=
  fun d hd => h d (List.mem_of_mem_drop hd)

theorem isAscii_of_startsToken {c : Char} (h : (CodePoint.char c).startsToken = true) :
    Text.isAscii c = true := by
  simp only [CodePoint.startsToken, CodePoint.satisfies, isLineEnd, isOperatorChar,
    isPunctuationChar, Bool.or_eq_true, beq_iff_eq, List.contains_iff_mem, List.mem_cons,
    List.not_mem_nil, or_false] at h
  rcases h with (((((h | h) | h) | h) | h) | h) | h
  · rcases h with rfl | rfl <;> rfl
  · rw [h]
    rfl
  · rw [h]
    rfl
  · exact Number.isAscii_of_isDigitChar h
  · exact isAscii_of_isIdentChar (isIdentChar_of_isIdentStart h)
  · rcases h with rfl | rfl | rfl | rfl | rfl | rfl | rfl | rfl | rfl | rfl <;> rfl
  · rcases h with rfl | rfl | rfl | rfl <;> rfl

/-- A blank that is no line end starts no token. -/
theorem startsToken_of_isBlankPoint (h : isBlankPoint c = true)
    (hline : c.satisfies isLineEnd = false) : c.startsToken = false := by
  cases c with
  | half _ => rfl
  | char c =>
    rw [Bool.eq_false_iff]
    intro hstarts
    refine Bool.eq_false_iff.1 ?_ hstarts
    refine Text.ascii_induction (P := fun c => isBlankPoint (.char c) = true →
      (CodePoint.char c).satisfies isLineEnd = false → (CodePoint.char c).startsToken = false) ?_
      (isAscii_of_startsToken hstarts) h hline
    decide

/-- No lexeme goes on with a blank, unless it may take any character. -/
theorem startsWith_goesOn_of_allBlank (h : AllBlank bs) : startsWith goesOn bs = false := by
  refine Bool.eq_false_iff.2 fun hgoes => ?_
  obtain ⟨c, rest, rfl, hc⟩ := exists_of_startsWith hgoes
  have hascii : Text.isAscii c = true := by
    simp only [goesOn, Bool.or_eq_true, List.contains_iff_mem, List.mem_cons, List.not_mem_nil,
      or_false] at hc
    rcases hc with hc | rfl | rfl | rfl | rfl
    · exact isAscii_of_isIdentChar hc
    all_goals rfl
  have hblank : isBlankPoint (.char c) = false :=
    Text.ascii_induction (P := fun c => goesOn c = true → isBlankPoint (.char c) = false)
      (by decide) hascii hc
  rw [h _ List.mem_cons_self] at hblank
  cases hblank

end Blanks

-- ════════════════════════════════════════════════════════════════════════════
-- Trimming
-- ════════════════════════════════════════════════════════════════════════════

namespace Text

theorem exists_dropWhileEnd {α : Type} (p : α → Bool) (xs : List α) :
    ∃ after, xs = dropWhileEnd p xs ++ after ∧ ∀ x ∈ after, p x = true := by
  refine ⟨(xs.reverse.takeWhile p).reverse, ?_, fun x hx => ?_⟩
  · rw [dropWhileEnd, ← List.reverse_append, List.takeWhile_append_dropWhile, List.reverse_reverse]
  · exact List.all_eq_true.1 List.all_takeWhile x (List.mem_reverse.1 hx)

/-- A text is its trimmed form between blanks, and no line feed follows the blanks in front. -/
theorem exists_blanks (s : Text) :
    ∃ before after, s.toList = before ++ ((trim s).toList ++ after) ∧ AllBlank before ∧
      AllBlank after ∧ startsWith (· == '\n') ((trim s).toList ++ after) = false := by
  obtain ⟨after, hafter, hblank⟩ :=
    exists_dropWhileEnd isBlankPoint (s.toList.dropWhile isBlankPoint)
  refine ⟨s.toList.takeWhile isBlankPoint, after, ?_, List.all_eq_true.1 List.all_takeWhile,
    hblank, ?_⟩
  · rw [trim, toList_ofList, ← hafter, List.takeWhile_append_dropWhile]
  rw [trim, toList_ofList, ← hafter, Bool.eq_false_iff]
  intro hfeed
  obtain ⟨d, rest, hrest, hd⟩ := exists_of_startsWith hfeed
  have hhead := List.head?_dropWhile_not isBlankPoint s.toList
  rw [hrest, beq_iff_eq.1 hd] at hhead
  exact absurd (show isBlankPoint (.char '\n') = false from hhead) (by decide)

end Text

-- ════════════════════════════════════════════════════════════════════════════
-- Blanks in front
-- ════════════════════════════════════════════════════════════════════════════

/-- Blanks in front of a text are scanned as line ends. A carriage return at their end would be one
line end with a line feed at the start of the text. -/
theorem scanFrom_blanks {rest : List CodePoint} (hrest : startsWith (· == '\n') rest = false)
    (bs : List CodePoint) (h : AllBlank bs) (line col : Nat) :
    ∃ ns line' col', Token.scanFrom line col (bs ++ rest) = ns ++ Token.scanFrom line' col' rest ∧
      ∀ n ∈ ns, n.kind = .newline := by
  match bs, h with
  | [], _ => exact ⟨[], line, col, rfl, fun _ hn => absurd hn List.not_mem_nil⟩
  | b :: bs, h =>
    cases hb : b.satisfies isLineEnd with
    | false =>
      have hnone : leadingLexeme b (bs ++ rest) = none :=
        (leadingLexeme_eq_none_iff _ _).2 (startsToken_of_isBlankPoint (h b List.mem_cons_self) hb)
      obtain ⟨ns, line', col', hscan, hns⟩ := scanFrom_blanks hrest bs h.tail line (col + 1)
      refine ⟨ns, line', col', ?_, hns⟩
      rw [List.cons_append, scanFrom_of_none hnone, hscan]
    | true =>
      cases b with
      | half _ => cases hb
      | char c =>
        have hc : isLineEnd c = true := hb
        let extra := if c == '\r' && startsWith (· == '\n') (bs ++ rest) then 1 else 0
        have hlex : leadingLexeme (.char c) (bs ++ rest) = some ⟨.newline, "\n", extra⟩ :=
          if_pos hc
        have hextra : extra ≤ bs.length := by
          cases bs with
          | nil => simp [extra, hrest]
          | cons => exact Nat.le_trans (by simp only [extra]; split <;> omega) (Nat.succ_pos _)
        obtain ⟨line₁, col₁, hfirst⟩ := scanFrom_of_some hlex line col
        obtain ⟨ns, line', col', hscan, hns⟩ :=
          scanFrom_blanks hrest (bs.drop extra) (h.tail.drop extra) line₁ col₁
        refine ⟨⟨.newline, "\n", .ofNat line, col⟩ :: ns, line', col', ?_,
          List.forall_mem_cons.2 ⟨rfl, hns⟩⟩
        rw [List.cons_append, hfirst, List.drop_append_of_le_length hextra, hscan, List.cons_append]
termination_by bs.length
decreasing_by
  · exact Nat.lt_succ_self _
  · simp only [List.length_cons, List.length_drop]
    omega

-- ════════════════════════════════════════════════════════════════════════════
-- Blanks behind
-- ════════════════════════════════════════════════════════════════════════════

/-- What a lexeme becomes where blanks stand behind the text: it is of the same kind, and takes more
of the blanks at most. Only strings and comments have another text. -/
structure Lexeme.Widened (cs : List CodePoint) (l l' : Lexeme) : Prop where
  kind : l'.kind = l.kind
  text : l.kind ≠ .string → l.kind ≠ .comment → l'.text = l.text
  behind : cs.drop l'.extra = cs.drop l.extra

section Lexemes

variable {bs : List CodePoint} {c : Char} {l : Lexeme}

theorem Lexeme.Widened.refl (cs : List CodePoint) (l : Lexeme) : l.Widened cs l :=
  ⟨rfl, fun _ _ => rfl, rfl⟩

/-- Up to the end of its line, a text with blanks behind it is the same as by itself, unless the
line is the last one. -/
theorem takeLine_append_or (stop : Char → Bool) (cs bs : List CodePoint) :
    takeLine stop (cs ++ bs) = takeLine stop cs ∨
      takeLine stop cs = cs ∧ takeLine stop (cs ++ bs) = cs ++ takeLine stop bs := by
  by_cases hall : ∀ c ∈ cs, (!c.satisfies fun d => stop d || isLineEnd d) = true
  · have happend : ∀ bs, takeLine stop (cs ++ bs) = cs ++ takeLine stop bs :=
      fun _ => List.takeWhile_append_of_pos hall
    have hwhole := happend []
    rw [takeLine, takeLine, List.append_nil, List.takeWhile_nil, List.append_nil] at hwhole
    exact .inr ⟨hwhole, happend bs⟩
  · simp only [not_forall, Bool.not_eq_true] at hall
    obtain ⟨c, hc, hstop⟩ := hall
    exact .inl (takeWhile_append_of_mem hc hstop bs)

theorem widened_commentLexeme (cs bs : List CodePoint) :
    (commentLexeme cs).Widened cs (commentLexeme (cs ++ bs)) := by
  refine ⟨rfl, fun _ h => absurd rfl h, ?_⟩
  simp only [commentLexeme]
  rcases takeLine_append_or (fun _ => false) cs bs with h | ⟨h, h'⟩
  · rw [h]
  · rw [h, h', List.drop_length, List.drop_eq_nil_of_le (by simp)]

theorem widened_stringLexeme (hbs : AllBlank bs) (cs : List CodePoint) :
    (stringLexeme cs).Widened cs (stringLexeme (cs ++ bs)) := by
  refine ⟨rfl, fun h => absurd rfl h, ?_⟩
  rcases takeLine_append_or (· == '"') cs bs with h | ⟨h, h'⟩
  · rw [stringLexeme_append_of_takeLine (startsWith_goesOn_of_allBlank hbs) h]
  · simp only [stringLexeme, h, h']
    rw [List.drop_eq_nil_of_le (Nat.le_add_right _ _), List.drop_eq_nil_of_le]
    exact Nat.le_trans (by simp) (Nat.le_add_right _ _)

/-- With blanks behind the text, a lexeme is widened at most. -/
theorem exists_widened (hbs : AllBlank bs) {cs : List CodePoint} (hl : lexemeAt c cs = some l) :
    ∃ l', lexemeAt c (cs ++ bs) = some l' ∧ l.Widened cs l' := by
  by_cases hreturn : c = '\r' ∧ cs = []
  · obtain ⟨rfl, rfl⟩ := hreturn
    obtain rfl : (⟨.newline, "\n", 0⟩ : Lexeme) = l := Option.some.inj hl
    exact ⟨_, rfl, rfl, fun _ _ => rfl, by rw [List.drop_nil, List.drop_nil]⟩
  by_cases hmark : c = commentMark
  · subst hmark
    obtain rfl : commentLexeme cs = l := Option.some.inj hl
    exact ⟨_, rfl, widened_commentLexeme cs bs⟩
  by_cases hquote : c = '"'
  · subst hquote
    obtain rfl : stringLexeme cs = l := Option.some.inj hl
    exact ⟨_, rfl, widened_stringLexeme hbs cs⟩
  refine ⟨l, ?_, .refl cs l⟩
  refine (lexemeAt_append_of_goesOn (startsWith_goesOn_of_allBlank hbs) (fun hc => ?_)
    (fun hc => absurd hc hmark) fun hc => absurd hc hquote).trans hl
  obtain ⟨d, cs, rfl⟩ := List.exists_cons_of_ne_nil fun hcs => hreturn ⟨hc, hcs⟩
  rfl

end Lexemes

-- ════════════════════════════════════════════════════════════════════════════
-- Whole texts
-- ════════════════════════════════════════════════════════════════════════════

/-- The tokens of a text with blanks behind it, and those of the text alone: where these end, only
line ends are left, and a string may have another text. -/
inductive Trimmed : List Token → List Token → Prop
  | done {ts : List Token} (lines : ∀ t ∈ ts, t.kind = .newline) : Trimmed ts []
  | cons {t u : Token} {ts us : List Token} (kind : u.kind = t.kind)
    (text : t.kind ≠ .string → u.text = t.text) (tail : Trimmed ts us) :
    Trimmed (t :: ts) (u :: us)

namespace Trimmed

variable {ts us : List Token}

theorem skipNewlines (h : Trimmed ts us) :
    Trimmed (FormBasic.skipNewlines ts) (FormBasic.skipNewlines us) := by
  induction h with
  | done lines =>
    refine .done fun t ht => lines t ?_
    exact (List.dropWhile_sublist _).mem ht
  | @cons t u ts us kind text tail ih =>
    simp only [FormBasic.skipNewlines, List.dropWhile_cons, kind]
    split
    · exact ih
    · exact .cons kind text tail

theorem newlines (h : Trimmed ts us) (hts : ∀ t ∈ ts, t.kind = .newline) :
    ∀ u ∈ us, u.kind = .newline := by
  induction h with
  | done => exact fun _ hu => absurd hu List.not_mem_nil
  | cons kind text tail ih =>
    obtain ⟨ht, hts⟩ := List.forall_mem_cons.1 hts
    exact List.forall_mem_cons.2 ⟨kind.trans ht, ih hts⟩

end Trimmed

/-- Comments are left out, all other tokens before the end marker are read. -/
theorem tokens_ofTokens_cons {t : Token} (ht : t.kind ≠ .eof) (ts : List Token) :
    (Stream.ofTokens (t :: ts)).tokens =
      if t.kind = .comment then (Stream.ofTokens ts).tokens
      else t :: (Stream.ofTokens ts).tokens := by
  by_cases hcomment : t.kind = .comment <;> simp [Stream.ofTokens, hcomment, ht]

theorem tokens_ofTokens_newlines {ns : List Token} (hns : ∀ n ∈ ns, n.kind = .newline)
    (ts : List Token) :
    (Stream.ofTokens (ns ++ ts)).tokens = ns ++ (Stream.ofTokens ts).tokens := by
  induction ns with
  | nil => rfl
  | cons n ns ih =>
    obtain ⟨hn, hns⟩ := List.forall_mem_cons.1 hns
    rw [List.cons_append, tokens_ofTokens_cons (by simp [hn]), if_neg (by simp [hn]), ih hns,
      List.cons_append]

theorem tokens_scanFrom_nil (line col : Nat) :
    (Stream.ofTokens (Token.scanFrom line col [])).tokens = [] := by
  rw [Token.scanFrom]
  rfl

/-- The tokens of a text with blanks behind it are those of the text, up to line ends behind them and
the text of the last string. -/
theorem trimmed_scanFrom (bs : List CodePoint) (hbs : AllBlank bs) (cs : List CodePoint)
    (line col line' col' : Nat) :
    Trimmed (Stream.ofTokens (Token.scanFrom line col (cs ++ bs))).tokens
      (Stream.ofTokens (Token.scanFrom line' col' cs)).tokens := by
  match cs with
  | [] =>
    have hnil : startsWith (· == '\n') [] = false := rfl
    obtain ⟨ns, line₁, col₁, hscan, hns⟩ := scanFrom_blanks hnil bs hbs line col
    rw [List.append_nil] at hscan
    rw [tokens_scanFrom_nil, List.nil_append, hscan, tokens_ofTokens_newlines hns,
      tokens_scanFrom_nil, List.append_nil]
    exact .done hns
  | c :: cs =>
    rw [List.cons_append]
    cases hl : leadingLexeme c cs with
    | none =>
      have hl' : leadingLexeme c (cs ++ bs) = none :=
        (leadingLexeme_eq_none_iff c _).2 ((leadingLexeme_eq_none_iff c cs).1 hl)
      rw [scanFrom_of_none hl, scanFrom_of_none hl']
      exact trimmed_scanFrom bs hbs cs line (col + 1) line' (col' + 1)
    | some l =>
      obtain ⟨d, rfl, hd⟩ : ∃ d, c = .char d ∧ lexemeAt d cs = some l := by
        cases c with
        | half _ => cases hl
        | char d => exact ⟨d, rfl, hl⟩
      obtain ⟨l', hd', hkind, htext, hbehind⟩ := exists_widened hbs hd
      have hl' : leadingLexeme (.char d) (cs ++ bs) = some l' := hd'
      obtain ⟨line₁, col₁, hfirst⟩ := scanFrom_of_some hl' line col
      obtain ⟨line₂, col₂, hsecond⟩ := scanFrom_of_some hl line' col'
      have ih := trimmed_scanFrom (bs.drop (l'.extra - cs.length)) (hbs.drop _) (cs.drop l.extra)
        line₁ col₁ line₂ col₂
      rw [← hbehind, ← List.drop_append, hbehind] at ih
      rw [hfirst, hsecond, tokens_ofTokens_cons (kind_ne_eof_of_lexemeAt hd'),
        tokens_ofTokens_cons (kind_ne_eof_of_lexemeAt hd), hkind]
      split
      · exact ih
      · next hcomment => exact .cons rfl (fun hstring => (htext hstring hcomment).symm) ih
termination_by cs.length
decreasing_by
  · exact Nat.lt_succ_self _
  · simp only [List.length_cons, List.length_drop]
    omega

/-- A text and its trimmed form have the same tokens behind leading line ends, up to line ends at the
end and the text of the last string. -/
theorem trimmed_ofSource (s : Text) :
    Trimmed (skipNewlines (Stream.ofSource s).tokens)
      (skipNewlines (Stream.ofSource (Text.trim s)).tokens) := by
  obtain ⟨before, after, hs, hbefore, hafter, hfeed⟩ := Text.exists_blanks s
  obtain ⟨ns, line, col, hscan, hns⟩ := scanFrom_blanks hfeed before hbefore 1 1
  have htokens : skipNewlines (Stream.ofSource s).tokens = skipNewlines
      (Stream.ofTokens (Token.scanFrom line col ((Text.trim s).toList ++ after))).tokens := by
    rw [Stream.ofSource, Token.scan, hs, hscan, tokens_ofTokens_newlines hns]
    exact List.dropWhile_append_of_pos fun n hn => beq_iff_eq.2 (hns n hn)
  rw [htokens]
  exact (trimmed_scanFrom after hafter _ line col 1 1).skipNewlines

end FormBasic
