import FormBasic.Proofs.Token.Lines
import FormBasic.Proofs.Token.Sound

/-!
# Scanning pieces of a line

A text that stands on one line and holds no comment is scanned as it is by itself wherever a space
or the end of the line follows it, provided that its string literals are closed: an open one would
take in what follows on the line. Quotes stand only around string literals there, so the literals
are closed when the number of quotes is even.

## Main definitions

* `Text.OneLine` - texts without line ends and comments
* `Text.isClosed` - texts in which each quote has its counterpart

## Main statements

* `scans_oneLine` - such a text inside a longer one
-/

namespace FormBasic

open Token (Content)

/-- A text without line ends and without comments. -/
structure Text.OneLine (s : Text) : Prop where
  line : ∀ c ∈ s.toList, c.satisfies isLineEnd = false
  noComment : ∀ t ∈ Token.scan s, t.kind ≠ .comment

/-- The quotes of a text. -/
def quotes (cs : List CodePoint) : Nat := cs.count (.char '"')

/-- Whether each quote has its counterpart. -/
def Text.isClosed (s : Text) : Bool := quotes s.toList % 2 == 0

-- ════════════════════════════════════════════════════════════════════════════
-- Quotes that a lexeme takes
-- ════════════════════════════════════════════════════════════════════════════

section Quotes

variable {cs : List CodePoint}

theorem takeChars_append_drop (p : Char → Bool) (cs : List CodePoint) :
    (takeChars p cs).map .char ++ cs.drop (takeChars p cs).length = cs := by
  induction cs with
  | nil => rfl
  | cons c cs ih =>
    cases c with
    | half _ => simp [takeChars, CodePoint.satisfies]
    | char c =>
      by_cases hc : p c = true
      · have htake : takeChars p (.char c :: cs) = c :: takeChars p cs := by
          simp [takeChars, CodePoint.satisfies, CodePoint.char?, hc]
        rw [htake, List.map_cons, List.length_cons, List.drop_succ_cons, List.cons_append, ih]
      · simp [takeChars, CodePoint.satisfies, hc]

theorem numberChars_append_drop (cs : List CodePoint) :
    (numberChars cs).map .char ++ cs.drop (numberChars cs).length = cs := by
  have hwhole := takeChars_append_drop isDigitChar cs
  simp only [numberChars]
  split
  · next rest hdrop =>
    split
    · have hpart := takeChars_append_drop isDigitChar rest
      rw [List.map_append, List.map_cons, List.length_append, List.length_cons, ← List.drop_drop,
        hdrop, List.drop_succ_cons, List.append_assoc, List.cons_append, hpart, ← hdrop, hwhole]
    · exact hwhole
  · exact hwhole

theorem quote_notMem_takeChars {p : Char → Bool} (hp : p '"' = false) (cs : List CodePoint) :
    '"' ∉ takeChars p cs := by
  intro hmem
  have := List.all_eq_true.1 (all_takeChars p cs) _ hmem
  rw [hp] at this
  cases this

/-- A number is made of digits and points. -/
theorem isNumeralChar_of_mem_numberChars {d : Char} (h : d ∈ numberChars cs) :
    Number.isNumeralChar d = true := by
  have hdigit : ∀ {cs : List CodePoint}, d ∈ takeChars isDigitChar cs →
      Number.isNumeralChar d = true := by
    intro cs hd
    rw [Number.isNumeralChar, List.all_eq_true.1 (all_takeChars isDigitChar cs) d hd, Bool.true_or]
  simp only [numberChars] at h
  split at h
  · split at h
    · rcases List.mem_append.1 h with h | h
      · exact hdigit h
      rcases List.mem_cons.1 h with rfl | h
      · rfl
      · exact hdigit h
    · exact hdigit h
  · exact hdigit h

theorem quote_notMem_numberChars (cs : List CodePoint) : '"' ∉ numberChars cs := by
  intro hmem
  exact absurd (isNumeralChar_of_mem_numberChars hmem) (by decide)

/-- Leaving out characters that are no quotes leaves the number of quotes as it is. -/
theorem quotes_of_append (chars : List Char) {rest : List CodePoint}
    (h : chars.map .char ++ rest = cs) (hchars : '"' ∉ chars) : quotes rest = quotes cs := by
  have hcount : (chars.map CodePoint.char).count (.char '"') = 0 := by
    rw [List.count_eq_zero]
    simpa using hchars
  rw [← h, quotes, quotes, List.count_append, hcount, Nat.zero_add]

/-- Apart from string literals and comments, no lexeme takes a quote. -/
theorem quotes_of_lexemeAt {c : Char} {l : Lexeme} (h : lexemeAt c cs = some l) (hquote : c ≠ '"')
    (hmark : c ≠ commentMark) : quotes (cs.drop l.extra) = quotes cs := by
  unfold lexemeAt at h
  split at h
  · cases h
    simp only
    split
    · next hfeed =>
      rw [Bool.and_eq_true] at hfeed
      obtain ⟨-, hfeed⟩ := hfeed
      cases cs with
      | nil => rfl
      | cons d cs =>
        refine quotes_of_append ['\n'] ?_ (by decide)
        cases d with
        | half _ => cases hfeed
        | char d =>
          obtain rfl : d = '\n' := by simpa [startsWith, CodePoint.satisfies] using hfeed
          rfl
    · rfl
  rw [if_neg (by simpa using hmark), if_neg (by simpa using hquote)] at h
  split at h
  · cases h
    have hchars := numberChars_append_drop (.char c :: cs)
    have hmem := quote_notMem_numberChars (.char c :: cs)
    cases hn : numberChars (.char c :: cs) with
    | nil => rfl
    | cons d ds =>
      rw [hn, List.map_cons, List.cons_append, List.cons.injEq] at hchars
      rw [hn] at hmem
      exact quotes_of_append ds hchars.2 fun h => hmem (List.mem_cons_of_mem _ h)
  split at h
  · cases h
    have hextra : (wordLexeme (c :: takeChars isIdentChar cs)).extra =
        (takeChars isIdentChar cs).length := by
      simp only [wordLexeme]
      split <;> rfl
    rw [hextra]
    exact quotes_of_append _ (takeChars_append_drop _ cs) (quote_notMem_takeChars (by decide) cs)
  split at h
  · next hlong =>
    cases h
    cases cs with
    | nil => rfl
    | cons d cs =>
      cases d with
      | half _ => cases hlong
      | char d =>
        refine quotes_of_append [d] rfl ?_
        rw [List.mem_singleton]
        rintro rfl
        simp [startsLongOperator, startsWith, CodePoint.satisfies, longOperators] at hlong
  split at h
  · cases h
    rfl
  split at h
  · cases h
    rfl
  · cases h

/-- A string literal without its opening quote takes the next quote, if the text has no line end. -/
theorem stringLexeme_of_quote {body : List CodePoint}
    (hline : ∀ c ∈ body, c.satisfies isLineEnd = false) (hbody : CodePoint.char '"' ∉ body)
    (rest : List CodePoint) :
    stringLexeme (body ++ .char '"' :: rest) = ⟨.string, .ofList body, body.length + 1⟩ := by
  have htake : takeLine (· == '"') (body ++ .char '"' :: rest) = body := by
    have hq : ∀ c ∈ body, isQuotable c = true := by
      intro c hc
      have hl := hline c hc
      cases c with
      | half _ => rfl
      | char c =>
        have hne : c ≠ '"' := fun h => hbody (h ▸ hc)
        simp only [CodePoint.satisfies] at hl
        simp [isQuotable, CodePoint.satisfies, hne, hl]
    change (body ++ .char '"' :: rest).takeWhile isQuotable = body
    rw [List.takeWhile_append_of_pos hq]
    simp [isQuotable, CodePoint.satisfies]
  rw [stringLexeme, htake]
  simp [startsWith, CodePoint.satisfies]

/-- A string literal that starts a text on one line takes a second quote, if there is one. -/
theorem quotes_of_stringLexeme (hline : ∀ c ∈ cs, c.satisfies isLineEnd = false)
    (hmem : CodePoint.char '"' ∈ cs) :
    quotes (cs.drop (stringLexeme cs).extra) + 1 = quotes cs := by
  obtain ⟨body, rest, rfl, hbody⟩ := List.eq_append_cons_of_mem hmem
  have hline' : ∀ c ∈ body, c.satisfies isLineEnd = false :=
    fun c hc => hline c (List.mem_append_left _ hc)
  have hnone : body.count (.char '"') = 0 := List.count_eq_zero.2 hbody
  rw [stringLexeme_of_quote hline' hbody]
  simp [quotes, List.count_append, hnone]

end Quotes

-- ════════════════════════════════════════════════════════════════════════════
-- Texts on one line
-- ════════════════════════════════════════════════════════════════════════════

/-- What may stand after a text on one line: the end of the line, or also a space if its string
literals are closed. -/
def Follows (cs rest : List CodePoint) : Prop :=
  Apart rest ∧ (quotes cs % 2 = 0 ∨ ∀ tail, rest ≠ .char ' ' :: tail)

/-- Without a comment, a text on one line starts with the same lexeme whatever follows it. -/
theorem leadingLexeme_append_of_follows {c : CodePoint} {cs rest : List CodePoint}
    (hline : ∀ d ∈ c :: cs, d.satisfies isLineEnd = false) (hmark : c ≠ .char commentMark)
    (hrest : Follows (c :: cs) rest) :
    leadingLexeme c (cs ++ rest) = leadingLexeme c cs := by
  obtain ⟨hapart, hclosed⟩ := hrest
  cases c with
  | half _ => rfl
  | char c =>
    refine lexemeAt_append_of_goesOn hapart.startsWith_goesOn (fun hc => ?_) (fun hc => ?_) fun hc => ?_
    · subst hc
      exact absurd (hline _ List.mem_cons_self) (by decide)
    · exact absurd (congrArg _ hc) hmark
    · subst hc
      refine stringLexeme_append_of_takeLine hapart.startsWith_goesOn ?_
      rcases hclosed with heven | hspace
      · have hmem : CodePoint.char '"' ∈ cs := by
          refine List.count_pos_iff.1 (Nat.pos_of_ne_zero fun hzero => ?_)
          simp [quotes, hzero] at heven
        exact takeWhile_append_of_mem hmem (by decide) rest
      · refine takeWhile_append_of_head ?_ cs
        cases hapart with
        | nil => rfl
        | space tail => exact absurd rfl (hspace tail)
        | newline => rfl

theorem quotes_cons_of_ne {c : CodePoint} (hc : c ≠ .char '"') (cs : List CodePoint) :
    quotes (c :: cs) = quotes cs :=
  List.count_cons_of_ne hc

/-- What may follow a text may follow what is left of it after its first lexeme. -/
theorem Follows.drop_lexeme {c : CodePoint} {cs rest : List CodePoint} {l : Lexeme}
    (h : Follows (c :: cs) rest) (hline : ∀ d ∈ c :: cs, d.satisfies isLineEnd = false)
    (hmark : c ≠ .char commentMark) (hl : leadingLexeme c cs = some l) :
    Follows (cs.drop l.extra) rest := by
  refine ⟨h.1, h.2.imp_left fun heven => ?_⟩
  cases c with
  | half _ => cases hl
  | char c =>
    by_cases hquote : c = '"'
    · subst hquote
      obtain rfl : stringLexeme cs = l := Option.some.inj hl
      have hcons : quotes (.char '"' :: cs) = quotes cs + 1 := List.count_cons_self
      have hmem : CodePoint.char '"' ∈ cs :=
        List.count_pos_iff.1 (show 0 < quotes cs by omega)
      have := quotes_of_stringLexeme (fun d hd => hline d (List.mem_cons_of_mem _ hd)) hmem
      omega
    · rw [quotes_of_lexemeAt hl hquote fun h => hmark (congrArg _ h),
        ← quotes_cons_of_ne (fun h => hquote (CodePoint.char.inj h))]
      exact heven

/-- What may follow a text may follow it without a character that starts no lexeme. -/
theorem Follows.tail {c : CodePoint} {cs rest : List CodePoint} (h : Follows (c :: cs) rest)
    (hl : leadingLexeme c cs = none) : Follows cs rest := by
  have hc : c ≠ .char '"' := by
    rintro rfl
    cases hl
  rw [Follows, quotes_cons_of_ne hc] at h
  exact h

/-- Only line ends make tokens of this kind. -/
theorem kind_ne_newline_of_lexemeAt {c : Char} {cs : List CodePoint} {l : Lexeme}
    (h : lexemeAt c cs = some l) (hline : isLineEnd c = false) : l.kind ≠ .newline := by
  unfold lexemeAt at h
  rw [if_neg (by simp [hline])] at h
  iterate 3
    split at h
    · cases h
      exact Token.Kind.noConfusion
  split at h
  · cases h
    simp only [wordLexeme]
    split <;> exact Token.Kind.noConfusion
  iterate 3
    split at h
    · cases h
      exact Token.Kind.noConfusion
  cases h

/-- A text on one line, by itself and before what follows it. -/
theorem scanFrom_oneLine (rest cs : List CodePoint) (line col line' col' : Nat)
    (hline : ∀ c ∈ cs, c.satisfies isLineEnd = false)
    (hcomment : ∀ t ∈ Token.scanFrom line col cs, t.kind ≠ .comment) (hrest : Follows cs rest) :
    ∃ ts us stop line₁ col₁,
      Token.scanFrom line col cs = ts ++ [stop] ∧ stop.kind = .eof ∧
      (∀ t ∈ ts, t.kind ≠ .eof ∧ t.kind ≠ .newline) ∧
      Token.scanFrom line' col' (cs ++ rest) = us ++ Token.scanFrom line₁ col₁ rest ∧
      us.map Token.content = ts.map Token.content := by
  match cs with
  | [] =>
    refine ⟨[], [], ⟨.eof, "", .ofNat line, col⟩, line', col', ?_, rfl,
      fun _ h => absurd h List.not_mem_nil, rfl, rfl⟩
    rw [Token.scanFrom, List.nil_append]
  | c :: cs =>
    have hline' : ∀ n, ∀ d ∈ cs.drop n, d.satisfies isLineEnd = false :=
      fun n d hd => hline d (List.mem_cons_of_mem _ (List.mem_of_mem_drop hd))
    have hmark : c ≠ .char commentMark := by
      rintro rfl
      have hl : leadingLexeme (.char commentMark) cs = some (commentLexeme cs) := rfl
      obtain ⟨_, _, hscan⟩ := scanFrom_of_some hl line col
      exact hcomment _ (hscan ▸ List.mem_cons_self) rfl
    have hsame := leadingLexeme_append_of_follows hline hmark hrest
    rw [List.cons_append]
    cases hl : leadingLexeme c cs with
    | none =>
      rw [scanFrom_of_none hl] at hcomment
      rw [scanFrom_of_none hl, scanFrom_of_none (hsame.trans hl)]
      exact scanFrom_oneLine rest cs line (col + 1) line' (col' + 1) (hline' 0) hcomment
        (hrest.tail hl)
    | some l =>
      obtain ⟨d, rfl, hd⟩ : ∃ d, c = .char d ∧ lexemeAt d cs = some l := by
        cases c with
        | half _ => cases hl
        | char d => exact ⟨d, rfl, hl⟩
      obtain ⟨line₁, col₁, hfirst⟩ := scanFrom_of_some hl line col
      obtain ⟨line₂, col₂, hsecond⟩ := scanFrom_of_some (hsame.trans hl) line' col'
      rw [List.drop_append_of_le_length (extra_le_of_lexemeAt hd)] at hsecond
      rw [hfirst] at hcomment
      obtain ⟨ts, us, stop, line₃, col₃, hts, hstop, hkinds, hus, hsame⟩ :=
        scanFrom_oneLine rest (cs.drop l.extra) line₁ col₁ line₂ col₂ (hline' _)
          (fun t ht => hcomment t (List.mem_cons_of_mem _ ht)) (hrest.drop_lexeme hline hmark hl)
      refine ⟨⟨l.kind, l.text, .ofNat line, col⟩ :: ts,
        ⟨l.kind, l.text, .ofNat line', col'⟩ :: us, stop, line₃, col₃, ?_, hstop, ?_, ?_, ?_⟩
      · rw [hfirst, hts, List.cons_append]
      · intro t ht
        rcases List.mem_cons.1 ht with rfl | ht
        · exact ⟨kind_ne_eof_of_lexemeAt hd,
            kind_ne_newline_of_lexemeAt hd (hline _ List.mem_cons_self)⟩
        · exact hkinds t ht
      · rw [hsecond, hus, List.cons_append]
      · rw [List.map_cons, List.map_cons, hsame]
        rfl
termination_by cs.length
decreasing_by
  · exact Nat.lt_succ_self _
  · simp only [List.length_cons, List.length_drop]
    omega

/-- A text on one line is scanned as it is by itself wherever something follows it that its string
literals do not take in. -/
theorem scans_oneLine {s : Text} (h : s.OneLine) :
    ∃ ts stop, Token.scan s = ts ++ [stop] ∧ stop.kind = .eof ∧ (∀ t ∈ ts, t.kind ≠ .newline) ∧
      Scans s.toList (ts.map Token.content) (Follows s.toList) := by
  have hnil : Follows s.toList [] := ⟨.nil, .inr fun _ h => nomatch h⟩
  obtain ⟨ts, _, stop, _, _, hts, hstop, hkinds, -⟩ :=
    scanFrom_oneLine [] s.toList 1 1 1 1 h.line h.noComment hnil
  refine ⟨ts, stop, hts, hstop, fun t ht => (hkinds t ht).2, ⟨?_, ?_⟩⟩
  · intro w hw
    obtain ⟨t, ht, rfl⟩ := List.mem_map.1 hw
    have hmem : t ∈ Token.scan s := by
      rw [Token.scan, hts]
      exact List.mem_append_left _ ht
    exact ⟨h.noComment t hmem, (hkinds t ht).1⟩
  · intro rest hrest line col
    obtain ⟨ts', us, stop', line₁, col₁, hts', -, -, hus, hsame⟩ :=
      scanFrom_oneLine rest s.toList 1 1 line col h.line h.noComment hrest
    have heq : ts' = ts := (List.append_inj' (hts'.symm.trans hts) rfl).1
    exact ⟨us, line₁, col₁, hus, heq ▸ hsame⟩

end FormBasic
