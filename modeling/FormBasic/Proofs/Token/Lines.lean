import FormBasic.Proofs.Token.Scanning

/-!
# Scanning line by line

No token reaches across the end of a line. A text that a line feed follows is therefore scanned as
it is by itself, then comes the end of the line, and then what stands below it. Only a carriage
return at the end of the text makes a difference: it is one line end together with the line feed.

## Main definitions

* `Lined` - the tokens of a text, and those of the same text with a line feed after it

## Main statements

* `lexemeAt_append` - a lexeme is the same whatever stands on the next line
* `scanFrom_append` - a text and what stands below it are scanned one after the other
-/

namespace FormBasic

open Token (Content)

/-- Whether a lexeme may go on with the character. -/
def goesOn (c : Char) : Bool := isIdentChar c || ['.', '=', '>', '"'].contains c

section Characters

variable {p : Char → Bool} {cs rest : List CodePoint}

/-- What may stand after a text without making its last lexeme longer: nothing, a space, or the end
of the line. -/
inductive Apart : List CodePoint → Prop
  | nil : Apart []
  | space (rest : List CodePoint) : Apart (.char ' ' :: rest)
  | newline (rest : List CodePoint) : Apart (.char '\n' :: rest)

theorem Apart.startsWith_goesOn (h : Apart rest) : startsWith goesOn rest = false := by
  cases h with
  | nil => rfl
  | space => exact (by decide : goesOn ' ' = false)
  | newline => exact (by decide : goesOn '\n' = false)

theorem takeWhile_append_of_head {q : CodePoint → Bool} (h : (rest.head?.any q) = false)
    (cs : List CodePoint) : (cs ++ rest).takeWhile q = cs.takeWhile q := by
  induction cs with
  | nil =>
    cases rest with
    | nil => rfl
    | cons c rest =>
      have hc : q c = false := h
      simp [hc]
  | cons c cs ih => simp [List.takeWhile_cons, ih]

/-- Where a text has something to stop at, what stands after it is not looked at. -/
theorem takeWhile_append_of_mem {q : CodePoint → Bool} {c : CodePoint} (hmem : c ∈ cs)
    (hc : q c = false) (rest : List CodePoint) : (cs ++ rest).takeWhile q = cs.takeWhile q := by
  induction cs with
  | nil => cases hmem
  | cons d cs ih =>
    rw [List.cons_append, List.takeWhile_cons, List.takeWhile_cons]
    rcases List.mem_cons.1 hmem with rfl | hmem
    · simp [hc]
    · rw [ih hmem]

theorem startsWith_append (h : startsWith p rest = false) (cs : List CodePoint) :
    startsWith p (cs ++ rest) = startsWith p cs := by
  cases cs with
  | nil => exact h
  | cons c cs => rfl

theorem takeChars_append_of_startsWith (h : startsWith p rest = false) (cs : List CodePoint) :
    takeChars p (cs ++ rest) = takeChars p cs := by
  rw [takeChars, takeWhile_append_of_head h]
  rfl

theorem takeLine_append (stop : Char → Bool) (cs rest : List CodePoint) :
    takeLine stop (cs ++ .char '\n' :: rest) = takeLine stop cs :=
  takeWhile_append_of_head (by simp [CodePoint.satisfies, isLineEnd]) cs

theorem length_takeWhile_le {α : Type} (q : α → Bool) (xs : List α) :
    (xs.takeWhile q).length ≤ xs.length :=
  (List.takeWhile_prefix q).length_le

theorem length_takeChars_le (p : Char → Bool) (cs : List CodePoint) :
    (takeChars p cs).length ≤ cs.length :=
  Nat.le_trans (List.length_filterMap_le _ _) (length_takeWhile_le _ _)

theorem length_pos_of_startsWith (h : startsWith p cs = true) : 0 < cs.length := by
  cases cs with
  | nil => cases h
  | cons c cs => exact Nat.succ_pos _

end Characters

-- ════════════════════════════════════════════════════════════════════════════
-- Lexemes
-- ════════════════════════════════════════════════════════════════════════════

section Lexemes

variable {cs rest : List CodePoint}

theorem startsWith_isDigitChar_of_goesOn (h : startsWith goesOn rest = false) :
    startsWith isDigitChar rest = false :=
  startsWith_of_subset (fun c hc => by rw [goesOn, isIdentChar, hc, Bool.or_true, Bool.true_or]) h

/-- A string literal is the same before anything that lets its end stand where it is. -/
theorem stringLexeme_append_of_takeLine (hrest : startsWith goesOn rest = false)
    (h : takeLine (· == '"') (cs ++ rest) = takeLine (· == '"') cs) :
    stringLexeme (cs ++ rest) = stringLexeme cs := by
  have hle : (takeLine (· == '"') cs).length ≤ cs.length := length_takeWhile_le _ _
  have hquote : startsWith (· == '"') rest = false := by
    refine startsWith_of_subset (fun c hc => ?_) hrest
    rw [beq_iff_eq.1 hc]
    decide
  rw [stringLexeme, h, List.drop_append_of_le_length hle, startsWith_append hquote]
  rfl

theorem stringLexeme_append (cs rest : List CodePoint) :
    stringLexeme (cs ++ .char '\n' :: rest) = stringLexeme cs :=
  stringLexeme_append_of_takeLine (Apart.newline rest).startsWith_goesOn (takeLine_append _ _ _)

theorem commentLexeme_append (cs rest : List CodePoint) :
    commentLexeme (cs ++ .char '\n' :: rest) = commentLexeme cs := by
  rw [commentLexeme, takeLine_append]
  rfl

theorem numberChars_append (hrest : startsWith goesOn rest = false) (cs : List CodePoint) :
    numberChars (cs ++ rest) = numberChars cs := by
  have hdigit := startsWith_isDigitChar_of_goesOn hrest
  simp only [numberChars, takeChars_append_of_startsWith hdigit,
    List.drop_append_of_le_length (length_takeChars_le _ _)]
  cases cs.drop (takeChars isDigitChar cs).length with
  | nil =>
    rw [List.nil_append]
    split
    · cases hrest
    · rfl
  | cons c ds =>
    rw [List.cons_append]
    split
    · next heq =>
      cases heq
      simp only [startsWith_append hdigit, takeChars_append_of_startsWith hdigit]
    · next hne =>
      split
      · next heq =>
        cases heq
        exact absurd rfl (hne _)
      · rfl

theorem startsLongOperator_append (hrest : startsWith goesOn rest = false) (c : Char)
    (cs : List CodePoint) : startsLongOperator c (cs ++ rest) = startsLongOperator c cs := by
  refine startsWith_append (startsWith_of_subset (fun d hd => ?_) hrest) cs
  simp only [longOperators, List.contains_iff_mem, List.mem_cons, Prod.mk.injEq, List.not_mem_nil,
    or_false] at hd
  rcases hd with ⟨-, rfl⟩ | ⟨-, rfl⟩ | ⟨-, rfl⟩ <;> decide

/-- A lexeme is the same before anything that no lexeme goes on with, if a line end, a comment or a
string is: these do not stop at a space, or take a line feed. -/
theorem lexemeAt_append_of_goesOn {c : Char} (hrest : startsWith goesOn rest = false)
    (hreturn : c = '\r' → startsWith (· == '\n') (cs ++ rest) = startsWith (· == '\n') cs)
    (hcomment : c = commentMark → commentLexeme (cs ++ rest) = commentLexeme cs)
    (hstring : c = '"' → stringLexeme (cs ++ rest) = stringLexeme cs) :
    lexemeAt c (cs ++ rest) = lexemeAt c cs := by
  have hdigit := startsWith_isDigitChar_of_goesOn hrest
  have hident : startsWith isIdentChar rest = false :=
    startsWith_of_subset (fun c hc => by rw [goesOn, hc, Bool.true_or]) hrest
  have hnumber : startsNumber c (cs ++ rest) = startsNumber c cs := by
    rw [startsNumber, startsWith_append hdigit]
    rfl
  have hfeed : (c == '\r' && startsWith (· == '\n') (cs ++ rest)) =
      (c == '\r' && startsWith (· == '\n') cs) := by
    by_cases hc : c = '\r'
    · rw [hreturn hc]
    · rw [beq_eq_false_iff_ne.2 hc, Bool.false_and, Bool.false_and]
  have hhead : startsLongOperator c cs = true → (cs ++ rest).head? = cs.head? := by
    intro hlong
    cases cs with
    | nil => cases hlong
    | cons d cs => rfl
  unfold lexemeAt
  simp only [hfeed, hnumber, takeChars_append_of_startsWith hident, startsLongOperator_append hrest]
  rw [show CodePoint.char c :: (cs ++ rest) = (.char c :: cs) ++ rest from rfl,
    numberChars_append hrest]
  by_cases hmark : c = commentMark
  · simp only [hcomment hmark, hmark]
    rfl
  by_cases hquote : c = '"'
  · simp only [hstring hquote, hquote]
    rfl
  simp only [beq_eq_false_iff_ne.2 hmark, beq_eq_false_iff_ne.2 hquote, Bool.false_eq_true,
    if_false]
  by_cases hlong : startsLongOperator c cs = true
  · rw [hhead hlong]
  · simp only [hlong, Bool.false_eq_true, if_false]

/-- A lexeme is the same whatever stands on the next line; only a carriage return right before the
line feed is one line end together with it. -/
theorem lexemeAt_append {c : Char} (h : c = '\r' → cs ≠ []) (rest : List CodePoint) :
    lexemeAt c (cs ++ .char '\n' :: rest) = lexemeAt c cs := by
  refine lexemeAt_append_of_goesOn (Apart.newline rest).startsWith_goesOn (fun hc => ?_)
    (fun _ => commentLexeme_append cs rest) fun _ => stringLexeme_append cs rest
  obtain ⟨d, cs, rfl⟩ := List.exists_cons_of_ne_nil (h hc)
  rfl

end Lexemes

theorem length_numberChars_le (cs : List CodePoint) : (numberChars cs).length ≤ cs.length := by
  have hwhole := length_takeChars_le isDigitChar cs
  simp only [numberChars]
  split
  · next rest hdrop =>
    have hlength := congrArg List.length hdrop
    rw [List.length_drop, List.length_cons] at hlength
    split
    · have hpart := length_takeChars_le isDigitChar rest
      simp only [List.length_append, List.length_cons]
      omega
    · exact hwhole
  · exact hwhole

/-- A lexeme takes no more characters than there are. -/
theorem extra_le_of_lexemeAt {c : Char} {cs : List CodePoint} {l : Lexeme}
    (h : lexemeAt c cs = some l) : l.extra ≤ cs.length := by
  unfold lexemeAt at h
  split at h
  · cases h
    simp only
    split
    · next hfeed =>
      rw [Bool.and_eq_true] at hfeed
      exact length_pos_of_startsWith hfeed.2
    · exact Nat.zero_le _
  split at h
  · cases h
    exact length_takeWhile_le _ _
  split at h
  · cases h
    simp only [stringLexeme]
    have hle : (takeLine (· == '"') cs).length ≤ cs.length := length_takeWhile_le _ _
    split
    · next hclosed =>
      have := length_pos_of_startsWith hclosed
      rw [List.length_drop] at this
      omega
    · exact hle
  split at h
  · cases h
    have := length_numberChars_le (.char c :: cs)
    simp only [Lexeme.spelled, List.length_cons] at this ⊢
    omega
  split at h
  · cases h
    have := length_takeChars_le isIdentChar cs
    simp only [wordLexeme]
    split <;> simpa [Lexeme.spelled] using this
  split at h
  · next hlong =>
    cases h
    have := length_pos_of_startsWith hlong
    cases cs with
    | nil => cases this
    | cons d cs =>
      cases d <;> simp [Lexeme.spelled, CodePoint.char?]
  split at h
  · cases h
    exact Nat.zero_le _
  split at h
  · cases h
    exact Nat.zero_le _
  · cases h

/-- No lexeme is an end marker. -/
theorem kind_ne_eof_of_lexemeAt {c : Char} {cs : List CodePoint} {l : Lexeme}
    (h : lexemeAt c cs = some l) : l.kind ≠ .eof := by
  unfold lexemeAt at h
  iterate 4
    split at h
    · cases h
      exact Token.Kind.noConfusion
  split at h
  · cases h
    simp only [wordLexeme]
    split <;> exact Token.Kind.noConfusion
  iterate 3
    split at h
    · cases h
      exact Token.Kind.noConfusion
  cases h

-- ════════════════════════════════════════════════════════════════════════════
-- Texts
-- ════════════════════════════════════════════════════════════════════════════

/-- The tokens of a text, and those of the same text with a line feed after it. The line feed ends
one more line, unless the text ends with a carriage return. -/
inductive Lined : List Token → List Token → Prop
  | feed {n : Token} (hn : n.content = .newline) : Lined [] [n]
  | joined {t n : Token} (ht : t.content = .newline) (hn : n.content = .newline) : Lined [t] [n]
  | cons {t u : Token} {ts us : List Token} (same : u.content = t.content) (tail : Lined ts us) :
    Lined (t :: ts) (u :: us)

/-- Leaving out tokens by what they say keeps two texts side by side, as long as line ends stay. -/
theorem Lined.filter {ts us : List Token} (h : Lined ts us) {p : Token → Bool}
    (hp : ∀ t u : Token, u.content = t.content → p u = p t)
    (hline : ∀ n : Token, n.content = .newline → p n = true) :
    Lined (ts.filter p) (us.filter p) := by
  induction h with
  | feed hn => simpa [hline _ hn] using .feed hn
  | joined ht hn => simpa [hline _ ht, hline _ hn] using .joined ht hn
  | @cons t u ts us same tail ih =>
    rw [List.filter_cons, List.filter_cons, hp t u same]
    split
    · exact .cons same ih
    · exact ih

/-- Where there is no end marker in a text, there is none with a line feed after it. -/
theorem Lined.kind_ne_eof {ts us : List Token} (h : Lined ts us) (hts : ∀ t ∈ ts, t.kind ≠ .eof) :
    ∀ u ∈ us, u.kind ≠ .eof := by
  have hnewline : ∀ n : Token, n.content = .newline → n.kind ≠ .eof := by
    intro n hn
    rw [Token.kind_of_content hn]
    exact Token.Kind.noConfusion
  induction h with
  | feed hn | joined _ hn =>
    intro u hu
    rw [List.mem_singleton.1 hu]
    exact hnewline _ hn
  | cons same tail ih =>
    intro u hu
    rcases List.mem_cons.1 hu with rfl | hu
    · exact Token.kind_of_content same ▸ hts _ List.mem_cons_self
    · exact ih (fun t ht => hts t (List.mem_cons_of_mem _ ht)) u hu

/-- The lexeme at the start of a text, if its first code point starts one. -/
def leadingLexeme (c : CodePoint) (cs : List CodePoint) : Option Lexeme :=
  c.char?.bind fun c => lexemeAt c cs

theorem scanFrom_of_none {c : CodePoint} {cs : List CodePoint} (h : leadingLexeme c cs = none)
    (line col : Nat) : Token.scanFrom line col (c :: cs) = Token.scanFrom line (col + 1) cs := by
  rw [Token.scanFrom, show c.char?.bind (fun c => lexemeAt c cs) = none from h]

theorem scanFrom_of_some {c : CodePoint} {cs : List CodePoint} {l : Lexeme}
    (h : leadingLexeme c cs = some l) (line col : Nat) :
    ∃ line' col', Token.scanFrom line col (c :: cs) =
      ⟨l.kind, l.text, .ofNat line, col⟩ :: Token.scanFrom line' col' (cs.drop l.extra) := by
  rw [Token.scanFrom, show c.char?.bind (fun c => lexemeAt c cs) = some l from h]
  simp only
  split
  · exact ⟨_, _, rfl⟩
  · exact ⟨_, _, rfl⟩

theorem leadingLexeme_append {c : CodePoint} {cs : List CodePoint} (h : c = .char '\r' → cs ≠ [])
    (rest : List CodePoint) :
    leadingLexeme c (cs ++ .char '\n' :: rest) = leadingLexeme c cs := by
  cases c with
  | half _ => rfl
  | char c => exact lexemeAt_append (fun hc => h (congrArg _ hc)) rest

theorem exists_of_leadingLexeme {c : CodePoint} {cs : List CodePoint} {l : Lexeme}
    (h : leadingLexeme c cs = some l) : ∃ d, lexemeAt d cs = some l := by
  cases c with
  | half _ => cases h
  | char d => exact ⟨d, h⟩

/-- A text with a line feed after it, and what stands below it, are scanned one after the other. -/
theorem scanFrom_append (rest : List CodePoint) (cs : List CodePoint) (line col line' col' : Nat) :
    ∃ ts us stop below,
      Token.scanFrom line col cs = ts ++ [stop] ∧ stop.kind = .eof ∧ (∀ t ∈ ts, t.kind ≠ .eof) ∧
      Token.scanFrom line' col' (cs ++ .char '\n' :: rest) =
        us ++ Token.scanFrom (below + 1) 1 rest ∧ Lined ts us := by
  match cs with
  | [] =>
    refine ⟨[], [⟨.newline, "\n", .ofNat line', col'⟩], ⟨.eof, "", .ofNat line, col⟩, line', ?_,
      rfl, fun _ h => absurd h List.not_mem_nil, ?_, .feed rfl⟩
    · rw [Token.scanFrom, List.nil_append]
    · rw [List.nil_append, scanFrom_newline, List.singleton_append]
  | c :: cs =>
    by_cases hreturn : c = .char '\r' ∧ cs = []
    · obtain ⟨rfl, rfl⟩ := hreturn
      refine ⟨[⟨.newline, "\n", .ofNat line, col⟩], [⟨.newline, "\n", .ofNat line', col'⟩],
        ⟨.eof, "", .ofNat (line + 1), 1⟩, line', ?_, rfl, ?_, ?_, .joined rfl rfl⟩
      · simp [Token.scanFrom, CodePoint.char?, lexemeAt, isLineEnd, startsWith]
      · intro t ht
        rw [List.mem_singleton.1 ht]
        exact Token.Kind.noConfusion
      · rw [List.singleton_append, List.singleton_append, Token.scanFrom]
        rfl
    · have hsame := leadingLexeme_append (fun hc hcs => hreturn ⟨hc, hcs⟩) rest
      rw [List.cons_append]
      cases hl : leadingLexeme c cs with
      | none =>
        rw [scanFrom_of_none hl, scanFrom_of_none (hsame.trans hl)]
        exact scanFrom_append rest cs line (col + 1) line' (col' + 1)
      | some l =>
        obtain ⟨d, hd⟩ := exists_of_leadingLexeme hl
        obtain ⟨line₁, col₁, hfirst⟩ := scanFrom_of_some hl line col
        obtain ⟨line₂, col₂, hsecond⟩ := scanFrom_of_some (hsame.trans hl) line' col'
        rw [List.drop_append_of_le_length (extra_le_of_lexemeAt hd)] at hsecond
        obtain ⟨ts, us, stop, below, hts, hstop, hkinds, hus, hlined⟩ :=
          scanFrom_append rest (cs.drop l.extra) line₁ col₁ line₂ col₂
        refine ⟨⟨l.kind, l.text, .ofNat line, col⟩ :: ts,
          ⟨l.kind, l.text, .ofNat line', col'⟩ :: us, stop, below, ?_, hstop, ?_, ?_,
          .cons rfl hlined⟩
        · rw [hfirst, hts, List.cons_append]
        · intro t ht
          rcases List.mem_cons.1 ht with rfl | ht
          · exact kind_ne_eof_of_lexemeAt hd
          · exact hkinds t ht
        · rw [hsecond, hus, List.cons_append]
termination_by cs.length
decreasing_by
  · exact Nat.lt_succ_self _
  · simp only [List.length_cons, List.length_drop]
    omega

/-- What is scanned below a line end does not depend on the number of the line. -/
theorem Scans.below {cs : List CodePoint} {ws : List Content} {after : List CodePoint → Prop}
    (h : Scans (.char '\n' :: cs) (.newline :: ws) after) {rest : List CodePoint}
    (hrest : after rest) (line : Nat) :
    ∃ ts line' col', Token.scanFrom (line + 1) 1 (cs ++ rest) =
      ts ++ Token.scanFrom line' col' rest ∧ ts.map Token.content = ws := by
  obtain ⟨ts, line', col', hts, hws⟩ := h.scan rest hrest line 1
  obtain ⟨n, ts, rfl, -, hws⟩ := List.map_eq_cons_iff.1 hws
  rw [List.cons_append, scanFrom_newline, List.cons_append, List.cons.injEq] at hts
  exact ⟨ts, line', col', hts.2, hws⟩

end FormBasic
