import FormBasic.Proofs.Tree.Legible

/-!
# What the scanner promises

Every token that the scanner makes carries a text of its kind: a keyword is one of the keywords in
lower case, an identifier is an identifier and no keyword, and a string could stand between quotes.

## Main definitions

* `Token.isSound` - tokens whose text is one of their kind

## Main statements

* `isSound_of_mem_scan` - the scanner makes sound tokens only
* `isNumeral_of_mem_scan` - and numbers of numerals only
-/

namespace FormBasic

/-- Whether the text of a token is one of its kind. -/
def Token.isSound (t : Token) : Bool :=
  match t.kind with
  | .keyword => isKeyword t.text
  | .identifier => isPlainName t.text
  | .string => t.text.toList.all isQuotable
  | _ => true

theorem all_takeChars (p : Char → Bool) (cs : List CodePoint) : (takeChars p cs).all p = true := by
  rw [List.all_eq_true]
  intro c hc
  obtain ⟨d, hd, hdc⟩ := List.mem_filterMap.1 hc
  have hp := List.all_eq_true.1 (List.all_takeWhile (p := CodePoint.satisfies p) (l := cs)) d hd
  cases d with
  | half offset => cases hdc
  | char d =>
    cases hdc
    exact hp

theorem isSound_word {c : Char} {cs : List Char} (hc : isIdentStart c = true)
    (hcs : cs.all isIdentChar = true) (line : Line) (col : Nat) :
    Token.isSound ⟨(wordLexeme (c :: cs)).kind, (wordLexeme (c :: cs)).text, line, col⟩ = true := by
  unfold wordLexeme
  simp only
  split
  · next hkey =>
    rw [List.contains_iff_mem] at hkey
    simp only [Token.isSound, isKeyword, List.contains_iff_mem]
    exact List.mem_map_of_mem hkey
  · next hkey =>
    have hword := Text.word_ofChars (all_isAscii_of_isIdentChar hc hcs)
    have hident : (Text.ofChars (c :: cs)).isIdentifier = true := by
      simp only [Text.isIdentifier, Text.toList_ofChars, List.map_cons, List.all_map,
        Bool.and_eq_true]
      exact ⟨hc, hcs⟩
    simp only [Token.isSound, Lexeme.spelled, isPlainName, hident, hword, Bool.true_and,
      Bool.not_eq_true']
    simpa using hkey

/-- What is recognised at one place makes a sound token. -/
theorem isSound_of_lexemeAt {c : Char} {cs : List CodePoint} {l : Lexeme}
    (h : lexemeAt c cs = some l) (line : Line) (col : Nat) :
    Token.isSound ⟨l.kind, l.text, line, col⟩ = true := by
  unfold lexemeAt at h
  split at h
  · cases h; rfl
  split at h
  · cases h; rfl
  split at h
  · cases h
    simp only [Token.isSound, stringLexeme, Text.toList_ofList, takeLine]
    exact List.all_takeWhile
  split at h
  · cases h; rfl
  split at h
  · next hc =>
    cases h
    exact isSound_word hc (all_takeChars isIdentChar cs) line col
  split at h
  · cases h; rfl
  split at h
  · cases h; rfl
  split at h
  · cases h; rfl
  · cases h

/-- Apart from the end marker, a token of a text says what is recognised somewhere in it. -/
theorem exists_lexemeAt_of_mem_scanFrom (line col : Nat) (cs : List CodePoint) :
    ∀ t ∈ Token.scanFrom line col cs,
      t.kind = .eof ∨ ∃ c rest l, lexemeAt c rest = some l ∧ t.kind = l.kind ∧ t.text = l.text := by
  have hlexeme : ∀ {c cs} {l : Lexeme},
      ((CodePoint.char? c).bind fun c => lexemeAt c cs) = some l →
      ∃ c rest l', lexemeAt c rest = some l' ∧ l.kind = l'.kind ∧ l.text = l'.text := by
    intro c cs l h
    obtain ⟨d, -, hl⟩ := Option.bind_eq_some_iff.1 h
    exact ⟨d, cs, l, hl, rfl, rfl⟩
  fun_induction Token.scanFrom line col cs with
  | case1 line col =>
    intro t ht
    rw [List.mem_singleton.1 ht]
    exact .inl rfl
  | case2 line col c cs hlex ih => exact ih
  | case3 line col c cs l hlex token hkind ih =>
    intro t ht
    rcases List.mem_cons.1 ht with rfl | ht
    · exact .inr (hlexeme hlex)
    · exact ih t ht
  | case4 line col c cs l hlex token hkind ih =>
    intro t ht
    rcases List.mem_cons.1 ht with rfl | ht
    · exact .inr (hlexeme hlex)
    · exact ih t ht

/-- The scanner makes sound tokens only. -/
theorem isSound_of_mem_scan {source : Text} {t : Token} (h : t ∈ Token.scan source) :
    t.isSound = true := by
  obtain hk | ⟨c, rest, l, hl, hk, ht⟩ := exists_lexemeAt_of_mem_scanFrom 1 1 source.toList t h
  · rw [Token.isSound, hk]
  · have := isSound_of_lexemeAt hl t.line t.col
    rwa [← hk, ← ht] at this

-- ════════════════════════════════════════════════════════════════════════════
-- Numbers
-- ════════════════════════════════════════════════════════════════════════════

/-- What is recognised as a number is a numeral. -/
theorem isNumeral_numberChars {c : Char} {cs : List CodePoint} (h : startsNumber c cs = true) :
    isNumeral (.ofChars (numberChars (.char c :: cs))) = true := by
  have hwhole := all_takeChars isDigitChar (.char c :: cs)
  have hstart : takeChars isDigitChar (.char c :: cs) = [] →
      c = '.' ∧ startsWith isDigitChar cs = true := by
    intro hnil
    simp only [startsNumber, Bool.or_eq_true, Bool.and_eq_true, beq_iff_eq] at h
    refine h.resolve_left fun hc => ?_
    simp [takeChars, CodePoint.satisfies, hc, CodePoint.char?] at hnil
  unfold numberChars
  simp only
  split
  · next rest hdrop =>
    split
    · next hdigit =>
      refine isNumeral_of_decimal hwhole (all_takeChars isDigitChar rest) ?_
      obtain ⟨d, rest, rfl⟩ : ∃ d rest', rest = d :: rest' := by
        cases rest with
        | nil => simp [startsWith] at hdigit
        | cons d rest => exact ⟨d, rest, rfl⟩
      cases d with
      | half offset => simp [startsWith, CodePoint.satisfies] at hdigit
      | char d =>
        simp only [startsWith, CodePoint.satisfies, List.head?_cons, Option.any_some] at hdigit
        simp [takeChars, CodePoint.satisfies, CodePoint.char?, hdigit]
    · next hdigit =>
      refine isNumeral_of_digits hwhole fun hnil => ?_
      obtain ⟨rfl, hcs⟩ := hstart hnil
      rw [hnil] at hdrop
      cases hdrop
      exact hdigit hcs
  · next hdrop =>
    refine isNumeral_of_digits hwhole fun hnil => ?_
    obtain ⟨rfl, -⟩ := hstart hnil
    rw [hnil] at hdrop
    exact hdrop _ rfl

/-- The scanner makes numbers of numerals only. -/
theorem isNumeral_of_mem_scan {source : Text} {t : Token} (h : t ∈ Token.scan source)
    (hk : t.kind = .number) : isNumeral t.text = true := by
  obtain he | ⟨c, rest, l, hl, hkind, htext⟩ :=
    exists_lexemeAt_of_mem_scanFrom 1 1 source.toList t h
  · rw [hk] at he
    cases he
  rw [htext]
  rw [hk] at hkind
  unfold lexemeAt at hl
  split at hl
  · cases hl; cases hkind
  split at hl
  · cases hl; cases hkind
  split at hl
  · cases hl; cases hkind
  split at hl
  · next hnum =>
    cases hl
    exact isNumeral_numberChars hnum
  split at hl
  · next hc =>
    cases hl
    unfold wordLexeme at hkind
    simp only at hkind
    split at hkind <;> cases hkind
  split at hl
  · cases hl; cases hkind
  split at hl
  · cases hl; cases hkind
  split at hl
  · cases hl; cases hkind
  · cases hl

theorem mem_scan_of_mem_tokens {source : Text} {t : Token}
    (h : t ∈ (Stream.ofSource source).tokens) : t ∈ Token.scan source :=
  (List.mem_filter.1 ((List.takeWhile_sublist _).subset h)).1

end FormBasic
