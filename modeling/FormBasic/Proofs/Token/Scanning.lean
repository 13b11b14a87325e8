import FormBasic.Token.Scan

/-!
# Scanning pieces of text

A text that was put together from words, numbers, strings and signs is scanned piece by piece: each
piece gives its own token, provided that what follows does not extend it. The place of a token plays
no part here, so tokens are compared by kind and text only.

## Main definitions

* `Token.Content` - the kind and the text of a token
* `Scans` - characters that are scanned as given contents
* `Detached` - what may follow a name or a number

## Main statements

* `Scans.append` - pieces one after the other
* `scans_word`, `scans_digits`, `scans_decimal`, `scans_string` - one piece of each sort
* `scanFrom_of_scans` - a whole text
-/

namespace FormBasic

/-- The kind and the text of a token. -/
structure Token.Content where
  kind : Token.Kind
  text : Text
  deriving Repr, DecidableEq

namespace Token

/-- What a token says, apart from its place. -/
def content (t : Token) : Content := ⟨t.kind, t.text⟩

namespace Content

/-- The keyword of a given spelling. -/
def keyword (text : Text) : Content := ⟨.keyword, text⟩

/-- A sign of operation. -/
def operator (text : Text) : Content := ⟨.operator, text⟩

/-- A sign of punctuation. -/
def punctuation (text : Text) : Content := ⟨.punctuation, text⟩

/-- The end of a line. -/
def newline : Content := ⟨.newline, "\n"⟩

/-- What a word is scanned as: a keyword or an identifier. -/
def ofWord (cs : List Char) : Content := ⟨(wordLexeme cs).kind, (wordLexeme cs).text⟩

end Content

theorem kind_of_content {t : Token} {c : Content} (h : t.content = c) : t.kind = c.kind := h ▸ rfl

theorem text_of_content {t : Token} {c : Content} (h : t.content = c) : t.text = c.text := h ▸ rfl

end Token

/-- Characters that are scanned as the given contents wherever they stand, provided that what comes
after them has a property. -/
structure Scans (cs : List CodePoint) (ws : List Token.Content) (after : List CodePoint → Prop) :
    Prop where
  /-- There are no comments and no end marker among them. -/
  kinds : ∀ w ∈ ws, w.kind ≠ .comment ∧ w.kind ≠ .eof
  scan : ∀ rest, after rest → ∀ line col, ∃ ts line' col',
    Token.scanFrom line col (cs ++ rest) = ts ++ Token.scanFrom line' col' rest ∧
      ts.map Token.content = ws

/-- Anything may come after. -/
def Anything (_ : List CodePoint) : Prop := True

/-- Whether the text starts with a point before a digit. -/
def startsFraction : List CodePoint → Bool
  | .char '.' :: rest => startsWith isDigitChar rest
  | _ => false

/-- What may come after a name or a number: nothing that would make it longer. -/
def Detached (rest : List CodePoint) : Prop :=
  startsWith isIdentChar rest = false ∧ startsFraction rest = false

namespace Scans

variable {cs ds : List CodePoint} {ws vs : List Token.Content} {after next : List CodePoint → Prop}

theorem nil (after : List CodePoint → Prop) : Scans [] [] after :=
  ⟨fun _ h => absurd h List.not_mem_nil, fun _ _ line col => ⟨[], line, col, rfl, rfl⟩⟩

/-- Pieces one after the other are scanned one after the other. -/
theorem append (h : Scans cs ws after) (h' : Scans ds vs next)
    (meets : ∀ rest, next rest → after (ds ++ rest)) : Scans (cs ++ ds) (ws ++ vs) next := by
  refine ⟨fun w hw => (List.mem_append.1 hw).elim (h.kinds w) (h'.kinds w), ?_⟩
  intro rest hrest line col
  obtain ⟨ts, line₁, col₁, hts, hws⟩ := h.scan (ds ++ rest) (meets rest hrest) line col
  obtain ⟨us, line₂, col₂, hus, hvs⟩ := h'.scan rest hrest line₁ col₁
  refine ⟨ts ++ us, line₂, col₂, ?_, ?_⟩
  · rw [List.append_assoc, hts, hus, List.append_assoc]
  · rw [List.map_append, hws, hvs]

/-- A piece that may stand before anything, and what follows it. -/
theorem before (h : Scans cs ws Anything) (h' : Scans ds vs next) :
    Scans (cs ++ ds) (ws ++ vs) next :=
  h.append h' fun _ _ => trivial

theorem mono (h : Scans cs ws after) (weaker : ∀ rest, next rest → after rest) :
    Scans cs ws next :=
  ⟨h.kinds, fun rest hrest => h.scan rest (weaker rest hrest)⟩

/-- A single lexeme is scanned as its content. -/
theorem of_lexemeAt {c : Char} {l : Lexeme}
    (h : ∀ rest, after rest → lexemeAt c (cs ++ rest) = some l) (hl : l.extra = cs.length)
    (hk : l.kind ≠ .comment ∧ l.kind ≠ .eof) :
    Scans (.char c :: cs) [⟨l.kind, l.text⟩] after := by
  refine ⟨fun w hw => by rw [List.mem_singleton.1 hw]; exact hk, ?_⟩
  intro rest hrest line col
  have hc : ((CodePoint.char c).char?.bind fun c => lexemeAt c (cs ++ rest)) = some l := by
    simpa [CodePoint.char?] using h rest hrest
  have hdrop : (cs ++ rest).drop l.extra = rest := by rw [hl, List.drop_left]
  rw [List.cons_append, Token.scanFrom, hc]
  simp only [hdrop]
  split
  · exact ⟨[_], _, _, rfl, rfl⟩
  · exact ⟨[_], _, _, rfl, rfl⟩

end Scans

/-- The characters that a name or a number can never start with are told apart by a look. -/
theorem ne_of_isIdentChar {c d : Char} (h : isIdentChar c = true) (hd : isIdentChar d = false) :
    c ≠ d := by
  rintro rfl
  rw [h] at hd
  cases hd

theorem isIdentChar_of_isIdentStart {c : Char} (h : isIdentStart c = true) :
    isIdentChar c = true := by
  rw [isIdentChar, h, Bool.true_or]

theorem isIdentChar_of_isDigitChar {c : Char} (h : isDigitChar c = true) :
    isIdentChar c = true := by
  rw [isIdentChar, h, Bool.or_true]

theorem isDigitChar_of_isIdentStart {c : Char} (h : isIdentStart c = true) :
    isDigitChar c = false := by
  rw [Bool.eq_false_iff]
  intro hd
  simp only [isIdentStart, isDigitChar, Bool.or_eq_true, Bool.and_eq_true, decide_eq_true_eq,
    beq_iff_eq] at h hd
  rcases h with (⟨h, _⟩ | ⟨h, _⟩) | rfl
  · exact absurd (Char.le_trans h hd.2) (by decide)
  · exact absurd (Char.le_trans h hd.2) (by decide)
  · exact absurd hd.2 (by decide)

theorem isLineEnd_of_isIdentChar {c : Char} (h : isIdentChar c = true) : isLineEnd c = false := by
  simp [isLineEnd, ne_of_isIdentChar h (show isIdentChar '\r' = false by decide),
    ne_of_isIdentChar h (show isIdentChar '\n' = false by decide)]

theorem startsWith_of_subset {p q : Char → Bool} {rest : List CodePoint}
    (hpq : ∀ c, p c = true → q c = true) (h : startsWith q rest = false) :
    startsWith p rest = false := by
  cases rest with
  | nil => rfl
  | cons c rest =>
    cases c with
    | half _ => rfl
    | char c =>
      simp only [startsWith, List.head?_cons, Option.any_some, CodePoint.satisfies] at h ⊢
      rw [Bool.eq_false_iff]
      intro hp
      rw [hpq c hp] at h
      cases h

theorem Detached.not_digit {rest : List CodePoint} (h : Detached rest) :
    startsWith isDigitChar rest = false :=
  startsWith_of_subset (fun _ => isIdentChar_of_isDigitChar) h.1

/-- A character that neither continues a name nor is a point detaches what stands before it. -/
theorem detached_cons {c : Char} (hc : isIdentChar c = false) (hp : c ≠ '.')
    (rest : List CodePoint) : Detached (.char c :: rest) := by
  refine ⟨by simpa [startsWith, CodePoint.satisfies] using hc, ?_⟩
  unfold startsFraction
  split
  · next heq => cases heq; exact absurd rfl hp
  · rfl

theorem detached_nil : Detached [] := ⟨rfl, rfl⟩

theorem takeWhile_satisfies_append {p : Char → Bool} {cs : List Char} {rest : List CodePoint}
    (h : cs.all p = true) (hr : startsWith p rest = false) :
    (cs.map CodePoint.char ++ rest).takeWhile (CodePoint.satisfies p) = cs.map .char := by
  induction cs with
  | nil =>
    cases rest with
    | nil => rfl
    | cons c rest => simp_all [startsWith]
  | cons c cs ih =>
    simp only [List.all_cons, Bool.and_eq_true] at h
    simp [CodePoint.satisfies, h.1, ih h.2]

theorem takeChars_append {p : Char → Bool} {cs : List Char} {rest : List CodePoint}
    (h : cs.all p = true) (hr : startsWith p rest = false) :
    takeChars p (cs.map .char ++ rest) = cs := by
  rw [takeChars, takeWhile_satisfies_append h hr, List.filterMap_map]
  induction cs with
  | nil => rfl
  | cons c cs ih =>
    simp only [List.all_cons, Bool.and_eq_true] at h
    simpa [CodePoint.char?] using ih h.2

/-- Only `<` and `>` start an operator of two characters. -/
theorem startsLongOperator_eq_false {c : Char} (hl : c ≠ '<') (hg : c ≠ '>')
    (rest : List CodePoint) : startsLongOperator c rest = false := by
  cases rest with
  | nil => rfl
  | cons d rest =>
    cases d with
    | half _ => rfl
    | char d => simp [startsLongOperator, startsWith, CodePoint.satisfies, longOperators, hl, hg]

/-- A character that starts no token is passed over. -/
theorem scans_skipped {c : Char} (h : ∀ rest, lexemeAt c rest = none) :
    Scans [.char c] [] Anything := by
  refine ⟨fun _ h => absurd h List.not_mem_nil, ?_⟩
  intro rest _ line col
  refine ⟨[], line, col + 1, ?_, rfl⟩
  rw [List.singleton_append, Token.scanFrom]
  simp [CodePoint.char?, h]

theorem scans_blank : Scans [.char ' '] [] Anything :=
  scans_skipped fun rest => by
    simp [lexemeAt, isLineEnd, commentMark, startsNumber, isDigitChar, isIdentStart,
      startsLongOperator_eq_false, isOperatorChar, isPunctuationChar]

theorem scans_blanks (n : Nat) : Scans (List.replicate n (.char ' ')) [] Anything := by
  induction n with
  | zero => exact Scans.nil _
  | succ n ih => exact scans_blank.before ih

theorem scans_newline : Scans [.char '\n'] [.newline] Anything :=
  Scans.of_lexemeAt (l := ⟨.newline, "\n", 0⟩) (fun _ _ => rfl) rfl (by decide)

/-- A word is scanned as a keyword or an identifier. -/
theorem scans_word {c : Char} {cs : List Char} (hc : isIdentStart c = true)
    (hcs : cs.all isIdentChar = true) :
    Scans ((c :: cs).map .char) [.ofWord (c :: cs)]
      (fun rest => startsWith isIdentChar rest = false) := by
  have hi := isIdentChar_of_isIdentStart hc
  refine Scans.of_lexemeAt (l := wordLexeme (c :: cs)) ?_ ?_ ?_
  · intro rest hrest
    have hn : startsNumber c (cs.map .char ++ rest) = false := by
      simp [startsNumber, isDigitChar_of_isIdentStart hc,
        ne_of_isIdentChar hi (show isIdentChar '.' = false by decide)]
    simp only [lexemeAt, isLineEnd_of_isIdentChar hi, hn, hc, takeChars_append hcs hrest,
      beq_iff_eq, ne_of_isIdentChar hi (show isIdentChar commentMark = false by decide),
      ne_of_isIdentChar hi (show isIdentChar '"' = false by decide), if_true, if_false,
      Bool.false_eq_true]
  · simp only [wordLexeme]
    split <;> simp [Lexeme.spelled]
  · simp only [wordLexeme]
    split <;> simp [Lexeme.spelled]

/-- A word before something that does not continue it. -/
theorem scans_name {c : Char} {cs : List Char} (hc : isIdentStart c = true)
    (hcs : cs.all isIdentChar = true) :
    Scans ((c :: cs).map .char) [.ofWord (c :: cs)] Detached :=
  (scans_word hc hcs).mono fun _ h => h.1

theorem lexemeAt_of_startsNumber {c : Char} {cs : List CodePoint} (h : startsNumber c cs = true) :
    lexemeAt c cs = some (.spelled .number (numberChars (.char c :: cs))) := by
  have hc : isDigitChar c = true ∨ c = '.' := by
    simp only [startsNumber, Bool.or_eq_true, Bool.and_eq_true, beq_iff_eq] at h
    exact h.imp_right And.left
  have hl : isLineEnd c = false ∧ c ≠ commentMark ∧ c ≠ '"' := by
    rcases hc with hc | rfl
    · have hi := isIdentChar_of_isDigitChar hc
      exact ⟨isLineEnd_of_isIdentChar hi, ne_of_isIdentChar hi (by decide),
        ne_of_isIdentChar hi (by decide)⟩
    · exact ⟨by decide, by decide, by decide⟩
  simp only [lexemeAt, hl.1, hl.2.1, hl.2.2, h, beq_iff_eq, if_true, if_false, Bool.false_eq_true]

/-- A row of digits is scanned as a number. -/
theorem scans_digits {c : Char} {cs : List Char} (h : (c :: cs).all isDigitChar = true) :
    Scans ((c :: cs).map .char) [⟨.number, .ofChars (c :: cs)⟩] Detached := by
  refine Scans.of_lexemeAt (l := .spelled .number (c :: cs)) ?_ (by simp [Lexeme.spelled])
    (by simp [Lexeme.spelled])
  intro rest hrest
  have hc : isDigitChar c = true := by simp_all
  have hwhole : takeChars isDigitChar ((c :: cs).map .char ++ rest) = c :: cs :=
    takeChars_append h hrest.not_digit
  rw [lexemeAt_of_startsNumber (by simp [startsNumber, hc])]
  congr 2
  change numberChars ((c :: cs).map .char ++ rest) = _
  have hdrop : ((c :: cs).map CodePoint.char ++ rest).drop (c :: cs).length = rest := by
    rw [List.drop_append_of_le_length (by simp), List.drop_eq_nil_of_le (by simp), List.nil_append]
  simp only [numberChars, hwhole, hdrop]
  split
  · next rest' =>
    have hf : startsWith isDigitChar rest' = false := hrest.2
    simp [hf]
  · rfl

/-- Digits, a point and more digits are scanned as a number. -/
theorem scans_decimal {ds es : List Char} (hds : ds.all isDigitChar = true)
    (hes : es.all isDigitChar = true) (hne : es ≠ []) :
    Scans ((ds ++ '.' :: es).map .char) [⟨.number, .ofChars (ds ++ '.' :: es)⟩] Detached := by
  have hnum : ∀ rest, Detached rest →
      numberChars ((ds ++ '.' :: es).map .char ++ rest) = ds ++ '.' :: es := by
    intro rest hrest
    have hsplit : (ds ++ '.' :: es).map CodePoint.char ++ rest =
        ds.map .char ++ .char '.' :: (es.map .char ++ rest) := by simp
    have hes' : startsWith isDigitChar (es.map .char ++ rest) = true := by
      cases es with
      | nil => exact absurd rfl hne
      | cons e es =>
        simp only [List.all_cons, Bool.and_eq_true] at hes
        simp [startsWith, CodePoint.satisfies, hes.1]
    have hwhole : takeChars isDigitChar (ds.map .char ++ .char '.' :: (es.map .char ++ rest)) =
        ds := takeChars_append hds (by simp [startsWith, CodePoint.satisfies, isDigitChar])
    have hdrop : (ds.map CodePoint.char ++ CodePoint.char '.' :: (es.map .char ++ rest)).drop
        ds.length = .char '.' :: (es.map .char ++ rest) := by
      rw [List.drop_append_of_le_length (by simp), List.drop_eq_nil_of_le (by simp),
        List.nil_append]
    rw [hsplit]
    simp only [numberChars, hwhole, hdrop, hes', if_true, takeChars_append hes hrest.not_digit]
  cases ds with
  | nil =>
    refine Scans.of_lexemeAt (l := .spelled .number ('.' :: es)) ?_ (by simp [Lexeme.spelled])
      (by simp [Lexeme.spelled])
    intro rest hrest
    rw [lexemeAt_of_startsNumber]
    · exact congrArg (fun cs => some (Lexeme.spelled .number cs)) (hnum rest hrest)
    · cases es with
      | nil => exact absurd rfl hne
      | cons e es =>
        simp only [List.all_cons, Bool.and_eq_true] at hes
        simp [startsNumber, startsWith, CodePoint.satisfies, hes.1]
  | cons d ds =>
    simp only [List.all_cons, Bool.and_eq_true] at hds
    refine Scans.of_lexemeAt (l := .spelled .number (d :: ds ++ '.' :: es)) ?_
      (by simp [Lexeme.spelled]) (by simp [Lexeme.spelled])
    intro rest hrest
    rw [lexemeAt_of_startsNumber (by simp [startsNumber, hds.1])]
    exact congrArg (fun cs => some (Lexeme.spelled .number cs)) (hnum rest hrest)

/-- Whether the code point can stand in a string literal. -/
def isQuotable (c : CodePoint) : Bool := !c.satisfies fun d => d == '"' || isLineEnd d

/-- A text between quotes is scanned as a string. -/
theorem scans_string {body : List CodePoint} (h : body.all isQuotable = true) :
    Scans (.char '"' :: (body ++ [.char '"'])) [⟨.string, .ofList body⟩] Anything := by
  refine Scans.of_lexemeAt (l := ⟨.string, .ofList body, body.length + 1⟩) ?_ (by simp) (by simp)
  intro rest _
  have htake : takeLine (· == '"') (body ++ .char '"' :: rest) = body := by
    have hq : ∀ c ∈ body, isQuotable c = true := List.all_eq_true.1 h
    change (body ++ .char '"' :: rest).takeWhile isQuotable = body
    rw [List.takeWhile_append_of_pos hq]
    simp [isQuotable, CodePoint.satisfies]
  have hlex : lexemeAt '"' (body ++ .char '"' :: rest) =
      some (stringLexeme (body ++ .char '"' :: rest)) := rfl
  rw [List.append_assoc, List.singleton_append, hlex, stringLexeme, htake]
  simp [startsWith, CodePoint.satisfies]

/-- A sign of operation before something with which it makes no longer one. -/
theorem scans_operator {c : Char} (h : isOperatorChar c = true) :
    Scans [.char c] [.operator (.ofChars [c])]
      (fun rest => startsLongOperator c rest = false) := by
  refine Scans.of_lexemeAt (l := .spelled .operator [c]) ?_ rfl (by simp [Lexeme.spelled])
  intro rest hrest
  rw [List.nil_append]
  simp only [isOperatorChar, List.contains_iff_mem, List.mem_cons, List.not_mem_nil, or_false] at h
  rcases h with rfl | rfl | rfl | rfl | rfl | rfl | rfl | rfl | rfl | rfl <;>
    simp [lexemeAt, hrest, isLineEnd, commentMark, startsNumber, isDigitChar, isIdentStart,
      isOperatorChar]

/-- An operator of two characters. -/
theorem scans_longOperator {c d : Char} (h : longOperators.contains (c, d) = true) :
    Scans [.char c, .char d] [.operator (.ofChars [c, d])] Anything := by
  refine Scans.of_lexemeAt (l := .spelled .operator [c, d]) ?_ rfl (by simp [Lexeme.spelled])
  intro rest _
  simp only [longOperators, List.contains_iff_mem, List.mem_cons, List.not_mem_nil, or_false,
    Prod.mk.injEq] at h
  rcases h with ⟨rfl, rfl⟩ | ⟨rfl, rfl⟩ | ⟨rfl, rfl⟩ <;>
    simp [lexemeAt, isLineEnd, commentMark, startsNumber, isDigitChar, isIdentStart,
      startsLongOperator, longOperators, startsWith, CodePoint.satisfies, CodePoint.char?]

/-- Punctuation other than a point, which a digit would make part of a number. -/
theorem scans_punctuation {c : Char} (h : isPunctuationChar c = true) (hp : c ≠ '.') :
    Scans [.char c] [.punctuation (.ofChars [c])] Anything := by
  refine Scans.of_lexemeAt (l := .spelled .punctuation [c]) ?_ rfl (by simp [Lexeme.spelled])
  intro rest _
  simp only [isPunctuationChar, List.contains_iff_mem, List.mem_cons, List.not_mem_nil,
    or_false] at h
  rcases h with rfl | rfl | rfl | rfl <;> first | exact absurd rfl hp | skip
  all_goals
    simp [lexemeAt, isLineEnd, commentMark, startsNumber, isDigitChar, isIdentStart,
      startsLongOperator_eq_false, isOperatorChar, isPunctuationChar]

theorem scans_point :
    Scans [.char '.'] [.punctuation "."] (fun rest => startsWith isDigitChar rest = false) := by
  refine Scans.of_lexemeAt (l := .spelled .punctuation ['.']) ?_ rfl (by simp [Lexeme.spelled])
  intro rest hrest
  rw [List.nil_append]
  have hn : startsNumber '.' rest = false := by simpa [startsNumber, isDigitChar] using hrest
  simp [lexemeAt, isLineEnd, commentMark, hn, isIdentStart, startsLongOperator_eq_false,
    isOperatorChar, isPunctuationChar]

/-- A line feed in front of a text makes one more token and moves the text down one line. -/
theorem scanFrom_newline (line col : Nat) (cs : List CodePoint) :
    Token.scanFrom line col (.char '\n' :: cs) =
      ⟨.newline, "\n", .ofNat line, col⟩ :: Token.scanFrom (line + 1) 1 cs := by
  rw [Token.scanFrom]
  rfl

/-- The tokens of a text that is made of pieces, before the end marker. -/
theorem scanFrom_of_scans {cs : List CodePoint} {ws : List Token.Content}
    {after : List CodePoint → Prop} (h : Scans cs ws after) (hnil : after []) (line col : Nat) :
    ∃ ts stop, Token.scanFrom line col cs = ts ++ [stop] ∧ ts.map Token.content = ws ∧
      stop.kind = .eof := by
  obtain ⟨ts, line', col', hts, hws⟩ := h.scan [] hnil line col
  rw [List.append_nil] at hts
  refine ⟨ts, ⟨.eof, "", .ofNat line', col'⟩, ?_, hws, rfl⟩
  rw [hts, Token.scanFrom]

end FormBasic
