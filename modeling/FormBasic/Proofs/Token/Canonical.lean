import FormBasic.Proofs.Token.ByLine
import Mathlib.Data.List.TakeWhile

/-!
# Writing tokens out again

What the tokens of a text say can be written out with one space between neighbours on a line and a
line feed for each line end. Strings get both of their quotes back and keywords are in lower case;
everything else is spelled as it was. No spelling runs into the next one, whatever stood between the
tokens before, so the new text says the same as the old one.

## Main definitions

* `Token.Content.spelling` - the text that a token is written as
* `Token.canonicalText` - the text that tokens are written as

## Main statements

* `scans_spelling`, `Token.said_comment` - a spelling is scanned as the token that it stands for
* `Token.scan_canonicalText` - the tokens of a text survive being written out
-/

namespace FormBasic

open Token (Content)

namespace Token

/-- The text that a token is written as: a string stands between quotes, and a line ends with a line
feed. -/
def Content.spelling (w : Content) : Text :=
  match w.kind with
  | .string => "\"" ++ w.text ++ "\""
  | .newline => "\n"
  | _ => w.text

/-- What stands between a token and those after it: a space, except at either end of a line. -/
def Content.gap (w : Content) : List Content → Text
  | [] => ""
  | v :: _ => if w.kind = .newline ∨ v.kind = .newline then "" else " "

/-- The text that tokens are written as. -/
def canonicalText : List Content → Text
  | [] => ""
  | w :: ws => w.spelling ++ w.gap ws ++ canonicalText ws

theorem toList_canonicalText_cons (w : Content) (ws : List Content) :
    (canonicalText (w :: ws)).toList =
      w.spelling.toList ++ ((w.gap ws).toList ++ (canonicalText ws).toList) := by
  rw [canonicalText, Text.toList_append, Text.toList_append, List.append_assoc]

theorem Content.spelling_eq_text {w : Content} (hstring : w.kind ≠ .string)
    (hnewline : w.kind ≠ .newline) : w.spelling = w.text := by
  unfold spelling
  split
  · next h => exact absurd h hstring
  · next h => exact absurd h hnewline
  · rfl

end Token

/-- What the token of a lexeme says. -/
def Lexeme.content (l : Lexeme) : Content := ⟨l.kind, l.text⟩

-- ════════════════════════════════════════════════════════════════════════════
-- Spellings
-- ════════════════════════════════════════════════════════════════════════════

section Spellings

variable {c : Char} {cs rest : List CodePoint} {l : Lexeme}

theorem Apart.detached (h : Apart rest) : Detached rest := by
  cases h with
  | nil => exact detached_nil
  | space => exact detached_cons (by decide) (by decide) _
  | newline => exact detached_cons (by decide) (by decide) _

theorem Apart.not_startsLongOperator (h : Apart rest) (c : Char) :
    startsLongOperator c rest = false :=
  startsLongOperator_append h.startsWith_goesOn c []

/-- A keyword in lower case, or an identifier, is scanned as the word that it was. -/
theorem scans_wordLexeme {cs : List Char} (hc : isIdentStart c = true)
    (hcs : cs.all isIdentChar = true) :
    Scans (wordLexeme (c :: cs)).content.spelling.toList [(wordLexeme (c :: cs)).content]
      Apart := by
  have hsound := isSound_word hc hcs none 0
  unfold wordLexeme at hsound ⊢
  simp only at hsound ⊢
  split at hsound
  · next hkey =>
    rw [if_pos hkey]
    have hname := scans_identifier (isIdentifier_of_isKeyword hsound)
    rw [ofName_of_isKeyword hsound] at hname
    exact hname.mono fun _ hrest => hrest.detached
  · next hkey =>
    rw [if_neg hkey]
    have hname := scans_identifier (isIdentifier_of_isPlainName hsound)
    rw [ofName_of_isPlainName hsound] at hname
    exact hname.mono fun _ hrest => hrest.detached

/-- A string between both of its quotes, of which the second one may have been missing. -/
theorem scans_stringLexeme (cs : List CodePoint) :
    Scans (stringLexeme cs).content.spelling.toList [(stringLexeme cs).content] Anything := by
  have hspelling : (stringLexeme cs).content.spelling.toList =
      .char '"' :: (takeLine (· == '"') cs ++ [.char '"']) := by
    show ((("\"" : Text) ++ Text.ofList (takeLine (· == '"') cs)) ++ ("\"" : Text)).toList = _
    rw [Text.toList_append, Text.toList_append, Text.toList_ofList]
    rfl
  rw [hspelling]
  exact scans_string List.all_takeWhile

/-- A lexeme that says the characters it takes is scanned as it was wherever they are. -/
theorem scans_spelled {kind : Token.Kind} {chars : List Char} {after : List CodePoint → Prop}
    (hstring : kind ≠ .string) (hnewline : kind ≠ .newline)
    (h : Scans (chars.map .char) [⟨kind, .ofChars chars⟩] after) :
    Scans (Lexeme.spelled kind chars).content.spelling.toList
      [(Lexeme.spelled kind chars).content] after := by
  rw [Content.spelling_eq_text hstring hnewline]
  show Scans (Text.ofChars chars).toList _ _
  rw [Text.toList_ofChars]
  exact h

/-- Apart from line ends and comments, a spelling is scanned as the token that it stands for before
anything that keeps apart from it. -/
theorem scans_spelling (h : lexemeAt c cs = some l) (hnewline : l.kind ≠ .newline)
    (hcomment : l.kind ≠ .comment) :
    Scans l.content.spelling.toList [l.content] Apart := by
  unfold lexemeAt at h
  split at h
  · cases h
    exact absurd rfl hnewline
  split at h
  · cases h
    exact absurd rfl hcomment
  split at h
  · cases h
    exact (scans_stringLexeme cs).mono fun _ _ => trivial
  split at h
  · next hnumber =>
    cases h
    apply scans_spelled Token.Kind.noConfusion Token.Kind.noConfusion
    rw [← Text.toList_ofChars]
    exact (scans_numeral (isNumeral_numberChars hnumber)).mono fun _ hrest => hrest.detached
  split at h
  · next hident =>
    cases h
    exact scans_wordLexeme hident (all_takeChars isIdentChar cs)
  split at h
  · next hlong =>
    cases h
    obtain ⟨d, ds, rfl, hd⟩ := exists_of_startsWith hlong
    apply scans_spelled Token.Kind.noConfusion Token.Kind.noConfusion
    exact (scans_longOperator hd).mono fun _ _ => trivial
  split at h
  · next hoperator =>
    cases h
    apply scans_spelled Token.Kind.noConfusion Token.Kind.noConfusion
    exact (scans_operator hoperator).mono fun _ hrest => hrest.not_startsLongOperator c
  split at h
  · next hpunctuation =>
    cases h
    apply scans_spelled Token.Kind.noConfusion Token.Kind.noConfusion
    by_cases hpoint : c = '.'
    · subst hpoint
      exact scans_point.mono fun _ hrest => hrest.detached.not_digit
    · exact (scans_punctuation hpunctuation hpoint).mono fun _ _ => trivial
  · cases h

theorem takeLine_takeLine (cs : List CodePoint) :
    takeLine (fun _ => false) (takeLine (fun _ => false) cs) = takeLine (fun _ => false) cs := by
  simp only [takeLine, List.takeWhile_takeWhile, and_self, Bool.decide_eq_true]

/-- Only the mark of a comment makes tokens of this kind. -/
theorem eq_commentLexeme_of_kind (h : lexemeAt c cs = some l) (hcomment : l.kind = .comment) :
    l = commentLexeme cs := by
  unfold lexemeAt at h
  split at h
  · cases h
    cases hcomment
  split at h
  · cases h
    rfl
  iterate 2
    split at h
    · cases h
      cases hcomment
  split at h
  · cases h
    unfold wordLexeme at hcomment
    simp only at hcomment
    split at hcomment <;> cases hcomment
  iterate 3
    split at h
    · cases h
      cases hcomment
  cases h

/-- Behind a comment its line ends. -/
theorem behindLine_drop_commentLexeme (cs : List CodePoint) :
    BehindLine (cs.drop (commentLexeme cs).extra) := by
  obtain h | h | h := drop_length_takeLine (fun _ => false) cs
  · exact .inl h
  · obtain ⟨d, ds, -, hd⟩ := exists_of_startsWith h
    cases hd
  · exact .inr h

end Spellings

-- ════════════════════════════════════════════════════════════════════════════
-- Texts
-- ════════════════════════════════════════════════════════════════════════════

namespace Token

/-- What the tokens of some code points say, without the end marker. -/
def said (cs : List CodePoint) : List Content := ((scanFrom 1 1 cs).map content).dropLast

section Said

variable {c : CodePoint} {cs : List CodePoint} {l : Lexeme}

/-- What tokens say does not depend on the place where a text starts; the end marker comes last. -/
theorem exists_said (cs : List CodePoint) :
    ∃ ws : List Content, ∀ line col, (scanFrom line col cs).map content = ws ++ [⟨.eof, ""⟩] := by
  match cs with
  | [] =>
    refine ⟨[], fun line col => ?_⟩
    rw [scanFrom]
    rfl
  | c :: cs =>
    cases hl : leadingLexeme c cs with
    | none =>
      obtain ⟨ws, hws⟩ := exists_said cs
      refine ⟨ws, fun line col => ?_⟩
      rw [scanFrom_of_none hl, hws]
    | some l =>
      obtain ⟨ws, hws⟩ := exists_said (cs.drop l.extra)
      refine ⟨l.content :: ws, fun line col => ?_⟩
      obtain ⟨line', col', hscan⟩ := scanFrom_of_some hl line col
      rw [hscan, List.map_cons, hws]
      rfl
termination_by cs.length
decreasing_by
  · exact Nat.lt_succ_self _
  · simp only [List.length_cons, List.length_drop]
    omega

theorem map_content_scanFrom (line col : Nat) (cs : List CodePoint) :
    (scanFrom line col cs).map content = said cs ++ [⟨.eof, ""⟩] := by
  obtain ⟨ws, hws⟩ := exists_said cs
  rw [said, hws, hws, List.dropLast_concat]

theorem said_of_none (h : leadingLexeme c cs = none) : said (c :: cs) = said cs := by
  rw [said, scanFrom_of_none h, map_content_scanFrom, List.dropLast_concat]

theorem said_of_some (h : leadingLexeme c cs = some l) :
    said (c :: cs) = l.content :: said (cs.drop l.extra) := by
  obtain ⟨line, col, hscan⟩ := scanFrom_of_some h 1 1
  rw [said, hscan, List.map_cons, map_content_scanFrom, ← List.cons_append, List.dropLast_concat]
  rfl

/-- A piece of a text says what it is scanned as. -/
theorem said_append_of_scans {ws : List Content} {after : List CodePoint → Prop}
    (h : Scans cs ws after) {rest : List CodePoint} (hrest : after rest) :
    said (cs ++ rest) = ws ++ said rest := by
  obtain ⟨ts, line, col, hscan, hts⟩ := h.scan rest hrest 1 1
  rw [said, hscan, List.map_append, hts, map_content_scanFrom, ← List.append_assoc,
    List.dropLast_concat]

/-- A comment takes the rest of its line, so it says the same at the end of any line. -/
theorem said_comment (cs : List CodePoint) {rest : List CodePoint} (hrest : BehindLine rest) :
    said ((commentLexeme cs).content.spelling.toList ++ rest) =
      (commentLexeme cs).content :: said rest := by
  let body := takeLine (fun _ => false) cs
  have hspelling : (commentLexeme cs).content.spelling.toList = .char commentMark :: body := by
    rw [Content.spelling_eq_text Token.Kind.noConfusion Token.Kind.noConfusion]
    exact Text.toList_ofList _
  have hbody : takeLine (fun _ => false) (body ++ rest) = body := by
    rw [hrest.takeLine_append]
    exact takeLine_takeLine cs
  have hlex : leadingLexeme (.char commentMark) (body ++ rest) =
      some ⟨.comment, .ofList (.char commentMark :: body), body.length⟩ := by
    show some (commentLexeme (body ++ rest)) = _
    rw [commentLexeme, hbody]
  rw [hspelling, List.cons_append, said_of_some hlex, List.drop_left]
  rfl

end Said

section Gaps

variable {w : Content} {ws : List Content}

/-- The space between two tokens is no token. -/
theorem said_gap_append (w : Content) (ws : List Content) (cs : List CodePoint) :
    said ((w.gap ws).toList ++ cs) = said cs := by
  have hspace : said ((" " : Text).toList ++ cs) = said cs :=
    said_append_of_scans scans_blank trivial
  cases ws with
  | nil => rfl
  | cons v vs =>
    simp only [Content.gap]
    split
    · rfl
    · exact hspace

/-- What is written behind a token keeps apart from it. -/
theorem apart_gap (hw : w.kind ≠ .newline) (ws : List Content) :
    Apart ((w.gap ws).toList ++ (canonicalText ws).toList) := by
  cases ws with
  | nil => exact .nil
  | cons v vs =>
    by_cases hv : v.kind = .newline
    · have hgap : w.gap (v :: vs) = "" := if_pos (.inr hv)
      have hspelling : v.spelling = "\n" := by rw [Content.spelling, hv]
      rw [hgap, toList_canonicalText_cons, hspelling]
      exact .newline _
    · have hgap : w.gap (v :: vs) = " " := if_neg fun h => h.elim hw hv
      rw [hgap]
      exact .space _

/-- At the end of a line, nothing is written behind a token but the end of the line. -/
theorem behindLine_gap (w : Content) (hws : ∀ v ∈ ws.head?, v.kind = .newline) :
    BehindLine ((w.gap ws).toList ++ (canonicalText ws).toList) := by
  cases ws with
  | nil => exact .inl rfl
  | cons v vs =>
    have hv : v.kind = .newline := hws v rfl
    have hgap : w.gap (v :: vs) = "" := if_pos (.inr hv)
    have hspelling : v.spelling = "\n" := by rw [Content.spelling, hv]
    rw [hgap, toList_canonicalText_cons, hspelling]
    exact .inr rfl

end Gaps

theorem said_nil : said [] = [] := by
  rw [said, scanFrom]
  rfl

theorem content_of_isLineEnd {c : Char} {cs : List CodePoint} {l : Lexeme}
    (h : lexemeAt c cs = some l) (hc : isLineEnd c = true) : l.content = .newline := by
  rw [lexemeAt, if_pos hc] at h
  cases h
  rfl

/-- Behind the end of a line, the first token is the end of the line. -/
theorem head?_said_of_behindLine {cs : List CodePoint} (h : BehindLine cs) :
    ∀ w ∈ (said cs).head?, w.kind = .newline := by
  obtain rfl | h := h
  · rw [said_nil]
    exact nofun
  · obtain ⟨c, rest, rfl, hc⟩ := exists_of_startsWith h
    have hlex : ∃ l, lexemeAt c rest = some l := ⟨_, if_pos hc⟩
    obtain ⟨l, hl⟩ := hlex
    rw [said_of_some (c := .char c) hl, content_of_isLineEnd hl hc]
    rintro w ⟨⟩
    rfl

/-- What is written out again says what it said. -/
theorem said_canonicalText (cs : List CodePoint) :
    said (canonicalText (said cs)).toList = said cs := by
  match cs with
  | [] =>
    rw [said_nil]
    exact said_nil
  | c :: cs =>
    cases hl : leadingLexeme c cs with
    | none =>
      rw [said_of_none hl]
      exact said_canonicalText cs
    | some l =>
      obtain ⟨d, rfl, hd⟩ : ∃ d, c = .char d ∧ lexemeAt d cs = some l := by
        cases c with
        | half _ => cases hl
        | char d => exact ⟨d, rfl, hl⟩
      have ih := said_canonicalText (cs.drop l.extra)
      rw [said_of_some hl, toList_canonicalText_cons]
      by_cases hline : isLineEnd d = true
      · have hspelling : Content.newline.spelling.toList = [.char '\n'] := rfl
        rw [content_of_isLineEnd hd hline, hspelling, said_append_of_scans scans_newline trivial,
          said_gap_append, ih]
        rfl
      have hnewline : l.kind ≠ .newline :=
        kind_ne_newline_of_lexemeAt hd (Bool.eq_false_iff.2 hline)
      by_cases hcomment : l.kind = .comment
      · obtain rfl := eq_commentLexeme_of_kind hd hcomment
        have hbehind := head?_said_of_behindLine (behindLine_drop_commentLexeme cs)
        rw [said_comment cs (behindLine_gap _ hbehind), said_gap_append, ih]
      · rw [said_append_of_scans (scans_spelling hd hnewline hcomment) (apart_gap hnewline _),
          said_gap_append, ih]
        rfl
termination_by cs.length
decreasing_by
  · exact Nat.lt_succ_self _
  · simp only [List.length_cons, List.length_drop]
    omega

/-- The tokens of a text survive being written out: what is written with a space between tokens on
the same line and a line feed for each line end has tokens that say the same. -/
theorem scan_canonicalText (source : Text) :
    (scan (canonicalText ((scan source).map content).dropLast)).map content =
      (scan source).map content := by
  show (scanFrom 1 1 (canonicalText (said source.toList)).toList).map content = _
  rw [map_content_scanFrom, said_canonicalText, scan, map_content_scanFrom]

example : canonicalText ((scan "If x<>.5.7 'c\r\ny=\"d").map content).dropLast =
    "if x <> .5 .7 'c\ny = \"d\"" := by
  decide +kernel

end Token

end FormBasic
