import FormBasic.Proofs.Token.Spans

/-!
# The tokens of a text, line by line

The lines of a text are scanned one after the other, each as if it were the whole text: no token
looks at another line or at the way in which a line ends. The scanner does look ahead, for the
second character of an operator, for the digit behind a point, for the end of a string or a comment,
and for the line feed behind a carriage return; everything it looks for stands on the same line or
makes one line end.

## Main definitions

* `Text.lines` - the lines of a text
* `Text.lineEnds` - the three ways to end a line
* `Token.ofLine` - the tokens of one line
* `Token.lineByLine` - the tokens of some lines, with what stands between and after them

## Main statements

* `Token.scanFrom_line` - a line is scanned as it is by itself, whatever stands below it
* `Token.scan_lineByLine` - a text is scanned line by line
-/

namespace FormBasic

-- ════════════════════════════════════════════════════════════════════════════
-- Lines
-- ════════════════════════════════════════════════════════════════════════════

/-- The lines of some code points: a line ends at a carriage return and a line feed together, and at
each of the two by itself. -/
def linesOf : List CodePoint → List (List CodePoint)
  | [] => [[]]
  | .char '\r' :: .char '\n' :: cs => [] :: linesOf cs
  | .char '\r' :: cs => [] :: linesOf cs
  | .char '\n' :: cs => [] :: linesOf cs
  | c :: cs => (linesOf cs).modifyHead (c :: ·)

/-- Whether code points all stand on one line. -/
def isLine (cs : List CodePoint) : Bool := cs.all fun c => !c.satisfies isLineEnd

namespace Text

/-- The lines of a text. -/
def lines (t : Text) : List Text := (linesOf t.toList).map .ofList

/-- The three ways to end a line. -/
def lineEnds : List Text := ["\n", "\r\n", "\r"]

end Text

/-- Whether the code points `e` are a line end in front of others: a carriage return is one only if
no line feed follows, as it is one line end together with it. -/
inductive EndsLine : List CodePoint → List CodePoint → Prop
  | feed (rest : List CodePoint) : EndsLine [.char '\n'] rest
  | returnFeed (rest : List CodePoint) : EndsLine [.char '\r', .char '\n'] rest
  | carriageReturn {rest : List CodePoint} (h : startsWith (· == '\n') rest = false) :
    EndsLine [.char '\r'] rest

/-- What stands behind a line: nothing, or a line end. -/
def BehindLine (rest : List CodePoint) : Prop := rest = [] ∨ startsWith isLineEnd rest = true

section Lines

variable {c : CodePoint} {cs e rest : List CodePoint}

theorem isLine_cons : isLine (c :: cs) = true ↔ c.satisfies isLineEnd = false ∧ isLine cs = true := by
  simp [isLine]

theorem isLine_drop (h : isLine cs = true) (n : Nat) : isLine (cs.drop n) = true :=
  List.all_eq_true.2 fun c hc => List.all_eq_true.1 h c (List.mem_of_mem_drop hc)

theorem EndsLine.behindLine (h : EndsLine e rest) : BehindLine (e ++ rest) := by
  cases h <;> exact .inr rfl

/-- A character that ends no line is the first one of its line. -/
theorem linesOf_cons (hc : c.satisfies isLineEnd = false) (cs : List CodePoint) :
    linesOf (c :: cs) = (linesOf cs).modifyHead (c :: ·) := by
  rw [linesOf.eq_5]
  · rintro _ rfl -
    cases hc
  · rintro rfl
    cases hc
  · rintro rfl
    cases hc

theorem linesOf_endsLine (h : EndsLine e rest) : linesOf (e ++ rest) = [] :: linesOf rest := by
  cases h with
  | feed | returnFeed => rw [List.cons_append]; rfl
  | carriageReturn h =>
    rw [List.singleton_append, linesOf.eq_3]
    rintro tail rfl
    cases h

/-- A text without line ends is its only line. -/
theorem linesOf_of_isLine (h : isLine cs = true) : linesOf cs = [cs] := by
  induction cs with
  | nil => rfl
  | cons c cs ih =>
    rw [isLine_cons] at h
    rw [linesOf_cons h.1, ih h.2, List.modifyHead_cons]

/-- Up to its first line end, a text is its first line. -/
theorem linesOf_append (h : isLine cs = true) (he : EndsLine e rest) :
    linesOf (cs ++ (e ++ rest)) = cs :: linesOf rest := by
  induction cs with
  | nil => exact linesOf_endsLine he
  | cons c cs ih =>
    rw [isLine_cons] at h
    rw [List.cons_append, linesOf_cons h.1, ih h.2, List.modifyHead_cons]

theorem exists_endsLine (h : c.satisfies isLineEnd = true) (cs : List CodePoint) :
    ∃ e rest, EndsLine e rest ∧ c :: cs = e ++ rest := by
  cases c with
  | half _ => cases h
  | char c =>
    simp only [CodePoint.satisfies, isLineEnd, Bool.or_eq_true, beq_iff_eq] at h
    rcases h with rfl | rfl
    · cases hfeed : startsWith (· == '\n') cs with
      | false => exact ⟨_, cs, .carriageReturn hfeed, rfl⟩
      | true =>
        obtain ⟨d, rest, rfl, hd⟩ := exists_of_startsWith hfeed
        obtain rfl : d = '\n' := by simpa using hd
        exact ⟨_, rest, .returnFeed rest, rfl⟩
    · exact ⟨_, cs, .feed cs, rfl⟩

/-- A text is a line, or a line with a line end and more behind it. -/
theorem exists_line (cs : List CodePoint) :
    isLine cs = true ∨
      ∃ l e rest, isLine l = true ∧ EndsLine e rest ∧ cs = l ++ (e ++ rest) := by
  induction cs with
  | nil => exact .inl rfl
  | cons c cs ih =>
    cases hc : c.satisfies isLineEnd with
    | true =>
      obtain ⟨e, rest, he, heq⟩ := exists_endsLine hc cs
      exact .inr ⟨[], e, rest, rfl, he, heq⟩
    | false =>
      rcases ih with hline | ⟨l, e, rest, hline, he, rfl⟩
      · exact .inl (isLine_cons.2 ⟨hc, hline⟩)
      · exact .inr ⟨c :: l, e, rest, isLine_cons.2 ⟨hc, hline⟩, he, rfl⟩

theorem EndsLine.length_lt (he : EndsLine e rest) (l : List CodePoint) :
    rest.length < (l ++ (e ++ rest)).length := by
  have hpos : 0 < e.length := by cases he <;> exact Nat.succ_pos _
  rw [List.length_append, List.length_append]
  omega

end Lines

/-- Each of the lines of a text is a line. -/
theorem isLine_of_mem_linesOf (cs : List CodePoint) :
    ∀ l ∈ linesOf cs, isLine l = true := by
  rcases exists_line cs with hline | ⟨first, e, rest, hline, he, heq⟩
  · rw [linesOf_of_isLine hline]
    exact List.forall_mem_singleton.2 hline
  · have hlt : rest.length < cs.length := heq ▸ he.length_lt first
    rw [heq, linesOf_append hline he]
    exact List.forall_mem_cons.2 ⟨hline, isLine_of_mem_linesOf rest⟩
termination_by cs.length

namespace Text

theorem isLine_of_mem_lines {source l : Text} (h : l ∈ source.lines) : isLine l.toList = true := by
  obtain ⟨cs, hcs, rfl⟩ := List.mem_map.1 h
  rw [toList_ofList]
  exact isLine_of_mem_linesOf source.toList cs hcs

/-- Between two lines, each of the three ends one line. -/
theorem endsLine_of_mem {e : Text} (he : e ∈ lineEnds) {l : Text} (hl : isLine l.toList = true)
    (ls : List Text) :
    EndsLine e.toList (l.toList ++ ls.flatMap fun u => e.toList ++ u.toList) := by
  simp only [lineEnds, List.mem_cons, List.not_mem_nil, or_false] at he
  rcases he with rfl | rfl | rfl
  · exact .feed _
  · exact .returnFeed _
  · refine .carriageReturn ?_
    cases hchars : l.toList with
    | nil => cases ls <;> rfl
    | cons c cs =>
      rw [hchars, isLine_cons] at hl
      refine Bool.eq_false_iff.2 fun hfeed => ?_
      obtain ⟨d, rest, heq, hd⟩ := exists_of_startsWith hfeed
      obtain rfl : d = '\n' := by simpa using hd
      obtain ⟨rfl, -⟩ := List.cons.inj heq
      cases hl.1

/-- Lines with the same end between any two of them are the lines of what they make together. -/
theorem lines_joined {e : Text} (he : e ∈ lineEnds) {l : Text} {ls : List Text}
    (h : ∀ u ∈ l :: ls, isLine u.toList = true) : (joined e (l :: ls)).lines = l :: ls := by
  rw [lines, toList_joined_cons]
  induction ls generalizing l with
  | nil =>
    rw [List.flatMap_nil, List.append_nil, linesOf_of_isLine (h l List.mem_cons_self),
      List.map_singleton, ofList_toList]
  | cons u ls ih =>
    rw [List.forall_mem_cons] at h
    rw [List.flatMap_cons, List.append_assoc,
      linesOf_append h.1 (endsLine_of_mem he (h.2 u List.mem_cons_self) ls), List.map_cons,
      ofList_toList, ih h.2]

end Text

-- ════════════════════════════════════════════════════════════════════════════
-- Lexemes at the end of a line
-- ════════════════════════════════════════════════════════════════════════════

section Lexemes

variable {cs rest : List CodePoint}

theorem BehindLine.startsWith_goesOn (h : BehindLine rest) : startsWith goesOn rest = false := by
  rcases h with rfl | h
  · rfl
  · obtain ⟨c, tail, rfl, hc⟩ := exists_of_startsWith h
    simp only [isLineEnd, Bool.or_eq_true, beq_iff_eq] at hc
    rcases hc with rfl | rfl
    · exact (by decide : goesOn '\r' = false)
    · exact (by decide : goesOn '\n' = false)

theorem BehindLine.takeLine_append (h : BehindLine rest) (stop : Char → Bool)
    (cs : List CodePoint) : takeLine stop (cs ++ rest) = takeLine stop cs := by
  refine takeWhile_append_of_head ?_ cs
  rcases h with rfl | h
  · rfl
  · obtain ⟨c, tail, rfl, hc⟩ := exists_of_startsWith h
    simp [CodePoint.satisfies, hc]

/-- The first lexeme of a line is the same whatever stands below it. -/
theorem leadingLexeme_append_of_behindLine {c : CodePoint} (hc : c.satisfies isLineEnd = false)
    (hrest : BehindLine rest) : leadingLexeme c (cs ++ rest) = leadingLexeme c cs := by
  cases c with
  | half _ => rfl
  | char c =>
    refine lexemeAt_append_of_goesOn hrest.startsWith_goesOn (fun hreturn => ?_) (fun _ => ?_) fun _ => ?_
    · subst hreturn
      cases hc
    · rw [commentLexeme, hrest.takeLine_append]
      rfl
    · exact stringLexeme_append_of_takeLine hrest.startsWith_goesOn (hrest.takeLine_append _ cs)

end Lexemes

-- ════════════════════════════════════════════════════════════════════════════
-- Tokens
-- ════════════════════════════════════════════════════════════════════════════

namespace Token

/-- The token on another line. -/
def onLine (n : Nat) (t : Token) : Token := { t with line := .ofNat n }

/-- The tokens of a line with a given number: those of its text, without the end marker. -/
def ofLine (n : Nat) (l : Text) : List Token := (scan l).dropLast.map (onLine n)

/-- The tokens of lines of which the first has a given number: a line end stands behind each of them
but the last, and behind that the end marker. -/
def lineByLine (n : Nat) : List Text → List Token
  | [] => []
  | [l] => ofLine n l ++ [⟨.eof, "", .ofNat n, l.length + 1⟩]
  | l :: ls => ofLine n l ++ ⟨.newline, "\n", .ofNat n, l.length + 1⟩ :: lineByLine (n + 1) ls

/-- A line makes the same tokens, none of them a line end or an end marker, on whichever line and
with whatever below it; what stands below it is scanned from the place behind it. -/
theorem exists_lineTokens (cs : List CodePoint) (hcs : isLine cs = true) (col : Nat) :
    ∃ ts : List Token, (∀ t ∈ ts, t.endsStatement = false) ∧
      ∀ line rest, BehindLine rest →
        scanFrom line col (cs ++ rest) =
          ts.map (onLine line) ++ scanFrom line (col + cs.length) rest := by
  match cs with
  | [] => exact ⟨[], nofun, fun line rest _ => rfl⟩
  | c :: cs =>
    rw [isLine_cons] at hcs
    have hsame : ∀ rest, BehindLine rest → leadingLexeme c (cs ++ rest) = leadingLexeme c cs :=
      fun rest hrest => leadingLexeme_append_of_behindLine hcs.1 hrest
    cases hl : leadingLexeme c cs with
    | none =>
      obtain ⟨ts, hkinds, hts⟩ := exists_lineTokens cs hcs.2 (col + 1)
      refine ⟨ts, hkinds, fun line rest hrest => ?_⟩
      rw [List.cons_append, scanFrom_of_none ((hsame rest hrest).trans hl), hts line rest hrest,
        List.length_cons, Nat.add_assoc, Nat.add_comm 1]
    | some l =>
      obtain ⟨d, rfl, hd⟩ : ∃ d, c = .char d ∧ lexemeAt d cs = some l := by
        cases c with
        | half _ => cases hl
        | char d => exact ⟨d, rfl, hl⟩
      have hextra := extra_le_of_lexemeAt hd
      have hnewline : l.kind ≠ .newline := kind_ne_newline_of_lexemeAt hd hcs.1
      obtain ⟨ts, hkinds, hts⟩ :=
        exists_lineTokens (cs.drop l.extra) (isLine_drop hcs.2 l.extra) (col + 1 + l.extra)
      refine ⟨⟨l.kind, l.text, none, col⟩ :: ts, List.forall_mem_cons.2 ⟨?_, hkinds⟩,
        fun line rest hrest => ?_⟩
      · simp [endsStatement, hnewline, kind_ne_eof_of_lexemeAt hd]
      · have hplace : col + 1 + l.extra + (cs.drop l.extra).length = col + (cs.length + 1) := by
          rw [List.length_drop]
          omega
        have hbehind : l.placeBehind line col = (line, col + 1 + l.extra) := if_neg hnewline
        rw [List.cons_append, scanFrom_of_lexemeAt ((hsame rest hrest).trans hl), hbehind,
          List.drop_append_of_le_length hextra, hts line rest hrest, hplace]
        rfl
termination_by cs.length
decreasing_by
  · exact Nat.lt_succ_self _
  · simp only [List.length_cons, List.length_drop]
    omega

section OneLine

variable {rest : List CodePoint}

/-- The tokens of a line neither end it nor the text, and they stand on it. -/
theorem of_mem_ofLine {l : Text} (hl : isLine l.toList = true) {n : Nat} {t : Token}
    (ht : t ∈ ofLine n l) : t.endsStatement = false ∧ t.line = .ofNat n := by
  obtain ⟨ts, hkinds, hts⟩ := exists_lineTokens l.toList hl 1
  have hscan := hts 1 [] (.inl rfl)
  rw [List.append_nil, scanFrom.eq_1] at hscan
  rw [ofLine, scan, hscan, List.dropLast_concat, List.map_map] at ht
  obtain ⟨u, hu, rfl⟩ := List.mem_map.1 ht
  exact ⟨hkinds u hu, rfl⟩

/-- A line is scanned as it is by itself, whatever stands below it. -/
theorem scanFrom_line {l : Text} (hl : isLine l.toList = true) (hrest : BehindLine rest) (n : Nat) :
    scanFrom n 1 (l.toList ++ rest) = ofLine n l ++ scanFrom n (l.length + 1) rest := by
  obtain ⟨ts, -, hts⟩ := exists_lineTokens l.toList hl 1
  have hscan := hts 1 [] (.inl rfl)
  rw [List.append_nil, scanFrom.eq_1] at hscan
  rw [ofLine, scan, hscan, List.dropLast_concat, List.map_map, hts n rest hrest,
    Nat.add_comm 1]
  rfl

/-- Each line end makes one token, whichever of the three it is. -/
theorem scanFrom_endsLine {e : List CodePoint} (h : EndsLine e rest) (line col : Nat) :
    scanFrom line col (e ++ rest) =
      ⟨.newline, "\n", .ofNat line, col⟩ :: scanFrom (line + 1) 1 rest := by
  cases h with
  | feed => exact scanFrom_newline line col rest
  | returnFeed =>
    have hlex : lexemeAt '\r' (.char '\n' :: rest) = some ⟨.newline, "\n", 1⟩ := rfl
    exact scanFrom_of_lexemeAt hlex line col
  | carriageReturn h =>
    have hlex : lexemeAt '\r' rest = some ⟨.newline, "\n", 0⟩ := by
      simp [lexemeAt, isLineEnd, h]
    exact scanFrom_of_lexemeAt hlex line col

end OneLine

-- ════════════════════════════════════════════════════════════════════════════
-- Texts
-- ════════════════════════════════════════════════════════════════════════════

theorem linesOf_ne_nil (cs : List CodePoint) : linesOf cs ≠ [] := by
  rcases exists_line cs with hline | ⟨l, e, rest, hline, he, rfl⟩
  · rw [linesOf_of_isLine hline]
    exact List.cons_ne_nil _ _
  · rw [linesOf_append hline he]
    exact List.cons_ne_nil _ _

theorem lineByLine_cons (n : Nat) (l : Text) {ls : List Text} (h : ls ≠ []) :
    lineByLine n (l :: ls) =
      ofLine n l ++ ⟨.newline, "\n", .ofNat n, l.length + 1⟩ :: lineByLine (n + 1) ls := by
  obtain ⟨u, us, rfl⟩ := List.exists_cons_of_ne_nil h
  rfl

/-- The induction is on the lines: what stands behind the first line end is a shorter text. -/
theorem scanFrom_eq_lineByLine (cs : List CodePoint) (n : Nat) :
    scanFrom n 1 cs = lineByLine n ((linesOf cs).map .ofList) := by
  rcases exists_line cs with hline | ⟨l, e, rest, hline, he, heq⟩
  · have hscan := scanFrom_line (l := .ofList cs) (by rwa [Text.toList_ofList])
      (show BehindLine [] from .inl rfl) n
    rw [Text.toList_ofList, List.append_nil, scanFrom.eq_1] at hscan
    rw [hscan, linesOf_of_isLine hline]
    rfl
  · have hlt : rest.length < cs.length := heq ▸ he.length_lt l
    have hscan := scanFrom_line (l := .ofList l) (by rwa [Text.toList_ofList]) he.behindLine n
    rw [Text.toList_ofList, scanFrom_endsLine he, scanFrom_eq_lineByLine rest (n + 1)] at hscan
    rw [heq, hscan, linesOf_append hline he, List.map_cons,
      lineByLine_cons n _ (by simpa using linesOf_ne_nil rest)]
termination_by cs.length

/-- Whether a token stands on a line of its text, as more than the end of the line. -/
def isOnLine (n : Nat) (t : Token) : Bool := t.line == .ofNat n && !t.endsStatement

section OnLine

variable {n m : Nat} {l : Text} {ls : List Text}

theorem filter_isOnLine_ofLine (hl : isLine l.toList = true) :
    (ofLine n l).filter (isOnLine n) = ofLine n l := by
  refine List.filter_eq_self.2 fun t ht => ?_
  obtain ⟨hends, hline⟩ := of_mem_ofLine hl ht
  simp [isOnLine, hends, hline]

theorem filter_isOnLine_ofLine_of_ne (hl : isLine l.toList = true) (h : n ≠ m) :
    (ofLine n l).filter (isOnLine m) = [] := by
  refine List.filter_eq_nil_iff.2 fun t ht => ?_
  obtain ⟨-, hline⟩ := of_mem_ofLine hl ht
  have hne : t.line ≠ .ofNat m := by
    rw [hline, Line.ofNat, Line.ofNat]
    exact fun heq => h (Int.ofNat.inj (Option.some.inj heq))
  simp [isOnLine, hne]

theorem filter_isOnLine_cons {t : Token} (h : t.endsStatement = true) (m : Nat) (ts : List Token) :
    (t :: ts).filter (isOnLine m) = ts.filter (isOnLine m) :=
  List.filter_cons_of_neg (by simp [isOnLine, h])

theorem filter_isOnLine_singleton (n m : Nat) (l : Text) :
    (lineByLine n [l]).filter (isOnLine m) = (ofLine n l).filter (isOnLine m) := by
  rw [lineByLine, List.filter_append, filter_isOnLine_cons rfl, List.filter_nil, List.append_nil]

theorem filter_isOnLine_cons_cons (n m : Nat) (l u : Text) (us : List Text) :
    (lineByLine n (l :: u :: us)).filter (isOnLine m) =
      (ofLine n l).filter (isOnLine m) ++ (lineByLine (n + 1) (u :: us)).filter (isOnLine m) := by
  rw [lineByLine_cons n l (List.cons_ne_nil u us), List.filter_append, filter_isOnLine_cons rfl]

/-- Nothing stands on a line before the first one. -/
theorem filter_isOnLine_of_lt (hls : ∀ l ∈ ls, isLine l.toList = true) (h : m < n) :
    (lineByLine n ls).filter (isOnLine m) = [] := by
  induction ls generalizing n with
  | nil => rfl
  | cons l ls ih =>
    rw [List.forall_mem_cons] at hls
    have hfirst := filter_isOnLine_ofLine_of_ne hls.1 (Nat.ne_of_gt h)
    cases ls with
    | nil => rw [filter_isOnLine_singleton, hfirst]
    | cons u us =>
      rw [filter_isOnLine_cons_cons, hfirst, ih hls.2 (Nat.lt_succ_of_lt h), List.append_nil]

/-- What stands on a line is what its text is scanned as. -/
theorem filter_isOnLine_lineByLine (hls : ∀ l ∈ ls, isLine l.toList = true) (n : Nat) {i : Nat}
    (h : ls[i]? = some l) : (lineByLine n ls).filter (isOnLine (n + i)) = ofLine (n + i) l := by
  induction ls generalizing n i with
  | nil => cases h
  | cons u us ih =>
    rw [List.forall_mem_cons] at hls
    cases i with
    | zero =>
      cases h
      have hfirst : (ofLine n l).filter (isOnLine n) = ofLine n l := filter_isOnLine_ofLine hls.1
      cases us with
      | nil => exact (filter_isOnLine_singleton n n l).trans hfirst
      | cons v vs =>
        have htail := filter_isOnLine_of_lt hls.2 (Nat.lt_succ_self n)
        rw [Nat.add_zero, filter_isOnLine_cons_cons, hfirst, htail, List.append_nil]
    | succ i =>
      cases us with
      | nil => cases h
      | cons v vs =>
        have hfirst := filter_isOnLine_ofLine_of_ne hls.1 (show n ≠ n + (i + 1) by omega)
        have htail := ih hls.2 (n + 1) h
        rw [Nat.add_right_comm n 1 i] at htail
        rw [filter_isOnLine_cons_cons, hfirst, List.nil_append]
        exact htail

end OnLine

/-- Texts are scanned line by line: the tokens of a text are those of its lines, each moved to its
line, with a line end between any two lines and the end marker behind the last one. So what stands
on a line is what its text is scanned as, and texts with the same lines have the same tokens,
whichever line end they use. -/
theorem scan_lineByLine (source : Text) :
    scan source = lineByLine 1 source.lines ∧
      (∀ i l, source.lines[i]? = some l →
        (scan source).filter (isOnLine (i + 1)) = ofLine (i + 1) l) ∧
      ∀ ls : List Text, (∀ l ∈ ls, isLine l.toList = true) →
        ∀ e ∈ Text.lineEnds, ∀ e' ∈ Text.lineEnds,
          scan (Text.joined e ls) = scan (Text.joined e' ls) := by
  have hscan : ∀ source : Text, scan source = lineByLine 1 source.lines := fun source =>
    scanFrom_eq_lineByLine source.toList 1
  refine ⟨hscan source, fun i l hl => ?_, fun ls hls e he e' he' => ?_⟩
  · rw [hscan, Nat.add_comm i 1]
    exact filter_isOnLine_lineByLine (fun _ => Text.isLine_of_mem_lines) 1 hl
  · cases ls with
    | nil => rfl
    | cons l ls =>
      rw [hscan, hscan, Text.lines_joined he hls, Text.lines_joined he' hls]

/-- An operator, a number and a string that line ends cut in two. -/
theorem scan_lineByLine_cutLexemes :
    scan "a <\r\n= 1.\r5 \"b\nc\"" = lineByLine 1 ["a <", "= 1.", "5 \"b", "c\""] ∧
      (scan "a <\r\n= 1.\r5 \"b\nc\"").filter (isOnLine 2) = ofLine 2 "= 1." ∧
      scan "a <\n= 1." = scan "a <\r\n= 1." := by
  have hlines : Text.lines "a <\r\n= 1.\r5 \"b\nc\"" = ["a <", "= 1.", "5 \"b", "c\""] := by
    decide
  obtain ⟨hscan, honLine, hends⟩ := scan_lineByLine "a <\r\n= 1.\r5 \"b\nc\""
  rw [hlines] at hscan
  exact ⟨hscan, honLine 1 "= 1." (by rw [hlines]; rfl),
    hends ["a <", "= 1."] (by decide) "\n" (by decide) "\r\n" (by decide)⟩

end Token

end FormBasic
