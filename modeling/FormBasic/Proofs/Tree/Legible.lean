import FormBasic.Grammar.Stmt
import FormBasic.Proofs.Number.Literal

/-!
# Legible trees

Not every tree can be read back from its text: a name may hold a blank, a number may need more
digits than are written. The conditions under which a tree is legible are checks on single nodes,
and a tree is legible when all its nodes pass them.

## Main definitions

* `Text.isIdentifier`, `isPlainName`, `isReferenceName`, `isMemberName`, `isTypeName` - sorts of
  names
* `Expr.every`, `Stmt.every`, `everyStmt` - a check on every node of a tree
* `Expr.fits`, `Stmt.fits` - checks on what a node is made of
* `Expr.isClear`, `Stmt.isClear` - checks on the texts that a node is written with
* `Expr.legible`, `Stmt.legible`, `legibleBlock` - trees that pass all checks

## Main statements

* `scans_identifier` - an identifier is scanned as one name
* `everyStmt_of_everyStmt` - a check that follows from two others is passed where both are
-/

namespace FormBasic

/-- Whether the text is a row of letters, digits and underscores that starts with no digit. -/
def Text.isIdentifier (s : Text) : Bool :=
  match s.toList with
  | [] => false
  | c :: cs => c.satisfies isIdentStart && cs.all (CodePoint.satisfies isIdentChar)

/-- Whether the text is a keyword in lower case. -/
def isKeyword (s : Text) : Bool := (keywords.map Text.ofString).contains s

/-- Whether the text is an identifier and a keyword in no letter case. -/
def isPlainName (s : Text) : Bool := s.isIdentifier && !keywords.contains s.word

/-- Whether the text can stand as an expression: a plain name, `Me`, or a type keyword. -/
def isReferenceName (s : Text) : Bool := isPlainName s || s == "Me" || typeKeywords.contains s

/-- Whether the text can name a member. -/
def isMemberName (s : Text) : Bool := isPlainName s || isKeyword s

/-- Whether the text can name a type. -/
def isTypeName (s : Text) : Bool :=
  s == "Object" || isPlainName s || (isKeyword s && s != "new")

/-- Whether the text is a word in small letters. -/
def isSmallWord (s : Text) : Bool := s.isIdentifier && s.lower == s

/-- The signs of operation. -/
def operatorSigns : List Text :=
  ["=", "<", ">", "+", "-", "*", "/", "\\", "^", "&", "<>", "<=", ">="]

/-- The signs of punctuation. -/
def punctuationSigns : List Text := ["(", ")", ",", "."]

/-- Whether the text can tell what is left: nothing, or a single token in small letters that is no
string. -/
def isExitWord (s : Text) : Bool :=
  s == "" || isSmallWord s || isNumeral s || operatorSigns.contains s ||
    punctuationSigns.contains s

/-- What a name is scanned as. -/
def Token.Content.ofName (s : Text) : Token.Content :=
  if keywords.contains s.word then .keyword s.word else ⟨.identifier, s⟩

theorem isAscii_of_isIdentChar {c : Char} (h : isIdentChar c = true) : Text.isAscii c = true := by
  simp only [isIdentChar, isIdentStart, isDigitChar, Bool.or_eq_true, Bool.and_eq_true,
    decide_eq_true_eq, beq_iff_eq] at h
  have hle : ∀ d : Char, d.toNat < 128 → c ≤ d → Text.isAscii c = true := by
    intro d hd hcd
    have : c.toNat ≤ d.toNat := hcd
    simp only [Text.isAscii, decide_eq_true_eq]
    omega
  rcases h with ((h | h) | rfl) | h
  · exact hle 'Z' (by decide) h.2
  · exact hle 'z' (by decide) h.2
  · rfl
  · exact hle '9' (by decide) h.2

/-- The characters of an identifier. -/
theorem exists_chars_of_isIdentifier {s : Text} (h : s.isIdentifier = true) :
    ∃ c cs, s = .ofChars (c :: cs) ∧ isIdentStart c = true ∧ cs.all isIdentChar = true := by
  have hall : ∀ ps : List CodePoint, ps.all (CodePoint.satisfies isIdentChar) = true →
      ∃ cs : List Char, ps = cs.map .char ∧ cs.all isIdentChar = true := by
    intro ps hps
    induction ps with
    | nil => exact ⟨[], rfl, rfl⟩
    | cons p ps ih =>
      simp only [List.all_cons, Bool.and_eq_true] at hps
      obtain ⟨cs, rfl, hcs⟩ := ih hps.2
      cases p with
      | half offset => cases hps.1
      | char c =>
        refine ⟨c :: cs, rfl, ?_⟩
        rw [List.all_cons, hcs, Bool.and_true]
        exact hps.1
  unfold Text.isIdentifier at h
  split at h
  · cases h
  · next p ps hs =>
    simp only [Bool.and_eq_true] at h
    obtain ⟨cs, rfl, hcs⟩ := hall ps h.2
    cases p with
    | half offset => cases h.1
    | char c =>
      refine ⟨c, cs, ?_, h.1, hcs⟩
      rw [← Text.toList_inj, hs, Text.toList_ofChars, List.map_cons]

theorem all_isAscii_of_isIdentChar {c : Char} {cs : List Char} (hc : isIdentStart c = true)
    (hcs : cs.all isIdentChar = true) : (c :: cs).all Text.isAscii = true := by
  simp only [List.all_cons, Bool.and_eq_true, List.all_eq_true] at hcs ⊢
  exact ⟨isAscii_of_isIdentChar (isIdentChar_of_isIdentStart hc),
    fun d hd => isAscii_of_isIdentChar (hcs d hd)⟩

/-- The word of an identifier is its lower case. -/
theorem ofString_word {s : Text} (h : s.isIdentifier = true) : Text.ofString s.word = s.lower := by
  obtain ⟨c, cs, rfl, hc, hcs⟩ := exists_chars_of_isIdentifier h
  have hasc := all_isAscii_of_isIdentChar hc hcs
  rw [Text.word_ofChars hasc, Text.lower_ofChars hasc]
  rfl

/-- An identifier is scanned as one name. -/
theorem scans_identifier {s : Text} (h : s.isIdentifier = true) :
    Scans s.toList [.ofName s] Detached := by
  obtain ⟨c, cs, rfl, hc, hcs⟩ := exists_chars_of_isIdentifier h
  have hword : Token.Content.ofWord (c :: cs) = .ofName (.ofChars (c :: cs)) := by
    have hasc := all_isAscii_of_isIdentChar hc hcs
    simp only [Token.Content.ofName, Token.Content.ofWord, Text.word_ofChars hasc, wordLexeme]
    split
    · rfl
    · rfl
  rw [Text.toList_ofChars, ← hword]
  exact scans_name hc hcs

theorem isIdentifier_of_isKeyword {s : Text} (h : isKeyword s = true) : s.isIdentifier = true := by
  have hall : (keywords.map Text.ofString).all Text.isIdentifier = true := by decide +kernel
  exact List.all_eq_true.1 hall s (List.contains_iff_mem.1 h)

theorem isIdentifier_of_isPlainName {s : Text} (h : isPlainName s = true) :
    s.isIdentifier = true := by
  simp only [isPlainName, Bool.and_eq_true] at h
  exact h.1

theorem ofName_of_isPlainName {s : Text} (h : isPlainName s = true) :
    Token.Content.ofName s = ⟨.identifier, s⟩ := by
  simp only [isPlainName, Bool.and_eq_true, Bool.not_eq_true'] at h
  rw [Token.Content.ofName, h.2]
  rfl

theorem ofName_of_isKeyword {s : Text} (h : isKeyword s = true) :
    Token.Content.ofName s = .keyword s := by
  have hall : (keywords.map Text.ofString).all
      (fun s => Token.Content.ofName s == .keyword s) = true := by decide +kernel
  exact beq_iff_eq.1 (List.all_eq_true.1 hall s (List.contains_iff_mem.1 h))

theorem isKeyword_of_mem_typeKeywords {s : Text} (h : s ∈ typeKeywords) : isKeyword s = true := by
  have hall : typeKeywords.all isKeyword = true := by decide +kernel
  exact List.all_eq_true.1 hall s h

theorem isIdentifier_of_isReferenceName {s : Text} (h : isReferenceName s = true) :
    s.isIdentifier = true := by
  simp only [isReferenceName, Bool.or_eq_true, beq_iff_eq, List.contains_iff_mem] at h
  rcases h with (h | rfl) | h
  · exact isIdentifier_of_isPlainName h
  · decide
  · exact isIdentifier_of_isKeyword (isKeyword_of_mem_typeKeywords h)

theorem isIdentifier_of_isMemberName {s : Text} (h : isMemberName s = true) :
    s.isIdentifier = true := by
  simp only [isMemberName, Bool.or_eq_true] at h
  exact h.elim isIdentifier_of_isPlainName isIdentifier_of_isKeyword

theorem isIdentifier_of_isTypeName {s : Text} (h : isTypeName s = true) :
    s.isIdentifier = true := by
  simp only [isTypeName, Bool.or_eq_true, beq_iff_eq, Bool.and_eq_true] at h
  rcases h with (rfl | h) | h
  · decide
  · exact isIdentifier_of_isPlainName h
  · exact isIdentifier_of_isKeyword h.1

mutual

/-- Whether an expression and all its parts pass a check. -/
def Expr.every (p : Expr → Bool) : Expr → Bool
  | .member object property => p (.member object property) && object.every p
  | .index object key => p (.index object key) && object.every p && key.every p
  | .call target args => p (.call target args) && target.every p && everyExpr p args
  | .binary op left right => p (.binary op left right) && left.every p && right.every p
  | .unary op operand => p (.unary op operand) && operand.every p
  | e => p e
termination_by structural e => e

/-- Whether several expressions and all their parts pass a check. -/
def everyExpr (p : Expr → Bool) : List Expr → Bool
  | [] => true
  | e :: es => e.every p && everyExpr p es
termination_by structural es => es

end

mutual

/-- Whether a statement and all its parts pass their checks. -/
def Stmt.every (p : Expr → Bool) (q : Stmt → Bool) : Stmt → Bool
  | .dim name typeName initial line =>
    q (.dim name typeName initial line) && initial.all (Expr.every p)
  | .assign target value line =>
    q (.assign target value line) && target.every p && value.every p
  | .call target args line => q (.call target args line) && target.every p && everyExpr p args
  | .cond test body elseIfs otherwise line =>
    q (.cond test body elseIfs otherwise line) && test.every p && everyStmt p q body &&
      everyElseIf p q elseIfs && everyStmt p q otherwise
  | .forLoop counter start stop step body line =>
    q (.forLoop counter start stop step body line) && start.every p && stop.every p &&
      step.all (Expr.every p) && everyStmt p q body
  | .whileLoop test body line =>
    q (.whileLoop test body line) && test.every p && everyStmt p q body
  | .doLoop body test ending testAtEnd line =>
    q (.doLoop body test ending testAtEnd line) && everyStmt p q body &&
      test.all (Expr.every p)
  | .ret value line => q (.ret value line) && value.all (Expr.every p)
  | s => q s
termination_by structural s => s

/-- Whether several statements and all their parts pass their checks. -/
def everyStmt (p : Expr → Bool) (q : Stmt → Bool) : List Stmt → Bool
  | [] => true
  | s :: ss => s.every p q && everyStmt p q ss
termination_by structural ss => ss

/-- Whether further branches and all their parts pass their checks. -/
def everyElseIf (p : Expr → Bool) (q : Stmt → Bool) : List ElseIf → Bool
  | [] => true
  | e :: es => e.every p q && everyElseIf p q es
termination_by structural es => es

/-- Whether all parts of a further branch pass their checks. -/
def ElseIf.every (p : Expr → Bool) (q : Stmt → Bool) : ElseIf → Bool
  | .mk test body => test.every p && everyStmt p q body
termination_by structural e => e

end

section Combine

variable {p p' r : Expr → Bool} {q q' t : Stmt → Bool}

mutual

/-- A check that follows from two others is passed where both are. -/
theorem Expr.every_of_every (h : ∀ e, p e = true → p' e = true → r e = true) :
    ∀ e : Expr, e.every p = true → e.every p' = true → e.every r = true
  | .number _, hp, hp' | .string _, hp, hp' | .boolean _, hp, hp' | .nothing, hp, hp'
  | .ident _, hp, hp' | .alien _, hp, hp' => h _ hp hp'
  | .member o _, hp, hp' | .unary _ o, hp, hp' => by
    simp only [Expr.every, Bool.and_eq_true] at hp hp' ⊢
    exact ⟨h _ hp.1 hp'.1, o.every_of_every h hp.2 hp'.2⟩
  | .index o k, hp, hp' | .binary _ o k, hp, hp' => by
    simp only [Expr.every, Bool.and_eq_true] at hp hp' ⊢
    exact ⟨⟨h _ hp.1.1 hp'.1.1, o.every_of_every h hp.1.2 hp'.1.2⟩,
      k.every_of_every h hp.2 hp'.2⟩
  | .call o args, hp, hp' => by
    simp only [Expr.every, Bool.and_eq_true] at hp hp' ⊢
    exact ⟨⟨h _ hp.1.1 hp'.1.1, o.every_of_every h hp.1.2 hp'.1.2⟩,
      everyExpr_of_everyExpr h args hp.2 hp'.2⟩

theorem everyExpr_of_everyExpr (h : ∀ e, p e = true → p' e = true → r e = true) :
    ∀ es : List Expr, everyExpr p es = true → everyExpr p' es = true → everyExpr r es = true
  | [], _, _ => rfl
  | e :: es, hp, hp' => by
    simp only [everyExpr, Bool.and_eq_true] at hp hp' ⊢
    exact ⟨e.every_of_every h hp.1 hp'.1, everyExpr_of_everyExpr h es hp.2 hp'.2⟩

end

theorem all_every_of_every (h : ∀ e, p e = true → p' e = true → r e = true) {o : Option Expr}
    (hp : o.all (Expr.every p) = true) (hp' : o.all (Expr.every p') = true) :
    o.all (Expr.every r) = true := by
  cases o with
  | none => rfl
  | some e => exact e.every_of_every h hp hp'

mutual

/-- Checks that follow from two others are passed where both are. -/
theorem Stmt.every_of_every (h : ∀ e, p e = true → p' e = true → r e = true)
    (h' : ∀ s, q s = true → q' s = true → t s = true) :
    ∀ s : Stmt, s.every p q = true → s.every p' q' = true → s.every r t = true
  | .exit _ _, hp, hp' | .alien _, hp, hp' => h' _ hp hp'
  | .dim _ _ _ _, hp, hp' | .ret _ _, hp, hp' => by
    simp only [Stmt.every, Bool.and_eq_true] at hp hp' ⊢
    exact ⟨h' _ hp.1 hp'.1, all_every_of_every h hp.2 hp'.2⟩
  | .assign e v _, hp, hp' => by
    simp only [Stmt.every, Bool.and_eq_true] at hp hp' ⊢
    exact ⟨⟨h' _ hp.1.1 hp'.1.1, e.every_of_every h hp.1.2 hp'.1.2⟩,
      v.every_of_every h hp.2 hp'.2⟩
  | .call e args _, hp, hp' => by
    simp only [Stmt.every, Bool.and_eq_true] at hp hp' ⊢
    exact ⟨⟨h' _ hp.1.1 hp'.1.1, e.every_of_every h hp.1.2 hp'.1.2⟩,
      everyExpr_of_everyExpr h args hp.2 hp'.2⟩
  | .cond e b es o _, hp, hp' => by
    simp only [Stmt.every, Bool.and_eq_true] at hp hp' ⊢
    exact ⟨⟨⟨⟨h' _ hp.1.1.1.1 hp'.1.1.1.1, e.every_of_every h hp.1.1.1.2 hp'.1.1.1.2⟩,
      everyStmt_of_everyStmt h h' b hp.1.1.2 hp'.1.1.2⟩,
      everyElseIf_of_everyElseIf h h' es hp.1.2 hp'.1.2⟩,
      everyStmt_of_everyStmt h h' o hp.2 hp'.2⟩
  | .forLoop _ e e' _ b _, hp, hp' => by
    simp only [Stmt.every, Bool.and_eq_true] at hp hp' ⊢
    exact ⟨⟨⟨⟨h' _ hp.1.1.1.1 hp'.1.1.1.1, e.every_of_every h hp.1.1.1.2 hp'.1.1.1.2⟩,
      e'.every_of_every h hp.1.1.2 hp'.1.1.2⟩, all_every_of_every h hp.1.2 hp'.1.2⟩,
      everyStmt_of_everyStmt h h' b hp.2 hp'.2⟩
  | .whileLoop e b _, hp, hp' => by
    simp only [Stmt.every, Bool.and_eq_true] at hp hp' ⊢
    exact ⟨⟨h' _ hp.1.1 hp'.1.1, e.every_of_every h hp.1.2 hp'.1.2⟩,
      everyStmt_of_everyStmt h h' b hp.2 hp'.2⟩
  | .doLoop b _ _ _ _, hp, hp' => by
    simp only [Stmt.every, Bool.and_eq_true] at hp hp' ⊢
    exact ⟨⟨h' _ hp.1.1 hp'.1.1, everyStmt_of_everyStmt h h' b hp.1.2 hp'.1.2⟩,
      all_every_of_every h hp.2 hp'.2⟩

theorem everyStmt_of_everyStmt (h : ∀ e, p e = true → p' e = true → r e = true)
    (h' : ∀ s, q s = true → q' s = true → t s = true) :
    ∀ ss : List Stmt, everyStmt p q ss = true → everyStmt p' q' ss = true →
      everyStmt r t ss = true
  | [], _, _ => rfl
  | s :: ss, hp, hp' => by
    simp only [everyStmt, Bool.and_eq_true] at hp hp' ⊢
    exact ⟨s.every_of_every h h' hp.1 hp'.1, everyStmt_of_everyStmt h h' ss hp.2 hp'.2⟩

theorem everyElseIf_of_everyElseIf (h : ∀ e, p e = true → p' e = true → r e = true)
    (h' : ∀ s, q s = true → q' s = true → t s = true) :
    ∀ es : List ElseIf, everyElseIf p q es = true → everyElseIf p' q' es = true →
      everyElseIf r t es = true
  | [], _, _ => rfl
  | .mk e b :: es, hp, hp' => by
    simp only [everyElseIf, ElseIf.every, Bool.and_eq_true] at hp hp' ⊢
    exact ⟨⟨e.every_of_every h hp.1.1 hp'.1.1, everyStmt_of_everyStmt h h' b hp.1.2 hp'.1.2⟩,
      everyElseIf_of_everyElseIf h h' es hp.2 hp'.2⟩

end

end Combine

/-- Whether a node is made of what the language has. -/
def Expr.fits : Expr → Bool
  | .string s => s.toList.all isQuotable
  | .member _ property => isMemberName property
  | .binary op _ _ => BinaryOp.known.contains op
  | .unary op _ => op == .neg || op == .not
  | .index _ _ | .alien _ => false
  | _ => true

/-- Whether a node is written with a text that reads back. -/
def Expr.isClear : Expr → Bool
  | .number n => n.readsBack
  | .ident name => isReferenceName name
  | _ => true

/-- Whether a node is made of what the language has. -/
def Stmt.fits : Stmt → Bool
  | .dim name _ _ _ => isPlainName name
  | .assign target _ _ => target.isPlace
  | .forLoop counter _ _ _ _ _ => isPlainName counter
  | .doLoop _ test ending testAtEnd _ => testAtEnd && (test.isSome || ending)
  | .alien _ => false
  | _ => true

/-- Whether a node is written with a text that reads back. -/
def Stmt.isClear : Stmt → Bool
  | .dim _ typeName _ _ => isTypeName typeName
  | .exit what _ => isExitWord what
  | _ => true

/-- Whether an expression can be read back from its text. -/
def Expr.legible : Expr → Bool := Expr.every fun e => e.fits && e.isClear

/-- Whether several expressions can be read back from their texts. -/
def legibleExprs : List Expr → Bool := everyExpr fun e => e.fits && e.isClear

/-- Whether a statement can be read back from its text. -/
def Stmt.legible : Stmt → Bool :=
  Stmt.every (fun e => e.fits && e.isClear) fun s => s.fits && s.isClear

/-- Whether a block can be read back from its text. -/
def legibleBlock : List Stmt → Bool :=
  everyStmt (fun e => e.fits && e.isClear) fun s => s.fits && s.isClear

/-- Whether further branches can be read back from their text. -/
def legibleElseIfs : List ElseIf → Bool :=
  everyElseIf (fun e => e.fits && e.isClear) fun s => s.fits && s.isClear

end FormBasic
