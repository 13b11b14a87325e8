import FormBasic.Proofs.Tree.Legible

/-!
# The tokens of a written tree

A legible tree has a text, and the text is scanned as tokens that can be told from the tree: this is
where blanks, points next to digits and operators of two characters could do harm. Blocks are
compared line by line, each line with the line feed before it.

## Main definitions

* `Expr.contents`, `Stmt.contents`, `blockContents` - what the tokens of a written tree say

## Main statements

* `Expr.spells_write` - an expression
* `Stmt.spells_lines`, `spells_blockLines` - statements and blocks
-/

namespace FormBasic

open Token (Content)

/-- Contents in parentheses. -/
def enclosed (ws : List Content) : List Content :=
  .punctuation "(" :: (ws ++ [.punctuation ")"])

/-- What the operator's token says. -/
def BinaryOp.content : BinaryOp → Content
  | .or => .keyword "or" | .and => .keyword "and" | .mod => .keyword "mod"
  | op => .operator op.text

/-- What the operator's token says. -/
def UnaryOp.content : UnaryOp → Content
  | .not => .keyword "not"
  | op => .operator op.text

mutual

/-- What the tokens of a written expression say. -/
def Expr.contents : Expr → List Content
  | .number n => [⟨.number, n.literal.toOption.getD ""⟩]
  | .string s => [⟨.string, s⟩]
  | .boolean b => [.keyword (if b then "true" else "false")]
  | .nothing => [.keyword "nothing"]
  | .ident name => [.ofName name]
  | .member object property =>
    (if object.isSimple then object.contents else enclosed object.contents) ++
      [.punctuation ".", .ofName property]
  | .index object key =>
    (if object.isSimple then object.contents else enclosed object.contents) ++
      enclosed key.contents
  | .call callee args =>
    (if callee.isSimple then callee.contents else enclosed callee.contents) ++
      enclosed (argumentContents args)
  | .binary op left right =>
    (if left.isSimple then left.contents else enclosed left.contents) ++
      op.content :: (if right.isSimple then right.contents else enclosed right.contents)
  | .unary op operand =>
    op.content :: (if operand.isSimple then operand.contents else enclosed operand.contents)
  | .alien _ => []
termination_by structural e => e

/-- What the tokens of written arguments say. -/
def argumentContents : List Expr → List Content
  | [] => []
  | e :: es => e.contents ++ moreContents es
termination_by structural es => es

/-- What the tokens of further written arguments say, each after a comma. -/
def moreContents : List Expr → List Content
  | [] => []
  | e :: es => .punctuation "," :: (e.contents ++ moreContents es)
termination_by structural es => es

end

/-- What the tokens of a written clause say. -/
def clauseContents (words : List Content) : Option Expr → List Content
  | none => []
  | some e => words ++ e.contents

/-- What the tokens after `Exit` say. -/
def exitContents (what : Text) : List Content :=
  if what = "" then []
  else if isSmallWord what then [.ofName (Text.capitalize what)]
  else if isNumeral what then [⟨.number, what⟩]
  else if operatorSigns.contains what then [.operator what]
  else [.punctuation what]

mutual

/-- What the tokens of a written statement say, up to the end of its last line. -/
def Stmt.contents : Stmt → List Content
  | .dim name typeName initial _ =>
    .keyword "dim" :: .ofName name ::
      ((if typeName = "Object" then [] else [.keyword "as", .ofName typeName]) ++
        clauseContents [.operator "="] initial)
  | .assign target value _ => target.contents ++ .operator "=" :: value.contents
  | .call callee args _ =>
    (if callee.isSimple then callee.contents else enclosed callee.contents) ++
      enclosed (argumentContents args)
  | .cond test body elseIfs otherwise _ =>
    .keyword "if" :: (test.contents ++ .keyword "then" :: (blockContents body ++
      (elseIfContents elseIfs ++ ((if otherwise.isEmpty then []
        else .newline :: .keyword "else" :: blockContents otherwise) ++
        [.newline, .keyword "end", .keyword "if"]))))
  | .forLoop counter start stop step body _ =>
    .keyword "for" :: .ofName counter :: .operator "=" :: (start.contents ++
      .keyword "to" :: (stop.contents ++ (clauseContents [.keyword "step"] step ++
        (blockContents body ++ [.newline, .keyword "next"]))))
  | .whileLoop test body _ =>
    .keyword "while" :: (test.contents ++ (blockContents body ++ [.newline, .keyword "wend"]))
  | .doLoop body test ending _ _ =>
    .keyword "do" :: (blockContents body ++ .newline :: .keyword "loop" ::
      clauseContents [.keyword (if ending then "until" else "while")] test)
  | .ret value _ => .keyword "return" :: clauseContents [] value
  | .exit what _ => .keyword "exit" :: exitContents what
  | .alien _ => []
termination_by structural s => s

/-- What the tokens of a written block say, each statement after the end of a line. -/
def blockContents : List Stmt → List Content
  | [] => []
  | s :: ss => .newline :: (s.contents ++ blockContents ss)
termination_by structural ss => ss

/-- What the tokens of written further branches say. -/
def elseIfContents : List ElseIf → List Content
  | [] => []
  | e :: es => .newline :: (e.contents ++ elseIfContents es)
termination_by structural es => es

/-- What the tokens of a written further branch say. -/
def ElseIf.contents : ElseIf → List Content
  | .mk test body => .keyword "elseif" :: (test.contents ++ .keyword "then" :: blockContents body)
termination_by structural e => e

end

theorem detached_blank (rest : List CodePoint) : Detached (.char ' ' :: rest) :=
  detached_cons (by decide) (by decide) rest

theorem detached_newline (rest : List CodePoint) : Detached (.char '\n' :: rest) :=
  detached_cons (by decide) (by decide) rest

variable {ws : List Content} {after : List CodePoint → Prop}

/-- A blank after a piece detaches it. -/
theorem Scans.spaced {cs : List CodePoint} (h : Scans cs ws Detached) :
    Scans (cs ++ [.char ' ']) ws Anything := by
  have := h.append scans_blank fun rest _ => detached_blank rest
  rwa [List.append_nil] at this

/-- A blank before a piece has no effect. -/
theorem Scans.afterBlank {cs : List CodePoint} (h : Scans cs ws after) :
    Scans (.char ' ' :: cs) ws after :=
  scans_blank.before h

/-- A word of the language. -/
theorem scans_keyword {s : Text} {w : Content} (h : s.isIdentifier = true)
    (hw : Content.ofName s = w) : Scans s.toList [w] Detached :=
  hw ▸ scans_identifier h

/-- The equals sign between blanks. -/
theorem scans_equals : Scans (" = " : Text).toList [.operator "="] Anything := by
  have hsign : Scans [.char '='] [.operator "="] fun rest => startsLongOperator '=' rest = false :=
    scans_operator (by decide)
  exact (hsign.append scans_blank fun _ _ => rfl).afterBlank

/-- An operator of the language between blanks. -/
theorem scans_binaryOp {op : BinaryOp} (h : op ∈ BinaryOp.known) :
    Scans (" " ++ op.spelling ++ " ").toList [op.content] Anything := by
  have hword : ∀ s : Text, s.isIdentifier = true →
      Scans (" " ++ s ++ " ").toList [.ofName s] Anything := by
    intro s hs
    have := (scans_identifier hs).spaced.afterBlank
    simpa using this
  have hshort : ∀ c, isOperatorChar c = true →
      Scans (" " ++ Text.ofChars [c] ++ " ").toList [.operator (.ofChars [c])] Anything := by
    intro c hc
    have := ((scans_operator hc).append scans_blank fun _ _ => ?_).afterBlank
    · simpa using this
    · simp [startsLongOperator, longOperators, startsWith, CodePoint.satisfies]
  have hlong : ∀ c d, longOperators.contains (c, d) = true →
      Scans (" " ++ Text.ofChars [c, d] ++ " ").toList [.operator (.ofChars [c, d])]
        Anything := by
    intro c d hcd
    have := ((scans_longOperator hcd).before scans_blank).afterBlank
    simpa using this
  simp only [BinaryOp.known, List.mem_cons, List.not_mem_nil, or_false] at h
  rcases h with rfl | rfl | rfl | rfl | rfl | rfl | rfl | rfl | rfl | rfl | rfl | rfl | rfl | rfl |
    rfl | rfl
  · exact hword "Or" (by decide)
  · exact hword "And" (by decide)
  · exact hshort '=' (by decide)
  · exact hlong '<' '>' (by decide)
  · exact hshort '<' (by decide)
  · exact hshort '>' (by decide)
  · exact hlong '<' '=' (by decide)
  · exact hlong '>' '=' (by decide)
  · exact hshort '&' (by decide)
  · exact hshort '+' (by decide)
  · exact hshort '-' (by decide)
  · exact hshort '*' (by decide)
  · exact hshort '/' (by decide)
  · exact hshort '\\' (by decide)
  · exact hword "Mod" (by decide)
  · exact hshort '^' (by decide)

/-- An operator of the language before its operand. -/
theorem scans_unaryOp {op : UnaryOp} (h : op = .neg ∨ op = .not) :
    Scans op.spelling.toList [op.content] Anything := by
  rcases h with rfl | rfl
  · have hsign : Scans [.char '-'] [.operator "-"]
        fun rest => startsLongOperator '-' rest = false := scans_operator (by decide)
    have hspelling : UnaryOp.neg.spelling.toList = [.char '-'] := by decide +kernel
    rw [hspelling]
    exact hsign.mono fun rest _ => startsLongOperator_eq_false (by decide) (by decide) rest
  · have hspelling : UnaryOp.not.spelling.toList = ("Not" : Text).toList ++ [.char ' '] := by
      decide +kernel
    rw [hspelling]
    exact (scans_keyword (by decide) (by decide)).spaced

/-- Something that can be written, as a text that is scanned as given contents. -/
def Spells (written : Except WriteFault Text) (ws : List Content) : Prop :=
  ∃ text, written = .ok text ∧ Scans text.toList ws Detached

theorem scans_parenthesized {text : Text} (h : Scans text.toList ws Detached) :
    Scans (parenthesized text).toList (enclosed ws) Anything := by
  have hopen : Scans [.char '('] [.punctuation "("] Anything :=
    scans_punctuation (by decide) (by decide)
  have hclose : Scans [.char ')'] [.punctuation ")"] Anything :=
    scans_punctuation (by decide) (by decide)
  have := hopen.before (h.append hclose fun _ _ => detached_cons (by decide) (by decide) _)
  simpa [parenthesized, enclosed] using this

/-- An operation is put in parentheses where it is an operand. -/
theorem scans_atom {text : Text} (simple : Bool) (h : Scans text.toList ws Detached) :
    Scans (if simple then text else parenthesized text).toList
      (if simple then ws else enclosed ws) Detached := by
  cases simple with
  | true => exact h
  | false => exact (scans_parenthesized h).mono fun _ _ => trivial

theorem startsFraction_of_isIdentifier {s : Text} (h : s.isIdentifier = true)
    (rest : List CodePoint) : startsWith isDigitChar (s.toList ++ rest) = false := by
  obtain ⟨c, cs, rfl, hc, -⟩ := exists_chars_of_isIdentifier h
  simpa [startsWith, CodePoint.satisfies] using isDigitChar_of_isIdentStart hc

/-- A point and a name after an expression. -/
theorem scans_member {text property : Text} (h : Scans text.toList ws Detached)
    (hp : property.isIdentifier = true) :
    Scans (text ++ "." ++ property).toList (ws ++ [.punctuation ".", .ofName property])
      Detached := by
  have hpoint : Scans (.char '.' :: property.toList) [.punctuation ".", .ofName property]
      Detached :=
    scans_point.append (scans_identifier hp) fun rest _ => startsFraction_of_isIdentifier hp rest
  have := h.append hpoint fun rest _ => ⟨rfl, startsFraction_of_isIdentifier hp rest⟩
  simpa using this

/-- Arguments in parentheses after an expression. -/
theorem scans_call {text arguments : Text} {vs : List Content}
    (h : Scans text.toList ws Detached) (h' : Scans arguments.toList vs Detached) :
    Scans (text ++ parenthesized arguments).toList (ws ++ enclosed vs) Detached := by
  have hargs := scans_parenthesized h'
  have hmeets : ∀ rest, Anything rest → Detached ((parenthesized arguments).toList ++ rest) := by
    intro rest _
    simpa [parenthesized] using detached_cons (c := '(') (by decide) (by decide) _
  rw [Text.toList_append]
  exact (h.append hargs hmeets).mono fun _ _ => trivial

/-- An operator between two expressions. -/
theorem scans_binary {l r : Text} {op : BinaryOp} {vs : List Content} (h : op ∈ BinaryOp.known)
    (hl : Scans l.toList ws Detached) (hr : Scans r.toList vs Detached) :
    Scans (l ++ " " ++ op.spelling ++ " " ++ r).toList (ws ++ op.content :: vs) Detached := by
  have := hl.append ((scans_binaryOp h).before hr) fun rest _ => by
    simpa using detached_blank _
  simpa using this

theorem spells_number {n : Number} (h : n.readsBack = true) :
    Spells n.literal [⟨.number, n.literal.toOption.getD ""⟩] := by
  unfold Number.readsBack at h
  split at h
  · cases h
  · next text htext =>
    simp only [Bool.and_eq_true] at h
    refine ⟨text, htext, ?_⟩
    rw [htext]
    exact scans_numeral h.1

theorem spells_boolean (b : Bool) :
    Spells (.ok (if b then "True" else "False")) [.keyword (if b then "true" else "false")] := by
  cases b with
  | true => exact ⟨_, rfl, scans_keyword (by decide) (by decide)⟩
  | false => exact ⟨_, rfl, scans_keyword (by decide) (by decide)⟩

mutual

/-- A legible expression is written as the tokens that the tree calls for. -/
theorem Expr.spells_write : ∀ e : Expr, e.legible = true → Spells e.write e.contents
  | .number n, h => by
    simp only [Expr.legible, Expr.every, Expr.fits, Expr.isClear, Bool.true_and] at h
    exact spells_number h
  | .string s, h => by
    simp only [Expr.legible, Expr.every, Expr.fits, Expr.isClear, Bool.and_true] at h
    refine ⟨_, rfl, ?_⟩
    have := scans_string h
    rw [Text.ofList_toList] at this
    simpa [Expr.contents] using this.mono fun _ _ => trivial
  | .boolean b, _ => spells_boolean b
  | .nothing, _ => ⟨_, rfl, scans_keyword (by decide) (by decide)⟩
  | .ident name, h => by
    simp only [Expr.legible, Expr.every, Expr.fits, Expr.isClear, Bool.true_and] at h
    exact ⟨name, rfl, scans_identifier (isIdentifier_of_isReferenceName h)⟩
  | .member o property, h => by
    simp only [Expr.legible, Expr.every, Expr.fits, Expr.isClear, Bool.and_true,
      Bool.and_eq_true] at h
    obtain ⟨text, htext, hscan⟩ := o.spells_write h.2
    refine ⟨_, by simp only [Expr.write, htext]; rfl, ?_⟩
    exact scans_member (scans_atom o.isSimple hscan) (isIdentifier_of_isMemberName h.1)
  | .index _ _, h => by
    simp [Expr.legible, Expr.every, Expr.fits] at h
  | .call callee args, h => by
    simp only [Expr.legible, Expr.every, Bool.and_eq_true] at h
    obtain ⟨text, htext, hscan⟩ := callee.spells_write h.1.2
    obtain ⟨texts, htexts, hargs⟩ := spells_writeAll args h.2
    refine ⟨_, by simp only [Expr.write, htext, htexts]; rfl, ?_⟩
    exact scans_call (scans_atom callee.isSimple hscan) hargs
  | .binary op l r, h => by
    simp only [Expr.legible, Expr.every, Expr.fits, Expr.isClear, Bool.and_true,
      Bool.and_eq_true, List.contains_iff_mem] at h
    obtain ⟨left, hleft, hl⟩ := l.spells_write h.1.2
    obtain ⟨right, hright, hr⟩ := r.spells_write h.2
    refine ⟨_, by simp only [Expr.write, hleft, hright]; rfl, ?_⟩
    exact scans_binary h.1.1 (scans_atom l.isSimple hl) (scans_atom r.isSimple hr)
  | .unary op e, h => by
    simp only [Expr.legible, Expr.every, Expr.fits, Expr.isClear, Bool.and_true,
      Bool.and_eq_true, Bool.or_eq_true, beq_iff_eq] at h
    obtain ⟨text, htext, hscan⟩ := e.spells_write h.2
    refine ⟨_, by simp only [Expr.write, htext]; rfl, ?_⟩
    rw [Text.toList_append]
    exact (scans_unaryOp h.1).before (scans_atom e.isSimple hscan)
  | .alien _, h => by
    simp [Expr.legible, Expr.every, Expr.fits] at h

/-- Legible arguments are written as the tokens that the trees call for. -/
theorem spells_writeAll : ∀ es : List Expr, legibleExprs es = true →
    ∃ texts, writeAll es = .ok texts ∧
      Scans (commaSeparated texts).toList (argumentContents es) Detached
  | [], _ => ⟨[], rfl, Scans.nil _⟩
  | e :: es, h => by
    simp only [legibleExprs, everyExpr, Bool.and_eq_true] at h
    obtain ⟨text, htext, hscan⟩ := e.spells_write h.1
    obtain ⟨texts, htexts, hmore⟩ := spells_writeMore es h.2
    refine ⟨text :: texts, by simp only [writeAll, htext, htexts]; rfl, ?_⟩
    rw [commaSeparated, Text.toList_joined_cons]
    refine hscan.append hmore fun rest hrest => ?_
    cases texts with
    | nil => exact hrest
    | cons u us => simpa using detached_cons (c := ',') (by decide) (by decide) _

theorem spells_writeMore : ∀ es : List Expr, legibleExprs es = true →
    ∃ texts, writeAll es = .ok texts ∧
      Scans (texts.flatMap fun t => (", " : Text).toList ++ t.toList) (moreContents es) Detached
  | [], _ => ⟨[], rfl, Scans.nil _⟩
  | e :: es, h => by
    simp only [legibleExprs, everyExpr, Bool.and_eq_true] at h
    obtain ⟨text, htext, hscan⟩ := e.spells_write h.1
    obtain ⟨texts, htexts, hmore⟩ := spells_writeMore es h.2
    refine ⟨text :: texts, by simp only [writeAll, htext, htexts]; rfl, ?_⟩
    have hcomma : Scans (", " : Text).toList [.punctuation ","] Anything :=
      (scans_punctuation (c := ',') (by decide) (by decide)).before scans_blank
    rw [List.flatMap_cons, List.append_assoc]
    refine hcomma.before (hscan.append hmore fun rest hrest => ?_)
    cases texts with
    | nil => exact hrest
    | cons u us => simpa using detached_cons (c := ',') (by decide) (by decide) _

end

/-- The characters of lines, each after a line feed. -/
def onLines (lines : List Text) : List CodePoint := lines.flatMap fun l => .char '\n' :: l.toList

/-- The end of a line or of the whole text. -/
def LineEnd (rest : List CodePoint) : Prop := rest = [] ∨ ∃ cs, rest = .char '\n' :: cs

/-- Lines that can be written and are scanned as given contents. -/
def SpellsLines (written : Except WriteFault (List Text)) (ws : List Content) : Prop :=
  ∃ lines, written = .ok lines ∧ Scans (onLines lines) ws LineEnd

theorem LineEnd.detached {rest : List CodePoint} (h : LineEnd rest) : Detached rest := by
  rcases h with rfl | ⟨cs, rfl⟩
  · exact detached_nil
  · exact detached_newline cs

theorem onLines_append (ls ms : List Text) : onLines (ls ++ ms) = onLines ls ++ onLines ms := by
  simp [onLines]

theorem lineEnd_onLines (ls : List Text) {rest : List CodePoint} (h : LineEnd rest) :
    LineEnd (onLines ls ++ rest) := by
  cases ls with
  | nil => exact h
  | cons l ls => exact .inr ⟨_, rfl⟩

/-- Lines after other lines. -/
theorem Scans.lines {ls ms : List Text} {vs : List Content} (h : Scans (onLines ls) ws LineEnd)
    (h' : Scans (onLines ms) vs LineEnd) : Scans (onLines (ls ++ ms)) (ws ++ vs) LineEnd := by
  rw [onLines_append]
  exact h.append h' fun _ => lineEnd_onLines ms

theorem scans_line (depth : Nat) {text : Text} (h : Scans text.toList ws LineEnd) :
    Scans (onLines [indented depth text]) (.newline :: ws) LineEnd := by
  have := scans_newline.before ((scans_blanks (4 * depth)).before h)
  simpa [onLines, indented] using this

/-- A line that nothing but a name or a number could spoil. -/
theorem scans_plainLine (depth : Nat) {text : Text} (h : Scans text.toList ws Detached) :
    Scans (onLines [indented depth text]) (.newline :: ws) LineEnd :=
  scans_line depth (h.mono fun _ hrest => hrest.detached)

/-- A word of the language and a blank. -/
theorem scans_opening {s full : Text} {w : Content} (hfull : full.toList = s.toList ++ [.char ' '])
    (h : s.isIdentifier = true) (hw : Content.ofName s = w) : Scans full.toList [w] Anything :=
  hfull ▸ (scans_keyword h hw).spaced

/-- A word of the language between blanks. -/
theorem scans_between {s full : Text} {w : Content}
    (hfull : full.toList = .char ' ' :: (s.toList ++ [.char ' '])) (h : s.isIdentifier = true)
    (hw : Content.ofName s = w) : Scans full.toList [w] Anything :=
  hfull ▸ (scans_keyword h hw).spaced.afterBlank

/-- A clause starts with a blank, so it may follow anything. -/
theorem spells_clause {word : Text} {vs : List Content} (hw : Scans word.toList vs Anything)
    (hblank : word.toList.head? = some (.char ' ')) {clause : Option Expr}
    (h : clause.all (Expr.every fun e => e.fits && e.isClear) = true) :
    ∃ text, writeClause word clause = .ok text ∧
      Scans text.toList (clauseContents vs clause) Detached ∧
      ∀ rest, Detached rest → Detached (text.toList ++ rest) := by
  cases clause with
  | none => exact ⟨"", rfl, Scans.nil _, fun _ hrest => hrest⟩
  | some e =>
    obtain ⟨text, htext, hscan⟩ := e.spells_write h
    refine ⟨word ++ text, by simp only [writeClause, htext]; rfl, ?_, ?_⟩
    · rw [Text.toList_append]
      exact hw.before hscan
    · intro rest _
      obtain ⟨cs, hcs⟩ := List.head?_eq_some_iff.1 hblank
      simpa [hcs] using detached_blank _

theorem spells_dim (depth : Nat) {name typeName : Text} {initial : Option Expr} (line : Line)
    (hname : isPlainName name = true) (htype : isTypeName typeName = true)
    (h : initial.all (Expr.every fun e => e.fits && e.isClear) = true) :
    SpellsLines ((Stmt.dim name typeName initial line).lines depth)
      (.newline :: (Stmt.dim name typeName initial line).contents) := by
  obtain ⟨value, hvalue, hscan, hmeets⟩ := spells_clause scans_equals rfl h
  have hdim : Scans ("Dim " : Text).toList [.keyword "dim"] Anything :=
    scans_opening (s := "Dim") rfl (by decide) (by decide)
  have has : Scans (" As " : Text).toList [.keyword "as"] Anything :=
    scans_between (s := "As") rfl (by decide) (by decide)
  have htail : Scans
      ((if typeName = "Object" then ("" : Text) else " As " ++ typeName) ++ value).toList
      ((if typeName = "Object" then [] else [.keyword "as", .ofName typeName]) ++
        clauseContents [.operator "="] initial) Detached := by
    rw [Text.toList_append]
    split
    · exact hscan
    · rw [Text.toList_append, List.append_assoc]
      exact has.before ((scans_identifier (isIdentifier_of_isTypeName htype)).append hscan hmeets)
  refine ⟨_, by simp only [Stmt.lines, hvalue]; rfl, ?_⟩
  refine scans_plainLine depth ?_
  rw [Text.toList_append, Text.toList_append, Text.toList_append, List.append_assoc,
    List.append_assoc, ← Text.toList_append]
  refine hdim.before ((scans_identifier (isIdentifier_of_isPlainName hname)).append htail ?_)
  intro rest hrest
  rw [Text.toList_append, List.append_assoc]
  split
  · exact hmeets rest hrest
  · simpa using detached_blank _

theorem spells_assign (depth : Nat) {target value : Expr} (line : Line)
    (ht : target.legible = true) (hv : value.legible = true) :
    SpellsLines ((Stmt.assign target value line).lines depth)
      (.newline :: (Stmt.assign target value line).contents) := by
  obtain ⟨left, hleft, hl⟩ := target.spells_write ht
  obtain ⟨right, hright, hr⟩ := value.spells_write hv
  refine ⟨_, by simp only [Stmt.lines, hleft, hright]; rfl, ?_⟩
  refine scans_plainLine depth ?_
  rw [Text.toList_append, Text.toList_append, List.append_assoc]
  exact hl.append (scans_equals.before hr) fun rest _ => detached_blank _

theorem spells_callLine (depth : Nat) {callee : Expr} {args : List Expr} (line : Line)
    (hc : callee.legible = true) (ha : legibleExprs args = true) :
    SpellsLines ((Stmt.call callee args line).lines depth)
      (.newline :: (Stmt.call callee args line).contents) := by
  obtain ⟨text, htext, hscan⟩ := callee.spells_write hc
  obtain ⟨texts, htexts, hargs⟩ := spells_writeAll args ha
  refine ⟨_, by simp only [Stmt.lines, htext, htexts]; rfl, ?_⟩
  exact scans_plainLine depth (scans_call (scans_atom callee.isSimple hscan) hargs)

theorem spells_return (depth : Nat) {value : Option Expr} (line : Line)
    (h : value.all (Expr.every fun e => e.fits && e.isClear) = true) :
    SpellsLines ((Stmt.ret value line).lines depth)
      (.newline :: (Stmt.ret value line).contents) := by
  have hword : Scans ("Return" : Text).toList [.keyword "return"] Detached :=
    scans_keyword (by decide) (by decide)
  have hblank : Scans (" " : Text).toList [] Anything := scans_blank
  obtain ⟨text, htext, hscan, hmeets⟩ := spells_clause hblank rfl h
  refine ⟨_, by simp only [Stmt.lines, htext]; rfl, ?_⟩
  refine scans_plainLine depth ?_
  rw [Text.toList_append]
  exact hword.append hscan hmeets

/-- A small letter is the small form of its capital form, and capitals are letters too. -/
theorem toLower_toUpper_of_isIdentStart {c : Char} (h : isIdentStart c = true)
    (hlow : c.toLower = c) : isIdentStart c.toUpper = true ∧ c.toUpper.toLower = c := by
  refine Text.ascii_induction (P := fun c => isIdentStart c = true → c.toLower = c →
    isIdentStart c.toUpper = true ∧ c.toUpper.toLower = c) ?_
    (isAscii_of_isIdentChar (isIdentChar_of_isIdentStart h)) h hlow
  decide

/-- A capitalised word in small letters is an identifier, and lowering gives the word back. -/
theorem capitalize_of_isSmallWord {s : Text} (h : isSmallWord s = true) :
    (Text.capitalize s).isIdentifier = true ∧ Text.lower (Text.capitalize s) = s := by
  simp only [isSmallWord, Bool.and_eq_true, beq_iff_eq] at h
  obtain ⟨c, cs, rfl, hc, hcs⟩ := exists_chars_of_isIdentifier h.1
  have hasc := all_isAscii_of_isIdentChar hc hcs
  have hlow : c.toLower = c ∧ cs.map Char.toLower = cs := by
    have := h.2
    rw [Text.lower_ofChars hasc, Text.ofChars_inj, List.map_cons, List.cons.injEq] at this
    exact this
  obtain ⟨hup, hupLow⟩ := toLower_toUpper_of_isIdentStart hc hlow.1
  have hasc' := all_isAscii_of_isIdentChar hup hcs
  rw [Text.capitalize_ofChars hasc, hlow.2]
  refine ⟨?_, ?_⟩
  · simp only [Text.isIdentifier, Text.toList_ofChars, List.map_cons, Bool.and_eq_true,
      List.all_map]
    exact ⟨hup, hcs⟩
  · rw [Text.lower_ofChars hasc', List.map_cons, hlow.2, hupLow]

/-- Letter case has no effect on digits and points. -/
theorem toLower_of_digit_or_point {c : Char} (h : isDigitChar c = true ∨ c = '.') :
    Text.isAscii c = true ∧ c.toLower = c ∧ c.toUpper = c := by
  rcases h with h | rfl
  · refine ⟨Number.isAscii_of_isDigitChar h, ?_⟩
    refine Text.ascii_induction (P := fun c => isDigitChar c = true →
      c.toLower = c ∧ c.toUpper = c) ?_ (Number.isAscii_of_isDigitChar h) h
    decide
  · decide

theorem chars_of_isNumeral {s : Text} (h : isNumeral s = true) :
    ∃ c cs, s = .ofChars (c :: cs) ∧ ∀ d ∈ c :: cs, isDigitChar d = true ∨ d = '.' := by
  rcases numeral_cases h with ⟨c, cs, rfl, hcs⟩ | ⟨ds, es, rfl, hds, hes, -⟩
  · exact ⟨c, cs, rfl, fun d hd => .inl (List.all_eq_true.1 hcs d hd)⟩
  · have hall : ∀ d ∈ ds ++ '.' :: es, isDigitChar d = true ∨ d = '.' := by
      intro d hd
      rcases List.mem_append.1 hd with hd | hd
      · exact .inl (List.all_eq_true.1 hds d hd)
      · rcases List.mem_cons.1 hd with rfl | hd
        · exact .inr rfl
        · exact .inl (List.all_eq_true.1 hes d hd)
    cases ds with
    | nil => exact ⟨_, _, rfl, hall⟩
    | cons d ds => exact ⟨_, _, rfl, hall⟩

/-- Letter case has no effect on numerals. -/
theorem capitalize_of_isNumeral {s : Text} (h : isNumeral s = true) :
    Text.capitalize s = s ∧ Text.lower s = s := by
  obtain ⟨c, cs, rfl, hcs⟩ := chars_of_isNumeral h
  have hasc : (c :: cs).all Text.isAscii = true :=
    List.all_eq_true.2 fun d hd => (toLower_of_digit_or_point (hcs d hd)).1
  have hlow : (c :: cs).map Char.toLower = c :: cs := by
    conv => rhs; rw [← List.map_id (c :: cs)]
    exact List.map_congr_left fun d hd => (toLower_of_digit_or_point (hcs d hd)).2.1
  refine ⟨?_, by rw [Text.lower_ofChars hasc, hlow]⟩
  rw [List.map_cons, List.cons.injEq] at hlow
  rw [Text.capitalize_ofChars hasc, hlow.2,
    (toLower_of_digit_or_point (hcs c List.mem_cons_self)).2.2]

/-- Letter case has no effect on signs. -/
theorem capitalize_of_sign {s : Text} (h : s ∈ operatorSigns ++ punctuationSigns) :
    Text.capitalize s = s ∧ Text.lower s = s := by
  have hall : (operatorSigns ++ punctuationSigns).all
      (fun s => decide (Text.capitalize s = s ∧ Text.lower s = s)) = true := by decide +kernel
  exact of_decide_eq_true (List.all_eq_true.1 hall s h)

theorem scans_operatorSign {s : Text} (h : s ∈ operatorSigns) :
    Scans s.toList [.operator s] LineEnd := by
  have hshort : ∀ c, isOperatorChar c = true →
      Scans (Text.ofChars [c]).toList [.operator (.ofChars [c])] LineEnd := by
    intro c hc
    rw [Text.toList_ofChars]
    refine (scans_operator hc).mono ?_
    rintro _ (rfl | ⟨cs, rfl⟩)
    · rfl
    · simp [startsLongOperator, longOperators, startsWith, CodePoint.satisfies]
  have hlong : ∀ c d, longOperators.contains (c, d) = true →
      Scans (Text.ofChars [c, d]).toList [.operator (.ofChars [c, d])] LineEnd := by
    intro c d hcd
    rw [Text.toList_ofChars]
    exact (scans_longOperator hcd).mono fun _ _ => trivial
  simp only [operatorSigns, List.mem_cons, List.not_mem_nil, or_false] at h
  rcases h with rfl | rfl | rfl | rfl | rfl | rfl | rfl | rfl | rfl | rfl | rfl | rfl | rfl
  · exact hshort '=' (by decide)
  · exact hshort '<' (by decide)
  · exact hshort '>' (by decide)
  · exact hshort '+' (by decide)
  · exact hshort '-' (by decide)
  · exact hshort '*' (by decide)
  · exact hshort '/' (by decide)
  · exact hshort '\\' (by decide)
  · exact hshort '^' (by decide)
  · exact hshort '&' (by decide)
  · exact hlong '<' '>' (by decide)
  · exact hlong '<' '=' (by decide)
  · exact hlong '>' '=' (by decide)

theorem scans_punctuationSign {s : Text} (h : s ∈ punctuationSigns) :
    Scans s.toList [.punctuation s] LineEnd := by
  have hother : ∀ c, isPunctuationChar c = true → c ≠ '.' →
      Scans (Text.ofChars [c]).toList [.punctuation (.ofChars [c])] LineEnd := by
    intro c hc hp
    rw [Text.toList_ofChars]
    exact (scans_punctuation hc hp).mono fun _ _ => trivial
  simp only [punctuationSigns, List.mem_cons, List.not_mem_nil, or_false] at h
  rcases h with rfl | rfl | rfl | rfl
  · exact hother '(' (by decide) (by decide)
  · exact hother ')' (by decide) (by decide)
  · exact hother ',' (by decide) (by decide)
  · exact scans_point.mono fun _ hrest => hrest.detached.not_digit

/-- What is left is written as one token. -/
theorem scans_exitWord {s : Text} (h : isExitWord s = true) :
    Scans (Text.capitalize s).toList (exitContents s) LineEnd := by
  simp only [isExitWord, Bool.or_eq_true, beq_iff_eq, List.contains_iff_mem] at h
  unfold exitContents
  split
  · next hs => subst hs; exact Scans.nil _
  next hs =>
  split
  · next hsmall =>
    exact (scans_identifier (capitalize_of_isSmallWord hsmall).1).mono fun _ hr => hr.detached
  next hsmall =>
  split
  · next hnum =>
    rw [(capitalize_of_isNumeral hnum).1]
    exact (scans_numeral hnum).mono fun _ hr => hr.detached
  next hnum =>
  split
  · next hop =>
    rw [List.contains_iff_mem] at hop
    rw [(capitalize_of_sign (List.mem_append_left _ hop)).1]
    exact scans_operatorSign hop
  · next hop =>
    have hp : s ∈ punctuationSigns := by
      rcases h with (((h | h) | h) | h) | h
      · exact absurd h hs
      · exact absurd h hsmall
      · exact absurd h hnum
      · exact absurd (List.contains_iff_mem.2 h) hop
      · exact h
    rw [(capitalize_of_sign (List.mem_append_right _ hp)).1]
    exact scans_punctuationSign hp

/-- Trimming keeps a line that ends in no blank. -/
theorem toList_trimRight_indented (depth : Nat) {text : Text} {c : CodePoint}
    (h : text.toList.getLast? = some c) (hc : Text.isBlankPoint c = false) :
    (Text.trimRight (indented depth text)).toList = (indented depth text).toList := by
  rw [Text.toList_trimRight]
  apply Text.dropWhileEnd_eq_self
  simp [indented, List.getLast?_append, h, hc]

/-- What is left ends in no blank. -/
theorem getLast?_of_isExitWord {s : Text} (h : isExitWord s = true) (hne : s ≠ "") :
    ∃ c, (Text.capitalize s).toList.getLast? = some c ∧ Text.isBlankPoint c = false := by
  have hblank : ∀ c, isIdentChar c = true ∨ c = '.' → Text.isBlankPoint (.char c) = false := by
    rintro c (hc | rfl)
    · refine Text.ascii_induction (P := fun c => isIdentChar c = true →
        Text.isBlankPoint (.char c) = false) ?_ (isAscii_of_isIdentChar hc) hc
      decide
    · decide
  have hlast : ∀ cs : List Char, cs ≠ [] → (∀ c ∈ cs, isIdentChar c = true ∨ c = '.') →
      ∃ c, (Text.ofChars cs).toList.getLast? = some c ∧ Text.isBlankPoint c = false := by
    intro cs hcs hall
    refine ⟨.char (cs.getLast hcs), ?_, hblank _ (hall _ (List.getLast_mem hcs))⟩
    rw [Text.toList_ofChars, List.getLast?_map, List.getLast?_eq_some_getLast hcs]
    rfl
  have hsigns : ∀ s ∈ operatorSigns ++ punctuationSigns,
      ∃ c, (Text.capitalize s).toList.getLast? = some c ∧ Text.isBlankPoint c = false := by
    intro s hs
    have hall : (operatorSigns ++ punctuationSigns).all (fun s =>
        s.toList.getLast?.any fun c => !Text.isBlankPoint c) = true := by decide +kernel
    rw [(capitalize_of_sign hs).1]
    have := List.all_eq_true.1 hall s hs
    simpa only [Option.any_eq_true, Bool.not_eq_true'] using this
  simp only [isExitWord, Bool.or_eq_true, beq_iff_eq, List.contains_iff_mem] at h
  rcases h with (((h | h) | h) | h) | h
  · exact absurd h hne
  · obtain ⟨c, cs, hs, hc, hcs⟩ := exists_chars_of_isIdentifier (capitalize_of_isSmallWord h).1
    rw [hs]
    refine hlast _ (List.cons_ne_nil _ _) fun d hd => .inl ?_
    rcases List.mem_cons.1 hd with rfl | hd
    · exact isIdentChar_of_isIdentStart hc
    · exact List.all_eq_true.1 hcs d hd
  · rw [(capitalize_of_isNumeral h).1]
    obtain ⟨c, cs, rfl, hcs⟩ := chars_of_isNumeral h
    exact hlast _ (List.cons_ne_nil _ _) fun d hd =>
      (hcs d hd).imp_left isIdentChar_of_isDigitChar
  · exact hsigns s (List.mem_append_left _ h)
  · exact hsigns s (List.mem_append_right _ h)

theorem spells_exit (depth : Nat) {what : Text} (line : Line) (h : isExitWord what = true) :
    SpellsLines ((Stmt.exit what line).lines depth)
      (.newline :: (Stmt.exit what line).contents) := by
  have hline : ∃ text, Scans text.toList (.keyword "exit" :: exitContents what) LineEnd ∧
      (Text.trimRight (indented depth ("Exit " ++ Text.capitalize what))).toList =
        (indented depth text).toList := by
    by_cases hw : what = ""
    · subst hw
      refine ⟨"Exit", (scans_keyword (by decide) (by decide)).mono fun _ hr => hr.detached, ?_⟩
      have hsplit : (indented depth ("Exit " ++ Text.capitalize "")).toList =
          (indented depth "Exit").toList ++ [.char ' '] := by
        rw [indented, indented, Text.toList_append, Text.toList_append, Text.toList_append,
          List.append_assoc]
        rfl
      rw [Text.toList_trimRight, hsplit, Text.dropWhileEnd_concat, if_pos (by decide),
        ← Text.toList_trimRight]
      exact toList_trimRight_indented depth (c := .char 't') rfl (by decide)
    · obtain ⟨c, hlast, hc⟩ := getLast?_of_isExitWord h hw
      refine ⟨"Exit " ++ Text.capitalize what, ?_, ?_⟩
      · rw [Text.toList_append]
        have hopen : Scans ("Exit " : Text).toList [.keyword "exit"] Anything :=
          scans_opening (s := "Exit") rfl (by decide) (by decide)
        exact hopen.before (scans_exitWord h)
      · refine toList_trimRight_indented depth ?_ hc
        rw [Text.toList_append, List.getLast?_append, hlast]
        rfl
  obtain ⟨text, hscan, htext⟩ := hline
  refine ⟨_, rfl, ?_⟩
  have hlines : onLines [Text.trimRight (indented depth ("Exit " ++ Text.capitalize what))] =
      onLines [indented depth text] := by simp [onLines, htext]
  rw [hlines]
  exact scans_line depth hscan

/-- A fixed word on a line of its own. -/
theorem scans_wordLine (depth : Nat) {s : Text} {w : Content} (h : s.isIdentifier = true)
    (hw : Content.ofName s = w) : Scans (onLines [indented depth s]) [.newline, w] LineEnd :=
  scans_plainLine depth (scans_keyword h hw)

theorem scans_endIf (depth : Nat) :
    Scans (onLines [indented depth "End If"]) [.newline, .keyword "end", .keyword "if"]
      LineEnd := by
  have hend : Scans ("End " : Text).toList [.keyword "end"] Anything :=
    scans_opening (s := "End") rfl (by decide) (by decide)
  have hif : Scans ("If" : Text).toList [.keyword "if"] Detached :=
    scans_keyword (by decide) (by decide)
  exact scans_plainLine depth (hend.before hif)

/-- A test between a word and `Then`. -/
theorem scans_test {word test : Text} {w : Content} (hw : Scans word.toList [w] Anything)
    (h : Scans test.toList ws Detached) :
    Scans (word ++ test ++ " Then").toList (w :: (ws ++ [.keyword "then"])) Detached := by
  have hthen : Scans (" Then" : Text).toList [.keyword "then"] Detached :=
    (scans_keyword (s := "Then") (by decide) (by decide)).afterBlank
  rw [Text.toList_append, Text.toList_append, List.append_assoc]
  exact hw.before (h.append hthen fun _ _ => detached_blank _)

/-- The bounds of a counting loop. -/
theorem scans_for {counter start stop step : Text} {vs us : List Content}
    (hc : counter.isIdentifier = true) (h : Scans start.toList ws Detached)
    (h' : Scans stop.toList vs Detached) (h'' : Scans step.toList us Detached)
    (hmeets : ∀ rest, Detached rest → Detached (step.toList ++ rest)) :
    Scans ("For " ++ counter ++ " = " ++ start ++ " To " ++ stop ++ step).toList
      (.keyword "for" :: .ofName counter :: .operator "=" ::
        (ws ++ .keyword "to" :: (vs ++ us))) Detached := by
  have hfor : Scans ("For " : Text).toList [.keyword "for"] Anything :=
    scans_opening (s := "For") rfl (by decide) (by decide)
  have hto : Scans (" To " : Text).toList [.keyword "to"] Anything :=
    scans_between (s := "To") rfl (by decide) (by decide)
  have htail := h.append (hto.before (h'.append h'' hmeets)) fun _ _ => detached_blank _
  have := hfor.before ((scans_identifier hc).append (scans_equals.before htail)
    fun _ _ => detached_blank _)
  simpa using this

/-- The last line of a loop with its test at the end. -/
theorem scans_loopEnd (depth : Nat) {test : Text} (h : Scans test.toList ws Detached)
    (hmeets : ∀ rest, Detached rest → Detached (test.toList ++ rest)) :
    Scans (onLines [indented depth ("Loop" ++ test)]) (.newline :: .keyword "loop" :: ws)
      LineEnd := by
  have hloop : Scans ("Loop" : Text).toList [.keyword "loop"] Detached :=
    scans_keyword (by decide) (by decide)
  refine scans_plainLine depth ?_
  rw [Text.toList_append]
  exact hloop.append h hmeets

theorem scans_loopWord (ending : Bool) :
    Scans (if ending then " Until " else " While " : Text).toList
      [.keyword (if ending then "until" else "while")] Anything := by
  cases ending with
  | true => exact scans_between (s := "Until") rfl (by decide) (by decide)
  | false => exact scans_between (s := "While") rfl (by decide) (by decide)

mutual

/-- A legible statement is written as the tokens that the tree calls for. -/
theorem Stmt.spells_lines : ∀ (s : Stmt) (depth : Nat), s.legible = true →
    SpellsLines (s.lines depth) (.newline :: s.contents)
  | .dim _ _ _ line, depth, h => by
    simp only [Stmt.legible, Stmt.every, Stmt.fits, Stmt.isClear, Bool.and_eq_true] at h
    exact spells_dim depth line h.1.1 h.1.2 h.2
  | .assign _ _ line, depth, h => by
    simp only [Stmt.legible, Stmt.every, Bool.and_eq_true] at h
    exact spells_assign depth line h.1.2 h.2
  | .call _ _ line, depth, h => by
    simp only [Stmt.legible, Stmt.every, Bool.and_eq_true] at h
    exact spells_callLine depth line h.1.2 h.2
  | .cond test body elseIfs otherwise _, depth, h => by
    simp only [Stmt.legible, Stmt.every, Bool.and_eq_true] at h
    obtain ⟨text, htext, hscan⟩ := test.spells_write h.1.1.1.2
    obtain ⟨ls, hls, hbody⟩ := spells_blockLines body (depth + 1) h.1.1.2
    obtain ⟨ms, hms, helse⟩ := spells_elseIfLines elseIfs depth h.1.2
    obtain ⟨ns, hns, hlast⟩ := spells_blockLines otherwise (depth + 1) h.2
    have hif : Scans ("If " : Text).toList [.keyword "if"] Anything :=
      scans_opening (s := "If") rfl (by decide) (by decide)
    have hotherwise : Scans (onLines (if otherwise.isEmpty then []
          else indented depth "Else" :: ns))
        (if otherwise.isEmpty then [] else .newline :: .keyword "else" :: blockContents otherwise)
        LineEnd := by
      split
      · exact Scans.nil _
      · exact (scans_wordLine depth (s := "Else") (by decide) (by decide)).lines hlast
    refine ⟨_, by simp only [Stmt.lines, htext, hls, hms, hns]; rfl, ?_⟩
    have := (scans_plainLine depth (scans_test hif hscan)).lines
      (hbody.lines (helse.lines (hotherwise.lines (scans_endIf depth))))
    simpa [Stmt.contents] using this
  | .forLoop _ start stop _ body _, depth, h => by
    simp only [Stmt.legible, Stmt.every, Stmt.fits, Stmt.isClear, Bool.and_true,
      Bool.and_eq_true] at h
    obtain ⟨first, hfirst, hf⟩ := start.spells_write h.1.1.1.2
    obtain ⟨last, hlast, hl⟩ := stop.spells_write h.1.1.2
    have hstep : Scans (" Step " : Text).toList [.keyword "step"] Anything :=
      scans_between (s := "Step") rfl (by decide) (by decide)
    obtain ⟨step, hstep', hs, hmeets⟩ := spells_clause hstep rfl h.1.2
    obtain ⟨ls, hls, hbody⟩ := spells_blockLines body (depth + 1) h.2
    refine ⟨_, by simp only [Stmt.lines, hfirst, hlast, hstep', hls]; rfl, ?_⟩
    have hhead := scans_for (isIdentifier_of_isPlainName h.1.1.1.1) hf hl hs hmeets
    have := (scans_plainLine depth hhead).lines
      (hbody.lines (scans_wordLine depth (s := "Next") (w := .keyword "next") (by decide)
        (by decide)))
    simpa [Stmt.contents] using this
  | .whileLoop test body _, depth, h => by
    simp only [Stmt.legible, Stmt.every, Bool.and_eq_true] at h
    obtain ⟨text, htext, hscan⟩ := test.spells_write h.1.2
    obtain ⟨ls, hls, hbody⟩ := spells_blockLines body (depth + 1) h.2
    have hwhile : Scans ("While " : Text).toList [.keyword "while"] Anything :=
      scans_opening (s := "While") rfl (by decide) (by decide)
    refine ⟨_, by simp only [Stmt.lines, htext, hls]; rfl, ?_⟩
    have hhead : Scans ("While " ++ text).toList (.keyword "while" :: test.contents) Detached := by
      rw [Text.toList_append]
      exact hwhile.before hscan
    have := (scans_plainLine depth hhead).lines
      (hbody.lines (scans_wordLine depth (s := "Wend") (w := .keyword "wend") (by decide)
        (by decide)))
    simpa [Stmt.contents] using this
  | .doLoop body test ending _ _, depth, h => by
    simp only [Stmt.legible, Stmt.every, Bool.and_eq_true] at h
    obtain ⟨text, htext, hscan, hmeets⟩ :=
      spells_clause (scans_loopWord ending) (by cases ending <;> rfl) h.2
    obtain ⟨ls, hls, hbody⟩ := spells_blockLines body (depth + 1) h.1.2
    refine ⟨_, by simp only [Stmt.lines, htext, hls]; rfl, ?_⟩
    have := (scans_wordLine depth (s := "Do") (w := .keyword "do") (by decide) (by decide)).lines
      (hbody.lines (scans_loopEnd depth hscan hmeets))
    simpa [Stmt.contents] using this
  | .ret _ line, depth, h => by
    simp only [Stmt.legible, Stmt.every, Bool.and_eq_true] at h
    exact spells_return depth line h.2
  | .exit _ line, depth, h => by
    simp only [Stmt.legible, Stmt.every, Stmt.fits, Stmt.isClear, Bool.true_and] at h
    exact spells_exit depth line h
  | .alien _, _, h => by
    simp [Stmt.legible, Stmt.every, Stmt.fits] at h

/-- A legible block is written as the tokens that the trees call for. -/
theorem spells_blockLines : ∀ (ss : List Stmt) (depth : Nat), legibleBlock ss = true →
    SpellsLines (blockLines depth ss) (blockContents ss)
  | [], _, _ => ⟨[], rfl, Scans.nil _⟩
  | s :: ss, depth, h => by
    simp only [legibleBlock, everyStmt, Bool.and_eq_true] at h
    obtain ⟨ls, hls, hfirst⟩ := s.spells_lines depth h.1
    obtain ⟨ms, hms, hothers⟩ := spells_blockLines ss depth h.2
    refine ⟨ls ++ ms, by simp only [blockLines, hls, hms]; rfl, ?_⟩
    simpa [blockContents] using hfirst.lines hothers

theorem spells_elseIfLines : ∀ (es : List ElseIf) (depth : Nat), legibleElseIfs es = true →
    SpellsLines (elseIfLines depth es) (elseIfContents es)
  | [], _, _ => ⟨[], rfl, Scans.nil _⟩
  | .mk test body :: es, depth, h => by
    simp only [legibleElseIfs, everyElseIf, ElseIf.every, Bool.and_eq_true] at h
    obtain ⟨text, htext, hscan⟩ := test.spells_write h.1.1
    obtain ⟨ls, hls, hbody⟩ := spells_blockLines body (depth + 1) h.1.2
    obtain ⟨ms, hms, hothers⟩ := spells_elseIfLines es depth h.2
    have helseIf : Scans ("ElseIf " : Text).toList [.keyword "elseif"] Anything :=
      scans_opening (s := "ElseIf") rfl (by decide) (by decide)
    refine ⟨_, by simp only [elseIfLines, ElseIf.lines, htext, hls, hms]; rfl, ?_⟩
    have := ((scans_plainLine depth (scans_test helseIf hscan)).lines hbody).lines hothers
    simpa [elseIfContents, ElseIf.contents] using this

end

end FormBasic
