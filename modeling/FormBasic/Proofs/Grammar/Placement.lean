import FormBasic.Proofs.Grammar.Accepted

/-!
# Where statements stand

Every token of a source text has a line, and every statement gets the line of its first token. So
all statements of a parsed body have lines, however deep they stand. The parsers fail for two
reasons: the text is malformed, or it holds a number that cannot be read.

## Main definitions

* `Within` - tokens of a text, which have lines
* `Token.IsRefused` - numbers that cannot be read
* `Reads`, `Answer.Gives` - what a parser promises about values, rests and failures
* `Stmt.line`, `Stmt.blocks` - the line of a statement and the blocks inside it
* `Stmt.Placed`, `PlacedBlock` - statements with lines

## Main statements

* `gives_parseBlock` - a block is made of statements with lines
* `placedBlock_of_parseBody` - a parsed body is made of statements with lines
* `Reads.exists_isRefused` - what parsers refuse
-/

namespace FormBasic

/-- Whether a number's text is what is refused. -/
def Refusal.isUnreadable : Refusal → Bool
  | .tooManyDigits _ | .notAnInteger _ | .notADecimal _ => true
  | _ => false

/-- Whether tokens are some of those of a text and have lines. -/
def Within (all ts : List Token) : Prop := ∀ t ∈ ts, t ∈ all ∧ t.line.isSome = true

section Tokens

variable {all : List Token}

theorem Within.of_subset {ts us : List Token} (h : Within all ts) (hsub : us ⊆ ts) :
    Within all us :=
  fun t ht => h t (hsub ht)

theorem Within.head {t : Token} {ts : List Token} (h : Within all (t :: ts)) :
    t ∈ all ∧ t.line.isSome = true :=
  h t List.mem_cons_self

theorem Within.tail {t : Token} {ts : List Token} (h : Within all (t :: ts)) : Within all ts :=
  h.of_subset (List.subset_cons_self t ts)

theorem Within.drop {ts : List Token} (h : Within all ts) (n : Nat) : Within all (ts.drop n) :=
  h.of_subset (List.drop_subset n ts)

theorem within_nil : Within all [] := fun _ h => absurd h List.not_mem_nil

end Tokens

/-- Whether a token is a number that is refused. -/
def Token.IsRefused (t : Token) (refusal : Refusal) : Prop :=
  t.kind = .number ∧ numberOf t.text = .error (.refused refusal)

/-- Whether what is read from a text, if it is read, is of some sort, and fails because the text is
malformed or one of its numbers is refused. -/
def Reads {α : Type} (all : List Token) (P : α → Prop) : Except ParseFailure α → Prop
  | .ok a => P a
  | .error (.malformed _) => True
  | .error (.refused refusal) => ∃ t ∈ all, t.IsRefused refusal

/-- Whether an answer gives a value of some sort and leaves tokens of the text, or fails because the
text is malformed or one of its numbers is refused. -/
def Answer.Gives {α : Type} {bound : Nat} (all : List Token) (P : α → Prop) :
    Answer α bound → Prop :=
  Reads all fun p => P p.value ∧ Within all p.rest

/-- Answers of which only the rest matters. -/
abbrev Answer.Leaves {α : Type} {bound : Nat} (all : List Token) (a : Answer α bound) : Prop :=
  a.Gives all fun _ => True

section Combining

variable {all : List Token} {α β : Type} {bound bound' : Nat} {P : α → Prop} {Q : β → Prop}

theorem gives_failAt (t : Token) (cause : Misparse) :
    Answer.Gives all P (failAt t cause : Answer α bound) := trivial

theorem Answer.Gives.bind {a : Answer α bound} (ha : a.Gives all P)
    {f : Parsed α bound → Answer β bound'}
    (hf : ∀ value rest fewer, P value → Within all rest → (f ⟨value, rest, fewer⟩).Gives all Q) :
    Answer.Gives all Q (a >>= f) := by
  rcases a with (_ | _) | ⟨value, rest, fewer⟩
  · trivial
  · exact ha
  · exact hf value rest fewer ha.1 ha.2

theorem Answer.Gives.reads {a : Answer α bound} (ha : a.Gives all P)
    {f : Parsed α bound → Except ParseFailure β}
    (hf : ∀ value rest fewer, P value → Within all rest → Reads all Q (f ⟨value, rest, fewer⟩)) :
    Reads all Q (a >>= f) := by
  rcases a with (_ | _) | ⟨value, rest, fewer⟩
  · trivial
  · exact ha
  · exact hf value rest fewer ha.1 ha.2

theorem Answer.Leaves.bind {a : Answer α bound} (ha : a.Leaves all)
    {f : Parsed α bound → Answer β bound'}
    (hf : ∀ value rest fewer, Within all rest → (f ⟨value, rest, fewer⟩).Gives all Q) :
    Answer.Gives all Q (a >>= f) :=
  Answer.Gives.bind ha fun value rest fewer _ => hf value rest fewer

end Combining

section Leaves

variable {all : List Token}

theorem leaves_expect (stop : Token) (want : Text) {ts : List Token} (h : Within all ts) :
    (expect stop want ts).Leaves all := by
  unfold expect
  split
  · exact gives_failAt _ _
  · split
    · exact ⟨trivial, h.tail⟩
    · exact gives_failAt _ _

theorem isUnreadable_of_numberOf {text : Text} {failure : ParseFailure}
    (h : numberOf text = .error failure) : ∃ r : Refusal, failure = .refused r ∧ r.isUnreadable := by
  unfold numberOf Number.readDecimal Number.readInteger at h
  grind [Refusal.isUnreadable]

theorem Token.IsRefused.isUnreadable {t : Token} {refusal : Refusal} (h : t.IsRefused refusal) :
    refusal.isUnreadable = true := by
  obtain ⟨r, hr, hread⟩ := isUnreadable_of_numberOf h.2
  cases hr
  exact hread

/-- Only a number has no leaf, and it is then refused. -/
theorem isRefused_of_leafOf? {t : Token} {failure : ParseFailure}
    (h : leafOf? t = some (.error failure)) : ∃ r, failure = .refused r ∧ t.IsRefused r := by
  unfold leafOf? at h
  split at h
  · next hkind =>
    cases hn : numberOf t.text with
    | ok n =>
      rw [hn] at h
      cases h
    | error f =>
      rw [hn] at h
      cases h
      obtain ⟨r, rfl, -⟩ := isUnreadable_of_numberOf hn
      exact ⟨r, rfl, hkind, hn⟩
  all_goals grind

theorem within_typeSegments (stop : Token) (name : Text) (ts : List Token) (h : Within all ts) :
    Within all (typeSegments stop name ts).rest := by
  fun_induction typeSegments stop name ts with
  | case1 => exact within_nil
  | case2 => exact within_nil
  | case3 => exact h
  | case4 name t n rest hpoint ih => exact ih h.tail.tail
  | case5 => exact h

theorem leaves_parseTypeName (stop : Token) {ts : List Token} (h : Within all ts) :
    (parseTypeName stop ts).Leaves all := by
  unfold parseTypeName
  split
  · exact gives_failAt _ _
  · split
    · exact ⟨trivial, within_typeSegments _ _ _ h.tail⟩
    · exact gives_failAt _ _

end Leaves

section Expressions

variable {all : List Token} (stop : Token)

mutual

theorem leaves_parseBinary (level : Level) (ts : List Token) (h : Within all ts) :
    (parseBinary stop level ts).Leaves all := by
  rw [parseBinary]
  refine (leaves_parseOperand level ts h).bind fun left rest hlt hrest => ?_
  exact (leaves_parseOperators level left rest hrest).bind fun _ _ _ hrest' => ⟨trivial, hrest'⟩
termination_by (ts.length, 2 * level.height + 1)

theorem leaves_parseOperand (level : Level) (ts : List Token) (h : Within all ts) :
    (parseOperand stop level ts).Leaves all := by
  rw [parseOperand.eq_def]
  cases level with
  | conjunction => exact leaves_parseNot ts h
  | power => exact leaves_parseSigned ts h
  | _ => exact leaves_parseBinary _ ts h
termination_by (ts.length, 2 * level.height)
decreasing_by all_goals exact Prod.Lex.right _ (by decide)

theorem leaves_parseOperators (level : Level) (left : Expr) (ts : List Token) (h : Within all ts) :
    (parseOperators stop level left ts).Leaves all := by
  match ts with
  | [] =>
    rw [parseOperators]
    exact ⟨trivial, within_nil⟩
  | t :: ts =>
    rw [parseOperators]
    split
    · refine (leaves_parseOperand level ts h.tail).bind fun right rest hlt hrest => ?_
      exact (leaves_parseOperators level _ rest hrest).bind fun _ _ _ hrest' => ⟨trivial, hrest'⟩
    · exact ⟨trivial, h⟩
termination_by (ts.length, 0)
decreasing_by
  all_goals
    simp only [List.length_cons]
    exact Prod.Lex.left _ _ (by omega)

theorem leaves_parseNot (ts : List Token) (h : Within all ts) : (parseNot stop ts).Leaves all := by
  match ts with
  | [] =>
    rw [parseNot]
    exact leaves_parseBinary .comparison [] h
  | t :: rest =>
    rw [parseNot]
    split
    · exact (leaves_parseNot rest h.tail).bind fun _ _ _ hrest => ⟨trivial, hrest⟩
    · exact leaves_parseBinary .comparison (t :: rest) h
termination_by (ts.length, 16)
decreasing_by
  · exact Prod.Lex.right _ (by decide)
  · exact Prod.Lex.right _ (by decide)
  · exact Prod.Lex.left _ _ (Nat.lt_succ_self _)

theorem leaves_parseSigned (ts : List Token) (h : Within all ts) :
    (parseSigned stop ts).Leaves all := by
  match ts with
  | [] =>
    rw [parseSigned]
    exact leaves_parsePostfix [] h
  | t :: rest =>
    rw [parseSigned]
    split
    · exact (leaves_parseSigned rest h.tail).bind fun _ _ _ hrest => ⟨trivial, hrest⟩
    split
    · exact (leaves_parseSigned rest h.tail).bind fun _ _ _ hrest => ⟨trivial, hrest⟩
    · exact leaves_parsePostfix (t :: rest) h
termination_by (ts.length, 4)

theorem leaves_parsePostfix (ts : List Token) (h : Within all ts) :
    (parsePostfix stop ts).Leaves all := by
  rw [parsePostfix]
  refine (leaves_parsePrimary ts h).bind fun e rest hlt hrest => ?_
  exact (leaves_parseSuffixes e rest hrest).bind fun _ _ _ hrest' => ⟨trivial, hrest'⟩
termination_by (ts.length, 3)

theorem leaves_parseSuffixes (e : Expr) (ts : List Token) (h : Within all ts) :
    (parseSuffixes stop e ts).Leaves all := by
  match ts with
  | [] =>
    rw [parseSuffixes]
    exact ⟨trivial, within_nil⟩
  | t :: ts =>
    rw [parseSuffixes.eq_def]
    simp only
    split
    · match ts with
      | [] => exact gives_failAt _ _
      | n :: ts' =>
        simp only
        split
        · exact (leaves_parseSuffixes _ ts' h.tail.tail).bind fun _ _ _ hrest => ⟨trivial, hrest⟩
        · exact gives_failAt _ _
    split
    · refine (leaves_parseArguments ts h.tail).bind fun args rest hlt hrest => ?_
      exact (leaves_parseSuffixes _ rest hrest).bind fun _ _ _ hrest' => ⟨trivial, hrest'⟩
    · exact ⟨trivial, h⟩
termination_by (ts.length, 0)
decreasing_by
  all_goals
    simp only [List.length_cons]
    exact Prod.Lex.left _ _ (by omega)

theorem leaves_parseArguments (ts : List Token) (h : Within all ts) :
    (parseArguments stop ts).Leaves all := by
  rw [parseArguments]
  split
  · exact ⟨trivial, h.drop 1⟩
  · refine (leaves_parseBinary .disjunction ts h).bind fun first rest hlt hrest => ?_
    refine (leaves_parseMoreArguments rest hrest).bind fun others rest' hlt' hrest' => ?_
    exact (leaves_expect stop ")" hrest').bind fun _ _ _ hrest'' => ⟨trivial, hrest''⟩
termination_by (ts.length, 22)
decreasing_by
  · exact Prod.Lex.right _ (by decide)
  · exact Prod.Lex.left _ _ hlt

theorem leaves_parseMoreArguments (ts : List Token) (h : Within all ts) :
    (parseMoreArguments stop ts).Leaves all := by
  match ts with
  | [] =>
    rw [parseMoreArguments]
    exact ⟨trivial, within_nil⟩
  | t :: ts =>
    rw [parseMoreArguments]
    split
    · refine (leaves_parseBinary .disjunction ts h.tail).bind fun e rest hlt hrest => ?_
      exact (leaves_parseMoreArguments rest hrest).bind fun _ _ _ hrest' => ⟨trivial, hrest'⟩
    · exact ⟨trivial, h⟩
termination_by (ts.length, 0)
decreasing_by
  all_goals
    simp only [List.length_cons]
    exact Prod.Lex.left _ _ (by omega)

theorem leaves_parseNew (ts : List Token) (h : Within all ts) : (parseNew stop ts).Leaves all := by
  rw [parseNew]
  refine (leaves_parseTypeName stop h).bind fun name rest hlt hrest => ?_
  match rest, hlt, hrest with
  | [], _, _ => exact ⟨trivial, within_nil⟩
  | t :: rest, hlt, hrest =>
    simp only
    split
    · exact (leaves_parseArguments rest hrest.tail).bind fun _ _ _ hrest' => ⟨trivial, hrest'⟩
    · exact ⟨trivial, hrest⟩
termination_by (ts.length, 0)
decreasing_by
  simp only [List.length_cons] at hlt
  exact Prod.Lex.left _ _ (by omega)

theorem leaves_parsePrimary (ts : List Token) (h : Within all ts) :
    (parsePrimary stop ts).Leaves all := by
  match ts with
  | [] =>
    rw [parsePrimary]
    exact gives_failAt _ _
  | t :: rest =>
    rw [parsePrimary]
    split
    · next leaf hleaf =>
      cases leaf with
      | ok e => exact ⟨trivial, h.tail⟩
      | error failure =>
        obtain ⟨r, rfl, hr⟩ := isRefused_of_leafOf? hleaf
        exact ⟨t, h.head.1, hr⟩
    · split
      · exact (leaves_parseNew rest h.tail).bind fun _ _ _ hrest => ⟨trivial, hrest⟩
      split
      · refine (leaves_parseBinary .disjunction rest h.tail).bind fun e rest' hlt hrest => ?_
        exact (leaves_expect stop ")" hrest).bind fun _ _ _ hrest' => ⟨trivial, hrest'⟩
      split
      · exact gives_failAt _ _
      · exact gives_failAt _ _
termination_by (ts.length, 2)

end

theorem leaves_parseExpr {ts : List Token} (h : Within all ts) : (parseExpr stop ts).Leaves all :=
  leaves_parseBinary stop .disjunction ts h

end Expressions

/-- The line of a statement. -/
def Stmt.line : Stmt → Line
  | .dim _ _ _ line => line
  | .assign _ _ line => line
  | .call _ _ line => line
  | .cond _ _ _ _ line => line
  | .forLoop _ _ _ _ _ line => line
  | .whileLoop _ _ line => line
  | .doLoop _ _ _ _ line => line
  | .ret _ line => line
  | .exit _ line => line
  | .alien _ => none

/-- The blocks inside a statement. -/
def Stmt.blocks : Stmt → List (List Stmt)
  | .cond _ body elseIfs otherwise _ =>
    body :: otherwise :: elseIfs.map fun
      | .mk _ body => body
  | .forLoop _ _ _ _ body _ => [body]
  | .whileLoop _ body _ => [body]
  | .doLoop body _ _ _ _ => [body]
  | _ => []

/-- Whether a statement has a line, and so have all statements inside it. -/
inductive Stmt.Placed : Stmt → Prop where
  | intro {s : Stmt} (line : s.line.isSome = true)
    (blocks : ∀ body ∈ s.blocks, ∀ s' ∈ body, Placed s') : Placed s

/-- Whether all statements of a block have lines. -/
def PlacedBlock (ss : List Stmt) : Prop := ∀ s ∈ ss, s.Placed

theorem Stmt.Placed.of_line {s : Stmt} (h : s.line.isSome = true) (hblocks : s.blocks = []) :
    s.Placed :=
  .intro h fun _ hbody => absurd (hblocks ▸ hbody) List.not_mem_nil

theorem Stmt.Placed.of_block {s : Stmt} {body : List Stmt} (h : s.line.isSome = true)
    (hblocks : s.blocks = [body]) (hbody : PlacedBlock body) : s.Placed := by
  refine .intro h fun b hb => ?_
  rw [hblocks, List.mem_singleton] at hb
  exact hb ▸ hbody

section Statements

variable {all : List Token} (stop : Token) {line : Line} {ts : List Token}

theorem Within.dropWhen (h : Within all ts) (condition : Bool) (n : Nat) :
    Within all (dropWhen condition n ts) := by
  unfold FormBasic.dropWhen
  split
  · exact h.drop n
  · exact h

theorem Within.skipNewlines (h : Within all ts) : Within all (skipNewlines ts) :=
  h.of_subset (List.dropWhile_suffix _).subset

theorem Within.afterWend (h : Within all ts) : Within all (afterWend ts) := by
  unfold FormBasic.afterWend
  split
  · exact h.drop 1
  · exact h.dropWhen _ _

theorem leaves_parseClause (symbol : Text) (h : Within all ts) :
    (parseClause stop symbol ts).Leaves all := by
  unfold parseClause
  split
  · exact ⟨trivial, h⟩
  · split
    · exact (leaves_parseExpr stop h.tail).bind fun _ _ _ hrest => ⟨trivial, hrest⟩
    · exact ⟨trivial, h⟩

theorem leaves_parseAs (h : Within all ts) : (parseAs stop ts).Leaves all := by
  unfold parseAs
  split
  · exact (leaves_parseTypeName stop h).bind fun _ _ _ hrest => ⟨trivial, hrest⟩
  · split
    · exact (leaves_parseNew stop _ h.tail).bind fun _ _ _ hrest => ⟨trivial, hrest⟩
    · exact (leaves_parseTypeName stop h).bind fun _ _ _ hrest => ⟨trivial, hrest⟩

theorem leaves_parseType (h : Within all ts) : (parseType stop ts).Leaves all := by
  unfold parseType
  split
  · exact ⟨trivial, h⟩
  · split
    · exact (leaves_parseAs stop h.tail).bind fun _ _ _ hrest => ⟨trivial, hrest⟩
    · exact ⟨trivial, h⟩

theorem gives_parseDim (hline : line.isSome = true) (h : Within all ts) :
    (parseDim stop line ts).Gives all Stmt.Placed := by
  unfold parseDim
  split
  · exact gives_failAt _ _
  · split
    · refine (leaves_parseType stop h.tail).bind fun _ rest _ hrest => ?_
      exact (leaves_parseClause stop "=" hrest).bind fun _ _ _ hrest' => ⟨.of_line hline rfl, hrest'⟩
    · exact gives_failAt _ _

theorem gives_parseReturn (hline : line.isSome = true) (h : Within all ts) :
    (parseReturn stop line ts).Gives all Stmt.Placed := by
  unfold parseReturn
  split
  · exact ⟨.of_line hline rfl, h⟩
  · exact (leaves_parseExpr stop h).bind fun _ _ _ hrest => ⟨.of_line hline rfl, hrest⟩

theorem placed_parseExit (hline : line.isSome = true) (h : Within all ts) :
    (parseExit line ts).value.Placed ∧ Within all (parseExit line ts).rest := by
  unfold parseExit
  split
  · exact ⟨.of_line hline rfl, h⟩
  · split
    · exact ⟨.of_line hline rfl, h⟩
    · exact ⟨.of_line hline rfl, h.tail⟩

theorem leaves_parseLoopTest (h : Within all ts) : (parseLoopTest stop ts).Leaves all := by
  unfold parseLoopTest
  split
  · exact ⟨trivial, h⟩
  · split
    · split
      · exact ⟨trivial, within_nil⟩
      · split
        · exact (leaves_parseExpr stop h.tail.tail).bind fun _ _ _ hrest => ⟨trivial, hrest⟩
        · exact ⟨trivial, h.tail⟩
    · exact ⟨trivial, h⟩

theorem leaves_parseClassicArguments (h : Within all ts) :
    (parseClassicArguments stop ts).Leaves all := by
  unfold parseClassicArguments
  split
  · exact ⟨trivial, h⟩
  · refine (leaves_parseExpr stop h).bind fun _ _ _ hrest => ?_
    exact (leaves_parseMoreArguments stop _ hrest).bind fun _ _ _ hrest' => ⟨trivial, hrest'⟩

theorem gives_parseExprStatement (hline : line.isSome = true) (h : Within all ts) :
    (parseExprStatement stop line ts).Gives all fun s => ∀ s' ∈ s, s'.Placed := by
  have hsome : ∀ {s : Stmt}, s.Placed → ∀ s' ∈ some s, s'.Placed :=
    fun hs s' hs' => Option.mem_some.1 hs' ▸ hs
  have hnone : ∀ s' ∈ (none : Option Stmt), s'.Placed := fun _ h => absurd h (Option.not_mem_none _)
  unfold parseExprStatement
  refine (leaves_parsePostfix stop ts h).bind fun target rest _ hrest => ?_
  simp only
  split
  · exact (leaves_parseExpr stop (hrest.drop 1)).bind fun _ _ _ hrest' =>
      ⟨hsome (.of_line hline rfl), hrest'⟩
  · refine (leaves_parseExpr stop h).bind fun e rest' _ hrest' => ?_
    simp only
    split
    · exact ⟨hsome (.of_line hline rfl), hrest'⟩
    · split
      · exact (leaves_parseClassicArguments stop hrest').bind fun _ _ _ hrest'' =>
          ⟨hsome (.of_line hline rfl), hrest''⟩
      · exact ⟨hnone, hrest'⟩

end Statements

section Blocks

variable {all : List Token} (stop : Token)

theorem PlacedBlock.append {ss ss' : List Stmt} (h : PlacedBlock ss) (h' : PlacedBlock ss') :
    PlacedBlock (ss ++ ss') := by
  intro s hs
  rcases List.mem_append.1 hs with hs | hs
  · exact h s hs
  · exact h' s hs

theorem placedBlock_toList {s : Option Stmt} (h : ∀ s' ∈ s, s'.Placed) : PlacedBlock s.toList :=
  fun s' hs' => h s' (Option.mem_toList.1 hs')

theorem placedBlock_nil : PlacedBlock [] := fun _ h => absurd h List.not_mem_nil

/-- Whether all statements of further branches have lines. -/
def PlacedElseIfs (clauses : List ElseIf) : Prop :=
  ∀ body ∈ clauses.map fun
    | .mk _ body => body, PlacedBlock body

theorem Stmt.Placed.cond {test : Expr} {body otherwise : List Stmt} {elseIfs : List ElseIf}
    {line : Line} (hline : line.isSome = true) (hbody : PlacedBlock body)
    (helseIfs : PlacedElseIfs elseIfs) (hotherwise : PlacedBlock otherwise) :
    (Stmt.cond test body elseIfs otherwise line).Placed := by
  refine .intro hline fun b hb => ?_
  rcases List.mem_cons.1 hb with rfl | hb
  · exact hbody
  rcases List.mem_cons.1 hb with rfl | hb
  · exact hotherwise
  · exact helseIfs b hb

mutual

/-- Every statement has the line of a token. -/
theorem gives_parseStatement (t : Token) (ts : List Token) (h : Within all (t :: ts)) :
    (parseStatement stop t ts).Gives all fun s => ∀ s' ∈ s, s'.Placed := by
  have hline : t.line.isSome = true := h.head.2
  have hsome : ∀ {s : Stmt}, s.Placed → ∀ s' ∈ some s, s'.Placed :=
    fun hs s' hs' => Option.mem_some.1 hs' ▸ hs
  rw [parseStatement]
  split
  · exact (gives_parseDim stop hline h.tail).bind fun _ _ _ hs hrest => ⟨hsome hs, hrest⟩
  split
  · exact (gives_parseCond t.line ts hline h.tail).bind fun _ _ _ hs hrest => ⟨hsome hs, hrest⟩
  split
  · exact (gives_parseFor t.line ts hline h.tail).bind fun _ _ _ hs hrest => ⟨hsome hs, hrest⟩
  split
  · exact (gives_parseWhile t.line ts hline h.tail).bind fun _ _ _ hs hrest => ⟨hsome hs, hrest⟩
  split
  · exact (gives_parseDo t.line ts hline h.tail).bind fun _ _ _ hs hrest => ⟨hsome hs, hrest⟩
  split
  · exact (gives_parseReturn stop hline h.tail).bind fun _ _ _ hs hrest => ⟨hsome hs, hrest⟩
  split
  · obtain ⟨hs, hrest⟩ := placed_parseExit hline h.tail
    exact ⟨hsome hs, hrest⟩
  split
  · exact ⟨fun _ hs => absurd hs (Option.not_mem_none _), h.tail.dropWhen _ _⟩
  · exact gives_parseExprStatement stop hline h
termination_by (ts.length, 2)

theorem gives_parseCond (line : Line) (ts : List Token) (hline : line.isSome = true)
    (h : Within all ts) : (parseCond stop line ts).Gives all Stmt.Placed := by
  rw [parseCond]
  refine (leaves_parseExpr stop h).bind fun test rest hlt hrest => ?_
  refine (leaves_expect stop "then" hrest).bind fun _ rest' hlt' hrest' => ?_
  match rest', hlt', hrest' with
  | [], _, _ =>
    exact ⟨.cond hline placedBlock_nil (fun _ h => absurd h List.not_mem_nil) placedBlock_nil,
      within_nil⟩
  | t :: rest', hlt', hrest' =>
    simp only
    split
    · refine (gives_parseBlock .branch (t :: rest') hrest').bind fun body r hr hbody hplaced => ?_
      refine (gives_parseElseIfs r hplaced).bind fun elseIfs r' hr' helseIfs hplaced' => ?_
      refine (gives_parseElse r' hplaced').bind fun otherwise r'' hr'' hotherwise hplaced'' => ?_
      exact ⟨.cond hline hbody helseIfs hotherwise, hplaced''.dropWhen _ _⟩
    · refine (gives_parseStatement t rest' hrest').bind fun first r hr hfirst hplaced => ?_
      simp only
      split
      · refine (gives_parseSingle (r.drop 1) (hplaced.drop 1)).bind fun second r' hr' hsecond
          hplaced' => ?_
        exact ⟨.cond hline (placedBlock_toList hfirst) (fun _ h => absurd h List.not_mem_nil)
          hsecond, hplaced'⟩
      · exact ⟨.cond hline (placedBlock_toList hfirst) (fun _ h => absurd h List.not_mem_nil)
          placedBlock_nil, hplaced⟩
termination_by (ts.length, 1)
decreasing_by
  all_goals
    simp only [List.length_cons, List.length_drop] at *
    exact Prod.Lex.left _ _ (by omega)

theorem gives_parseElseIfs (ts : List Token) (h : Within all ts) :
    (parseElseIfs stop ts).Gives all PlacedElseIfs := by
  match ts with
  | [] =>
    rw [parseElseIfs]
    exact ⟨fun _ h => absurd h List.not_mem_nil, within_nil⟩
  | t :: ts =>
    rw [parseElseIfs]
    split
    · refine (leaves_parseExpr stop h.tail).bind fun test rest hlt hrest => ?_
      refine (leaves_expect stop "then" hrest).bind fun _ rest' hlt' hrest' => ?_
      refine (gives_parseBlock .branch rest' hrest').bind fun body r hr hbody hplaced => ?_
      refine (gives_parseElseIfs r hplaced).bind fun others r' hr' hothers hplaced' => ?_
      refine ⟨fun b hb => ?_, hplaced'⟩
      rcases List.mem_cons.1 hb with rfl | hb
      · exact hbody
      · exact hothers b hb
    · exact ⟨fun _ h => absurd h List.not_mem_nil, h⟩
termination_by (ts.length, 1)
decreasing_by
  all_goals
    simp only [List.length_cons]
    exact Prod.Lex.left _ _ (by omega)

theorem gives_parseElse (ts : List Token) (h : Within all ts) :
    (parseElse stop ts).Gives all PlacedBlock := by
  match ts with
  | [] =>
    rw [parseElse]
    exact ⟨placedBlock_nil, within_nil⟩
  | t :: ts =>
    rw [parseElse]
    split
    · exact (gives_parseBlock .lastBranch ts h.tail).bind fun _ _ _ hbody hrest => ⟨hbody, hrest⟩
    · exact ⟨placedBlock_nil, h⟩
termination_by (ts.length, 1)

theorem gives_parseFor (line : Line) (ts : List Token) (hline : line.isSome = true)
    (h : Within all ts) : (parseFor stop line ts).Gives all Stmt.Placed := by
  match ts with
  | [] =>
    rw [parseFor]
    exact gives_failAt _ _
  | v :: ts =>
    rw [parseFor]
    split
    · refine (leaves_expect stop "=" h.tail).bind fun _ r₁ h₁ hr₁ => ?_
      refine (leaves_parseExpr stop hr₁).bind fun start r₂ h₂ hr₂ => ?_
      refine (leaves_expect stop "to" hr₂).bind fun _ r₃ h₃ hr₃ => ?_
      refine (leaves_parseExpr stop hr₃).bind fun last r₄ h₄ hr₄ => ?_
      refine (leaves_parseClause stop "step" hr₄).bind fun step r₅ h₅ hr₅ => ?_
      refine (gives_parseBlock .forBody r₅ hr₅).bind fun body r₆ h₆ hbody hr₆ => ?_
      exact ⟨.of_block hline rfl hbody, hr₆.dropWhen _ _⟩
    · exact gives_failAt _ _
termination_by (ts.length, 1)
decreasing_by
  simp only [List.length_cons]
  exact Prod.Lex.left _ _ (by omega)

theorem gives_parseWhile (line : Line) (ts : List Token) (hline : line.isSome = true)
    (h : Within all ts) : (parseWhile stop line ts).Gives all Stmt.Placed := by
  rw [parseWhile]
  refine (leaves_parseExpr stop h).bind fun test rest hlt hrest => ?_
  refine (gives_parseBlock .whileBody rest hrest).bind fun body rest' hlt' hbody hrest' => ?_
  exact ⟨.of_block hline rfl hbody, hrest'.afterWend⟩
termination_by (ts.length, 1)

theorem gives_parseDo (line : Line) (ts : List Token) (hline : line.isSome = true)
    (h : Within all ts) : (parseDo stop line ts).Gives all Stmt.Placed := by
  rw [parseDo]
  split
  · exact gives_failAt _ _
  · refine (gives_parseBlock .doBody ts h).bind fun body rest hlt hbody hrest => ?_
    exact (leaves_parseLoopTest stop hrest).bind fun _ _ _ hrest' => ⟨.of_block hline rfl hbody, hrest'⟩
termination_by (ts.length, 1)

theorem gives_parseBlock (closer : Closer) (ts : List Token) (h : Within all ts) :
    (parseBlock stop closer ts).Gives all PlacedBlock := by
  rw [parseBlock]
  match skipNewlines ts, length_skipNewlines_le ts, h.skipNewlines with
  | [], _, _ => exact ⟨placedBlock_nil, within_nil⟩
  | t :: rest, hlt, hskip =>
    simp only
    split
    · exact ⟨placedBlock_nil, hskip⟩
    · refine (gives_parseStatement t rest hskip).bind fun first r hr hfirst hplaced => ?_
      refine (gives_parseBlock closer r hplaced).bind fun others r' hr' hothers hplaced' => ?_
      exact ⟨(placedBlock_toList hfirst).append hothers, hplaced'⟩
termination_by (ts.length, 0)
decreasing_by
  all_goals
    simp only [List.length_cons] at hlt
    exact Prod.Lex.left _ _ (by omega)

theorem gives_parseSingle (ts : List Token) (h : Within all ts) :
    (parseSingle stop ts).Gives all PlacedBlock := by
  rw [parseSingle]
  match skipNewlines ts, length_skipNewlines_le ts, h.skipNewlines with
  | [], _, _ => exact ⟨placedBlock_nil, within_nil⟩
  | t :: rest, hlt, hskip =>
    exact (gives_parseStatement t rest hskip).bind fun _ _ _ hfirst hplaced =>
      ⟨placedBlock_toList hfirst, hplaced⟩
termination_by (ts.length, 0)
decreasing_by
  simp only [List.length_cons] at hlt
  exact Prod.Lex.left _ _ (by omega)

end

theorem leaves_parseHandles (ts : List Token) (h : Within all ts) :
    (parseHandles stop ts).Leaves all := by
  match ts with
  | [] =>
    rw [parseHandles]
    exact ⟨trivial, within_nil⟩
  | [owner] =>
    rw [parseHandles]
    split
    · exact ⟨trivial, h⟩
    · exact gives_failAt _ _
  | owner :: point :: ts =>
    rw [parseHandles]
    split
    · exact ⟨trivial, h⟩
    · simp only
      split
      · exact gives_failAt _ _
      · split
        · exact (leaves_parseHandles (ts.drop 2) (h.tail.tail.drop 2)).bind fun _ _ _ hrest =>
            ⟨trivial, hrest⟩
        · exact ⟨trivial, h.tail.tail.drop 1⟩
termination_by ts.length
decreasing_by
  simp only [List.length_cons, List.length_drop]
  omega

theorem leaves_parseHeader (ts : List Token) (h : Within all ts) :
    (parseHeader stop ts).Leaves all := by
  match ts with
  | [] =>
    rw [parseHeader]
    exact ⟨trivial, within_nil⟩
  | t :: ts =>
    rw [parseHeader]
    split
    · exact ⟨trivial, h⟩
    · split
      · refine (leaves_parseHandles stop ts h.tail).bind fun keys rest hlt hrest => ?_
        exact (leaves_parseHeader rest hrest).bind fun _ _ _ hrest' => ⟨trivial, hrest'⟩
      · exact (leaves_parseHeader ts h.tail).bind fun _ _ _ hrest => ⟨trivial, hrest⟩
termination_by ts.length

theorem Within.afterParameters {ts : List Token} (h : Within all ts) :
    Within all (afterParameters ts) := by
  have hskip : ∀ depth, ∀ us : List Token, Within all us → Within all (skipParentheses depth us) := by
    intro depth us hus
    fun_induction skipParentheses depth us with
    | case1 => exact within_nil
    | case2 depth t ts ht ih => exact ih hus.tail
    | case3 => exact hus.tail
    | case4 depth t ts ht ht' hdepth ih => exact ih hus.tail
    | case5 depth t ts ht ht' ih => exact ih hus.tail
  unfold FormBasic.afterParameters
  split
  · exact hskip 0 ts h
  · exact h

theorem gives_parseSub (word : Token) {ts : List Token} (h : Within all ts) :
    (parseSub stop word ts).Gives all fun made => PlacedBlock made.2 := by
  match ts with
  | [] => exact gives_failAt _ _
  | name :: ts =>
    rw [parseSub]
    split
    · refine (leaves_parseHeader stop _ h.tail.afterParameters).bind fun keys rest _ hrest => ?_
      refine (gives_parseBlock stop .handler rest hrest).bind fun body rest' _ hbody hrest' => ?_
      exact ⟨hbody, hrest'.dropWhen _ _⟩
    · exact gives_failAt _ _

/-- Whether all statements of all handlers have lines. -/
def PlacedHandlers (handlers : Table (List Stmt)) : Prop :=
  ∀ key body, handlers.get? key = some body → PlacedBlock body

theorem PlacedHandlers.set {handlers : Table (List Stmt)} (h : PlacedHandlers handlers) (key : Text)
    {body : List Stmt} (hbody : PlacedBlock body) : PlacedHandlers (handlers.set key body) := by
  intro key' body' hget
  rw [Table.get?_set] at hget
  split at hget
  · cases hget
    exact hbody
  · exact h key' body' hget

theorem PlacedHandlers.addHandlers {p : Program} (h : PlacedHandlers p.handlers) (keys : List Text)
    {body : List Stmt} (hbody : PlacedBlock body) :
    PlacedHandlers (p.addHandlers keys body).handlers := by
  change PlacedHandlers (keys.foldl _ p.handlers)
  generalize p.handlers = handlers at h
  induction keys generalizing handlers with
  | nil => exact h
  | cons key keys ih => exact ih _ (h.set key hbody)

theorem reads_parseItems (p : Program) (hp : PlacedHandlers p.handlers)
    (ts : List Token) (h : Within all ts) :
    Reads all (fun q => PlacedHandlers q.handlers) (parseItems stop p ts) := by
  rw [parseItems]
  match skipNewlines ts, length_skipNewlines_le ts, h.skipNewlines with
  | [], _, _ => exact hp
  | t :: rest, hle, hskip =>
    have hdrop := length_dropWhen_le (!atStatementEnd rest) 1 rest
    have hwhile := length_dropWhile_le (fun t : Token => !t.endsStatement) rest
    have hone : (rest.drop 1).length ≤ rest.length := (List.drop_sublist 1 rest).length_le
    have hlength : rest.length < ts.length := hle
    simp only
    split
    · exact reads_parseItems p hp rest hskip.tail
    split
    · exact reads_parseItems p hp _ (hskip.tail.dropWhen _ _)
    split
    · exact reads_parseItems p hp _ (hskip.tail.drop 1)
    split
    · refine (gives_parseSub stop t hskip.tail).reads fun made rest' hlt hbody hrest => ?_
      exact reads_parseItems _ (hp.addHandlers made.1 hbody) rest' hrest
    split
    · exact reads_parseItems p hp _ (hskip.tail.of_subset (List.dropWhile_suffix _).subset)
    · refine (gives_parseStatement stop t rest hskip).reads fun stmt rest' hlt _ hrest => ?_
      exact reads_parseItems { p with declarations := p.declarations ++ stmt.toList } hp
        rest' hrest
termination_by ts.length
decreasing_by all_goals omega

end Blocks

theorem isSome_line_of_mem_scanFrom (line col : Nat) (cs : List CodePoint) :
    ∀ t ∈ Token.scanFrom line col cs, t.line.isSome = true := by
  fun_induction Token.scanFrom line col cs with
  | case1 line col =>
    intro t ht
    rw [List.mem_singleton.1 ht]
    rfl
  | case2 line col c cs hlex ih => exact ih
  | case3 line col c cs l hlex token hkind ih =>
    intro t ht
    rcases List.mem_cons.1 ht with rfl | ht
    · rfl
    · exact ih t ht
  | case4 line col c cs l hlex token hkind ih =>
    intro t ht
    rcases List.mem_cons.1 ht with rfl | ht
    · rfl
    · exact ih t ht

theorem within_tokens (source : Text) :
    Within (Stream.ofSource source).tokens (Stream.ofSource source).tokens :=
  fun t ht => ⟨ht, isSome_line_of_mem_scanFrom 1 1 source.toList t (mem_scan_of_mem_tokens ht)⟩

theorem reads_parseBody (source : Text) :
    Reads (Stream.ofSource source).tokens PlacedBlock (parseBody source) :=
  (gives_parseBlock (Stream.ofSource source).stop .handler _ (within_tokens source)).reads
    fun _ _ _ hbody _ => hbody

theorem Program.reads_parse (source : Text) :
    Reads (Stream.ofSource source).tokens (fun p => PlacedHandlers p.handlers)
      (Program.parse source) :=
  reads_parseItems (Stream.ofSource source).stop {} (fun _ _ hget => by cases hget) _
    (within_tokens source)

theorem Expr.reads_parse (source : Text) :
    Reads (Stream.ofSource source).tokens (fun _ => True) (Expr.parse source) := by
  refine (leaves_parseExpr (Stream.ofSource source).stop
    (within_tokens source).skipNewlines).reads fun e rest _ _ _ => ?_
  simp only
  split
  · trivial
  · trivial

/-- All statements of a body that parses have lines. -/
theorem placedBlock_of_parseBody {source : Text} {body : List Stmt}
    (h : parseBody source = .ok body) : PlacedBlock body := by
  have hreads := reads_parseBody source
  rw [h] at hreads
  exact hreads

/-- All statements of all handlers of a module that parses have lines. -/
theorem placedHandlers_of_parse {source : Text} {p : Program} (h : Program.parse source = .ok p) :
    PlacedHandlers p.handlers := by
  have hreads := Program.reads_parse source
  rw [h] at hreads
  exact hreads

/-- Whether a body comes from a source, by itself or as a handler of a module. -/
inductive IsParsed : List Stmt → Prop where
  | body {source : Text} {body : List Stmt} (h : parseBody source = .ok body) : IsParsed body
  | handler {source : Text} {p : Program} {key : Text} {body : List Stmt}
    (h : Program.parse source = .ok p) (hkey : p.handlers.get? key = some body) : IsParsed body

theorem IsParsed.placed {body : List Stmt} (h : IsParsed body) : PlacedBlock body := by
  cases h with
  | body h => exact placedBlock_of_parseBody h
  | handler h hkey => exact placedHandlers_of_parse h _ _ hkey

/-- What is refused is a number of the text. -/
theorem Reads.exists_isRefused {α : Type} {all : List Token} {P : α → Prop}
    {result : Except ParseFailure α} (h : Reads all P result) {refusal : Refusal}
    (hrefused : result = .error (.refused refusal)) : ∃ t ∈ all, t.IsRefused refusal := by
  rw [hrefused] at h
  exact h

/-- A body that is refused holds a number that cannot be read. -/
theorem isUnreadable_of_parseBody {source : Text} {refusal : Refusal}
    (h : parseBody source = .error (.refused refusal)) : refusal.isUnreadable = true := by
  obtain ⟨t, -, ht⟩ := (reads_parseBody source).exists_isRefused h
  exact ht.isUnreadable

/-- An expression that is refused holds a number that cannot be read. -/
theorem Expr.isUnreadable_of_parse {source : Text} {refusal : Refusal}
    (h : Expr.parse source = .error (.refused refusal)) : refusal.isUnreadable = true := by
  obtain ⟨t, -, ht⟩ := (Expr.reads_parse source).exists_isRefused h
  exact ht.isUnreadable

end FormBasic
