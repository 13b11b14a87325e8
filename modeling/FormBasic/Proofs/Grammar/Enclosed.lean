import FormBasic.Proofs.Grammar.Beside

/-!
# Blocks inside a handler

The parsers of statements and blocks are followed through the two runs of `Beside`. A block that is
open when the body ends is closed in both runs: where the body stands by itself because no token is
left, and inside a module because the end of a handler closes every block. So the runs give the same
statements, apart from the lines they start on. They read the same literals, so the trees without
their lines are equal here, and not only equal in value as for `Stmt.same`.

## Main definitions

* `Stmt.unplaced`, `unplacedBlock` - statements without their lines
* `AtClose`, `Past`, `Onward` - where the two runs are after a block, after a statement and before a
  block

## Main statements

* `alike_parseStatement`, `alike_parseBlock` - statements and blocks
-/

namespace FormBasic

open Token (Content)

-- ════════════════════════════════════════════════════════════════════════════
-- Statements without their lines
-- ════════════════════════════════════════════════════════════════════════════

mutual

/-- A statement without its line and the lines of the statements inside it. -/
def Stmt.unplaced : Stmt → Stmt
  | .dim name typeName initial _ => .dim name typeName initial none
  | .assign target value _ => .assign target value none
  | .call target args _ => .call target args none
  | .cond test body elseIfs otherwise _ =>
    .cond test (unplacedBlock body) (unplacedElseIfs elseIfs) (unplacedBlock otherwise) none
  | .forLoop counter start stop step body _ =>
    .forLoop counter start stop step (unplacedBlock body) none
  | .whileLoop test body _ => .whileLoop test (unplacedBlock body) none
  | .doLoop body test ending testAtEnd _ => .doLoop (unplacedBlock body) test ending testAtEnd none
  | .ret value _ => .ret value none
  | .exit what _ => .exit what none
  | .alien kind => .alien kind
termination_by structural s => s

/-- A block without the lines of its statements. -/
def unplacedBlock : List Stmt → List Stmt
  | [] => []
  | s :: ss => s.unplaced :: unplacedBlock ss
termination_by structural ss => ss

/-- Further branches without the lines of their statements. -/
def unplacedElseIfs : List ElseIf → List ElseIf
  | [] => []
  | e :: es => e.unplaced :: unplacedElseIfs es
termination_by structural es => es

/-- A further branch without the lines of its statements. -/
def ElseIf.unplaced : ElseIf → ElseIf
  | .mk test body => .mk test (unplacedBlock body)
termination_by structural e => e

end

theorem unplacedBlock_append (ss ss' : List Stmt) :
    unplacedBlock (ss ++ ss') = unplacedBlock ss ++ unplacedBlock ss' := by
  induction ss with
  | nil => rfl
  | cons s ss ih => simp only [List.cons_append, unplacedBlock, ih]

/-- Statements that differ in lines at most. -/
def Stmt.Matches (s s' : Stmt) : Prop := s'.unplaced = s.unplaced

/-- Blocks that differ in lines at most. -/
def MatchingBlocks (ss ss' : List Stmt) : Prop := unplacedBlock ss' = unplacedBlock ss

/-- What two statement parsers give: nothing in both, or statements that differ in lines at most. -/
def MatchingSteps (o o' : Option Stmt) : Prop := MatchingBlocks o.toList o'.toList

/-- Further branches that differ in lines at most. -/
def MatchingElseIfs (es es' : List ElseIf) : Prop := unplacedElseIfs es' = unplacedElseIfs es

theorem MatchingBlocks.append {ss ss' rs rs' : List Stmt} (h : MatchingBlocks ss ss')
    (h' : MatchingBlocks rs rs') : MatchingBlocks (ss ++ rs) (ss' ++ rs') := by
  rw [MatchingBlocks, unplacedBlock_append, unplacedBlock_append, h, h']

theorem Stmt.Matches.some {s s' : Stmt} (h : s.Matches s') :
    MatchingSteps (Option.some s) (Option.some s') :=
  congrArg (fun s => [s]) h

-- ════════════════════════════════════════════════════════════════════════════
-- Places before and after blocks
-- ════════════════════════════════════════════════════════════════════════════

/-- After a block: at the end of the handler, or in front of what closes the block. -/
inductive AtClose (ends : List Token) (closes : List Token → Bool) :
    List Token → List Token → Prop
  | ended : AtClose ends closes [] ends
  | word {place : Place} {ts us : List Token} (h : Beside ends place ts us)
    (hcloses : closes ts = true) : AtClose ends closes ts us

/-- After a statement: at the end of the handler, or in the line. -/
inductive Past (ends : List Token) : List Token → List Token → Prop
  | ended : Past ends [] ends
  | midway {ts us : List Token} (h : Midway ends ts us) : Past ends ts us

/-- Before a block: at the end of the handler, or anywhere in the body. -/
inductive Onward (ends : List Token) : List Token → List Token → Prop
  | ended : Onward ends [] ends
  | beside {place : Place} {ts us : List Token} (h : Beside ends place ts us) : Onward ends ts us

theorem Midway.onward {ends ts us : List Token} (h : Midway ends ts us) : Onward ends ts us := by
  obtain ⟨_, -, hb⟩ := h
  exact .beside hb

theorem Past.onward {ends ts us : List Token} (h : Past ends ts us) : Onward ends ts us := by
  cases h with
  | ended => exact .ended
  | midway h => exact h.onward

section HandlerEnd

variable {ends : List Token} (hends : atHandlerEnd ends = true)
include hends

/-- No other words than `End` are next at the end of a handler. -/
theorem nextIs_of_atHandlerEnd {texts : List Text} (ht : ("end" : Text) ∉ texts) :
    nextIs ends texts = false := by
  rw [atHandlerEnd, atEndOf, Bool.and_eq_true] at hends
  obtain ⟨t, rest, rfl, htoken⟩ := exists_of_nextIs hends.1
  have hend : t.isSymbol "end" = true := by simpa [Token.isAnyOf] using htoken
  rw [nextIs_cons, Token.isAnyOf, List.any_eq_false]
  intro s hs
  rw [isSymbol_of_isSymbol hend fun h => ht (h ▸ hs)]
  exact Bool.false_ne_true

/-- The end of a handler is no other end. -/
theorem atEndOf_of_atHandlerEnd {word : Text} (hsub : ("sub" : Text) ≠ word)
    (hfunction : ("function" : Text) ≠ word) : atEndOf ends [word] = false := by
  rw [atHandlerEnd, atEndOf, Bool.and_eq_true] at hends
  obtain ⟨t, rest, hrest, htoken⟩ := exists_of_nextIs hends.2
  rw [atEndOf, hrest, nextIs_cons, Bool.and_eq_false_iff]
  refine .inr ?_
  obtain ⟨s, hs, hsym⟩ := Token.isAnyOf_eq_true_iff.1 htoken
  simp only [Token.isAnyOf, List.any_cons, List.any_nil, Bool.or_false]
  simp only [List.mem_cons, List.not_mem_nil, or_false] at hs
  rcases hs with rfl | rfl
  · exact isSymbol_of_isSymbol hsym hsub
  · exact isSymbol_of_isSymbol hsym hfunction

theorem skipNewlines_of_atHandlerEnd : skipNewlines ends = ends :=
  @Ends.skipNewlines .handler ends (.inr (by rw [hends]; rfl))

/-- The two runs pass over what closes a conditional. -/
theorem AtClose.afterEndIf {ts us : List Token} (h : AtClose ends Closer.lastBranch.closes ts us) :
    Past ends (afterEndIf ts) (afterEndIf us) := by
  cases h with
  | ended =>
    rw [FormBasic.afterEndIf, FormBasic.afterEndIf,
      atEndOf_of_atHandlerEnd hends (by decide) (by decide)]
    exact .ended
  | word h hcloses =>
    have hend : atEndOf ts ["if"] = true := hcloses
    rw [FormBasic.afterEndIf, FormBasic.afterEndIf, h.atEndOf, hend]
    exact .midway (h.drop_two hend)

/-- The two runs pass over what closes a counting loop. -/
theorem AtClose.afterNext {ts us : List Token} (h : AtClose ends Closer.forBody.closes ts us) :
    Past ends (afterNext ts) (afterNext us) := by
  cases h with
  | ended =>
    rw [FormBasic.afterNext, FormBasic.afterNext, nextIs_of_atHandlerEnd hends (by decide)]
    exact .ended
  | word h hcloses =>
    have hnext : nextIs ts ["next"] = true := hcloses
    have hrest := h.drop_one hnext
    obtain ⟨_, -, hb⟩ := hrest.exists_beside
    rw [FormBasic.afterNext, FormBasic.afterNext, h.nextIs, hnext,
      hb.any_head offLineEnds_identifier fun _ _ same => congrArg (· == _) (Token.kind_congr same)]
    -- the counter may be named after the word
    cases hnamed : (ts.drop 1).head?.any fun t => t.kind == .identifier with
    | false => exact .midway hrest
    | true =>
      have hdrop := hb.drop_head offLineEnds_identifier hnamed
      rw [List.drop_drop, List.drop_drop] at hdrop
      exact .midway hdrop

/-- The two runs pass over what closes a loop with its test in front. -/
theorem AtClose.afterWend {ts us : List Token} (h : AtClose ends Closer.whileBody.closes ts us) :
    Past ends (afterWend ts) (afterWend us) := by
  cases h with
  | ended =>
    rw [FormBasic.afterWend, FormBasic.afterWend, nextIs_of_atHandlerEnd hends (by decide),
      atEndOf_of_atHandlerEnd hends (by decide) (by decide)]
    exact .ended
  | word h hcloses =>
    rw [FormBasic.afterWend, FormBasic.afterWend, h.nextIs, h.atEndOf]
    split
    · next hnext => exact .midway (h.drop_one hnext)
    · next hnext =>
      have hend : atEndOf ts ["while"] = true := by
        simpa [Closer.closes, hnext] using hcloses
      rw [hend]
      exact .midway (h.drop_two hend)

end HandlerEnd

-- ════════════════════════════════════════════════════════════════════════════
-- Simple statements
-- ════════════════════════════════════════════════════════════════════════════

section Simple

variable {stop stop' : Token} {ends ts us : List Token}

theorem plain_parseClause_stop {symbol : Text} (h : nextIs ts [symbol] = false) :
    (parseClause stop symbol ts).plain = .ok (none, ts) := by
  cases ts with
  | nil => rw [parseClause]; rfl
  | cons t ts =>
    rw [plain_parseClause_cons, isSymbol_of_nextIs h (List.mem_singleton.2 rfl)]
    rfl

theorem plain_parseType_stop (h : nextIs ts ["as"] = false) :
    (parseType stop ts).plain = .ok ((defaultType, none), ts) := by
  cases ts with
  | nil => rw [parseType]; rfl
  | cons t ts =>
    rw [plain_parseType_cons, isSymbol_of_nextIs h (List.mem_singleton.2 rfl)]
    rfl

theorem plain_parseAs_stop (h : nextIs ts ["new"] = false) :
    (parseAs stop ts).plain = (do
      let (name, rest) ← (parseTypeName stop ts).plain
      return ((name, none), rest)) := by
  cases ts with
  | nil => rfl
  | cons t ts => exact plain_parseAs_name stop (isSymbol_of_nextIs h (List.mem_singleton.2 rfl)) ts

theorem plain_parseLoopTest_stop {t : Token} (ht : t.isSymbol "loop" = true)
    (h : nextIs ts ["until", "while"] = false) :
    (parseLoopTest stop (t :: ts)).plain = .ok ((none, true), ts) := by
  cases ts with
  | nil => rw [parseLoopTest, if_pos ht]; rfl
  | cons u ts => exact plain_parseLoopTest_bare stop ht h ts

theorem exists_plain_parseDim_error (stop : Token) (line : Line) (h : AtLineEnd ts) :
    ∃ e, (parseDim stop line ts).plain = .error e := by
  cases ts with
  | nil => exact ⟨_, rfl⟩
  | cons t ts =>
    rw [plain_parseDim_cons, h t rfl, if_neg Token.Kind.noConfusion]
    exact ⟨_, rfl⟩

variable (stop stop')

theorem alike_parseClause (symbol : Text) (h : Midway ends ts us) :
    Alike Eq (Midway ends) (parseClause stop symbol ts).plain
      (parseClause stop' symbol us).plain := by
  obtain ⟨_, -, hb⟩ := h.exists_beside
  cases hb.abreast with
  | line hts hus =>
    rw [plain_parseClause_stop (hts.nextIs _), plain_parseClause_stop (hus.nextIs _)]
    exact .ok rfl h
  | token _ same _ _ tail _ =>
    rw [plain_parseClause_cons, plain_parseClause_cons, Token.isSymbol_congr same]
    split
    · refine (alike_parseExpr stop stop' tail).bind ?_
      rintro e _ rest rest' - rfl hrest
      exact .ok rfl hrest
    · exact .ok rfl h

theorem alike_parseAs (h : Beside ends .inType ts us) :
    Alike Eq (Midway ends) (parseAs stop ts).plain (parseAs stop' us).plain := by
  have hname : Alike Eq (Midway ends)
      (do
        let (name, rest) ← (parseTypeName stop ts).plain
        return ((name, (none : Option Expr)), rest))
      (do
        let (name, rest) ← (parseTypeName stop' us).plain
        return ((name, none), rest)) := by
    refine (alike_parseTypeName stop stop' h).bind ?_
    rintro name _ rest rest' - rfl hrest
    exact .ok rfl hrest
  cases h.abreast with
  | line hts hus =>
    rw [plain_parseAs_stop (hts.nextIs _), plain_parseAs_stop (hus.nextIs _)]
    exact hname
  | @token t u ts us _ same _ _ tail _ =>
    by_cases hnew : t.isSymbol "new" = true
    · rw [plain_parseAs_new stop hnew,
        plain_parseAs_new stop' ((Token.isSymbol_congr same _).trans hnew)]
      rw [Place.next_eq_inType .inType (by decide) hnew] at tail
      refine (alike_parseNew stop stop' ts us tail).bind ?_
      rintro ⟨name, args⟩ _ rest rest' - rfl hrest
      exact .ok rfl hrest
    · have hold : t.isSymbol "new" = false := by simpa using hnew
      rw [plain_parseAs_name stop hold,
        plain_parseAs_name stop' ((Token.isSymbol_congr same _).trans hold)]
      exact hname

theorem alike_parseType (h : Midway ends ts us) :
    Alike Eq (Midway ends) (parseType stop ts).plain (parseType stop' us).plain := by
  obtain ⟨place, -, hb⟩ := h.exists_beside
  cases hb.abreast with
  | line hts hus =>
    rw [plain_parseType_stop (hts.nextIs _), plain_parseType_stop (hus.nextIs _)]
    exact .ok rfl h
  | token _ same _ _ tail _ =>
    rw [plain_parseType_cons, plain_parseType_cons, Token.isSymbol_congr same]
    split
    · next has =>
      rw [Place.next_eq_inType place (by decide) has] at tail
      exact alike_parseAs stop stop' tail
    · exact .ok rfl h

theorem alike_parseDim (line line' : Line) (h : Midway ends ts us) :
    Alike Stmt.Matches (Midway ends) (parseDim stop line ts).plain
      (parseDim stop' line' us).plain := by
  obtain ⟨_, -, hb⟩ := h.exists_beside
  cases hb.abreast with
  | line hts hus =>
    obtain ⟨e, he⟩ := exists_plain_parseDim_error stop line hts
    obtain ⟨e', he'⟩ := exists_plain_parseDim_error stop' line' hus
    rw [he, he']
    exact .error e e'
  | @token t u ts us _ same _ _ _ rest =>
    rw [plain_parseDim_cons, plain_parseDim_cons, Token.kind_congr same, Token.text_congr same]
    split
    · refine (alike_parseType stop stop' rest).bind ?_
      rintro ⟨typeName, made⟩ _ rest rest' - rfl hrest
      refine (alike_parseClause stop stop' "=" hrest).bind ?_
      rintro given _ rest rest' - rfl hrest
      exact .ok rfl hrest
    · exact .failAt _ _ _ _

theorem alike_parseReturn (line line' : Line) (h : Midway ends ts us) :
    Alike Stmt.Matches (Midway ends) (parseReturn stop line ts).plain
      (parseReturn stop' line' us).plain := by
  obtain ⟨_, -, hb⟩ := h.exists_beside
  rw [plain_parseReturn, plain_parseReturn, hb.atStatementEnd]
  split
  · exact .ok rfl h
  · refine (alike_parseExpr stop stop' hb).bind ?_
    rintro e _ rest rest' - rfl hrest
    exact .ok rfl hrest

theorem alike_parseClassicArguments (h : Midway ends ts us) :
    Alike Eq (Midway ends) (parseClassicArguments stop ts).plain
      (parseClassicArguments stop' us).plain := by
  obtain ⟨_, -, hb⟩ := h.exists_beside
  rw [plain_parseClassicArguments, plain_parseClassicArguments, hb.atStatementEnd, hb.nextIs]
  split
  · exact .ok rfl h
  · refine (alike_parseExpr stop stop' hb).bind ?_
    rintro first _ rest rest' - rfl hrest
    refine (alike_parseMoreArguments stop stop' rest rest' hrest).bind ?_
    rintro others _ rest rest' - rfl hrest
    exact .ok rfl hrest

theorem alike_parseExprStatement (line line' : Line) {place : Place}
    (h : Beside ends place ts us) :
    Alike MatchingSteps (Midway ends) (parseExprStatement stop line ts).plain
      (parseExprStatement stop' line' us).plain := by
  rw [plain_parseExprStatement, plain_parseExprStatement]
  refine (alike_parsePostfix stop stop' ts us h).bind ?_
  rintro target _ rest rest' - rfl ⟨_, _, hb⟩
  simp only [hb.nextIs]
  split
  · next hplace =>
    rw [Bool.and_eq_true] at hplace
    obtain ⟨_, _, hvalue⟩ := hb.drop_one hplace.2
    refine (alike_parseExpr stop stop' hvalue).bind ?_
    rintro value _ rest rest' - rfl hrest
    exact .ok rfl hrest
  · refine (alike_parseExpr stop stop' h).bind ?_
    rintro e _ rest rest' - rfl hrest
    cases e with
    | call target args => exact .ok rfl hrest
    | _ =>
      simp only
      split
      · refine (alike_parseClassicArguments stop stop' hrest).bind ?_
        rintro args _ rest rest' - rfl hrest
        exact .ok rfl hrest
      · exact .ok rfl hrest

end Simple

-- ════════════════════════════════════════════════════════════════════════════
-- Blocks
-- ════════════════════════════════════════════════════════════════════════════

section Steps

variable {α β : Type} {R : α → β → Prop} {P Q : List Token → List Token → Prop}
  {x : Except ParseFailure (α × List Token)} {y : Except ParseFailure (β × List Token)}

theorem Alike.mono (h : Alike R P x y) (weaker : ∀ ts us, P ts us → Q ts us) : Alike R Q x y := by
  cases h with
  | error e e' => exact .error e e'
  | ok value rest => exact .ok value (weaker _ _ rest)

/-- Steps go alike when they are chosen by the same condition. -/
theorem Alike.ite {c : Prop} [Decidable c] {x' : Except ParseFailure (α × List Token)}
    {y' : Except ParseFailure (β × List Token)} (h : Alike R P x y) (h' : Alike R P x' y') :
    Alike R P (if c then x else x') (if c then y else y') := by
  by_cases hc : c
  · rwa [if_pos hc, if_pos hc]
  · rwa [if_neg hc, if_neg hc]

/-- A statement that has an effect. -/
theorem Alike.some {x y : Except ParseFailure (Stmt × List Token)}
    (h : Alike Stmt.Matches P x y) :
    Alike MatchingSteps P (do let (s, rest) ← x; return (Option.some s, rest))
      (do let (s, rest) ← y; return (Option.some s, rest)) :=
  h.bind fun _ _ _ _ _ value rest => .ok value.some rest

end Steps

/-- Where the two runs are after leading line ends. -/
inductive Started (ends : List Token) : List Token → List Token → Prop
  | ended : Started ends [] ends
  | token {place : Place} {t u : Token} {ts us : List Token} (same : u.content = t.content)
    (inside : atHandlerEnd (t :: ts) = false) (h : Beside ends place (t :: ts) (u :: us))
    (rest : Midway ends ts us) : Started ends (t :: ts) (u :: us)

section Blocks

variable {stop : Token} {ends ts us : List Token}

theorem Beside.closes {place : Place} (h : Beside ends place ts us) (closer : Closer) :
    closer.closes us = closer.closes ts := by
  cases closer <;> simp only [Closer.closes, h.nextIs, h.atEndOf]

theorem Beside.started (hends : atHandlerEnd ends = true) {place : Place}
    (h : Beside ends place ts us) : Started ends (skipNewlines ts) (skipNewlines us) := by
  induction h with
  | feed hn =>
    rw [skipNewlines_cons_newline hn, skipNewlines_of_atHandlerEnd hends]
    exact .ended
  | joined ht hn =>
    rw [skipNewlines_cons_newline ht, skipNewlines_cons_newline hn,
      skipNewlines_of_atHandlerEnd hends]
    exact .ended
  | @cons place t u ts us same inside whole tail ih =>
    by_cases hk : t.kind = .newline
    · have hk' : u.kind = .newline := (Token.kind_congr same).trans hk
      simpa [skipNewlines, hk, hk'] using ih
    · rw [skipNewlines_cons_other hk, skipNewlines_cons_other (Token.kind_congr same ▸ hk)]
      exact .token same inside (.cons same inside whole tail) (tail.midway hk)

theorem Onward.started (hends : atHandlerEnd ends = true) (h : Onward ends ts us) :
    Started ends (skipNewlines ts) (skipNewlines us) := by
  cases h with
  | ended =>
    rw [skipNewlines_of_atHandlerEnd hends]
    exact .ended
  | beside h => exact h.started hends

theorem parseExit_of_atStatementEnd (line : Line) (h : atStatementEnd ts = true) :
    (parseExit line ts).value = .exit "" line ∧ (parseExit line ts).rest = ts := by
  cases ts with
  | nil => exact ⟨rfl, rfl⟩
  | cons t ts =>
    have ht : t.endsStatement = true := h
    simp only [parseExit, ht, if_true]
    exact ⟨rfl, rfl⟩

theorem matches_parseExit (line line' : Line) (h : Midway ends ts us) :
    (parseExit line ts).value.Matches (parseExit line' us).value ∧
      Midway ends (parseExit line ts).rest (parseExit line' us).rest := by
  obtain ⟨_, -, hb⟩ := h.exists_beside
  cases hb.abreast with
  | line hts hus =>
    obtain ⟨hvalue, hrest⟩ := parseExit_of_atStatementEnd line hts.atStatementEnd
    obtain ⟨hvalue', hrest'⟩ := parseExit_of_atStatementEnd line' hus.atStatementEnd
    rw [hvalue, hrest, hvalue', hrest']
    exact ⟨rfl, h⟩
  | token _ same _ _ _ rest =>
    simp only [parseExit, Token.endsStatement_congr same, Token.text_congr same]
    split
    · exact ⟨rfl, h⟩
    · exact ⟨rfl, rest⟩

theorem midway_parseStrayEnd (h : Midway ends ts us) :
    Midway ends (parseStrayEnd ts).rest (parseStrayEnd us).rest := by
  obtain ⟨_, -, hb⟩ := h.exists_beside
  simp only [parseStrayEnd, hb.any_head offLineEnds_isName fun _ _ => Token.isName_congr]
  cases hname : ts.head?.any Token.isName with
  | false => exact h
  | true => exact hb.drop_head offLineEnds_isName hname

theorem exists_plain_parseFor_error (stop : Token) (line : Line) (h : AtLineEnd ts) :
    ∃ e, (parseFor stop line ts).plain = .error e := by
  cases ts with
  | nil => exact ⟨_, by rw [parseFor]; rfl⟩
  | cons t ts =>
    rw [plain_parseFor_cons, h t rfl, if_neg Token.Kind.noConfusion]
    exact ⟨_, rfl⟩

theorem plain_parseElseIfs_stop (h : nextIs ts ["elseif"] = false) :
    (parseElseIfs stop ts).plain = .ok ([], ts) := by
  cases ts with
  | nil => rw [parseElseIfs]; rfl
  | cons t ts =>
    rw [plain_parseElseIfs_cons, isSymbol_of_nextIs h (List.mem_singleton.2 rfl)]
    rfl

theorem plain_parseElse_stop (h : nextIs ts ["else"] = false) :
    (parseElse stop ts).plain = .ok ([], ts) := by
  cases ts with
  | nil => rw [parseElse]; rfl
  | cons t ts =>
    rw [plain_parseElse_cons, isSymbol_of_nextIs h (List.mem_singleton.2 rfl)]
    rfl

theorem plain_parseLoopTest_none (h : nextIs ts ["loop"] = false) :
    (parseLoopTest stop ts).plain = .ok ((none, true), ts) := by
  cases ts with
  | nil => rfl
  | cons t ts =>
    rw [parseLoopTest.eq_def]
    simp only [isSymbol_of_nextIs h (List.mem_singleton.2 rfl)]
    rfl

/-- The branches of a conditional from the line after its test on. -/
def readBranches (stop : Token) (line : Line) (test : Expr) (ts : List Token) :
    Except ParseFailure (Stmt × List Token) := do
  let (body, rest) ← (parseBlock stop .branch ts).plain
  let (elseIfs, rest) ← (parseElseIfs stop rest).plain
  let (otherwise, rest) ← (parseElse stop rest).plain
  return (.cond test body elseIfs otherwise line, afterEndIf rest)

/-- A conditional after `Then`. -/
def readCond (stop : Token) (line : Line) (test : Expr) (ts : List Token) :
    Except ParseFailure (Stmt × List Token) :=
  match ts with
  | [] => .ok (.cond test [] [] [] line, [])
  | t :: ts =>
    if t.endsStatement then readBranches stop line test (t :: ts)
    else do
      let (first, rest) ← (parseStatement stop t ts).plain
      if nextIs rest ["else"] then do
        let (second, rest) ← (parseSingle stop (rest.drop 1)).plain
        return (.cond test first.toList [] second line, rest)
      else return (.cond test first.toList [] [] line, rest)

theorem plain_parseCond_eq (line : Line) (ts : List Token) :
    (parseCond stop line ts).plain = (do
      let (test, rest) ← (parseExpr stop ts).plain
      let (_, rest) ← (expect stop "then" rest).plain
      readCond stop line test rest) := by
  rw [plain_parseCond]
  congr 1

/-- Where the line ends after `Then`, branches follow, even if no token is left for them. -/
theorem readCond_of_atLineEnd (line : Line) (test : Expr) (h : AtLineEnd ts) :
    readCond stop line test ts = readBranches stop line test ts := by
  cases ts with
  | nil =>
    have hblock : (parseBlock stop .branch []).plain = .ok ([], []) := plain_parseBlock _ _ _
    have helseIfs : (parseElseIfs stop []).plain = .ok ([], []) := plain_parseElseIfs_stop rfl
    have helse : (parseElse stop []).plain = .ok ([], []) := plain_parseElse_stop rfl
    simp only [readBranches, hblock, bind, Except.bind, helseIfs, helse]
    rfl
  | cons t ts => exact if_pos h.atStatementEnd

/-- Whether a conditional has no further branch with a test. -/
def closesTests (ts : List Token) : Bool := nextIs ts ["else"] || atEndOf ts ["if"]

theorem matches_cond (test : Expr) {body body' otherwise otherwise' : List Stmt}
    {elseIfs elseIfs' : List ElseIf} (line line' : Line) (hbody : MatchingBlocks body body')
    (helseIfs : MatchingElseIfs elseIfs elseIfs')
    (hotherwise : MatchingBlocks otherwise otherwise') :
    (Stmt.cond test body elseIfs otherwise line).Matches
      (.cond test body' elseIfs' otherwise' line') := by
  simp only [Stmt.Matches, Stmt.unplaced, Stmt.cond.injEq, true_and, and_true]
  exact ⟨hbody, helseIfs, hotherwise⟩

theorem closesTests_of_closes (h : Closer.branch.closes ts = true)
    (hnext : nextIs ts ["elseif"] = false) : closesTests ts = true := by
  cases ts with
  | nil => exact h
  | cons t ts =>
    have ht := isSymbol_of_nextIs hnext (List.mem_singleton.2 rfl)
    simpa [Closer.closes, closesTests, Token.isAnyOf, ht] using h

theorem closes_of_closesTests (h : closesTests ts = true) (hnext : nextIs ts ["else"] = false) :
    Closer.lastBranch.closes ts = true := by
  simpa [closesTests, hnext, Closer.closes] using h

/-- A statement follows an `Else` in the middle of a line. -/
theorem Midway.skipNewlines_ne_nil (h : Midway ends ts us) (hnext : nextIs ts ["else"] = true) :
    skipNewlines (ts.drop 1) ≠ [] := by
  obtain ⟨place, hplace, hb⟩ := h
  cases hb.abreast with
  | line hts _ => rw [hts.nextIs] at hnext; cases hnext
  | @token t _ _ _ _ _ _ whole _ _ =>
    have ht : t.isSymbol "else" = true := by simpa [Token.isAnyOf] using hnext
    exact whole (by simp [Place.looksBeyond, ht, hplace])

variable (stop stop' : Token)

theorem alike_parseLoopTest (hends : atHandlerEnd ends = true)
    (h : AtClose ends Closer.doBody.closes ts us) :
    Alike Eq (Past ends) (parseLoopTest stop ts).plain (parseLoopTest stop' us).plain := by
  cases h with
  | ended =>
    rw [plain_parseLoopTest_none rfl,
      plain_parseLoopTest_none (nextIs_of_atHandlerEnd hends (by decide))]
    exact .ok rfl .ended
  | word hb hcloses =>
    have hloop : nextIs ts ["loop"] = true := hcloses
    cases hb.abreast with
    | line hts _ => rw [hts.nextIs] at hloop; cases hloop
    | @token t u ts us _ same _ _ _ rest =>
      have ht : t.isSymbol "loop" = true := by simpa [Token.isAnyOf] using hloop
      have hu : u.isSymbol "loop" = true := (Token.isSymbol_congr same _).trans ht
      obtain ⟨_, -, hrest⟩ := rest.exists_beside
      by_cases htest : nextIs ts ["until", "while"] = true
      · cases hrest.abreast with
        | line hts _ => rw [hts.nextIs] at htest; cases htest
        | @token w w' ts us _ same' _ _ tail _ =>
          have hw : w.isAnyOf ["until", "while"] = true := htest
          rw [plain_parseLoopTest_test stop ht hw,
            plain_parseLoopTest_test stop' hu ((Token.isAnyOf_congr same' _).trans hw),
            Token.text_congr same']
          refine (alike_parseExpr stop stop' tail).bind ?_
          rintro test _ r r' - rfl hr
          exact .ok rfl (.midway hr)
      · have hbare : nextIs ts ["until", "while"] = false := by simpa using htest
        rw [plain_parseLoopTest_stop ht hbare,
          plain_parseLoopTest_stop hu ((hrest.nextIs _).trans hbare)]
        exact .ok rfl (.midway rest)

mutual

/-- Statements are read alike. -/
theorem alike_parseStatement (hends : atHandlerEnd ends = true) {place : Place} {t u : Token}
    (ts us : List Token) (same : u.content = t.content) (h : Beside ends place (t :: ts) (u :: us))
    (rest : Midway ends ts us) :
    Alike MatchingSteps (Past ends) (parseStatement stop t ts).plain
      (parseStatement stop' u us).plain := by
  rw [plain_parseStatement, plain_parseStatement]
  simp only [Token.isSymbol_congr same]
  have hpast : ∀ ts us, Midway ends ts us → Past ends ts us := fun _ _ h => .midway h
  obtain ⟨hvalue, hrest⟩ := matches_parseExit t.line u.line rest
  refine .ite ((alike_parseDim stop stop' t.line u.line rest).mono hpast).some ?_
  refine .ite (alike_parseCond hends t.line u.line ts us rest).some ?_
  refine .ite (alike_parseFor hends t.line u.line ts us rest).some ?_
  refine .ite (alike_parseWhile hends t.line u.line ts us rest).some ?_
  refine .ite (alike_parseDo hends t.line u.line ts us rest).some ?_
  refine .ite ((alike_parseReturn stop stop' t.line u.line rest).mono hpast).some ?_
  refine .ite (.ok hvalue.some (.midway hrest)) ?_
  refine .ite (.ok rfl (.midway (midway_parseStrayEnd rest))) ?_
  exact (alike_parseExprStatement stop stop' t.line u.line h).mono hpast
termination_by (ts.length, 2)

theorem alike_parseCond (hends : atHandlerEnd ends = true) (line line' : Line)
    (ts us : List Token) (h : Midway ends ts us) :
    Alike Stmt.Matches (Past ends) (parseCond stop line ts).plain
      (parseCond stop' line' us).plain := by
  obtain ⟨_, _, hb⟩ := h
  rw [plain_parseCond_eq, plain_parseCond_eq]
  refine (alike_parseExpr stop stop' hb).bind ?_
  rintro test _ rest rest' htest rfl ⟨_, _, hb⟩
  have hlt := Answer.fewer_of_plain htest
  refine (alike_expect stop stop' "then" hb).bind ?_
  rintro _ _ rest rest' hthen - h
  have hlt' := Answer.fewer_of_plain hthen
  obtain ⟨_, -, hb⟩ := h.exists_beside
  simp only
  match rest, rest', hlt', h, hb.abreast with
  | rest, rest', hlt', h, .line hts hus =>
    rw [readCond_of_atLineEnd line test hts, readCond_of_atLineEnd line' test hus]
    exact alike_readBranches hends line line' test rest rest' h
  | t :: rest, u :: rest', hlt', h, .token _ same _ _ tail hrest =>
    simp only [readCond, Token.endsStatement_congr same]
    split
    · exact alike_readBranches hends line line' test (t :: rest) (u :: rest') h
    · refine (alike_parseStatement hends rest rest' same hb hrest).bind ?_
      rintro first first' r r' hfirst hsame hpast
      have hlt'' := Answer.fewer_of_plain hfirst
      cases hpast with
      | ended =>
        have hnone : nextIs ([] : List Token) ["else"] = false := rfl
        have hends' : nextIs ends ["else"] = false := nextIs_of_atHandlerEnd hends (by decide)
        simp only [hnone, hends']
        exact .ok (matches_cond test line line' hsame rfl rfl) .ended
      | midway hm =>
        obtain ⟨_, -, hb⟩ := hm.exists_beside
        simp only [hb.nextIs]
        split
        · next helse =>
          have hne := hm.skipNewlines_ne_nil helse
          refine (alike_parseSingle hends _ _ (hb.drop_one helse) hne).bind ?_
          rintro second second' r r' - hsame' hrest
          exact .ok (matches_cond test line line' hsame rfl hsame') hrest
        · exact .ok (matches_cond test line line' hsame rfl rfl) (.midway hm)
termination_by (ts.length, 1)
decreasing_by
  · exact Prod.Lex.left _ _ (by omega)
  · exact Prod.Lex.left _ _ (by simp only [List.length_cons] at hlt'; omega)
  · simp only [List.length_cons] at hlt'
    simp only [List.length_drop]
    exact Prod.Lex.left _ _ (by omega)
  · exact Prod.Lex.left _ _ (by omega)

theorem alike_readBranches (hends : atHandlerEnd ends = true) (line line' : Line) (test : Expr)
    (ts us : List Token) (h : Midway ends ts us) :
    Alike Stmt.Matches (Past ends) (readBranches stop line test ts)
      (readBranches stop' line' test us) := by
  rw [readBranches, readBranches]
  refine (alike_parseBlock hends .branch ts us h.onward).bind ?_
  rintro body body' rest rest' hbody hsame hrest
  have hlt := Answer.fewer_of_plain hbody
  refine (alike_parseElseIfs hends rest rest' hrest).bind ?_
  rintro elseIfs elseIfs' rest rest' helseIfs hsame' hrest
  have hlt' := Answer.fewer_of_plain helseIfs
  refine (alike_parseElse hends rest rest' hrest).bind ?_
  rintro otherwise otherwise' rest rest' - hsame'' hrest
  exact .ok (matches_cond test line line' hsame hsame' hsame'') (hrest.afterEndIf hends)
termination_by (ts.length, 2)
decreasing_by
  · exact Prod.Lex.right _ (by decide)
  · exact Prod.Lex.right' _ (by omega) (by decide)
  · exact Prod.Lex.right' _ (by omega) (by decide)

theorem alike_parseElseIfs (hends : atHandlerEnd ends = true) (ts us : List Token)
    (h : AtClose ends Closer.branch.closes ts us) :
    Alike MatchingElseIfs (AtClose ends closesTests) (parseElseIfs stop ts).plain
      (parseElseIfs stop' us).plain := by
  match ts, us, h with
  | _, _, .ended =>
    rw [plain_parseElseIfs_stop rfl,
      plain_parseElseIfs_stop (nextIs_of_atHandlerEnd hends (by decide))]
    exact .ok rfl .ended
  | ts, us, .word hb hcloses =>
    match ts, us, hb, hb.abreast, hcloses with
    | ts, us, hb, .line hts hus, hcloses =>
      rw [plain_parseElseIfs_stop (hts.nextIs _), plain_parseElseIfs_stop (hus.nextIs _)]
      exact .ok rfl (.word hb (closesTests_of_closes hcloses (hts.nextIs _)))
    | t :: ts, u :: us, hb, .token _ same _ _ tail _, hcloses =>
      rw [plain_parseElseIfs_cons, plain_parseElseIfs_cons, Token.isSymbol_congr same]
      split
      · refine (alike_parseExpr stop stop' tail).bind ?_
        rintro test _ rest rest' htest rfl ⟨_, _, hrest⟩
        refine (alike_expect stop stop' "then" hrest).bind ?_
        rintro _ _ rest rest' hthen - hrest
        have hlt := Answer.fewer_of_plain htest
        have hlt' := Answer.fewer_of_plain hthen
        refine (alike_parseBlock hends .branch rest rest' hrest.onward).bind ?_
        rintro body body' r r' hbody hsame hr
        have hlt'' := Answer.fewer_of_plain hbody
        refine (alike_parseElseIfs hends r r' hr).bind ?_
        rintro others others' r r' - hsame' hr
        refine .ok ?_ hr
        simp only [MatchingElseIfs, unplacedElseIfs, ElseIf.unplaced, List.cons.injEq,
          ElseIf.mk.injEq, true_and]
        exact ⟨hsame, hsame'⟩
      · next hword =>
        have hnext : nextIs (t :: ts) ["elseif"] = false := by simpa [Token.isAnyOf] using hword
        exact .ok rfl (.word hb (closesTests_of_closes hcloses hnext))
termination_by (ts.length, 1)
decreasing_by
  all_goals
    simp only [List.length_cons]
    exact Prod.Lex.left _ _ (by omega)

theorem alike_parseElse (hends : atHandlerEnd ends = true) (ts us : List Token)
    (h : AtClose ends closesTests ts us) :
    Alike MatchingBlocks (AtClose ends Closer.lastBranch.closes) (parseElse stop ts).plain
      (parseElse stop' us).plain := by
  match ts, us, h with
  | _, _, .ended =>
    rw [plain_parseElse_stop rfl, plain_parseElse_stop (nextIs_of_atHandlerEnd hends (by decide))]
    exact .ok rfl .ended
  | ts, us, .word hb hcloses =>
    match ts, us, hb, hb.abreast, hcloses with
    | ts, us, hb, .line hts hus, hcloses =>
      rw [plain_parseElse_stop (hts.nextIs _), plain_parseElse_stop (hus.nextIs _)]
      exact .ok rfl (.word hb (closes_of_closesTests hcloses (hts.nextIs _)))
    | t :: ts, u :: us, hb, .token _ same _ _ tail _, hcloses =>
      rw [plain_parseElse_cons, plain_parseElse_cons, Token.isSymbol_congr same]
      split
      · exact alike_parseBlock hends .lastBranch ts us (.beside tail)
      · next hword =>
        have hnext : nextIs (t :: ts) ["else"] = false := by simpa [Token.isAnyOf] using hword
        exact .ok rfl (.word hb (closes_of_closesTests hcloses hnext))
termination_by (ts.length, 1)

theorem alike_parseFor (hends : atHandlerEnd ends = true) (line line' : Line)
    (ts us : List Token) (h : Midway ends ts us) :
    Alike Stmt.Matches (Past ends) (parseFor stop line ts).plain
      (parseFor stop' line' us).plain := by
  obtain ⟨_, -, hb⟩ := h.exists_beside
  match ts, us, hb.abreast with
  | ts, us, .line hts hus =>
    obtain ⟨e, he⟩ := exists_plain_parseFor_error stop line hts
    obtain ⟨e', he'⟩ := exists_plain_parseFor_error stop' line' hus
    rw [he, he']
    exact .error e e'
  | v :: ts, v' :: us, .token _ same _ _ tail _ =>
    rw [plain_parseFor_cons, plain_parseFor_cons, Token.kind_congr same, Token.text_congr same]
    split
    · refine (alike_expect stop stop' "=" tail).bind ?_
      rintro _ _ r₁ r₁' hequals - ⟨_, _, hr₁⟩
      refine (alike_parseExpr stop stop' hr₁).bind ?_
      rintro start _ r₂ r₂' hstart rfl ⟨_, _, hr₂⟩
      refine (alike_expect stop stop' "to" hr₂).bind ?_
      rintro _ _ r₃ r₃' hto - ⟨_, _, hr₃⟩
      refine (alike_parseExpr stop stop' hr₃).bind ?_
      rintro last _ r₄ r₄' hlast rfl hr₄
      refine (alike_parseClause stop stop' "step" hr₄).bind ?_
      rintro step _ r₅ r₅' hstep rfl hr₅
      have hlt₁ := Answer.fewer_of_plain hequals
      have hlt₂ := Answer.fewer_of_plain hstart
      have hlt₃ := Answer.fewer_of_plain hto
      have hlt₄ := Answer.fewer_of_plain hlast
      have hlt₅ := Answer.fewer_of_plain hstep
      refine (alike_parseBlock hends .forBody r₅ r₅' hr₅.onward).bind ?_
      rintro body body' r₆ r₆' - hsame hr₆
      refine .ok ?_ (hr₆.afterNext hends)
      exact congrArg (fun body => Stmt.forLoop v.text start last step body none) hsame
    · exact .failAt _ _ _ _
termination_by (ts.length, 1)
decreasing_by
  simp only [List.length_cons]
  exact Prod.Lex.left _ _ (by omega)

theorem alike_parseWhile (hends : atHandlerEnd ends = true) (line line' : Line)
    (ts us : List Token) (h : Midway ends ts us) :
    Alike Stmt.Matches (Past ends) (parseWhile stop line ts).plain
      (parseWhile stop' line' us).plain := by
  obtain ⟨_, _, hb⟩ := h
  rw [plain_parseWhile, plain_parseWhile]
  refine (alike_parseExpr stop stop' hb).bind ?_
  rintro test _ rest rest' htest rfl hrest
  have hlt := Answer.fewer_of_plain htest
  refine (alike_parseBlock hends .whileBody rest rest' hrest.onward).bind ?_
  rintro body body' rest rest' - hsame hrest
  refine .ok ?_ (hrest.afterWend hends)
  exact congrArg (fun body => Stmt.whileLoop test body none) hsame
termination_by (ts.length, 1)

theorem alike_parseDo (hends : atHandlerEnd ends = true) (line line' : Line)
    (ts us : List Token) (h : Midway ends ts us) :
    Alike Stmt.Matches (Past ends) (parseDo stop line ts).plain
      (parseDo stop' line' us).plain := by
  obtain ⟨_, -, hb⟩ := h.exists_beside
  rw [plain_parseDo, plain_parseDo, hb.nextIs]
  split
  · exact .failAt _ _ _ _
  · refine (alike_parseBlock hends .doBody ts us h.onward).bind ?_
    rintro body body' rest rest' - hsame hrest
    refine (alike_parseLoopTest stop stop' hends hrest).bind ?_
    rintro ⟨test, ending⟩ _ rest rest' - rfl hrest
    refine .ok ?_ hrest
    exact congrArg (fun body => Stmt.doLoop body test ending true none) hsame
termination_by (ts.length, 1)

/-- Blocks are read alike, and both runs stop in front of what closes them. -/
theorem alike_parseBlock (hends : atHandlerEnd ends = true) (closer : Closer)
    (ts us : List Token) (h : Onward ends ts us) :
    Alike MatchingBlocks (AtClose ends closer.closes) (parseBlock stop closer ts).plain
      (parseBlock stop' closer us).plain := by
  rw [plain_parseBlock, plain_parseBlock]
  have hle := length_skipNewlines_le ts
  match skipNewlines ts, skipNewlines us, hle, h.started hends with
  | _, _, _, .ended =>
    -- the end of the handler closes the block where the body has no more tokens
    obtain ⟨d, rest, rfl, -⟩ := exists_of_nextIs (Bool.and_eq_true _ _ ▸ hends).1
    simp only [hends, Bool.true_or, if_true]
    exact .ok rfl .ended
  | t :: rest, u :: rest', hle, .token same inside hb hrest =>
    have hinside : atHandlerEnd (u :: rest') = false := (hb.atEndOf _).trans inside
    simp only [inside, hinside, hb.closes, Bool.false_or]
    split
    · next hcloses => exact .ok rfl (.word hb hcloses)
    · refine (alike_parseStatement hends rest rest' same hb hrest).bind ?_
      rintro first first' r r' hfirst hsame hr
      have hlt := Answer.fewer_of_plain hfirst
      refine (alike_parseBlock hends closer r r' hr.onward).bind ?_
      rintro others others' r r' - hsame' hr
      exact .ok (hsame.append hsame') hr
termination_by (ts.length, 0)
decreasing_by
  all_goals
    simp only [List.length_cons] at hle
    exact Prod.Lex.left _ _ (by omega)

theorem alike_parseSingle (hends : atHandlerEnd ends = true) (ts us : List Token)
    (h : Midway ends ts us) (hne : skipNewlines ts ≠ []) :
    Alike MatchingBlocks (Past ends) (parseSingle stop ts).plain (parseSingle stop' us).plain := by
  rw [plain_parseSingle, plain_parseSingle]
  have hle := length_skipNewlines_le ts
  match skipNewlines ts, skipNewlines us, hle, hne, h.onward.started hends with
  | _, _, _, hne, .ended => exact absurd rfl hne
  | t :: rest, u :: rest', hle, _, .token same _ hb hrest =>
    refine (alike_parseStatement hends rest rest' same hb hrest).bind ?_
    rintro first first' r r' - hsame hr
    exact .ok hsame hr
termination_by (ts.length, 0)
decreasing_by
  simp only [List.length_cons] at hle
  exact Prod.Lex.left _ _ (by omega)

end

end Blocks

end FormBasic
