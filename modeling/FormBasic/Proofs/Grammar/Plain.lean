import FormBasic.Grammar.Program

/-!
# Parsing steps without their bounds

A parsing step carries the proof that it leaves fewer tokens, which the parsers need to be total.
What a step answers does not depend on that proof. Here every parser gets its equation in terms of
plain answers: a value and the remaining tokens.

## Main definitions

* `Answer.plain` - an answer without its bound

## Main statements

* `plain_parseBinary` to `plain_parsePrimary` - the parsers of expressions
* `plain_parseDim` to `plain_parseSingle` - the parsers of statements
-/

namespace FormBasic

/-- What a parsing step answers, without the bound on the remaining tokens. -/
def Answer.plain {α : Type} {bound : Nat} (a : Answer α bound) :
    Except ParseFailure (α × List Token) :=
  a.map fun p => (p.value, p.rest)

namespace Answer

variable {α β : Type} {bound bound' : Nat}

@[simp]
theorem plain_ok (p : Parsed α bound) : plain (.ok p : Answer α bound) = .ok (p.value, p.rest) :=
  rfl

theorem plain_bind {a : Answer α bound} {f : Parsed α bound → Answer β bound'}
    {g : α × List Token → Except ParseFailure (β × List Token)}
    (h : ∀ p, (f p).plain = g (p.value, p.rest)) :
    plain (a >>= f) = a.plain >>= g := by
  cases a with
  | error e => rfl
  | ok p => exact h p

/-- A last step only changes the bound. -/
theorem plain_last {a : Answer α bound} {f : Parsed α bound → Answer α bound'}
    (h : ∀ p, (f p).plain = .ok (p.value, p.rest)) : plain (a >>= f) = a.plain := by
  cases a with
  | error e => rfl
  | ok p => exact h p

/-- A step that succeeds plainly succeeds with some bound. -/
theorem exists_of_plain_eq_ok {a : Answer α bound} {v : α} {rest : List Token}
    (h : a.plain = .ok (v, rest)) : ∃ fewer, a = .ok ⟨v, rest, fewer⟩ := by
  cases a with
  | error e => cases h
  | ok p =>
    obtain ⟨v', rest', fewer⟩ := p
    simp only [plain_ok, Except.ok.injEq, Prod.mk.injEq] at h
    obtain ⟨rfl, rfl⟩ := h
    exact ⟨fewer, rfl⟩

end Answer

theorem plain_expect_cons (stop : Token) (want : Text) (t : Token) (ts : List Token) :
    (expect stop want (t :: ts)).plain =
      if t.isSymbol want then .ok (t, ts) else failAt t (.expected want (shown t)) := by
  rw [expect]
  split <;> rfl

section Expressions

variable (stop : Token)

theorem plain_parseBinary (level : Level) (ts : List Token) :
    (parseBinary stop level ts).plain = (do
      let (left, rest) ← (parseOperand stop level ts).plain
      (parseOperators stop level left rest).plain) := by
  rw [parseBinary]
  refine Answer.plain_bind ?_
  rintro ⟨left, rest, h⟩
  exact Answer.plain_last fun _ => rfl

theorem plain_parseOperators_nil (level : Level) (left : Expr) :
    (parseOperators stop level left []).plain = .ok (left, []) := by
  rw [parseOperators]
  rfl

theorem plain_parseOperators_cons (level : Level) (left : Expr) (t : Token) (ts : List Token) :
    (parseOperators stop level left (t :: ts)).plain =
      if t.isAnyOf level.operators then do
        let (right, rest) ← (parseOperand stop level ts).plain
        (parseOperators stop level (.binary (.ofText t.text) left right) rest).plain
      else .ok (left, t :: ts) := by
  rw [parseOperators]
  split
  · refine Answer.plain_bind ?_
    rintro ⟨right, rest, h⟩
    exact Answer.plain_last fun _ => rfl
  · rfl

theorem plain_parseNot_nil :
    (parseNot stop []).plain = (parseBinary stop .comparison []).plain := by
  rw [parseNot]

theorem plain_parseNot_cons (t : Token) (ts : List Token) :
    (parseNot stop (t :: ts)).plain =
      if t.isSymbol "not" then do
        let (e, rest) ← (parseNot stop ts).plain
        return (.unary .not e, rest)
      else (parseBinary stop .comparison (t :: ts)).plain := by
  rw [parseNot]
  split
  · exact Answer.plain_bind fun _ => rfl
  · rfl

theorem plain_parseSigned_nil : (parseSigned stop []).plain = (parsePostfix stop []).plain := by
  rw [parseSigned]

theorem plain_parseSigned_cons (t : Token) (ts : List Token) :
    (parseSigned stop (t :: ts)).plain =
      if t.isSymbol "-" then do
        let (e, rest) ← (parseSigned stop ts).plain
        return (.unary .neg e, rest)
      else if t.isSymbol "+" then (parseSigned stop ts).plain
      else (parsePostfix stop (t :: ts)).plain := by
  rw [parseSigned]
  split
  · exact Answer.plain_bind fun _ => rfl
  · split
    · exact Answer.plain_last fun _ => rfl
    · rfl

theorem plain_parsePostfix (ts : List Token) :
    (parsePostfix stop ts).plain = (do
      let (e, rest) ← (parsePrimary stop ts).plain
      (parseSuffixes stop e rest).plain) := by
  rw [parsePostfix]
  refine Answer.plain_bind ?_
  rintro ⟨e, rest, h⟩
  exact Answer.plain_last fun _ => rfl

theorem plain_parseSuffixes_nil (e : Expr) :
    (parseSuffixes stop e []).plain = .ok (e, []) := by
  rw [parseSuffixes]
  rfl

theorem plain_parseSuffixes_point (e : Expr) {t : Token} (ht : t.isSymbol "." = true) (n : Token)
    (ts : List Token) :
    (parseSuffixes stop e (t :: n :: ts)).plain =
      if n.isName then (parseSuffixes stop (.member e n.text) ts).plain
      else failAt n (.memberName n.text) := by
  rw [parseSuffixes, if_pos ht]
  split
  · exact Answer.plain_last fun _ => rfl
  · rfl

theorem plain_parseSuffixes_last (e : Expr) {t : Token} (ht : t.isSymbol "." = true) :
    (parseSuffixes stop e [t]).plain = failAt stop (.memberName stop.text) := by
  rw [parseSuffixes, if_pos ht]
  rfl

theorem plain_parseSuffixes_other (e : Expr) {t : Token} (ht : t.isSymbol "." = false)
    (ts : List Token) :
    (parseSuffixes stop e (t :: ts)).plain =
      if t.isSymbol "(" then do
        let (args, rest) ← (parseArguments stop ts).plain
        (parseSuffixes stop (.call e args) rest).plain
      else .ok (e, t :: ts) := by
  rw [parseSuffixes.eq_def]
  simp only [ht, Bool.false_eq_true, if_false]
  split
  · refine Answer.plain_bind ?_
    rintro ⟨args, rest, h⟩
    exact Answer.plain_last fun _ => rfl
  · rfl

theorem plain_parseArguments (ts : List Token) :
    (parseArguments stop ts).plain =
      if nextIs ts [")"] then .ok ([], ts.drop 1) else do
        let (first, rest) ← (parseBinary stop .disjunction ts).plain
        let (others, rest) ← (parseMoreArguments stop rest).plain
        let (_, rest) ← (expect stop ")" rest).plain
        return (first :: others, rest) := by
  rw [parseArguments]
  split
  · rfl
  · refine Answer.plain_bind ?_
    rintro ⟨first, rest, h⟩
    refine Answer.plain_bind ?_
    rintro ⟨others, rest', h'⟩
    exact Answer.plain_bind fun _ => rfl

theorem plain_parseMoreArguments_nil : (parseMoreArguments stop []).plain = .ok ([], []) := by
  rw [parseMoreArguments]
  rfl

theorem plain_parseMoreArguments_cons (t : Token) (ts : List Token) :
    (parseMoreArguments stop (t :: ts)).plain =
      if t.isSymbol "," then do
        let (e, rest) ← (parseBinary stop .disjunction ts).plain
        let (es, rest) ← (parseMoreArguments stop rest).plain
        return (e :: es, rest)
      else .ok ([], t :: ts) := by
  rw [parseMoreArguments]
  split
  · refine Answer.plain_bind ?_
    rintro ⟨e, rest, h⟩
    exact Answer.plain_bind fun _ => rfl
  · rfl

theorem plain_parsePrimary_nil : (parsePrimary stop []).plain = failAt stop .endOfStatement := by
  rw [parsePrimary]
  rfl

theorem plain_parsePrimary_leaf {t : Token} {e : Expr} (h : leafOf? t = some (.ok e))
    (ts : List Token) : (parsePrimary stop (t :: ts)).plain = .ok (e, ts) := by
  rw [parsePrimary]
  simp only [h]
  rfl

theorem plain_parsePrimary_parenthesis {t : Token} (h : leafOf? t = none)
    (hnew : t.isSymbol "new" = false) (ht : t.isSymbol "(" = true) (ts : List Token) :
    (parsePrimary stop (t :: ts)).plain = (do
      let (e, rest) ← (parseBinary stop .disjunction ts).plain
      let (_, rest) ← (expect stop ")" rest).plain
      return (e, rest)) := by
  rw [parsePrimary]
  simp only [h, hnew, ht, if_true, Bool.false_eq_true, if_false]
  refine Answer.plain_bind ?_
  rintro ⟨e, rest, h⟩
  exact Answer.plain_bind fun _ => rfl

theorem plain_parsePrimary_new {t : Token} (h : leafOf? t = none) (ht : t.isSymbol "new" = true)
    (ts : List Token) :
    (parsePrimary stop (t :: ts)).plain = (do
      let ((name, args), rest) ← (parseNew stop ts).plain
      return (.call (.ident name) args, rest)) := by
  rw [parsePrimary]
  simp only [h, ht, if_true]
  exact Answer.plain_bind fun _ => rfl

theorem plain_parsePrimary_other {t : Token} (h : leafOf? t = none)
    (hnew : t.isSymbol "new" = false) (ht : t.isSymbol "(" = false) (ts : List Token) :
    (parsePrimary stop (t :: ts)).plain =
      if t.kind = .newline then failAt t .endOfStatement else failAt t (.unexpected t.text) := by
  rw [parsePrimary]
  simp only [h, hnew, ht, Bool.false_eq_true, if_false]
  split <;> rfl

theorem plain_parseNew (ts : List Token) :
    (parseNew stop ts).plain = (do
      let (name, rest) ← (parseTypeName stop ts).plain
      if nextIs rest ["("] then do
        let (args, rest) ← (parseArguments stop (rest.drop 1)).plain
        return ((name, args), rest)
      else return ((name, []), rest)) := by
  rw [parseNew]
  refine Answer.plain_bind ?_
  rintro ⟨name, rest, h⟩
  cases rest with
  | nil => rfl
  | cons t rest =>
    have hnext : nextIs (t :: rest) ["("] = t.isSymbol "(" := by simp [nextIs, Token.isAnyOf]
    simp only [hnext]
    split
    · exact Answer.plain_bind fun _ => rfl
    · rfl

end Expressions

section Simple

variable (stop : Token)

theorem plain_parseClause_cons (symbol : Text) (t : Token) (ts : List Token) :
    (parseClause stop symbol (t :: ts)).plain =
      if t.isSymbol symbol then do
        let (e, rest) ← (parseExpr stop ts).plain
        return (some e, rest)
      else .ok (none, t :: ts) := by
  rw [parseClause]
  split
  · exact Answer.plain_bind fun _ => rfl
  · rfl

theorem plain_parseAs_new {t : Token} (ht : t.isSymbol "new" = true) (ts : List Token) :
    (parseAs stop (t :: ts)).plain = (do
      let ((name, args), rest) ← (parseNew stop ts).plain
      return ((name, some (.call (.ident name) args)), rest)) := by
  rw [parseAs, if_pos ht]
  exact Answer.plain_bind fun _ => rfl

theorem plain_parseAs_name {t : Token} (ht : t.isSymbol "new" = false) (ts : List Token) :
    (parseAs stop (t :: ts)).plain = (do
      let (name, rest) ← (parseTypeName stop (t :: ts)).plain
      return ((name, none), rest)) := by
  rw [parseAs, if_neg (by simp [ht])]
  exact Answer.plain_bind fun _ => rfl

theorem plain_parseType_cons (t : Token) (ts : List Token) :
    (parseType stop (t :: ts)).plain =
      if t.isSymbol "as" then (parseAs stop ts).plain
      else .ok ((defaultType, none), t :: ts) := by
  rw [parseType]
  split
  · exact Answer.plain_last fun _ => rfl
  · rfl

theorem plain_parseDim_cons (line : Line) (n : Token) (ts : List Token) :
    (parseDim stop line (n :: ts)).plain =
      if n.kind = .identifier then do
        let ((typeName, made), rest) ← (parseType stop ts).plain
        let (given, rest) ← (parseClause stop "=" rest).plain
        return (.dim n.text typeName (given.or made) line, rest)
      else failAt n (.variableName n.text) := by
  rw [parseDim]
  split
  · refine Answer.plain_bind ?_
    rintro ⟨⟨typeName, made⟩, rest, h⟩
    exact Answer.plain_bind fun _ => rfl
  · rfl

theorem plain_parseReturn (line : Line) (ts : List Token) :
    (parseReturn stop line ts).plain =
      if atStatementEnd ts then .ok (.ret none line, ts) else do
        let (e, rest) ← (parseExpr stop ts).plain
        return (.ret (some e) line, rest) := by
  rw [parseReturn]
  split
  · rfl
  · exact Answer.plain_bind fun _ => rfl

theorem plain_parseLoopTest_test {t u : Token} (ht : t.isSymbol "loop" = true)
    (hu : u.isAnyOf ["until", "while"] = true) (ts : List Token) :
    (parseLoopTest stop (t :: u :: ts)).plain = (do
      let (test, rest) ← (parseExpr stop ts).plain
      return ((some test, u.text == "until"), rest)) := by
  rw [parseLoopTest]
  simp only [ht, hu, if_true]
  exact Answer.plain_bind fun _ => rfl

theorem plain_parseLoopTest_bare {t u : Token} (ht : t.isSymbol "loop" = true)
    (hu : u.isAnyOf ["until", "while"] = false) (ts : List Token) :
    (parseLoopTest stop (t :: u :: ts)).plain = .ok ((none, true), u :: ts) := by
  rw [parseLoopTest]
  simp only [ht, hu, if_true, Bool.false_eq_true, if_false]
  rfl

theorem plain_parseClassicArguments (ts : List Token) :
    (parseClassicArguments stop ts).plain =
      if atStatementEnd ts || nextIs ts ["else"] then .ok ([], ts) else do
        let (first, rest) ← (parseExpr stop ts).plain
        let (others, rest) ← (parseMoreArguments stop rest).plain
        return (first :: others, rest) := by
  rw [parseClassicArguments]
  split
  · rfl
  · refine Answer.plain_bind fun p => ?_
    exact Answer.plain_bind fun _ => rfl

theorem plain_parseExprStatement (line : Line) (ts : List Token) :
    (parseExprStatement stop line ts).plain = (do
      let (target, rest) ← (parsePostfix stop ts).plain
      if target.isPlace && nextIs rest ["="] then do
        let (value, rest) ← (parseExpr stop (rest.drop 1)).plain
        return (some (.assign target value line), rest)
      else do
        let (e, rest) ← (parseExpr stop ts).plain
        match e with
        | .call target args => return (some (.call target args line), rest)
        | e =>
          if e.isPlace then do
            let (args, rest) ← (parseClassicArguments stop rest).plain
            return (some (.call e args line), rest)
          else return (none, rest)) := by
  rw [parseExprStatement]
  refine Answer.plain_bind ?_
  rintro ⟨target, rest, h⟩
  simp only
  split
  · exact Answer.plain_bind fun _ => rfl
  · refine Answer.plain_bind ?_
    rintro ⟨e, rest', h'⟩
    cases e with
    | call target args => rfl
    | _ =>
      simp only
      split
      · exact Answer.plain_bind fun _ => rfl
      · rfl

end Simple

section Blocks

variable (stop : Token)

theorem plain_parseCond (line : Line) (ts : List Token) :
    (parseCond stop line ts).plain = (do
      let (test, rest) ← (parseExpr stop ts).plain
      let (_, rest) ← (expect stop "then" rest).plain
      match rest with
      | [] => return (.cond test [] [] [] line, [])
      | t :: rest =>
        if t.endsStatement then do
          let (body, rest) ← (parseBlock stop .branch (t :: rest)).plain
          let (elseIfs, rest) ← (parseElseIfs stop rest).plain
          let (otherwise, rest) ← (parseElse stop rest).plain
          return (.cond test body elseIfs otherwise line, afterEndIf rest)
        else do
          let (first, rest) ← (parseStatement stop t rest).plain
          if nextIs rest ["else"] then do
            let (second, rest) ← (parseSingle stop (rest.drop 1)).plain
            return (.cond test first.toList [] second line, rest)
          else return (.cond test first.toList [] [] line, rest)) := by
  rw [parseCond]
  refine Answer.plain_bind ?_
  rintro ⟨test, rest, h⟩
  refine Answer.plain_bind ?_
  rintro ⟨_, rest', h'⟩
  cases rest' with
  | nil => rfl
  | cons t rest' =>
    simp only
    split
    · refine Answer.plain_bind ?_
      rintro ⟨body, r, hr⟩
      refine Answer.plain_bind ?_
      rintro ⟨elseIfs, r', hr'⟩
      exact Answer.plain_bind fun _ => rfl
    · refine Answer.plain_bind ?_
      rintro ⟨first, r, hr⟩
      simp only
      split
      · exact Answer.plain_bind fun _ => rfl
      · rfl

theorem plain_parseElseIfs_cons (t : Token) (ts : List Token) :
    (parseElseIfs stop (t :: ts)).plain =
      if t.isSymbol "elseif" then do
        let (test, rest) ← (parseExpr stop ts).plain
        let (_, rest) ← (expect stop "then" rest).plain
        let (body, rest) ← (parseBlock stop .branch rest).plain
        let (others, rest) ← (parseElseIfs stop rest).plain
        return (.mk test body :: others, rest)
      else .ok ([], t :: ts) := by
  rw [parseElseIfs]
  split
  · refine Answer.plain_bind ?_
    rintro ⟨test, rest, h⟩
    refine Answer.plain_bind ?_
    rintro ⟨_, rest', h'⟩
    refine Answer.plain_bind ?_
    rintro ⟨body, r, hr⟩
    exact Answer.plain_bind fun _ => rfl
  · rfl

theorem plain_parseElse_cons (t : Token) (ts : List Token) :
    (parseElse stop (t :: ts)).plain =
      if t.isSymbol "else" then (parseBlock stop .lastBranch ts).plain
      else .ok ([], t :: ts) := by
  rw [parseElse]
  split
  · exact Answer.plain_last fun _ => rfl
  · rfl

theorem plain_parseFor_cons (line : Line) (v : Token) (ts : List Token) :
    (parseFor stop line (v :: ts)).plain =
      if v.kind = .identifier then do
        let (_, rest) ← (expect stop "=" ts).plain
        let (start, rest) ← (parseExpr stop rest).plain
        let (_, rest) ← (expect stop "to" rest).plain
        let (last, rest) ← (parseExpr stop rest).plain
        let (step, rest) ← (parseClause stop "step" rest).plain
        let (body, rest) ← (parseBlock stop .forBody rest).plain
        return (.forLoop v.text start last step body line, afterNext rest)
      else failAt v (.loopVariable v.text) := by
  rw [parseFor]
  split
  · refine Answer.plain_bind ?_
    rintro ⟨_, r₁, h₁⟩
    refine Answer.plain_bind ?_
    rintro ⟨start, r₂, h₂⟩
    refine Answer.plain_bind ?_
    rintro ⟨_, r₃, h₃⟩
    refine Answer.plain_bind ?_
    rintro ⟨last, r₄, h₄⟩
    refine Answer.plain_bind ?_
    rintro ⟨step, r₅, h₅⟩
    exact Answer.plain_bind fun _ => rfl
  · rfl

theorem plain_parseWhile (line : Line) (ts : List Token) :
    (parseWhile stop line ts).plain = (do
      let (test, rest) ← (parseExpr stop ts).plain
      let (body, rest) ← (parseBlock stop .whileBody rest).plain
      return (.whileLoop test body line, afterWend rest)) := by
  rw [parseWhile]
  refine Answer.plain_bind ?_
  rintro ⟨test, rest, h⟩
  exact Answer.plain_bind fun _ => rfl

theorem plain_parseDo (line : Line) (ts : List Token) :
    (parseDo stop line ts).plain =
      if nextIs ts ["while", "until"] then failAt (peek stop ts) .leadingTest else do
        let (body, rest) ← (parseBlock stop .doBody ts).plain
        let ((test, ending), rest) ← (parseLoopTest stop rest).plain
        return (.doLoop body test ending true line, rest) := by
  rw [parseDo]
  split
  · rfl
  · refine Answer.plain_bind ?_
    rintro ⟨body, rest, h⟩
    exact Answer.plain_bind fun _ => rfl

theorem plain_parseStatement (t : Token) (ts : List Token) :
    (parseStatement stop t ts).plain =
      if t.isSymbol "dim" then do
        let (s, rest) ← (parseDim stop t.line ts).plain
        return (some s, rest)
      else if t.isSymbol "if" then do
        let (s, rest) ← (parseCond stop t.line ts).plain
        return (some s, rest)
      else if t.isSymbol "for" then do
        let (s, rest) ← (parseFor stop t.line ts).plain
        return (some s, rest)
      else if t.isSymbol "while" then do
        let (s, rest) ← (parseWhile stop t.line ts).plain
        return (some s, rest)
      else if t.isSymbol "do" then do
        let (s, rest) ← (parseDo stop t.line ts).plain
        return (some s, rest)
      else if t.isSymbol "return" then do
        let (s, rest) ← (parseReturn stop t.line ts).plain
        return (some s, rest)
      else if t.isSymbol "exit" then
        .ok (some (parseExit t.line ts).value, (parseExit t.line ts).rest)
      else if t.isSymbol "end" then .ok (none, (parseStrayEnd ts).rest)
      else (parseExprStatement stop t.line (t :: ts)).plain := by
  rw [parseStatement]
  iterate 6 (split; · exact Answer.plain_bind fun _ => rfl)
  split
  · rfl
  · split
    · rfl
    · rfl

theorem plain_parseBlock (closer : Closer) (ts : List Token) :
    (parseBlock stop closer ts).plain =
      match skipNewlines ts with
      | [] => .ok ([], [])
      | t :: rest =>
        if atHandlerEnd (t :: rest) || closer.closes (t :: rest) then .ok ([], t :: rest)
        else do
          let (first, rest) ← (parseStatement stop t rest).plain
          let (others, rest) ← (parseBlock stop closer rest).plain
          return (first.toList ++ others, rest) := by
  rw [parseBlock]
  split
  · next hts _ => rw [hts]; rfl
  · next t rest h hts _ =>
    simp only [hts]
    split
    · rfl
    · refine Answer.plain_bind ?_
      rintro ⟨first, r, hr⟩
      exact Answer.plain_bind fun _ => rfl

theorem plain_parseSingle (ts : List Token) :
    (parseSingle stop ts).plain =
      match skipNewlines ts with
      | [] => .ok ([], [])
      | t :: rest => do
        let (first, rest) ← (parseStatement stop t rest).plain
        return (first.toList, rest) := by
  rw [parseSingle]
  split
  · next hts _ => rw [hts]; rfl
  · next t rest h hts _ =>
    simp only [hts]
    exact Answer.plain_bind fun _ => rfl

end Blocks

end FormBasic
