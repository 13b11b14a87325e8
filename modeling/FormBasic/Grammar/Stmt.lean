import FormBasic.Grammar.Expr
import FormBasic.Text.Case

/-!
# Parsing statements

A block of statements is read until its closing words come up, never by counting openings, so a
missing closing word ends a block early instead of making the text unreadable. The end of a handler
closes every block.

## Main definitions

* `Closer` - the kinds of block, by what closes them
* `parseStatement` - one statement; some statements have no effect and no tree
* `parseBlock` - the statements of a block
-/

namespace FormBasic

-- ════════════════════════════════════════════════════════════════════════════
-- Closing words
-- ════════════════════════════════════════════════════════════════════════════

/-- The kinds of block, by what closes them. -/
inductive Closer where
  /-- A handler's body. -/
  | handler
  /-- A branch that others may follow. -/
  | branch
  /-- The last branch of a conditional. -/
  | lastBranch
  | forBody
  | whileBody
  | doBody
  deriving Repr, DecidableEq

/-- Whether a block of this kind is closed here. -/
def Closer.closes : Closer → List Token → Bool
  | .handler, _ => false
  | .branch, ts => nextIs ts ["else", "elseif"] || atEndOf ts ["if"]
  | .lastBranch, ts => atEndOf ts ["if"]
  | .forBody, ts => nextIs ts ["next"]
  | .whileBody, ts => nextIs ts ["wend"] || atEndOf ts ["while"]
  | .doBody, ts => nextIs ts ["loop"]

/-- Whether a handler ends here. -/
def atHandlerEnd (ts : List Token) : Bool := atEndOf ts ["sub", "function"]

/-- Drops the first `n` tokens under a condition. -/
def dropWhen (condition : Bool) (n : Nat) (ts : List Token) : List Token :=
  if condition then ts.drop n else ts

theorem length_dropWhen_le (condition : Bool) (n : Nat) (ts : List Token) :
    (dropWhen condition n ts).length ≤ ts.length := by
  cases condition <;> simp [dropWhen]

/-- The tokens after an `End If`. -/
def afterEndIf (ts : List Token) : List Token := dropWhen (atEndOf ts ["if"]) 2 ts

theorem length_afterEndIf_le (ts : List Token) : (afterEndIf ts).length ≤ ts.length :=
  length_dropWhen_le _ _ _

/-- The tokens after a `Next` and the counter it may name. -/
def afterNext (ts : List Token) : List Token :=
  let named := (ts.drop 1).head?.any fun t => t.kind == .identifier
  dropWhen (nextIs ts ["next"]) (if named then 2 else 1) ts

theorem length_afterNext_le (ts : List Token) : (afterNext ts).length ≤ ts.length :=
  length_dropWhen_le _ _ _

/-- The tokens after a `Wend` or an `End While`. -/
def afterWend (ts : List Token) : List Token :=
  if nextIs ts ["wend"] then ts.drop 1 else dropWhen (atEndOf ts ["while"]) 2 ts

theorem length_afterWend_le (ts : List Token) : (afterWend ts).length ≤ ts.length := by
  unfold afterWend
  split
  · simp
  · exact length_dropWhen_le _ _ _

-- ════════════════════════════════════════════════════════════════════════════
-- Simple statements
-- ════════════════════════════════════════════════════════════════════════════

/-- An expression after a given symbol, if the symbol is there. -/
def parseClause (stop : Token) (symbol : Text) :
    (ts : List Token) → Answer (Option Expr) (ts.length + 1)
  | [] => .ok (.stay none [])
  | t :: ts =>
    if t.isSymbol symbol then do
      let p ← parseExpr stop ts
      return (p.map some).next.next
    else .ok (.stay none (t :: ts))

/-- The type after `As`: a type name, or `New` with a type name and arguments, which also gives the
initial value. -/
def parseAs (stop : Token) : (ts : List Token) → Answer (Text × Option Expr) ts.length
  | [] => do
    let p ← parseTypeName stop []
    return p.map fun name => (name, none)
  | t :: ts =>
    if t.isSymbol "new" then do
      let p ← parseNew stop ts
      return (p.map fun made => (made.1, some (.call (.ident made.1) made.2))).next
    else do
      let p ← parseTypeName stop (t :: ts)
      return p.map fun name => (name, none)

/-- The type of a declaration that does not give one. -/
def defaultType : Text := "Object"

/-- The type of a declaration, the default one when none is given. -/
def parseType (stop : Token) :
    (ts : List Token) → Answer (Text × Option Expr) (ts.length + 1)
  | [] => .ok (.stay (defaultType, none) [])
  | t :: ts =>
    if t.isSymbol "as" then do
      let p ← parseAs stop ts
      return p.next.next
    else .ok (.stay (defaultType, none) (t :: ts))

/-- A declaration after `Dim`. -/
def parseDim (stop : Token) (line : Line) : (ts : List Token) → Answer Stmt (ts.length + 1)
  | [] => failAt stop (.variableName stop.text)
  | n :: ts =>
    if n.kind = .identifier then do
      let ⟨(typeName, made), rest, h⟩ ← parseType stop ts
      let ⟨given, rest', h'⟩ ← parseClause stop "=" rest
      return ⟨.dim n.text typeName (given.or made) line, rest',
        by simp only [List.length_cons]; omega⟩
    else failAt n (.variableName n.text)

/-- The rest of a `Return`. -/
def parseReturn (stop : Token) (line : Line) (ts : List Token) : Answer Stmt (ts.length + 1) :=
  if atStatementEnd ts then .ok (.stay (.ret none line) ts)
  else do
    let p ← parseExpr stop ts
    return (p.map fun e => .ret (some e) line).next

/-- The rest of an `Exit`. -/
def parseExit (line : Line) (ts : List Token) : Parsed Stmt (ts.length + 1) :=
  match ts with
  | [] => .stay (.exit "" line) []
  | t :: rest =>
    if t.endsStatement then .stay (.exit "" line) (t :: rest)
    else (Parsed.stay (.exit (Text.lower t.text) line) rest).next

/-- The rest of a stray `End`, which has no effect. -/
def parseStrayEnd (ts : List Token) : Parsed (Option Stmt) (ts.length + 1) :=
  ⟨none, dropWhen (ts.head?.any Token.isName) 1 ts, Nat.lt_succ_of_le (length_dropWhen_le _ _ _)⟩

/-- The rest of a `Do` loop from its `Loop` on: the test, if any, and the outcome that ends the
loop. -/
def parseLoopTest (stop : Token) :
    (ts : List Token) → Answer (Option Expr × Bool) (ts.length + 1)
  | [] => .ok (.stay (none, true) [])
  | t :: ts =>
    if t.isSymbol "loop" then
      match ts with
      | [] => .ok (Parsed.stay (none, true) []).next
      | u :: ts =>
        if u.isAnyOf ["until", "while"] then do
          let p ← parseExpr stop ts
          return (p.map fun test => (some test, u.text == "until")).next.next.next
        else .ok (Parsed.stay (none, true) (u :: ts)).next
    else .ok (.stay (none, true) (t :: ts))

/-- The arguments of a call written without parentheses. -/
def parseClassicArguments (stop : Token) (ts : List Token) :
    Answer (List Expr) (ts.length + 1) :=
  if atStatementEnd ts || nextIs ts ["else"] then .ok (.stay [] ts)
  else do
    let p ← parseExpr stop ts
    let q ← parseMoreArguments stop p.rest
    return ((p.andThen q).map fun es => p.value :: es).next

/-- Whether an expression can be assigned to, or called without parentheses. -/
def Expr.isPlace : Expr → Bool
  | .ident _ | .member _ _ => true
  | _ => false

/-- A statement that starts with an expression: an assignment, or a call with or without
parentheses. Any other expression has no effect. -/
def parseExprStatement (stop : Token) (line : Line) (ts : List Token) :
    Answer (Option Stmt) ts.length := do
  let ⟨target, rest, h⟩ ← parsePostfix stop ts
  if h' : target.isPlace && nextIs rest ["="] then
    let ⟨value, rest', h''⟩ ← parseExpr stop (rest.drop 1)
    return ⟨some (.assign target value line), rest', by
      simp only [List.length_drop] at h''; omega⟩
  else
    let ⟨e, rest', h''⟩ ← parseExpr stop ts
    match e with
    | .call target args => return ⟨some (.call target args line), rest', h''⟩
    | e =>
      if e.isPlace then
        let ⟨args, rest'', h'''⟩ ← parseClassicArguments stop rest'
        return ⟨some (.call e args line), rest'', by omega⟩
      else return ⟨none, rest', h''⟩

-- ════════════════════════════════════════════════════════════════════════════
-- Blocks
-- ════════════════════════════════════════════════════════════════════════════

mutual

/-- The statement that starts with `t`; none when it has no effect. -/
def parseStatement (stop t : Token) (ts : List Token) : Answer (Option Stmt) (ts.length + 1) :=
  if t.isSymbol "dim" then do return (← parseDim stop t.line ts).map some
  else if t.isSymbol "if" then do
    let p ← parseCond stop t.line ts
    return (p.map some).weaken (Nat.le_succ _)
  else if t.isSymbol "for" then do
    let p ← parseFor stop t.line ts
    return (p.map some).weaken (Nat.le_succ _)
  else if t.isSymbol "while" then do
    let p ← parseWhile stop t.line ts
    return (p.map some).weaken (Nat.le_succ _)
  else if t.isSymbol "do" then do return (← parseDo stop t.line ts).map some
  else if t.isSymbol "return" then do return (← parseReturn stop t.line ts).map some
  else if t.isSymbol "exit" then .ok ((parseExit t.line ts).map some)
  else if t.isSymbol "end" then .ok (parseStrayEnd ts)
  else parseExprStatement stop t.line (t :: ts)
termination_by (ts.length, 2)

/-- A conditional after `If`, on one line or over several. -/
def parseCond (stop : Token) (line : Line) (ts : List Token) : Answer Stmt ts.length := do
  let ⟨test, rest, h⟩ ← parseExpr stop ts
  let ⟨_, rest', h'⟩ ← expect stop "then" rest
  match rest', h' with
  | t :: rest', h' =>
    if t.endsStatement then
      let ⟨body, r, hr⟩ ← parseBlock stop .branch (t :: rest')
      let ⟨elseIfs, r', hr'⟩ ← parseElseIfs stop r
      let ⟨otherwise, r'', hr''⟩ ← parseElse stop r'
      return ⟨.cond test body elseIfs otherwise line, afterEndIf r'', by
        have := length_afterEndIf_le r''
        simp only [List.length_cons] at h' hr
        omega⟩
    else
      let ⟨first, r, hr⟩ ← parseStatement stop t rest'
      if nextIs r ["else"] then
        let ⟨second, r', hr'⟩ ← parseSingle stop (r.drop 1)
        return ⟨.cond test first.toList [] second line, r', by
          simp only [List.length_drop] at hr'
          simp only [List.length_cons] at h'
          omega⟩
      else
        return ⟨.cond test first.toList [] [] line, r, by
          simp only [List.length_cons] at h'; omega⟩
  | [], h' => return ⟨.cond test [] [] [] line, [], by simp only [List.length_nil] at h' ⊢; omega⟩
termination_by (ts.length, 1)
decreasing_by
  all_goals
    simp only [List.length_cons, List.length_drop] at *
    exact Prod.Lex.left _ _ (by omega)

/-- The `ElseIf` branches of a conditional. -/
def parseElseIfs (stop : Token) : (ts : List Token) → Answer (List ElseIf) (ts.length + 1)
  | [] => .ok ⟨[], [], Nat.succ_pos _⟩
  | t :: ts =>
    if t.isSymbol "elseif" then do
      let ⟨test, rest, h⟩ ← parseExpr stop ts
      let ⟨_, rest', h'⟩ ← expect stop "then" rest
      let ⟨body, r, hr⟩ ← parseBlock stop .branch rest'
      let ⟨others, r', hr'⟩ ← parseElseIfs stop r
      return ⟨.mk test body :: others, r', by simp only [List.length_cons]; omega⟩
    else .ok ⟨[], t :: ts, Nat.lt_succ_self _⟩
termination_by ts => (ts.length, 1)
decreasing_by
  all_goals
    simp only [List.length_cons]
    exact Prod.Lex.left _ _ (by omega)

/-- The `Else` branch of a conditional, if there is one. -/
def parseElse (stop : Token) : (ts : List Token) → Answer (List Stmt) (ts.length + 1)
  | [] => .ok ⟨[], [], Nat.succ_pos _⟩
  | t :: ts =>
    if t.isSymbol "else" then do
      let p ← parseBlock stop .lastBranch ts
      return p.weaken (by simp only [List.length_cons]; omega)
    else .ok ⟨[], t :: ts, Nat.lt_succ_self _⟩
termination_by ts => (ts.length, 1)

/-- A counting loop after `For`. -/
def parseFor (stop : Token) (line : Line) (ts : List Token) : Answer Stmt ts.length :=
  match ts with
  | [] => failAt stop (.loopVariable stop.text)
  | v :: ts =>
    if v.kind = .identifier then do
      let ⟨_, r₁, h₁⟩ ← expect stop "=" ts
      let ⟨start, r₂, h₂⟩ ← parseExpr stop r₁
      let ⟨_, r₃, h₃⟩ ← expect stop "to" r₂
      let ⟨last, r₄, h₄⟩ ← parseExpr stop r₃
      let ⟨step, r₅, h₅⟩ ← parseClause stop "step" r₄
      let ⟨body, r₆, h₆⟩ ← parseBlock stop .forBody r₅
      return ⟨.forLoop v.text start last step body line, afterNext r₆, by
        have := length_afterNext_le r₆
        simp only [List.length_cons]
        omega⟩
    else failAt v (.loopVariable v.text)
termination_by (ts.length, 1)
decreasing_by
  simp only [List.length_cons]
  exact Prod.Lex.left _ _ (by omega)

/-- A loop after `While`. -/
def parseWhile (stop : Token) (line : Line) (ts : List Token) : Answer Stmt ts.length := do
  let ⟨test, rest, h⟩ ← parseExpr stop ts
  let ⟨body, rest', h'⟩ ← parseBlock stop .whileBody rest
  return ⟨.whileLoop test body line, afterWend rest', by
    have := length_afterWend_le rest'
    omega⟩
termination_by (ts.length, 1)

/-- A loop after `Do`. -/
def parseDo (stop : Token) (line : Line) (ts : List Token) : Answer Stmt (ts.length + 1) :=
  if nextIs ts ["while", "until"] then failAt (peek stop ts) .leadingTest
  else do
    let ⟨body, rest, h⟩ ← parseBlock stop .doBody ts
    let ⟨(test, ending), rest', h'⟩ ← parseLoopTest stop rest
    return ⟨.doLoop body test ending true line, rest', by omega⟩
termination_by (ts.length, 1)

/-- The statements up to the end of a block. -/
def parseBlock (stop : Token) (closer : Closer) (ts : List Token) :
    Answer (List Stmt) (ts.length + 1) :=
  match skipNewlines ts, length_skipNewlines_le ts with
  | [], _ => .ok ⟨[], [], Nat.succ_pos _⟩
  | t :: rest, h =>
    if atHandlerEnd (t :: rest) || closer.closes (t :: rest) then
      .ok ⟨[], t :: rest, Nat.lt_succ_of_le h⟩
    else do
      let ⟨first, r, hr⟩ ← parseStatement stop t rest
      let ⟨others, r', hr'⟩ ← parseBlock stop closer r
      return ⟨first.toList ++ others, r', by simp only [List.length_cons] at h; omega⟩
termination_by (ts.length, 0)
decreasing_by
  all_goals
    simp only [List.length_cons] at h
    exact Prod.Lex.left _ _ (by omega)

/-- The next statement, if there is one, as a block of its own. -/
def parseSingle (stop : Token) (ts : List Token) : Answer (List Stmt) (ts.length + 1) :=
  match skipNewlines ts, length_skipNewlines_le ts with
  | [], _ => .ok ⟨[], [], Nat.succ_pos _⟩
  | t :: rest, h => do
    let ⟨first, r, hr⟩ ← parseStatement stop t rest
    return ⟨first.toList, r, by simp only [List.length_cons] at h; omega⟩
termination_by (ts.length, 0)
decreasing_by
  simp only [List.length_cons] at h
  exact Prod.Lex.left _ _ (by omega)

end

end FormBasic
