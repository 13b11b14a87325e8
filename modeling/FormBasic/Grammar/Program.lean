import FormBasic.Grammar.Stmt

/-!
# Parsing modules

A module is made of `Sub` and `Function` blocks, which become handlers, and of statements outside
them. A class around them has no effect. A block is stored under its name and under one key for each
event that its `Handles` clause lists.

## Main definitions

* `parseSub` - one handler: its keys and its body
* `Stream.program`, `Program.parse` - a module
* `Stream.body`, `parseBody` - the body of one handler
* `Stream.expr`, `Expr.parse` - one expression
-/

namespace FormBasic

-- ════════════════════════════════════════════════════════════════════════════
-- Handlers
-- ════════════════════════════════════════════════════════════════════════════

/-- The words for the form itself in a `Handles` clause, in lower case. -/
def formWords : List String := ["me", "mybase"]

/-- The key of an event in a `Handles` clause; the form itself goes by `Me`. -/
def eventKey (owner event : Text) : Text :=
  let owner : Text := if formWords.contains (Text.word owner) then "Me" else owner
  owner ++ "_" ++ event

/-- The keys that a `Handles` clause lists. -/
def parseHandles (stop : Token) (ts : List Token) : Answer (List Text) (ts.length + 1) :=
  match ts with
  | [] => .ok (.stay [] [])
  | owner :: ts =>
    if owner.endsStatement then .ok (.stay [] (owner :: ts))
    else
      match ts with
      | [] => failAt stop .pointInHandles
      | point :: ts =>
        if !point.isSymbol "." then failAt point .pointInHandles
        else
          let key := eventKey owner.text (peek stop ts).text
          if nextIs (ts.drop 1) [","] then do
            let p ← parseHandles stop (ts.drop 2)
            return (p.map fun keys => key :: keys).ofDrop.next.next
          else .ok (Parsed.stay [key] (ts.drop 1)).ofDrop.next.next
termination_by ts.length
decreasing_by simp only [List.length_cons, List.length_drop]; omega

/-- The keys in the rest of a handler's first line; everything but `Handles` clauses is passed
over. -/
def parseHeader (stop : Token) (ts : List Token) : Answer (List Text) (ts.length + 1) :=
  match ts with
  | [] => .ok (.stay [] [])
  | t :: ts =>
    if t.endsStatement then .ok (.stay [] (t :: ts))
    else if t.kind = .identifier ∧ Text.lower t.text = "handles" then do
      let p ← parseHandles stop ts
      let q ← parseHeader stop p.rest
      return ((p.andThen q).map fun others => p.value ++ others).next
    else do
      let p ← parseHeader stop ts
      return p.next
termination_by ts.length
decreasing_by
  · exact p.fewer
  · exact Nat.lt_succ_self _

/-- The tokens after the parenthesis that closes `depth` open ones. -/
def skipParentheses (depth : Nat) : List Token → List Token
  | [] => []
  | t :: ts =>
    if t.isSymbol "(" then skipParentheses (depth + 1) ts
    else if t.isSymbol ")" then if depth ≤ 1 then ts else skipParentheses (depth - 1) ts
    else skipParentheses depth ts

theorem length_skipParentheses_le (depth : Nat) (ts : List Token) :
    (skipParentheses depth ts).length ≤ ts.length := by
  induction ts generalizing depth with
  | nil => simp [skipParentheses]
  | cons t ts ih =>
    simp only [skipParentheses, List.length_cons]
    split
    · exact Nat.le_succ_of_le (ih _)
    · split
      · split
        · exact Nat.le_succ _
        · exact Nat.le_succ_of_le (ih _)
      · exact Nat.le_succ_of_le (ih _)

/-- The tokens after a parameter list, which has no effect. -/
def afterParameters (ts : List Token) : List Token :=
  if nextIs ts ["("] then skipParentheses 0 ts else ts

theorem length_afterParameters_le (ts : List Token) : (afterParameters ts).length ≤ ts.length := by
  unfold afterParameters
  split
  · exact length_skipParentheses_le _ _
  · exact Nat.le_refl _

/-- A handler after `Sub` or `Function`: the keys it is stored under, and its body. -/
def parseSub (stop word : Token) (ts : List Token) :
    Answer (List Text × List Stmt) (ts.length + 1) :=
  match ts with
  | [] => failAt stop (.nameAfter word.text)
  | name :: ts =>
    if name.kind = .identifier then do
      let ⟨keys, rest, h⟩ ← parseHeader stop (afterParameters ts)
      let ⟨body, rest', h'⟩ ← parseBlock stop .handler rest
      return ⟨(name.text :: keys, body), dropWhen (atHandlerEnd rest') 2 rest', by
        have := length_afterParameters_le ts
        have := length_dropWhen_le (atHandlerEnd rest') 2 rest'
        simp only [List.length_cons]
        omega⟩
    else failAt name (.nameAfter word.text)

-- ════════════════════════════════════════════════════════════════════════════
-- Modules
-- ════════════════════════════════════════════════════════════════════════════

/-- Stores one body under several keys. -/
def Program.addHandlers (p : Program) (keys : List Text) (body : List Stmt) : Program :=
  { p with handlers := keys.foldl (fun table key => table.set key body) p.handlers }

/-- The words that start a line that is passed over, in lower case. -/
def ignoredWords : List String := ["imports", "option"]

/-- Whether the token starts a line that is passed over. -/
def startsIgnoredLine (t : Token) : Bool :=
  t.kind == .identifier && ignoredWords.contains (Text.word t.text)

/-- Reads the rest of a module into `p`. -/
def parseItems (stop : Token) (p : Program) (ts : List Token) : Except ParseFailure Program :=
  match skipNewlines ts, length_skipNewlines_le ts with
  | [], _ => .ok p
  | t :: rest, _h =>
    if t.isAnyOf ["private", "public"] then parseItems stop p rest
    else if t.isSymbol "class" then
      parseItems stop p (dropWhen (!atStatementEnd rest) 1 rest)
    else if atEndOf (t :: rest) ["class", "sub", "function"] then
      parseItems stop p (rest.drop 1)
    else if t.isAnyOf ["sub", "function"] then do
      let ⟨(keys, body), rest', _h'⟩ ← parseSub stop t rest
      parseItems stop (p.addHandlers keys body) rest'
    else if startsIgnoredLine t then
      parseItems stop p (rest.dropWhile fun t => !t.endsStatement)
    else do
      let ⟨stmt, rest', _h'⟩ ← parseStatement stop t rest
      parseItems stop { p with declarations := p.declarations ++ stmt.toList } rest'
termination_by ts.length
decreasing_by
  · simp only [List.length_cons] at _h; omega
  · have := length_dropWhen_le (!atStatementEnd rest) 1 rest
    simp only [List.length_cons] at _h; omega
  · simp only [List.length_cons] at _h
    simp only [List.length_drop]; omega
  · simp only [List.length_cons] at _h; omega
  · have := length_dropWhile_le (fun t : Token => !t.endsStatement) rest
    simp only [List.length_cons] at _h; omega
  · simp only [List.length_cons] at _h; omega

-- ════════════════════════════════════════════════════════════════════════════
-- Entry points
-- ════════════════════════════════════════════════════════════════════════════

/-- The module that a stream of tokens spells. -/
def Stream.program (s : Stream) : Except ParseFailure Program := parseItems s.stop {} s.tokens

/-- The handler body that a stream starts with, up to the end of the handler. -/
def Stream.body (s : Stream) : Except ParseFailure (List Stmt) := do
  let p ← parseBlock s.stop .handler s.tokens
  return p.value

/-- The expression that a stream starts with. -/
def Stream.leadingExpr (s : Stream) : Except ParseFailure Expr := do
  let p ← parseExpr s.stop s.tokens
  return p.value

/-- The expression that a stream spells; only line ends may stand around it. -/
def Stream.expr (s : Stream) : Except ParseFailure Expr := do
  let p ← parseExpr s.stop (skipNewlines s.tokens)
  match skipNewlines p.rest with
  | [] => return p.value
  | t :: _ => failAt t (.trailing t.text)

/-- Parses a module. -/
def Program.parse (source : Text) : Except ParseFailure Program :=
  (Stream.ofSource source).program

/-- Parses the body of a handler. -/
def parseBody (source : Text) : Except ParseFailure (List Stmt) := (Stream.ofSource source).body

/-- Parses an expression. -/
def Expr.parse (source : Text) : Except ParseFailure Expr := (Stream.ofSource source).expr

end FormBasic
