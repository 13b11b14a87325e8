import FormBasic.Grammar.Cursor
import FormBasic.Number.Decimal
import FormBasic.Tree.Basic

/-!
# Parsing expressions

Operators bind, from loosest to tightest: `Or`, `And`, `Not`, comparisons, `&`, sums, products,
powers, signs, and last member access and calls. Binary operators of one level associate to the
left.

## Main definitions

* `Level` - the levels of the binary operators
* `parseBinary` - an expression whose outermost operator has at least a given level
* `parsePostfix` - a primary expression with member accesses and calls
* `parseExpr` - any expression
-/

namespace FormBasic

-- ════════════════════════════════════════════════════════════════════════════
-- Levels
-- ════════════════════════════════════════════════════════════════════════════

/-- The levels of the binary operators, loosest first. -/
inductive Level where
  | disjunction | conjunction | comparison | concatenation | sum | product | power
  deriving Repr, DecidableEq

/-- The operators of a level. -/
def Level.operators : Level → List Text
  | .disjunction => ["or"]
  | .conjunction => ["and"]
  | .comparison => ["=", "<>", "<", ">", "<=", ">="]
  | .concatenation => ["&"]
  | .sum => ["+", "-"]
  | .product => ["*", "/", "\\", "mod"]
  | .power => ["^"]

/-- Distance of a level from the tightest one; it orders parsers that read the same tokens. -/
def Level.height : Level → Nat
  | .disjunction => 10
  | .conjunction => 9
  | .comparison => 7
  | .concatenation => 6
  | .sum => 5
  | .product => 4
  | .power => 3

/-- The type names that are keywords. -/
def typeKeywords : List Text :=
  ["integer", "string", "boolean", "double", "single", "long", "object"]

-- ════════════════════════════════════════════════════════════════════════════
-- Leaves
-- ════════════════════════════════════════════════════════════════════════════

/-- The number that a numeric token stands for: a float exactly when it has a point. -/
def numberOf (text : Text) : Except ParseFailure Number :=
  if text.toList.contains (.char '.') then
    match Number.readDecimal text with
    | .ok x => .ok (.float x)
    | .error r => .error (.refused r)
  else
    match Number.readInteger text with
    | .ok n => .ok (.int n)
    | .error r => .error (.refused r)

/-- The expression that a single token stands for, if it is one. -/
def leafOf? (t : Token) : Option (Except ParseFailure Expr) :=
  match t.kind with
  | .number => some ((numberOf t.text).map .number)
  | .string => some (.ok (.string t.text))
  | .identifier => some (.ok (.ident t.text))
  | _ =>
    if t.isAnyOf ["true", "false"] then some (.ok (.boolean (t.text == "true")))
    else if t.isSymbol "nothing" then some (.ok .nothing)
    else if t.isSymbol "me" then some (.ok (.ident "Me"))
    else if t.isAnyOf typeKeywords then some (.ok (.ident t.text))
    else none

/-- The further segments of a dotted type name, of which the last one counts. -/
def typeSegments (stop : Token) (name : Text) :
    (ts : List Token) → Parsed Text (ts.length + 1)
  | [] => ⟨name, [], Nat.succ_pos _⟩
  | [t] =>
    if t.isSymbol "." then ⟨stop.text, [], Nat.succ_pos _⟩ else ⟨name, [t], Nat.lt_succ_self _⟩
  | t :: n :: rest =>
    if t.isSymbol "." then
      (typeSegments stop n.text rest).weaken (by simp only [List.length_cons]; omega)
    else ⟨name, t :: n :: rest, Nat.lt_succ_self _⟩

/-- A possibly dotted type name, of which the last segment is kept. -/
def parseTypeName (stop : Token) : (ts : List Token) → Answer Text ts.length
  | [] => failAt stop (.typeName stop.text)
  | t :: rest =>
    if t.isName then .ok (typeSegments stop t.text rest) else failAt t (.typeName t.text)

-- ════════════════════════════════════════════════════════════════════════════
-- Expressions
-- ════════════════════════════════════════════════════════════════════════════

mutual

/-- An expression whose outermost binary operator has at least the given level. -/
def parseBinary (stop : Token) (level : Level) (ts : List Token) : Answer Expr ts.length := do
  let ⟨left, rest, h⟩ ← parseOperand stop level ts
  let ⟨e, rest', h'⟩ ← parseOperators stop level left rest
  return ⟨e, rest', by omega⟩
termination_by (ts.length, 2 * level.height + 1)

/-- An operand of a binary operator of the given level. -/
def parseOperand (stop : Token) (level : Level) (ts : List Token) : Answer Expr ts.length :=
  match level with
  | .disjunction => parseBinary stop .conjunction ts
  | .conjunction => parseNot stop ts
  | .comparison => parseBinary stop .concatenation ts
  | .concatenation => parseBinary stop .sum ts
  | .sum => parseBinary stop .product ts
  | .product => parseBinary stop .power ts
  | .power => parseSigned stop ts
termination_by (ts.length, 2 * level.height)
decreasing_by all_goals exact Prod.Lex.right _ (by decide)

/-- Further operators of one level and their right operands. -/
def parseOperators (stop : Token) (level : Level) (left : Expr) :
    (ts : List Token) → Answer Expr (ts.length + 1)
  | [] => .ok ⟨left, [], Nat.succ_pos _⟩
  | t :: ts =>
    if t.isAnyOf level.operators then do
      let ⟨right, rest, h⟩ ← parseOperand stop level ts
      let ⟨e, rest', h'⟩ ←
        parseOperators stop level (.binary (.ofText t.text) left right) rest
      return ⟨e, rest', by simp only [List.length_cons]; omega⟩
    else .ok ⟨left, t :: ts, Nat.lt_succ_self _⟩
termination_by ts => (ts.length, 0)
decreasing_by
  · simp only [List.length_cons]; exact Prod.Lex.left _ _ (by omega)
  · simp only [List.length_cons]; exact Prod.Lex.left _ _ (by omega)

/-- A negation, or an expression that binds tighter. -/
def parseNot (stop : Token) (ts : List Token) : Answer Expr ts.length :=
  match ts with
  | [] => parseBinary stop .comparison []
  | t :: rest =>
    if t.isSymbol "not" then do
      let ⟨e, rest', h⟩ ← parseNot stop rest
      return ⟨.unary .not e, rest', by simp only [List.length_cons]; omega⟩
    else parseBinary stop .comparison (t :: rest)
termination_by (ts.length, 16)
decreasing_by
  · exact Prod.Lex.right _ (by decide)
  · exact Prod.Lex.left _ _ (Nat.lt_succ_self _)
  · exact Prod.Lex.right _ (by decide)

/-- An expression with signs in front; a plus sign has no effect. -/
def parseSigned (stop : Token) (ts : List Token) : Answer Expr ts.length :=
  match ts with
  | [] => parsePostfix stop []
  | t :: rest =>
    if t.isSymbol "-" then do
      let ⟨e, rest', h⟩ ← parseSigned stop rest
      return ⟨.unary .neg e, rest', by simp only [List.length_cons]; omega⟩
    else if t.isSymbol "+" then do
      let p ← parseSigned stop rest
      return p.weaken (by simp only [List.length_cons]; omega)
    else parsePostfix stop (t :: rest)
termination_by (ts.length, 4)

/-- A primary expression with member accesses and calls. -/
def parsePostfix (stop : Token) (ts : List Token) : Answer Expr ts.length := do
  let ⟨e, rest, h⟩ ← parsePrimary stop ts
  let ⟨e', rest', h'⟩ ← parseSuffixes stop e rest
  return ⟨e', rest', by omega⟩
termination_by (ts.length, 3)

/-- Further member accesses and calls. -/
def parseSuffixes (stop : Token) (e : Expr) : (ts : List Token) → Answer Expr (ts.length + 1)
  | [] => .ok ⟨e, [], Nat.succ_pos _⟩
  | t :: ts =>
    if t.isSymbol "." then
      match ts with
      | [] => failAt stop (.memberName stop.text)
      | n :: ts' =>
        if n.isName then do
          let p ← parseSuffixes stop (.member e n.text) ts'
          return p.weaken (by simp only [List.length_cons]; omega)
        else failAt n (.memberName n.text)
    else if t.isSymbol "(" then do
      let ⟨args, rest, h⟩ ← parseArguments stop ts
      let ⟨e', rest', h'⟩ ← parseSuffixes stop (.call e args) rest
      return ⟨e', rest', by simp only [List.length_cons]; omega⟩
    else .ok ⟨e, t :: ts, Nat.lt_succ_self _⟩
termination_by ts => (ts.length, 0)
decreasing_by
  · simp only [List.length_cons]; exact Prod.Lex.left _ _ (by omega)
  · simp only [List.length_cons]; exact Prod.Lex.left _ _ (by omega)
  · simp only [List.length_cons]; exact Prod.Lex.left _ _ (by omega)

/-- The arguments of a call after its opening parenthesis, and the closing one. -/
def parseArguments (stop : Token) (ts : List Token) : Answer (List Expr) ts.length := do
  if h : nextIs ts [")"] then
    return ⟨[], ts.drop 1, by
      have := length_pos_of_nextIs h
      simp only [List.length_drop]; omega⟩
  else
    let ⟨first, rest, h⟩ ← parseBinary stop .disjunction ts
    let ⟨others, rest', h'⟩ ← parseMoreArguments stop rest
    let ⟨_, rest'', h''⟩ ← expect stop ")" rest'
    return ⟨first :: others, rest'', by omega⟩
termination_by (ts.length, 22)
decreasing_by
  · exact Prod.Lex.right _ (by decide)
  · exact Prod.Lex.left _ _ h

/-- Further arguments, each after a comma. -/
def parseMoreArguments (stop : Token) : (ts : List Token) → Answer (List Expr) (ts.length + 1)
  | [] => .ok ⟨[], [], Nat.succ_pos _⟩
  | t :: ts =>
    if t.isSymbol "," then do
      let ⟨e, rest, h⟩ ← parseBinary stop .disjunction ts
      let ⟨es, rest', h'⟩ ← parseMoreArguments stop rest
      return ⟨e :: es, rest', by simp only [List.length_cons]; omega⟩
    else .ok ⟨[], t :: ts, Nat.lt_succ_self _⟩
termination_by ts => (ts.length, 0)
decreasing_by
  · simp only [List.length_cons]; exact Prod.Lex.left _ _ (by omega)
  · simp only [List.length_cons]; exact Prod.Lex.left _ _ (by omega)

/-- The type name and the arguments after `New`, as a call of the type name. -/
def parseNew (stop : Token) (ts : List Token) : Answer (Text × List Expr) ts.length := do
  let ⟨name, rest, h⟩ ← parseTypeName stop ts
  match rest, h with
  | [], h => return ⟨(name, []), [], h⟩
  | t :: rest, h =>
    if t.isSymbol "(" then
      let ⟨args, rest', h'⟩ ← parseArguments stop rest
      return ⟨(name, args), rest', by simp only [List.length_cons] at h; omega⟩
    else return ⟨(name, []), t :: rest, h⟩
termination_by (ts.length, 0)
decreasing_by
  simp only [List.length_cons] at h
  exact Prod.Lex.left _ _ (by omega)

/-- An expression that starts with none of the operators. -/
def parsePrimary (stop : Token) (ts : List Token) : Answer Expr ts.length :=
  match ts with
  | [] => failAt stop .endOfStatement
  | t :: rest =>
    match leafOf? t with
    | some leaf => leaf.map fun e => ⟨e, rest, Nat.lt_succ_self _⟩
    | none =>
      if t.isSymbol "new" then do
        let ⟨(name, args), rest', h⟩ ← parseNew stop rest
        return ⟨.call (.ident name) args, rest', by simp only [List.length_cons]; omega⟩
      else if t.isSymbol "(" then do
        let ⟨e, rest', h⟩ ← parseBinary stop .disjunction rest
        let ⟨_, rest'', h'⟩ ← expect stop ")" rest'
        return ⟨e, rest'', by simp only [List.length_cons]; omega⟩
      else if t.kind = .newline then failAt t .endOfStatement
      else failAt t (.unexpected t.text)
termination_by (ts.length, 2)

end

/-- Any expression. -/
def parseExpr (stop : Token) (ts : List Token) : Answer Expr ts.length :=
  parseBinary stop .disjunction ts

end FormBasic
