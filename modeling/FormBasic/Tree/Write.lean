import FormBasic.Refusal
import FormBasic.Text.Blank
import FormBasic.Text.Case
import FormBasic.Tree.Basic

/-!
# Writing trees as source text

A tree is written one statement per line, blocks indented by four spaces. An operation inside
another one is always put in parentheses, so that reading the text does not depend on how tightly
operators bind. Comments are not part of a tree and are not written.

## Main definitions

* `WriteFault` - why a tree has no text
* `Expr.write` - an expression
* `Stmt.lines`, `blockLines` - statements as indented lines
* `writeBody`, `Program.write` - a handler's body, a module
-/

namespace FormBasic

/-- Why a tree has no text. -/
inductive WriteFault where
  /-- A node stands where its kind does not belong. -/
  | alien (kind : Text)
  /-- A number has no text. -/
  | refused (refusal : Refusal)
  deriving Repr, DecidableEq

/-- The wording of a write fault. -/
def WriteFault.message : WriteFault → Text
  | .alien kind => "Cannot format " ++ kind
  | .refused refusal => refusal.message

-- ════════════════════════════════════════════════════════════════════════════
-- Expressions
-- ════════════════════════════════════════════════════════════════════════════

/-- Operators that are words are written with a capital. -/
def operatorSpelling (text : Text) : Text :=
  if text = "and" then "And"
  else if text = "or" then "Or"
  else if text = "mod" then "Mod"
  else if text = "not" then "Not"
  else text

/-- The operator as it is written. -/
def BinaryOp.spelling (op : BinaryOp) : Text := operatorSpelling op.text

/-- The operator as it is written, and what separates it from its operand: a blank after a word. -/
def UnaryOp.spelling (op : UnaryOp) : Text :=
  let word := operatorSpelling op.text
  if Text.isAlphabetic word then word ++ " " else word

/-- A number literal. There is no way to write an exponent, so a float whose text would need one, or
that is not a number at all, is written with twenty places less its trailing zeros. -/
def Number.literal : Number → Except WriteFault Text
  | .int n => (integerText n).mapError .refused
  | .float x =>
    let text := Binary64.write x
    if text.toList.contains 'e' || text.toList.contains 'n' then
      let digits := Text.dropWhileEnd (· == '0') (Binary64.writeFixed 20 x).toList
      .ok (.ofChars (if digits.getLast? == some '.' then digits ++ ['0'] else digits))
    else .ok text

/-- A text in parentheses. -/
def parenthesized (s : Text) : Text := "(" ++ s ++ ")"

/-- Texts separated by commas. -/
def commaSeparated (texts : List Text) : Text := Text.joined ", " texts

/-- Whether a node stands in front of a point or a parenthesis without parentheses of its own. -/
def Expr.isSimple : Expr → Bool
  | .unary _ _ | .binary _ _ _ | .alien _ => false
  | _ => true

mutual

/-- An expression as source text; an outermost operation is left without parentheses. -/
def Expr.write : Expr → Except WriteFault Text
  | .number n => n.literal
  | .string s => .ok ("\"" ++ s ++ "\"")
  | .boolean b => .ok (if b then "True" else "False")
  | .nothing => .ok "Nothing"
  | .ident name => .ok name
  | .member object property => do
    let target ← object.write
    return (if object.isSimple then target else parenthesized target) ++ "." ++ property
  | .index object key => do
    let target ← object.write
    let argument ← key.write
    return (if object.isSimple then target else parenthesized target) ++ parenthesized argument
  | .call callee args => do
    let target ← callee.write
    let arguments ← writeAll args
    return (if callee.isSimple then target else parenthesized target) ++
      parenthesized (commaSeparated arguments)
  | .binary op left right => do
    let l ← left.write
    let r ← right.write
    return (if left.isSimple then l else parenthesized l) ++ " " ++ op.spelling ++ " " ++
      (if right.isSimple then r else parenthesized r)
  | .unary op operand => do
    let e ← operand.write
    return op.spelling ++ if operand.isSimple then e else parenthesized e
  | .alien kind => .error (.alien kind)
termination_by structural e => e

/-- Several expressions as source text. -/
def writeAll : List Expr → Except WriteFault (List Text)
  | [] => .ok []
  | e :: es => do
    let text ← e.write
    let texts ← writeAll es
    return text :: texts
termination_by structural es => es

end

-- ════════════════════════════════════════════════════════════════════════════
-- Statements
-- ════════════════════════════════════════════════════════════════════════════

/-- A line at a given depth of nesting. -/
def indented (depth : Nat) (text : Text) : Text :=
  Text.ofChars (List.replicate (4 * depth) ' ') ++ text

/-- A word and an expression, if there is one. -/
def writeClause (word : Text) : Option Expr → Except WriteFault Text
  | none => .ok ""
  | some e => do return word ++ (← e.write)

mutual

/-- A statement as indented lines. -/
def Stmt.lines (depth : Nat) : Stmt → Except WriteFault (List Text)
  | .dim name typeName initial _ => do
    let value ← writeClause " = " initial
    let type : Text := if typeName = "Object" then "" else " As " ++ typeName
    return [indented depth ("Dim " ++ name ++ type ++ value)]
  | .assign target value _ => do
    let t ← target.write
    let v ← value.write
    return [indented depth (t ++ " = " ++ v)]
  | .call callee args _ => do
    let arguments ← writeAll args
    let target ← callee.write
    return [indented depth ((if callee.isSimple then target else parenthesized target) ++
      parenthesized (commaSeparated arguments))]
  | .cond test body elseIfs otherwise _ => do
    let test ← test.write
    let body ← blockLines (depth + 1) body
    let branches ← elseIfLines depth elseIfs
    let last ← blockLines (depth + 1) otherwise
    return indented depth ("If " ++ test ++ " Then") :: body ++ branches ++
      (if otherwise.isEmpty then [] else indented depth "Else" :: last) ++
      [indented depth "End If"]
  | .forLoop counter start stop step body _ => do
    let start ← start.write
    let stop ← stop.write
    let step ← writeClause " Step " step
    let body ← blockLines (depth + 1) body
    return indented depth ("For " ++ counter ++ " = " ++ start ++ " To " ++ stop ++ step) ::
      body ++ [indented depth "Next"]
  | .whileLoop test body _ => do
    let test ← test.write
    let body ← blockLines (depth + 1) body
    return indented depth ("While " ++ test) :: body ++ [indented depth "Wend"]
  | .doLoop body test ending _ _ => do
    let test ← writeClause (if ending then " Until " else " While ") test
    let body ← blockLines (depth + 1) body
    return indented depth "Do" :: body ++ [indented depth ("Loop" ++ test)]
  | .ret value _ => do
    let value ← writeClause " " value
    return [indented depth ("Return" ++ value)]
  | .exit what _ => .ok [Text.trimRight (indented depth ("Exit " ++ Text.capitalize what))]
  | .alien kind => .error (.alien kind)
termination_by structural s => s

/-- A list of statements as indented lines. -/
def blockLines (depth : Nat) : List Stmt → Except WriteFault (List Text)
  | [] => .ok []
  | s :: ss => do
    let first ← s.lines depth
    let others ← blockLines depth ss
    return first ++ others
termination_by structural ss => ss

/-- The further branches of a conditional as indented lines. -/
def elseIfLines (depth : Nat) : List ElseIf → Except WriteFault (List Text)
  | [] => .ok []
  | e :: es => do
    let first ← e.lines depth
    let others ← elseIfLines depth es
    return first ++ others
termination_by structural es => es

/-- A further branch of a conditional as indented lines. -/
def ElseIf.lines (depth : Nat) : ElseIf → Except WriteFault (List Text)
  | .mk test body => do
    let test ← test.write
    let body ← blockLines (depth + 1) body
    return indented depth ("ElseIf " ++ test ++ " Then") :: body
termination_by structural e => e

end

-- ════════════════════════════════════════════════════════════════════════════
-- Bodies and modules
-- ════════════════════════════════════════════════════════════════════════════

/-- Lines as a text in which every line ends with a line feed. -/
def joinLines (lines : List Text) : Text := Text.joined "\n" lines ++ "\n"

/-- A handler's body as source text. -/
def writeBody (body : List Stmt) : Except WriteFault Text := do
  return joinLines (← blockLines 0 body)

/-- A handler as lines. -/
def handlerBlock (key : Text) (lines : List Text) : List Text :=
  ("Sub " ++ key ++ "()") :: lines.concat "End Sub"

/-- The empty line between what comes before and a handler. -/
def separation (before : List Text) : List Text := if before.isEmpty then [] else [""]

/-- Handlers as lines, one `Sub` each, after the lines before them; an empty line separates them
from what comes before. -/
def handlerLines : List Text → List (Text × List Stmt) → Except WriteFault (List Text)
  | before, [] => .ok before
  | before, (key, body) :: rest => do
    let lines ← blockLines 1 body
    handlerLines (before ++ separation before ++ handlerBlock key lines) rest

/-- A module as source text: the statements outside handlers, then the handlers. -/
def Program.write (p : Program) : Except WriteFault Text := do
  let declarations ← blockLines 0 p.declarations
  return joinLines (← handlerLines declarations p.handlers.entries)

end FormBasic
