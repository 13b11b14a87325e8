import FormBasic.Line
import FormBasic.Number.Basic
import FormBasic.Table

/-!
# Syntax trees

Expressions, statements and modules. A statement remembers the line it started on. Trees may also be
built by other tools, so both sorts have a place for a node that does not belong there, known only
by the name of its kind, and operators have a place for one that the language does not have.

## Main definitions

* `BinaryOp`, `UnaryOp` - the operators
* `Expr` - expressions
* `Stmt`, `ElseIf` - statements and the further branches of a conditional
* `Program` - a module: top-level statements and handlers
-/

namespace FormBasic

-- ════════════════════════════════════════════════════════════════════════════
-- Operators
-- ════════════════════════════════════════════════════════════════════════════

/-- The operators between two operands. -/
inductive BinaryOp where
  | or | and
  | eq | ne | lt | gt | le | ge
  | concat
  | add | sub
  | mul | div | intDiv | mod
  | pow
  /-- An operator that the language does not have. -/
  | unknown (text : Text)
  deriving Repr, DecidableEq

/-- The operators before an operand. -/
inductive UnaryOp where
  | neg | not
  /-- An operator that the language does not have. -/
  | unknown (text : Text)
  deriving Repr, DecidableEq

/-- The text of the operator's token. -/
def BinaryOp.text : BinaryOp → Text
  | .or => "or" | .and => "and"
  | .eq => "=" | .ne => "<>" | .lt => "<" | .gt => ">" | .le => "<=" | .ge => ">="
  | .concat => "&"
  | .add => "+" | .sub => "-"
  | .mul => "*" | .div => "/" | .intDiv => "\\" | .mod => "mod"
  | .pow => "^"
  | .unknown text => text

/-- The operators of the language. -/
def BinaryOp.known : List BinaryOp :=
  [.or, .and, .eq, .ne, .lt, .gt, .le, .ge, .concat, .add, .sub, .mul, .div, .intDiv, .mod, .pow]

/-- The operator whose token has a given text. -/
def BinaryOp.ofText (text : Text) : BinaryOp :=
  match known.find? fun op => op.text == text with
  | some op => op
  | none => .unknown text

/-- The text of the operator's token. -/
def UnaryOp.text : UnaryOp → Text
  | .neg => "-"
  | .not => "not"
  | .unknown text => text

/-- The operator whose token has a given text. -/
def UnaryOp.ofText (text : Text) : UnaryOp :=
  if text = "-" then .neg else if text = "not" then .not else .unknown text

-- ════════════════════════════════════════════════════════════════════════════
-- Expressions and statements
-- ════════════════════════════════════════════════════════════════════════════

/-- Expressions. -/
inductive Expr where
  | number (value : Number)
  | string (value : Text)
  | boolean (value : Bool)
  | nothing
  | ident (name : Text)
  /-- `object.property` -/
  | member (object : Expr) (property : Text)
  /-- An indexed object, which other tools build; in source text `x(i)` is a call. -/
  | index (object key : Expr)
  /-- `target(args)` -/
  | call (target : Expr) (args : List Expr)
  | binary (op : BinaryOp) (left right : Expr)
  | unary (op : UnaryOp) (operand : Expr)
  /-- A node that is no expression. -/
  | alien (kind : Text)

instance : Inhabited Expr := ⟨.nothing⟩

mutual

/-- Statements, each with the line it starts on. -/
inductive Stmt where
  /-- `Dim name As typeName = initial` -/
  | dim (name typeName : Text) (initial : Option Expr) (line : Line)
  | assign (target value : Expr) (line : Line)
  /-- A call whose result is dropped. -/
  | call (target : Expr) (args : List Expr) (line : Line)
  | cond (test : Expr) (body : List Stmt) (elseIfs : List ElseIf) (otherwise : List Stmt)
      (line : Line)
  | forLoop (counter : Text) (start stop : Expr) (step : Option Expr) (body : List Stmt)
      (line : Line)
  | whileLoop (test : Expr) (body : List Stmt) (line : Line)
  /-- A loop with its test, if any, after the body; the loop ends when the test comes out as
  `ending`. -/
  | doLoop (body : List Stmt) (test : Option Expr) (ending testAtEnd : Bool) (line : Line)
  | ret (value : Option Expr) (line : Line)
  | exit (what : Text) (line : Line)
  /-- A node that is no statement. -/
  | alien (kind : Text)

/-- A further branch of a conditional. -/
inductive ElseIf where
  | mk (test : Expr) (body : List Stmt)

end

instance : Inhabited Stmt := ⟨.alien ""⟩

instance : Inhabited ElseIf := ⟨.mk default []⟩

/-- A module: the statements outside handlers, and the handlers by name. -/
structure Program where
  declarations : List Stmt := []
  handlers : Table (List Stmt) := .empty

end FormBasic
