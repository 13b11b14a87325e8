import FormBasic.Json.Basic
import FormBasic.Tree.Basic

/-!
# Syntax trees as JSON documents

Every node becomes an object that starts with the name of the node's kind and goes on with its parts
in a fixed order; a part that is absent is null. The handlers of a module become an object by name.

## Main definitions

* `Expr.toJson`, `Stmt.toJson`, `Program.toJson`
-/

namespace FormBasic

/-- The object of a node. -/
def nodeJson (kind : Text) (parts : List (Text × Json)) : Json :=
  .object (("node", .text kind) :: parts)

/-- A number as a document. -/
def Number.toJson : Number → Json
  | .int n => .int n
  | .float x => .float x

/-- The line of a statement as a part of its node. -/
def linePart (line : Line) : Text × Json :=
  ("line", match line with | some n => .int n | none => .null)

mutual

/-- An expression as a document. -/
def Expr.toJson : Expr → Json
  | .number n => nodeJson "NumberLiteral" [("value", n.toJson)]
  | .string s => nodeJson "StringLiteral" [("value", .text s)]
  | .boolean b => nodeJson "BooleanLiteral" [("value", .bool b)]
  | .nothing => nodeJson "NothingLiteral" []
  | .ident name => nodeJson "Identifier" [("name", .text name)]
  | .member object property =>
    nodeJson "Member" [("object", object.toJson), ("property", .text property)]
  | .index object key => nodeJson "Index" [("object", object.toJson), ("index", key.toJson)]
  | .call target args =>
    nodeJson "CallExpr" [("target", target.toJson), ("args", .list (exprsJson args))]
  | .binary op left right =>
    nodeJson "Binary" [("op", .text op.text), ("left", left.toJson), ("right", right.toJson)]
  | .unary op operand => nodeJson "Unary" [("op", .text op.text), ("operand", operand.toJson)]
  | .alien kind => nodeJson kind []
termination_by structural e => e

/-- Several expressions as documents. -/
def exprsJson : List Expr → List Json
  | [] => []
  | e :: es => e.toJson :: exprsJson es
termination_by structural es => es

end

/-- An expression that may be absent. -/
def optionalJson : Option Expr → Json
  | some e => e.toJson
  | none => .null

mutual

/-- A statement as a document. -/
def Stmt.toJson : Stmt → Json
  | .dim name typeName initial line =>
    nodeJson "Dim" [("name", .text name), ("type_name", .text typeName),
      ("initializer", optionalJson initial), linePart line]
  | .assign target value line =>
    nodeJson "Assignment" [("target", target.toJson), ("value", value.toJson), linePart line]
  | .call target args line =>
    nodeJson "CallStatement" [("target", target.toJson), ("args", .list (exprsJson args)),
      linePart line]
  | .cond test body elseIfs otherwise line =>
    nodeJson "If" [("condition", test.toJson), ("then_block", .list (blockJson body)),
      ("elseif_clauses", .list (elseIfsJson elseIfs)), ("else_block", .list (blockJson otherwise)),
      linePart line]
  | .forLoop counter start stop step body line =>
    nodeJson "For" [("variable", .text counter), ("start", start.toJson), ("end", stop.toJson),
      ("step", optionalJson step), ("body", .list (blockJson body)), linePart line]
  | .whileLoop test body line =>
    nodeJson "While" [("condition", test.toJson), ("body", .list (blockJson body)), linePart line]
  | .doLoop body test ending testAtEnd line =>
    nodeJson "DoLoop" [("body", .list (blockJson body)), ("condition", optionalJson test),
      ("until", .bool ending), ("condition_at_end", .bool testAtEnd), linePart line]
  | .ret value line => nodeJson "Return" [("value", optionalJson value), linePart line]
  | .exit what line => nodeJson "Exit" [("what", .text what), linePart line]
  | .alien kind => nodeJson kind []
termination_by structural s => s

/-- The statements of a block as documents. -/
def blockJson : List Stmt → List Json
  | [] => []
  | s :: ss => s.toJson :: blockJson ss
termination_by structural ss => ss

/-- Further branches as documents. -/
def elseIfsJson : List ElseIf → List Json
  | [] => []
  | c :: cs => c.toJson :: elseIfsJson cs
termination_by structural cs => cs

/-- A further branch as a document. -/
def ElseIf.toJson : ElseIf → Json
  | .mk test body =>
    nodeJson "ElseIfClause" [("condition", test.toJson), ("block", .list (blockJson body))]
termination_by structural c => c

end

/-- A module as a document. -/
def Program.toJson (p : Program) : Json :=
  nodeJson "Program" [("declarations", .list (blockJson p.declarations)),
    ("handlers", .object (p.handlers.entries.map fun e => (e.1, .list (blockJson e.2))))]

end FormBasic
