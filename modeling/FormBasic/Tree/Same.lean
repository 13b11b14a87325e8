import FormBasic.Tree.Basic

/-!
# Equal trees

Two trees are the same when they differ at most in the lines their statements start on. Numbers are
compared by value, so that `1` is the same literal as `1.0`, and handler tables without regard to
order.

## Main definitions

* `Expr.same`, `Stmt.same` - equality of trees
* `sameBlock` - equality of statement lists
* `Program.same` - equality of modules
-/

namespace FormBasic

mutual

/-- Whether two expressions are the same. -/
def Expr.same : Expr → Expr → Bool
  | .number a, .number b => Number.same a b
  | .string a, .string b => a == b
  | .boolean a, .boolean b => a == b
  | .nothing, .nothing => true
  | .ident a, .ident b => a == b
  | .member o p, .member o' p' => o.same o' && p == p'
  | .index o k, .index o' k' => o.same o' && k.same k'
  | .call t as, .call t' as' => t.same t' && sameExprs as as'
  | .binary op l r, .binary op' l' r' => op == op' && l.same l' && r.same r'
  | .unary op e, .unary op' e' => op == op' && e.same e'
  | .alien k, .alien k' => k == k'
  | _, _ => false
termination_by structural e => e

/-- Whether two lists of expressions are the same. -/
def sameExprs : List Expr → List Expr → Bool
  | [], [] => true
  | a :: as, b :: bs => a.same b && sameExprs as bs
  | _, _ => false
termination_by structural e => e

end

/-- Whether two optional expressions are the same. -/
def sameOption : Option Expr → Option Expr → Bool
  | none, none => true
  | some a, some b => a.same b
  | _, _ => false

mutual

/-- Whether two statements are the same, apart from their lines. -/
def Stmt.same : Stmt → Stmt → Bool
  | .dim n t i _, .dim n' t' i' _ => n == n' && t == t' && sameOption i i'
  | .assign t v _, .assign t' v' _ => t.same t' && v.same v'
  | .call t as _, .call t' as' _ => t.same t' && sameExprs as as'
  | .cond c b es o _, .cond c' b' es' o' _ =>
    c.same c' && sameBlock b b' && sameElseIfs es es' && sameBlock o o'
  | .forLoop v s e st b _, .forLoop v' s' e' st' b' _ =>
    v == v' && s.same s' && e.same e' && sameOption st st' && sameBlock b b'
  | .whileLoop c b _, .whileLoop c' b' _ => c.same c' && sameBlock b b'
  | .doLoop b c u p _, .doLoop b' c' u' p' _ =>
    sameBlock b b' && sameOption c c' && u == u' && p == p'
  | .ret v _, .ret v' _ => sameOption v v'
  | .exit w _, .exit w' _ => w == w'
  | .alien k, .alien k' => k == k'
  | _, _ => false
termination_by structural e => e

/-- Whether two statement lists are the same, apart from lines. -/
def sameBlock : List Stmt → List Stmt → Bool
  | [], [] => true
  | s :: ss, s' :: ss' => s.same s' && sameBlock ss ss'
  | _, _ => false
termination_by structural e => e

/-- Whether two lists of further branches are the same, apart from lines. -/
def sameElseIfs : List ElseIf → List ElseIf → Bool
  | [], [] => true
  | e :: es, e' :: es' => e.same e' && sameElseIfs es es'
  | _, _ => false
termination_by structural e => e

/-- Whether two further branches are the same, apart from lines. -/
def ElseIf.same : ElseIf → ElseIf → Bool
  | .mk c b, .mk c' b' => c.same c' && sameBlock b b'
termination_by structural e => e

end

/-- Whether two modules are the same, apart from lines and from the order of their handlers. -/
def Program.same (p q : Program) : Bool :=
  sameBlock p.declarations q.declarations && p.handlers.size == q.handlers.size &&
    p.handlers.entries.all fun e =>
      match q.handlers.get? e.1 with
      | some body => sameBlock e.2 body
      | none => false

end FormBasic
