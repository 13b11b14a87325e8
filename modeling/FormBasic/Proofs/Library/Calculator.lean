import FormBasic.Proofs.Grammar.Trimming
import FormBasic.Proofs.Script.Running
import FormBasic.Session.Event

/-!
# The calculator and the interpreter

The calculator takes the same texts apart as the interpreter, but computes only what is arithmetic:
a name, a call, a comparison or a string anywhere in the tree makes the whole expression invalid,
whatever its value would be. On sums, differences and products of integers it agrees with the
interpreter, which normalises every intermediate result where the calculator normalises the last
one only, and which reports what goes wrong where the calculator fails.

## Main definitions

* `Expr.isArithmeticNode` - the nodes that the calculator computes
* `Expr.integer?` - the exact value of integers, negations, sums, differences and products
* `Likeness.arithmetic` - trees that are the same, or none of which is arithmetic

## Main statements

* `Library.every_of_calculate`, `Library.calculate_of_integer?` - the calculator on trees
* `Script.eval_of_integer?` - the interpreter on trees
* `Library.evaluateText_sandboxed` - the calculator on texts
-/

namespace FormBasic

-- ════════════════════════════════════════════════════════════════════════════
-- Arithmetic trees
-- ════════════════════════════════════════════════════════════════════════════

/-- Whether the node itself is arithmetic: a number, a minus sign, or an operator on numbers. -/
def Expr.isArithmeticNode : Expr → Bool
  | .number _ => true
  | .unary op _ => op = .neg
  | .binary op _ _ => [.add, .sub, .mul, .div, .intDiv, .mod, .pow].contains op
  | _ => false

/-- The operators that give an integer on integers. -/
def BinaryOp.onIntegers? : BinaryOp → Option (Int → Int → Int)
  | .add => some (· + ·)
  | .sub => some (· - ·)
  | .mul => some (· * ·)
  | _ => none

/-- The exact value of a tree of integers, minus signs, sums, differences and products. -/
def Expr.integer? : Expr → Option Int
  | .number (.int n) => some n
  | .unary .neg e => (integer? e).map (- ·)
  | .binary op l r =>
    match op.onIntegers?, integer? l, integer? r with
    | some f, some a, some b => some (f a b)
    | _, _, _ => none
  | _ => none

/-- Trees that are the same, or that both hold something that is not arithmetic. -/
def Likeness.arithmetic : Likeness where
  same e e' := e = e' ∨
    e.every Expr.isArithmeticNode = false ∧ e'.every Expr.isArithmeticNode = false
  names _ _ := True
  refl _ := .inl rfl
  unary op _ _ operand := by
    refine operand.imp (congrArg _) fun ⟨h, h'⟩ => ?_
    simp only [Expr.every, h, h', Bool.and_false, and_self]
  binary op _ _ _ _ left right := by
    rcases left with rfl | ⟨h, h'⟩
    · refine right.imp (congrArg _) fun ⟨h, h'⟩ => ?_
      simp only [Expr.every, h, h', Bool.and_false, and_self]
    · simp only [Expr.every, h, h', Bool.and_false, Bool.false_and, and_self, or_true]
  member _ _ _ _ := .inr ⟨rfl, rfl⟩
  call _ _ := .inr ⟨rfl, rfl⟩
  made _ _ := .inr ⟨rfl, rfl⟩

theorem Likeness.ignoresEnds_arithmetic : Likeness.arithmetic.IgnoresEnds :=
  ⟨fun _ _ => .inr ⟨rfl, rfl⟩, fun _ _ => trivial⟩

section Operators

variable {op : BinaryOp} {f : Int → Int → Int}

theorem isArithmeticNode_binary (op : BinaryOp) (l r : Expr) :
    (Expr.binary op l r).isArithmeticNode = (Library.arithmetic? op).isSome := by
  cases op <;> rfl

/-- On integers, an operator that gives an integer is computed exactly. -/
theorem exists_arithmetic?_of_onIntegers? (h : op.onIntegers? = some f) :
    ∃ g, Library.arithmetic? op = some g ∧ Library.divides op = false ∧
      ∀ a b, g (.int a) (.int b) = .ok (.int (f a b)) := by
  cases op <;> cases h
  · exact ⟨_, rfl, rfl, Number.add_int⟩
  · exact ⟨_, rfl, rfl, Number.sub_int⟩
  · exact ⟨_, rfl, rfl, Number.mul_int⟩

theorem exists_of_integer?_unary {op : UnaryOp} {e : Expr} {n : Int}
    (h : (Expr.unary op e).integer? = some n) :
    ∃ a, op = .neg ∧ e.integer? = some a ∧ n = -a := by
  cases op with
  | neg =>
    obtain ⟨a, ha, rfl⟩ := Option.map_eq_some_iff.1 h
    exact ⟨a, rfl, ha, rfl⟩
  | not | unknown => cases h

theorem exists_of_integer?_binary {l r : Expr} {n : Int}
    (h : (Expr.binary op l r).integer? = some n) :
    ∃ f a b, op.onIntegers? = some f ∧ l.integer? = some a ∧ r.integer? = some b ∧ n = f a b := by
  rw [Expr.integer?] at h
  split at h
  · next f a b hop ha hb => exact ⟨f, a, b, hop, ha, hb, (Option.some.inj h).symm⟩
  · cases h

end Operators

-- ════════════════════════════════════════════════════════════════════════════
-- Trees
-- ════════════════════════════════════════════════════════════════════════════

namespace Library

/-- What the calculator computes is arithmetic throughout. -/
theorem every_of_calculate : ∀ {e : Expr} {n : Number}, calculate e = .ok n →
    e.every Expr.isArithmeticNode = true
  | .number _, _, _ => rfl
  | .unary op operand, _, h => by
    cases op with
    | neg =>
      obtain ⟨a, ha, -⟩ := bind_eq_ok h
      rw [Expr.every, every_of_calculate ha]
      rfl
    | not | unknown => cases h
  | .binary op left right, _, h => by
    obtain ⟨a, ha, h⟩ := bind_eq_ok h
    obtain ⟨b, hb, h⟩ := bind_eq_ok h
    rw [Expr.every, every_of_calculate ha, every_of_calculate hb, isArithmeticNode_binary]
    cases hop : arithmetic? op with
    | none =>
      rw [hop] at h
      cases h
    | some f => rfl

/-- A tree that holds anything else is not computed. -/
theorem exists_calculate_error {e : Expr} (h : e.every Expr.isArithmeticNode = false) :
    ∃ cause, calculate e = .error cause := by
  cases hcalculate : calculate e with
  | error cause => exact ⟨cause, rfl⟩
  | ok n =>
    rw [every_of_calculate hcalculate] at h
    cases h

/-- Integers, negations, sums, differences and products are computed exactly. -/
theorem calculate_of_integer? : ∀ {e : Expr} {n : Int}, e.integer? = some n →
    calculate e = .ok (.int n)
  | .number (.int m), _, h => by
    cases h
    rfl
  | .unary op e, _, h => by
    obtain ⟨a, rfl, ha, rfl⟩ := exists_of_integer?_unary h
    rw [calculate, calculate_of_integer? ha]
    rfl
  | .binary op l r, _, h => by
    obtain ⟨f, a, b, hop, ha, hb, rfl⟩ := exists_of_integer?_binary h
    obtain ⟨g, hg, hdivides, hexact⟩ := exists_arithmetic?_of_onIntegers? hop
    rw [calculate, calculate_of_integer? ha, calculate_of_integer? hb]
    simp only [bind, Except.bind, hg, hdivides, hexact, Bool.false_and]
    rfl

end Library

namespace Script

theorem applyBinary_of_onIntegers? {op : BinaryOp} {f : Int → Int → Int}
    (h : op.onIntegers? = some f) (line : Line) (a b : Int) (w : World) :
    applyBinary line op (.int a) (.int b) w = .done w (.int (f a b)) := by
  obtain ⟨g, hg, hdivides, hexact⟩ := exists_arithmetic?_of_onIntegers? h
  simp only [applyBinary, hg, applyArithmetic, Value.toNumber, hdivides, hexact, Bool.false_and]
  rfl

/-- The interpreter computes them exactly as well, whatever the world is, and leaves the world as it
is. -/
theorem eval_of_integer? (line : Line) (w : World) : ∀ {e : Expr} {n : Int}, e.integer? = some n →
    eval line e w = .done w (.int n)
  | .number (.int m), _, h => by
    cases h
    rfl
  | .unary op e, _, h => by
    obtain ⟨a, rfl, ha, rfl⟩ := exists_of_integer?_unary h
    exact bind_of_done (eval_of_integer? line w ha) _
  | .binary op l r, _, h => by
    obtain ⟨f, a, b, hop, ha, hb, rfl⟩ := exists_of_integer?_binary h
    refine (bind_of_done (eval_of_integer? line w ha) _).trans ?_
    refine (bind_of_done (eval_of_integer? line w hb) _).trans ?_
    exact applyBinary_of_onIntegers? hop line a b w

end Script

-- ════════════════════════════════════════════════════════════════════════════
-- Texts
-- ════════════════════════════════════════════════════════════════════════════

namespace Library

/-- The calculator computes the tree of a text that is accepted, or another one if both hold
something that is not arithmetic. -/
theorem exists_evaluateText {s : Text} {e : Expr} (h : Expr.parse s = .ok e) :
    ∃ e', Likeness.arithmetic.same e e' ∧
      evaluateText (.text s) =
        ((calculate e').mapError Fault.runtime).map fun n => .ofNumber n.normalize := by
  obtain ⟨e', hparse, hsame⟩ := Expr.exists_parse_trim Likeness.ignoresEnds_arithmetic h
  have hempty : (Text.trim s).isEmpty = false := by
    refine Bool.eq_false_iff.2 fun hempty => ?_
    have hnone : Expr.parse "" = .error (.malformed ⟨.endOfStatement, .ofNat 1⟩) := by cbv
    rw [Text.eq_empty_of_isEmpty hempty, hnone] at hparse
    cases hparse
  refine ⟨e', hsame, ?_⟩
  have hdisplay : (Value.text s).display = .ok s := rfl
  simp only [evaluateText, hdisplay, Except.mapError, bind, Except.bind, hempty, hparse]
  cases calculate e' <;> rfl

/-- The calculator on a text that is accepted as an expression: it gives no value to a tree with
anything in it that is not arithmetic; on integers, negations, sums, differences and products it
gives the exact value, as does the interpreter in any world, which it leaves as it is and of which
it asks nothing; and it only ever fails with a diagnosis of its own. -/
theorem evaluateText_sandboxed {s : Text} {e : Expr} (h : Expr.parse s = .ok e) :
    (e.every Expr.isArithmeticNode = false →
      ∃ cause, evaluateText (.text s) = .error (.runtime cause)) ∧
    (∀ n, e.integer? = some n → evaluateText (.text s) = .ok (.int n) ∧
      ∀ w, Script.evaluateSource s w = .done w (.int n)) ∧
    ∀ fault, evaluateText (.text s) = .error fault → ∃ cause, fault = .runtime cause := by
  obtain ⟨e', hsame, heval⟩ := exists_evaluateText h
  rw [heval]
  refine ⟨fun hstrange => ?_, fun n hn => ⟨?_, fun w => ?_⟩, fun fault hfault => ?_⟩
  · have hstrange' : e'.every Expr.isArithmeticNode = false := by
      rcases hsame with rfl | ⟨-, h'⟩
      · exact hstrange
      · exact h'
    obtain ⟨cause, hcause⟩ := exists_calculate_error hstrange'
    exact ⟨cause, by rw [hcause]; rfl⟩
  · have hvalue := calculate_of_integer? hn
    obtain rfl : e = e' := by
      refine hsame.resolve_right fun ⟨hstrange, _⟩ => ?_
      rw [every_of_calculate hvalue] at hstrange
      cases hstrange
    rw [hvalue]
    rfl
  · have hparse : Script.lift ((Expr.parse s).mapError .ofParse) w = .done w e := by
      rw [h]
      rfl
    exact (Script.bind_of_done hparse _).trans (Script.eval_of_integer? none w hn)
  · cases hcalculate : calculate e' with
    | error cause =>
      rw [hcalculate] at hfault
      cases hfault
      exact ⟨cause, rfl⟩
    | ok m =>
      rw [hcalculate] at hfault
      cases hfault

/-- A sum with blanks around it. -/
def blankSum : Text := "\t2 * (3 - 10) + -4\n"

/-- The tree of the sum. -/
def blankSumTree : Expr :=
  .binary .add
    (.binary .mul (.number (.int 2)) (.binary .sub (.number (.int 3)) (.number (.int 10))))
    (.unary .neg (.number (.int 4)))

/-- A sum with a string without a closing quote, to which the blank at the end belongs. -/
def openSum : Text := "1 + \"2 "

/-- The tree of the sum with a string. -/
def openSumTree : Expr := .binary .add (.number (.int 1)) (.string "2 ")

theorem evaluateText_sandboxed_sums :
    Expr.parse blankSum = .ok blankSumTree ∧ blankSumTree.integer? = some (-18) ∧
    evaluateText (.text blankSum) = .ok (.int (-18)) ∧
    (∀ w, Script.evaluateSource blankSum w = .done w (.int (-18))) ∧
    Expr.parse openSum = .ok openSumTree ∧ openSumTree.every Expr.isArithmeticNode = false ∧
    ∃ cause, evaluateText (.text openSum) = .error (.runtime cause) := by
  have hblankScan : Token.scan blankSum =
      [⟨.number, "2", .ofNat 1, 2⟩, ⟨.operator, "*", .ofNat 1, 4⟩,
        ⟨.punctuation, "(", .ofNat 1, 6⟩, ⟨.number, "3", .ofNat 1, 7⟩,
        ⟨.operator, "-", .ofNat 1, 9⟩, ⟨.number, "10", .ofNat 1, 11⟩,
        ⟨.punctuation, ")", .ofNat 1, 13⟩, ⟨.operator, "+", .ofNat 1, 15⟩,
        ⟨.operator, "-", .ofNat 1, 17⟩, ⟨.number, "4", .ofNat 1, 18⟩,
        ⟨.newline, "\n", .ofNat 1, 19⟩, ⟨.eof, "", .ofNat 2, 1⟩] := by
    decide +kernel
  have hblank : Expr.parse blankSum = .ok blankSumTree := by
    rw [Expr.parse, Stream.ofSource, hblankScan]
    cbv
  have hopenScan : Token.scan openSum =
      [⟨.number, "1", .ofNat 1, 1⟩, ⟨.operator, "+", .ofNat 1, 3⟩, ⟨.string, "2 ", .ofNat 1, 5⟩,
        ⟨.eof, "", .ofNat 1, 8⟩] := by
    decide +kernel
  have hopen : Expr.parse openSum = .ok openSumTree := by
    rw [Expr.parse, Stream.ofSource, hopenScan]
    cbv
  have hvalue : blankSumTree.integer? = some (-18) := rfl
  have hstrange : openSumTree.every Expr.isArithmeticNode = false := rfl
  obtain ⟨-, hexact, -⟩ := evaluateText_sandboxed hblank
  obtain ⟨hfails, -⟩ := evaluateText_sandboxed hopen
  obtain ⟨hcalculated, hevaluated⟩ := hexact _ hvalue
  exact ⟨hblank, hvalue, hcalculated, hevaluated, hopen, hstrange, hfails hstrange⟩

end Library

end FormBasic
