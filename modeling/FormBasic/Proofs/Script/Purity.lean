import FormBasic.Proofs.Script.Manners
import FormBasic.Proofs.Script.Queries

/-!
# Expressions without calls

An expression that calls nothing has no effect. It may read whatever there is, properties, items and
members of data access objects among them, and reading a collection makes a new object that refers
to it; but what was there stays as it was, whether the expression has a value or ends with an error.
All that it can ask for is that a diagnosis is shown, which then has the line of its statement.

## Main definitions

* `Expr.isCallFree` - expressions without calls
* `World.Untouched` - worlds that differ in new data access objects only
* `Manner.reporting` - to do nothing but report diagnoses of a line

## Main statements

* `Script.reporting_eval` - expressions without calls do nothing but report
* `Script.eval_callFree_pure` - what this means for every history of an evaluation
-/

namespace FormBasic

/-- Whether there is no call in an expression. -/
def Expr.isCallFree : Expr → Bool
  | .call _ _ => false
  | .member object _ => object.isCallFree
  | .index object key => object.isCallFree && key.isCallFree
  | .binary _ left right => left.isCallFree && right.isCallFree
  | .unary _ operand => operand.isCallFree
  | .number _ | .string _ | .boolean _ | .nothing | .ident _ | .alien _ => true
termination_by structural e => e

-- ════════════════════════════════════════════════════════════════════════════
-- Worlds
-- ════════════════════════════════════════════════════════════════════════════

/-- Whether all objects of a store are in another one, as they are. -/
def Data.Store.Within (s s' : Data.Store) : Prop :=
  ∀ h object, s.get? h = some object → s'.get? h = some object

namespace Data.Store

theorem Within.refl (s : Store) : s.Within s := fun _ _ h => h

theorem within_addValue (s : Store) (object : Object) : s.Within (s.addValue object).1 :=
  fun _ _ h => get?_add_of_get? h object

/-- Reading a member leaves all objects as they are. -/
theorem within_member (s : Store) (h : Handle) (name : Text) : s.Within (s.member h name).1 := by
  unfold member
  split
  case h_4 | h_9 => exact s.within_addValue _
  all_goals exact .refl s

/-- Reading an item of an object leaves all objects as they are. -/
theorem within_item {s s' : Store} {h : Handle} {key value : Value}
    (hitem : s.item h key = .ok (s', value)) : s.Within s' := by
  unfold item at hitem
  split at hitem
  · obtain ⟨cell, -, hs⟩ := bind_eq_ok hitem
    cases hs
    exact .refl s
  · obtain ⟨cell, -, hs⟩ := bind_eq_ok hitem
    cases hs
    exact .refl s
  · obtain ⟨n, -, hs⟩ := bind_eq_ok hitem
    split at hs
    · split at hs
      · cases hs
        exact s.within_addValue _
      · cases hs
        exact .refl s
    · cases hs
      exact .refl s
  · cases hitem
    exact .refl s

/-- Reading an item of a value leaves all objects as they are. -/
theorem within_index {s s' : Store} {container key value : Value}
    (hindex : s.index container key = .ok (s', value)) : s.Within s' := by
  unfold index at hindex
  split at hindex
  · obtain ⟨n, -, hs⟩ := bind_eq_ok hindex
    cases hs
    exact .refl s
  · obtain ⟨n, -, hs⟩ := bind_eq_ok hindex
    split at hs <;>
    · cases hs
      exact .refl s
  · split at hindex <;> cases hindex
    exact .refl s
  · next h =>
    cases hitem : s.item h key with
    | error refusal =>
      rw [hitem] at hindex
      cases hindex
    | ok found =>
      rw [hitem] at hindex
      cases hindex
      exact within_item hitem
  · cases hindex
    exact .refl s

end Data.Store

namespace World

/-- Whether nothing has happened between two worlds but that data access objects are new. -/
structure Untouched (w w' : World) : Prop where
  objects : w.objects.Within w'.objects
  others : w' = { w with objects := w'.objects }

theorem Untouched.refl (w : World) : w.Untouched w := ⟨.refl w.objects, rfl⟩

theorem Untouched.trans {w₁ w₂ w₃ : World} (h : w₁.Untouched w₂) (h' : w₂.Untouched w₃) :
    w₁.Untouched w₃ where
  objects handle object hfound := h'.objects handle object (h.objects handle object hfound)
  others := by
    rw [h'.others, h.others]

theorem untouched_of_within {w : World} {objects : Data.Store} (h : w.objects.Within objects) :
    w.Untouched { w with objects } :=
  ⟨h, rfl⟩

end World

/-- To do nothing but report diagnoses of a line. -/
def Manner.reporting (line : Line) : Manner where
  step := World.Untouched
  refl := .refl
  trans := .trans
  asks request := ∃ message, request = .errorReport message line
  calls := False

-- ════════════════════════════════════════════════════════════════════════════
-- Expressions
-- ════════════════════════════════════════════════════════════════════════════

namespace Script

variable {line : Line}

theorem reporting_report (message : Text) : (report message line).Heeds (.reporting line) :=
  heeds_ask ⟨message, rfl⟩

theorem reporting_member (h : Handle) (name : Text) :
    (member h name).Heeds (.reporting line) :=
  heeds_look fun w => World.untouched_of_within (w.objects.within_member h name)

theorem reporting_index (container key : Value) :
    (index container key).Heeds (.reporting line) := by
  refine heeds_look fun w => ?_
  cases hindex : w.objects.index container key with
  | error fault => exact World.Untouched.refl w
  | ok found => exact World.untouched_of_within (Data.Store.within_index hindex)

theorem reporting_readMember (owner : Value) (name : Text) :
    (readMember owner name).Heeds (.reporting line) := by
  unfold readMember
  split
  · exact reporting_member _ _
  · split
    · exact heeds_compute _
    · exact heeds_pure _
  · split <;> exact heeds_pure _
  · exact heeds_pure _
  · exact heeds_pure _

theorem reporting_evalMember (object : Expr) (name : Text) {value : Script Value}
    (h : value.Heeds (.reporting line)) : (evalMember object name value).Heeds (.reporting line) := by
  refine heeds_world.bind fun w => ?_
  split
  · exact heeds_lift _
  · split
    · exact heeds_pure _
    · exact h.bind fun owner => reporting_readMember owner name

theorem reporting_applyArithmetic (op : BinaryOp) (f : Number → Number → Except Refusal Number)
    (left right : Value) : (applyArithmetic line op f left right).Heeds (.reporting line) := by
  have htrouble : ∀ message, (do report message line; return .int 0 : Script Value).Heeds
      (.reporting line) :=
    fun message => (reporting_report message).bind fun _ => heeds_pure _
  unfold applyArithmetic
  simp only
  split
  · exact htrouble _
  · split
    · exact heeds_pure _
    · exact htrouble _

theorem reporting_applyBinary (op : BinaryOp) (left right : Value) :
    (applyBinary line op left right).Heeds (.reporting line) := by
  unfold applyBinary
  split
  · exact reporting_applyArithmetic op _ left right
  · split
    case h_1 => exact (heeds_compute _).bind fun _ => (heeds_compute _).bind fun _ => heeds_pure _
    case h_10 => exact heeds_throw _
    all_goals exact heeds_pure _

theorem reporting_applyUnary (op : UnaryOp) (operand : Value) :
    (applyUnary line op operand).Heeds (.reporting line) := by
  cases op with
  | neg | not => exact heeds_pure _
  | unknown text => exact heeds_throw _

/-- An expression without calls does nothing but report diagnoses of its line. -/
theorem reporting_eval : ∀ e : Expr, e.isCallFree = true → (eval line e).Heeds (.reporting line)
  | .number _, _ | .string _, _ | .boolean _, _ | .nothing, _ => heeds_pure _
  | .ident _, _ => heeds_world.bind fun _ => heeds_pure _
  | .member object name, h => reporting_evalMember object name (reporting_eval object h)
  | .index object key, h => by
    rw [Expr.isCallFree, Bool.and_eq_true] at h
    exact (reporting_eval object h.1).bind fun _ => (reporting_eval key h.2).bind fun _ =>
      reporting_index _ _
  | .call _ _, h => by cases h
  | .binary op left right, h => by
    rw [Expr.isCallFree, Bool.and_eq_true] at h
    exact (reporting_eval left h.1).bind fun _ => (reporting_eval right h.2).bind fun _ =>
      reporting_applyBinary op _ _
  | .unary op operand, h => (reporting_eval operand h).bind fun _ => reporting_applyUnary op _
  | .alien _, _ => heeds_throw _

/-- In every history of an expression without calls, whether it ends with a value or with an error,
all that it waits for is that a diagnosis of its line is shown, and its own work leaves everything as
it is: from its start to the first wait, from one wait to the next, and from the last one to its end.
So evaluating it leaves everything as it is if nothing else happens while diagnoses are shown. -/
theorem eval_callFree_pure {e : Expr} (he : e.isCallFree = true) {w w' : World}
    {history : List Exchange} {result : Except Fault Value}
    (h : (eval line e w).Traces history w' result) :
    (∀ x ∈ history, ∃ message, x.request? = some (.errorReport message line)) ∧
      (Manner.reporting line).Paves w history w' ∧
      ((∀ x ∈ history, x.left.Untouched x.found) → w.Untouched w') := by
  obtain ⟨hpaves, hallows⟩ := (reporting_eval e he w).paved h
  refine ⟨fun x hx => ?_, hpaves, hpaves.step⟩
  have hallowed := hallows x hx
  cases x with
  | asked request left found reply =>
    obtain ⟨message, rfl⟩ := hallowed
    exact ⟨message, rfl⟩
  | called key left found reply => exact hallowed.elim

/-- A quotient by zero plus the number of rows of a table. -/
def quotientAndCount : Expr :=
  .binary .add (.binary .div (.number (.int 1)) (.number (.int 0)))
    (.member (.member (.ident "t") "Rows") "Count")

/-- A variable that refers to an empty table. -/
def tableVariable : World where
  globals := .ofList [("t", .object ⟨0⟩)]
  objects := ⟨#[.table {}]⟩

/-- The division is reported, and counting the rows makes a new object. -/
theorem eval_callFree_pure_tableVariable :
    quotientAndCount.isCallFree = true ∧
      ∃ w', (eval (.ofNat 3) quotientAndCount tableVariable).Traces
          [.asked (.errorReport (RuntimeCause.message .divisionByZero) (.ofNat 3)) tableVariable
            tableVariable (.ok ())] w' (.ok (.int 0)) ∧
        w'.objects.get? ⟨1⟩ = some (.rows ⟨0⟩) ∧ tableVariable.Untouched w' := by
  have hfree : quotientAndCount.isCallFree = true := rfl
  have hrun : (eval (.ofNat 3) quotientAndCount tableVariable).Traces
      [.asked (.errorReport (RuntimeCause.message .divisionByZero) (.ofNat 3)) tableVariable
        tableVariable (.ok ())]
      { tableVariable with objects := ⟨#[.table {}, .rows ⟨0⟩]⟩ } (.ok (.int 0)) :=
    .asking (.done _ _)
  obtain ⟨-, -, huntouched⟩ := eval_callFree_pure hfree hrun
  exact ⟨hfree, _, hrun, rfl, huntouched (List.forall_mem_singleton.2 (.refl _))⟩

end Script

end FormBasic
