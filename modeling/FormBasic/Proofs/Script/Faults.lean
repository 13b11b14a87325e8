import FormBasic.Proofs.Grammar.Placement
import FormBasic.Session.Event

/-!
# Faults that nobody catches

A value function may refuse its arguments. Functions that scripts call by name are guarded: a
refusal is reported, and the result is zero. Other uses of value functions have no guard, and there
a refusal ends the invocation without a report. This module lists the faults that can arise in this
way, and shows for every unguarded function that it fails with these only.

## Main definitions

* `FailsOnly` - computations that fail with errors of some sort only
* `Refusal.isUnguarded`, `Fault.isUnguarded` - what can arise without a guard
* `Fault.Arises` - the faults that a script can run into by itself

## Main statements

* `unguarded_display`, `unguarded_toPosition`, `unguarded_callMethod` - refusals of value functions
* `arising_index`, `arising_property`, `arising_synchronize` - faults of look-ups and timers
-/

namespace FormBasic

theorem Fault.attribute_none (fault : Fault) : fault.attribute none = fault := by
  cases fault with
  | script error => simp [Fault.attribute, ScriptError.attribute]
  | _ => rfl

theorem Fault.attribute_attribute (fault : Fault) (line line' : Line) :
    (fault.attribute line).attribute line' = fault.attribute (line.or line') := by
  cases fault with
  | script error => simp [Fault.attribute, ScriptError.attribute, Option.or_assoc]
  | _ => rfl

/-- Whether a computation, if it fails, fails with an error of some sort. -/
inductive FailsOnly {ε α : Type} (P : ε → Prop) : Except ε α → Prop where
  | ok (a : α) : FailsOnly P (.ok a)
  | error {e : ε} (h : P e) : FailsOnly P (.error e)

section Failing

variable {ε ε' α β : Type} {P : ε → Prop} {Q : ε' → Prop}

theorem FailsOnly.of_error {e : ε} (h : FailsOnly P (.error e : Except ε α)) : P e := by
  cases h with
  | error h => exact h

theorem FailsOnly.mono {P' : ε → Prop} {x : Except ε α} (hx : FailsOnly P x) (h : ∀ e, P e → P' e) :
    FailsOnly P' x := by
  cases hx with
  | ok a => exact .ok a
  | error he => exact .error (h _ he)

theorem FailsOnly.bind {x : Except ε α} (hx : FailsOnly P x) {f : α → Except ε β}
    (hf : ∀ a, FailsOnly P (f a)) : FailsOnly P (x >>= f) := by
  cases hx with
  | ok a => exact hf a
  | error h => exact .error h

theorem FailsOnly.mapError {x : Except ε α} (hx : FailsOnly P x) {f : ε → ε'}
    (hf : ∀ e, P e → Q (f e)) : FailsOnly Q (x.mapError f) := by
  cases hx with
  | ok a => exact .ok a
  | error h => exact .error (hf _ h)

theorem FailsOnly.map {x : Except ε α} (hx : FailsOnly P x) (f : α → β) : FailsOnly P (x.map f) := by
  cases hx with
  | ok a => exact .ok (f a)
  | error h => exact .error h

theorem failsOnly_mapM {f : α → Except ε β} (hf : ∀ a, FailsOnly P (f a)) (as : List α) :
    FailsOnly P (as.mapM f) := by
  induction as with
  | nil => exact .ok _
  | cons a as ih =>
    rw [List.mapM_cons]
    exact (hf a).bind fun _ => ih.bind fun _ => .ok _

theorem failsOnly_any (x : Except ε α) (h : ∀ e, P e) : FailsOnly P x := by
  cases x with
  | ok a => exact .ok a
  | error e => exact .error (h e)

end Failing

/-- Whether a value function may refuse its arguments in this way where there is no guard: an
integer is too large, a float is no integer, a text has no digits, a separator is empty. -/
def Refusal.isUnguarded : Refusal → Bool
  | .infinityToInteger | .nanToInteger | .integerTooLarge | .integerTextTooLong
  | .positionTooLarge | .emptySeparator => true
  | refusal => refusal.isUnreadable

/-- Whether the fault ends an invocation without a report although no host is to blame. -/
def Fault.isUnguarded : Fault → Bool
  | .refused refusal => refusal.isUnguarded
  | .unusableKey | .missingMember | .engineFailure => true
  | _ => false

/-- Whether a script can run into the fault by itself: a diagnosis that no line is attributed to
yet, or a fault that has no guard. -/
def Fault.Arises : Fault → Prop
  | .script error => error.line = none
  | fault => fault.isUnguarded = true

theorem Fault.arises_of_isUnreadable {refusal : Refusal} (h : refusal.isUnreadable = true) :
    (Fault.refused refusal).Arises := by
  cases refusal <;> first | rfl | cases h

/-- Whether a value function refuses its arguments in unguarded ways only. -/
abbrev Unguarded {α : Type} (x : Except Refusal α) : Prop :=
  FailsOnly (fun refusal => refusal.isUnguarded = true) x

/-- Whether a computation fails with faults only that a script can run into by itself. -/
abbrev Arising {α : Type} (x : Except Fault α) : Prop := FailsOnly Fault.Arises x

theorem Unguarded.arising {α : Type} {x : Except Refusal α} (h : Unguarded x) :
    Arising (x.mapError .refused) :=
  FailsOnly.mapError h fun _ h => h

-- ════════════════════════════════════════════════════════════════════════════
-- Values
-- ════════════════════════════════════════════════════════════════════════════

section Values

theorem unguarded_integerText (n : Int) : Unguarded (Number.integerText n) := by
  unfold Number.integerText
  generalize Nat.pow 10 digitLimit = limit
  split
  · exact .ok _
  · exact .error rfl

theorem unguarded_keyLiteral (k : Key) : Unguarded k.literal := by
  cases k with
  | int n =>
    rw [Key.literal]
    exact unguarded_integerText n
  | _ => exact .ok _

mutual

theorem unguarded_literal : ∀ v : Value, Unguarded v.literal
  | .int n => by
    rw [Value.literal]
    exact unguarded_integerText n
  | .list xs => (unguarded_literalItems xs).bind fun _ => .ok _
  | .dict es => (unguarded_literalEntries es).bind fun _ => .ok _
  | .nothing | .bool _ | .float _ | .nan _ | .text _ | .object _ => .ok _

theorem unguarded_literalItems : ∀ xs : List Value, Unguarded (literalItems xs)
  | [] => .ok _
  | x :: xs =>
    (unguarded_literal x).bind fun _ => (unguarded_literalItems xs).bind fun _ => .ok _

theorem unguarded_literalEntries : ∀ es : List (Key × Value), Unguarded (literalEntries es)
  | [] => .ok _
  | e :: es =>
    (unguarded_literalEntry e).bind fun _ =>
      (unguarded_literalEntries es).bind fun _ => .ok _

theorem unguarded_literalEntry : ∀ e : Key × Value, Unguarded (literalEntry e)
  | (k, v) =>
    (unguarded_keyLiteral k).bind fun _ => (unguarded_literal v).bind fun _ => .ok _

end

theorem unguarded_numberText (n : Number) : Unguarded n.text := by
  cases n with
  | int n =>
    rw [Number.text]
    exact unguarded_integerText n
  | float x => exact .ok _

mutual

theorem unguarded_display : ∀ v : Value, Unguarded v.display
  | .int n => by
    rw [Value.display]
    exact unguarded_integerText n
  | .float x => by
    rw [Value.display]
    exact unguarded_numberText _
  | .list xs => (unguarded_displayItems xs).bind fun _ => .ok _
  | .dict es => unguarded_literal (.dict es)
  | .nothing | .bool _ | .nan _ | .text _ | .object _ => .ok _

theorem unguarded_displayItems : ∀ xs : List Value, Unguarded (displayItems xs)
  | [] => .ok _
  | x :: xs =>
    (unguarded_display x).bind fun _ => (unguarded_displayItems xs).bind fun _ => .ok _

end

theorem unguarded_truncate (n : Number) : Unguarded n.truncate := by
  cases n with
  | int n => exact .ok _
  | float x =>
    unfold Number.truncate Number.toInteger
    split
    · exact .ok _
    · split
      · exact .error rfl
      · exact .error rfl
      · exact .ok _

theorem unguarded_toPosition (v : Value) : Unguarded v.toPosition := unguarded_truncate _

theorem unguarded_toFloat (n : Number) : Unguarded n.toFloat := by
  unfold Number.toFloat
  split
  · exact .ok _
  · split
    · exact .ok _
    · exact .error rfl

theorem unguarded_add (m n : Number) : Unguarded (m.add n) := by
  unfold Number.add Number.combine
  split
  · exact .ok _
  · exact (unguarded_toFloat _).bind fun _ => (unguarded_toFloat _).bind fun _ => .ok _

/-- A text's method refuses arguments that cannot be written or counted, and the empty separator. -/
theorem unguarded_callMethod (text method : Text) (args : List Value) :
    Unguarded (Library.callMethod text method args) := by
  unfold Library.callMethod
  split
  · exact .ok _
  · exact .ok _
  · exact .ok _
  · exact .ok _
  · refine (unguarded_toPosition _).bind fun _ => ?_
    split
    · exact (unguarded_toPosition _).bind fun _ => .ok _
    · exact .ok _
  · exact (unguarded_display _).bind fun _ => .ok _
  · refine (unguarded_display _).bind fun _ => ?_
    split <;> exact .ok _
  · exact (unguarded_display _).bind fun _ => (unguarded_display _).bind fun _ => .ok _
  · refine (unguarded_display _).bind fun _ => ?_
    split
    · exact .ok _
    · exact .error rfl
  · exact (unguarded_display _).bind fun _ => .ok _
  · exact (unguarded_display _).bind fun _ => .ok _
  · exact .ok _

theorem unguarded_changeList (method : String) (items args : List Value) :
    Unguarded (Script.changeList method items args) := by
  unfold Script.changeList
  simp only
  split
  · exact .ok _
  · split <;> exact .ok _
  · exact (unguarded_display _).bind fun _ => .ok _
  · refine (unguarded_toPosition _).bind fun _ => (unguarded_display _).bind fun _ => ?_
    split
    · exact .error rfl
    · exact .ok _
  · split <;> exact .ok _
  · refine (unguarded_toPosition _).bind fun _ => ?_
    split <;> exact .ok _
  · exact .ok _
  · exact .ok _

/-- The calculator's diagnoses are caught by the script that asks for them; what is left are texts
that cannot be written or read. -/
theorem arising_evaluateText (v : Value) : Arising (Library.evaluateText v) := by
  refine FailsOnly.bind (Unguarded.arising (unguarded_display v)) fun source => ?_
  simp only
  split
  · exact .ok _
  · split
    · exact .error rfl
    · next h => exact .error (Fault.arises_of_isUnreadable (Expr.isUnreadable_of_parse h))
    · split
      · exact .ok _
      · exact .error rfl

end Values

-- ════════════════════════════════════════════════════════════════════════════
-- Data access objects
-- ════════════════════════════════════════════════════════════════════════════

section Objects

open Data

theorem unguarded_lookupColumn (row : Table Value) (columns : List Text) (key : Value) :
    Unguarded (lookupColumn row columns key) := by
  unfold lookupColumn
  extract_lets cell
  have hcell : ∀ position?, Unguarded (cell position?) := by
    intro position?
    unfold cell
    split
    · split <;> exact .ok _
    · refine (unguarded_display _).bind fun name => ?_
      split
      · exact .ok _
      · split <;> exact .ok _
  split
  · exact hcell (some _)
  · exact (unguarded_truncate _).bind fun _ => hcell (some _)
  · exact .error rfl
  · exact hcell none

theorem unguarded_value (r : Reader) (column : Value) : Unguarded (r.value column) := by
  unfold Reader.value
  split
  · exact .ok _
  · exact unguarded_lookupColumn _ _ _

theorem unguarded_setMember (s : Store) (h : Handle) (name : Text) (value : Value) :
    Unguarded (s.setMember h name value) := by
  unfold Store.setMember
  split
  · exact (unguarded_display _).bind fun _ => .ok _
  · exact (unguarded_display _).bind fun _ => .ok _
  · exact .ok _
  · exact .ok _
  · exact .ok _

theorem unguarded_item (s : Store) (h : Handle) (key : Value) : Unguarded (s.item h key) := by
  unfold Store.item
  split
  · exact (unguarded_value _ _).bind fun _ => .ok _
  · exact (unguarded_lookupColumn _ _ _).bind fun _ => .ok _
  · refine (unguarded_toPosition _).bind fun n => ?_
    split
    · split <;> exact .ok _
    · exact .ok _
  · exact .ok _

/-- Apart from keys that are refused as positions, a list or a dictionary cannot be a key. -/
theorem arising_index (s : Store) (container key : Value) : Arising (s.index container key) := by
  unfold Store.index
  split
  · exact (unguarded_toPosition _).arising.bind fun _ => .ok _
  · refine (unguarded_toPosition _).arising.bind fun n => ?_
    split <;> exact .ok _
  · split
    · exact .ok _
    · exact .error rfl
  · exact (unguarded_item _ _ _).arising
  · exact .ok _

theorem unguarded_boundParameters (c : Command) : Unguarded (Script.boundParameters c) := by
  refine failsOnly_mapM (fun e => ?_) _
  refine FailsOnly.bind ?_ fun _ => .ok _
  unfold Script.bound
  split
  all_goals first | exact .ok _ | exact (unguarded_display _).bind fun _ => .ok _

end Objects

-- ════════════════════════════════════════════════════════════════════════════
-- Components and timers
-- ════════════════════════════════════════════════════════════════════════════

section Components

theorem arising_foundInAnyCase (lowered : Text) (es : Entries Value) :
    Arising (Component.foundInAnyCase lowered es) := by
  fun_induction Component.foundInAnyCase lowered es with
  | case1 => exact .ok _
  | case2 => exact .ok _
  | case3 name value rest h ih => exact ih
  | case4 => exact .error rfl

/-- A property is looked for in any letter case, which property names have only if they are
texts. -/
theorem arising_property (w : World) (component name : Text) :
    Arising (w.property component name) := by
  unfold World.property Component.property
  split
  · simp only
    split
    · exact .ok _
    · exact .ok _
    · refine (arising_foundInAnyCase _ _).bind fun found => ?_
      split <;> exact .ok _
  · exact .ok _

theorem unguarded_interval (c : Component) : Unguarded (World.interval c) := by
  unfold World.interval Number.div
  split
  · next h => cases h
  · exact (unguarded_toFloat _).bind fun _ => (unguarded_toFloat _).bind fun _ => .ok _

/-- A timer is brought in line unless its interval is too large for a float; what is no timer is
told by its type, which may lack a letter case. -/
theorem arising_synchronize (w : World) (name : Key) : Arising (w.synchronize name) := by
  unfold World.synchronize
  split
  · exact .ok _
  · next c hc =>
    have htimer : Arising (World.isTimer c) := by
      unfold World.isTimer
      split
      · exact .ok _
      · exact .error rfl
    have hwanted : Arising (w.wantsLoop name c) := by
      unfold World.wantsLoop
      split
      · exact .ok _
      · exact (unguarded_interval c).arising.bind fun _ => .ok _
    refine htimer.bind fun timer => ?_
    split
    · refine hwanted.bind fun wanted => ?_
      simp only
      split
      · exact .ok _
      · split <;> exact .ok _
    · exact .ok _

end Components

end FormBasic
