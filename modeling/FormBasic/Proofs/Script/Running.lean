import FormBasic.Script.Eval

/-!
# Running scripts step by step

A sequence of scripts comes to what its first script comes to, followed by the rest. These are the
laws by which the outcome of a script in a given world is computed, up to the request it waits for.

## Main definitions

* `Script.Still` - scripts that only compute

## Main statements

* `Script.bind_of_done`, `Script.bind_of_failed`, `Script.bind_of_asking` - sequences by the outcome
  of their first script
* `Script.setProperty_apply` - what a write to a property comes to
-/

namespace FormBasic

/-- An outcome ends in one world with one result. -/
theorem Outcome.eq_of_ended {α : Type} {w w' : World} {result result' : Except Fault α}
    (h : ended w result = ended w' result') : w = w' ∧ result = result' := by
  cases result <;> cases result' <;> cases h <;> exact ⟨rfl, rfl⟩

namespace Script

section Sequences

variable {α β : Type} {m : Script α} {w w₁ : World} {request : Request}

theorem bind_of_done {a : α} (h : m w = .done w₁ a) (f : α → Script β) :
    (m >>= f) w = f a w₁ := by
  show Outcome.andThen (m w) _ = _
  rw [h]
  rfl

theorem bind_of_failed {fault : Fault} (h : m w = .failed w₁ fault) (f : α → Script β) :
    (m >>= f) w = .failed w₁ fault := by
  show Outcome.andThen (m w) _ = _
  rw [h]
  rfl

/-- A sequence waits for what its first script waits for, and goes on with the rest. -/
theorem bind_of_asking {resume : World → Except Fault request.Reply → Outcome α}
    {resume' : World → Except Fault request.Reply → Outcome β} {f : α → Script β}
    (h : m w = .asking w₁ request resume)
    (hresume : ∀ w' reply, ((fun _ => resume w' reply : Script α) >>= f) w' = resume' w' reply) :
    (m >>= f) w = .asking w₁ request resume' := by
  show Outcome.andThen (m w) _ = _
  rw [h]
  exact congrArg (Outcome.asking w₁ request) (funext fun w' => funext fun reply => hresume w' reply)

/-- A script that only waits for a reply may have its value changed. -/
theorem bind_of_asking_ended {g : request.Reply → α}
    (h : m w = .asking w₁ request fun w' reply => .ended w' (reply.map g)) (f : α → β) :
    (m >>= fun a => pure (f a)) w =
      .asking w₁ request fun w' reply => .ended w' (reply.map fun a => f (g a)) := by
  refine bind_of_asking h fun w' reply => ?_
  cases reply <;> rfl

end Sequences

section Still

variable {α β : Type} {m : Script α} {w : World}

/-- Whether a script gives its result at once and leaves the world as it is. -/
def Still (m : Script α) (w : World) : Prop := ∃ result, m w = .ended w result

theorem still_pure (a : α) (w : World) : (pure a : Script α).Still w := ⟨.ok a, rfl⟩

theorem still_lift (x : Except Fault α) (w : World) : (lift x).Still w := by
  cases x with
  | ok a => exact ⟨.ok a, rfl⟩
  | error fault => exact ⟨.error fault, rfl⟩

theorem still_compute (x : Except Refusal α) (w : World) : (compute x).Still w := still_lift _ w

theorem Still.bind (hm : m.Still w) {f : α → Script β} (hf : ∀ a, (f a).Still w) :
    (m >>= f).Still w := by
  obtain ⟨fault | a, hm⟩ := hm
  · exact ⟨.error fault, bind_of_failed hm f⟩
  · obtain ⟨result, ha⟩ := hf a
    exact ⟨result, (bind_of_done hm f).trans ha⟩

end Still

theorem evalAll_singleton {line : Line} {e : Expr} {w w' : World} {v : Value}
    (h : eval line e w = .done w' v) : evalAll line [e] w = .done w' [v] := by
  rw [evalAll, bind_of_done h, evalAll]
  rfl

/-- A write to a property that drives no timer stores it and tells the host. -/
theorem setProperty_apply {w : World} {component name : Text} {c : Component}
    (hc : w.componentNamed? component = some c)
    (hdrives : World.drivesTimer (canonicalProperty name) = false) (value : Value) :
    setProperty component name value w =
      .asking { w with components := w.components.set (.text component) (c.store name value) }
        (.propertyChanged component (canonicalProperty name) value)
        fun w' reply => .ended w' (reply.map fun _ => canonicalProperty name) := by
  rw [setProperty, bind_of_done (m := world) rfl]
  simp only [World.storeProperty, hc]
  rw [bind_of_done (m := enter _) rfl]
  refine bind_of_asking rfl fun w' reply => ?_
  cases reply with
  | error fault => rfl
  | ok told =>
    refine (bind_of_done (m := (fun _ => .done w' told : Script Unit)) rfl _).trans ?_
    rw [bind_of_done (m := world) rfl, hdrives, Bool.and_false, if_neg Bool.false_ne_true]
    rfl

end Script

end FormBasic
