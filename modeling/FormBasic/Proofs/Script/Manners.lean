import FormBasic.Proofs.Script.Histories

/-!
# Manners of scripts

A manner says what a script may do to the world between two waits, what it may ask for, and whether
it may call handlers. It is given by a relation between worlds, so properties of whole executions
follow from what single steps do: whatever happens while a script waits, every stretch of its own
work is a step, and if nothing but such steps happens meanwhile then the whole execution is one.

## Main definitions

* `Manner` - what a script may do
* `Outcome.Heeds`, `Script.Heeds` - scripts that heed a manner

## Main statements

* `Script.Heeds.bind`, `Script.Heeds.loop` - sequences and loops heed a manner when their parts do
* `Outcome.Heeds.paved` - in every history of a script its own work consists of steps
* `Manner.Paves.step` - executions in which only steps happen are steps

## Design notes

A conduct also tells how scripts end and what they tell the host, and its changes are fixed; a manner
leaves this open and is free in its relation, which may speak of the world that a step starts from.
-/

namespace FormBasic

/-- What a script may do. -/
structure Manner where
  /-- What may happen to the world between two waits. -/
  step : World → World → Prop
  refl : ∀ w, step w w
  trans : ∀ {w₁ w₂ w₃ : World}, step w₁ w₂ → step w₂ w₃ → step w₁ w₃
  /-- The requests that may be made. -/
  asks : Request → Prop := fun _ => True
  /-- Whether handlers may be called. -/
  calls : Prop := True

/-- Whether an outcome that arises from a world heeds a manner: until it waits it takes a step, what
it waits for is allowed, and it does so again in whatever world it is resumed. -/
def Outcome.Heeds {α : Type} (m : Manner) : World → Outcome α → Prop
  | start, .done w _ => m.step start w
  | start, .failed w _ => m.step start w
  | start, .asking w request resume =>
    m.step start w ∧ m.asks request ∧ ∀ w reply, (resume w reply).Heeds m w
  | start, .calling w _ resume =>
    m.step start w ∧ m.calls ∧ ∀ w reply, (resume w reply).Heeds m w

/-- Whether a script heeds a manner wherever it starts. -/
def Script.Heeds {α : Type} (m : Manner) (script : Script α) : Prop := ∀ w, (script w).Heeds m w

section Sequencing

variable {m : Manner} {α β σ : Type}

namespace Outcome

theorem Heeds.of_step {start w : World} (h : m.step start w) {o : Outcome α} (ho : o.Heeds m w) :
    o.Heeds m start := by
  cases o with
  | done | failed => exact m.trans h ho
  | asking | calling => exact ⟨m.trans h ho.1, ho.2⟩

theorem Heeds.andThen {start : World} {o : Outcome α} (ho : o.Heeds m start)
    {next : World → Except Fault α → Outcome β} (hnext : ∀ w result, (next w result).Heeds m w) :
    (o.andThen next).Heeds m start := by
  induction o generalizing start with
  | done w a => exact (hnext w (.ok a)).of_step ho
  | failed w fault => exact (hnext w (.error fault)).of_step ho
  | asking w request resume ih => exact ⟨ho.1, ho.2.1, fun w reply => ih w reply (ho.2.2 w reply)⟩
  | calling w key resume ih => exact ⟨ho.1, ho.2.1, fun w reply => ih w reply (ho.2.2 w reply)⟩

theorem heeds_ended (w : World) (result : Except Fault α) : (ended w result).Heeds m w := by
  cases result <;> exact m.refl w

end Outcome

namespace Script

theorem heeds_pure (a : α) : (pure a : Script α).Heeds m := fun w => m.refl w

theorem heeds_throw (fault : Fault) : (throw fault : Script α).Heeds m := fun w => m.refl w

theorem Heeds.andThen {script : Script α} (h : script.Heeds m) {next : Except Fault α → Script β}
    (hnext : ∀ result, (next result).Heeds m) : (script.andThen next).Heeds m :=
  fun w => (h w).andThen fun w result => hnext result w

theorem Heeds.bind {script : Script α} (h : script.Heeds m) {f : α → Script β}
    (hf : ∀ a, (f a).Heeds m) : (script >>= f).Heeds m := by
  refine h.andThen fun result => ?_
  cases result with
  | ok a => exact hf a
  | error fault => exact heeds_throw fault

/-- A script that looks at the world has to heed the manner in the world that it sees. -/
theorem heeds_look {f : World → Script α} (h : ∀ w, (f w w).Heeds m w) : (world >>= f).Heeds m := h

theorem heeds_world : world.Heeds m := fun w => m.refl w

theorem heeds_ask {request : Request} (h : m.asks request) : (ask request).Heeds m :=
  fun w => ⟨m.refl w, h, Outcome.heeds_ended⟩

theorem heeds_lift (result : Except Fault α) : (lift result).Heeds m := by
  cases result with
  | ok a => exact heeds_pure a
  | error fault => exact heeds_throw fault

theorem heeds_compute (result : Except Refusal α) : (compute result).Heeds m := heeds_lift _

theorem Heeds.mapFault {script : Script α} (h : script.Heeds m) (f : Fault → Fault) :
    (mapFault f script).Heeds m := by
  refine h.andThen fun result => ?_
  cases result with
  | ok a => exact heeds_pure a
  | error fault => exact heeds_throw _

theorem Heeds.onLine {script : Script Unit} (h : script.Heeds m) (line : Line) :
    (onLine line script).Heeds m := by
  refine heeds_world.bind fun w => ?_
  split
  · exact heeds_pure ()
  · exact h.mapFault _

/-- A capped loop heeds a manner when its rounds do. -/
theorem Heeds.loop {test : σ → Script Bool} {round : σ → Script (Option σ)} {runaway : Script Unit}
    (htest : ∀ s, (test s).Heeds m) (hround : ∀ s, (round s).Heeds m) (hrunaway : runaway.Heeds m)
    (cap : Nat) (s : σ) : Script.Heeds m (loop test round runaway cap s) := by
  induction cap generalizing s with
  | zero =>
    refine (htest s).bind fun more => ?_
    split
    · exact hrunaway
    · exact heeds_pure ()
  | succ cap ih =>
    rw [loop_succ]
    have hfirst : ((do if ← test s then round s else pure none) : Script (Option σ)).Heeds m := by
      refine (htest s).bind fun more => ?_
      split
      · exact hround s
      · exact heeds_pure none
    refine hfirst.bind fun next => ?_
    cases next with
    | some s => exact ih s
    | none => exact heeds_pure ()

end Script

end Sequencing

-- ════════════════════════════════════════════════════════════════════════════
-- Executions
-- ════════════════════════════════════════════════════════════════════════════

/-- Whether the work between the waits of a history consists of steps, from the world in which it
starts to the one in which it ends. -/
def Manner.Paves (m : Manner) : World → List Exchange → World → Prop
  | start, [], w => m.step start w
  | start, e :: history, w => m.step start e.left ∧ m.Paves e.found history w

/-- Whether a wait is allowed. -/
def Manner.Allows (m : Manner) : Exchange → Prop
  | .asked request _ _ _ => m.asks request
  | .called _ _ _ _ => m.calls

section Executions

variable {m : Manner} {α : Type}

/-- Where only steps happen during the waits, too, the whole history is a step. -/
theorem Manner.Paves.step {start w : World} {history : List Exchange}
    (h : m.Paves start history w) (hwaits : ∀ e ∈ history, m.step e.left e.found) :
    m.step start w := by
  induction history generalizing start with
  | nil => exact h
  | cons e history ih =>
    rw [List.forall_mem_cons] at hwaits
    exact m.trans (m.trans h.1 hwaits.1) (ih h.2 hwaits.2)

namespace Outcome

/-- In every history of an outcome its own work consists of steps, and all waits are allowed. -/
theorem Heeds.paved {o : Outcome α} {start w : World} {history : List Exchange}
    {result : Except Fault α} (ho : o.Heeds m start) (h : o.Traces history w result) :
    m.Paves start history w ∧ ∀ e ∈ history, m.Allows e := by
  induction h generalizing start with
  | done | failed => exact ⟨ho, List.forall_mem_nil _⟩
  | asking _ ih | calling _ ih =>
    obtain ⟨hsteps, hwaits⟩ := ih (ho.2.2 _ _)
    exact ⟨⟨ho.1, hsteps⟩, List.forall_mem_cons.2 ⟨ho.2.1, hwaits⟩⟩

end Outcome

end Executions

end FormBasic
