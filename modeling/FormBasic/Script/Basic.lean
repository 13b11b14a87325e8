import FormBasic.Script.Request
import FormBasic.Script.World

/-!
# Scripts

A script is a computation on the world that may stop to ask for something: it ends with a value or a
fault, or it waits for the reply to a request, or for another handler to run. A waiting script says
how it goes on in whatever world it finds when it is resumed, so other scripts may run in between.

## Main definitions

* `Outcome` - what a script comes to from a given world
* `Script` - computations, with the monad of sequencing
* `Script.ask`, `Script.call` - the two ways of waiting
* `Script.attempt`, `Script.mapFault` - faults as values
* `Script.loop` - repetition with a cap

## Design notes

Outcomes are well-founded trees: between two waits, and along every sequence of replies, a script
performs finitely many steps. Running another handler is left to whoever runs the script, because
which handlers may be entered depends on those already running.
-/

namespace FormBasic

/-- What a script comes to. -/
inductive Outcome (α : Type) where
  /-- The script has ended with a value. -/
  | done (w : World) (a : α)
  /-- The script has ended early. -/
  | failed (w : World) (fault : Fault)
  /-- The script waits for the reply to a request. -/
  | asking (w : World) (request : Request)
      (resume : World → Except Fault request.Reply → Outcome α)
  /-- The script waits for a handler to run; the reply says whether it ran. -/
  | calling (w : World) (key : Text) (resume : World → Except Fault Bool → Outcome α)

namespace Outcome

variable {α β γ : Type}

/-- An outcome that ends with a given result. -/
def ended (w : World) : Except Fault α → Outcome α
  | .ok a => .done w a
  | .error fault => .failed w fault

/-- Goes on with the result of an outcome once it has ended. -/
def andThen : Outcome α → (World → Except Fault α → Outcome β) → Outcome β
  | .done w a, next => next w (.ok a)
  | .failed w fault, next => next w (.error fault)
  | .asking w request resume, next =>
    .asking w request fun w reply => (resume w reply).andThen next
  | .calling w key resume, next => .calling w key fun w reply => (resume w reply).andThen next

/-- Going on with nothing changes nothing. -/
@[simp]
theorem andThen_ended (o : Outcome α) : o.andThen ended = o := by
  induction o with
  | done => rfl
  | failed => rfl
  | asking w request resume ih => simp only [andThen]; congr; funext w reply; exact ih w reply
  | calling w key resume ih => simp only [andThen]; congr; funext w reply; exact ih w reply

/-- Going on twice is going on with the sequence. -/
theorem andThen_assoc (o : Outcome α) (f : World → Except Fault α → Outcome β)
    (g : World → Except Fault β → Outcome γ) :
    (o.andThen f).andThen g = o.andThen fun w result => (f w result).andThen g := by
  induction o with
  | done => rfl
  | failed => rfl
  | asking w request resume ih => simp only [andThen]; congr; funext w reply; exact ih w reply
  | calling w key resume ih => simp only [andThen]; congr; funext w reply; exact ih w reply

end Outcome

/-- Computations on the world that may wait. -/
def Script (α : Type) : Type := World → Outcome α

namespace Script

variable {α β γ σ : Type}

-- ════════════════════════════════════════════════════════════════════════════
-- Sequencing
-- ════════════════════════════════════════════════════════════════════════════

/-- Goes on with the result of a script, be it a value or a fault. -/
def andThen (m : Script α) (next : Except Fault α → Script β) : Script β := fun w =>
  (m w).andThen fun w result => next result w

/-- The script that ends with a value. -/
def ret (a : α) : Script α := fun w => .done w a

/-- The script that ends early. -/
def throw (fault : Fault) : Script α := fun w => .failed w fault

/-- Goes on with the value of a script. -/
def chain (m : Script α) (next : α → Script β) : Script β :=
  m.andThen fun
    | .ok a => next a
    | .error fault => throw fault

instance : Monad Script where
  pure := ret
  bind := chain

/-- The world as it is. -/
def world : Script World := fun w => .done w w

/-- Changes the world. -/
def update (f : World → World) : Script Unit := fun w => .done (f w) ()

/-- Goes on in another world. -/
def enter (w : World) : Script Unit := fun _ => .done w ()

/-- Asks for something and waits for the reply. -/
def ask (request : Request) : Script request.Reply := fun w => .asking w request Outcome.ended

/-- Runs the handler of a name; whether it ran. -/
def call (key : Text) : Script Bool := fun w => .calling w key Outcome.ended

/-- The result of a pure computation. -/
def lift : Except Fault α → Script α
  | .ok a => pure a
  | .error fault => throw fault

/-- The result of a value function, whose refusal ends the script. -/
def compute (result : Except Refusal α) : Script α := lift (result.mapError .refused)

/-- The result of a script as a value. -/
def attempt (m : Script α) : Script (Except Fault α) := m.andThen ret

/-- Changes the fault with which a script ends. -/
def mapFault (f : Fault → Fault) (m : Script α) : Script α :=
  m.andThen fun
    | .ok a => pure a
    | .error fault => throw (f fault)

-- ════════════════════════════════════════════════════════════════════════════
-- Repetition
-- ════════════════════════════════════════════════════════════════════════════

/-- Repeats a round as long as the test asks for another one and the round itself goes on, at most
`cap` times; when the test asks for more than that, the runaway is reported instead. -/
def loop (test : σ → Script Bool) (round : σ → Script (Option σ)) (runaway : Script Unit) :
    Nat → σ → World → Outcome Unit
  | 0, s, w => (do if ← test s then runaway : Script Unit) w
  | cap + 1, s, w =>
    match (do if ← test s then round s else pure none : Script (Option σ)) w with
    | .done w (some s) => loop test round runaway cap s w
    | outcome =>
      outcome.andThen fun w result =>
        match result with
        | .ok (some s) => loop test round runaway cap s w
        | .ok none => .done w ()
        | .error fault => .failed w fault

-- ════════════════════════════════════════════════════════════════════════════
-- Laws
-- ════════════════════════════════════════════════════════════════════════════

theorem bind_eq (m : Script α) (f : α → Script β) : m >>= f = m.chain f := rfl

@[simp]
theorem pure_chain (a : α) (f : α → Script β) : (pure a : Script α).chain f = f a := rfl

@[simp]
theorem throw_chain (fault : Fault) (f : α → Script β) : (throw fault).chain f = throw fault := rfl

/-- A capped loop is its first round followed by the rest of the loop. -/
theorem loop_succ (test : σ → Script Bool) (round : σ → Script (Option σ)) (runaway : Script Unit)
    (cap : Nat) (s : σ) :
    loop test round runaway (cap + 1) s = ((do
      match ← (do if ← test s then round s else pure none : Script (Option σ)) with
      | some s => loop test round runaway cap s
      | none => pure ()) : Script Unit) := by
  funext w
  simp only [loop, bind_eq, chain, andThen]
  split
  · next h => rw [h]; rfl
  · congr 1
    funext w result
    rcases result with fault | (_ | s) <;> rfl

end Script

end FormBasic
