import FormBasic.Script.Exec
import FormBasic.Session.Host

/-!
# Turns

A script runs in turns: from where it is to its end, or to a request that the host holds back. While
a request is held the handlers under way stay suspended, and other scripts may run. A handler is
never entered while it is running in the same invocation.

## Main definitions

* `Frame` - a caller that waits for the handler it called
* `Pending` - an invocation whose request is held
* `Turn` - what a turn comes to
* `Turn.run` - runs a script to the end of its turn
* `Pending.next` - the next turn of a held invocation

## Design notes

Handlers that call each other are bounded by the number of handlers, since no handler is entered
twice: `Turn.nested` counts down from it and never gets to refuse a handler on that account.
-/

namespace FormBasic

/-- A caller that waits for the handler it called. -/
structure Frame where
  /-- The handler that is running. -/
  key : Text
  /-- How the caller goes on. -/
  resume : World → Except Fault Bool → Outcome Value

/-- The handlers that are running, the innermost first. -/
abbrev Frame.stack (frames : List Frame) : List Text := frames.map Frame.key

/-- An invocation whose request is held. -/
structure Pending (σ : Type) where
  request : Request
  hold : Hold
  /-- How the host looks at the request again. -/
  release : Except Fault Unit → σ → Reception σ request
  /-- How the script goes on. -/
  resume : World → Except Fault request.Reply → Outcome Value
  /-- The callers, the innermost first. -/
  frames : List Frame

/-- What a turn comes to. -/
inductive Turn (σ : Type) where
  /-- The invocation has ended. -/
  | finished (w : World) (state : σ) (result : Except Fault Value)
  /-- A request is held. -/
  | held (w : World) (state : σ) (pending : Pending σ)

namespace Turn

variable {σ : Type}

/-- The body of a handler, if there is one and it is not running already. -/
def body? (w : World) (stack : List Text) (key : Text) : Option (List Stmt) :=
  if stack.contains key then none else w.handlers.get? key

/-- Runs an outcome to the end of its turn, where `enter` runs the body of a handler. -/
def follow (host : Host σ) (stack : List Text)
    (enter : World → σ → Text → List Stmt → Turn σ) : Outcome Value → σ → Turn σ
  | .done w value, state => .finished w state (.ok value)
  | .failed w fault, state => .finished w state (.error fault)
  | .asking w request resume, state =>
    match host.receive request state with
    | .answered state signals reply =>
      follow host stack enter (resume (w.signals signals) reply) state
    | .held state signals hold release =>
      .held (w.signals signals) state { request, hold, release, resume, frames := [] }
  | .calling w key resume, state =>
    match body? w stack key with
    | none => follow host stack enter (resume w (.ok false)) state
    | some body =>
      match enter w state key body with
      | .finished w state result =>
        follow host stack enter (resume w (result.map fun _ => true)) state
      | .held w state pending =>
        .held w state { pending with frames := pending.frames ++ [⟨key, resume⟩] }

/-- A block as a script with a value. -/
def bodyScript (body : List Stmt) : Script Value := do
  Script.block body
  return .nothing

/-- Runs the body of a handler, in which at most `depth` further handlers are entered. -/
def nested (host : Host σ) : Nat → List Text → World → σ → Text → List Stmt → Turn σ
  | 0, stack, w, state, key, body =>
    follow host (key :: stack) (fun w state _ _ => .finished w state (.ok .nothing))
      (bodyScript body w) state
  | depth + 1, stack, w, state, key, body =>
    follow host (key :: stack) (nested host depth (key :: stack)) (bodyScript body w) state

/-- Runs an outcome to the end of its turn. -/
def resume (host : Host σ) (stack : List Text) (outcome : Outcome Value) (state : σ) : Turn σ :=
  follow host stack (fun w => nested host w.handlers.size stack w) outcome state

/-- Runs a script to the end of its turn. -/
def run (host : Host σ) (script : Script Value) (w : World) (state : σ) : Turn σ :=
  resume host [] (script w) state

/-- Goes on with the callers once the turn of the innermost handler has ended. -/
def unwind (host : Host σ) : List Frame → Turn σ → Turn σ
  | [], turn => turn
  | frame :: frames, .finished w state result =>
    unwind host frames
      (resume host (Frame.stack frames) (frame.resume w (result.map fun _ => true)) state)
  | frames, .held w state pending =>
    .held w state { pending with frames := pending.frames ++ frames }

end Turn

namespace Pending

variable {σ : Type}

/-- The next turn of a held invocation, after what its request waited for has happened. -/
def next (host : Host σ) (p : Pending σ) (event : Except Fault Unit) (w : World) (state : σ) :
    Turn σ :=
  match p.release event state with
  | .answered state signals reply =>
    Turn.unwind host p.frames
      (Turn.resume host (Frame.stack p.frames) (p.resume (w.signals signals) reply) state)
  | .held state signals hold release =>
    .held (w.signals signals) state { p with hold, release }

end Pending

end FormBasic
