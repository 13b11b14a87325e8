import FormBasic.Script.Basic

/-!
# Writing properties and reporting

The two things scripts do to the world around them all the time. Writing a property stores it, tells
the host and then brings the timers in line; reporting shows a diagnosis and goes on.

## Main definitions

* `Script.setProperty` - writes a property
* `Script.report` - shows a diagnosis
* `Script.guarded` - a value function whose refusal is reported
-/

namespace FormBasic.Script

/-- Shows a diagnosis. -/
def report (message : Text) (line : Line) : Script Unit := ask (.errorReport message line)

/-- Brings a timer's tick loop in line with its properties. -/
def synchronize (component : Key) : Script Unit := do
  let w ← lift ((← world).synchronize component)
  enter w

/-- Writes a property, tells the host, and starts or stops the component's timer if the session has
started. The spelling under which the property is stored is returned. -/
def setProperty (component name : Text) (value : Value) : Script Text := do
  match (← world).storeProperty component name value with
  | none => throw .unknownComponent
  | some (w, key) =>
    enter w
    ask (.propertyChanged component key value)
    if (← world).timers.started && World.drivesTimer key then synchronize (.text component)
    return key

/-- The result of a value function; a refusal is reported with what was computed, and the result is
then zero. -/
def guarded (what : Text) (line : Line) (result : Except Refusal Value) : Script Value :=
  match result with
  | .ok value => pure value
  | .error refusal => do
    report (what ++ ": " ++ refusal.message) line
    return .int 0

/-- The display text of a value. -/
def display (value : Value) : Script Text := compute value.display

/-- The item of a value under a key. -/
def index (container key : Value) : Script Value := do
  let w ← world
  let (objects, value) ← lift (w.objects.index container key)
  enter { w with objects }
  return value

/-- The value itself, or its item under the first argument if there is one. -/
def indexed (value : Value) : List Value → Script Value
  | [] => pure value
  | key :: _ => index value key

end FormBasic.Script
