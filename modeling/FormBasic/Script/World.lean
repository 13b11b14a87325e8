import FormBasic.Component
import FormBasic.Config
import FormBasic.Data.Member
import FormBasic.Tree.Basic

/-!
# The world of a session

The state that all scripts of a session share: components, variables, handlers, the transcript of
the console, the two flags that hold scripts back, data access objects, and the timers whose tick
loops are registered.

## Main definitions

* `Timers` - the registered tick loops
* `World` - the shared state
* `Signal` - what a host may do to the flags
* `World.transcript` - what stands on the console
* `World.synchronize` - registers or cancels the tick loop of a timer to match its properties
-/

namespace FormBasic

-- ════════════════════════════════════════════════════════════════════════════
-- State
-- ════════════════════════════════════════════════════════════════════════════

/-- The tick loops of a session. Every loop has a number of its own, so that a loop that was
replaced can tell that it is no longer the registered one. To cancel a loop is one thing and to
forget it another: which loop is registered for a timer says nothing about loops that go on without
being registered. -/
structure Timers where
  /-- Timers only run once the session has started. -/
  started : Bool := false
  /-- The registered loops by the name of their timer. -/
  loops : Entries Nat := []
  /-- The loops that were registered and have not begun yet. -/
  created : List (Key × Nat) := []
  /-- The numbers of the loops that were cancelled; such a loop does nothing any more. -/
  cancelled : List Nat := []
  /-- The number of the next loop. -/
  next : Nat := 0

/-- The state that the scripts of a session share. -/
structure World where
  /-- The components by name. -/
  components : Entries Component := []
  /-- The variables, which all scripts share. -/
  globals : Table Value := .empty
  handlers : Table (List Stmt) := .empty
  formName : Option Text := none
  config : Config := {}
  /-- The lines written to the console since it was last cleared, the last one first. -/
  console : List Text := []
  /-- A stopped session runs no further statement. -/
  stopped : Bool := false
  /-- A paused session leaves its running blocks. -/
  paused : Bool := false
  objects : Data.Store := {}
  /-- The databases in memory, by connection string. -/
  memory : Table Nat := .empty
  timers : Timers := {}
  /-- The messages of sources that did not parse, by name. -/
  parseErrors : Table Text := .empty

/-- What a host may do to the flags of a session. -/
inductive Signal where
  | stop | pause | resume
  deriving Repr, DecidableEq

namespace World

/-- The world after a signal. -/
def signal (w : World) : Signal → World
  | .stop => { w with stopped := true }
  | .pause => { w with paused := true }
  | .resume => { w with paused := false }

/-- The world after several signals. -/
def signals (w : World) (signals : List Signal) : World := signals.foldl World.signal w

/-- Whether running blocks are to be left. -/
def halted (w : World) : Bool := w.stopped || w.paused

/-- The lines written to the console since it was last cleared, in order. -/
def transcript (w : World) : List Text := w.console.reverse

/-- The world with a line written to the console. -/
def writeLine (w : World) (text : Text) : World := { w with console := text :: w.console }

/-- The world with the console cleared. -/
def clearConsole (w : World) : World := { w with console := [] }

/-- A line that is written comes last. -/
theorem transcript_writeLine (w : World) (text : Text) :
    (w.writeLine text).transcript = w.transcript ++ [text] := by
  simp [transcript, writeLine]

/-- Nothing is left on a cleared console. -/
theorem transcript_clearConsole (w : World) : w.clearConsole.transcript = [] := rfl

/-- The component that scripts know by a name. -/
def componentNamed? (w : World) (name : Text) : Option Component := w.components.get? (.text name)

/-- Whether there is a component of this name. -/
def hasComponent (w : World) (name : Text) : Bool := (w.componentNamed? name).isSome

/-- The world with a variable written. -/
def setVariable (w : World) (name : Text) (value : Value) : World :=
  { w with globals := w.globals.set name value }

/-- Stores a property under its spelling, which is returned too; none if there is no such
component. -/
def storeProperty (w : World) (component name : Text) (value : Value) : Option (World × Text) :=
  match w.componentNamed? component with
  | some c =>
    some ({ w with components := w.components.set (.text component) (c.store name value) },
      canonicalProperty name)
  | none => none

/-- Adds a component under its name, which has to be fit for a key and may only be used once. -/
def addComponent (w : World) (c : Component) : Except Fault World :=
  match c.name.key? with
  | none => .error .unusableKey
  | some key =>
    if w.components.contains key then .error (.runtime (.duplicateComponent key.shown))
    else .ok { w with components := w.components.set key c }

-- ════════════════════════════════════════════════════════════════════════════
-- Timers
-- ════════════════════════════════════════════════════════════════════════════

/-- The handler that a timer runs. -/
def tickKey (name : Key) : Text := name.shown ++ "_Tick"

/-- The interval of a timer in milliseconds. -/
def milliseconds (c : Component) : Number :=
  ((c.stored? "interval").getD .nothing).toNumber

/-- The interval of a timer in seconds, as a float. -/
def interval (c : Component) : Except Refusal Number := (milliseconds c).div (.float 1000)

/-- Whether a timer is to run: the session is not stopped, the timer is enabled, its interval is
positive and it has a handler. -/
def wantsLoop (w : World) (name : Key) (c : Component) : Except Fault Bool := do
  if w.stopped || !((c.stored? "enabled").getD .nothing).toBool then return false
  else
    let seconds ← (interval c).mapError .refused
    return (Number.int 0).less seconds && w.handlers.contains (tickKey name)

/-- Whether the component is a timer. -/
def isTimer (c : Component) : Except Fault Bool :=
  match c.typeName with
  | .text typeName => .ok (Text.lower typeName == "timer")
  | _ => .error .missingMember

/-- Registers a new tick loop. -/
def registerLoop (w : World) (name : Key) : World :=
  { w with timers := { w.timers with
      loops := w.timers.loops.set name w.timers.next
      created := w.timers.created ++ [(name, w.timers.next)]
      next := w.timers.next + 1 } }

/-- Cancels the tick loop of a timer. -/
def cancelLoop (w : World) (name : Key) : World :=
  { w with timers := { w.timers with
      loops := w.timers.loops.erase name
      cancelled := (w.timers.loops.get? name).toList ++ w.timers.cancelled } }

/-- Stops the session and cancels all its tick loops. -/
def stopTimers (w : World) : World :=
  { w.signal .stop with timers := { w.timers with
      loops := []
      created := []
      cancelled := w.timers.loops.values ++ w.timers.cancelled } }

/-- Registers or cancels the tick loop of a timer to match its properties. -/
def synchronize (w : World) (name : Key) : Except Fault World :=
  match w.components.get? name with
  | none => .ok w
  | some c => do
    if ← isTimer c then
      let wanted ← w.wantsLoop name c
      let running := w.timers.loops.contains name
      if wanted && !running then return w.registerLoop name
      else if !wanted && running then return w.cancelLoop name
      else return w
    else return w

/-- Whether writing this property may start or stop a timer. -/
def drivesTimer (property : Text) : Bool := property == "enabled" || property == "interval"

end World

end FormBasic
