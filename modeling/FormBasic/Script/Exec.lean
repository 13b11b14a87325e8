import FormBasic.Script.Eval

/-!
# Execution of statements

A block runs its statements one after the other until the session is stopped or paused. Loops run
their body at most as often as the settings allow and report a runaway when their test asks for
more. `Return` and `Exit` have no effect: handlers always run to their end. A script error that
reaches a statement is attributed to its line unless a statement inside already claimed it.

## Main definitions

* `Script.assign` - assignment to a name or a member
* `Script.forLoop`, `Script.whileLoop`, `Script.doLoop` - the loops
* `Script.exec`, `Script.block` - statements and blocks
-/

namespace FormBasic.Script

-- ════════════════════════════════════════════════════════════════════════════
-- Assignment
-- ════════════════════════════════════════════════════════════════════════════

/-- Writes a variable. -/
def setVariable (name : Text) (value : Value) : Script Unit :=
  update fun w => w.setVariable name value

/-- Assigns to a name: a variable is written, while the form and the components stay what they
are. -/
def assignName (name : Text) (value : Value) : Script Unit := do
  let w ← world
  if w.globals.contains name || !(name == selfName || w.hasComponent name) then
    setVariable name value

/-- Assigns to a target: a name, a property of a component, or a member of a data access object.
Assignment to anything else has no effect. -/
def assign (line : Line) (target : Expr) (value : Value) : Script Unit := do
  match target with
  | .ident name => assignName name value
  | .member object name =>
    match (← world).component? object with
    | some component => discard (setProperty component name value)
    | none =>
      match ← eval line object with
      | .object h => setMember h name value
      | _ => pure ()
  | _ => pure ()

-- ════════════════════════════════════════════════════════════════════════════
-- Loops
-- ════════════════════════════════════════════════════════════════════════════

/-- The kinds of loops, as diagnoses name them. -/
inductive LoopKind where
  | forLoop | whileLoop | doLoop
  deriving Repr, DecidableEq

/-- The name of a kind of loop. -/
def LoopKind.name : LoopKind → Text
  | .forLoop => "For"
  | .whileLoop => "While"
  | .doLoop => "Do"

/-- The diagnosis of a loop that asks for more rounds than the cap. -/
def runawayMessage (kind : LoopKind) (cap : Int) : Text :=
  "Infinite loop detected in " ++ kind.name ++ " loop (more than " ++ toString cap ++ " iterations)"

/-- Reports a runaway. -/
def reportRunaway (kind : LoopKind) (line : Line) : Script Unit := do
  report (runawayMessage kind (← world).config.maxIterations) line

/-- The loop under the cap of the settings. -/
def cappedLoop {σ : Type} (kind : LoopKind) (line : Line) (test : σ → Script Bool)
    (round : σ → Script (Option σ)) (start : σ) : Script Unit := fun w =>
  loop test round (reportRunaway kind line) w.config.maxIterations.toNat start w

/-- Whether running blocks go on. -/
def goesOn : Script Bool := do return !(← world).halted

/-- Whether a counter is still in the range of its loop. -/
def inRange (stop step counter : Number) : Bool :=
  if (Number.int 0).less step then counter.atMost stop else stop.atMost counter

/-- The counter of the next round: the variable as the body left it, plus the step. -/
def advance (name : Text) (step counter : Number) : Script Number := do
  let current := match (← world).globals.get? name with
    | some value => value.toNumber
    | none => counter
  let next ← compute (current.add step)
  return next.normalize

/-- Counts a variable through a range, running the body for every value. -/
def forLoop (line : Line) (name : Text) (start stop step : Number)
    (body : Script Unit) : Script Unit := do
  setVariable name (.ofNumber start)
  if step.isZero then pure ()
  else
    let test (counter : Number) : Script Bool :=
      if inRange stop step counter then goesOn else pure false
    let round (counter : Number) : Script (Option Number) := do
      setVariable name (.ofNumber counter)
      body
      let next ← advance name step counter
      setVariable name (.ofNumber next)
      return some next
    cappedLoop .forLoop line test round start

/-- Runs the body as long as the condition holds before it. -/
def whileLoop (line : Line) (condition : Script Value) (body : Script Unit) : Script Unit :=
  let test (_ : Unit) : Script Bool := do
    if ← goesOn then return (← condition).isTruthy else return false
  let round (_ : Unit) : Script (Option Unit) := do
    body
    return some ()
  cappedLoop .whileLoop line test round ()

/-- Runs the body until the condition, if there is one, comes out as `ending` after it. -/
def doLoop (line : Line) (body : Script Unit) (condition : Option (Script Value))
    (ending : Bool) : Script Unit :=
  let round (_ : Unit) : Script (Option Unit) := do
    body
    match condition with
    | none => return some ()
    | some condition => return if (← condition).isTruthy == ending then none else some ()
  cappedLoop .doLoop line (fun _ => goesOn) round ()

-- ════════════════════════════════════════════════════════════════════════════
-- Statements
-- ════════════════════════════════════════════════════════════════════════════

/-- Runs a script unless the session is stopped, and attributes its script errors to a line. -/
def onLine (line : Line) (script : Script Unit) : Script Unit := do
  if (← world).stopped then pure () else mapFault (Fault.attribute line) script

mutual

/-- Runs a statement. -/
def exec : Stmt → Script Unit
  | .dim name typeName initial line =>
    onLine line do
      match initial with
      | some e => setVariable name (← eval line e)
      | none => setVariable name (Library.initialValue typeName)
  | .assign target value line => onLine line do assign line target (← eval line value)
  | .call target args line => onLine line do discard (eval line (.call target args))
  | .cond test body elseIfs otherwise line =>
    onLine line do
      if (← eval line test).isTruthy then block body
      else if ← firstBranch line elseIfs then pure ()
      else block otherwise
  | .forLoop name start stop step body line =>
    onLine line do
      let start := (← eval line start).toNumber
      let stop := (← eval line stop).toNumber
      let step ← match step with
        | some e => do pure (← eval line e).toNumber
        | none => pure (.int 1)
      forLoop line name start stop step (block body)
  | .whileLoop test body line => onLine line (whileLoop line (eval line test) (block body))
  | .doLoop body test ending _ line =>
    onLine line (doLoop line (block body) (test.map (eval line)) ending)
  | .ret _ line => onLine line (pure ())
  | .exit _ line => onLine line (pure ())
  | .alien kind => onLine none (throw (.runtime (.unknownStatement kind)))
termination_by structural s => s

/-- Runs the statements of a block until the session is stopped or paused. -/
def block : List Stmt → Script Unit
  | [] => pure ()
  | s :: rest => do
    if (← world).halted then pure ()
    else
      exec s
      block rest
termination_by structural ss => ss

/-- Runs the first further branch whose test holds; whether there is one. -/
def firstBranch (line : Line) : List ElseIf → Script Bool
  | [] => pure false
  | clause :: rest => do
    if ← branch line clause then return true else firstBranch line rest
termination_by structural clauses => clauses

/-- Runs a further branch if its test holds; whether it does. -/
def branch (line : Line) : ElseIf → Script Bool
  | .mk test body => do
    if (← eval line test).isTruthy then
      block body
      return true
    else return false
termination_by structural clause => clause

end

end FormBasic.Script
