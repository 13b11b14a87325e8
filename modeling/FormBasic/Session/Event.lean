import FormBasic.Session.Turn

/-!
# Events and sources

What can be done to a session from outside, as scripts: sources are parsed and loaded as handlers,
events run handlers, and the session is started. A source that does not parse is reported and left
out; a script error ends only the invocation in which it arises and is reported with its name.

## Main definitions

* `World.ofComponents`, `World.forSession` - worlds to begin with
* `Script.fire` - runs the handler of an event
* `Script.loadHandlers`, `Script.loadProgram` - loads sources
* `Script.start` - runs the first handler and starts the timers
-/

namespace FormBasic

-- ════════════════════════════════════════════════════════════════════════════
-- Worlds to begin with
-- ════════════════════════════════════════════════════════════════════════════

namespace World

/-- Adds components one after the other; a name may only be used once. -/
def addComponents (w : World) : List Component → Except Fault World
  | [] => .ok w
  | c :: rest => do (← w.addComponent c).addComponents rest

/-- The components of a session: those declared, and the form unless it is among them. -/
def sessionComponents (formName : Text) (components : List Component) : List Component :=
  if components.any fun c => c.isNamed formName then components
  else
    components ++
      [{ name := .text formName, typeName := .text "Form",
         properties := [(.text "text", .text formName)] }]

/-- The name of a session's form: the one asked for, or the one of the settings. -/
def sessionForm (config : Config) : Option Text → Text
  | some name => if name.isEmpty then config.formName else name
  | none => config.formName

/-- A world with components and variables. -/
def ofComponents (components : List Component) (globals : Table Value) (formName : Option Text)
    (config : Config) (objects : Data.Store) : Except Fault World :=
  ({ globals, formName, config, objects } : World).addComponents components

/-- The world of a session, whose form always has a name and a component. -/
def forSession (components : List Component) (globals : Table Value) (form : Option Text)
    (config : Config) (objects : Data.Store) : Except Fault World :=
  let formName := sessionForm config form
  ofComponents (sessionComponents formName components) globals (some formName) config objects

end World

namespace Script

-- ════════════════════════════════════════════════════════════════════════════
-- Sources
-- ════════════════════════════════════════════════════════════════════════════

/-- The names by which a handler key may refer to the form. -/
def formAliases : List Text := [selfName, "MyBase"]

/-- The key under which a handler is stored: handlers of the form go by its name. -/
def handlerKey (formName key : Text) : Text :=
  match Text.cutAt? '_' key with
  | some (owner, event) =>
    if formAliases.contains owner then formName ++ "_" ++ event else key
  | none => key

/-- Stores a handler. -/
def setHandler (key : Text) (body : List Stmt) : Script Unit :=
  update fun w =>
    { w with handlers := w.handlers.set (handlerKey (w.formName.getD "") key) body }

/-- Notes and reports a source that does not parse. -/
def reportMalformed (name : Text) (error : ParseError) : Script Unit := do
  update fun w => { w with parseErrors := w.parseErrors.set name error.message }
  report ("Parse error in " ++ name ++ ": " ++ error.message) error.line

/-- A parsed source; a parse error is noted and reported instead. -/
def parsed? {α : Type} (name : Text) (result : Except ParseFailure α) : Script (Option α) :=
  match result with
  | .ok a => pure (some a)
  | .error (.refused refusal) => throw (.refused refusal)
  | .error (.malformed error) => do
    reportMalformed name error
    return none

/-- Loads handlers from their sources, in order; the keys of those that parse. -/
def loadHandlers : List (Text × Text) → Script (List Text)
  | [] => pure []
  | (key, source) :: rest => do
    match ← parsed? key (parseBody source) with
    | some body =>
      setHandler key body
      return key :: (← loadHandlers rest)
    | none => loadHandlers rest

-- ════════════════════════════════════════════════════════════════════════════
-- Running
-- ════════════════════════════════════════════════════════════════════════════

/-- Runs a script; a script error is reported under a name, and the result is then false. -/
def reporting (name : Text) (script : Script Bool) : Script Bool := do
  match ← attempt script with
  | .ok result => return result
  | .error (.script error) =>
    report ("Runtime error in " ++ name ++ ": " ++ error.message) error.line
    return false
  | .error fault => throw fault

/-- Runs the handler of an event; whether it ran to its end. -/
def fire (key : Text) : Script Bool := do
  let w ← world
  if w.stopped || !w.handlers.contains key then return false
  else reporting key (call key)

/-- Runs statements under a name; whether they ran to their end. -/
def runBlock (name : Text) (body : List Stmt) : Script Bool :=
  reporting name do
    block body
    return true

/-- Loads a module: its handlers are stored and its own statements run. Whether it parsed. -/
def loadProgram (name source : Text) : Script Bool := do
  match ← parsed? name (Program.parse source) with
  | none => return false
  | some program =>
    program.handlers.entries.forM fun e => setHandler e.1 e.2
    discard (runBlock name program.declarations)
    return true

/-- Runs statements given as text; whether they parsed and ran to their end. -/
def executeSource (name source : Text) : Script Bool := do
  match ← parsed? name (parseBody source) with
  | none => return false
  | some body => runBlock name body

/-- The value of an expression given as text. -/
def evaluateSource (source : Text) : Script Value := do
  let tree ← lift ((Expr.parse source).mapError .ofParse)
  eval none tree

/-- Runs statements given as text; a parse error is reported. -/
def parseAndExecute (source : Text) : Script Unit := do
  match parseBody source with
  | .ok body => block body
  | .error (.malformed error) => report error.message error.line
  | .error (.refused refusal) => throw (.refused refusal)

/-- Applies a value that the user changed. -/
def updateFromUser (component property : Text) (value : Value) : Script Unit := do
  let w ← world
  if w.stopped || !w.hasComponent component then pure ()
  else discard (setProperty component property value)

/-- The handler with which a session begins: that of the form's loading, else the main one. -/
def firstHandler? (w : World) : Option Text :=
  ([w.formName.getD "" ++ "_Load", "Main"]).find? w.handlers.contains

/-- Starts a session: the first handler runs, and then the timers are registered. -/
def start : Script Unit := do
  update fun w => { w with timers := { w.timers with started := true } }
  match firstHandler? (← world) with
  | some key => discard (fire key)
  | none => pure ()
  (← world).components.keys.forM synchronize

end Script

end FormBasic
