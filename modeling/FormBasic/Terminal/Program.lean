import FormBasic.Json.Write
import FormBasic.Session.Schedule
import FormBasic.Terminal.Arguments
import FormBasic.Terminal.Console
import FormBasic.Terminal.Declaration
import FormBasic.Tree.Json
import FormBasic.Tree.Write

/-!
# The command-line tool

The commands carried out on a terminal. Listing the tokens, writing the syntax tree and formatting
work on one file; running a module loads it, runs its first handler and keeps its timers going for
some time. Foreseeable trouble is told on the error output and ends with exit code one.

## Main definitions

* `tokenLine` - a token in a listing
* `Terminal.carryOut` - a command on a terminal
* `Terminal.invoke` - a command line on a terminal
-/

namespace FormBasic.Terminal

-- ════════════════════════════════════════════════════════════════════════════
-- Commands on one file
-- ════════════════════════════════════════════════════════════════════════════

/-- A token in a listing: its place, its kind and its text. -/
def tokenLine (t : Token) : Text :=
  t.line.text ++ ":" ++ toString t.col ++ "\t" ++ t.kind.name ++ "\t" ++ Text.quoted t.text

/-- The text of a file. -/
def sourceOf (c : Console) (file : Path) : Except Fault String :=
  (c.disk.readText file).mapError fun trouble => .trouble trouble.message

/-- The module in a file. -/
def moduleOf (c : Console) (file : Path) : Except Fault Program := do
  (Program.parse (← sourceOf c file)).mapError .ofParse

/-- A module in its standard form. -/
def formatted (program : Program) : Except Fault Text :=
  program.write.mapError fun
    | .alien _ => .wrongShape
    | .refused refusal => .refused refusal

/-- Lists the tokens of a file. -/
def listTokens (c : Console) (file : Path) : Except Fault Console := do
  let source ← sourceOf c file
  return (Token.scan source).foldl (fun c t => c.printLine (tokenLine t)) c

/-- Writes the syntax tree of a module. -/
def writeTree (c : Console) (file : Path) : Except Fault Console := do
  let program ← moduleOf c file
  return c.printLine (program.toJson.pretty 0)

/-- Formats a module, in place or to the standard output. -/
def format (c : Console) (file : Path) (inPlace : Bool) : Except Fault Console := do
  let text ← formatted (← moduleOf c file)
  if inPlace then
    let (disk, result) := c.disk.writeText file text
    result.mapError fun trouble => .trouble trouble.message
    return { c with disk }
  else return c.print text

-- ════════════════════════════════════════════════════════════════════════════
-- Running a module
-- ════════════════════════════════════════════════════════════════════════════

/-- The components declared in a file. -/
def componentsOf (c : Console) : Option Path → Except Fault (List Component)
  | none => .ok []
  | some file => do
    let source ← sourceOf c file
    let document ← (Json.read source).mapError fun
      | .refused refusal => Fault.refused refusal
      | failure => Fault.trouble (failure.message source)
    declaredComponents document

/-- The session of a run, and the source of its module. -/
def prepare (lookup : String → Option Text) (options : RunOptions) (c : Console) :
    Except Fault (Session Console × Text) := do
  let config ← (Config.ofEnvironment lookup).mapError fun e => .trouble e.message
  let components ← componentsOf c options.components
  let world ← World.forSession components .empty options.form config {}
  let source ← sourceOf c options.file
  let state := { c with filesDirectory := options.filesDirectory, trace := options.trace }
  return ({ world, state }, source)

/-- Keeps the session going for some seconds, lets its ticks end and stops it. -/
def linger (fuel : Nat) (duration : Float) (s : Session Console) : Session Console :=
  let s := match (Number.float duration).toRat? with
    | some seconds => if 0 < seconds then s.advance Console.host fuel seconds else s
    | none => s
  (s.waitIdle Console.host fuel).stop

/-- Runs a module; the exit code tells whether it parsed. -/
def runModule (fuel : Nat) (lookup : String → Option Text) (options : RunOptions) (c : Console) :
    Console × Except Fault Nat :=
  match prepare lookup options c with
  | .error fault => (c, .error fault)
  | .ok (s, source) =>
    let load := Script.asValue .bool (Script.loadProgram options.file.name source)
    match s.perform Console.host fuel load with
    | (s, .error fault) => (s.state, .error fault)
    | (s, .ok loaded) =>
      if loaded.isTruthy then
        match s.perform Console.host fuel (Script.asValue (fun _ => .nothing) Script.start) with
        | (s, .error fault) => (s.state, .error fault)
        | (s, .ok _) =>
          let s := linger fuel options.duration s
          (s.state, .ok (if s.world.parseErrors.size = 0 then 0 else 1))
      else (s.state, .ok 1)

-- ════════════════════════════════════════════════════════════════════════════
-- Command lines
-- ════════════════════════════════════════════════════════════════════════════

/-- The file that a command works on. -/
def Command.file : Command → Path
  | .tokens file | .parse file | .format file _ => file
  | .run options => options.file

/-- Carries out a command on a file that exists. -/
def carryOut (fuel : Nat) (lookup : String → Option Text) (command : Command) (c : Console) :
    Console × Except Fault Nat :=
  let plain (result : Except Fault Console) : Console × Except Fault Nat :=
    match result with
    | .ok c => (c, .ok 0)
    | .error fault => (c, .error fault)
  match command with
  | .tokens file => plain (listTokens c file)
  | .parse file => plain (writeTree c file)
  | .format file inPlace => plain (format c file inPlace)
  | .run options => runModule fuel lookup options c

/-- What is told about foreseeable trouble; other faults have no wording. -/
def toldAs : Fault → Option Text
  | .script error => some error.text
  | .refused refusal => if refusal.isOverflow then none else some refusal.message
  | .trouble message => some message
  | _ => none

/-- The exit code for a command line that describes no command. -/
def usageExit : Usage → Nat
  | .wrong => 2
  | .help => 0

/-- Carries out a command line on a terminal: the exit code, or a fault that nobody foresaw. -/
def invoke (fuel : Nat) (lookup : String → Option Text) (words : List Text) (c : Console) :
    Console × Except Fault Nat :=
  match Command.ofWords words with
  | .error usage => (c, .ok (usageExit usage))
  | .ok command =>
    match c.disk.existsAt command.file with
    | .error trouble => (c, .error (.trouble trouble.message))
    | .ok false => (c.errorLine ("Error: File '" ++ command.file.text ++ "' not found."), .ok 1)
    | .ok true =>
      match carryOut fuel lookup command c with
      | (c, .ok code) => (c, .ok code)
      | (c, .error fault) =>
        match toldAs fault with
        | some message => (c.errorLine ("Error: " ++ message), .ok 1)
        | none => (c, .error fault)

end FormBasic.Terminal
