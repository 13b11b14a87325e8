import FormBasic.Grammar.Cursor

/-!
# Faults

What can go wrong while a script runs. A script error is a diagnosis in the script's own terms and
carries the line it is attributed to; the other faults come from below or from outside: a value
function that refuses its arguments, a host that fails, input that has ended.

## Main definitions

* `RuntimeCause`, `DatabaseCause`, `ScriptCause` - the diagnoses
* `ScriptError` - a diagnosis and its line
* `Fault` - everything that ends an invocation early
-/

namespace FormBasic

/-- Diagnoses of the interpreter. -/
inductive RuntimeCause where
  | duplicateComponent (name : Text)
  | unknownStatement (kind : Text)
  | unknownExpression (kind : Text)
  | unknownUnary (op : Text)
  | unknownBinary (op : Text)
  | divisionByZero
  | invalidExpression
  /-- The host reports that it failed. -/
  | hostFailure
  deriving Repr, DecidableEq

/-- Diagnoses of the data access objects. -/
inductive DatabaseCause where
  | cannotOpen (path reason : Text)
  | noConnection (operation : Text)
  | notOpen (operation : Text)
  | failed (operation reason : Text)
  | parameterName
  | noSelectCommand
  | notATable
  | notAConnection
  deriving Repr, DecidableEq

/-- A diagnosis in the script's own terms. -/
inductive ScriptCause where
  | malformed (error : ParseError)
  | runtime (cause : RuntimeCause)
  | database (cause : DatabaseCause)
  deriving Repr, DecidableEq

/-- The wording of an interpreter's diagnosis. -/
def RuntimeCause.message : RuntimeCause → Text
  | .duplicateComponent name => "Duplicate component name: " ++ name
  | .unknownStatement kind => "Unknown statement type: " ++ kind
  | .unknownExpression kind => "Unknown expression type: " ++ kind
  | .unknownUnary op => "Unknown unary operator: " ++ op
  | .unknownBinary op => "Unknown binary operator: " ++ op
  | .divisionByZero => "Division by zero"
  | .invalidExpression => "Invalid expression"
  | .hostFailure => "host failure"

/-- The wording of a data access diagnosis. -/
def DatabaseCause.message : DatabaseCause → Text
  | .cannotOpen path reason => "Cannot open database '" ++ path ++ "': " ++ reason
  | .noConnection operation => operation ++ ": command has no connection"
  | .notOpen operation => operation ++ " requires an open connection"
  | .failed operation reason => operation ++ " failed: " ++ reason
  | .parameterName => "Parameters.Add requires a parameter name"
  | .noSelectCommand => "Fill: adapter has no select command"
  | .notATable => "Fill requires a DataTable"
  | .notAConnection => "SqlCommand expects a SqlConnection as its second argument"

/-- The wording of a diagnosis. -/
def ScriptCause.message : ScriptCause → Text
  | .malformed error => error.message
  | .runtime cause => cause.message
  | .database cause => cause.message

/-- The code that tells the three sorts of diagnosis apart. -/
def ScriptCause.code : ScriptCause → Text
  | .malformed _ => "E_PARSE_ERROR"
  | .runtime _ => "E_RUNTIME_ERROR"
  | .database _ => "E_DATABASE_ERROR"

/-- A diagnosis and the line it is attributed to. -/
structure ScriptError where
  cause : ScriptCause
  line : Line
  deriving Repr, DecidableEq

/-- The wording of a script error. -/
def ScriptError.message (e : ScriptError) : Text := e.cause.message

/-- The wording of a script error with its code. -/
def ScriptError.text (e : ScriptError) : Text := "[" ++ e.cause.code ++ "] " ++ e.message

/-- Attributes an error to a line unless it already has one. -/
def ScriptError.attribute (line : Line) (e : ScriptError) : ScriptError :=
  { e with line := e.line.or line }

/-- What ends an invocation early. -/
inductive Fault where
  | script (error : ScriptError)
  /-- A value function refuses its arguments. -/
  | refused (refusal : Refusal)
  /-- A dictionary is asked for a key that no dictionary can hold. -/
  | unusableKey
  /-- A property of a component that does not exist is asked for. -/
  | unknownComponent
  /-- An object lacks the operation asked of it. -/
  | missingMember
  /-- The host broke down. -/
  | hostBreakdown
  /-- The database engine broke down. -/
  | engineFailure
  /-- Input is asked for after its end. -/
  | inputExhausted
  /-- A file, a setting or a document is not as it should be. -/
  | trouble (message : Text)
  /-- A component is declared without a name. -/
  | missingName
  /-- A declaration does not have the shape of a component. -/
  | wrongShape
  deriving Repr, DecidableEq

/-- A runtime diagnosis at a line. -/
def Fault.runtimeAt (line : Line) (cause : RuntimeCause) : Fault :=
  .script ⟨.runtime cause, line⟩

/-- A runtime diagnosis that is not attributed to a line yet. -/
def Fault.runtime (cause : RuntimeCause) : Fault := .runtimeAt none cause

/-- A data access diagnosis that is not attributed to a line yet. -/
def Fault.database (cause : DatabaseCause) : Fault := .script ⟨.database cause, none⟩

/-- A parse failure as a fault. -/
def Fault.ofParse : ParseFailure → Fault
  | .malformed error => .script ⟨.malformed error, error.line⟩
  | .refused refusal => .refused refusal

/-- Attributes a script error to a line unless it already has one. -/
def Fault.attribute (line : Line) : Fault → Fault
  | .script error => .script (error.attribute line)
  | fault => fault

end FormBasic
