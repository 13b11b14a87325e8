import FormBasic.Library.Strings

/-!
# Functions by name

The functions that scripts call by name, and those of the static classes `Math`, `Convert` and the
type names. Names are given in lower case. Missing arguments count as nothing.

## Main definitions

* `function?` - the free functions
* `mathFunction?`, `convertFunction?`, `typeFunction?` - functions of the static classes
* `classConstant?`, `constant?` - constants
-/

namespace FormBasic.Library

/-- What a function does with its arguments. -/
abbrev Function := List Value → Except Refusal Value

/-- A function of the number that the first argument stands for. -/
def ofFirst (f : Number → Except Refusal Value) : Function := fun args =>
  f (arg args 0 .nothing).toNumber

/-- A numeric function whose whole results are integers. -/
def numeric (f : Number → Except Refusal Number) : Function :=
  ofFirst fun n => do return .ofNumber (← f n).normalize

/-- A function to the integers. -/
def integral (f : Number → Except Refusal Int) : Function := ofFirst fun n => do return .int (← f n)

/-- A function of the text of the first argument. -/
def ofText (f : Text → Value) : Function := fun args => do
  return f (← (arg args 0 .nothing).display)

/-- The first argument as an integer. -/
def toInteger : Function := fun args => do return .int (← (arg args 0 .nothing).toInt)

/-- The first argument as a number. -/
def toDouble : Function := fun args => .ok (.ofNumber (arg args 0 .nothing).toNumber)

/-- The first argument as a truth value. -/
def toBoolean : Function := fun args => .ok (.bool (arg args 0 .nothing).toBool)

/-- The first argument as a text. -/
def toText : Function := ofText .text

/-- The first argument without its sign. -/
def absolute : Function := ofFirst fun n => .ok (.ofNumber n.abs)

/-- The first argument rounded to the places that the second gives. -/
def rounded : Function := fun args => do
  let n ← (arg args 0 .nothing).toNumber.roundTo (arg args 1 (.int 0)).toNumber
  return .ofNumber n

/-- The number that a text starts with, zero when it starts with none; numbers stand for themselves.
-/
def leadingValue (v : Value) : Except Refusal Value :=
  match v with
  | .int n => .ok (.int n)
  | .float x => .ok (.float x)
  | .nan mark => .ok (.nan mark)
  | v => do
    let text ← v.display
    return .ofNumber ((Number.leadingNumber? text).getD (.int 0))

/-- The free functions, by name in lower case. -/
def function? : String → Option Function
  | "cint" | "clng" => some toInteger
  | "cdbl" => some toDouble
  | "cstr" | "str" => some toText
  | "cbool" => some toBoolean
  | "val" => some fun args => leadingValue (arg args 0 .nothing)
  | "len" => some (ofText fun s => .int s.length)
  | "mid" => some fun args => mid (arg args 0 .nothing) (arg args 1 (.int 1)) (arg args 2 .nothing)
  | "left" => some fun args => left (arg args 0 .nothing) (arg args 1 (.int 0))
  | "right" => some fun args => right (arg args 0 .nothing) (arg args 1 (.int 0))
  | "ucase" => some (ofText fun s => .text (Text.upper s))
  | "lcase" => some (ofText fun s => .text (Text.lower s))
  | "trim" => some (ofText fun s => .text (Text.trim s))
  | "ltrim" => some (ofText fun s => .text (Text.trimLeft s))
  | "rtrim" => some (ofText fun s => .text (Text.trimRight s))
  | "abs" => some absolute
  | "int" => some (integral Number.floor)
  | "fix" => some (integral Number.truncate)
  | "sqr" => some (numeric Number.sqrt)
  | "instr" => some inStr
  | "replace" => some fun args => do
    let text ← (arg args 0 .nothing).display
    replaceIn text (arg args 1 .nothing) (arg args 2 .nothing)
  | "space" => some fun args => space (arg args 0 .nothing)
  | "strreverse" => some (ofText fun s => .text (Text.ofList s.toList.reverse))
  | "chr" => some fun args => character (arg args 0 .nothing)
  | "asc" => some fun args => characterCode (arg args 0 .nothing)
  | "isnumeric" => some fun args => .ok (.bool (arg args 0 .nothing).isNumeric)
  | "round" => some rounded
  | _ => none

/-- The functions of `Math`, by name in lower case. -/
def mathFunction? : String → Option Function
  | "abs" => some absolute
  | "sqrt" => some (numeric Number.sqrt)
  | "pow" => some fun args => do
    let n ← (arg args 0 .nothing).toNumber.power (arg args 1 .nothing).toNumber
    return .ofNumber n.normalize
  | "max" => some fun args =>
    .ok (.ofNumber ((arg args 0 .nothing).toNumber.greater (arg args 1 .nothing).toNumber))
  | "min" => some fun args =>
    .ok (.ofNumber ((arg args 0 .nothing).toNumber.lesser (arg args 1 .nothing).toNumber))
  | "floor" => some (integral Number.floor)
  | "ceiling" => some (integral Number.ceiling)
  | "round" => some rounded
  | "truncate" => some (integral Number.truncate)
  | "sin" => some (numeric Number.sin)
  | "cos" => some (numeric Number.cos)
  | "tan" => some (numeric Number.tan)
  | "log" => some (numeric Number.log)
  | "exp" => some (numeric Number.exp)
  | _ => none

/-- The functions of `Convert`, by name in lower case. -/
def convertFunction? : String → Option Function
  | "toint16" | "toint32" | "toint64" => some toInteger
  | "todouble" | "tosingle" | "todecimal" => some toDouble
  | "tostring" => some toText
  | "toboolean" => some toBoolean
  | _ => none

/-- The functions of the type names, by type and name in lower case. -/
def typeFunction? : String → String → Option Function
  | "integer", "parse" | "long", "parse" => some toInteger
  | "double", "parse" | "single", "parse" => some toDouble
  | "string", "isnullorempty" => some (ofText fun s => .bool s.isEmpty)
  | _, _ => none

/-- The constants of the static classes, by class and name in lower case. -/
def classConstant? : String → String → Option Value
  | "math", "pi" => some (.float 3.141592653589793)
  | "math", "e" => some (.float 2.718281828459045)
  | "string", "empty" => some (.text "")
  | "environment", "newline" => some (.text "\r\n")
  | _, _ => none

/-- The free constants, by name in lower case. -/
def constant? : String → Option Value
  | "vbcrlf" | "vbnewline" => some (.text "\r\n")
  | "vblf" => some (.text "\n")
  | "vbcr" => some (.text "\r")
  | "vbtab" => some (.text "\t")
  | _ => none

/-- The type names whose variables start as the number zero, in lower case. -/
def numericTypes : List String :=
  ["integer", "long", "double", "single", "decimal", "short", "byte"]

/-- The type names whose variables start as nothing, in lower case. -/
def objectTypes : List String :=
  ["sqlconnection", "sqlcommand", "datatable", "sqldatareader", "sqldataadapter"]

/-- The value that a variable of a type starts with. -/
def initialValue (typeName : Text) : Value :=
  let type := Text.word typeName
  if numericTypes.contains type then .int 0
  else if type = "boolean" then .bool false
  else if objectTypes.contains type then .nothing
  else .text ""

end FormBasic.Library
