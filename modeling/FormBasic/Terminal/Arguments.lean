import FormBasic.Number.Decimal
import FormBasic.Terminal.Disk

/-!
# Command lines

The words of a command line and the command they describe. Options may be abbreviated as long as
they stay unambiguous, a value may be attached to its option by an equals sign, short flags may be
written together, and a double dash ends the options. Words that look like negative numbers are no
options.

## Main definitions

* `OptionSpec`, `Word` - the options of a command, and how a word is taken
* `classify` - what a word is
* `given` - the options and the other words
* `Command` - the commands
* `Command.ofWords` - the command of a command line
-/

namespace FormBasic.Terminal

-- ════════════════════════════════════════════════════════════════════════════
-- Words
-- ════════════════════════════════════════════════════════════════════════════

/-- What follows an option. -/
inductive Operand where
  | none
  | text
  | number
  deriving Repr, DecidableEq

/-- An option by its names; it stands alone or takes a value. -/
structure OptionSpec where
  /-- The name by which the command knows the option. -/
  key : Text
  names : List Text
  operand : Operand := .none
  deriving Repr, DecidableEq

/-- Whether the option takes a value. -/
def OptionSpec.takesValue (spec : OptionSpec) : Bool := spec.operand != .none

/-- Whether the text is a value that the option can take. -/
def OptionSpec.accepts (spec : OptionSpec) (value : Text) : Bool :=
  spec.operand != .number || (Number.readDecimal? value).isSome

/-- How a word is taken. -/
inductive Word where
  | plain (text : Text)
  /-- An option under one of its names, with a value or further flags attached to it. -/
  | option (spec : OptionSpec) (name : Text) (attached : Option Text)
  | unknown (text : Text)
  | ambiguous
  deriving Repr, DecidableEq

/-- Why a command line is not carried out. -/
inductive Usage where
  | wrong
  | help
  deriving Repr, DecidableEq

/-- The option of an exact name. -/
def find? (specs : List OptionSpec) (name : Text) : Option OptionSpec :=
  specs.find? fun s => s.names.contains name

/-- A word cut at its first equals sign. -/
def cutValue (word : Text) : Option (Text × Text) := Text.cutAt? '=' word

/-- All options that a word may abbreviate. -/
def candidates (specs : List OptionSpec) (word : Text) :
    List (OptionSpec × Text × Option Text) :=
  let named := specs.flatMap fun s => s.names.map fun n => (s, n)
  let (stem, attached) := match cutValue word with
    | some (stem, value) => (stem, some value)
    | none => (word, none)
  match word.toList with
  | .char '-' :: .char '-' :: _ =>
    (named.filter fun e => stem.toList.isPrefixOf e.2.toList).map fun e => (e.1, e.2, attached)
  | cs =>
    named.filterMap fun e =>
      if e.2.toList = cs.take 2 then some (e.1, e.2, some (Text.ofList (cs.drop 2)))
      else if cs.isPrefixOf e.2.toList then some (e.1, e.2, none)
      else none

/-- The characters without a line feed at the end. -/
def dropLineFeed (cs : List Char) : List Char :=
  if cs.getLast? = some '\n' then cs.dropLast else cs

/-- Whether the word is a negative number in digits; a line feed may follow it. -/
def isNegativeNumber (word : Text) : Bool :=
  match dropLineFeed word.shown with
  | '-' :: rest =>
    let whole := rest.takeWhile fun c => (Text.digitValue? c).isSome
    match rest.drop whole.length with
    | [] => !whole.isEmpty
    | '.' :: places => !places.isEmpty && places.all fun c => (Text.digitValue? c).isSome
    | _ => false
  | _ => false

/-- What a word is, before any double dash. -/
def classify (specs : List OptionSpec) (word : Text) : Word :=
  match word.toList with
  | .char '-' :: _ :: _ =>
    match find? specs word with
    | some spec => .option spec word none
    | none =>
      match (cutValue word).bind fun e => (find? specs e.1).map fun spec => (spec, e) with
      | some (spec, name, value) => .option spec name (some value)
      | none =>
        match candidates specs word with
        | [(spec, name, attached)] => .option spec name attached
        | _ :: _ :: _ => .ambiguous
        | [] =>
          if isNegativeNumber word || word.toList.contains (.char ' ') then .plain word
          else .unknown word
  | _ => .plain word

-- ════════════════════════════════════════════════════════════════════════════
-- Options
-- ════════════════════════════════════════════════════════════════════════════

/-- The options given, the last one first, and the other words in order. -/
structure Given where
  options : List (Text × Text) := []
  words : List Text := []
  /-- Whether an unknown option was met. -/
  stray : Bool := false

/-- The last value given for an option. -/
def Given.value? (g : Given) (key : Text) : Option Text := g.options.lookup key

/-- Whether an option was given. -/
def Given.has (g : Given) (key : Text) : Bool := (g.value? key).isSome

/-- Notes an option; the one that asks for help ends the command line. -/
def Given.note (g : Given) (spec : OptionSpec) (value : Text) : Except Usage Given :=
  if spec.key = "help" then .error .help
  else if spec.accepts value then .ok { g with options := (spec.key, value) :: g.options }
  else .error .wrong

/-- The further options whose letters are attached to a short flag; what follows the letter of an
option that takes a value is its value. -/
def flagsOf (specs : List OptionSpec) : List CodePoint → Except Usage (List (OptionSpec × Text))
  | [] => .ok []
  | c :: rest =>
    match find? specs (.ofList [.char '-', c]) with
    | none => .error .wrong
    | some spec =>
      if spec.takesValue then .ok [(spec, Text.ofList rest)]
      else do return (spec, "") :: (← flagsOf specs rest)

/-- Whether the name is a dash and a letter. -/
def isShort (name : Text) : Bool :=
  match name.toList with
  | [.char '-', c] => c != .char '-'
  | _ => false

/-- Takes an option with what is attached to it; an option that takes a value needs one. -/
def takeAttached (specs : List OptionSpec) (g : Given) (spec : OptionSpec) (name value : Text) :
    Except Usage Given :=
  if spec.takesValue then g.note spec value
  else if isShort name && !value.isEmpty then do
    let flags ← flagsOf specs value.toList
    flags.foldlM (fun g flag => g.note flag.1 flag.2) (← g.note spec "")
  else .error .wrong

/-- The word that ends the options. -/
def endOfOptions : Text := "--"

/-- Whether a word before the end of the options abbreviates several of them. -/
def isAmbiguous (specs : List OptionSpec) (words : List Text) : Bool :=
  (words.takeWhile (· != endOfOptions)).any fun word => classify specs word == .ambiguous

/-- Takes the words of a command line one by one; `stopAtWord` leaves everything after the first
word that is no option to somebody else. -/
def takeWords (specs : List OptionSpec) (stopAtWord : Bool) (g : Given) :
    List Text → Except Usage Given
  | [] => .ok g
  | word :: rest =>
    if word = endOfOptions then
      .ok { g with words := g.words ++ (if stopAtWord then word :: rest else rest) }
    else
      match classify specs word with
      | .ambiguous => .error .wrong
      | .unknown _ => takeWords specs stopAtWord { g with stray := true } rest
      | .plain word =>
        if stopAtWord then .ok { g with words := g.words ++ word :: rest }
        else takeWords specs stopAtWord { g with words := g.words ++ [word] } rest
      | .option spec name (some value) => do
        takeWords specs stopAtWord (← takeAttached specs g spec name value) rest
      | .option spec _ none =>
        if spec.takesValue then
          match rest with
          | [] => .error .wrong
          | value :: rest =>
            match if value = endOfOptions then .unknown value else classify specs value with
            | .plain value => do takeWords specs stopAtWord (← g.note spec value) rest
            | _ => .error .wrong
        else do takeWords specs stopAtWord (← g.note spec "") rest

/-- The options and the other words of a command line in which no word is ambiguous. -/
def given (specs : List OptionSpec) (stopAtWord : Bool) (words : List Text) :
    Except Usage Given :=
  if isAmbiguous specs words then .error .wrong else takeWords specs stopAtWord {} words

-- ════════════════════════════════════════════════════════════════════════════
-- Commands
-- ════════════════════════════════════════════════════════════════════════════

/-- How a module is run. -/
structure RunOptions where
  file : Path
  /-- The file that declares the components. -/
  components : Option Path := none
  form : Option Text := none
  /-- How long timers are kept running, in seconds. -/
  duration : Float := 0
  filesDirectory : Path := {}
  trace : Bool := false

/-- The commands. -/
inductive Command where
  | tokens (file : Path)
  | parse (file : Path)
  | format (file : Path) (inPlace : Bool)
  | run (options : RunOptions)

/-- The option that asks for help. -/
def helpOption : OptionSpec := ⟨"help", ["-h", "--help"], .none⟩

/-- The options before the command. -/
def mainOptions : List OptionSpec := [helpOption, ⟨"verbose", ["-v", "--verbose"], .none⟩]

/-- The options of the formatter. -/
def formatOptions : List OptionSpec := [helpOption, ⟨"write", ["-w", "--write"], .none⟩]

/-- The options of a run. -/
def runOptions : List OptionSpec :=
  [helpOption, ⟨"components", ["--components"], .text⟩, ⟨"form", ["--form"], .text⟩,
   ⟨"duration", ["--duration"], .number⟩, ⟨"files-dir", ["--files-dir"], .text⟩,
   ⟨"trace", ["--trace"], .none⟩]

/-- The options of a command and the one file that it works on. -/
def takeFile (specs : List OptionSpec) (words : List Text) : Except Usage (Given × Path) := do
  let g ← given specs false words
  match g.words, g.stray with
  | [file], false => return (g, .ofText file)
  | _, _ => .error .wrong

/-- How a module is run, from the options given. -/
def runOptionsOf (g : Given) (file : Path) : RunOptions where
  file := file
  components := (g.value? "components").map .ofText
  form := g.value? "form"
  duration := ((g.value? "duration").bind Number.readDecimal?).getD 0
  filesDirectory := ((g.value? "files-dir").map .ofText).getD {}
  trace := g.has "trace"

/-- The command of a name and the words after it. -/
def commandOf (name : Text) (words : List Text) : Except Usage Command :=
  match name with
  | "tokens" => do return .tokens (← takeFile [helpOption] words).2
  | "parse" => do return .parse (← takeFile [helpOption] words).2
  | "fmt" => do
    let (g, file) ← takeFile formatOptions words
    return .format file (g.has "write")
  | "run" => do
    let (g, file) ← takeFile runOptions words
    return .run (runOptionsOf g file)
  | _ => .error .wrong

/-- The command of a command line. -/
def Command.ofWords (words : List Text) : Except Usage Command := do
  let g ← given mainOptions true words
  match g.words with
  | [] => .error .wrong
  | name :: rest =>
    let command ← commandOf name rest
    if g.stray then .error .wrong else return command

end FormBasic.Terminal
