import FormBasic.Number.Random
import FormBasic.Session.Host
import FormBasic.Terminal.Disk

/-!
# The terminal as a host

A host that shows everything as text: console output and boxes on the standard output, diagnoses on
the error output. Answers are the lines of the standard input, and files lie in one directory.

## Main definitions

* `Console` - the terminal's input, outputs and files
* `Console.host` - the host
-/

namespace FormBasic

/-- The state of a terminal. -/
structure Console where
  /-- What was not read yet. -/
  input : List CodePoint := []
  output : Text := ""
  errors : Text := ""
  disk : Disk := {}
  /-- The directory for the files of scripts. -/
  filesDirectory : Path := {}
  /-- Whether every change of a property is shown. -/
  trace : Bool := false
  random : Random := {}
  /-- The number of the next database. -/
  nextLink : Nat := 1

namespace Console

/-- Writes to the standard output. -/
def print (c : Console) (text : Text) : Console := { c with output := c.output ++ text }

/-- Writes a line to the standard output. -/
def printLine (c : Console) (text : Text) : Console := c.print (text ++ "\n")

/-- Writes a line to the error output. -/
def errorLine (c : Console) (text : Text) : Console :=
  { c with errors := c.errors ++ text ++ "\n" }

/-- The next line of the input, without its end; none after the end of the input. -/
def nextLine? (c : Console) : Option (Text × Console) :=
  if c.input.isEmpty then none
  else
    let line := c.input.takeWhile fun ch => ch != .char '\n'
    some (.ofList line, { c with input := (c.input.drop line.length).drop 1 })

/-- A reply that needs a line of the input. -/
def replyLine {request : Request} (c : Console) (f : Text → request.Reply) :
    Reception Console request :=
  match c.nextLine? with
  | some (line, c) => .answered c [] (.ok (f line))
  | none => .answered c [] (.error .inputExhausted)

/-- The diagnosis with its line, if it has one. -/
def diagnosis (message : Text) : Line → Text
  | some line =>
    if line = 0 then "Error: " ++ message
    else "Error at line " ++ toString line ++ ": " ++ message
  | none => "Error: " ++ message

/-- What stands before the answer to an input box. -/
def promptText (prompt : Text) (title : Option Text) : Text :=
  match title with
  | some t => if t.isEmpty then prompt ++ " " else "[" ++ t ++ "] " ++ prompt ++ " "
  | none => prompt ++ " "

/-- The answer to an input box: what was typed, or else the default. -/
def typed (initial : Option Text) (line : Text) : Value :=
  .text (if line.isEmpty then initial.getD "" else line)

/-- The path of a script's file. -/
def filePath (c : Console) (name extension : Text) : Path :=
  c.filesDirectory.join (.ofText (name ++ "." ++ extension))

/-- The text of a script's file; a file that does not exist counts as empty. -/
def fileText (c : Console) (name extension : Text) : Except Fault Value :=
  let path := c.filePath name extension
  let content := do if ← c.disk.existsAt path then c.disk.readText path else .ok ""
  (content.map fun s => Value.text s).mapError fun trouble => .trouble trouble.message

/-- Shows the change of a property. -/
def showChange (c : Console) (component property : Text) (value : Value) :
    Except Refusal Console := do
  if c.trace then
    return c.printLine ("[" ++ component ++ "." ++ property ++ "] " ++ (← value.literal))
  else return c

/-- The terminal's reply to a request. -/
def receive : (request : Request) → Console → Reception Console request
  | .propertyChanged component property value, c =>
    match c.showChange component property value with
    | .ok c => .answered c [] (.ok ())
    | .error refusal => .answered c [] (.error (.refused refusal))
  | .consoleLine text, c => .answered (c.printLine text) [] (.ok ())
  | .consoleText text, c => .answered (c.print text) [] (.ok ())
  | .errorReport message line, c => .answered (c.errorLine (diagnosis message line)) [] (.ok ())
  | .messageBox text, c => .answered (c.printLine ("[MessageBox] " ++ text)) [] (.ok ())
  | .inputBox prompt title initial, c =>
    replyLine (c.print (promptText prompt title)) (typed initial)
  | .readLine, c => replyLine c fun line => Value.text line
  | .readKey, c => replyLine c fun line => Value.text (Text.ofList (line.toList.take 1))
  | .saveText name content extension, c =>
    let (disk, result) := c.disk.writeText (c.filePath name extension) content
    .answered { c with disk } [] (result.mapError fun trouble => .trouble trouble.message)
  | .loadText name extension, c => .answered c [] (c.fileText name extension)
  | .random, c =>
    let (x, random) := c.random.next
    .answered { c with random } [] (.ok x)
  | .connect _, c => .answered { c with nextLink := c.nextLink + 1 } [] (.ok (.ok c.nextLink))
  | .execute _ _ _, c => .answered c [] (.ok (.ok {}))
  | .commit _, c => .answered c [] (.ok ())
  | .disconnect _, c => .answered c [] (.ok ())

/-- The terminal as a host. -/
def host : Host Console where
  receive := receive

end Console

end FormBasic
