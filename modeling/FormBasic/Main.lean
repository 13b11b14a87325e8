import FormBasic.Terminal.Program

/-!
# The program

The command-line tool on a real terminal. The files that a command may touch are read beforehand and
those that it changed are written afterwards. A run that asks for more input than there is yet is
begun anew with one line more, so that prompts appear before their answers are typed.

## Main definitions

* `main` - the program
-/

namespace FormBasic.Terminal

/-- A text as far as a terminal or a file system can show it. -/
def shownText (t : Text) : String := String.ofList t.shown

/-- The plain files of a directory, with the parts of the directory's path in front. -/
def filesIn (directory : Path) : IO (List DiskFile) := do
  let root ← IO.FS.realPath (shownText directory.text)
  let mut files := []
  for entry in ← root.readDir do
    unless ← entry.path.isDir do
      try files := ⟨directory.parts.concat entry.fileName, ← IO.FS.readFile entry.path⟩ :: files
      catch _ => pure ()
  return files.reverse

/-- The file of a path, if it can be read. -/
def fileAt (path : Path) : IO (List DiskFile) := do
  try return [⟨path.parts, ← IO.FS.readFile (shownText path.text)⟩]
  catch _ => return []

/-- The files that a command may touch. -/
def filesFor : Command → IO (List DiskFile)
  | .run options => do
    let declared ← match options.components with
      | some path => fileAt path
      | none => pure []
    let own ← try filesIn options.filesDirectory catch _ => pure []
    return (← fileAt options.file) ++ declared ++ own
  | command => fileAt command.file

/-- Writes the files that a command changed. -/
def writeChanges (before after : Disk) : IO Unit :=
  after.files.forM fun f =>
    if before.files.contains f then pure ()
    else IO.FS.writeFile (shownText (Text.joined "/" f.parts)) f.content

/-- How many steps of a session are taken at most. -/
def sessionFuel : Nat := Nat.pow 10 12

/-- Carries out a command line with the input known so far, shows what was not shown yet, and begins
anew with another line when the input runs out. -/
partial def interact (lookup : String → Option Text) (words : List Text) (disk : Disk)
    (input : Text) (shown : Nat × Nat) : IO UInt32 := do
  let start : Console := { input := input.toList, disk }
  let (c, result) := invoke sessionFuel lookup words start
  let output := c.output.shown
  let errors := c.errors.shown
  IO.print (String.ofList (output.drop shown.1))
  IO.eprint (String.ofList (errors.drop shown.2))
  (← IO.getStdout).flush
  let finish (code : UInt32) : IO UInt32 := do
    writeChanges disk c.disk
    return code
  match result with
  | .ok code => finish code.toUInt32
  | .error .inputExhausted =>
    let line ← (← IO.getStdin).getLine
    if line.isEmpty then finish 1
    else interact lookup words disk (input ++ line) (output.length, errors.length)
  | .error _ => finish 1

end FormBasic.Terminal

/-- The program. -/
def main (arguments : List String) : IO UInt32 := do
  let iterations ← IO.getEnv FormBasic.iterationsVariable
  let form ← IO.getEnv FormBasic.formNameVariable
  let lookup (name : String) : Option FormBasic.Text :=
    if name = FormBasic.iterationsVariable then iterations.map .ofString
    else if name = FormBasic.formNameVariable then form.map .ofString
    else none
  let words := arguments.map FormBasic.Text.ofString
  let files ← match FormBasic.Terminal.Command.ofWords words with
    | .ok command => FormBasic.Terminal.filesFor command
    | .error _ => pure []
  FormBasic.Terminal.interact lookup words ⟨files⟩ "" (0, 0)
