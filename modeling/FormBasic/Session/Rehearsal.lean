import FormBasic.Number.Random
import FormBasic.Session.Host

/-!
# Rehearsals

A host that plays a prepared part, to try out scripts without a screen: it writes down everything it
is asked, replies from lists given beforehand, and acts on cues, for instance by stopping the
session when a certain message appears. Its database engine replies from a list too.

## Main definitions

* `Cue` - what the host does when something certain happens
* `Rehearsal` - the host's state: what it still has to say, and what it has noted
* `Rehearsal.host` - the host
* `Rehearsal.silentHost` - the host that replies with nothing and notes only database requests
-/

namespace FormBasic

-- ════════════════════════════════════════════════════════════════════════════
-- Cues
-- ════════════════════════════════════════════════════════════════════════════

/-- What a cue makes the host do. -/
inductive CueAction where
  | send (signal : Signal)
  /-- The host reports that it failed. -/
  | fail
  /-- The host breaks down. -/
  | breakDown
  /-- The box stays open for some seconds. -/
  | delay (seconds : Rat)
  /-- An event is raised while the box is open. -/
  | event (key : Text)
  deriving DecidableEq

/-- The requests that cues can wait for. -/
inductive Occasion where
  | property | consoleLine | consoleText | error | messageBox | inputBox
  deriving Repr, DecidableEq

/-- What the host does when a request of some sort comes with a certain text. -/
structure Cue where
  occasion : Occasion
  text : Text
  action : CueAction
  deriving DecidableEq

/-- The sort and the text by which cues recognise a request. -/
def Request.occasion? : Request → Option (Occasion × Text)
  | .propertyChanged component property _ => some (.property, component ++ "." ++ property)
  | .consoleLine text => some (.consoleLine, text)
  | .consoleText text => some (.consoleText, text)
  | .errorReport message _ => some (.error, message)
  | .messageBox text => some (.messageBox, text)
  | .inputBox prompt _ _ => some (.inputBox, prompt)
  | _ => none

/-- Whether a cue is for a request. -/
def Cue.isFor (cue : Cue) (request : Request) : Bool :=
  request.occasion? == some (cue.occasion, cue.text)

/-- Whether the request keeps a box open. -/
def Request.isBox : Request → Bool
  | .messageBox _ | .inputBox _ _ _ => true
  | _ => false

-- ════════════════════════════════════════════════════════════════════════════
-- The host's state
-- ════════════════════════════════════════════════════════════════════════════

/-- What the host writes down. -/
inductive Note where
  | asked (request : Request)
  /-- A message box was closed. -/
  | closed (text : Text)

/-- A file of the host. -/
structure HostFile where
  name : Text
  extension : Text
  content : Value

/-- The state of a host that plays a prepared part. -/
structure Rehearsal where
  /-- What is typed into input boxes. -/
  inputs : List Value := []
  /-- The lines and keys typed at the console. -/
  lines : List Value := []
  keys : List Value := []
  files : List HostFile := []
  cues : List Cue := []
  /-- What the database engine answers to statements, in order. -/
  results : List (Except Text ResultSet) := []
  /-- The paths that cannot be opened, with the reason. -/
  badPaths : List (Text × Text) := []
  /-- The number of the next database. -/
  nextLink : Nat := 1
  random : Random := {}
  /-- What was written down so far. -/
  notes : Array Note := #[]

namespace Rehearsal

/-- Writes something down. -/
def note (s : Rehearsal) (n : Note) : Rehearsal := { s with notes := s.notes.push n }

/-- Stores a file, in the place of the one of that name if there is one. -/
def storeFile (files : List HostFile) (file : HostFile) : List HostFile :=
  match files with
  | [] => [file]
  | f :: rest =>
    if f.name = file.name ∧ f.extension = file.extension then file :: rest
    else f :: storeFile rest file

/-- The content of a file, empty if there is none of that name. -/
def fileContent (files : List HostFile) (name extension : Text) : Value :=
  match files.find? fun f => f.name = name ∧ f.extension = extension with
  | some f => f.content
  | none => .text ""

/-- The next of some prepared values, or a default, and the values that are left. -/
def takeNext (values : List Value) (default : Text) : Value × List Value :=
  match values with
  | [] => (.text default, [])
  | v :: rest => (v, rest)

/-- Opens a database, unless the path is a bad one. -/
def connect (s : Rehearsal) (path : Text) : Except Text Nat × Rehearsal :=
  match s.badPaths.lookup path with
  | some reason => (.error reason, s)
  | none => (.ok s.nextLink, { s with nextLink := s.nextLink + 1 })

/-- The next prepared result of a statement; without one the result is empty. -/
def nextResult (s : Rehearsal) : Except Text ResultSet × Rehearsal :=
  match s.results with
  | [] => (.ok {}, s)
  | result :: results => (result, { s with results })

/-- The reply to a request, after the cues for it. -/
def reply (s : Rehearsal) : (request : Request) → request.Reply × Rehearsal
  | .propertyChanged _ _ _ => ((), s)
  | .consoleLine _ => ((), s)
  | .consoleText _ => ((), s)
  | .errorReport _ _ => ((), s)
  | .messageBox text => ((), s.note (.closed text))
  | .inputBox _ _ initial =>
    let (value, inputs) := takeNext s.inputs (initial.getD "")
    (value, { s with inputs })
  | .readLine =>
    let (value, lines) := takeNext s.lines ""
    (value, { s with lines })
  | .readKey =>
    let (value, keys) := takeNext s.keys ""
    (value, { s with keys })
  | .saveText name content extension =>
    ((), { s with files := storeFile s.files { name, extension, content := .text content } })
  | .loadText name extension => (fileContent s.files name extension, s)
  | .random =>
    let (x, random) := s.random.next
    (x, { s with random })
  | .connect path => s.connect path
  | .execute _ _ _ => s.nextResult
  | .commit _ => ((), s)
  | .disconnect _ => ((), s)

-- ════════════════════════════════════════════════════════════════════════════
-- Hosts
-- ════════════════════════════════════════════════════════════════════════════

/-- Acts on the cues for a request, in order, and then replies. -/
def actOn (request : Request) : List Cue → List Signal → Rehearsal → Reception Rehearsal request
  | [], signals, s =>
    let (reply, s) := s.reply request
    .answered s signals (.ok reply)
  | cue :: cues, signals, s =>
    let release (event : Except Fault Unit) (s : Rehearsal) : Reception Rehearsal request :=
      match event with
      | .ok () => actOn request cues [] s
      | .error fault => .answered s [] (.error fault)
    match cue.action with
    | .send signal => actOn request cues (signals ++ [signal]) s
    | .fail => .answered s signals (.error (.runtime .hostFailure))
    | .breakDown => .answered s signals (.error .hostBreakdown)
    | .delay seconds =>
      if request.isBox then .held s signals (.delay seconds) release
      else actOn request cues signals s
    | .event key =>
      if request.isBox then
        .held { s with cues := s.cues.erase cue } signals (.event key) release
      else actOn request cues signals s

/-- Whether a request is written down. -/
def isNoted : Request → Bool
  | .random => false
  | _ => true

/-- The host that plays its part. -/
def host : Host Rehearsal where
  receive request s :=
    let cues := s.cues.filter fun cue => cue.isFor request
    actOn request cues [] (if isNoted request then s.note (.asked request) else s)

/-- The reply of a host that has nothing to say; databases work as usual. -/
def silentReply (s : Rehearsal) : (request : Request) → request.Reply × Rehearsal
  | .propertyChanged _ _ _ => ((), s)
  | .consoleLine _ => ((), s)
  | .consoleText _ => ((), s)
  | .errorReport _ _ => ((), s)
  | .messageBox _ => ((), s)
  | .inputBox _ _ _ => (.text "", s)
  | .readLine => (.text "", s)
  | .readKey => (.text "", s)
  | .saveText _ _ _ => ((), s)
  | .loadText _ _ => (.text "", s)
  | .random => s.reply .random
  | .connect path => (s.note (.asked (.connect path))).reply (.connect path)
  | .execute link sql parameters =>
    (s.note (.asked (.execute link sql parameters))).reply (.execute link sql parameters)
  | .commit link => (s.note (.asked (.commit link))).reply (.commit link)
  | .disconnect link => (s.note (.asked (.disconnect link))).reply (.disconnect link)

/-- The host that has nothing to say. -/
def silentHost : Host Rehearsal where
  receive request s :=
    let (reply, s) := s.silentReply request
    .answered s [] (.ok reply)

end Rehearsal

end FormBasic
