import FormBasic.Library.Calculator
import FormBasic.Library.Functions
import FormBasic.Script.Database

/-!
# Calls

What a call does once its arguments are known. A name may stand for a component, a static class, a
handler, a function or a variable, and the order in which these are tried is part of the language.

## Main definitions

* `World.component?`, `World.staticClass?` - what an object expression refers to
* `Script.callClass` - methods of the static classes
* `Script.callList?` - methods of a component's list
* `Script.callComponent` - methods of a component
* `Script.callNamed` - calls by name
* `Script.readMember`, `Script.callMember` - members of any other value
-/

namespace FormBasic

-- ════════════════════════════════════════════════════════════════════════════
-- References
-- ════════════════════════════════════════════════════════════════════════════

/-- The name by which scripts refer to the form. -/
def selfName : Text := "Me"

/-- The static classes, in lower case. -/
def staticClasses : List String :=
  ["messagebox", "console", "file", "math", "convert", "environment",
   "integer", "long", "double", "single", "string"]

namespace World

/-- Whether a variable holds a data access object. -/
def holdsObject (w : World) (name : Text) : Bool :=
  match w.globals.get? name with
  | some value => value.isObject
  | none => false

/-- The form's own component. -/
def form? (w : World) : Option Text :=
  match w.formName with
  | some form => if !form.isEmpty && w.hasComponent form then some form else none
  | none => none

/-- The component that an object expression refers to: the form, a component by its name unless a
variable of that name holds a data access object, or a component of the form. -/
def component? (w : World) : Expr → Option Text
  | .ident name =>
    if name = selfName then w.form?
    else if w.holdsObject name then none
    else if w.hasComponent name then some name
    else none
  | .member (.ident owner) name =>
    if owner = selfName ∧ w.hasComponent name then some name else none
  | _ => none

/-- The static class that an object expression refers to; variables and components come first. -/
def staticClass? (w : World) : Expr → Option String
  | .ident name =>
    if w.globals.contains name || w.hasComponent name then none
    else if staticClasses.contains (Text.word name) then some (Text.word name)
    else none
  | _ => none

/-- The value of a name: the form, a variable, a component, a constant, or else the name itself. -/
def identifier (w : World) (name : Text) : Value :=
  if name = selfName then .text selfName
  else
    match w.globals.get? name with
    | some value => value
    | none =>
      if w.hasComponent name then .text name
      else (Library.constant? (Text.word name)).getD (.text name)

/-- A property of a component, as scripts read it. -/
def property (w : World) (component name : Text) : Except Fault Value :=
  match w.componentNamed? component with
  | some c => c.property name
  | none => .ok .nothing

/-- The handler that a name refers to: an exact match, or the first one up to letter case. -/
def handlerKey? (w : World) (name : Text) : Option Text :=
  if w.handlers.contains name then some name
  else w.handlers.keys.find? fun key => Text.lower key = Text.lower name

end World

namespace Script

-- ════════════════════════════════════════════════════════════════════════════
-- Static classes
-- ════════════════════════════════════════════════════════════════════════════

/-- Stops the session. -/
def stop : Script Unit := update fun w => w.signal .stop

/-- Shows a message box. -/
def messageBox (text : Value) : Script Value := do
  ask (.messageBox (← display text))
  return .nothing

/-- The display texts of several values in a row. -/
def displayAll (args : List Value) : Script Text := do
  let texts ← compute (args.mapM Value.display)
  return Text.concat texts

/-- The display text of an argument, or a default if it is missing. -/
def displayArg (args : List Value) (position : Nat) (default : Text) : Script Text :=
  match args[position]? with
  | some value => display value
  | none => pure default

/-- Calls a method of the console; none if it has no such method. -/
def callConsole? (method : String) (args : List Value) : Option (Script Value) :=
  match method with
  | "writeline" => some do
    let text ← displayAll args
    update fun w => w.writeLine text
    ask (.consoleLine text)
    return .nothing
  | "write" => some do
    ask (.consoleText (← displayAll args))
    return .nothing
  | "readline" => some do
    let reply : Value ← ask .readLine
    return .text (← display reply)
  | "readkey" => some do
    let reply : Value ← ask .readKey
    return .text (← display reply)
  | "clear" => some do
    update World.clearConsole
    return .nothing
  | _ => none

/-- The text of a file. -/
def loadText (name extension : Text) : Script Text := do
  let reply : Value ← ask (.loadText name extension)
  display reply

/-- Calls a method of the files. -/
def callFile (method : String) (args : List Value) : Script Value := do
  let name ← display (Library.arg args 0 .nothing)
  let fallback := (← world).config.fileExtension
  match method with
  | "writealltext" =>
    let content ← display (Library.arg args 1 .nothing)
    let extension ← displayArg args 2 fallback
    ask (.saveText name content extension)
    return .nothing
  | "appendalltext" =>
    let content ← display (Library.arg args 1 .nothing)
    let extension ← displayArg args 2 fallback
    let existing ← loadText name extension
    ask (.saveText name (existing ++ content) extension)
    return .nothing
  | "readalltext" =>
    let extension ← displayArg args 1 fallback
    return .text (← loadText name extension)
  | _ => return .nothing

/-- Calls a method of a static class; a method that it does not have gives nothing. -/
def callClass (line : Line) (className method : String) (args : List Value) : Script Value :=
  let pureCall (what : String) (f : Option Library.Function) : Script Value :=
    match f with
    | some f => guarded (what ++ "." ++ method) line (f args)
    | none => pure .nothing
  match className with
  | "messagebox" =>
    if method = "show" then messageBox (Library.arg args 0 .nothing) else pure .nothing
  | "console" => (callConsole? method args).getD (pure .nothing)
  | "file" => callFile method args
  | "math" => pureCall "Math" (Library.mathFunction? method)
  | "convert" => pureCall "Convert" (Library.convertFunction? method)
  | _ => pureCall className (Library.typeFunction? className method)

-- ════════════════════════════════════════════════════════════════════════════
-- Components
-- ════════════════════════════════════════════════════════════════════════════

/-- The position of the first item that equals a value. -/
def position? (value : Value) (items : List Value) : Option Nat :=
  items.findIdx? fun item => item.looselyEqual value

/-- The list with an item inserted; a position outside the list means its nearest end, and a
negative one counts from the end. -/
def insertAt (items : List Value) (position : Int) (item : Value) : List Value :=
  let place := Text.clampBound items.length position
  items.take place ++ item :: items.drop place

/-- The items after a method that changes them, with the method's value; none if the list stays as
it is. -/
inductive ListChange where
  | unknown
  | unchanged (value : Value)
  | changed (items : List Value) (value : Value)

/-- What a method does to a list of items. -/
def changeList (method : String) (items : List Value) (args : List Value) :
    Except Refusal ListChange := do
  let value := Library.arg args 0 .nothing
  match method with
  | "contains" => return .unchanged (.bool (position? value items).isSome)
  | "indexof" =>
    match position? value items with
    | some i => return .unchanged (.int i)
    | none => return .unchanged (.int (-1))
  | "add" => return .changed (items ++ [.text (← value.display)]) (.int items.length)
  | "insert" =>
    let position ← value.toPosition
    let item ← (Library.arg args 1 .nothing).display
    if position < -Library.limit64 ∨ Library.limit64 ≤ position then .error .positionTooLarge
    else return .changed (insertAt items position (.text item)) .nothing
  | "remove" =>
    match position? value items with
    | some i => return .changed (items.eraseIdx i) .nothing
    | none => return .unchanged .nothing
  | "removeat" =>
    let position ← value.toPosition
    if 0 ≤ position ∧ position < items.length then
      return .changed (items.eraseIdx position.toNat) .nothing
    else return .unchanged .nothing
  | "clear" => return .changed [] .nothing
  | _ => return .unknown

/-- The list that a property of a component holds; the items of a component count as an empty list
when they are no list. -/
def listProperty? (w : World) (component key : Text) : Option (List Value) :=
  match (w.componentNamed? component).bind fun c => (c.stored? key).bind Value.items? with
  | some items => some items
  | none => if key = "items" then some [] else none

/-- Calls a method of a list property; none if the property is no list or lists have no such
method. -/
def callList? (component property : Text) (method : String) (args : List Value) :
    Script (Option Value) := do
  let key := canonicalProperty property
  match listProperty? (← world) component key with
  | none => return none
  | some items =>
    match ← compute (changeList method items args) with
    | .unknown => return none
    | .unchanged value => return some value
    | .changed items value =>
      discard (setProperty component key (.list items))
      return some value

/-- Calls a method of a component; every other name reads a property. -/
def callComponent (component name : Text) (args : List Value) : Script Value := do
  let set (property : Text) (value : Value) : Script Value := do
    discard (setProperty component property value)
    return .nothing
  let w ← world
  let stored (property : Text) : Value :=
    ((w.componentNamed? component).bind fun c => c.stored? property).getD .nothing
  match Text.word name with
  | "clear" =>
    match stored "items" with
    | .list _ => set "items" (.list [])
    | _ => set "text" (.text "")
  | "focus" => return .nothing
  | "show" => set "visible" (.bool true)
  | "hide" => set "visible" (.bool false)
  | "start" => set "enabled" (.bool true)
  | "stop" => set "enabled" (.bool false)
  | "appendtext" =>
    let old ← display (stored "text")
    let new ← display (Library.arg args 0 .nothing)
    set "text" (.text (old ++ new))
  | "close" =>
    if w.formName = some component then stop
    return .nothing
  | "performclick" =>
    discard (call (component ++ "_Click"))
    return .nothing
  | _ => indexed (← lift (w.property component name)) args

-- ════════════════════════════════════════════════════════════════════════════
-- Names and members
-- ════════════════════════════════════════════════════════════════════════════

/-- Shows an input box for the text that is typed. -/
def inputBox (args : List Value) : Script Value := do
  let prompt ← display (Library.arg args 0 .nothing)
  let title ← args[1]?.mapM display
  let initial ← args[2]?.mapM display
  let reply : Value ← ask (.inputBox prompt title initial)
  return .text (← display reply)

/-- Evaluates an arithmetic expression given as text; a diagnosis is reported, and the value is then
zero. -/
def calculate (line : Line) (args : List Value) : Script Value :=
  match Library.evaluateText (Library.arg args 0 (.text "")) with
  | .ok value => pure value
  | .error (.script error) => do
    report error.message line
    return .int 0
  | .error fault => throw fault

/-- Calls a handler or indexes a variable. -/
def callOwn (name : Text) (args : List Value) : Script Value := do
  let w ← world
  match w.handlerKey? name with
  | some key =>
    discard (call key)
    return .nothing
  | none =>
    match w.globals.get? name with
    | some value => indexed value args
    | none => return .nothing

/-- Calls something by name: a constructor, a box, the calculator, a function, a handler, or a
variable as a container. -/
def callNamed (line : Line) (name : Text) (args : List Value) : Script Value :=
  let lowered := Text.word name
  match construct? lowered args with
  | some script => script
  | none =>
    match lowered with
    | "msgbox" => messageBox (Library.arg args 0 .nothing)
    | "inputbox" => inputBox args
    | "evaluateexpression" => calculate line args
    | "rnd" => do
      let x : Float ← ask .random
      return .float x
    | _ =>
      match Library.function? lowered with
      | some f => guarded name line (f args)
      | none => callOwn name args

/-- The entry of a dictionary under a name, exact or up to letter case. -/
def entryNamed (entries : Entries Value) (name : Text) : Value :=
  match entries.get? (.text name) with
  | some value => value
  | none =>
    match entries.find? fun e =>
        match e.1 with
        | .text key => Text.lower key = Text.lower name
        | _ => false with
    | some e => e.2
    | none => .nothing

/-- Reads a member of a value. -/
def readMember (owner : Value) (name : Text) : Script Value :=
  match owner with
  | .object h => member h name
  | .text s =>
    if Library.textProperties.contains (Text.word name) then
      compute (Library.callMethod s name [])
    else pure .nothing
  | .list items =>
    if Text.word name = "count" ∨ Text.word name = "length" then pure (.int items.length)
    else pure .nothing
  | .dict entries => pure (entryNamed entries name)
  | _ => pure .nothing

/-- Calls a method of a value. -/
def callMember (owner : Value) (name : Text) (args : List Value) : Script Value :=
  match owner with
  | .object h => invoke h name args
  | .text s => compute (Library.callMethod s name args)
  | .list items => pure (if Text.word name = "count" then .int items.length else .nothing)
  | _ => pure .nothing

end Script

end FormBasic
