import FormBasic.Number.Decimal

/-!
# Settings

What a session can be told from outside: how often a loop may run, the extension of files that are
named without one, and the name of the form. The environment overrides the defaults.

## Main definitions

* `Config` - the settings
* `Config.ofEnvironment` - the settings under given environment variables
-/

namespace FormBasic

/-- The settings of a session. -/
structure Config where
  /-- How often the body of a loop may run. -/
  maxIterations : Int := 100000
  fileExtension : Text := "txt"
  formName : Text := "Form1"
  deriving Repr, DecidableEq

/-- A setting that should be an integer and is not. -/
structure BadSetting where
  name : String
  text : Text
  deriving Repr, DecidableEq

/-- The wording of a bad setting. -/
def BadSetting.message (e : BadSetting) : Text :=
  e.name ++ " must be an integer, got " ++ Text.quoted e.text

/-- The environment variable for the number of iterations. -/
def iterationsVariable : String := "FORMSCRIPT_MAX_LOOP_ITERATIONS"

/-- The environment variable for the name of the form. -/
def formNameVariable : String := "FORMSCRIPT_FORM_NAME"

/-- The settings under given environment variables; an empty variable counts as missing. -/
def Config.ofEnvironment (lookup : String → Option Text) : Except BadSetting Config := do
  let config : Config := {}
  let config ← match lookup iterationsVariable with
    | none | some "" => pure config
    | some text =>
      match Number.readInteger text with
      | .ok n => pure { config with maxIterations := n }
      | .error _ => .error ⟨iterationsVariable, text⟩
  match lookup formNameVariable with
  | none | some "" => return config
  | some name => return { config with formName := name }

end FormBasic
