import ScriptBoundary.Text.Blank
import ScriptBoundary.Text.Quoted

/-!
Settings of a session: the defaults, overridden by environment variables.
-/

namespace ScriptBoundary

structure Settings where
  /-- Failed outbound calls are raised in the host as script exceptions. -/
  marshalExceptions : Bool
  /-- The verbs with fixed results are registered. -/
  legacyMethods : Bool
  /-- The value of the `$version` property. -/
  version : String
  /-- `id` and `name` are copied from the host's element object. -/
  exposeElementIds : Bool
deriving DecidableEq

/-- What the environment holds under one name. -/
inductive Variable where
  | absent
  | text (value : String)
  | notUnicode
deriving DecidableEq

inductive SettingsError where
  | invalidBoolean (name : String) (value : String)
  | notUnicode (name : String)
deriving DecidableEq

namespace SettingsError

def message : SettingsError → String
  | .invalidBoolean name value => name ++ ": expected a boolean, got " ++ Text.quoted value
  | .notUnicode name => name ++ ": value is not valid unicode"

end SettingsError

namespace Settings

def default : Settings where
  marshalExceptions := false
  legacyMethods := true
  version := "10,0,r0.1.0"
  exposeElementIds := true

def exceptionsVariable : String := "HOSTBRIDGE_MARSHAL_EXCEPTIONS"
def legacyVariable : String := "HOSTBRIDGE_LEGACY_METHODS"
def versionVariable : String := "HOSTBRIDGE_VERSION"

/-- Blanks around a boolean and the case of its ASCII letters do not matter. -/
def boolean? (text : String) : Option Bool :=
  let word := String.ofList ((Text.trim text.toList).map Char.toLower)
  if word = "1" || word = "true" || word = "yes" || word = "on" then some true
  else if word = "0" || word = "false" || word = "no" || word = "off" then some false
  else none

/-- The text under a name, `none` if it is absent. -/
def readText (environment : String → Variable) (name : String) :
    Except SettingsError (Option String) :=
  match environment name with
  | .absent => .ok none
  | .text value => .ok (some value)
  | .notUnicode => .error (.notUnicode name)

def readBoolean (environment : String → Variable) (name : String) (absent : Bool) :
    Except SettingsError Bool := do
  match ← readText environment name with
  | none => pure absent
  | some value =>
    match boolean? value with
    | some b => pure b
    | none => throw (.invalidBoolean name value)

/-- The first variable that cannot be read decides the error. -/
def ofEnvironment (environment : String → Variable) : Except SettingsError Settings := do
  let marshalExceptions ← readBoolean environment exceptionsVariable default.marshalExceptions
  let legacyMethods ← readBoolean environment legacyVariable default.legacyMethods
  let version ← readText environment versionVariable
  pure {
    marshalExceptions, legacyMethods
    version := version.getD default.version
    exposeElementIds := default.exposeElementIds }

end Settings

end ScriptBoundary
