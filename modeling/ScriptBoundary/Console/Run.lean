import ScriptBoundary.Console.Line
import ScriptBoundary.Console.Shell
import ScriptBoundary.Text.Parts

/-!
Whole runs of the shell: over the lines of a script, and over the lines of an input.
-/

namespace ScriptBoundary.Shell

/-- What a run leaves behind. -/
structure Outcome where
  exitCode : Nat
  stdout : String
  stderr : String

namespace Outcome

def success (stdout : String) : Outcome := ⟨0, stdout, ""⟩

def failure (message : String) : Outcome := ⟨1, "", "Error: " ++ message ++ "\n"⟩

/-- A run that broke down. -/
def crash (message : String) : Outcome := ⟨101, "", message ++ "\n"⟩

/-- The outcome of a run that has already printed something. -/
def after (printed : String) (outcome : Outcome) : Outcome :=
  { outcome with stdout := printed ++ outcome.stdout }

end Outcome

/-- What there is under the name of a script. -/
inductive Source where
  | missing
  | unreadable (reason : String)
  | bytes (content : ByteArray)

def invalidText : String := "stream did not contain valid UTF-8"

def Source.text : Source → Except String String
  | .missing => .error "No such file or directory (os error 2)"
  | .unreadable reason => .error reason
  | .bytes content =>
    match String.fromUTF8? content with
    | some text => .ok text
    | none => .error invalidText

/-- The commands of a script, without blanks around them. Empty lines are none, and neither are
comments. -/
def commands (script : List Char) : List (List Char) :=
  ((Text.parts '\n' script).map Text.trim).filter fun line => !line.isEmpty && line.head? != some '#'

def runCommands : List (List Char) → ShellM String
  | [] => return ""
  | line :: rest => do
    let reply ← execute line
    if reply.ends then return reply.text
    return reply.text ++ (← runCommands rest)

/-- The script is read before the settings. -/
def runScript (environment : String → Variable) (name : String) (source : Source) :
    Outcome :=
  match source.text with
  | .error reason => .failure ("reading " ++ name ++ ": " ++ reason)
  | .ok script =>
    match Settings.ofEnvironment environment with
    | .error e => .failure e.message
    | .ok settings =>
      .success ((runCommands (commands script.toList) <* shutDown).run (start settings)).1

def banner : String := "hbridge 0.1.0\nType \x60help\x60 for commands, Ctrl+D to exit.\n\n"

/-- Runs a line of input. An empty one does nothing. -/
def answer (line : List Char) : ShellM Reply := do
  let line := Text.trim line
  if line.isEmpty then return ⟨[], false⟩
  execute line

/-- The line of input in some bytes, after its backspaces; else how the run ends. -/
def inputLine (bytes : ByteArray) : Except Outcome (List Char) :=
  match String.fromUTF8? bytes with
  | none => .error (.failure invalidText)
  | some text =>
    match typed? text.toList with
    | none => .error (.crash "a character was cut")
    | some line => .ok line

/-- Runs lines of input up to the first one that ends the session or cannot be read. The end of the
input ends the prompt with a line feed. -/
def runInput : List (List UInt8) → ShellM Outcome
  | [] => return .success "\n"
  | bytes :: rest => do
    match inputLine ⟨bytes.toArray⟩ with
    | .error outcome => return outcome
    | .ok line =>
      let reply ← answer line
      if reply.ends then return .success reply.text
      return (← runInput rest).after reply.text

/-- A session on the whole of an input. -/
def runPrompt (environment : String → Variable) (input : ByteArray) : Outcome :=
  Outcome.after banner <|
    match Settings.ofEnvironment environment with
    | .error e => .failure e.message
    | .ok settings =>
      ((runInput (Text.parts 10 input.toList) <* shutDown).run (start settings)).1

end ScriptBoundary.Shell
