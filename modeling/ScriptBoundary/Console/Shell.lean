import ScriptBoundary.Console.Command
import ScriptBoundary.Session.Behaviour

/-!
The shell: a gateway over a small host, driven by commands. A command prints lines; those printed by
host functions come before its own.
-/

namespace ScriptBoundary

open Session (HostCode EngineCode CodeM standard)

abbrev Shell := World HostCode EngineCode

abbrev ShellM := WorldM HostCode EngineCode

/-- What a command printed, and whether it was the last one. -/
structure Reply where
  lines : List String
  ends : Bool

namespace Reply

/-- Every line ends with a line feed. -/
def text (reply : Reply) : String := String.join (reply.lines.map (· ++ "\n"))

end Reply

namespace Shell

/-- An object that the expression `settings` evaluates to. -/
def defineSettings : HostM HostCode Unit := do
  let h ← Host.onHeap (Heap.alloc .plain)
  let _ ← Host.onHeap (Heap.put h "theme" (.string "dark"))
  Host.changeHeap (Heap.defineExpression "settings" (.object h))
  Host.releaseAll [h]

def methods : List (String × EngineCode) :=
  [("echo", .echo true), ("count", .count), ("relay", .relay)]

def withMethods (r : Registry EngineCode) : Registry EngineCode :=
  methods.foldl (fun r m => r.setMethod false (.ofText m.1) (.code m.2)) r

/-- Defines what commands can reach: two functions and an object of the host, and methods. A function
that tells the time, behind the expression `clock.now`, is left out, since no input determines its
answer. -/
def furnish (settings : Settings) : ShellM Unit := do
  WorldM.onHost do
    let _ ← Host.defineFunction "alert" .alert
    let _ ← Host.defineFunction "add" .add
    defineSettings
  WorldM.openGateway standard settings
  modify fun w => { w with gateway := w.gateway.map withMethods }

/-- A shell before its first command. -/
def start (settings : Settings) : Shell :=
  ((furnish settings).run (World.start (Host.start (some ("hbridge", "hbridge"))) false)).2

def help : String := "\n".intercalate [
  "commands:",
  "  call NAME(ARGS)     call a host function from a worker thread",
  "  invoke NAME(ARGS)   invoke a registered method as the host would",
  "  get NAME            read a property",
  "  set NAME = VALUE    write a property",
  "  del NAME            remove a property",
  "  ls                  list identifiers",
  "  quit                shut down and exit",
  "values: undefined, null, true, false, integers, decimals, \"strings\""]

/-- Does something with the gateway on the host thread. Nothing comes of it if the thread is dead or
the code panics. -/
def onGateway (body : Registry EngineCode → CodeM String) : ShellM String := do
  let w ← get
  match w.gateway, w.hostGone with
  | some r, false =>
    match ← (body r).run with
    | .ok text => return text
    | .error _ => return "host thread is gone"
  | _, _ => return "host thread is gone"

/-- The text of a value, which is given up. -/
def displayed (value : Value) : ShellM String := do
  let text ← WorldM.display value
  WorldM.releaseAll value.handles
  return text

/-- A call from a thread of its own. -/
def call (name : String) (args : List Scalar) : ShellM String := do
  let bridge := (← get).current
  match ← WorldM.callFromWorker standard bridge (.ofText name) (args.map .scalar) with
  | some value => displayed value
  | none => return "call to " ++ name ++ " failed"

/-- Invokes a method as the host does, with values in host form. -/
def invoke (name : String) (args : List Scalar) (r : Registry EngineCode) : CodeM String := do
  let id ← Run.onHost (Host.intern name)
  let (handled, result) ← Gateway.invoke standard id (args.map .scalar) r
  let suffix := " (handled: " ++ Scalar.booleanText handled ++ ")"
  match result with
  | none => return "no result" ++ suffix
  | some raw =>
    let value ← Run.onHost (Marshal.read raw)
    Run.releaseAll raw.handles
    return (← Run.always (displayed value)) ++ suffix

def getProperty (name : String) (r : Registry EngineCode) : ShellM String := do
  match ← r.copyProperty (.ofText name) with
  | some value => displayed value
  | none => return name ++ " is not defined"

def setProperty (name : String) (value : Scalar) (r : Registry EngineCode) : ShellM String := do
  if ← WorldM.changeGateway (Registry.bindProperty (.ofText name) (.scalar value)) r then return ""
  return "session is shutting down"

/-- The name goes through a host identifier, which is never read as an integer. -/
def deleteProperty (name : String) (r : Registry EngineCode) : ShellM String := do
  let id ← WorldM.onHost (Host.intern name)
  return Scalar.booleanText (← WorldM.changeGateway (Gateway.removeProperty id) r)

/-- What a command prints at its end; `none` if it ends the session. -/
def perform : Command → ShellM (Option String)
  | .call name args => some <$> call name args
  | .invoke name args => some <$> onGateway (invoke name args)
  | .get name => some <$> onGateway fun r => Run.always (getProperty name r)
  | .set name value => some <$> onGateway fun r => Run.always (setProperty name value r)
  | .delete name => some <$> onGateway fun r => Run.always (deleteProperty name r)
  | .list => some <$> onGateway fun r =>
    return " ".intercalate (r.identifiers.map Identifier.display)
  | .help => return some help
  | .quit => return none

/-- The lines that host functions have printed since they were last taken. -/
def takePrinted : ShellM (List String) := do
  let lines := (← get).printed
  modify fun w => { w with printed := [] }
  return lines

/-- Runs the command on a line. An empty output is not printed. -/
def execute (line : List Char) : ShellM Reply := do
  match Command.parse? line with
  | none => return ⟨["unrecognized command: " ++ String.ofList line], false⟩
  | some command =>
    let output ← perform command
    let printed ← takePrinted
    return ⟨printed ++ output.toList.filter (!·.isEmpty), output.isNone⟩

/-- The end of a session. -/
def shutDown : ShellM Unit := do
  let _ ← onGateway fun r => do
    Run.always (WorldM.destroyBridge r.bridge)
    return ""

end Shell

end ScriptBoundary
