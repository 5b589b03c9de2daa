import ScriptBoundary.Session.State

/-!
Steps that enter the host through the boundary, on its own thread.
-/

namespace ScriptBoundary.Session

inductive EntryStep where
  | globalObject (saveAs : Option String)
  | elementObject (saveAs : Option String)
  | invoke (target : Target) (id : IdLiteral) (args : List RawLiteral) (saveAs : Option String)
  | invokeDefault (target : Target) (args : List RawLiteral) (saveAs : Option String)
  | evaluate (target : Target) (script : String) (saveAs : Option String)
  | getProperty (target : Target) (id : IdLiteral) (saveAs : Option String)
  | setProperty (target : Target) (id : IdLiteral) (value : RawLiteral)
  | propertyIds (target : Target)
  /-- Everything about a host identifier. -/
  | describeId (id : IdLiteral)
  /-- The number of the host identifier of an engine identifier. -/
  | idNumber (id : Identifier)
  | raise (message : String)
  /-- Enters the host thread from the host thread. -/
  | nestedEntry
  /-- Enters the host from another thread, which may have a name. -/
  | offThread (entry : String) (thread : Option String)

namespace EntryStep

/-- Answers a host value; its reference stays with the user of the session. -/
def answerRaw (saveAs : Option String) (value : Option Raw) : SessionM Answer := do
  match value with
  | some (.object h) => saveHandle saveAs h
  | _ => pure ()
  return .option .raw value

def answerHandle (saveAs : Option String) (h : Option Handle) : SessionM Answer := do
  match h with
  | some h => saveHandle saveAs h
  | none => pure ()
  return .option .handle h

/-- The entry points that any thread may use. -/
def anyThread (entry : String) : Bool :=
  ["designated_thread", "dispatch", "retain", "release"].contains entry

/-- The complaint of an entry point that was called from the wrong thread. -/
def offThreadText (entry : String) (thread : Option String) : String :=
  entry ++ " called off the designated thread (on " ++
    thread.elim "None" (fun name => "Some(" ++ Text.quoted name ++ ")") ++ ")"

/-- What an entry from another thread does, on the global object. -/
def enterOffThread (entry : String) (thread : Option String) : CodeM Unit := do
  if !anyThread entry then throw (.panic (offThreadText entry thread))
  if entry = "retain" then Run.retainAll [Host.global]
  if entry = "release" then Run.releaseAll [Host.global]

def describe (id : HostId) (names : Names) : Answer :=
  .fields [
    ("raw", .text (String.ofList (Text.naturalText id.number))),
    ("is_string", .flag id.isName),
    ("name", .option .text (names.text? id)),
    ("int", .number id.toInt32.toInt),
    ("engine", .identifier (names.identifier id))]

def perform : EntryStep → SessionM Answer
  | .globalObject saveAs => inThread (Run.onHost Host.globalObject) (answerHandle saveAs)
  | .elementObject saveAs => inThread (Run.onHost Host.elementObject) (answerHandle saveAs)
  | .invoke target id args saveAs => do
    let session ← get
    let call : CodeM (Option Raw) := do
      let id ← Run.onHost (hostId id)
      Run.invoke standard (session.target target) id (args.map session.raw)
    inThread call (answerRaw saveAs)
  | .invokeDefault target args saveAs => do
    let session ← get
    inThread (Run.invokeDefault standard (session.target target) (args.map session.raw))
      (answerRaw saveAs)
  | .evaluate target script saveAs => do
    inThread (Run.onHost (Host.evaluate ((← get).target target) script)) (answerRaw saveAs)
  | .getProperty target id saveAs => do
    let session ← get
    inThread (Run.onHost do Host.getProperty (session.target target) (← hostId id))
      (answerRaw saveAs)
  | .setProperty target id value => do
    let session ← get
    inThread (Run.onHost do
      Host.setProperty (session.target target) (← hostId id) (session.raw value))
      fun written => return .flag written
  | .propertyIds target => do
    inThread (Run.onHost (Host.propertyIds ((← get).target target))) fun ids => do
      let names := (← heap).names
      return .option (fun ids => .list (ids.map (.hostId names))) ids
  | .describeId id =>
    inThread (Run.onHost (hostId id)) fun id => return describe id (← heap).names
  | .idNumber id =>
    inThread (Run.onHost (Host.idOf id)) fun id =>
      return .text (String.ofList (Text.naturalText id.number))
  | .raise message => inThread (Run.onHost (Host.raise message)) fun _ => return .nothing
  | .nestedEntry => inThread (return true) fun here => return .flag here
  | .offThread entry thread => inThread (enterOffThread entry thread) fun _ => return .text "ok"

end EntryStep

end ScriptBoundary.Session
