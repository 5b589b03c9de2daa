import ScriptBoundary.Console.Run

/-!
The command line. A first argument names a script to run; without one, commands are read from the
standard input.
-/

namespace ScriptBoundary.CommandLine

/-- The variables that settings are read from. -/
def environment : IO (String → Variable) := do
  let names := [Settings.exceptionsVariable, Settings.legacyVariable, Settings.versionVariable]
  let found ← names.mapM fun name => return (name, (← IO.getEnv name).elim .absent .text)
  return fun name => (found.lookup name).getD .absent

def systemError (code : UInt32) (details : String) : Shell.Source :=
  .unreadable (details ++ " (os error " ++ toString code ++ ")")

def readSource (name : String) : IO Shell.Source := do
  try
    return .bytes (← IO.FS.readBinFile name)
  catch
    | .noFileOrDirectory _ _ _ => return .missing
    | .permissionDenied _ code details => return systemError code details
    | .inappropriateType _ code details => return systemError code details
    | e => return .unreadable (toString e)

def report (outcome : Shell.Outcome) : IO UInt32 := do
  IO.print outcome.stdout
  IO.eprint outcome.stderr
  return outcome.exitCode.toUInt32

/-- Reads up to a line feed, which is dropped; `none` at the end of the input. -/
partial def readLine (input : IO.FS.Stream) (line : ByteArray) : IO (Option ByteArray) := do
  match (← input.read 1).toList with
  | [] => return if line.isEmpty then none else some line
  | byte :: _ => if byte = 10 then return some line else readLine input (line.push byte)

/-- Answers lines until a command or the end of the input ends the session. -/
partial def converse (input output : IO.FS.Stream) (shell : Shell) : IO UInt32 := do
  output.flush
  match ← readLine input .empty with
  | none => report (.success "\n")
  | some bytes =>
    match Shell.inputLine bytes with
    | .error outcome => report outcome
    | .ok line =>
      let (reply, shell) := (Shell.answer line).run shell
      output.putStr reply.text
      if reply.ends then return 0
      converse input output shell

def run (args : List String) : IO UInt32 := do
  let environment ← environment
  match args with
  | name :: _ =>
    let source ← readSource name
    report (Shell.runScript environment name source)
  | [] =>
    IO.print Shell.banner
    match Settings.ofEnvironment environment with
    | .error e => report (.failure e.message)
    | .ok settings => converse (← IO.getStdin) (← IO.getStdout) (Shell.start settings)

end ScriptBoundary.CommandLine

def main (args : List String) : IO UInt32 := ScriptBoundary.CommandLine.run args
