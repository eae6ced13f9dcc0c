import EndpointAtlas.Command.Run

/-!
# The program

`main` reads the file that the arguments name, runs the call, writes the file of the report and
prints the rest. It has no network, so that an address is never reached.
-/

namespace EndpointAtlas

namespace Program

/-- How the program is called. -/
def usageLines : List String :=
  ["Usage: endpoint-atlas [-v] endpoints SOURCE [-o FILE] [--only PATTERN] [--timeout SECONDS]",
    "       endpoint-atlas [-v] calls SOURCE [--only PATTERN] [--timeout SECONDS]",
    "       endpoint-atlas [-v] inline SOURCE NAME [--timeout SECONDS]",
    "       endpoint-atlas [-v] example SOURCE NAME [--timeout SECONDS]"]

/-- The cause of an error of the system, if it is one that calls tell apart. -/
def cause? : IO.Error → Option FileError.Cause
  | .noFileOrDirectory .. => some .notFound
  | .alreadyExists .. => some .exists
  | .inappropriateType _ code _ => some (if code = 20 then .notADirectory else .isADirectory)
  | _ => none

/-- The outcome of some work with the file at a path. -/
def attempt {α : Type} (path : FilePath) (work : IO α) : IO (Except FileError α) := do
  match ← work.toBaseIO with
  | .ok a => return .ok a
  | .error e =>
    match cause? e with
    | some cause => return .error ⟨cause, path.text⟩
    | none => throw e

/-- The content of the file at a path. -/
def readFile (path : FilePath) : IO (Except FileError (List UInt8)) :=
  attempt path do return (← IO.FS.readBinFile path.text).toList

/-- Writes a file, and makes the directories on its path. -/
def writeFile (path : FilePath) (text : String) : IO (Except FileError Unit) := do
  match ← attempt path.parent (IO.FS.createDirAll path.parent.text) with
  | .ok _ => attempt path (IO.FS.writeFile path.text text)
  | .error e => return .error e

/-- What can be reached when the file of a source has some content. -/
def surroundings (content : Except FileError (List UInt8)) : Surroundings where
  read _ := content
  write? _ := none
  fetch _ := .failed "no network"

/-- The report of a call, with its file written if that is possible. -/
def perform (i : Invocation) : IO Report := do
  let path := FilePath.ofText i.source
  let content ←
    if Document.isUrl i.source || !path.isUsable then pure (.ok []) else readFile path
  let s := surroundings content
  let report := i.run s
  match report.file with
  | none => return report
  | some (path, text) =>
    match ← writeFile path text with
    | .ok _ => return report
    | .error e => return i.run { s with write? := fun _ => some e }

/-- The lines about an ending that has not been reported yet. -/
def closingLines : Ending → List String
  | .usage => usageLines
  | .aborted (.file e) => [e.message]
  | .aborted (.invalid e) => [e.message]
  | .aborted _ => ["The source holds a value that cannot be used."]
  | _ => []

end Program

end EndpointAtlas

open EndpointAtlas in
/-- Runs the call that the arguments describe. -/
def main (arguments : List String) : IO UInt32 := do
  let environment := match ← IO.getEnv Arguments.timeoutVariable with
    | some value => [(Arguments.timeoutVariable, value)]
    | none => []
  let report ← match Invocation.ofArguments? arguments environment with
    | some i => Program.perform i
    | none => pure ⟨"", [], none, none, .usage⟩
  IO.print report.output
  for line in report.messages ++ Program.closingLines report.ending do
    IO.eprintln line
  return UInt32.ofNat report.ending.exitCode
