import EndpointAtlas.Command.Arguments
import EndpointAtlas.Command.Selection
import EndpointAtlas.Document.Load
import EndpointAtlas.Document.Section
import EndpointAtlas.Json.Plain
import EndpointAtlas.Json.Writer
import EndpointAtlas.Schema.Inline

/-!
# Running a command

`Invocation.run` says what a call of the program prints, what it writes and how it ends. Faults of
the source are shown as errors, and so are those of the schema that is asked for; all others end the
program as they are.
-/

namespace EndpointAtlas

/-- How a call ends. -/
inductive Ending where
  | success
  /-- Some operations could not be described. -/
  | incomplete
  /-- The arguments describe no call. -/
  | usage
  /-- A fault that is shown as an error. -/
  | refused (fault : Fault)
  /-- A fault that ends the program. -/
  | aborted (fault : Fault)
  deriving DecidableEq, Repr

/-- The exit code of an ending. -/
def Ending.exitCode : Ending → Nat
  | .success => 0
  | .usage => 2
  | _ => 1

/-- What a call does: the text of its output, the lines of its log and its messages, the file that
it writes, the address that it fetches with the time to wait, and its ending. -/
structure Report where
  output : String
  messages : List String
  file : Option (FilePath × String)
  fetched : Option (String × Binary64)
  ending : Ending
  deriving Repr

namespace Report

/-- The messages as they are printed. -/
def messageText (r : Report) : String := String.join (r.messages.map (· ++ "\n"))

end Report

/-- The message of a fault that is shown as an error; none for one that ends the program. -/
def Fault.shown? : Fault → Option String
  | .schema e => some e.message
  | .document e => some e.message
  | .file e => some e.message
  | _ => none

namespace Failure

/-- The line of a failure in the report at the end. -/
def line (f : Failure) : String :=
  "  " ++ f.method ++ " " ++ f.path ++ " (" ++ f.operationId.getD "None" ++ "): " ++
    f.kind ++ ": " ++ f.error

/-- The report at the end. -/
def lines (failures : List Failure) : List String :=
  if failures.isEmpty then []
  else failures.map line ++ [toString failures.length ++ " operations could not be built."]

end Failure

namespace Invocation

/-- The log lines that are printed. -/
def visible (i : Invocation) (lines : List Log.Line) : List String :=
  (lines.filter fun l => i.verbose || l.level = .warning).map Log.Line.text

/-- The address that is fetched. -/
def fetched (i : Invocation) : Option (String × Binary64) :=
  if Document.isUrl i.source then some (i.source, i.timeout) else none

/-- What is reported when a fault ends the work, behind some output. -/
def stopped (i : Invocation) (log : List Log.Line) (output : String) (fault : Fault) : Report :=
  match fault.shown? with
  | some message =>
    ⟨output, i.visible log ++ ["Error: " ++ message], none, i.fetched, .refused fault⟩
  | none => ⟨output, i.visible log, none, i.fetched, .aborted fault⟩

/-- The ending of a call that went through with a table. -/
def endingOf (failures : List Failure) : Ending :=
  if failures.isEmpty then .success else .incomplete

/-- The document of the source as a table. -/
def table (i : Invocation) (s : Surroundings) : Logged Fault Table := do
  let doc ← Document.load s i.source
  match ← ExceptT.lift (Table.ofDocument doc []) with
  | (t, none) => return t
  | (_, some fault) => throw fault

/-- The endpoints of a table that are selected. -/
def selected (i : Invocation) (t : Table) : List Endpoint :=
  selectEndpoints i.patterns (t.endpoints.map Prod.snd)

/-- The JSON text of a value. A value without a JSON form is a fault. -/
def jsonText (write : Value → Except Json.Unwritable String) (v : Value) : Except Fault String :=
  match write v with
  | .ok s => .ok s
  | .error (.key k) => .error (.mistyped (.scalar k))
  | .error .endless => .error .endless

/-- The JSON text of endpoints by operation id. -/
def payload (endpoints : List Endpoint) : Except Fault String := do
  let members ← endpoints.mapM fun e => do
    return (Scalar.str e.operationId, ← Json.plain (.map e.toMembers))
  jsonText Json.indented (.map (Members.ofList members))

/-- Writes the table of endpoints to the output or to a file. -/
def runEndpoints (i : Invocation) (s : Surroundings) (file : Option String) : Report :=
  let built := i.table s
  match built.outcome with
  | .error fault => i.stopped built.lines "" fault
  | .ok t =>
    let endpoints := i.selected t
    match payload endpoints with
    | .error fault => i.stopped built.lines "" fault
    | .ok text =>
      let log := i.visible built.lines
      let failures := Failure.lines t.failures
      match file.map FilePath.ofText with
      | none => ⟨text ++ "\n", log ++ failures, none, i.fetched, endingOf t.failures⟩
      | some path =>
        if !path.isUsable then ⟨"", log, none, i.fetched, .aborted .unusablePath⟩
        else match s.write? path with
        | some e => ⟨"", log, none, i.fetched, .aborted (.file e)⟩
        | none =>
          let note := "Wrote " ++ toString endpoints.length ++ " endpoints to " ++ path.text
          ⟨"", log ++ note :: failures, some (path, text), i.fetched, endingOf t.failures⟩

/-- The line of an example call. -/
def callLine (e : Endpoint) (call : Members) : Except Fault String := do
  return e.label ++ " " ++ e.methodName ++ " " ++ (← jsonText Json.compact (.map call)) ++ "\n"

/-- Lines up to the first that cannot be written, and the fault that prevents it. -/
def writtenLines : List (Except Fault String) → String × Option Fault
  | [] => ("", none)
  | .ok line :: rest =>
    let (text, fault) := writtenLines rest
    (line ++ text, fault)
  | .error fault :: _ => ("", some fault)

/-- Writes the example calls of endpoints. -/
def runCalls (i : Invocation) (s : Surroundings) : Report :=
  let built := i.table s
  match built.outcome with
  | .error fault => i.stopped built.lines "" fault
  | .ok t =>
    let lines := (i.selected t).flatMap fun e => e.exampleParams.map (callLine e)
    match writtenLines lines with
    | (text, some fault) => i.stopped built.lines text fault
    | (text, none) =>
      ⟨text, i.visible built.lines ++ Failure.lines t.failures, none, i.fetched,
        endingOf t.failures⟩

/-- Writes the value that the schemas of the source give. -/
def runSchema (i : Invocation) (s : Surroundings) (make : Members → Logged Fault Value) : Report :=
  let made : Logged Fault String := do
    let doc ← Document.load s i.source
    let v ← make (← Document.schemas doc)
    Logged.ofExcept (jsonText Json.indented v)
  match made.outcome with
  | .error fault => i.stopped made.lines "" fault
  | .ok text => ⟨text ++ "\n", i.visible made.lines, none, i.fetched, .success⟩

/-- What a call does. -/
def run (i : Invocation) (s : Surroundings) : Report :=
  match i.command with
  | .endpoints file => i.runEndpoints s file
  | .calls => i.runCalls s
  | .inline name =>
    i.runSchema s fun defs => Logged.ofExcept ((Schema.inlineNamed defs name).mapError .schema)
  | .sample name => i.runSchema s fun defs => Schema.sampleNamed defs name

end Invocation

/-- What the program does with arguments in an environment. -/
def runProgram (arguments : List String) (environment : List (String × String))
    (s : Surroundings) : Report :=
  match Invocation.ofArguments? arguments environment with
  | some i => i.run s
  | none => ⟨"", [], none, none, .usage⟩

end EndpointAtlas
