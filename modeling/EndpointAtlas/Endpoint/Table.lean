import EndpointAtlas.Endpoint.Operation

/-!
# The table of endpoints

`Operation.all` lists the operations of a document in order, and `Table.addAll` enters them into a
table one by one. An operation that cannot be described is reported and left out, and so is one
whose id is taken; the other operations do not notice. A fault that is no fault of the operation
ends the run, and the reports made so far stay.
-/

namespace EndpointAtlas

/-- The HTTP methods, in lower case. -/
def httpMethods : List String :=
  ["get", "put", "post", "delete", "options", "head", "patch", "trace"]

/-- Whether a key of a path item is an HTTP method. -/
def isHttpMethod (key : String) : Bool :=
  httpMethods.contains (String.ofList (key.toList.map Char.toLower))

/-- An operation in its path item. -/
structure PathOperation where
  path : Scalar
  item : Members
  method : String
  content : Value
  deriving DecidableEq, Repr

namespace PathOperation

/-- The operations of a path item, among its remaining members. -/
def ofItem (path : Scalar) (item : Members) (members : Members) : List PathOperation :=
  members.filterMap fun (key, content) =>
    match key with
    | .str method => if isHttpMethod method then some ⟨path, item, method, content⟩ else none
    | _ => none

/-- The operations of a document, in order. Only path items that are mappings have any. -/
def all (paths : Members) : List PathOperation :=
  paths.flatMap fun (path, item) =>
    match item with
    | .map members => ofItem path members members
    | _ => []

/-- The id of an operation, null when there is none. -/
def id (op : PathOperation) : Value :=
  match op.content with
  | .map fields => Members.getD fields "operationId"
  | _ => .null

/-- The endpoint of an operation, none when it has no id. -/
def describe (defs : Members) (op : PathOperation) : Logged Fault (Option Endpoint) := do
  let shared ← Logged.ofExcept ((listField op.item "parameters").mapError .schema)
  Operation.describe defs ⟨.scalar op.path, .str op.method, op.content, .list shared⟩

end PathOperation

/-- Endpoints by operation id, with reports of the operations that were left out. -/
structure Table where
  endpoints : List (String × Endpoint)
  failures : List Failure
  deriving DecidableEq, Repr

namespace Table

/-- The logger of the table. -/
def logger : String := "api_probe.endpoint.builder"

/-- The line about an operation without an id. -/
def withoutIdLine (op : PathOperation) : Log.Line :=
  ⟨.debug, logger,
    "Skipping " ++ Text.upper op.method ++ " " ++ op.path.text ++ " without operationId"⟩

/-- The line about an operation that is left out. -/
def failureLine (op : PathOperation) (reason : String) : Log.Line :=
  ⟨.warning, logger, "Skipping " ++ Text.upper op.method ++ " " ++ op.path.text ++ " (" ++
    op.id.text ++ "): " ++ reason⟩

/-- The report of an operation. Its path has to be a text. -/
def failureOf (op : PathOperation) (kind reason : String) : Except Fault Failure :=
  let id := match op.id with
    | .str s => some s
    | _ => none
  Checked.toExcept .failure <|
    (fun path => ⟨path, Text.upper op.method, id, kind, reason⟩) <$>
      (Check.text (.scalar op.path)).inField "path"

/-- The endpoint of an operation, provided that its id is not taken. -/
def describeNew (defs : Members) (t : Table) (op : PathOperation) :
    Logged Fault (Option Endpoint) := do
  match ← op.describe defs with
  | none => return none
  | some e =>
    match t.endpoints.lookup e.operationId with
    | some holder =>
      throw (.schema
        ⟨.duplicateOperationId e.operationId holder.label, Location.top / "operationId"⟩)
    | none => return some e

/-- The table with a report added, if reports are collected. -/
def report (collect : Bool) (t : Table) (op : PathOperation) (kind reason : String) :
    Logged Fault Table := do
  MonadLog.write (failureLine op reason)
  if collect then
    let failure ← Logged.ofExcept (failureOf op kind reason)
    return { t with failures := t.failures ++ [failure] }
  else return t

/-- The table with an operation entered or reported. -/
def add (collect : Bool) (defs : Members) (t : Table) (op : PathOperation) :
    Logged Fault Table := do
  let described ← tryCatch (Except.ok <$> describeNew defs t op) fun fault =>
    match fault.report? with
    | some (kind, reason) => pure (.error (kind, reason))
    | none => throw fault
  match described with
  | .ok (some e) => return { t with endpoints := t.endpoints ++ [(e.operationId, e)] }
  | .ok none => do
    MonadLog.write (withoutIdLine op)
    return t
  | .error (kind, reason) => report collect t op kind reason

/-- The table with operations entered in order, and the fault that ended the run, if one did. -/
def addAll (collect : Bool) (defs : Members) :
    Table → List PathOperation → Noted (Table × Option Fault)
  | t, [] => pure (t, none)
  | t, op :: rest => do
    match ← (add collect defs t op).run with
    | .ok t => addAll collect defs t rest
    | .error fault => pure (t, some fault)

/-- The table of all operations of a document, behind reports that were made before. -/
def ofPaths (collect : Bool) (defs paths : Members) (failures : List Failure) :
    Noted (Table × Option Fault) :=
  addAll collect defs ⟨[], failures⟩ (PathOperation.all paths)

end Table

end EndpointAtlas
