import EndpointAtlas.Endpoint.Table

/-!
# Sections of a document

A document has a mapping of paths, and may have a mapping of schemas among its components.
`Table.ofDocument` makes the table of endpoints of both.
-/

namespace EndpointAtlas

namespace Document

/-- The line that says that a document has no schemas. -/
def noSchemasLine : Log.Line :=
  ⟨.debug, "api_probe.loader", "Document has no components.schemas"⟩

/-- The schemas of a document, none when it declares none. -/
def schemas (doc : Members) : Logged Fault Members := do
  let components := doc.getD "components"
  let declared ←
    if !components.isTruthy then pure Value.null
    else match components with
      | .map members => pure (Members.getD members "schemas")
      | v => throw (.partless v)
  match declared with
  | .null => do
    MonadLog.write noSchemasLine
    return []
  | .map members => return members
  | _ => throw (.document .schemasNotMapping)

/-- The paths of a document. -/
def paths (doc : Members) : Except Fault Members :=
  match doc.getD "paths" with
  | .map members => .ok members
  | _ => .error (.document .missingPaths)

end Document

/-- The table of a document behind reports that were made before, and the fault that ended the run,
if one did. -/
def Table.ofDocument (doc : Members) (failures : List Failure) : Noted (Table × Option Fault) := do
  let sections : Logged Fault (Members × Members) := do
    let paths ← Logged.ofExcept (Document.paths doc)
    return (paths, ← Document.schemas doc)
  match ← sections.run with
  | .ok (paths, defs) => Table.ofPaths true defs paths failures
  | .error fault => return (⟨[], failures⟩, some fault)

end EndpointAtlas
