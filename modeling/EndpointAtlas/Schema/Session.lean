import EndpointAtlas.Schema.Inline
import EndpointAtlas.Schema.Sample

/-!
# Sessions

A session keeps the trail of open components as a state between visits, instead of handing it down.
Opening a component pushes its name, and the name is taken off again when the visit ends, also when
it ends with an error.
-/

namespace EndpointAtlas.Schema

/-- A computation that fails with `ε`, on a trail that outlives failures. -/
abbrev Session (ε : Type) := ExceptT ε (StateT Trail Noted)

namespace Session

variable {ε α : Type}

/-- The result of a session and the trail it leaves, from the trail it finds. -/
def runFrom (x : Session ε α) (trail : Trail) : Noted (Except ε α × Trail) := StateT.run x.run trail

/-- The trail as it stands. -/
def trail : Session ε Trail := get

/-- A computation with a name on the trail. The name is taken off again at its end. -/
def opening (name : String) (x : Session ε α) : Session ε α := do
  modify (· ++ [name])
  let result ← tryCatch (Except.ok <$> x) fun e => pure (Except.error e)
  modify List.dropLast
  match result with
  | .ok a => pure a
  | .error e => throw e

/-- A walk on the trail of the session, which opens at most `level` components inside each
other. -/
def visitWithin (raise : SchemaError → Session ε α) (walk : Walk (Session ε) α) (defs : Members) :
    Nat → Value → Location → Session ε α
  | 0, node, loc =>
    walk (fun ref here => do
      let trail ← trail
      match openReference defs trail ref here with
      | .error e => raise e
      | .ok (name, _) => raise ⟨.circular (trail ++ [name]), here⟩) node loc
  | level + 1, node, loc =>
    walk (fun ref here => do
      match openReference defs (← trail) ref here with
      | .error e => raise e
      | .ok (name, target) =>
        opening name (visitWithin raise walk defs level target here)) node loc

/-- The schema at a location without references. -/
def inlineAt (defs : Members) (node : Value) (loc : Location) : Session SchemaError Value :=
  visitWithin throw (expand throw) defs defs.length node loc

/-- A sample of the schema at a location. -/
def sampleAt (defs : Members) (node : Value) (loc : Location) : Session Fault Value :=
  visitWithin (fun e => throw (.schema e)) sampleWalk defs defs.length node loc

/-- The results of visits one after the other, each with the trail behind it. -/
def runAll (visits : List (Session ε α)) (trail : Trail) : Noted (List (Except ε α × Trail)) :=
  match visits with
  | [] => pure []
  | x :: rest => do
    let step ← x.runFrom trail
    return step :: (← runAll rest step.2)

end Session

end EndpointAtlas.Schema
