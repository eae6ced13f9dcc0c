import EndpointAtlas.Fault
import EndpointAtlas.Text.Bytes
import EndpointAtlas.Value.Equality

/-!
# Values of JSON types

`Json.plain` turns a value into one that has a JSON form everywhere: dates and moments become texts,
byte strings the texts that they encode, numbers that are not finite null, sets lists, and keys
texts. Members whose keys become equal become one member. An endless value has no such form.
-/

namespace EndpointAtlas.Json

/-- The text that bytes encode. -/
def decoded (bytes : List UInt8) : Except Fault String :=
  match Text.decode bytes with
  | some cs => .ok (String.ofList cs)
  | none => .error .undecodable

/-- A scalar of a JSON type. -/
def plainScalar : Scalar → Except Fault Scalar
  | .float x => .ok (if x.isFinite then .float x else .null)
  | .date d => .ok (.str d.text)
  | .moment m => .ok (.str m.isoText)
  | .bytes bs => .str <$> decoded bs
  | s => .ok s

/-- The text of a key. -/
def plainKey : Scalar → Except Fault String
  | .bool b => .ok (if b then "true" else "false")
  | .moment m => .ok m.isoText
  | .bytes bs => decoded bs
  | s => .ok s.text

mutual

/-- A value of JSON types. -/
def plain : Value → Except Fault Value
  | .scalar s => .scalar <$> plainScalar s
  | .list items => .list <$> plainItems items
  | .map members => do return .map (Members.ofList (← plainMembers members))
  | .set items => do return .list (← items.mapM fun s => .scalar <$> plainScalar s)
  | .cut _ => .error .endless

def plainItems : List Value → Except Fault (List Value)
  | [] => .ok []
  | v :: rest => do
    let v ← plain v
    return v :: (← plainItems rest)

def plainMembers : List (Scalar × Value) → Except Fault (List (Scalar × Value))
  | [] => .ok []
  | (k, v) :: rest => do
    let k ← plainKey k
    let v ← plain v
    return (.str k, v) :: (← plainMembers rest)

end

end EndpointAtlas.Json
