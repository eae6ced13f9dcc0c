import EndpointAtlas.Numeric.Arithmetic
import EndpointAtlas.Numeric.Reading
import EndpointAtlas.Text.Base64
import EndpointAtlas.Value.Equality
import EndpointAtlas.Yaml.Node.Merge
import EndpointAtlas.Yaml.Node.Reading

/-!
# Values of YAML documents

`Yaml.read` reads the value of a text with a single document. `Node.value` makes the value of a node
by its type.

Of several faults the one in the shallowest node counts, and of those the first. The parts of a
collection are looked at behind all nodes that are no deeper than the collection, and so is a
collection that is not of the form of its type.
-/

namespace EndpointAtlas.Yaml

/-! ## Scalars by type -/

namespace Form

/-- The words for yes. -/
def trueWords : List String := ["yes", "true", "on"]

/-- The words for no. -/
def falseWords : List String := ["no", "false", "off"]

/-- A truth value. -/
def bool (cs : List Char) : Except ScalarError Scalar :=
  let word := String.ofList (cs.map Char.toLower)
  if trueWords.contains word then .ok (.bool true)
  else if falseWords.contains word then .ok (.bool false)
  else .error .unknownWord

/-- The digits of a number to base sixty, the most significant first. -/
def ofSixtieths (parts : List Int) : Int := parts.foldl (fun n part => n * 60 + part) 0

/-- An integer in a base, as the type asks for it. -/
def integer (base : Nat) (cs : List Char) : Except ScalarError Int :=
  match Numeric.readInteger? base cs with
  | some n => .ok n
  | none => .error .notOfType

/-- The size of an integer without its sign. -/
def magnitude (cs : List Char) : Except ScalarError Int :=
  match cs with
  | [] => .error .empty
  | ['0'] => .ok 0
  | '0' :: 'b' :: digits => integer 2 digits
  | '0' :: 'x' :: digits => integer 16 digits
  | '0' :: digits => integer 8 ('0' :: digits)
  | cs =>
    if cs.contains ':' then ofSixtieths <$> (Text.splitOn ':' cs).mapM (integer 10)
    else integer 10 cs

/-- An integer. -/
def int (cs : List Char) : Except ScalarError Scalar := do
  let (negative, digits) := Numeric.splitSign (cs.filter (· ≠ '_'))
  let n ← magnitude digits
  return .int (if negative then -n else n)

/-- A number with a point. -/
def float (cs : List Char) : Except ScalarError Scalar := do
  let cs := (cs.filter (· ≠ '_')).map Char.toLower
  if cs.isEmpty then throw .empty
  let (negative, body) := Numeric.splitSign cs
  let read (part : List Char) : Except ScalarError Binary64 :=
    match Binary64.ofText? part with
    | some x => .ok x
    | none => .error .notOfType
  if body = ".nan".toList then return .float .nan
  let x ← if body = ".inf".toList then pure (.infinity false)
    else if body.contains ':' then do
      let parts ← (Text.splitOn ':' body).mapM read
      let unit (place : Nat) : Binary64 := .ofInt (Nat.pow 60 place)
      if !(unit (parts.length - 1)).isFinite then throw .tooLarge
      pure (parts.reverse.zipIdx.foldl (fun sum (part, place) =>
        Binary64.add sum (.mul part (unit place))) (Binary64.zero false))
    else read body
  return .float (if negative then x.negate else x)

/-- Bytes in base 64; none if they are not. -/
def binary? (cs : List Char) : Option Scalar :=
  if cs.all fun c => c.toNat < 128 then .bytes <$> Text.Base64.decode cs else none

/-- The number that digits write. -/
def number (digits : List Char) : Nat := Json.decimalValue digits

/-- Microseconds from the digits behind the point of a second. -/
def microseconds (digits : List Char) : Nat :=
  let six := digits.take 6
  number (six ++ List.replicate (6 - six.length) '0')

/-- The offset of a time zone in minutes. -/
def Zone.minutes : Zone → Int
  | .universal => 0
  | .offset negative hours minutes =>
    let n : Int := number hours * 60 + number minutes
    if negative then -n else n

/-- The date or moment that the parts make. -/
def Timestamp.scalar? (t : Timestamp) : Option Scalar := do
  let date ← Date.ofParts? (number t.year) (number t.month) (number t.day)
  match t.clock with
  | none => return .date date
  | some c =>
    let m ← Moment.ofParts? date (number c.hour) (number c.minute) (number c.second)
      (microseconds c.fraction) (c.zone.map Zone.minutes)
    return .moment m

/-- A date or a moment. A line feed at its end does not count. -/
def timestamp (cs : List Char) : Except ScalarError Scalar :=
  let cs := if cs.getLast? = some '\n' then cs.dropLast else cs
  match timestamp? cs with
  | none => .error .noMatch
  | some t =>
    match t.scalar? with
    | some s => .ok s
    | none => .error .notOfType

/-- The value of a text of a type; the types of collections and of keys have none. -/
def scalar (tag : Tag) (cs : List Char) : Except Error Scalar :=
  match tag with
  | .null => .ok .null
  | .bool => (bool cs).mapError .scalar
  | .int => (int cs).mapError .scalar
  | .float => (float cs).mapError .scalar
  | .timestamp => (timestamp cs).mapError .scalar
  | .str => .ok (.str (String.ofList cs))
  | .binary =>
    match binary? cs with
    | some s => .ok s
    | none => .error .malformed
  | _ => .error .malformed

end Form

namespace Node

/-- Whether a node is an equals sign. -/
def isEqualsSign : Node → Bool
  | .scalar tag _ => tag = .value
  | .sequence tag _ => tag = .value
  | .mapping tag _ => tag = .value
  | .again _ _ => false

/-! ## Values -/

/-- A fault and how deep the node is that it was found in. -/
structure Found where
  depth : Nat
  error : Error

/-- A result, or the fault that counts. -/
abbrev Valued (α : Type) := Except Found α

/-- Two results of which the first is looked at first. The fault in the shallower one counts. -/
def both {α β : Type} (x : Valued α) (y : Valued β) : Valued (α × β) :=
  match x, y with
  | .ok a, .ok b => .ok (a, b)
  | .ok _, .error e => .error e
  | .error e, .ok _ => .error e
  | .error e, .error e' => .error (if e.depth ≤ e'.depth then e else e')

mutual

/-- The text of a node where a scalar is asked for. A mapping gives the text under its first equals
sign. -/
def text? : Node → Option (List Char)
  | .scalar _ text => some text
  | .mapping _ pairs => textUnderEquals? pairs
  | _ => none

/-- The text under the first equals sign. -/
def textUnderEquals? : List (Node × Node) → Option (List Char)
  | [] => none
  | (k, v) :: rest => if k.isEqualsSign then text? v else textUnderEquals? rest

end

/-- A node whose form is not that of its type. A type of collections shows this only with the parts,
a type of scalars at once, unless it finds the text of a scalar in the node. -/
def unlike (tag : Tag) (depth : Nat) (n : Node) : Valued Value :=
  match tag, n.text? with
  | .seq, _ | .map, _ | .set, _ | .entries, _ => .error ⟨depth + 1, .malformed⟩
  | .timestamp, some _ => .error ⟨depth, .scalar .notText⟩
  | tag, some text => (Value.scalar <$> Form.scalar tag text).mapError (⟨depth, ·⟩)
  | _, none => .error ⟨depth, .malformed⟩

/-- The scalar that a value is as a key. A collection is none, whatever is wrong inside it. -/
def keyOf (depth : Nat) : Valued Value → Valued Scalar
  | .ok (.scalar s) => .ok s
  | .ok _ => .error ⟨depth, .malformed⟩
  | .error e => .error (if e.depth = depth then e else ⟨depth, .malformed⟩)

mutual

/-- The value of a node at a depth. -/
def valueAt (depth : Nat) : Node → Valued Value
  | .scalar .seq text => unlike .seq depth (.scalar .seq text)
  | .scalar .map text => unlike .map depth (.scalar .map text)
  | .scalar .set text => unlike .set depth (.scalar .set text)
  | .scalar .entries text => unlike .entries depth (.scalar .entries text)
  | .scalar tag text => (Value.scalar <$> Form.scalar tag text).mapError (⟨depth, ·⟩)
  | .sequence .seq items => Value.list <$> itemValues (depth + 1) items
  | .sequence .entries items => Value.list <$> entryValues (depth + 1) items
  | .sequence tag items => unlike tag depth (.sequence tag items)
  | .mapping .map pairs => (fun ms => .map (Members.ofList ms)) <$> memberValues (depth + 1) pairs
  | .mapping .set pairs =>
    (fun ms => .set ((Members.ofList ms).map Prod.fst)) <$> memberValues (depth + 1) pairs
  | .mapping tag pairs => unlike tag depth (.mapping tag pairs)
  | .again _ isList => .ok (.cut isList)

/-- The values of items at a depth. -/
def itemValues (depth : Nat) : List Node → Valued (List Value)
  | [] => .ok []
  | n :: rest => (fun (v, vs) => v :: vs) <$> both (valueAt depth n) (itemValues depth rest)

/-- The values of mappings with one pair each, as lists of a key and a value. The keys and values are
at a depth. -/
def entryValues (depth : Nat) : List Node → Valued (List Value)
  | [] => .ok []
  | .mapping _ [(k, v)] :: rest =>
    (fun (((k, v) : Value × Value), vs) => .list [k, v] :: vs) <$>
      both (both (valueAt depth k) (valueAt depth v)) (entryValues depth rest)
  | _ :: _ => .error ⟨depth, .malformed⟩

/-- The members of a mapping whose parts are at a depth. -/
def memberValues (depth : Nat) : List (Node × Node) → Valued (List (Scalar × Value))
  | [] => .ok []
  | (k, v) :: rest =>
    (fun (m, ms) => m :: ms) <$>
      both (both (keyOf depth (valueAt depth k)) (valueAt depth v)) (memberValues depth rest)

end

/-- The value of a node. -/
def value (n : Node) : Except Error Value := (valueAt 0 n.merged).mapError (·.error)

end Node

/-- The value of the only document of a text, null if it has none. -/
def read (text : List Char) : Except Error Value := do
  match ← Node.ofTokens (.ofText text) with
  | some node => node.value
  | none => return .null

end EndpointAtlas.Yaml
