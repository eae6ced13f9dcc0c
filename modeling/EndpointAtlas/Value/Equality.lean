import EndpointAtlas.Value.Basic

/-!
# Equality of keys

Two scalars are the same key when they are equal as numbers, as instants or as data. A truth value
is a number here, so that `1`, `1.0` and `true` are one key.
-/

namespace EndpointAtlas

namespace Scalar

/-- A number equal to an integer. -/
def toInt? : Scalar → Option Int
  | .bool b => some (if b then 1 else 0)
  | .int n => some n
  | .float x => x.toInt?
  | _ => none

/-- Whether two scalars are the same key. -/
def same (a b : Scalar) : Bool :=
  match a.toInt?, b.toInt? with
  | some m, some n => m = n
  | none, none =>
    match a, b with
    | .float x, .float y => x.same y
    | .moment x, .moment y => x.same y
    | _, _ => a = b
  | _, _ => false

@[simp] theorem same_str (s t : String) : Scalar.same (.str s) (.str t) = decide (s = t) := by
  simp [same, toInt?]

end Scalar

namespace Members

/-- The members with a value under a key: in the place of the same key, which stays as it was first
written, else at the end. -/
def put : Members → Scalar → Value → Members
  | [], k, v => [(k, v)]
  | (l, w) :: rest, k, v => if l.same k then (l, v) :: rest else (l, w) :: put rest k v

/-- The members of a list of pairs: a key keeps its first position and has its last value. -/
def ofList (pairs : List (Scalar × Value)) : Members :=
  pairs.foldl (fun members (k, v) => members.put k v) []

end Members

end EndpointAtlas
