import EndpointAtlas.Numeric.Binary64
import EndpointAtlas.Calendar

/-!
# Document values

The values that a description document is made of. Mappings keep their members in order; their keys
are scalars, so a list or a mapping is never a key. A value that contains itself is endless; some
rounds of it are held, and the last one is cut off where the next would begin.

1. `Scalar` and `Value`: the data, with `Members` for the members of a mapping.
2. `Members.get?` and `Members.set`: reading and writing by text key.
3. `Value.isTruthy`: what counts as given.
-/

namespace EndpointAtlas

/-- A value without parts. -/
inductive Scalar where
  | null
  | bool (b : Bool)
  | int (n : Int)
  | float (x : Binary64)
  | str (s : String)
  | date (d : Date)
  | moment (m : Moment)
  | bytes (bs : List UInt8)
  deriving DecidableEq, Repr, Inhabited

/-- A document value. -/
inductive Value where
  | scalar (s : Scalar)
  | list (items : List Value)
  | map (members : List (Scalar × Value))
  | set (items : List Scalar)
  /-- A list or a mapping that the value stands inside of, once more. -/
  | cut (isList : Bool)
  deriving Repr, Inhabited

/-- The members of a mapping, in order. Readers never produce a key twice. -/
abbrev Members := List (Scalar × Value)

namespace Value

@[match_pattern] abbrev null : Value := .scalar .null
@[match_pattern] abbrev bool (b : Bool) : Value := .scalar (.bool b)
@[match_pattern] abbrev int (n : Int) : Value := .scalar (.int n)
@[match_pattern] abbrev float (x : Binary64) : Value := .scalar (.float x)
@[match_pattern] abbrev str (s : String) : Value := .scalar (.str s)

mutual

/-- Whether two values have the same parts in the same order. -/
def beq : Value → Value → Bool
  | .scalar a, .scalar b => a = b
  | .list xs, .list ys => beqList xs ys
  | .map xs, .map ys => beqMembers xs ys
  | .set xs, .set ys => xs = ys
  | .cut a, .cut b => a = b
  | _, _ => false

def beqList : List Value → List Value → Bool
  | [], [] => true
  | x :: xs, y :: ys => beq x y && beqList xs ys
  | _, _ => false

def beqMembers : List (Scalar × Value) → List (Scalar × Value) → Bool
  | [], [] => true
  | (k, x) :: xs, (l, y) :: ys => k = l && beq x y && beqMembers xs ys
  | _, _ => false

end

mutual

theorem beq_iff_eq : ∀ a b : Value, beq a b = true ↔ a = b
  | .scalar a, b => by cases b <;> simp [beq]
  | .list xs, b => by cases b <;> simp [beq, beqList_iff_eq xs]
  | .map xs, b => by cases b <;> simp [beq, beqMembers_iff_eq xs]
  | .set xs, b => by cases b <;> simp [beq]
  | .cut a, b => by cases b <;> simp [beq]

theorem beqList_iff_eq : ∀ xs ys : List Value, beqList xs ys = true ↔ xs = ys
  | [], ys => by cases ys <;> simp [beqList]
  | x :: xs, ys => by cases ys <;> simp [beqList, beq_iff_eq x, beqList_iff_eq xs]

theorem beqMembers_iff_eq : ∀ xs ys : List (Scalar × Value), beqMembers xs ys = true ↔ xs = ys
  | [], ys => by cases ys <;> simp [beqMembers]
  | (k, x) :: xs, ys => by
    rcases ys with _ | ⟨⟨l, y⟩, ys⟩ <;>
      simp [beqMembers, beq_iff_eq x, beqMembers_iff_eq xs]

end

instance : DecidableEq Value := fun a b => decidable_of_iff _ (beq_iff_eq a b)

/-- Whether a value counts as given: null, false, zero and everything empty do not. -/
def isTruthy : Value → Bool
  | .null => false
  | .bool b => b
  | .int n => n ≠ 0
  | .float x => !x.isZero
  | .str s => s ≠ ""
  | .scalar (.date _) => true
  | .scalar (.moment _) => true
  | .scalar (.bytes bs) => !bs.isEmpty
  | .list xs => !xs.isEmpty
  | .map ms => !ms.isEmpty
  | .set xs => !xs.isEmpty
  | .cut _ => true

end Value

namespace Members

/-- The value under a text key. -/
def get? : Members → String → Option Value
  | [], _ => none
  | (k, v) :: rest, key => if k = .str key then some v else get? rest key

/-- The value under a text key, null when there is none. -/
def getD (members : Members) (key : String) : Value := (members.get? key).getD .null

/-- Whether there is a member with a text key. -/
def has (members : Members) (key : String) : Bool := (members.get? key).isSome

/-- The members with a value under a text key: in the place of the value it had, else at the end. -/
def set : Members → String → Value → Members
  | [], key, v => [(.str key, v)]
  | (k, w) :: rest, key, v =>
    if k = .str key then (k, v) :: rest else (k, w) :: set rest key v

@[simp] theorem get?_nil (key : String) : get? [] key = none := rfl

@[simp] theorem get?_cons (k : Scalar) (v : Value) (rest : Members) (key : String) :
    get? ((k, v) :: rest) key = if k = .str key then some v else get? rest key := rfl

theorem get?_set (members : Members) (key : String) (v : Value) (other : String) :
    (members.set key v).get? other = if other = key then some v else members.get? other := by
  induction members with
  | nil => simp [set, eq_comm]
  | cons m rest ih =>
    obtain ⟨k, w⟩ := m
    simp only [set]
    split
    · next h => subst h; simp only [get?_cons, Scalar.str.injEq]; split <;> grind
    · simp only [get?_cons, ih]; split <;> grind

end Members

end EndpointAtlas
