import EndpointAtlas.Proofs.Schema.Sampling

/-!
# One visit

A walk goes down into a schema by recursion. Taken alone, its work at one node needs only two
things: what is made of the children of the node, and what becomes of a reference.

1. `expandNode`: one visit of an expansion; `expand_eq_expandNode` puts the walk together from it.
2. `sampleNode` and `sampleWalk_eq_sampleNode`: the same for samplings.
-/

namespace EndpointAtlas.Schema

/-- What a visit does with a node, by means of visits to child schemas and of what becomes of
references. -/
abbrev Visitor (m : Type → Type) (α : Type) := (Value → Location → m α) → Walk m α

section

variable {m : Type → Type} [Monad m]

/-- The new value of a slot, put together from what visits make of its children. -/
def expandChildren (visit : Value → Location → m Value) (slot : Slot) (members : Members)
    (loc : Location) : m (Option Value) :=
  match members.get? slot.keyword with
  | none => pure none
  | some v => slot.rebuild? v <$> (slot.children v).mapM fun child => visit child.2 (child.1.from loc)

/-- One visit of an expansion. -/
def expandNode (raise : SchemaError → m Value) : Visitor m Value := fun visit follow node loc =>
  match node with
  | .map members =>
    match Members.get? members referenceKeyword with
    | some ref => follow ref loc
    | none =>
      match missingStructure? members with
      | some cause => raise ⟨cause, loc⟩
      | none => do
        let replaced ← Slot.all.mapM fun slot => do
          return (slot, ← expandChildren visit slot members loc)
        return .map (overlay replaced members)
  | node => pure node

theorem expand_eq_expandNode [LawfulMonad m] (raise : SchemaError → m Value)
    (follow : Follow m Value) (node : Value) (loc : Location) :
    expand raise follow node loc =
      expandNode raise (expand raise follow) follow node loc := by
  cases node with
  | map members =>
    simp only [expandNode, expand, expandSlot_eq]
    rfl
  | _ => simp only [expandNode, expand]

variable [MonadExceptOf Fault m] [MonadLog m]

/-- The sample of the first branch that a visit makes one of, from an index on. -/
def sampleFirst (visit : Value → Location → m Value) (c : Composite) (index : Nat) :
    List Value → Location → m Value
  | [], loc => failAt (.noBranch c) loc
  | v :: rest, loc =>
    let here := (Step.branch c index).from loc
    tryCatchThe Fault (visit v here) fun fault =>
      match passedOver? fault with
      | some e => do
        MonadLog.write (passedOverLine e here)
        sampleFirst visit c (index + 1) rest loc
      | none => throw fault

/-- The samples that visits make of properties, in order. -/
def sampleEach (visit : Value → Location → m Value) :
    List (Scalar × Value) → Location → m (List (Scalar × Value))
  | [], _ => pure []
  | (k, v) :: rest, loc => do
    let w ← visit v ((Step.property k).from loc)
    return (k, w) :: (← sampleEach visit rest loc)

/-- One visit of a sampling. -/
def sampleNode : Visitor m Value := fun visit follow node loc =>
  match node with
  | .map members =>
    match Members.get? members referenceKeyword with
    | some ref => follow ref loc
    | none =>
      match declaredExample? members with
      | some v => pure v
      | none =>
        match shape members with
        | .composite c =>
          match Members.get? members c.keyword with
          | some (.list branches) => sampleFirst visit c 0 branches loc
          | _ => failAt (.noBranch c) loc
        | .object =>
          match Members.get? members Slot.properties.keyword with
          | some (.map props) => do return .map (← sampleEach visit props loc)
          | _ => failAt .noProperties loc
        | .array =>
          match Members.get? members Slot.items.keyword with
          | some v => do return .list [← visit v (Step.items.from loc)]
          | none => failAt .noItems loc
        | .primitive =>
          match samplePrimitive members loc with
          | .ok v => pure v
          | .error e => throw e
  | node => failAt (.notASchema node) loc

variable (follow : Follow m Value)

theorem sampleProperties_eq_sampleEach (props : Members) (loc : Location) :
    sampleProperties follow props loc = sampleEach (sampleWalk follow) props loc := by
  induction props with
  | nil => rw [sampleProperties, sampleEach]
  | cons p rest ih =>
    obtain ⟨k, v⟩ := p
    rw [sampleProperties, sampleEach, ih]

theorem sampleBranches_eq_sampleFirst (c : Composite) (index : Nat) (branches : List Value)
    (loc : Location) :
    sampleBranches follow c index branches loc =
      sampleFirst (sampleWalk follow) c index branches loc := by
  induction branches generalizing index with
  | nil => rw [sampleBranches, sampleFirst]
  | cons v rest ih =>
    rw [sampleBranches, sampleFirst]
    congr 1
    funext fault
    cases passedOver? fault with
    | none => rfl
    | some e =>
      dsimp only
      rw [ih]

theorem sampleWalk_eq_sampleNode (node : Value) (loc : Location) :
    sampleWalk follow node loc = sampleNode (sampleWalk follow) follow node loc := by
  cases node with
  | map members =>
    simp only [sampleNode, sampleWalk, sampleSlot_eq, sampleProperties_eq_sampleEach,
      sampleBranches_eq_sampleFirst]
    -- both sides read one slot, each by a case distinction of its own
    congr 2
    cases shape members with
    | composite c =>
      dsimp only [Slot.keyword]
      cases Members.get? members c.keyword with
      | none => rfl
      | some v => cases v <;> rfl
    | object =>
      dsimp only
      cases Members.get? members Slot.properties.keyword with
      | none => rfl
      | some v => cases v <;> rfl
    | array =>
      dsimp only
      cases Members.get? members Slot.items.keyword <;> rfl
    | primitive => rfl
  | _ => simp only [sampleNode, sampleWalk]

end

end EndpointAtlas.Schema
