import EndpointAtlas.Proofs.Members
import EndpointAtlas.Schema.Inline

/-!
# Child schemas

The slots of a schema hold its child schemas. `Slot.children` lists those of one slot, each with the
step that leads to it, and `rebuilt` puts other schemas into their places.

1. `Slot.children` and `Slot.rebuild?`: a slot taken apart and put together. `cases_of_mem_children`
   says where its schemas stand.
2. `rebuilt`: a schema with other children; `get?_rebuilt` and `get?_rebuilt_of_not_mem` read it.
3. `IsChild.induction`: what holds of a schema when it holds of its children holds of all schemas;
   `node_induction` tells the kinds of nodes apart.
-/

namespace EndpointAtlas.Schema

namespace Slot

/-- The slot that a key stands for. -/
def ofKey? (k : Scalar) : Option Slot := all.find? fun slot => k = .str slot.keyword

theorem ofKey?_eq_some {k : Scalar} {slot : Slot} :
    ofKey? k = some slot ↔ k = .str slot.keyword := by
  constructor
  · intro h
    simpa using List.find?_some h
  · rintro rfl
    rcases slot with _ | _ | _ | (_ | _ | _) <;> rfl

@[simp] theorem ofKey?_keyword (slot : Slot) : ofKey? (.str slot.keyword) = some slot :=
  ofKey?_eq_some.2 rfl

theorem ofKey?_eq_none {key : String} (h : key ∉ all.map keyword) :
    ofKey? (.str key) = none := by
  cases hk : ofKey? (.str key) with
  | none => rfl
  | some slot =>
    have heq := ofKey?_eq_some.1 hk
    simp only [Scalar.str.injEq] at heq
    exact absurd (List.mem_map.2 ⟨slot, mem_all slot, heq.symm⟩) h

/-- The schemas that the value of a slot holds, each with the step to it. -/
def children : Slot → Value → List (Step × Value)
  | .properties, .map props => props.map fun (k, v) => (.property k, v)
  | .items, v => [(.items, v)]
  | .additionalProperties, .map extra => [(.additionalProperties, .map extra)]
  | .branches c, .list schemas => schemas.mapIdx fun i v => (.branch c i, v)
  | _, _ => []

/-- The value of a slot with other schemas in the places of those it holds; none when it is not of
the kind that holds schemas. -/
def rebuild? : Slot → Value → List Value → Option Value
  | .properties, .map props, ws => some (.map (props.zipWith (fun p w => (p.1, w)) ws))
  | .items, _, [w] => some w
  | .additionalProperties, .map _, [w] => some w
  | .branches _, .list _, ws => some (.list ws)
  | _, _, _ => none

theorem rebuild?_properties (props : Members) : rebuild? .properties (.map props) =
    fun ws => some (.map (props.zipWith (fun p w => (p.1, w)) ws)) := rfl

theorem rebuild?_branches (c : Composite) (schemas : List Value) :
    rebuild? (.branches c) (.list schemas) = fun ws => some (.list ws) := rfl

/-- A slot holds its own value, or values in its mapping or list. -/
theorem cases_of_mem_children {slot : Slot} {v child : Value} {step : Step}
    (h : (step, child) ∈ slot.children v) :
    child = v ∨ (∃ props k, v = .map props ∧ (k, child) ∈ props) ∨
      ∃ schemas, v = .list schemas ∧ child ∈ schemas := by
  rcases slot with _ | _ | _ | c <;> cases v <;>
    simp only [children, List.mem_map, List.mem_singleton, List.mem_mapIdx, List.not_mem_nil,
      Prod.mk.injEq] at h
  case properties.map props =>
    obtain ⟨⟨k, w⟩, hmem, -, rfl⟩ := h
    exact .inr (.inl ⟨props, k, rfl, hmem⟩)
  case branches.list schemas =>
    obtain ⟨i, hi, -, rfl⟩ := h
    exact .inr (.inr ⟨schemas, rfl, List.getElem_mem hi⟩)
  all_goals exact .inl h.2

theorem sizeOf_le_of_mem_children {slot : Slot} {v child : Value} {step : Step}
    (h : (step, child) ∈ slot.children v) : sizeOf child ≤ sizeOf v := by
  obtain rfl | ⟨props, k, rfl, hmem⟩ | ⟨schemas, rfl, hmem⟩ := cases_of_mem_children h
  · exact Nat.le_refl _
  · have := List.sizeOf_lt_of_mem hmem
    simp only [Prod.mk.sizeOf_spec, Value.map.sizeOf_spec] at this ⊢
    omega
  · have := List.sizeOf_lt_of_mem hmem
    simp only [Value.list.sizeOf_spec]
    omega

end Slot

/-! ## Schemas with other children -/

/-- The value of a member once other schemas are in the places of the children: a slot is put
together anew, all else stays. -/
def rebuiltValue (new : Slot → List Value) (members : Members) (k : Scalar) (v : Value) : Value :=
  match Slot.ofKey? k with
  | some slot => (slot.rebuild? (members.getD slot.keyword) (new slot)).getD v
  | none => v

/-- The members of a schema with other schemas in the places of its children. The keys and their
order stay. -/
def rebuilt (new : Slot → List Value) (members : Members) : Members :=
  members.map fun (k, v) => (k, rebuiltValue new members k v)

/-- A slot of a rebuilt schema has its value put together anew. -/
theorem get?_rebuilt (new : Slot → List Value) (members : Members) (slot : Slot) :
    (rebuilt new members).get? slot.keyword =
      (members.get? slot.keyword).map fun v => (slot.rebuild? v (new slot)).getD v := by
  rw [rebuilt, Members.get?_map]
  cases h : members.get? slot.keyword with
  | none => rfl
  | some v => simp [rebuiltValue, Members.getD, h]

/-- What is not a slot stays. -/
theorem get?_rebuilt_of_not_mem (new : Slot → List Value) (members : Members) {key : String}
    (h : key ∉ Slot.all.map Slot.keyword) :
    (rebuilt new members).get? key = members.get? key := by
  have hid : rebuiltValue new members (.str key) = id := by
    funext v
    rw [rebuiltValue, Slot.ofKey?_eq_none h, id]
  rw [rebuilt, Members.get?_map, hid, Option.map_id_apply]

/-- A rebuilt schema has the reference that the schema has. -/
theorem get?_rebuilt_reference (new : Slot → List Value) (members : Members) :
    (rebuilt new members).get? referenceKeyword = members.get? referenceKeyword :=
  get?_rebuilt_of_not_mem new members (by decide)

/-- Placing new values into all slots rebuilds the schema. -/
theorem overlay_eq_rebuilt (new : Slot → List Value) (members : Members) :
    overlay (Slot.all.map fun slot =>
      (slot, (members.get? slot.keyword).bind fun v => slot.rebuild? v (new slot))) members =
        rebuilt new members := by
  unfold overlay rebuilt rebuiltValue
  refine List.map_congr_left fun ⟨k, v⟩ hmem => ?_
  simp only [List.find?_map, Function.comp_def]
  rw [show (Slot.all.find? fun slot => decide (k = .str slot.keyword)) = Slot.ofKey? k from rfl]
  cases hk : Slot.ofKey? k with
  | none => rfl
  | some slot =>
    obtain rfl := Slot.ofKey?_eq_some.1 hk
    cases hget : members.get? slot.keyword with
    | none => exact absurd hmem (Members.not_mem_of_get? hget v)
    | some w =>
      simp only [Option.map_some, Option.bind_some, Members.getD, hget, Option.getD_some]
      cases slot.rebuild? w (new slot) <;> rfl

/-! ## Children of a node -/

theorem isReference_map {members : Members} :
    isReference (.map members) = false ↔ members.get? referenceKeyword = none := by
  unfold isReference Members.has
  rw [Option.isSome_eq_false_iff, Option.isNone_iff_eq_none]

/-- A step leads from a mapping to a child schema. -/
def IsChild (node : Value) (step : Step) (child : Value) : Prop :=
  ∃ members slot v, node = .map members ∧ Members.get? members (Slot.keyword slot) = some v ∧
    (step, child) ∈ slot.children v

theorem IsChild.sizeOf_lt {node child : Value} {step : Step} (h : IsChild node step child) :
    sizeOf child < sizeOf node := by
  obtain ⟨members, slot, v, rfl, hget, hmem⟩ := h
  have hchild := Slot.sizeOf_le_of_mem_children hmem
  have hv := List.sizeOf_lt_of_mem (Members.mem_of_get? hget)
  simp only [Prod.mk.sizeOf_spec, Value.map.sizeOf_spec] at hv ⊢
  omega

section

variable {members : Members}

theorem IsChild.property {props : Members} {k : Scalar} {v : Value}
    (h : members.get? "properties" = some (.map props)) (hmem : (k, v) ∈ props) :
    IsChild (.map members) (.property k) v :=
  ⟨members, .properties, _, rfl, h, List.mem_map.2 ⟨(k, v), hmem, rfl⟩⟩

theorem IsChild.items {v : Value} (h : members.get? "items" = some v) :
    IsChild (.map members) .items v :=
  ⟨members, .items, v, rfl, h, List.mem_cons_self⟩

theorem IsChild.branch {c : Composite} {branches : List Value} {v : Value}
    (h : members.get? c.keyword = some (.list branches)) (hmem : v ∈ branches) :
    ∃ i, IsChild (.map members) (.branch c i) v := by
  obtain ⟨i, hi, rfl⟩ := List.mem_iff_getElem.1 hmem
  exact ⟨i, members, .branches c, _, rfl, h, List.mem_mapIdx.2 ⟨i, hi, rfl⟩⟩

end

/-- **Induction on schemas.** What passes from the children of every schema to the schema holds of
all schemas. -/
theorem IsChild.induction {P : Value → Prop}
    (h : ∀ node, (∀ step child, IsChild node step child → P child) → P node) (node : Value) :
    P node :=
  h node fun _ child hchild =>
    have := hchild.sizeOf_lt
    IsChild.induction h child
termination_by sizeOf node

/-- Induction on schemas by the kinds of nodes: what is no mapping, references, and schemas with
their children. -/
theorem node_induction {P : Value → Prop}
    (leaf : ∀ v, (∀ members, v ≠ .map members) → P v)
    (reference : ∀ members ref, Members.get? members referenceKeyword = some ref → P (.map members))
    (schema : ∀ members, Members.get? members referenceKeyword = none →
      (∀ step child, IsChild (.map members) step child → P child) → P (.map members)) :
    ∀ node, P node := by
  refine IsChild.induction fun node ih => ?_
  by_cases hmap : ∃ members, node = .map members
  · obtain ⟨members, rfl⟩ := hmap
    cases href : Members.get? members referenceKeyword with
    | some ref => exact reference members ref href
    | none => exact schema members href ih
  · exact leaf node fun members heq => hmap ⟨members, heq⟩

end EndpointAtlas.Schema
