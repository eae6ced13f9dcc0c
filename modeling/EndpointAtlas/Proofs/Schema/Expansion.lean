import EndpointAtlas.Proofs.Outcome
import EndpointAtlas.Proofs.Schema.Child

/-!
# Expansion, child by child

`expand` visits the slots of a schema, and each slot by a recursion of its own. Here it is one
traversal of the children.

1. `expandSlot_eq`: a slot is expanded by expanding its children in order.
2. `Complete`: what a schema has to have; `missingStructure?_eq_none` says that this is checked.
3. `expand_reference`, `expand_of_not_map`, `expand_map_eq_ok_iff`: the three kinds of nodes;
   `cases_of_expand_map_eq_error` says where errors come from.
-/

namespace EndpointAtlas.Schema

/-! ## Slots -/

section

variable {m : Type → Type} [Monad m] [LawfulMonad m]
variable (raise : SchemaError → m Value) (follow : Follow m Value)

theorem expandProperties_eq (props : List (Scalar × Value)) (loc : Location) :
    expandProperties raise follow props loc =
      (fun ws => props.zipWith (fun p w => (p.1, w)) ws) <$>
        (Slot.children .properties (.map props)).mapM fun child =>
          expand raise follow child.2 (child.1.from loc) := by
  unfold Slot.children
  induction props with
  | nil => simp [expandProperties]
  | cons p rest ih =>
    obtain ⟨k, v⟩ := p
    simp only [expandProperties, List.map_cons, List.mapM_cons, ih]
    simp

theorem expandBranches_eq (c : Composite) (i : Nat) (branches : List Value) (loc : Location) :
    expandBranches raise follow c i branches loc =
      (branches.mapIdx fun j v => (Step.branch c (i + j), v)).mapM fun child =>
        expand raise follow child.2 (child.1.from loc) := by
  induction branches generalizing i with
  | nil => simp [expandBranches]
  | cons v rest ih =>
    simp only [expandBranches, List.mapIdx_cons, List.mapM_cons, ih, Nat.add_zero]
    simp [Nat.add_assoc, Nat.add_comm 1]

/-- The new value of a slot is put together from its expanded children. -/
theorem expandSlot_eq (slot : Slot) (members : Members) (loc : Location) :
    expandSlot raise follow slot members loc =
      match members.get? slot.keyword with
      | none => pure none
      | some v => slot.rebuild? v <$> (slot.children v).mapM fun child =>
          expand raise follow child.2 (child.1.from loc) := by
  induction members with
  | nil => simp [expandSlot]
  | cons m rest ih =>
    obtain ⟨k, v⟩ := m
    by_cases hk : k = .str slot.keyword
    · -- the member of the slot: only its children count
      subst hk
      rw [Members.get?_cons, if_pos rfl]
      rcases slot with _ | _ | _ | c
      case properties =>
        cases v with
        | map props => simp [expandSlot, Slot.rebuild?_properties, expandProperties_eq]
        | _ => simp [expandSlot, Slot.children, Slot.rebuild?]
      case items => simp [expandSlot, Slot.children, Slot.rebuild?]
      case additionalProperties => cases v <;> simp [expandSlot, Slot.children, Slot.rebuild?]
      case branches =>
        cases v with
        | list schemas =>
          simp [expandSlot, Slot.children, Slot.rebuild?_branches, expandBranches_eq]
        | _ => simp [expandSlot, Slot.children, Slot.rebuild?]
    · rw [Members.get?_cons, if_neg hk, ← ih]
      rcases slot with _ | _ | _ | c <;> cases v <;> simp only [expandSlot, hk, if_false]

end

/-! ## What a schema has to have -/

/-- A schema lists alternatives or parts. -/
def IsComposite (schema : Members) : Prop :=
  ∃ c branches, schema.get? (Composite.keyword c) = some (.list branches) ∧ branches ≠ []

/-- A schema that is not composite has what its declared type asks for: an array schema has items,
and an object schema has properties or a keyword that leaves them open. -/
structure Complete (schema : Members) : Prop where
  items : ¬ IsComposite schema → primaryType schema = .str "array" → schema.has "items"
  properties : ¬ IsComposite schema → primaryType schema = .str "object" →
    schema.has "properties" ∨ ∃ key ∈ openObjectKeywords, schema.has key

theorem nonemptyList?_eq_some {o : Option Value} {items : List Value} :
    nonemptyList? o = some items ↔ o = some (.list items) ∧ items ≠ [] := by
  unfold nonemptyList?
  split <;> simp_all
  rintro rfl
  assumption

theorem compositeBranches?_eq_none {schema : Members} :
    compositeBranches? schema = none ↔ ¬ IsComposite schema := by
  rw [compositeBranches?, List.findSome?_eq_none_iff]
  simp only [Option.map_eq_none_iff]
  simp only [Option.eq_none_iff_forall_ne_some, ne_eq, nonemptyList?_eq_some, IsComposite,
    not_exists]
  constructor
  · intro h c branches
    exact h c (by cases c <;> simp [Composite.all]) branches
  · intro h c _ branches
    exact h c branches

theorem shape_of_not_isComposite {schema : Members} (h : ¬ IsComposite schema) :
    shape schema = if primaryType schema = .str "object" then .object
      else if primaryType schema = .str "array" then .array else .primitive := by
  rw [shape, compositeBranches?_eq_none.2 h]

theorem exists_shape_of_isComposite {schema : Members} (h : IsComposite schema) :
    ∃ c, shape schema = .composite c := by
  cases hc : compositeBranches? schema with
  | none => exact absurd h (compositeBranches?_eq_none.1 hc)
  | some p => exact ⟨p.1, by rw [shape, hc]⟩

/-- Expansion finds nothing missing in the complete schemas, and only in these. -/
theorem missingStructure?_eq_none {schema : Members} :
    missingStructure? schema = none ↔ Complete schema := by
  by_cases hcomposite : IsComposite schema
  · obtain ⟨c, hc⟩ := exists_shape_of_isComposite hcomposite
    simp only [missingStructure?, hc, true_iff]
    exact ⟨fun h => absurd hcomposite h, fun h => absurd hcomposite h⟩
  · rw [missingStructure?, shape_of_not_isComposite hcomposite]
    by_cases hobject : primaryType schema = .str "object"
    · simp only [hobject, if_true, ite_eq_left_iff, reduceCtorEq, imp_false, not_not,
        Bool.or_eq_true, List.any_eq_true]
      exact ⟨fun h => ⟨fun _ harray => by simp [hobject] at harray, fun _ _ => h⟩,
        fun h => h.properties hcomposite hobject⟩
    · by_cases harray : primaryType schema = .str "array"
      · simp only [harray, if_true, Value.scalar.injEq, Scalar.str.injEq, String.reduceEq, if_false,
          ite_eq_left_iff, reduceCtorEq, imp_false, not_not]
        exact ⟨fun h => ⟨fun _ _ => h, fun _ hobject' => absurd hobject' hobject⟩,
          fun h => h.items hcomposite harray⟩
      · simp only [hobject, harray, if_false, true_iff]
        exact ⟨fun _ h => absurd h harray, fun _ h => absurd h hobject⟩

/-! ## Nodes -/

section

variable {m : Type → Type} [Monad m] {raise : SchemaError → m Value} {follow : Follow m Value}
  {members : Members} {loc : Location}

theorem expand_reference {ref : Value} (h : members.get? referenceKeyword = some ref) :
    expand raise follow (.map members) loc = follow ref loc := by
  simp only [expand, h]

theorem expand_of_not_map {v : Value} (h : ∀ members, v ≠ .map members) :
    expand raise follow v loc = pure v := by
  cases v <;> simp_all [expand]

end

/-- A schema is expanded when it is complete and all of its children can be. -/
theorem expand_map_eq_ok_iff {follow : Follow (Except SchemaError) Value} {members : Members}
    {loc : Location} {r : Value} (h : members.get? referenceKeyword = none) :
    expand .error follow (.map members) loc = .ok r ↔
      Complete members ∧ ∃ new : Slot → List Value,
        (∀ slot v, members.get? (Slot.keyword slot) = some v →
          List.Forall₂ (fun child w => expand .error follow child.2 (child.1.from loc) = .ok w)
            (slot.children v) (new slot)) ∧
        r = .map (rebuilt new members) := by
  have hslot : ∀ (slot : Slot) (o : Option Value),
      expandSlot .error follow slot members loc = .ok o ↔
        ∃ ws, (∀ v, members.get? slot.keyword = some v →
            List.Forall₂ (fun child w => expand .error follow child.2 (child.1.from loc) = .ok w)
              (slot.children v) ws) ∧
          o = (members.get? slot.keyword).bind fun v => slot.rebuild? v ws := by
    intro slot o
    rw [expandSlot_eq]
    cases members.get? slot.keyword with
    | none => simp [pure, Except.pure, eq_comm]
    | some v =>
      simp only [Outcome.map_eq_ok_iff, Outcome.mapM_eq_ok_iff, Option.some.injEq, forall_eq',
        Option.bind_some, eq_comm (a := o)]
  rw [← missingStructure?_eq_none]
  simp only [expand, h]
  cases missingStructure? members with
  | some cause => simp
  | none =>
    rw [Outcome.bind_eq_ok_iff]
    constructor
    · rintro ⟨replaced, hreplaced, hr⟩
      obtain ⟨f, hf, rfl⟩ := Outcome.mapM_pair_eq_ok_iff.1 hreplaced
      cases hr
      choose new hnew hf using fun slot => (hslot slot (f slot)).1 (hf slot (Slot.mem_all slot))
      refine ⟨rfl, new, hnew, ?_⟩
      rw [← overlay_eq_rebuilt, funext hf]
    · rintro ⟨-, new, hnew, rfl⟩
      rw [← overlay_eq_rebuilt]
      exact ⟨_, Outcome.mapM_pair_eq_ok_iff.2
        ⟨_, fun slot _ => (hslot slot _).2 ⟨new slot, hnew slot, rfl⟩, rfl⟩, rfl⟩

/-- The expansion of a schema fails when the schema itself is not complete, or with a child. -/
theorem cases_of_expand_map_eq_error {follow : Follow (Except SchemaError) Value}
    {members : Members} {loc : Location} {e : SchemaError}
    (hnone : members.get? referenceKeyword = none)
    (h : expand .error follow (.map members) loc = .error e) :
    (∃ cause, missingStructure? members = some cause ∧ e = ⟨cause, loc⟩) ∨
      ∃ step child, IsChild (.map members) step child ∧
        expand .error follow child (step.from loc) = .error e := by
  simp only [expand, hnone] at h
  cases hmissing : missingStructure? members with
  | some cause =>
    rw [hmissing] at h
    cases h
    exact .inl ⟨cause, rfl, rfl⟩
  | none =>
    rw [hmissing] at h
    dsimp only at h
    rcases Outcome.bind_eq_error_iff.1 h with hslots | ⟨replaced, -, hpure⟩
    · obtain ⟨slot, -, hslot⟩ := Outcome.exists_of_mapM_eq_error hslots
      rcases Outcome.bind_eq_error_iff.1 hslot with hslot | ⟨o, -, hpure⟩
      · rw [expandSlot_eq] at hslot
        cases hv : members.get? slot.keyword with
        | none =>
          rw [hv] at hslot
          cases hslot
        | some v =>
          rw [hv] at hslot
          obtain ⟨child, hmem, hchild⟩ :=
            Outcome.exists_of_mapM_eq_error (Outcome.map_eq_error_iff.1 hslot)
          exact .inr ⟨child.1, child.2, ⟨members, slot, v, rfl, hv, hmem⟩, hchild⟩
      · cases hpure
    · cases hpure

end EndpointAtlas.Schema
