import EndpointAtlas.Proofs.Schema.Circle

/-!
# Where errors point to

The location of an error spells the steps from the root of the walk to a node, and what the error
says is so of that node. Following a reference is no step, so that a location may lead into a
component.

1. `Stands`: a node behind steps; `spelled` is the text of the steps, and `Way.pointsAt` reads both
   off a way.
2. `Unstructured`, `Dangling`, `Exampleless`: nodes that are at fault, with what is said of them.
3. `pointsAt_of_error`: errors of inlining and sampling point at such nodes. An error that says that
   there is no example points behind properties and items only.
-/

namespace EndpointAtlas.Schema

/-! ## Steps and their text -/

/-- A node stands behind steps from a root. A reference leads on to its component without a step. -/
inductive Stands (S : Value → Step → Value → Prop) (defs : Members) (root : Value) :
    List Step → Value → Prop
  | root : Stands S defs root [] root
  | child {steps : List Step} {node child : Value} {step : Step}
      (stands : Stands S defs root steps node) (isStep : S node step child) :
      Stands S defs root (steps ++ [step]) child
  | component {steps : List Step} {members : Members} {ref target : Value} {name : String}
      (stands : Stands S defs root steps (.map members))
      (isReference : members.get? referenceKeyword = some ref) (names : Names ref name)
      (found : defs.get? name = some target) : Stands S defs root steps target

/-- A step as it is written in a location. -/
def Step.text : Step → String
  | .property key => "/properties/" ++ key.text
  | .items => "/items"
  | .additionalProperties => "/additionalProperties"
  | .branch c index => "/" ++ c.keyword ++ "/" ++ toString index

/-- Steps from the root of a description as they are written. -/
def spelled (steps : List Step) : String := steps.foldl (fun s step => s ++ step.text) "#"

/-- An error points at a node with a property: its location spells the steps to the node. -/
def PointsAt (S : Value → Step → Value → Prop) (defs : Members) (root : Value) (e : SchemaError)
    (P : Value → Prop) : Prop :=
  ∃ steps node, Stands S defs root steps node ∧ e.location.text = spelled steps ∧ P node

theorem text_from (loc : Location) (step : Step) :
    (step.from loc).text = loc.text ++ step.text := by
  cases step <;> simp [Step.from, Step.text, Slot.keyword, String.append_assoc]

variable {S : Value → Step → Value → Prop} {defs : Members} {root node : Value} {trail : Trail}
  {loc : Location} {members : Members} {cause : SchemaError.Cause} {e : SchemaError}

theorem Way.exists_stands (h : Way S defs root trail node loc) :
    ∃ steps, Stands S defs root steps node ∧ loc.text = spelled steps := by
  induction h with
  | start => exact ⟨[], .root, rfl⟩
  | @child _ _ _ _ step _ hstep ih =>
    obtain ⟨steps, hstands, htext⟩ := ih
    refine ⟨steps ++ [step], .child hstands hstep, ?_⟩
    rw [text_from, htext]
    simp [spelled]
  | component _ href hopens ih =>
    obtain ⟨steps, hstands, htext⟩ := ih
    obtain ⟨hname, -, hget⟩ := openReference_eq_ok_iff.1 hopens
    exact ⟨steps, .component hstands href hname hget, htext⟩

/-- An error at the end of a way points there. -/
theorem Way.pointsAt {P : Value → Prop} (h : Way S defs root trail node loc)
    (hloc : e.location = loc) (hnode : P node) : PointsAt S defs root e P := by
  obtain ⟨steps, hstands, htext⟩ := h.exists_stands
  exact ⟨steps, node, hstands, hloc ▸ htext, hnode⟩

/-! ## Nodes at fault -/

/-- A schema lacks what its declared type asks for: an array schema has no items, or an object
schema has neither properties nor a keyword that leaves them open. None of them lists branches. -/
inductive Unstructured : SchemaError.Cause → Value → Prop
  | array {members : Members} (notReference : members.get? referenceKeyword = none)
      (plain : ¬ IsComposite members) (isArray : primaryType members = .str "array")
      (bare : members.has "items" = false) : Unstructured .arrayWithoutItems (.map members)
  | object {members : Members} (notReference : members.get? referenceKeyword = none)
      (plain : ¬ IsComposite members) (isObject : primaryType members = .str "object")
      (bare : members.has "properties" = false)
      (closed : ∀ key ∈ openObjectKeywords, members.has key = false) :
      Unstructured .objectWithoutProperties (.map members)

/-- A reference leads nowhere: its text names no component at all, or one that does not exist. -/
inductive Dangling (defs : Members) : SchemaError.Cause → Value → Prop
  | malformed {members : Members} {ref : Value}
      (isReference : members.get? referenceKeyword = some ref)
      (unnamed : ∀ name, ¬ Names ref name) :
      Dangling defs (.unsupportedReference (.str ref.text)) (.map members)
  | unknown {members : Members} {ref : Value} {name : String}
      (isReference : members.get? referenceKeyword = some ref) (names : Names ref name)
      (missing : defs.get? name = none) :
      Dangling defs (.unknownReference ref.text) (.map members)

/-- A node that is no reference has no example, neither a declared one nor one of its kind. -/
inductive Exampleless : SchemaError.Cause → Value → Prop
  | leaf {v : Value} (notMap : ∀ members, v ≠ .map members) : Exampleless (.notASchema v) v
  | schema {members : Members} {cause : SchemaError.Cause}
      (notReference : members.get? referenceKeyword = none)
      (noExample : declaredExample? members = none)
      (lacks : match shape members with
        | .composite c => cause = .noBranch c
        | .object => cause = .noProperties ∧
            ∀ props, members.get? "properties" ≠ some (.map props)
        | .array => cause = .noItems ∧ members.get? "items" = none
        | .primitive => cause = .unknownType (primaryType members) ∧
            zeroValue? (primaryType members) = none) : Exampleless cause (.map members)

theorem Exampleless.not_isReference (h : Exampleless cause node) : isReference node = false := by
  cases h with
  | leaf hleaf =>
    unfold isReference
    split
    · exact absurd rfl (hleaf _)
    · rfl
  | schema hnone _ _ => exact isReference_map.2 hnone

theorem unstructured_of_missingStructure? (hnone : members.get? referenceKeyword = none)
    (h : missingStructure? members = some cause) : Unstructured cause (.map members) := by
  have hplain : ¬ IsComposite members := by
    intro hcomposite
    obtain ⟨c, hc⟩ := exists_shape_of_isComposite hcomposite
    simp [missingStructure?, hc] at h
  rw [missingStructure?, shape_of_not_isComposite hplain] at h
  by_cases hobject : primaryType members = .str "object"
  · simp only [hobject, if_true, ite_eq_iff, reduceCtorEq, and_false, false_or,
      Option.some.injEq] at h
    obtain ⟨hbare, rfl⟩ := h
    simp only [Bool.or_eq_true, List.any_eq_true, not_or, not_exists, not_and,
      Bool.not_eq_true] at hbare
    exact .object hnone hplain hobject hbare.1 hbare.2
  · by_cases harray : primaryType members = .str "array"
    · simp only [harray, Value.scalar.injEq, Scalar.str.injEq, String.reduceEq, if_false, if_true,
        ite_eq_iff, reduceCtorEq, and_false, false_or, Option.some.injEq] at h
      obtain ⟨hbare, rfl⟩ := h
      exact .array hnone hplain harray (by simpa using hbare)
    · simp [hobject, harray] at h

/-- An error about a reference is of one of two families. -/
theorem Refused.kind (h : Refused defs trail node loc e) :
    e.kind = .unresolvedReference ∨ e.kind = .circular := by
  obtain ⟨members, ref, -, -, hopen⟩ := h
  rcases openReference_eq_error_iff.1 hopen with
    ⟨-, rfl⟩ | ⟨name, -, -, rfl⟩ | ⟨name, -, -, -, rfl⟩
  · exact .inl rfl
  · exact .inr rfl
  · exact .inl rfl

/-- A reference that is refused is dangling, unless it closes a circle. -/
theorem Refused.dangling (h : Refused defs trail node loc e) (hkind : e.kind ≠ .circular) :
    e.location = loc ∧ Dangling defs e.cause node := by
  obtain ⟨members, ref, rfl, href, hopen⟩ := h
  rcases openReference_eq_error_iff.1 hopen with
    ⟨hunnamed, rfl⟩ | ⟨name, -, -, rfl⟩ | ⟨name, -, hname, hmissing, rfl⟩
  · exact ⟨rfl, .malformed href hunnamed⟩
  · exact absurd rfl hkind
  · exact ⟨rfl, .unknown href hname hmissing⟩

theorem of_samplePrimitive_eq_error (h : samplePrimitive members loc = .error (.schema e)) :
    e = ⟨.unknownType (primaryType members), loc⟩ ∧ zeroValue? (primaryType members) = none := by
  unfold samplePrimitive at h
  split at h
  · cases h
  · dsimp only at h
    split at h
    · cases h
    · split at h
      · cases hzero : zeroValue? (primaryType members) with
        | some v => rw [hzero] at h; cases h
        | none =>
          rw [hzero] at h
          cases h
          exact ⟨rfl, rfl⟩
      · cases h

theorem HasNoSample.kind (h : HasNoSample defs trail node loc (.schema e)) :
    e.kind = .noExample := by
  rcases h with ⟨members, -, -, -, hlacks⟩ | ⟨-, he⟩
  · exact hlacks.isSampleFault
  · cases he
    rfl

/-- A node without a sample is what the error says of it. -/
theorem HasNoSample.exampleless (h : HasNoSample defs trail node loc (.schema e)) :
    e.location = loc ∧ Exampleless e.cause node := by
  rcases h with ⟨members, rfl, hnone, hdeclared, hlacks⟩ | ⟨hleaf, he⟩
  · unfold Lacks at hlacks
    have hschema := @Exampleless.schema members e.cause hnone hdeclared
    cases hs : shape members with
    | composite c =>
      simp only [hs] at hlacks hschema
      obtain ⟨he, -⟩ := hlacks
      cases he
      exact ⟨rfl, hschema rfl⟩
    | object =>
      simp only [hs] at hlacks hschema
      obtain ⟨he, hbare⟩ := hlacks
      cases he
      exact ⟨rfl, hschema ⟨rfl, hbare⟩⟩
    | array =>
      simp only [hs] at hlacks hschema
      obtain ⟨he, hbare⟩ := hlacks
      cases he
      exact ⟨rfl, hschema ⟨rfl, hbare⟩⟩
    | primitive =>
      simp only [hs] at hlacks hschema
      obtain ⟨rfl, hzero⟩ := of_samplePrimitive_eq_error hlacks
      exact ⟨rfl, hschema ⟨rfl, hzero⟩⟩
  · cases he
    exact ⟨rfl, .leaf hleaf⟩

/-! ## Errors -/

/-- **Errors point at nodes that are at fault.** What lacks structure and references that lead
nowhere are found behind steps to any children, and a node without an example behind steps to
properties of objects and items of arrays only. -/
theorem pointsAt_of_error (defs : Members) (root : Value) :
    (∀ e, inline defs root = .error e → e.kind = .missingStructure →
        PointsAt InlineStep defs root e (Unstructured e.cause)) ∧
      (∀ e, inline defs root = .error e ∨ (sample defs root).outcome = .error (.schema e) →
        e.kind = .unresolvedReference → PointsAt InlineStep defs root e (Dangling defs e.cause)) ∧
      ∀ e, (sample defs root).outcome = .error (.schema e) → e.kind = .noExample →
        PointsAt MandatoryStep defs root e fun node =>
          isReference node = false ∧ Exampleless e.cause node := by
  refine ⟨fun e h hkind => ?_, fun e h hkind => ?_, fun e h hkind => ?_⟩
  · obtain ⟨trail, origin, here, hway, hincomplete | hrefused⟩ := exists_way_of_inline_eq_error h
    · obtain ⟨members, cause, rfl, hnone, hmissing, rfl⟩ := hincomplete
      exact hway.pointsAt rfl (unstructured_of_missingStructure? hnone hmissing)
    · rcases hrefused.kind with hfamily | hfamily <;> simp [hkind] at hfamily
  · rcases h with h | h
    · obtain ⟨trail, origin, here, hway, hincomplete | hrefused⟩ := exists_way_of_inline_eq_error h
      · obtain ⟨members, cause, -, -, hmissing, rfl⟩ := hincomplete
        exact absurd ((kind_missingStructure? hmissing).symm.trans hkind) (by decide)
      · obtain ⟨hloc, hdangling⟩ := hrefused.dangling (by simp [hkind])
        exact hway.pointsAt hloc hdangling
    · obtain ⟨trail, origin, here, hway, hown | ⟨_, he, hrefused⟩⟩ :=
        exists_way_of_sample_eq_error h
      · exact absurd (hown.kind.symm.trans hkind) (by decide)
      · cases he
        obtain ⟨hloc, hdangling⟩ := hrefused.dangling (by simp [hkind])
        exact (hway.mono fun _ _ _ => inlineStep_of_triedStep).pointsAt hloc hdangling
  · obtain ⟨trail, origin, here, hway, hown | ⟨_, he, hrefused⟩⟩ := exists_way_of_sample_eq_error h
    · obtain ⟨hloc, hbare⟩ := hown.exampleless
      have hover : (passedOver? (.schema e)).isSome = true := by simp [passedOver?, hkind]
      exact (hway.mono fun _ _ _ => mandatoryStep_of_triedStep hover).pointsAt hloc
        ⟨hbare.not_isReference, hbare⟩
    · cases he
      rcases hrefused.kind with hfamily | hfamily <;> simp [hkind] at hfamily

/-- An owner is a list of unknown items, or a text. -/
def ownerComponents : Members :=
  [(.str "Owner", .map [(.str "oneOf", .list [.map [(.str "type", .str "array")],
    .map [(.str "type", .str "string")]])])]

/-- An object with an owner and a list whose items are not described. -/
def ownedSchema : Value :=
  .map [(.str "type", .str "object"), (.str "properties",
    .map [(.str "owner", componentReference "Owner"),
      (.str "pets", .map [(.str "type", .str "array"), (.str "items", .str "cat")])])]

/-- The branch of a component is to blame when the object is inlined, and the items of its list when
it is sampled, since the owner has another branch. A missing component is to blame where it is
referred to. -/
theorem pointsAt_of_error_ownedSchema :
    inline ownerComponents ownedSchema =
        .error ⟨.arrayWithoutItems, ⟨"#", ["properties", "owner", "oneOf", "0"]⟩⟩ ∧
      PointsAt InlineStep ownerComponents ownedSchema
        ⟨.arrayWithoutItems, ⟨"#", ["properties", "owner", "oneOf", "0"]⟩⟩
        (Unstructured .arrayWithoutItems) ∧
      PointsAt InlineStep ownerComponents (.map [(.str "anyOf", .list [componentReference "Vet"])])
        ⟨.unknownReference "#/components/schemas/Vet", ⟨"#", ["anyOf", "0"]⟩⟩
        (Dangling ownerComponents (.unknownReference "#/components/schemas/Vet")) ∧
      PointsAt MandatoryStep ownerComponents ownedSchema
        ⟨.notASchema (.str "cat"), ⟨"#", ["properties", "pets", "items"]⟩⟩
        (fun node => isReference node = false ∧ Exampleless (.notASchema (.str "cat")) node) := by
  have hinline : inline ownerComponents ownedSchema =
      .error ⟨.arrayWithoutItems, ⟨"#", ["properties", "owner", "oneOf", "0"]⟩⟩ := by cbv
  have hvet : (sample ownerComponents
        (.map [(.str "anyOf", .list [componentReference "Vet"])])).outcome =
      .error (.schema ⟨.unknownReference "#/components/schemas/Vet", ⟨"#", ["anyOf", "0"]⟩⟩) := by
    cbv
  have hsample : (sample ownerComponents ownedSchema).outcome =
      .error (.schema ⟨.notASchema (.str "cat"), ⟨"#", ["properties", "pets", "items"]⟩⟩) := by
    decide +kernel
  exact ⟨hinline, (pointsAt_of_error ownerComponents ownedSchema).1 _ hinline rfl,
    (pointsAt_of_error ownerComponents _).2.1 _ (.inr hvet) rfl,
    (pointsAt_of_error ownerComponents ownedSchema).2.2 _ hsample rfl⟩

end EndpointAtlas.Schema
