import EndpointAtlas.Proofs.Schema.Sampling
import EndpointAtlas.Proofs.Schema.Trail

/-!
# Types that are no keys

The zero of a type is looked up by the type, so a type has to be a key. A declared type can be a
mapping, and of a list of types the first can be a list. Sampling then ends with a fault that no
branch passes over. Here is where that happens: at a schema that gives its sample by its type alone
(`Untypable`) and that sampling comes to (`Meets`).
-/

namespace EndpointAtlas.Schema

/-- A schema of a type that is no key, without anything else that gives it a sample. -/
structure Untypable (schema : Members) (declared : Value) : Prop where
  notReference : schema.get? referenceKeyword = none
  noExample : declaredExample? schema = none
  isPrimitive : shape schema = .primitive
  noEnum : ∀ v rest, schema.get? "enum" ≠ some (.list (v :: rest))
  type : primaryType schema = declared
  noKey : isKey declared = false

/-- Sampling a node comes to a schema of a type that is no key. -/
inductive Meets (follow : Follow (Logged Fault) Value) (declared : Value) : Value → Location → Prop
  | here {schema : Members} {loc : Location} (untypable : Untypable schema declared) :
      Meets follow declared (.map schema) loc
  | child {schema : Members} {loc : Location} {child : Step × Value}
      (notReference : schema.get? referenceKeyword = none)
      (noExample : declaredExample? schema = none) (tries : Tries follow schema loc child)
      (meets : Meets follow declared child.2 (child.1.from loc)) :
      Meets follow declared (.map schema) loc

variable {follow : Follow (Logged Fault) Value} {schema : Members} {loc : Location}
  {declared : Value}

theorem isNumeric_of_not_isKey (h : isKey declared = false) : isNumeric declared = false := by
  cases declared with
  | scalar s => cases h
  | _ => rfl

theorem samplePrimitive_eq_mistyped_iff :
    samplePrimitive schema loc = .error (.mistyped declared) ↔
      (∀ v rest, schema.get? "enum" ≠ some (.list (v :: rest))) ∧ primaryType schema = declared ∧
        isKey declared = false := by
  unfold samplePrimitive
  split
  · next v rest henum =>
    simp only [reduceCtorEq, false_iff, not_and]
    exact fun hno => absurd henum (hno v rest)
  · next hno =>
    dsimp only
    constructor
    · intro h
      refine ⟨hno, ?_⟩
      generalize (if isNumeric (primaryType schema) then schema.get? "minimum" else none) =
        minimum at h
      cases minimum with
      | some v => cases h
      | none =>
        dsimp only at h
        split at h
        · split at h <;> cases h
        · next hkey =>
          cases h
          exact ⟨rfl, Bool.eq_false_iff.2 hkey⟩
    · rintro ⟨-, rfl, hkey⟩
      rw [isNumeric_of_not_isKey hkey, hkey]
      rfl

theorem lacks_mistyped_iff :
    Lacks follow schema loc (.mistyped declared) ↔
      shape schema = .primitive ∧ samplePrimitive schema loc = .error (.mistyped declared) := by
  unfold Lacks
  cases shape schema <;> simp

/-- A schema ends sampling for want of a key by itself, or by a child that is tried: no branch passes
over this fault. -/
theorem outcome_sampleWalk_map_eq_mistyped_iff (href : schema.get? referenceKeyword = none) :
    (sampleWalk follow (.map schema) loc).outcome = .error (.mistyped declared) ↔
      Untypable schema declared ∨ declaredExample? schema = none ∧
        ∃ child, Tries follow schema loc child ∧
          (sampleWalk follow child.2 (child.1.from loc)).outcome = .error (.mistyped declared) := by
  constructor
  · intro h
    have hdeclared := declaredExample?_of_error href h
    rcases (outcome_sampleWalk_eq_error_iff href hdeclared).1 h with
      hlacks | ⟨child, htries, hchild, -⟩
    · obtain ⟨hshape, hvalue⟩ := lacks_mistyped_iff.1 hlacks
      obtain ⟨henum, htype, hkey⟩ := samplePrimitive_eq_mistyped_iff.1 hvalue
      exact .inl ⟨href, hdeclared, hshape, henum, htype, hkey⟩
    · exact .inr ⟨hdeclared, child, htries, hchild⟩
  · rintro (hself | ⟨hdeclared, child, htries, hchild⟩)
    · rw [outcome_sampleWalk_eq_error_iff href hself.noExample, lacks_mistyped_iff,
        samplePrimitive_eq_mistyped_iff]
      exact .inl ⟨hself.isPrimitive, hself.noEnum, hself.type, hself.noKey⟩
    · rw [outcome_sampleWalk_eq_error_iff href hdeclared]
      exact .inr ⟨child, htries, hchild, fun _ => rfl⟩

/-- What goes on from schemas to the children that are tried, as the fault for want of a key does,
and is at references what the fault is there, is that fault. -/
theorem outcome_sampleWalk_eq_mistyped_iff_of {Q : Value → Location → Prop}
    (leaf : ∀ node loc, (∀ members, node ≠ .map members) → ¬ Q node loc)
    (reference : ∀ schema ref loc, Members.get? schema referenceKeyword = some ref →
      ((follow ref loc).outcome = .error (.mistyped declared) ↔ Q (.map schema) loc))
    (schema : ∀ schema loc, Members.get? schema referenceKeyword = none →
      (Q (.map schema) loc ↔ Untypable schema declared ∨ declaredExample? schema = none ∧
        ∃ child, Tries follow schema loc child ∧ Q child.2 (child.1.from loc))) :
    ∀ node loc, (sampleWalk follow node loc).outcome = .error (.mistyped declared) ↔
      Q node loc := by
  refine node_induction ?_ ?_ ?_
  · intro node hleaf loc
    rw [sampleWalk_of_not_map hleaf, outcome_failAt]
    refine iff_of_false (fun h => ?_) (leaf node loc hleaf)
    cases h
  · intro members ref href loc
    rw [sampleWalk_reference href]
    exact reference members ref loc href
  · intro members href ih loc
    rw [outcome_sampleWalk_map_eq_mistyped_iff href, schema members loc href]
    refine or_congr_right (and_congr_right fun _ => exists_congr fun child =>
      and_congr_right fun htries => ih child.1 child.2 htries.isChild _)

/-- **Sampling ends for want of a key** just when it comes to a schema of a type that is no key. -/
theorem outcome_sampleWalk_eq_mistyped_iff
    (hfollow : ∀ ref loc, (follow ref loc).outcome ≠ .error (.mistyped declared)) :
    ∀ node loc, (sampleWalk follow node loc).outcome = .error (.mistyped declared) ↔
      Meets follow declared node loc := by
  refine outcome_sampleWalk_eq_mistyped_iff_of ?_ ?_ ?_
  · intro node loc hleaf h
    cases h <;> exact hleaf _ rfl
  · intro schema ref loc href
    refine iff_of_false (hfollow ref loc) fun h => ?_
    cases h with
    | here hself => rw [hself.notReference] at href; cases href
    | child hnone => rw [hnone] at href; cases href
  · intro schema loc href
    constructor
    · intro h
      cases h with
      | here hself => exact .inl hself
      | child _ hdeclared htries hmeets => exact .inr ⟨hdeclared, _, htries, hmeets⟩
    · rintro (hself | ⟨hdeclared, child, htries, hmeets⟩)
      · exact .here hself
      · exact .child href hdeclared htries hmeets

/-- A fault of sampling that says what is wrong with a schema, or that a type is no key. -/
def SchemaOrMistyped (fault : Fault) : Prop :=
  (∃ e, fault = .schema e) ∨ ∃ declared, fault = .mistyped declared

theorem schemaOrMistyped_of_sampleWalk
    (hfollow : ∀ ref loc fault, (follow ref loc).outcome = .error fault → SchemaOrMistyped fault) :
    ∀ node loc fault, (sampleWalk follow node loc).outcome = .error fault →
      SchemaOrMistyped fault := by
  refine fault_of_sampleWalk (fun fault hown => ?_) hfollow
  cases fault with
  | schema e => exact .inl ⟨e, rfl⟩
  | mistyped v => exact .inr ⟨v, rfl⟩
  | _ => exact hown.elim

/-! ## Without components -/

/-- What sampling makes of references when there are no components. -/
def withoutComponents : Follow (Logged Fault) Value :=
  followFrom (fun e => throw (.schema e)) sampleWalk [] []

theorem sample_nil (node : Value) : sample [] node = sampleWalk withoutComponents node .top :=
  visitFrom_eq (TrailOf.empty []) _ _ node .top

theorem outcome_withoutComponents (ref : Value) (loc : Location) :
    ∃ e, (withoutComponents ref loc).outcome = .error (.schema e) := by
  unfold withoutComponents followFrom
  cases hopen : openReference [] [] ref loc with
  | error e => exact ⟨e, rfl⟩
  | ok p =>
    obtain ⟨-, -, hget⟩ := openReference_eq_ok_iff.1 hopen
    cases hget

theorem outcome_withoutComponents_ne_mistyped {declared : Value} (ref : Value) (loc : Location) :
    (withoutComponents ref loc).outcome ≠ .error (.mistyped declared) := by
  obtain ⟨e, he⟩ := outcome_withoutComponents ref loc
  rw [he]
  simp

/-- A sample that fails lacks something, or comes to a type that is no key. -/
theorem outcome_sample_nil_eq_error {node : Value} {fault : Fault}
    (h : (sample [] node).outcome = .error fault) :
    (∃ e, fault = .schema e) ∨
      ∃ declared, fault = .mistyped declared ∧ Meets withoutComponents declared node .top := by
  rw [sample_nil] at h
  have hkind : SchemaOrMistyped fault := by
    refine schemaOrMistyped_of_sampleWalk (fun ref loc other hother => ?_) node .top fault h
    obtain ⟨e, he⟩ := outcome_withoutComponents ref loc
    rw [hother] at he
    cases he
    exact .inl ⟨e, rfl⟩
  refine hkind.imp_right fun ⟨declared, hdeclared⟩ => ⟨declared, hdeclared, ?_⟩
  rw [hdeclared] at h
  exact (outcome_sampleWalk_eq_mistyped_iff outcome_withoutComponents_ne_mistyped node .top).1 h

end EndpointAtlas.Schema
