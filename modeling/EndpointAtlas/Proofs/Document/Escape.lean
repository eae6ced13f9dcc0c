import EndpointAtlas.Document.Section
import EndpointAtlas.Proofs.Json
import EndpointAtlas.Proofs.Schema.Origin
import EndpointAtlas.Proofs.Schema.Untypable

/-!
# Faults that are not shown

A command about one schema shows the errors of the schema and of the document. All other faults end
the program (`Escapes`). There are two of them: the components of the document are no mapping, and
sampling comes to a schema of a type that is no key.

1. `escapes_schemas_iff`: looking the schemas up.
2. `outcome_sampleFrom_eq_mistyped_iff`: sampling, with references opened on the way.
3. `escapes_named_iff`: the two commands.
-/

namespace EndpointAtlas

/-- A fault that is shown by the commands about one schema. -/
def Fault.IsReported : Fault → Prop
  | .schema _ => True
  | .document _ => True
  | _ => False

/-- A computation ends with a fault that is not shown. -/
def Escapes {α : Type} (x : Logged Fault α) (fault : Fault) : Prop :=
  x.outcome = .error fault ∧ ¬ fault.IsReported

theorem Escapes.bind_iff {α β : Type} {x : Logged Fault α} {f : α → Logged Fault β}
    {fault : Fault} :
    Escapes (x >>= f) fault ↔ Escapes x fault ∨ ∃ a, x.outcome = .ok a ∧ Escapes (f a) fault := by
  unfold Escapes
  rw [Logged.outcome_bind, Outcome.bind_eq_error_iff, or_and_right, ← exists_and_right]
  simp only [and_assoc]

/-- Errors of schemas are shown. -/
theorem not_escapes_ofExcept_mapError {α : Type} (x : Except SchemaError α) {fault : Fault} :
    ¬ Escapes (Logged.ofExcept (x.mapError .schema)) fault := by
  rintro ⟨herror, hescapes⟩
  rw [Logged.outcome_ofExcept] at herror
  cases x with
  | ok a => cases herror
  | error e =>
    cases herror
    exact hescapes trivial

/-! ## Sampling with components -/

namespace Schema

/-- Sampling a node, with some components open, comes to a schema of a type that is no key. The way
there may lead through references. -/
inductive Strands (defs : Members) (declared : Value) : Trail → Value → Location → Prop
  | here {trail : Trail} {schema : Members} {loc : Location}
      (untypable : Untypable schema declared) : Strands defs declared trail (.map schema) loc
  | child {trail : Trail} {schema : Members} {loc : Location} {child : Step × Value}
      (notReference : schema.get? referenceKeyword = none)
      (noExample : declaredExample? schema = none)
      (tries : Tries (sampleFollow defs trail) schema loc child)
      (strands : Strands defs declared trail child.2 (child.1.from loc)) :
      Strands defs declared trail (.map schema) loc
  | component {trail : Trail} {schema : Members} {ref target : Value} {loc : Location}
      {name : String} (isReference : schema.get? referenceKeyword = some ref)
      (opens : openReference defs trail ref loc = .ok (name, target))
      (strands : Strands defs declared (trail ++ [name]) target loc) :
      Strands defs declared trail (.map schema) loc

variable {defs : Members} {trail : Trail} {declared : Value}

/-- On one trail, given the components that can still be opened. -/
theorem outcome_sampleWalk_eq_mistyped_iff_strands
    (hcomponents : ∀ ref loc, (sampleFollow defs trail ref loc).outcome =
        .error (.mistyped declared) ↔
      ∃ name target, openReference defs trail ref loc = .ok (name, target) ∧
        Strands defs declared (trail ++ [name]) target loc) :
    ∀ node loc, (sampleWalk (sampleFollow defs trail) node loc).outcome =
        .error (.mistyped declared) ↔ Strands defs declared trail node loc := by
  refine outcome_sampleWalk_eq_mistyped_iff_of ?_ ?_ ?_
  · intro node loc hleaf h
    cases h <;> exact hleaf _ rfl
  · intro schema ref loc href
    rw [hcomponents]
    constructor
    · rintro ⟨name, target, hopen, hstrands⟩
      exact .component href hopen hstrands
    · intro h
      cases h with
      | here hself => rw [hself.notReference] at href; cases href
      | child hnone => rw [hnone] at href; cases href
      | component href' hopen hstrands =>
        rw [href] at href'
        cases href'
        exact ⟨_, _, hopen, hstrands⟩
  · intro schema loc href
    constructor
    · intro h
      cases h with
      | here hself => exact .inl hself
      | child _ hdeclared htries hstrands => exact .inr ⟨hdeclared, _, htries, hstrands⟩
      | component href' => rw [href] at href'; cases href'
    · rintro (hself | ⟨hdeclared, child, htries, hstrands⟩)
      · exact .here hself
      · exact .child href hdeclared htries hstrands

/-- **Sampling ends for want of a key** just when it comes to a schema of a type that is no key. -/
theorem outcome_sampleFrom_eq_mistyped_iff (htrail : TrailOf defs trail) :
    ∀ node loc, (sampleFrom defs trail node loc).outcome = .error (.mistyped declared) ↔
      Strands defs declared trail node loc := by
  refine TrailOf.induction (P := fun trail => ∀ node loc,
    (sampleFrom defs trail node loc).outcome = .error (.mistyped declared) ↔
      Strands defs declared trail node loc) ?_ htrail
  intro trail htrail ih node loc
  rw [sampleFrom, visitFrom_eq htrail]
  refine outcome_sampleWalk_eq_mistyped_iff_strands (fun ref here => ?_) node loc
  unfold sampleFollow followFrom
  cases hopen : openReference defs trail ref here with
  | error e =>
    refine iff_of_false (fun h => ?_) ?_
    · cases h
    · rintro ⟨name, target, h, -⟩
      cases h
  | ok opened =>
    obtain ⟨-, hnew, hget⟩ := openReference_eq_ok_iff.1 hopen
    have hcomponent := ih opened.1 opened.2 hnew hget opened.2 here
    constructor
    · intro h
      exact ⟨opened.1, opened.2, rfl, hcomponent.1 h⟩
    · rintro ⟨name, target, h, hstrands⟩
      cases h
      exact hcomponent.2 hstrands

/-- The faults of sampling with components are those of schemas and of types that are no keys. -/
theorem schemaOrMistyped_of_sampleFrom (htrail : TrailOf defs trail) :
    ∀ node loc fault, (sampleFrom defs trail node loc).outcome = .error fault →
      SchemaOrMistyped fault := by
  refine TrailOf.induction (P := fun trail => ∀ node loc fault,
    (sampleFrom defs trail node loc).outcome = .error fault → SchemaOrMistyped fault) ?_ htrail
  intro trail htrail ih node loc fault h
  rw [sampleFrom, visitFrom_eq htrail] at h
  refine schemaOrMistyped_of_sampleWalk (fun ref here other hother => ?_) node loc fault h
  unfold followFrom at hother
  cases hopen : openReference defs trail ref here with
  | error e =>
    rw [hopen] at hother
    cases hother
    exact .inl ⟨e, rfl⟩
  | ok opened =>
    obtain ⟨-, hnew, hget⟩ := openReference_eq_ok_iff.1 hopen
    rw [hopen] at hother
    exact ih opened.1 opened.2 hnew hget opened.2 here other hother

/-- The faults of sampling a component by its name. -/
theorem escapes_sampleNamed_iff {name : String} {fault : Fault} :
    Escapes (sampleNamed defs name) fault ↔ defs.has name = true ∧
      ∃ declared, fault = .mistyped declared ∧
        Strands defs declared [] (componentReference name) .top := by
  have htrail := TrailOf.empty defs
  unfold sampleNamed visitNamed
  by_cases hname : defs.has name = true
  · rw [if_pos hname]
    change Escapes (sampleFrom defs [] (componentReference name) .top) fault ↔ _
    constructor
    · rintro ⟨herror, hescapes⟩
      rcases schemaOrMistyped_of_sampleFrom htrail _ _ fault herror with ⟨e, rfl⟩ | ⟨declared, rfl⟩
      · exact absurd trivial hescapes
      · exact ⟨hname, declared, rfl, (outcome_sampleFrom_eq_mistyped_iff htrail _ _).1 herror⟩
    · rintro ⟨-, declared, rfl, hstrands⟩
      exact ⟨(outcome_sampleFrom_eq_mistyped_iff htrail _ _).2 hstrands, id⟩
  · rw [if_neg hname]
    refine iff_of_false ?_ fun h => hname h.1
    rintro ⟨herror, hescapes⟩
    cases herror
    exact hescapes trivial

end Schema

/-! ## Looking the schemas up -/

namespace Document

open Schema (Strands componentReference)

/-- The components of a document are given, and they are no mapping. -/
structure Partless (doc : Members) : Prop where
  given : (doc.getD "components").isTruthy = true
  noMapping : ∀ members, doc.getD "components" ≠ .map members

variable {doc : Members} {fault : Fault} {name : String}

theorem escapes_schemas_iff :
    Escapes (schemas doc) fault ↔ Partless doc ∧ fault = .partless (doc.getD "components") := by
  unfold schemas
  by_cases hgiven : (doc.getD "components").isTruthy = true
  · simp only [hgiven, Bool.not_true, Bool.false_eq_true, if_false, pure_bind]
    cases hcomponents : doc.getD "components" with
    | map members =>
      refine iff_of_false (fun h => ?_) fun h => h.1.noMapping members hcomponents
      obtain ⟨herror, hescapes⟩ := h
      dsimp only at herror
      split at herror <;> cases herror
      exact hescapes trivial
    | _ =>
      constructor
      · rintro ⟨herror, -⟩
        cases herror
        refine ⟨⟨hgiven, fun members h => ?_⟩, rfl⟩
        rw [hcomponents] at h
        cases h
      · rintro ⟨-, rfl⟩
        exact ⟨rfl, id⟩
  · simp only [hgiven, Bool.not_false, if_true, pure_bind]
    refine iff_of_false (fun h => ?_) fun h => hgiven h.1.given
    cases h.1

/-- The component of a name in a document without references. -/
def inlineNamed (doc : Members) (name : String) : Logged Fault Value := do
  let defs ← schemas doc
  Logged.ofExcept ((Schema.inlineNamed defs name).mapError .schema)

/-- A sample of the component of a name in a document. -/
def sampleNamed (doc : Members) (name : String) : Logged Fault Value := do
  let defs ← schemas doc
  Schema.sampleNamed defs name

/-- **Which faults are not shown.** A command about one schema ends with a fault that is not shown
when the components of the document are no mapping; sampling does so, too, when it comes to a schema
of a type that is no key; and there are no other such faults. -/
theorem escapes_named_iff (doc : Members) (name : String) (fault : Fault) :
    (Escapes (inlineNamed doc name) fault ↔
        Partless doc ∧ fault = .partless (doc.getD "components")) ∧
      (Escapes (sampleNamed doc name) fault ↔
        (Partless doc ∧ fault = .partless (doc.getD "components")) ∨
        ∃ defs declared, (schemas doc).outcome = .ok defs ∧ defs.has name = true ∧
          fault = .mistyped declared ∧
          Strands defs declared [] (componentReference name) .top) := by
  constructor
  · rw [inlineNamed, Escapes.bind_iff, escapes_schemas_iff]
    refine or_iff_left ?_
    rintro ⟨defs, -, hescapes⟩
    exact not_escapes_ofExcept_mapError _ hescapes
  · rw [sampleNamed, Escapes.bind_iff, escapes_schemas_iff]
    refine or_congr_right (exists_congr fun defs => ?_)
    rw [Schema.escapes_sampleNamed_iff]
    constructor
    · rintro ⟨hdefs, hname, declared, hfault, hstrands⟩
      exact ⟨declared, hdefs, hname, hfault, hstrands⟩
    · rintro ⟨declared, hdefs, hname, hfault, hstrands⟩
      exact ⟨hdefs, hname, declared, hfault, hstrands⟩

/-- A document whose components are a list. -/
def listDocument : Members := [(.str "components", .list [.int 1])]

/-- A document with a schema whose type is a mapping. -/
def untypableDocument : Members :=
  [(.str "components", .map [(.str "schemas", .map
    [(.str "Untypable", .map [(.str "type", .map [])])])])]

/-- There are documents of JSON with which the commands end by faults that are not shown. -/
theorem escapes_listDocument_and_untypableDocument :
    (Value.isJson (.map listDocument) = true ∧ Value.isJson (.map untypableDocument) = true) ∧
      Escapes (inlineNamed listDocument "Untypable") (.partless (.list [.int 1])) ∧
      Escapes (sampleNamed listDocument "Untypable") (.partless (.list [.int 1])) ∧
      Escapes (sampleNamed untypableDocument "Untypable") (.mistyped (.map [])) :=
  ⟨⟨rfl, rfl⟩, ⟨by cbv, id⟩, ⟨by cbv, id⟩, ⟨by cbv, id⟩⟩

end Document

end EndpointAtlas
