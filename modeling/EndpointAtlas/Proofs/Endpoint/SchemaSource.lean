import EndpointAtlas.Proofs.Endpoint.Schemas
import EndpointAtlas.Proofs.Endpoint.Shape

/-!
# Where the schemas of records come from

A record of a parameter or a body keeps its schema inlined. If the schema was declared by a
reference, the record also keeps the name of the component.

The name is read off the end of the reference, and the schema is found by a stricter reader of the
same text. Both read the same name of a reference that can be inlined.

1. `referencedName?_of_names`: the end of a reference is the name of its component.
2. `inline_reference_eq_ok_iff`: inlining a reference is inlining a component by its name.
3. `SchemaSource`: what the name in a record tells; `schemaSource_of_records` shows it of all
   parameters and bodies.
-/

namespace EndpointAtlas

namespace Schema

variable {defs members : Members} {ref r : Value} {name : String}

/-! ## Names and references -/

/-- A text that ends in a slash and a name without slashes has that name at its end. -/
theorem takeWhile_reverse_append {before name : List Char} (h : '/' ∉ name) :
    ((before ++ '/' :: name).reverse.takeWhile (· ≠ '/')).reverse = name := by
  have hname : ∀ c ∈ name.reverse, (decide (c ≠ '/')) = true := by
    intro c hc
    rw [List.mem_reverse] at hc
    simpa using ne_of_mem_of_not_mem hc h
  rw [List.reverse_append, List.reverse_cons, List.append_assoc,
    List.takeWhile_append_of_pos hname]
  simp

/-- The end of a reference is the name of its component. -/
theorem referencedName?_of_names (href : members.get? referenceKeyword = some ref)
    (h : Names ref name) : referencedName? (.map members) = some name := by
  obtain rfl := h.text
  have hbefore : componentPrefix.toList = "#/components/schemas".toList ++ ['/'] := by decide
  have hsplit : (componentPrefix ++ name).toList =
      "#/components/schemas".toList ++ '/' :: name.toList := by
    rw [String.toList_append, hbefore, List.append_assoc, List.singleton_append]
  have hprefix : componentPrefix.toList.isPrefixOf (componentPrefix ++ name).toList = true := by
    rw [List.isPrefixOf_iff_prefix, String.toList_append]
    exact List.prefix_append _ _
  simp only [referencedName?, href, hprefix, if_true]
  rw [hsplit, takeWhile_reverse_append h.no_slash, String.ofList_toList]

theorem referencedName?_of_not_isReference {node : Value} (h : isReference node = false) :
    referencedName? node = none := by
  cases node with
  | map members => simp [referencedName?, isReference_map.1 h]
  | _ => rfl

theorem unfolds_reference_iff (href : members.get? referenceKeyword = some ref) :
    Unfolds defs (.map members) r ↔
      ∃ name target, Names ref name ∧ defs.get? name = some target ∧ Unfolds defs target r := by
  constructor
  · intro h
    cases h with
    | reference href' hname hget htarget =>
      cases href.symm.trans href'
      exact ⟨_, _, hname, hget, htarget⟩
    | leaf hleaf => exact absurd rfl (hleaf members)
    | schema hnone => rw [href] at hnone; cases hnone
  · rintro ⟨name, target, hname, hget, htarget⟩
    exact .reference href hname hget htarget

/-- A name that a reference can hold is inlined if its component unfolds. -/
theorem inlineNamed_eq_ok_iff (h : Names ref name) :
    inlineNamed defs name = .ok r ↔
      ∃ target, defs.get? name = some target ∧ Unfolds defs target r := by
  have hself : Names (.str (componentPrefix ++ name)) name := ⟨rfl, h.ne_empty, h.no_slash⟩
  unfold inlineNamed visitNamed
  constructor
  · intro hr
    split at hr
    · obtain ⟨name', target, hname', hget, htarget⟩ :=
        (unfolds_reference_iff rfl).1 (unfolds_of_inline hr)
      obtain rfl := hname'.unique hself
      exact ⟨target, hget, htarget⟩
    · cases hr
  · rintro ⟨target, hget, htarget⟩
    rw [if_pos (Members.has_eq_true.2 ⟨target, hget⟩)]
    exact inline_of_unfolds (.reference rfl hself hget htarget)

/-- Inlining a reference is inlining the component that it names. -/
theorem inline_reference_eq_ok_iff (href : members.get? referenceKeyword = some ref) :
    inline defs (.map members) = .ok r ↔
      ∃ name, Names ref name ∧ inlineNamed defs name = .ok r := by
  constructor
  · intro h
    obtain ⟨name, target, hname, hget, htarget⟩ :=
      (unfolds_reference_iff href).1 (unfolds_of_inline h)
    exact ⟨name, hname, (inlineNamed_eq_ok_iff hname).2 ⟨target, hget, htarget⟩⟩
  · rintro ⟨name, hname, h⟩
    obtain ⟨target, hget, htarget⟩ := (inlineNamed_eq_ok_iff hname).1 h
    exact inline_of_unfolds (.reference href hname hget htarget)

end Schema

open Schema (Names inline inlineNamed isReference referenceKeyword)

/-! ## Records -/

/-- Where an inlined schema comes from, by the name that is kept with it. With a name, the declared
schema is a reference to that component, and the schema is what inlining the component gives.
Without one it is what inlining the declared schema gives, which is no reference. -/
inductive SchemaSource (defs : Members) (declared : Value) (schema : Members) :
    Option String → Prop
  | component {members : Members} {ref target : Value} {name : String}
      (declares : declared = .map members)
      (isReference : members.get? referenceKeyword = some ref) (names : Names ref name)
      (found : defs.get? name = some target) (inlined : inlineNamed defs name = .ok (.map schema)) :
      SchemaSource defs declared schema (some name)
  | inPlace (notReference : isReference declared = false)
      (inlined : inline defs declared = .ok (.map schema)) : SchemaSource defs declared schema none

variable {defs : Members}

theorem schemaSource_of_inline {declared : Value} {schema : Members}
    (h : inline defs declared = .ok (.map schema)) :
    SchemaSource defs declared schema (Schema.referencedName? declared) := by
  by_cases hreference : isReference declared = true
  · cases declared with
    | map members =>
      obtain ⟨ref, href⟩ := Members.has_eq_true.1 hreference
      obtain ⟨name, hname, hinlined⟩ := (Schema.inline_reference_eq_ok_iff href).1 h
      obtain ⟨target, hget, -⟩ := (Schema.inlineNamed_eq_ok_iff hname).1 hinlined
      rw [Schema.referencedName?_of_names href hname]
      exact .component rfl href hname hget hinlined
    | _ => cases hreference
  · have hnot : isReference declared = false := by simpa using hreference
    rw [Schema.referencedName?_of_not_isReference hnot]
    exact .inPlace hnot h

theorem Parameter.Describes.schemaSource {fields : Members} {p : Parameter}
    (h : Describes defs fields p) :
    SchemaSource defs (declaredSchema fields) p.schema p.refName := by
  rw [← h.refName]
  exact schemaSource_of_inline (inline_of_inlinedSchema h.schema)

theorem Body.Describes.schemaSource {mediaType : String} {fields : Members} {b : Body}
    (h : Describes defs mediaType fields b) :
    SchemaSource defs (declaredSchema fields) b.schema b.refName := by
  rw [← h.refName]
  exact schemaSource_of_inline (inline_of_inlinedSchema h.schema)

/-- **The name in a record tells where its schema comes from.** This holds of all parameters of a
list, each with the entry that describes it, and of all bodies, with the entry of the content map
that is used. Both readers of references find the same name wherever the stricter one finds one:
behind the component prefix, not empty and without slashes. -/
theorem schemaSource_of_records (defs : Members) :
    (∀ values params, (Parameter.ofValues defs values).outcome = .ok params →
        List.Forall₂ (fun fields p => SchemaSource defs (declaredSchema fields) p.schema p.refName)
          (Parameter.described values) params) ∧
      (∀ content loc b, Body.ofContent defs content loc = .ok (some b) →
        ∃ members mediaType entry fields, content = .map members ∧
          Media.selected? members = some (.str mediaType, entry) ∧
          Media.givenEntry entry = .map fields ∧
          SchemaSource defs (declaredSchema fields) b.schema b.refName) ∧
      ∀ text name loc,
        (Schema.componentName (.str text) loc = .ok name ↔
          text = Schema.componentPrefix ++ name ∧ name ≠ "" ∧ '/' ∉ name.toList) ∧
        (Schema.componentName (.str text) loc = .ok name →
          Schema.referencedName? (.map [(.str referenceKeyword, .str text)]) = some name) := by
  refine ⟨fun values params h => ?_, fun content loc b h => ?_, fun text name loc => ⟨?_, ?_⟩⟩
  · obtain ⟨-, hdescribed⟩ := Parameter.outcome_ofValues_eq_ok_iff.1 h
    exact hdescribed.imp fun _ _ hp => hp.schemaSource
  · cases Body.content_of_ofContent h with
    | entry hselected hgiven hread =>
      exact ⟨_, _, _, _, rfl, hselected, hgiven, (Body.describes_of_ofEntry hread).schemaSource⟩
  · rw [Schema.componentName_eq_ok_iff]
    constructor
    · rintro ⟨htext, hempty, hslash⟩
      exact ⟨by simpa using htext, hempty, hslash⟩
    · rintro ⟨htext, hempty, hslash⟩
      exact ⟨congrArg Value.str htext, hempty, hslash⟩
  · intro h
    exact Schema.referencedName?_of_names rfl (Schema.componentName_eq_ok_iff.1 h)

/-- Ids are keys, and keys are integers. -/
def idComponents : Members :=
  [(.str "Id", Schema.componentReference "Key"), (.str "Key", .map [(.str "type", .str "integer")])]

/-- Parameters: one behind a reference, one with an id and one with a text. -/
def idValues : List Value :=
  [.map [(.str "$ref", .str "#/components/parameters/Page")],
    .map [(.str "name", .str "id"), (.str "schema", Schema.componentReference "Id")],
    .map [(.str "name", .str "q"), (.str "schema", .map [(.str "type", .str "string")])]]

/-- A content map with an id. -/
def idContent : Value :=
  .map [(.str "application/json", .map [(.str "schema", Schema.componentReference "Id")])]

/-- The name that is kept is the one that was declared, though the component is itself a reference.
A line break may be a part of a name. -/
theorem schemaSource_of_records_id :
    (∃ p q, (Parameter.ofValues idComponents idValues).outcome = .ok [p, q] ∧
      SchemaSource idComponents (Schema.componentReference "Id") p.schema (some "Id") ∧
      SchemaSource idComponents (.map [(.str "type", .str "string")]) q.schema none) ∧
    (∃ b, Body.ofContent idComponents idContent .top = .ok (some b) ∧
      SchemaSource idComponents (Schema.componentReference "Id") b.schema (some "Id")) ∧
    Schema.referencedName? (.map [(.str "$ref", .str "#/components/schemas/Id\n")]) =
      some "Id\n" := by
  obtain ⟨hparams, hbodies, hnames⟩ := schemaSource_of_records idComponents
  have hvalues : (Parameter.ofValues idComponents idValues).outcome =
      .ok [⟨"id", .query, false, [(.str "type", .str "integer")], .null, some "Id", ""⟩,
        ⟨"q", .query, false, [(.str "type", .str "string")], .null, none, ""⟩] := by
    decide +kernel
  have hcontent : Body.ofContent idComponents idContent .top =
      .ok (some ⟨"application/json", [(.str "type", .str "integer")], false, .null,
        some "Id"⟩) := by
    decide +kernel
  refine ⟨⟨_, _, hvalues, ?_⟩, ⟨_, hcontent, ?_⟩, ?_⟩
  · have hdescribed : Parameter.described idValues =
        [[(.str "name", .str "id"), (.str "schema", Schema.componentReference "Id")],
          [(.str "name", .str "q"), (.str "schema", .map [(.str "type", .str "string")])]] := rfl
    have hsources := hparams _ _ hvalues
    rw [hdescribed, List.forall₂_cons, List.forall₂_cons] at hsources
    exact ⟨hsources.1, hsources.2.1⟩
  · obtain ⟨members, mediaType, entry, fields, hmembers, hselected, hgiven, hbody⟩ :=
      hbodies _ _ _ hcontent
    cases hmembers
    cases hselected
    cases hgiven
    exact hbody
  · exact (hnames _ "Id\n" .top).2 ((hnames _ _ _).1.2 ⟨rfl, by decide, by decide⟩)

end EndpointAtlas
