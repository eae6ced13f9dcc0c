import EndpointAtlas.Proofs.Schema.Origin

/-!
# Circles of components

A walk that comes to a component which it is opening already fails and reports a chain of names. The
chain is genuine: the components refer to each other in this order, and the last name is one of
those before it.

1. `Leads`: a node leads to references along a chain of names; `Way.leads` reads it off a way.
2. `MandatoryStep`: the steps to what every sample of a schema has to contain. A circle that is
   reported by sampling has no other steps (`mandatoryStep_of_triedStep`).
3. `circle_of_circular`: the chains that inlining and sampling report are circles.
-/

namespace EndpointAtlas.Schema

/-! ## Chains of references -/

/-- From a node a reference to the first name can be reached, from the component of that name a
reference to the second, and so on. References are followed only from one name to the next. -/
inductive Leads (S : Value → Step → Value → Prop) (defs : Members) : Value → List String → Prop
  | nil (node : Value) : Leads S defs node []
  | cons {node ref target : Value} {members : Members} {name : String} {names : List String}
      (reaches : Relation.ReflTransGen (fun a b => ∃ step, S a step b) node (.map members))
      (isReference : members.get? referenceKeyword = some ref) (refersTo : Names ref name)
      (found : defs.get? name = some target) (leads : Leads S defs target names) :
      Leads S defs node (name :: names)

variable {S : Value → Step → Value → Prop} {defs : Members} {root node : Value} {trail : Trail}
  {loc : Location} {names : List String}

theorem Leads.of_step {step : Step} {child : Value} (hstep : S node step child)
    (h : Leads S defs child names) : Leads S defs node names := by
  cases h with
  | nil => exact .nil node
  | cons hreaches href hname hget hrest =>
    exact .cons (.head ⟨step, hstep⟩ hreaches) href hname hget hrest

/-- A way leads along its trail, and on to where its end leads. -/
theorem Way.leads (h : Way S defs root trail node loc) :
    ∀ names, Leads S defs node names → Leads S defs root (trail ++ names) := by
  induction h with
  | start => exact fun names hnames => hnames
  | child _ hstep ih => exact fun names hnames => ih names (hnames.of_step hstep)
  | @component trail members ref target loc name _ href hopen ih =>
    intro names hnames
    obtain ⟨hname, -, hget⟩ := openReference_eq_ok_iff.1 hopen
    have hcons := ih (name :: names) (.cons .refl href hname hget hnames)
    rwa [List.append_assoc, List.singleton_append]

/-- A chain of names is a circle below a node: the node leads along the chain, and the last name is
the only one that stands in it twice. -/
structure Circle (S : Value → Step → Value → Prop) (defs : Members) (node : Value)
    (names : List String) (last : String) : Prop where
  nodup : names.Nodup
  known : ∀ name ∈ names, defs.has name
  closed : last ∈ names
  leads : Leads S defs node (names ++ [last])

/-- A way to a reference that is refused as circular makes a circle. -/
theorem Way.circle {chain : List String} {here : Location} (h : Way S defs root trail node loc)
    (hrefused : Refused defs trail node loc ⟨.circular chain, here⟩) :
    ∃ names last, chain = names ++ [last] ∧ Circle S defs root names last := by
  obtain ⟨members, ref, rfl, href, hopen⟩ := hrefused
  rcases openReference_eq_error_iff.1 hopen with
    ⟨-, he⟩ | ⟨name, hmem, hname, he⟩ | ⟨name, -, -, -, he⟩
  · cases he
  · cases he
    obtain ⟨target, hget⟩ := Members.has_eq_true.1 (h.trailOf.known name hmem)
    exact ⟨trail, name, rfl, h.trailOf.nodup, h.trailOf.known, hmem,
      h.leads _ (.cons .refl href hname hget (.nil target))⟩
  · cases he

/-! ## Mandatory steps -/

/-- A step to a property of an object or to the items of an array. The schema is no reference, and
its sample is made of those of its children: it declares no example. -/
inductive MandatoryStep : Value → Step → Value → Prop
  | property {members props : Members} {key : Scalar} {child : Value}
      (notReference : members.get? referenceKeyword = none)
      (noExample : declaredExample? members = none) (isObject : shape members = .object)
      (properties : members.get? "properties" = some (.map props)) (mem : (key, child) ∈ props) :
      MandatoryStep (.map members) (.property key) child
  | items {members : Members} {child : Value}
      (notReference : members.get? referenceKeyword = none)
      (noExample : declaredExample? members = none) (isArray : shape members = .array)
      (items : members.get? "items" = some child) :
      MandatoryStep (.map members) .items child

/-- A branch with a fault that is passed over is no cause of failure, so the steps to such a fault
are no branches. -/
theorem mandatoryStep_of_triedStep {fault : Fault} {step : Step} {child : Value}
    (hover : (passedOver? fault).isSome = true) (h : TriedStep defs fault node step child) :
    MandatoryStep node step child := by
  obtain ⟨members, trail, loc, rfl, hnone, hdeclared, ⟨slot, v, hslot, hv, hreached⟩, hpassed⟩ := h
  have hmem := hreached.mem
  cases slot with
  | properties =>
    cases v with
    | map props =>
      rw [Slot.children, List.mem_map] at hmem
      obtain ⟨⟨key, w⟩, hprop, heq⟩ := hmem
      cases heq
      exact .property hnone hdeclared (Option.some.inj hslot).symm hv hprop
    | _ => cases hmem
  | items =>
    obtain ⟨rfl, rfl⟩ := Prod.mk.inj (List.mem_singleton.1 hmem)
    exact .items hnone hdeclared (Option.some.inj hslot).symm hv
  | additionalProperties => cases hslot
  | branches c =>
    rw [hpassed ⟨c, (Option.some.inj hslot).symm⟩] at hover
    cases hover

theorem Way.mandatory {chain : List String} {here : Location}
    (h : Way (TriedStep defs (.schema ⟨.circular chain, here⟩)) defs root trail node loc) :
    Way MandatoryStep defs root trail node loc :=
  h.mono fun _ _ _ => mandatoryStep_of_triedStep rfl

/-! ## Reported circles -/

theorem kind_missingStructure? {members : Members} {cause : SchemaError.Cause}
    (h : missingStructure? members = some cause) : cause.kind = .missingStructure := by
  unfold missingStructure? at h
  split at h
  · split at h
    · cases h
    · cases h
      rfl
  · split at h
    · cases h
    · cases h
      rfl
  · cases h

/-- **Reported circles are genuine.** The chain of names that inlining or sampling reports is a
circle. Sampling reports only circles of mandatory steps: none of them goes to a branch, or into a
schema that declares an example. -/
theorem circle_of_circular (defs : Members) (node : Value) :
    (∀ chain loc, inline defs node = .error ⟨.circular chain, loc⟩ →
        ∃ names last, chain = names ++ [last] ∧ Circle InlineStep defs node names last) ∧
      ∀ chain loc, (sample defs node).outcome = .error (.schema ⟨.circular chain, loc⟩) →
        ∃ names last, chain = names ++ [last] ∧ Circle MandatoryStep defs node names last := by
  constructor
  · intro chain loc h
    obtain ⟨trail, origin, here, hway, hincomplete | hrefused⟩ := exists_way_of_inline_eq_error h
    · obtain ⟨members, cause, -, -, hmissing, he⟩ := hincomplete
      cases he
      cases kind_missingStructure? hmissing
    · exact hway.circle hrefused
  · intro chain loc h
    obtain ⟨trail, origin, here, hway, hown | ⟨e, he, hrefused⟩⟩ := exists_way_of_sample_eq_error h
    · rcases hown with ⟨members, -, -, -, hlacks⟩ | ⟨-, he⟩
      · cases hlacks.isSampleFault
      · cases he
    · cases he
      exact hway.mandatory.circle hrefused

/-- A list of nodes, each of which has a next node. -/
def nodeComponents : Members :=
  [(.str "List", .map [(.str "type", .str "array"), (.str "items", componentReference "Node")]),
    (.str "Node", .map [(.str "type", .str "object"), (.str "properties",
      .map [(.str "next", componentReference "Node")])])]

/-- The list leads to the circle and is no part of it. -/
theorem circle_of_circular_nodeComponents :
    (sample nodeComponents (componentReference "List")).outcome =
        .error (.schema ⟨.circular ["List", "Node", "Node"],
          ⟨"#", ["items", "properties", "next"]⟩⟩) ∧
      Circle MandatoryStep nodeComponents (componentReference "List") ["List", "Node"] "Node" := by
  have hsample : (sample nodeComponents (componentReference "List")).outcome =
      .error (.schema ⟨.circular ["List", "Node", "Node"],
        ⟨"#", ["items", "properties", "next"]⟩⟩) := by cbv
  obtain ⟨names, last, hchain, hcircle⟩ :=
    (circle_of_circular nodeComponents (componentReference "List")).2 _ _ hsample
  have hsplit : ["List", "Node"] ++ ["Node"] = names ++ [last] := hchain
  obtain ⟨rfl, hlast⟩ := List.append_inj' hsplit rfl
  cases hlast
  exact ⟨hsample, hcircle⟩

end EndpointAtlas.Schema
