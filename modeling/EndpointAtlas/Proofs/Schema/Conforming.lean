import EndpointAtlas.Proofs.Schema.Conformance

/-!
# Samples conform

A sample conforms to its schema as samples read schemas, and where composite keywords stand alone
also as the standard reads them. Declared examples and listed values are taken as they are, so the
schemas have to be without any (`Bare`).

1. `typed_of_samplePrimitive`: primitive samples are of the declared type and not below a minimum.
2. `accepts_of_sample`: by induction on the trail, and on the schema for each trail.
3. `not_standard_of_sample`: a sample need not conform to all branches of `allOf`.
-/

namespace EndpointAtlas.Schema

/-! ## Primitive schemas -/

/-- A schema leaves its sample to its type: no example is declared, no values are listed, and a
minimum is an integer. -/
structure Bare (members : Members) : Prop where
  noExample : members.get? "example" = none
  noExamples : members.get? "examples" = none
  noEnum : members.get? "enum" = none
  minimum : ∀ least, members.get? "minimum" = some least → ∃ n, least = .int n

variable {members : Members} {loc : Location} {v : Value}

theorem Bare.declaredExample?_eq_none (h : Bare members) : declaredExample? members = none := by
  unfold declaredExample?
  rw [h.noExample, h.noExamples]

theorem hasType_of_zeroValue? {declared : Value} (h : zeroValue? declared = some v) :
    HasType declared v := by
  unfold zeroValue? at h
  split at h
  case h_6 => cases h
  all_goals
    cases h
    constructor <;> simp

theorem hasType_int {declared : Value} (h : isNumeric declared = true) (n : Int) :
    HasType declared (.int n) := by
  unfold isNumeric at h
  rw [Bool.or_eq_true, decide_eq_true_iff, decide_eq_true_iff] at h
  rcases h with rfl | rfl
  all_goals constructor <;> simp

/-- The sample of a bare primitive schema is its minimum, or else the zero of its type. -/
theorem cases_of_samplePrimitive (hbare : Bare members)
    (h : samplePrimitive members loc = .ok v) :
    (isNumeric (primaryType members) = true ∧ ∃ n, members.get? "minimum" = some (.int n) ∧
        v = .int n) ∨
      (isNumeric (primaryType members) = true → members.get? "minimum" = none) ∧
        zeroValue? (primaryType members) = some v := by
  unfold samplePrimitive at h
  rw [hbare.noEnum] at h
  dsimp only at h
  generalize hleast : (if isNumeric (primaryType members) then members.get? "minimum" else none) =
    least at h
  cases least with
  | some w =>
    cases h
    split at hleast
    · next hnumeric =>
      obtain ⟨n, rfl⟩ := hbare.minimum v hleast
      exact .inl ⟨hnumeric, n, hleast, rfl⟩
    · cases hleast
  | none =>
    refine .inr ⟨fun hnumeric => ?_, ?_⟩
    · rwa [if_pos hnumeric] at hleast
    · dsimp only at h
      split at h
      · split at h
        · next w hzero =>
          cases h
          exact hzero
        · cases h
      · cases h

/-- Primitive samples have the declared type, and those of numbers respect the minimum. -/
theorem typed_of_samplePrimitive (hbare : Bare members)
    (h : samplePrimitive members loc = .ok v) :
    HasType (primaryType members) v ∧ (isNumeric (primaryType members) = true → ∀ least : Int,
      members.get? "minimum" = some (.int least) → AtLeast least v) := by
  rcases cases_of_samplePrimitive hbare h with ⟨hnumeric, n, hn, rfl⟩ | ⟨hnone, hzero⟩
  · refine ⟨hasType_int hnumeric n, fun _ least hleast => ?_⟩
    rw [hn] at hleast
    cases hleast
    exact Int.le_refl n
  · refine ⟨hasType_of_zeroValue? hzero, fun hnumeric least hleast => ?_⟩
    rw [hnone hnumeric] at hleast
    cases hleast

/-! ## What samples read -/

/-- What the shape of a schema says of its branches and its declared type. -/
theorem shape_spec (members : Members) :
    match shape members with
    | .composite c => ∃ branches, compositeBranches? members = some (c, branches)
    | .object => compositeBranches? members = none ∧ primaryType members = .str "object"
    | .array => compositeBranches? members = none ∧ primaryType members = .str "array"
    | .primitive => compositeBranches? members = none ∧ primaryType members ≠ .str "object" ∧
        primaryType members ≠ .str "array" := by
  unfold shape
  cases hbranches : compositeBranches? members with
  | some p => exact ⟨p.2, rfl⟩
  | none =>
    dsimp only
    by_cases hobject : primaryType members = .str "object"
    · rw [if_pos hobject]
      exact ⟨rfl, hobject⟩
    · rw [if_neg hobject]
      by_cases harray : primaryType members = .str "array"
      · rw [if_pos harray]
        exact ⟨rfl, harray⟩
      · rw [if_neg harray]
        exact ⟨rfl, hobject, harray⟩

section

variable {defs : Members}

theorem sampled_of_composite {c : Composite} {branches : List Value}
    (h : compositeBranches? members = some (c, branches)) :
    Reading.sampled.choices members = [branches] ∧ Reading.sampled.type members = .null := by
  unfold Reading.sampled
  simp [h]

theorem sampled_of_not_composite (h : compositeBranches? members = none) :
    Reading.sampled.choices members = [] ∧
      Reading.sampled.type members = primaryType members := by
  unfold Reading.sampled
  simp [h]

theorem Accepts.of_branch {c : Composite} {branches : List Value} {branch : Value}
    (hnone : members.get? referenceKeyword = none)
    (hbranches : compositeBranches? members = some (c, branches)) (hmem : branch ∈ branches)
    (h : Accepts .sampled defs branch v) : Accepts .sampled defs (.map members) v := by
  obtain ⟨hchoices, htype⟩ := sampled_of_composite hbranches
  refine .schema (fun _ => branch) (fun _ => .null) hnone ?_ ?_ ?_ ?_ ?_ ?_ ?_ <;>
    simp only [hchoices, htype, List.mem_singleton, forall_eq]
  · exact hmem
  · exact h
  · constructor <;> simp
  all_goals simp [isNumeric]

theorem Accepts.of_object {ws : Members} (hnone : members.get? referenceKeyword = none)
    (hshape : compositeBranches? members = none) (hobject : primaryType members = .str "object")
    (h : ∀ k s, (propertySchemas members).lookup k = some s →
      ∃ w, ws.lookup k = some w ∧ Accepts .sampled defs s w) :
    Accepts .sampled defs (.map members) (.map ws) := by
  obtain ⟨hchoices, htype⟩ := sampled_of_not_composite hshape
  have hpart : ∀ k, ∃ w, ∀ s, (propertySchemas members).lookup k = some s →
      ws.lookup k = some w ∧ Accepts .sampled defs s w := by
    intro k
    cases hk : (propertySchemas members).lookup k with
    | none => exact ⟨.null, by simp⟩
    | some s =>
      obtain ⟨w, hw⟩ := h k s hk
      refine ⟨w, fun s' hs' => ?_⟩
      cases hs'
      exact hw
  choose part hpart using hpart
  refine .schema (fun _ => .null) part hnone ?_ ?_ ?_ ?_ ?_ ?_ ?_ <;>
    simp only [hchoices, htype, hobject, List.not_mem_nil, false_imp_iff, implies_true]
  · constructor <;> simp
  · simp [isNumeric]
  · intro _ ws' heq k s hs
    cases heq
    exact (hpart k s hs).1
  · exact fun _ k s hs => (hpart k s hs).2
  · simp

theorem Accepts.of_array {ws : List Value} (hnone : members.get? referenceKeyword = none)
    (hshape : compositeBranches? members = none) (harray : primaryType members = .str "array")
    (h : ∀ s, members.get? "items" = some s → ∀ w ∈ ws, Accepts .sampled defs s w) :
    Accepts .sampled defs (.map members) (.list ws) := by
  obtain ⟨hchoices, htype⟩ := sampled_of_not_composite hshape
  refine .schema (fun _ => .null) (fun _ => .null) hnone ?_ ?_ ?_ ?_ ?_ ?_ ?_ <;>
    simp only [hchoices, htype, harray, List.not_mem_nil, false_imp_iff, implies_true]
  · constructor <;> simp
  · simp [isNumeric]
  · simp
  · simp
  · intro _ ws' heq
    cases heq
    exact h

theorem Accepts.of_primitive (hnone : members.get? referenceKeyword = none)
    (hshape : compositeBranches? members = none) (hobject : primaryType members ≠ .str "object")
    (harray : primaryType members ≠ .str "array") (htype : HasType (primaryType members) v)
    (hminimum : isNumeric (primaryType members) = true → ∀ least : Int,
      members.get? "minimum" = some (.int least) → AtLeast least v) :
    Accepts .sampled defs (.map members) v := by
  obtain ⟨hchoices, heq⟩ := sampled_of_not_composite hshape
  refine .schema (fun _ => .null) (fun _ => .null) hnone ?_ ?_ ?_ ?_ ?_ ?_ ?_ <;>
    simp only [hchoices, heq, List.not_mem_nil, false_imp_iff, implies_true]
  · exact htype
  · exact hminimum
  · exact fun h => absurd h hobject
  · exact fun h => absurd h hobject
  · exact fun h => absurd h harray

end

/-! ## Samples -/

variable {defs : Members} {node : Value}

/-- Values under the same keys, one by one related, are related wherever a key is looked up. -/
theorem lookup_of_forall₂ {props ws : Members} {R : Scalar × Value → Scalar × Value → Prop}
    (h : List.Forall₂ (fun p q => p.1 = q.1 ∧ R p q) props ws) {k : Scalar} {s : Value}
    (hs : props.lookup k = some s) : ∃ w, ws.lookup k = some w ∧ R (k, s) (k, w) := by
  induction h with
  | nil => cases hs
  | @cons p q props ws hpq _ ih =>
    obtain ⟨pk, pv⟩ := p
    obtain ⟨qk, qv⟩ := q
    obtain ⟨heq, hR⟩ := hpq
    cases heq
    rw [List.lookup_cons] at hs ⊢
    by_cases hk : k = pk
    · subst hk
      simp only [beq_self_eq_true] at hs ⊢
      cases hs
      exact ⟨qv, rfl, hR⟩
    · rw [beq_eq_false_iff_ne.2 hk] at hs ⊢
      exact ih hs

section

variable {follow : Follow (Logged Fault) Value}

/-- The sample of a schema conforms when those of its children do. -/
theorem accepts_of_children (hnone : members.get? referenceKeyword = none) (hbare : Bare members)
    (hchildren : ∀ step child, IsChild (.map members) step child → ∀ here w,
      (sampleWalk follow child here).outcome = .ok w → Accepts .sampled defs child w)
    (h : (sampleWalk follow (.map members) loc).outcome = .ok v) :
    Accepts .sampled defs (.map members) v := by
  have hsample := cases_of_outcome_sampleWalk_eq_ok hnone hbare.declaredExample?_eq_none h
  have hspec := shape_spec members
  cases hs : shape members with
  | composite c =>
    rw [hs] at hsample hspec
    obtain ⟨branches, hbranches⟩ := hspec
    obtain ⟨own, hown, branch, hmem, here, hbranch⟩ := hsample
    have hget := compositeBranches?_eq_some hbranches
    rw [hown] at hget
    cases hget
    obtain ⟨i, hchild⟩ := IsChild.branch hown hmem
    exact .of_branch hnone hbranches hmem (hchildren _ branch hchild here v hbranch)
  | object =>
    rw [hs] at hsample hspec
    obtain ⟨props, ws, hprops, rfl, hws⟩ := hsample
    refine .of_object hnone hspec.1 hspec.2 fun k s hlookup => ?_
    obtain ⟨own, hown, hmem⟩ := mem_of_lookup_propertySchemas hlookup
    unfold propertySchemas at hlookup
    rw [hown] at hlookup
    cases hown.symm.trans hprops
    obtain ⟨w, hw, hsampled⟩ := lookup_of_forall₂ hws hlookup
    exact ⟨w, hw, hchildren _ s (.property hown hmem) _ w hsampled⟩
  | array =>
    rw [hs] at hsample hspec
    obtain ⟨items, w, hitems, rfl, hw⟩ := hsample
    refine .of_array hnone hspec.1 hspec.2 fun s hget u hu => ?_
    cases hget.symm.trans hitems
    rw [List.mem_singleton.1 hu]
    exact hchildren _ items (.items hget) _ w hw
  | primitive =>
    rw [hs] at hsample hspec
    obtain ⟨htype, hminimum⟩ := typed_of_samplePrimitive hbare hsample
    exact .of_primitive hnone hspec.1 hspec.2.1 hspec.2.2 htype hminimum

/-- On one trail, samples conform when those of references do. -/
theorem accepts_of_sampleWalk
    (hfollow : ∀ members ref loc v, Members.get? members referenceKeyword = some ref →
      Throughout defs (.map members) Bare → (follow ref loc).outcome = .ok v →
      Accepts .sampled defs (.map members) v) :
    ∀ node, Throughout defs node Bare → ∀ loc v,
      (sampleWalk follow node loc).outcome = .ok v → Accepts .sampled defs node v := by
  refine node_induction ?_ ?_ ?_
  · intro leaf hleaf _ loc v h
    rw [sampleWalk_of_not_map hleaf, outcome_failAt] at h
    cases h
  · intro members ref href hbare loc v h
    rw [sampleWalk_reference href] at h
    exact hfollow members ref loc v href hbare h
  · intro members hnone ih hbare loc v h
    refine accepts_of_children hnone hbare.here (fun step child hchild => ?_) h
    exact ih step child hchild (hbare.below (.child hnone hchild))

end

theorem accepts_of_sampleFrom {trail : Trail} (htrail : TrailOf defs trail) :
    ∀ node, Throughout defs node Bare → ∀ loc v,
      (sampleFrom defs trail node loc).outcome = .ok v → Accepts .sampled defs node v := by
  refine TrailOf.induction (P := fun trail => ∀ node, Throughout defs node Bare → ∀ loc v,
    (sampleFrom defs trail node loc).outcome = .ok v → Accepts .sampled defs node v) ?_ htrail
  intro trail htrail ih node hbare loc v h
  rw [sampleFrom, visitFrom_eq htrail] at h
  refine accepts_of_sampleWalk (fun members ref here w href hbare hw => ?_) node hbare loc v h
  unfold followFrom at hw
  cases hopen : openReference defs trail ref here with
  | error e =>
    rw [hopen] at hw
    cases hw
  | ok opened =>
    obtain ⟨name, target⟩ := opened
    rw [hopen] at hw
    obtain ⟨hname, hnew, hget⟩ := openReference_eq_ok_iff.1 hopen
    exact .reference href hname hget
      (ih name target hnew hget target (hbare.below (.component href hname hget)) here w hw)

/-- **Samples conform.** Where no example is declared, no values are listed and every minimum is an
integer, a sample conforms to its schema as samples read it; and as the standard reads it, too,
where composite keywords stand alone. -/
theorem accepts_of_sample {defs : Members} {node v : Value} (hbare : Throughout defs node Bare)
    (h : (sample defs node).outcome = .ok v) :
    Accepts .sampled defs node v ∧
      (Throughout defs node Unmixed → Accepts .standard defs node v) := by
  have hsampled := accepts_of_sampleFrom (TrailOf.empty defs) node hbare .top v h
  exact ⟨hsampled, hsampled.standard⟩

/-- A component with a minimum, and an alternative that has no sample. -/
def orderComponents : Members :=
  [(.str "Quantity", .map [(.str "type", .str "integer"), (.str "minimum", .int 3)]),
    (.str "Tag", .map [(.str "anyOf", .list [.map [(.str "type", .str "unheard-of")],
      .map [(.str "type", .str "string")]])])]

/-- An object with a component in a property and one in the items of an array. -/
def order : Value :=
  .map [(.str "type", .str "object"), (.str "properties", .map [
    (.str "quantity", componentReference "Quantity"),
    (.str "tags", .map [(.str "type", .str "array"), (.str "items", componentReference "Tag")])])]

/-- The sample of `order`. -/
def orderSample : Value :=
  .map [(.str "quantity", .int 3), (.str "tags", .list [.str ""])]

/-- All nodes in use below `order`. -/
def orderNodes : List Value :=
  [order, componentReference "Quantity", .map [(.str "type", .str "integer"),
      (.str "minimum", .int 3)],
    .map [(.str "type", .str "array"), (.str "items", componentReference "Tag")],
    componentReference "Tag", .map [(.str "anyOf", .list [.map [(.str "type", .str "unheard-of")],
      .map [(.str "type", .str "string")]])],
    .map [(.str "type", .str "unheard-of")], .map [(.str "type", .str "string")]]

theorem throughout_order {P : Members → Prop}
    (hP : ∀ members, .map members ∈ orderNodes → P members) : Throughout orderComponents order P :=
  .of_closed List.mem_cons_self (by decide +kernel) hP

theorem bare_and_unmixed_of_mem_orderNodes (members : Members) (h : .map members ∈ orderNodes) :
    Bare members ∧ Unmixed members := by
  simp only [orderNodes, order, componentReference, List.mem_cons, Value.map.injEq,
    List.not_mem_nil, or_false] at h
  rcases h with rfl | rfl | rfl | rfl | rfl | rfl | rfl | rfl
  all_goals
    refine ⟨by constructor <;> simp [Members.get?, referenceKeyword], ?_, ?_, ?_⟩
    · intro c d branches others
      cases c <;> cases d <;>
        simp [Members.get?, referenceKeyword, Composite.keyword, nonemptyList?]
    · simp [Members.get?, referenceKeyword, Composite.keyword]
    · rintro ⟨c, branches, hget, -⟩
      cases c <;> simp_all [Members.get?, referenceKeyword, Composite.keyword, primaryType]

theorem accepts_of_sample_order :
    Throughout orderComponents order Bare ∧
      (sample orderComponents order).outcome = .ok orderSample ∧
      Accepts .sampled orderComponents order orderSample ∧
      Accepts .standard orderComponents order orderSample := by
  have hbare : Throughout orderComponents order Bare :=
    throughout_order fun members hmem => (bare_and_unmixed_of_mem_orderNodes members hmem).1
  have hunmixed : Throughout orderComponents order Unmixed :=
    throughout_order fun members hmem => (bare_and_unmixed_of_mem_orderNodes members hmem).2
  have hsample : (sample orderComponents order).outcome = .ok orderSample := by decide +kernel
  have haccepts := accepts_of_sample hbare hsample
  exact ⟨hbare, hsample, haccepts.1, haccepts.2 hunmixed⟩

/-! ## All branches -/

/-- A number that is to be at least 5 by the second of two branches. -/
def atLeastFive : Value :=
  .map [(.str "type", .str "integer"), (.str "minimum", .int 5)]

/-- Two branches that are both asked for. -/
def bothBranches : Value :=
  .map [(.str "allOf", .list [.map [(.str "type", .str "integer")], atLeastFive])]

theorem bare_bothBranches : Throughout [] bothBranches Bare := by
  have hnodes : ∀ members, .map members ∈
      [bothBranches, .map [(.str "type", .str "integer")], atLeastFive] → Bare members := by
    intro members h
    simp only [bothBranches, atLeastFive, List.mem_cons, Value.map.injEq, List.not_mem_nil,
      or_false] at h
    rcases h with rfl | rfl | rfl
    all_goals constructor <;> simp [Members.get?]
  exact .of_closed List.mem_cons_self (by decide +kernel) hnodes

/-- **Samples heed one branch only**, also of `allOf`: what is sampled from the first branch need
not conform to the others. -/
theorem not_standard_of_sample :
    ¬ ∀ defs node v, Throughout defs node Bare → (sample defs node).outcome = .ok v →
      Accepts .standard defs node v := by
  intro h
  have hsample : (sample [] bothBranches).outcome = .ok (.int 0) := by decide +kernel
  cases h [] bothBranches (.int 0) bare_bothBranches hsample with
  | reference href _ _ _ => cases href
  | schema choice part _ hchosen hbranch _ _ _ _ _ =>
    have hmem : [atLeastFive] ∈ Reading.standard.choices
        [(.str "allOf", .list [.map [(.str "type", .str "integer")], atLeastFive])] := by
      decide +kernel
    have hchoice : choice [atLeastFive] = atLeastFive :=
      List.mem_singleton.1 (hchosen [atLeastFive] hmem)
    have hfive := hbranch [atLeastFive] hmem
    rw [hchoice] at hfive
    cases hfive with
    | reference href _ _ _ => cases href
    | schema _ _ _ _ _ _ hminimum _ _ _ =>
      have hleast : (5 : Int) ≤ 0 := hminimum (by decide) 5 (by decide)
      omega

end EndpointAtlas.Schema
