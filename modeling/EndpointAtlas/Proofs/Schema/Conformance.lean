import EndpointAtlas.Proofs.Schema.SampleUnfolding

/-!
# Conformance

What a schema asks of a value, as a relation between schemas and values. Schemas are read in two
ways: by the standard reading all keywords count, by the reading of samples the first composite
keyword with branches counts alone, and one branch of it is enough.

1. `HasType`, `AtLeast`: what a declared type and a minimum ask.
2. `Reading`, `Accepts`: the two readings, and which values a schema accepts by either of them.
3. `Throughout`: what holds of all schemas in use below a node.
4. `Unmixed`: schemas that mean the same by both readings (`Accepts.standard`).
-/

namespace EndpointAtlas

/-- Whether a number is at least an integer. -/
def Binary64.atLeast (least : Int) : Binary64 → Bool
  | .nan => false
  | .infinity negative => !negative
  | .finite negative m exponent =>
    let signed : Int := if negative then -m else m
    match exponent with
    | .ofNat e => least ≤ signed * Nat.pow 2 e
    | .negSucc e => least * Nat.pow 2 (e + 1) ≤ signed

namespace Schema

/-! ## Types -/

/-- A value is of a declared type. A type without a name here asks for nothing. -/
structure HasType (declared v : Value) : Prop where
  object : declared = .str "object" → ∃ members, v = .map members
  array : declared = .str "array" → ∃ items, v = .list items
  string : declared = .str "string" → ∃ s, v = .str s
  integer : declared = .str "integer" → ∃ n, v = .int n
  number : declared = .str "number" → (∃ n, v = .int n) ∨ ∃ x, v = .float x
  boolean : declared = .str "boolean" → ∃ b, v = .bool b
  null : declared = .str "null" → v = .null

/-- A value is a number and at least an integer. -/
def AtLeast (least : Int) : Value → Prop
  | .int n => least ≤ n
  | .float x => x.atLeast least
  | _ => False

/-! ## Readings -/

/-- What counts of a schema: a value has to conform to one branch of each choice, and to be of the
type. -/
structure Reading where
  choices : Members → List (List Value)
  type : Members → Value

namespace Reading

/-- All keywords count: one branch of `oneOf`, one branch of `anyOf`, every branch of `allOf`, and
the declared type beside them. -/
def standard : Reading where
  choices members :=
    [Composite.oneOf, .anyOf].filterMap (fun c => nonemptyList? (members.get? c.keyword)) ++
      ((nonemptyList? (members.get? Composite.allOf.keyword)).getD []).map fun branch => [branch]
  type := primaryType

/-- One branch of the first composite keyword that has branches, or else the declared type. -/
def sampled : Reading where
  choices members := ((compositeBranches? members).map Prod.snd).toList
  type members := if (compositeBranches? members).isSome then .null else primaryType members

end Reading

/-- The schemas of the properties of a schema. -/
def propertySchemas (members : Members) : Members :=
  match members.get? "properties" with
  | some (.map props) => props
  | _ => []

/-- A schema accepts the values that conform to it: a reference those of its component, and any
other schema those that satisfy all that counts of it. What is no mapping accepts nothing.

`choice` picks the branch of each list that the value conforms to, and `part` is what the value has
under a key. -/
inductive Accepts (reading : Reading) (defs : Members) : Value → Value → Prop
  | reference {members : Members} {ref target v : Value} {name : String}
      (isReference : members.get? referenceKeyword = some ref) (names : Names ref name)
      (found : defs.get? name = some target) (accepts : Accepts reading defs target v) :
      Accepts reading defs (.map members) v
  | schema {members : Members} {v : Value} (choice : List Value → Value) (part : Scalar → Value)
      (notReference : members.get? referenceKeyword = none)
      (chosen : ∀ branches ∈ reading.choices members, choice branches ∈ branches)
      (branch : ∀ branches ∈ reading.choices members, Accepts reading defs (choice branches) v)
      (type : HasType (reading.type members) v)
      (minimum : isNumeric (reading.type members) = true → ∀ least : Int,
        members.get? "minimum" = some (.int least) → AtLeast least v)
      (parts : reading.type members = .str "object" → ∀ ws, v = .map ws →
        ∀ k s, (propertySchemas members).lookup k = some s → ws.lookup k = some (part k))
      (properties : reading.type members = .str "object" →
        ∀ k s, (propertySchemas members).lookup k = some s → Accepts reading defs s (part k))
      (items : reading.type members = .str "array" → ∀ ws, v = .list ws →
        ∀ s, members.get? "items" = some s → ∀ w ∈ ws, Accepts reading defs s w) :
      Accepts reading defs (.map members) v

/-! ## Nodes in use -/

/-- A schema is in use below another: as a part of it, or of a component that it refers to. -/
def Uses (defs : Members) : Value → Value → Prop :=
  Relation.ReflTransGen fun above below => Below defs below above

/-- All schemas that are in use have a property. -/
def Throughout (defs : Members) (node : Value) (P : Members → Prop) : Prop :=
  ∀ members, Uses defs node (.map members) → P members

section

variable {defs : Members} {node child : Value} {P : Members → Prop} {members : Members}

theorem Throughout.here (h : Throughout defs (.map members) P) : P members := h members .refl

theorem Throughout.below (h : Throughout defs node P) (hbelow : Below defs child node) :
    Throughout defs child P :=
  fun members huses => h members (.head hbelow huses)

theorem mem_of_lookup_propertySchemas {k : Scalar} {s : Value}
    (h : (propertySchemas members).lookup k = some s) :
    ∃ props, members.get? "properties" = some (.map props) ∧ (k, s) ∈ props := by
  unfold propertySchemas at h
  split at h
  · next props hprops =>
    obtain ⟨before, after, rfl, -⟩ := List.lookup_eq_some_iff.1 h
    exact ⟨_, hprops, List.mem_append_right _ List.mem_cons_self⟩
  · cases h

theorem below_property (hnone : members.get? referenceKeyword = none) {k : Scalar} {s : Value}
    (h : (propertySchemas members).lookup k = some s) : Below defs s (.map members) := by
  obtain ⟨props, hprops, hmem⟩ := mem_of_lookup_propertySchemas h
  exact .child hnone (.property hprops hmem)

theorem below_branch (hnone : members.get? referenceKeyword = none) {c : Composite}
    {branches : List Value} (h : members.get? c.keyword = some (.list branches)) {branch : Value}
    (hmem : branch ∈ branches) : Below defs branch (.map members) := by
  obtain ⟨i, hchild⟩ := IsChild.branch h hmem
  exact .child hnone hchild

theorem compositeBranches?_eq_some {c : Composite} {branches : List Value}
    (h : compositeBranches? members = some (c, branches)) :
    members.get? c.keyword = some (.list branches) := by
  obtain ⟨d, -, hd⟩ := List.exists_of_findSome?_eq_some h
  obtain ⟨items, hitems, heq⟩ := Option.map_eq_some_iff.1 hd
  cases heq
  exact (nonemptyList?_eq_some.1 hitems).1

end

/-- The nodes directly below a node, as a list. -/
def nodesBelow (defs : Members) : Value → List Value
  | .map members =>
    match Members.get? members referenceKeyword with
    | some ref => (resolveNamed defs ref .top).toOption.toList.map Prod.snd
    | none => Slot.all.flatMap fun slot =>
        ((Members.get? members slot.keyword).toList.flatMap slot.children).map Prod.snd
  | _ => []

theorem mem_nodesBelow {defs : Members} {node child : Value} (h : Below defs child node) :
    child ∈ nodesBelow defs node := by
  unfold nodesBelow
  cases h with
  | @child members step _ hnone hchild =>
    obtain ⟨_, slot, v, heq, hv, hmem⟩ := hchild
    cases heq
    simp only [hnone]
    refine List.mem_flatMap.2 ⟨slot, Slot.mem_all slot, List.mem_map.2 ⟨(step, child), ?_, rfl⟩⟩
    exact List.mem_flatMap.2 ⟨v, Option.mem_toList.2 hv, hmem⟩
  | component href hname hget =>
    simp only [href, resolveNamed_eq_ok_iff.2 ⟨hname, hget⟩]
    exact List.mem_singleton_self _

/-- What holds in a list of nodes that leads nowhere else holds of all schemas in use. -/
theorem Throughout.of_closed {defs : Members} {node : Value} {P : Members → Prop}
    {nodes : List Value} (hnode : node ∈ nodes)
    (hclosed : ∀ above ∈ nodes, ∀ below ∈ nodesBelow defs above, below ∈ nodes)
    (hP : ∀ members, .map members ∈ nodes → P members) : Throughout defs node P := by
  intro members huses
  refine hP members ?_
  have hmem : ∀ child, Uses defs node child → child ∈ nodes := by
    intro child hchild
    induction hchild with
    | refl => exact hnode
    | tail _ hbelow ih => exact hclosed _ ih _ (mem_nodesBelow hbelow)
  exact hmem _ huses

/-! ## Schemas that mean the same by both readings -/

/-- Composite keywords stand alone in a schema: there is one of them at most, `allOf` has one branch
at most, and no type is declared beside. -/
structure Unmixed (members : Members) : Prop where
  alone : ∀ c d branches others,
    nonemptyList? (members.get? (Composite.keyword c)) = some branches →
    nonemptyList? (members.get? (Composite.keyword d)) = some others → c = d
  allOf : ∀ branches, members.get? Composite.allOf.keyword = some (.list branches) →
    branches.length ≤ 1
  untyped : IsComposite members → primaryType members = .null

theorem Unmixed.type_eq {members : Members} (h : Unmixed members) :
    Reading.sampled.type members = Reading.standard.type members := by
  change (if (compositeBranches? members).isSome then Value.null else primaryType members) =
    primaryType members
  split
  · next hsome =>
    refine (h.untyped ?_).symm
    by_contra hnot
    rw [compositeBranches?_eq_none.2 hnot] at hsome
    cases hsome
  · rfl

theorem Unmixed.choices_eq {members : Members} (h : Unmixed members) :
    Reading.sampled.choices members = Reading.standard.choices members := by
  have halone := h.alone
  unfold Reading.sampled Reading.standard compositeBranches? Composite.all
  simp only [List.findSome?_cons, List.findSome?_nil, List.filterMap_cons, List.filterMap_nil]
  cases hone : nonemptyList? (members.get? Composite.oneOf.keyword) with
  | some branches =>
    -- the other keywords have no branches
    have hany : nonemptyList? (members.get? Composite.anyOf.keyword) = none := by
      by_contra hnot
      obtain ⟨others, hothers⟩ := Option.ne_none_iff_exists'.1 hnot
      cases halone _ _ _ _ hone hothers
    have hall : nonemptyList? (members.get? Composite.allOf.keyword) = none := by
      by_contra hnot
      obtain ⟨others, hothers⟩ := Option.ne_none_iff_exists'.1 hnot
      cases halone _ _ _ _ hone hothers
    simp [hany, hall]
  | none =>
    cases hany : nonemptyList? (members.get? Composite.anyOf.keyword) with
    | some branches =>
      have hall : nonemptyList? (members.get? Composite.allOf.keyword) = none := by
        by_contra hnot
        obtain ⟨others, hothers⟩ := Option.ne_none_iff_exists'.1 hnot
        cases halone _ _ _ _ hany hothers
      simp [hall]
    | none =>
      cases hall : nonemptyList? (members.get? Composite.allOf.keyword) with
      | none => simp
      | some branches =>
        obtain ⟨hget, hne⟩ := nonemptyList?_eq_some.1 hall
        obtain ⟨branch, rfl⟩ : ∃ branch, branches = [branch] := by
          have hlength := h.allOf branches hget
          have hpos := List.length_pos_iff.2 hne
          exact List.length_eq_one_iff.1 (by omega)
        simp

/-- What is accepted by one reading is accepted by another that reads all schemas in use alike. -/
theorem Accepts.congr {reading other : Reading} {defs : Members} {node v : Value}
    (h : Accepts reading defs node v)
    (hbranches : ∀ members, ∀ branches ∈ reading.choices members, ∀ branch ∈ branches,
      members.get? referenceKeyword = none → Below defs branch (.map members))
    (halike : Throughout defs node fun members =>
      reading.choices members = other.choices members ∧
        reading.type members = other.type members) :
    Accepts other defs node v := by
  induction h with
  | reference href hname hget _ ih =>
    exact .reference href hname hget (ih (halike.below (.component href hname hget)))
  | @schema members v choice part hnone hchosen _ htype hminimum hparts _ _ ihbranch ihproperties
      ihitems =>
    obtain ⟨hchoices, heq⟩ := halike.here
    rw [heq] at htype hminimum hparts ihproperties ihitems
    refine .schema choice part hnone ?_ ?_ htype hminimum hparts ?_ ?_
    · rw [← hchoices]
      exact hchosen
    · rw [← hchoices]
      intro branches hmem
      exact ihbranch branches hmem
        (halike.below (hbranches members branches hmem _ (hchosen branches hmem) hnone))
    · intro hobject k s hs
      exact ihproperties hobject k s hs (halike.below (below_property hnone hs))
    · intro harray ws hws s hs w hw
      exact ihitems harray ws hws s hs w hw (halike.below (.child hnone (.items hs)))

/-- What samples read of unmixed schemas is all that the standard reads. -/
theorem Accepts.standard {defs : Members} {node v : Value}
    (h : Accepts .sampled defs node v) (hunmixed : Throughout defs node Unmixed) :
    Accepts .standard defs node v := by
  refine h.congr (fun members branches hmem branch hbranch hnone => ?_) fun members huses =>
    ⟨(hunmixed members huses).choices_eq, (hunmixed members huses).type_eq⟩
  obtain ⟨⟨c, own⟩, hown, rfl⟩ := Option.map_eq_some_iff.1 (Option.mem_toList.1 hmem)
  exact below_branch hnone (compositeBranches?_eq_some hown) hbranch

end Schema

end EndpointAtlas
