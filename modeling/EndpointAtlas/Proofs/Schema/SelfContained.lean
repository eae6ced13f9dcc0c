import EndpointAtlas.Proofs.Schema.Sampling
import EndpointAtlas.Proofs.Schema.Unfolding

/-!
# Self-contained schemas

A schema that can be read without its document: no reference stands in it at a place for schemas,
and every schema in it has what its declared type asks for.

1. `SelfContained`, with `selfContained_map_iff` for a schema in terms of its children.
2. `exists_mem_zip_of_isChild_rebuilt`: the children of a rebuilt schema are those that were put in.
3. `inline_selfContained`: what inlining gives is self-contained, and what is self-contained can be
   inlined whatever the components.
4. `inline_inline`: inlining changes nothing the second time.
-/

namespace EndpointAtlas.Schema

/-! ## Nodes inside a schema -/

/-- A node is a schema or stands inside it: child steps lead there, and no reference is followed. -/
def Reaches : Value → Value → Prop :=
  Relation.ReflTransGen fun node child => ∃ step, IsChild node step child

/-- No node inside is a reference, and every schema inside has what it has to have. -/
structure SelfContained (v : Value) : Prop where
  noReference : ∀ node, Reaches v node → isReference node = false
  complete : ∀ members, Reaches v (.map members) → Complete members

/-- What is no mapping has no schemas inside. -/
theorem eq_of_reaches {v node : Value} (hleaf : ∀ members, v ≠ .map members)
    (h : Reaches v node) : node = v := by
  induction h with
  | refl => rfl
  | tail _ hchild ih =>
    subst ih
    obtain ⟨_, members, _, _, heq, -⟩ := hchild
    exact absurd heq (hleaf members)

theorem selfContained_of_not_map {v : Value} (hleaf : ∀ members, v ≠ .map members) :
    SelfContained v where
  noReference := by
    intro node hnode
    rw [eq_of_reaches hleaf hnode]
    unfold isReference
    split
    · next members => exact absurd rfl (hleaf members)
    · rfl
  complete := by
    intro members hmembers
    exact absurd (eq_of_reaches hleaf hmembers).symm (hleaf members)

/-- A schema is self-contained when it is no reference and complete, and its children are
self-contained. -/
theorem selfContained_map_iff {members : Members} : SelfContained (.map members) ↔
    members.get? referenceKeyword = none ∧ Complete members ∧
      ∀ step child, IsChild (.map members) step child → SelfContained child := by
  constructor
  · intro h
    refine ⟨isReference_map.1 (h.noReference _ .refl), h.complete _ .refl, ?_⟩
    intro step child hchild
    exact ⟨fun node hnode => h.noReference node (.head ⟨step, hchild⟩ hnode),
      fun other hother => h.complete other (.head ⟨step, hchild⟩ hother)⟩
  · rintro ⟨hnone, hcomplete, hchildren⟩
    constructor
    · intro node hnode
      rcases Relation.ReflTransGen.cases_head hnode with rfl | ⟨child, ⟨step, hchild⟩, hrest⟩
      · exact isReference_map.2 hnone
      · exact (hchildren step child hchild).noReference node hrest
    · intro other hother
      rcases Relation.ReflTransGen.cases_head hother with heq | ⟨child, ⟨step, hchild⟩, hrest⟩
      · cases heq
        exact hcomplete
      · exact (hchildren step child hchild).complete other hrest

/-! ## Slots that are put together -/

namespace Slot

/-- The schemas of a slot in their own places leave it as it is. -/
theorem rebuild?_children (slot : Slot) (v : Value) :
    (slot.rebuild? v ((slot.children v).map Prod.snd)).getD v = v := by
  rcases slot with _ | _ | _ | c <;> cases v <;> simp only [children, List.map_nil, List.map_cons,
    List.map_map, rebuild?, Option.getD_none, Option.getD_some]
  case properties.map props =>
    have hzip : ∀ ps : Members,
        ps.zipWith (fun p w => (p.1, w)) (ps.map (Prod.snd ∘ fun p => (Step.property p.1, p.2))) =
          ps := by
      intro ps
      induction ps with
      | nil => rfl
      | cons p rest ih => rw [List.map_cons, List.zipWith_cons_cons, ih]; rfl
    rw [hzip]
  case branches.list schemas =>
    congr 1
    exact List.ext_getElem (by simp) (by simp)

/-- Whether a slot can be put together depends on how many schemas are put in. -/
theorem rebuild?_eq_none_congr {slot : Slot} {v : Value} {ws ws' : List Value}
    (h : ws.length = ws'.length) : slot.rebuild? v ws = none ↔ slot.rebuild? v ws' = none := by
  rcases slot with _ | _ | _ | c <;> cases v <;> rcases ws with _ | ⟨w, _ | ⟨w₂, ws⟩⟩ <;>
    rcases ws' with _ | ⟨w', _ | ⟨w₂', ws'⟩⟩ <;> simp_all [rebuild?]

/-- A slot that was put together, or could not be, is left as it is when its schemas are put into
their own places. -/
theorem rebuild?_again {slot : Slot} {first u : Value} {ws : List Value}
    (hlength : (slot.children first).length = ws.length)
    (hu : (slot.rebuild? first ws).getD first = u) (v : Value) :
    (slot.rebuild? u ((slot.children u).map Prod.snd)).getD ((slot.rebuild? first ws).getD v) =
      (slot.rebuild? first ws).getD v := by
  cases hput : slot.rebuild? first ws with
  | some w =>
    rw [hput, Option.getD_some] at hu
    rw [← hu, Option.getD_some]
    exact rebuild?_children slot w
  | none =>
    rw [hput, Option.getD_none] at hu
    have hsame : ws.length = ((slot.children u).map Prod.snd).length := by
      rw [List.length_map, ← hu, hlength]
    rw [← hu] at hsame ⊢
    rw [(rebuild?_eq_none_congr hsame).1 hput, Option.getD_none, Option.getD_none]

/-- The schemas of a slot that is put together are among those put in. -/
theorem mem_of_mem_children_rebuild? {slot : Slot} {v : Value} {ws : List Value} {step : Step}
    {child : Value} (hlength : (slot.children v).length = ws.length)
    (h : (step, child) ∈ slot.children ((slot.rebuild? v ws).getD v)) : child ∈ ws := by
  rcases slot with _ | _ | _ | c
  case properties =>
    cases v with
    | map props =>
      rw [rebuild?_properties, Option.getD_some, children] at h
      obtain ⟨p, hp, heq⟩ := List.mem_map.1 h
      rw [← List.map_uncurry_zip_eq_zipWith] at hp
      obtain ⟨⟨q, w⟩, hw, rfl⟩ := List.mem_map.1 hp
      cases heq
      exact (List.of_mem_zip hw).2
    | _ => simp [rebuild?, children] at h
  case items =>
    obtain ⟨w, rfl⟩ := List.length_eq_one_iff.1 hlength.symm
    simp_all [rebuild?, children]
  case additionalProperties =>
    cases v with
    | map extra =>
      obtain ⟨w, rfl⟩ := List.length_eq_one_iff.1 hlength.symm
      rw [rebuild?, Option.getD_some] at h
      cases w with
      | map _ => simp_all [children]
      | _ => simp [children] at h
    | _ => simp [rebuild?, children] at h
  case branches =>
    cases v with
    | list schemas =>
      rw [rebuild?_branches, Option.getD_some, children, List.mem_mapIdx] at h
      obtain ⟨i, hi, heq⟩ := h
      cases heq
      exact List.getElem_mem hi
    | _ => simp [rebuild?, children] at h

end Slot

/-! ## Rebuilt schemas -/

section

variable {new : Slot → List Value} {members : Members}

theorem has_rebuilt (key : String) : (rebuilt new members).has key = members.has key := by
  unfold Members.has rebuilt
  rw [Members.get?_map, Option.isSome_map]

/-- The schemas that stand in the slots of a schema. -/
def ownChildren (members : Members) (slot : Slot) : List Value :=
  (slot.children (members.getD slot.keyword)).map Prod.snd

theorem rebuiltValue_keyword (slot : Slot) (v : Value) :
    rebuiltValue new members (.str slot.keyword) v =
      (slot.rebuild? (members.getD slot.keyword) (new slot)).getD v := by
  rw [rebuiltValue, Slot.ofKey?_keyword]

variable (hlengths : ∀ slot v, members.get? (Slot.keyword slot) = some v →
  (slot.children v).length = (new slot).length)

include hlengths

/-- As many children in the same slots leave a schema as complete as it is. -/
theorem complete_rebuilt (h : Complete members) : Complete (rebuilt new members) := by
  have hsame : missingStructure? (rebuilt new members) = missingStructure? members := by
    have hhas : (rebuilt new members).has = members.has := funext has_rebuilt
    unfold missingStructure?
    rw [shape_rebuilt hlengths, hhas]
  rw [← missingStructure?_eq_none] at h ⊢
  rw [hsame, h]

/-- The children of a rebuilt schema are those that were put in. -/
theorem exists_mem_zip_of_isChild_rebuilt {step : Step} {w : Value}
    (h : IsChild (.map (rebuilt new members)) step w) :
    ∃ slot v child, members.get? (Slot.keyword slot) = some v ∧
      (child, w) ∈ (slot.children v).zip (new slot) := by
  obtain ⟨_, slot, u, heq, hget, hmem⟩ := h
  cases heq
  rw [get?_rebuilt] at hget
  obtain ⟨v, hv, rfl⟩ := Option.map_eq_some_iff.1 hget
  have hlength := hlengths slot v hv
  have hw : w ∈ new slot := Slot.mem_of_mem_children_rebuild? hlength hmem
  rw [← List.map_snd_zip (Nat.le_of_eq hlength.symm)] at hw
  obtain ⟨⟨child, _⟩, hzip, rfl⟩ := List.mem_map.1 hw
  exact ⟨slot, v, child, hv, hzip⟩

/-- A rebuilt schema is rebuilt of its own children. Members with one key all have the new value of
the slot, or none of them has. -/
theorem rebuilt_ownChildren :
    rebuilt (ownChildren (rebuilt new members)) (rebuilt new members) = rebuilt new members := by
  have hsame : ∀ m ∈ rebuilt new members,
      (m.1, rebuiltValue (ownChildren (rebuilt new members)) (rebuilt new members) m.1 m.2) = m := by
    intro m hm
    obtain ⟨⟨k, v⟩, hmem, rfl⟩ := List.mem_map.1 hm
    dsimp only
    congr 1
    cases hk : Slot.ofKey? k with
    | none => rw [rebuiltValue, rebuiltValue, hk]
    | some slot =>
      obtain rfl := Slot.ofKey?_eq_some.1 hk
      cases hget : members.get? slot.keyword with
      | none => exact absurd hmem (Members.not_mem_of_get? hget v)
      | some first =>
        have hold : members.getD slot.keyword = first := by rw [Members.getD, hget, Option.getD_some]
        have hnew : (rebuilt new members).getD slot.keyword =
            (slot.rebuild? first (new slot)).getD first := by
          rw [Members.getD, get?_rebuilt, hget, Option.map_some, Option.getD_some]
        rw [rebuiltValue_keyword, rebuiltValue_keyword, ownChildren, hold]
        exact Slot.rebuild?_again (hlengths slot first hget) hnew.symm v
  calc rebuilt (ownChildren (rebuilt new members)) (rebuilt new members)
      = (rebuilt new members).map id := List.map_congr_left hsame
    _ = rebuilt new members := List.map_id _

end

/-! ## Results of inlining -/

variable {defs : Members} {node r : Value}

theorem Unfolds.selfContained (h : Unfolds defs node r) : SelfContained r := by
  induction h with
  | reference _ _ _ _ ih => exact ih
  | leaf hleaf => exact selfContained_of_not_map hleaf
  | schema hnone hcomplete hlengths _ ih =>
    rw [selfContained_map_iff]
    refine ⟨?_, complete_rebuilt hlengths hcomplete, ?_⟩
    · rw [get?_rebuilt_reference, hnone]
    · intro step w hchild
      obtain ⟨slot, v, child, hv, hmem⟩ := exists_mem_zip_of_isChild_rebuilt hlengths hchild
      exact ih slot v hv child w hmem

/-- A complete schema unfolds when its children do; all of them at once, by a function. -/
theorem Unfolds.of_children {members : Members} (unfolding : Value → Value)
    (hnone : members.get? referenceKeyword = none) (hcomplete : Complete members)
    (hchildren : ∀ step child, IsChild (.map members) step child →
      Unfolds defs child (unfolding child)) :
    Unfolds defs (.map members) (.map (rebuilt (fun slot =>
      (ownChildren members slot).map unfolding) members)) := by
  refine .schema hnone hcomplete ?_ ?_ <;> intro slot v hv <;>
    rw [ownChildren, Members.getD, hv, Option.getD_some, List.map_map]
  · rw [List.length_map]
  · intro child w hmem
    rw [← List.map_prod_left_eq_zip] at hmem
    obtain ⟨_, hchild, heq⟩ := List.mem_map.1 hmem
    cases heq
    exact hchildren child.1 child.2 ⟨members, slot, v, rfl, hv, hchild⟩

/-- An unfolding unfolds to itself, with any components. -/
theorem Unfolds.self (h : Unfolds defs node r) (defs' : Members) : Unfolds defs' r r := by
  induction h with
  | reference _ _ _ _ ih => exact ih
  | leaf hleaf => exact .leaf hleaf
  | @schema members new hnone hcomplete hlengths _ ih =>
    have hreference : (rebuilt new members).get? referenceKeyword = none := by
      rw [get?_rebuilt_reference, hnone]
    have hchildren : ∀ step w, IsChild (.map (rebuilt new members)) step w → Unfolds defs' w w := by
      intro step w hchild
      obtain ⟨slot, v, child, hv, hmem⟩ := exists_mem_zip_of_isChild_rebuilt hlengths hchild
      exact ih slot v hv child w hmem
    have hself := Unfolds.of_children id hreference (complete_rebuilt hlengths hcomplete) hchildren
    simp only [List.map_id] at hself
    rwa [rebuilt_ownChildren hlengths] at hself

/-- A self-contained schema unfolds, with any components. -/
theorem SelfContained.exists_unfolds (defs : Members) :
    ∀ node, SelfContained node → ∃ r, Unfolds defs node r := by
  refine IsChild.induction fun node ih h => ?_
  by_cases hmap : ∃ members, node = .map members
  · obtain ⟨members, rfl⟩ := hmap
    obtain ⟨hnone, hcomplete, hchildren⟩ := selfContained_map_iff.1 h
    have hunfolds : ∀ child, ∃ r, ∀ step, IsChild (.map members) step child →
        Unfolds defs child r := by
      intro child
      by_cases hchild : ∃ step, IsChild (.map members) step child
      · obtain ⟨step, hchild⟩ := hchild
        obtain ⟨r, hr⟩ := ih step child hchild (hchildren step child hchild)
        exact ⟨r, fun _ _ => hr⟩
      · exact ⟨.null, fun step hstep => absurd ⟨step, hstep⟩ hchild⟩
    choose unfolding hunfolding using hunfolds
    exact ⟨_, Unfolds.of_children unfolding hnone hcomplete fun step child hchild =>
      hunfolding child step hchild⟩
  · exact ⟨node, .leaf fun members heq => hmap ⟨members, heq⟩⟩

/-- **Results are self-contained.** What inlining gives has no reference at a place for schemas, and
every schema inside is complete. What is self-contained already can be inlined, whatever the
components. -/
theorem inline_selfContained (defs : Members) (node : Value) :
    (∀ r, inline defs node = .ok r → SelfContained r) ∧
      (SelfContained node → ∃ r, inline defs node = .ok r) := by
  constructor
  · intro r h
    exact (unfolds_of_inline h).selfContained
  · intro h
    obtain ⟨r, hr⟩ := SelfContained.exists_unfolds defs node h
    exact ⟨r, inline_of_unfolds hr⟩

/-- A component that is a reference to another one. -/
def labelComponents : Members :=
  [(.str "Tag", componentReference "Label"), (.str "Label", .map [(.str "type", .str "string")])]

/-- An object of tags, with a property `$ref` that is an array of tags. -/
def tagged (tag : Value) : Value :=
  .map [(.str "additionalProperties", tag), (.str "type", .list [.str "null", .str "object"]),
    (.str "properties", .map [(.str "$ref", .map [(.str "items", tag), (.str "type", .str "array")])])]

theorem inline_tagged : inline labelComponents (tagged (componentReference "Tag")) =
    .ok (tagged (.map [(.str "type", .str "string")])) := by cbv

/-- A schema with references at two depths, and what becomes of it. -/
theorem inline_selfContained_tagged :
    ¬ SelfContained (tagged (componentReference "Tag")) ∧
      inline labelComponents (tagged (componentReference "Tag")) =
        .ok (tagged (.map [(.str "type", .str "string")])) ∧
      SelfContained (tagged (.map [(.str "type", .str "string")])) ∧
      ∃ r, inline [] (tagged (.map [(.str "type", .str "string")])) = .ok r := by
  have hself := (inline_selfContained labelComponents _).1 _ inline_tagged
  refine ⟨fun h => ?_, inline_tagged, hself, (inline_selfContained [] _).2 hself⟩
  obtain ⟨r, hr⟩ := (inline_selfContained [] _).2 h
  cases hr

/-- **Inlining twice is inlining once.** The second time nothing changes, whatever the components
are then. -/
theorem inline_inline {defs : Members} {node r : Value} (h : inline defs node = .ok r)
    (defs' : Members) : inline defs' r = .ok r :=
  inline_of_unfolds ((unfolds_of_inline h).self defs')

theorem inline_inline_tagged :
    inline labelComponents (tagged (componentReference "Tag")) =
        .ok (tagged (.map [(.str "type", .str "string")])) ∧
      inline [] (tagged (.map [(.str "type", .str "string")])) =
        .ok (tagged (.map [(.str "type", .str "string")])) :=
  ⟨inline_tagged, inline_inline inline_tagged []⟩

end EndpointAtlas.Schema
