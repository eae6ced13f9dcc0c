import EndpointAtlas.Proofs.Schema.Expansion
import EndpointAtlas.Proofs.Schema.Trail
import Mathlib.Logic.Relation

/-!
# Unfolding

`Unfolds defs node r` says what inlining is meant to give, with no trail and no order of visits: `r`
is what is left of `node` once every reference is replaced by the unfolding of its component.
Inlining gives `r` just when there is a finite derivation of that.

1. A result of inlining is an unfolding (`unfolds_of_inline`): by induction on the trail, and on the
   schema for each trail.
2. A node that unfolds has no endless way down (`Unfolds.acc`), so that a component never stands
   below itself. A walk down an unfolding therefore meets no name that is on its trail (`Clear`),
   and inlining succeeds (`inline_of_unfolds`).
-/

namespace EndpointAtlas.Schema

/-- A node unfolds to a value without references. A mapping with `$ref` is a reference, whatever
stands beside; it unfolds to what its component unfolds to. What is no mapping stays. A schema has
to be complete; its children are unfolded, and all else stays. -/
inductive Unfolds (defs : Members) : Value → Value → Prop
  | reference {members : Members} {ref target r : Value} {name : String}
      (isReference : members.get? referenceKeyword = some ref) (names : Names ref name)
      (found : defs.get? name = some target) (unfolds : Unfolds defs target r) :
      Unfolds defs (.map members) r
  | leaf {v : Value} (notMap : ∀ members, v ≠ .map members) : Unfolds defs v v
  | schema {members : Members} {new : Slot → List Value}
      (notReference : members.get? referenceKeyword = none) (complete : Complete members)
      (lengths : ∀ slot v, members.get? (Slot.keyword slot) = some v →
        (slot.children v).length = (new slot).length)
      (unfolds : ∀ slot v, members.get? (Slot.keyword slot) = some v →
        ∀ child w, (child, w) ∈ (slot.children v).zip (new slot) → Unfolds defs child.2 w) :
      Unfolds defs (.map members) (.map (rebuilt new members))

/-- Inlining with some components open. -/
def inlineFrom (defs : Members) (trail : Trail) (node : Value) (loc : Location) :
    Except SchemaError Value :=
  visitFrom .error (expand .error) defs trail node loc

variable {defs : Members} {trail : Trail} {node r : Value}

/-! ## Results are unfoldings -/

theorem unfolds_of_expand {follow : Follow (Except SchemaError) Value}
    (hfollow : ∀ members ref loc w, Members.get? members referenceKeyword = some ref →
      follow ref loc = .ok w → Unfolds defs (.map members) w) :
    ∀ node loc r, expand .error follow node loc = .ok r → Unfolds defs node r := by
  refine IsChild.induction fun node ih loc r h => ?_
  by_cases hmap : ∃ members, node = .map members
  · obtain ⟨members, rfl⟩ := hmap
    cases href : Members.get? members referenceKeyword with
    | some ref =>
      rw [expand_reference href] at h
      exact hfollow members ref loc r href h
    | none =>
      obtain ⟨hcomplete, new, hnew, rfl⟩ := (expand_map_eq_ok_iff href).1 h
      refine .schema href hcomplete (fun slot v hv => (hnew slot v hv).length_eq) ?_
      intro slot v hv child w hmem
      exact ih child.1 child.2 ⟨members, slot, v, rfl, hv, (List.of_mem_zip hmem).1⟩ _ w
        (List.forall₂_zip (hnew slot v hv) hmem)
  · have hleaf : ∀ members, node ≠ .map members := fun members heq => hmap ⟨members, heq⟩
    rw [expand_of_not_map hleaf] at h
    cases h
    exact .leaf hleaf

theorem unfolds_of_inlineFrom (h : TrailOf defs trail) :
    ∀ node loc r, inlineFrom defs trail node loc = .ok r → Unfolds defs node r := by
  -- a longer trail in the components of references, smaller schemas on the same trail
  refine TrailOf.induction (P := fun trail => ∀ node loc r,
    inlineFrom defs trail node loc = .ok r → Unfolds defs node r) ?_ h
  intro trail htrail ih node loc r h
  rw [inlineFrom, visitFrom_eq htrail] at h
  refine unfolds_of_expand (fun members ref here w href hw => ?_) node loc r h
  unfold followFrom at hw
  cases hopen : openReference defs trail ref here with
  | error e => rw [hopen] at hw; cases hw
  | ok p =>
    obtain ⟨name, target⟩ := p
    rw [hopen] at hw
    obtain ⟨hname, hnew, hget⟩ := openReference_eq_ok_iff.1 hopen
    exact .reference href hname hget (ih name target hnew hget target here w hw)

/-- What inlining gives is an unfolding. -/
theorem unfolds_of_inline (h : inline defs node = .ok r) : Unfolds defs node r :=
  unfolds_of_inlineFrom (TrailOf.empty defs) node .top r h

/-! ## Ways down -/

/-- A node stands directly below another: it is a child of that schema, or the component that that
reference names. -/
inductive Below (defs : Members) : Value → Value → Prop
  | child {members : Members} {step : Step} {c : Value}
      (notReference : members.get? referenceKeyword = none)
      (isChild : IsChild (.map members) step c) : Below defs c (.map members)
  | component {members : Members} {ref target : Value} {name : String}
      (isReference : members.get? referenceKeyword = some ref) (names : Names ref name)
      (found : defs.get? name = some target) : Below defs target (.map members)

/-- There is no endless way down from a node that unfolds. -/
theorem Unfolds.acc (h : Unfolds defs node r) : Acc (Below defs) node := by
  induction h with
  | reference href hname hget _ ih =>
    refine ⟨_, fun below hbelow => ?_⟩
    cases hbelow with
    | child hnone _ => rw [href] at hnone; cases hnone
    | component href' hname' hget' =>
      obtain rfl : _ = _ := Option.some.inj (href.symm.trans href')
      obtain rfl := hname.unique hname'
      obtain rfl : _ = _ := Option.some.inj (hget.symm.trans hget')
      exact ih
  | leaf hleaf =>
    refine ⟨_, fun below hbelow => ?_⟩
    cases hbelow with
    | child _ _ => exact absurd rfl (hleaf _)
    | component _ _ _ => exact absurd rfl (hleaf _)
  | schema hnone _ hlengths _ ih =>
    refine ⟨_, fun below hbelow => ?_⟩
    cases hbelow with
    | child _ hchild =>
      obtain ⟨_, slot, v, heq, hv, hmem⟩ := hchild
      cases heq
      rw [← List.map_fst_zip (Nat.le_of_eq (hlengths slot v hv))] at hmem
      obtain ⟨⟨_, w⟩, hw, rfl⟩ := List.mem_map.1 hmem
      exact ih slot v hv _ w hw
    | component href _ _ => rw [hnone] at href; cases href

/-- All components on the trail have the node below them. -/
structure Clear (defs : Members) (trail : Trail) (node : Value) : Prop where
  trailOf : TrailOf defs trail
  below : ∀ name ∈ trail, ∀ target, defs.get? name = some target →
    Relation.ReflTransGen (Below defs) node target

namespace Clear

variable {members : Members} {ref target : Value} {name : String}

theorem start (defs : Members) (node : Value) : Clear defs [] node :=
  ⟨TrailOf.empty defs, by simp⟩

theorem child (h : Clear defs trail (.map members))
    (hnone : members.get? referenceKeyword = none) {step : Step} {c : Value}
    (hchild : IsChild (.map members) step c) : Clear defs trail c :=
  ⟨h.trailOf, fun name hname target hget =>
    .head (.child hnone hchild) (h.below name hname target hget)⟩

/-- A name on the trail is not met again above an end of all ways down: its component would stand
below itself. -/
theorem not_mem (h : Clear defs trail (.map members)) (hacc : Acc (Below defs) (.map members))
    (href : members.get? referenceKeyword = some ref) (hname : Names ref name)
    (hget : defs.get? name = some target) : name ∉ trail := by
  intro hmem
  -- the component on the trail has the node below it, and the node has the component below it
  have hcycle : Relation.TransGen (Below defs) (.map members) (.map members) :=
    .tail' (h.below name hmem target hget) (.component href hname hget)
  have hirrefl : ∀ n, Acc (Relation.TransGen (Below defs)) n →
      ¬ Relation.TransGen (Below defs) n n := by
    intro n hn
    induction hn with
    | intro n _ ih => exact fun hself => ih n hself hself
  exact hirrefl _ hacc.transGen hcycle

theorem push (h : Clear defs trail (.map members)) (hnew : name ∉ trail)
    (href : members.get? referenceKeyword = some ref) (hname : Names ref name)
    (hget : defs.get? name = some target) : Clear defs (trail ++ [name]) target where
  trailOf := h.trailOf.push hnew hget
  below := by
    intro other hother v hv
    rcases List.mem_append.1 hother with hold | hnew
    · exact .head (.component href hname hget) (h.below other hold v hv)
    · rw [List.mem_singleton.1 hnew, hget] at hv
      cases hv
      exact .refl

end Clear

/-! ## Unfoldings are results -/

section

variable {members : Members} {ref target : Value} {name : String}

theorem Unfolds.clear_component (hunfolds : Unfolds defs (.map members) r)
    (h : Clear defs trail (.map members)) (href : members.get? referenceKeyword = some ref)
    (hname : Names ref name) (hget : defs.get? name = some target) :
    Clear defs (trail ++ [name]) target :=
  h.push (h.not_mem hunfolds.acc href hname hget) href hname hget

/-- On its way down an unfolding a walk goes on from a reference in the component. -/
theorem Unfolds.visitFrom_reference {m : Type → Type} {α : Type} (raise : SchemaError → m α)
    (walk : Walk m α) {loc : Location}
    (hwalk : ∀ follow, walk follow (.map members) loc = follow ref loc)
    (hunfolds : Unfolds defs (.map members) r) (h : Clear defs trail (.map members))
    (href : members.get? referenceKeyword = some ref) (hname : Names ref name)
    (hget : defs.get? name = some target) :
    visitFrom raise walk defs trail (.map members) loc =
      visitFrom raise walk defs (trail ++ [name]) target loc := by
  have hnew := h.not_mem hunfolds.acc href hname hget
  rw [visitFrom_eq h.trailOf, hwalk, followFrom, openReference_eq_ok_iff.2 ⟨hname, hnew, hget⟩]

end

theorem inlineFrom_of_unfolds (h : Unfolds defs node r) :
    ∀ trail, Clear defs trail node → ∀ loc, inlineFrom defs trail node loc = .ok r := by
  -- the trail changes from a reference to its component, so it is not fixed in the induction
  induction h with
  | reference href hname hget hunfolds ih =>
    intro trail hclear loc
    have hnode := Unfolds.reference href hname hget hunfolds
    rw [inlineFrom, hnode.visitFrom_reference _ _ (fun _ => expand_reference href) hclear href
      hname hget]
    exact ih _ (hnode.clear_component hclear href hname hget) loc
  | leaf hleaf =>
    intro trail hclear loc
    rw [inlineFrom, visitFrom_eq hclear.trailOf, expand_of_not_map hleaf]
    rfl
  | @schema members new hnone hcomplete hlengths _ ih =>
    intro trail hclear loc
    rw [inlineFrom, visitFrom_eq hclear.trailOf, expand_map_eq_ok_iff hnone]
    refine ⟨hcomplete, new, fun slot v hv => ?_, rfl⟩
    refine List.forall₂_iff_zip.2 ⟨hlengths slot v hv, fun {child w} hmem => ?_⟩
    have hchild : IsChild (.map members) child.1 child.2 :=
      ⟨members, slot, v, rfl, hv, (List.of_mem_zip hmem).1⟩
    have hw := ih slot v hv child w hmem trail (hclear.child hnone hchild) (child.1.from loc)
    rwa [inlineFrom, visitFrom_eq hclear.trailOf] at hw

/-- What unfolds is inlined. -/
theorem inline_of_unfolds (h : Unfolds defs node r) : inline defs node = .ok r :=
  inlineFrom_of_unfolds h [] (Clear.start defs node) .top

/-- **Inlining is unfolding.** It gives a value just when the node unfolds to that value, and fails
just when there is no unfolding at all. -/
theorem inline_iff_unfolds (defs : Members) (node : Value) :
    (∀ r, inline defs node = .ok r ↔ Unfolds defs node r) ∧
      ((∃ e, inline defs node = .error e) ↔ ¬ ∃ r, Unfolds defs node r) := by
  refine ⟨fun r => ⟨unfolds_of_inline, inline_of_unfolds⟩, ?_⟩
  cases h : inline defs node with
  | ok r => simpa using ⟨r, unfolds_of_inline h⟩
  | error e =>
    simp only [Except.error.injEq, exists_eq', true_iff]
    rintro ⟨r, hr⟩
    rw [inline_of_unfolds hr] at h
    cases h

end EndpointAtlas.Schema
