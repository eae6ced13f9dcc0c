import EndpointAtlas.Endpoint.Call
import EndpointAtlas.Proofs.Schema.Sampling
import EndpointAtlas.Proofs.Schema.Unfolding

/-!
# Samples of inlined schemas

A schema and its unfolding have the same sample, with the same log lines. The walk over the schema
carries a trail and could run into a circle; the walk over the unfolding meets no reference at all,
and what it would do with one does not matter (`sampleFrom_of_unfolds`).
-/

namespace EndpointAtlas.Schema

/-- Sampling with some components open. -/
def sampleFrom (defs : Members) (trail : Trail) (node : Value) (loc : Location) :
    Logged Fault Value :=
  visitFrom (fun e => throw (.schema e)) sampleWalk defs trail node loc

variable {defs : Members} {node r : Value}

/-- Sampling a schema is sampling its unfolding, on every trail that is clear of it. -/
theorem sampleFrom_of_unfolds (follow : Follow (Logged Fault) Value) (h : Unfolds defs node r) :
    ∀ trail, Clear defs trail node → ∀ loc,
      sampleFrom defs trail node loc = sampleWalk follow r loc := by
  -- on the derivation: a reference costs the left side a name on the trail and the right side nothing
  induction h with
  | reference href hname hget hunfolds ih =>
    intro trail hclear loc
    have hnode := Unfolds.reference href hname hget hunfolds
    rw [sampleFrom, hnode.visitFrom_reference _ _ (fun _ => sampleWalk_reference href) hclear href
      hname hget]
    exact ih _ (hnode.clear_component hclear href hname hget) loc
  | leaf hleaf =>
    intro trail hclear loc
    rw [sampleFrom, visitFrom_eq hclear.trailOf, sampleWalk_of_not_map hleaf,
      sampleWalk_of_not_map hleaf]
  | @schema members new hnone _ hlengths _ ih =>
    intro trail hclear loc
    rw [sampleFrom, visitFrom_eq hclear.trailOf]
    refine sampleWalk_rebuilt hnone (fun slot v hv => ?_) loc
    refine List.forall₂_iff_zip.2 ⟨hlengths slot v hv, fun {child w} hmem here => ?_⟩
    have hchild : IsChild (.map members) child.1 child.2 :=
      ⟨members, slot, v, rfl, hv, (List.of_mem_zip hmem).1⟩
    rw [← ih slot v hv child w hmem trail (hclear.child hnone hchild) (child.1.from here),
      sampleFrom, visitFrom_eq hclear.trailOf]

theorem sample_eq_sampleWalk (follow : Follow (Logged Fault) Value) (h : Unfolds defs node r) :
    sample defs node = sampleWalk follow r .top :=
  sampleFrom_of_unfolds follow h [] (Clear.start defs node) .top

/-- A sample of a schema that unfolds fails only by faults of sampling itself. -/
theorem isSampleFault_of_sample (h : Unfolds defs node r) {fault : Fault}
    (hfault : (sample defs node).outcome = .error fault) : IsSampleFault fault := by
  -- no reference is met, so this may stand for what is done with one
  rw [sample_eq_sampleWalk (fun _ loc => failAt .noProperties loc) h] at hfault
  refine fault_of_sampleWalk (fun _ hown => hown) (fun _ loc other hother => ?_) r .top fault hfault
  rw [outcome_failAt] at hother
  cases hother
  rfl

/-- **Sampling commutes with inlining.** The inlined schema has the sample that the schema has in
its document, also as the example value of a call; and references are no cause of failure. -/
theorem sample_inline {defs : Members} {node r : Value} (h : inline defs node = .ok r) :
    sample [] r = sample defs node ∧
      (∀ schema, r = .map schema → Call.exampleOf .null schema = sample defs node) ∧
      ∀ e, (sample defs node).outcome = .error (.schema e) →
        e.kind ≠ .unresolvedReference ∧ e.kind ≠ .circular := by
  have hunfolds := unfolds_of_inline h
  have hsame : sample [] r = sample defs node := by
    rw [sample_eq_sampleWalk _ hunfolds]
    exact visitFrom_eq (TrailOf.empty []) _ _ r .top
  refine ⟨hsame, ?_, fun e he => ?_⟩
  · rintro schema rfl
    exact hsame
  · have hkind : e.kind = .noExample := isSampleFault_of_sample hunfolds he
    rw [hkind]
    decide

/-- A component with a branch that has no example and a branch that is a reference. -/
def choiceComponents : Members :=
  [(.str "Choice", .map [(.str "oneOf", .list [.map [(.str "type", .str "unheard-of")],
      componentReference "Name"])]),
    (.str "Name", .map [(.str "type", .str "string"), (.str "enum", .list [.str "Ada"])])]

/-- An object with two properties that hold the value of `choice`, one of them in an array. -/
def twoChoices (choice : Value) : Value :=
  .map [(.str "type", .str "object"), (.str "properties", .map [(.str "first", choice),
    (.str "others", .map [(.str "type", .str "array"), (.str "items", choice)])])]

/-- What is left of the component `Choice`. -/
def inlinedChoice : Value :=
  .map [(.str "oneOf", .list [.map [(.str "type", .str "unheard-of")],
    .map [(.str "type", .str "string"), (.str "enum", .list [.str "Ada"])]])]

theorem sample_inline_twoChoices :
    inline choiceComponents (twoChoices (componentReference "Choice")) =
        .ok (twoChoices inlinedChoice) ∧
      sample [] (twoChoices inlinedChoice) =
        sample choiceComponents (twoChoices (componentReference "Choice")) ∧
      (sample [] (twoChoices inlinedChoice)).outcome =
        .ok (.map [(.str "first", .str "Ada"), (.str "others", .list [.str "Ada"])]) :=
  ⟨by cbv, (sample_inline (by cbv)).1, by rfl⟩

end EndpointAtlas.Schema
