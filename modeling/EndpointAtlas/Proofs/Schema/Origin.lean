import EndpointAtlas.Proofs.Schema.SampleUnfolding

/-!
# Where errors come from

An error of a walk was raised at some node. `Way` leads there from the root of the walk, by steps to
children and from references into their components, and records what the walk knows on the way: the
location and the trail.

1. `Way`, for any notion of steps.
2. `exists_way_of_inline_eq_error`: an error of inlining comes from a schema that is not complete or
   from a reference that cannot be opened.
3. `exists_way_of_sample_eq_error`: a fault of sampling comes from a node without a sample of its
   own or from such a reference, and no branch on the way passed over it.
-/

namespace EndpointAtlas.Schema

/-! ## Ways -/

/-- Steps and opened components lead from a root to a node. The location tells the steps, and the
trail the components. -/
inductive Way (S : Value → Step → Value → Prop) (defs : Members) (root : Value) :
    Trail → Value → Location → Prop
  | start : Way S defs root [] root .top
  | child {trail : Trail} {node child : Value} {loc : Location} {step : Step}
      (way : Way S defs root trail node loc) (steps : S node step child) :
      Way S defs root trail child (step.from loc)
  | component {trail : Trail} {members : Members} {ref target : Value} {loc : Location}
      {name : String} (way : Way S defs root trail (.map members) loc)
      (isReference : Members.get? members referenceKeyword = some ref)
      (opens : openReference defs trail ref loc = .ok (name, target)) :
      Way S defs root (trail ++ [name]) target loc

variable {S : Value → Step → Value → Prop} {defs : Members} {root node : Value} {trail : Trail}
  {loc : Location}

theorem Way.trailOf (h : Way S defs root trail node loc) : TrailOf defs trail := by
  induction h with
  | start => exact TrailOf.empty defs
  | child _ _ ih => exact ih
  | component _ _ hopens ih =>
    obtain ⟨-, hnew, hget⟩ := openReference_eq_ok_iff.1 hopens
    exact ih.push hnew hget

/-- A way takes all steps that its steps are. -/
theorem Way.mono {S' : Value → Step → Value → Prop}
    (hS : ∀ node step child, S node step child → S' node step child)
    (h : Way S defs root trail node loc) : Way S' defs root trail node loc := by
  induction h with
  | start => exact .start
  | child _ hstep ih => exact .child ih (hS _ _ _ hstep)
  | component _ href hopens ih => exact .component ih href hopens

/-- A node is a reference that a walk does not open, for the reason that an error gives. -/
def Refused (defs : Members) (trail : Trail) (node : Value) (loc : Location) (e : SchemaError) :
    Prop :=
  ∃ members ref, node = .map members ∧ Members.get? members referenceKeyword = some ref ∧
    openReference defs trail ref loc = .error e

/-- A walk refuses a reference, or goes on in its component. -/
theorem cases_of_followFrom {m : Type → Type} {α : Type} (raise : SchemaError → m α)
    (walk : Walk m α) {members : Members} {ref : Value}
    (href : members.get? referenceKeyword = some ref) :
    (∃ e, Refused defs trail (.map members) loc e ∧
        followFrom raise walk defs trail ref loc = raise e) ∨
      ∃ name target, openReference defs trail ref loc = .ok (name, target) ∧
        followFrom raise walk defs trail ref loc =
          visitFrom raise walk defs (trail ++ [name]) target loc := by
  unfold followFrom
  cases hopen : openReference defs trail ref loc with
  | error e => exact .inl ⟨e, ⟨members, ref, rfl, href, hopen⟩, rfl⟩
  | ok opened => exact .inr ⟨opened.1, opened.2, rfl, rfl⟩

/-! ## Errors of inlining -/

/-- A step that inlining takes: to any child of a schema that is not a reference. -/
def InlineStep (node : Value) (step : Step) (child : Value) : Prop :=
  isReference node = false ∧ IsChild node step child

/-- A node is a schema that is not complete, and an error says so. -/
def Incomplete (node : Value) (loc : Location) (e : SchemaError) : Prop :=
  ∃ members cause, node = .map members ∧ Members.get? members referenceKeyword = none ∧
    missingStructure? members = some cause ∧ e = ⟨cause, loc⟩

/-- On one trail, errors come from schemas that are not complete, or from references. -/
theorem exists_way_of_expand {follow : Follow (Except SchemaError) Value} {e : SchemaError} :
    ∀ node loc, Way InlineStep defs root trail node loc →
      expand .error follow node loc = .error e →
      ∃ origin here, Way InlineStep defs root trail origin here ∧ (Incomplete origin here e ∨
        ∃ members ref, origin = .map members ∧ Members.get? members referenceKeyword = some ref ∧
          follow ref here = .error e) := by
  refine node_induction ?_ ?_ ?_
  · intro v hleaf loc _ h
    rw [expand_of_not_map hleaf] at h
    cases h
  · intro members ref href loc hway h
    rw [expand_reference href] at h
    exact ⟨_, loc, hway, .inr ⟨members, ref, rfl, href, h⟩⟩
  · intro members hnone ih loc hway h
    rcases cases_of_expand_map_eq_error hnone h with
      ⟨cause, hmissing, he⟩ | ⟨step, child, hchild, hfails⟩
    · exact ⟨_, loc, hway, .inl ⟨members, cause, rfl, hnone, hmissing, he⟩⟩
    · have hstep : InlineStep (.map members) step child := ⟨isReference_map.2 hnone, hchild⟩
      exact ih step child hchild _ (hway.child hstep) hfails

theorem exists_way_of_inlineFrom {e : SchemaError} (htrail : TrailOf defs trail) :
    ∀ node loc, Way InlineStep defs root trail node loc →
      inlineFrom defs trail node loc = .error e →
      ∃ trail' origin here, Way InlineStep defs root trail' origin here ∧
        (Incomplete origin here e ∨ Refused defs trail' origin here e) := by
  refine TrailOf.induction (P := fun trail => ∀ node loc, Way InlineStep defs root trail node loc →
    inlineFrom defs trail node loc = .error e →
    ∃ trail' origin here, Way InlineStep defs root trail' origin here ∧
      (Incomplete origin here e ∨ Refused defs trail' origin here e)) ?_ htrail
  intro trail htrail ih node loc hway h
  rw [inlineFrom, visitFrom_eq htrail] at h
  obtain ⟨origin, here, horigin, hown | ⟨members, ref, rfl, href, hfollow⟩⟩ :=
    exists_way_of_expand node loc hway h
  · exact ⟨trail, origin, here, horigin, .inl hown⟩
  · rcases cases_of_followFrom _ _ href with
      ⟨e', hrefused, hraise⟩ | ⟨name, target, hopen, hvisit⟩
    · rw [hraise] at hfollow
      cases hfollow
      exact ⟨trail, _, here, horigin, .inr hrefused⟩
    · obtain ⟨-, hnew, hget⟩ := openReference_eq_ok_iff.1 hopen
      rw [hvisit] at hfollow
      exact ih name target hnew hget target here (horigin.component href hopen) hfollow

/-- **Where an error of inlining comes from.** -/
theorem exists_way_of_inline_eq_error {e : SchemaError} (h : inline defs root = .error e) :
    ∃ trail origin here, Way InlineStep defs root trail origin here ∧
      (Incomplete origin here e ∨ Refused defs trail origin here e) :=
  exists_way_of_inlineFrom (TrailOf.empty defs) root .top .start h

/-! ## Faults of sampling -/

/-- What sampling makes of references, with some components open. -/
def sampleFollow (defs : Members) (trail : Trail) : Follow (Logged Fault) Value :=
  followFrom (fun e => throw (.schema e)) sampleWalk defs trail

/-- A step that sampling takes to a child with a certain fault: no example is declared, the child is
tried, and if it is a branch it is not passed over. -/
def TriedStep (defs : Members) (fault : Fault) (node : Value) (step : Step) (child : Value) :
    Prop :=
  ∃ members trail loc, node = .map members ∧ Members.get? members referenceKeyword = none ∧
    declaredExample? members = none ∧
    Tries (sampleFollow defs trail) members loc (step, child) ∧
    ((∃ c, shape members = .composite c) → passedOver? fault = none)

/-- A node has no sample by itself, and a fault says so. -/
def HasNoSample (defs : Members) (trail : Trail) (node : Value) (loc : Location) (fault : Fault) :
    Prop :=
  (∃ members, node = .map members ∧ Members.get? members referenceKeyword = none ∧
    declaredExample? members = none ∧ Lacks (sampleFollow defs trail) members loc fault) ∨
  (∀ members, node ≠ .map members) ∧ fault = .schema ⟨.notASchema node, loc⟩

variable {fault : Fault}

theorem inlineStep_of_triedStep {step : Step} {child : Value}
    (h : TriedStep defs fault node step child) : InlineStep node step child := by
  obtain ⟨members, trail, loc, rfl, hnone, -, htries, -⟩ := h
  exact ⟨isReference_map.2 hnone, htries.isChild⟩

/-- On one trail, faults come from nodes without a sample, or from references. -/
theorem exists_way_of_sampleWalk :
    ∀ node loc, Way (TriedStep defs fault) defs root trail node loc →
      (sampleWalk (sampleFollow defs trail) node loc).outcome = .error fault →
      ∃ origin here, Way (TriedStep defs fault) defs root trail origin here ∧
        (HasNoSample defs trail origin here fault ∨
          ∃ members ref, origin = .map members ∧ Members.get? members referenceKeyword = some ref ∧
            (sampleFollow defs trail ref here).outcome = .error fault) := by
  refine node_induction ?_ ?_ ?_
  · intro v hleaf loc hway h
    rw [sampleWalk_of_not_map hleaf, outcome_failAt] at h
    cases h
    exact ⟨v, loc, hway, .inl (.inr ⟨hleaf, rfl⟩)⟩
  · intro members ref href loc hway h
    rw [sampleWalk_reference href] at h
    exact ⟨_, loc, hway, .inr ⟨members, ref, rfl, href, h⟩⟩
  · intro members hnone ih loc hway h
    have hdeclared := declaredExample?_of_error hnone h
    rcases (outcome_sampleWalk_eq_error_iff hnone hdeclared).1 h with
      hlacks | ⟨⟨step, child⟩, htries, hfails, hpassed⟩
    · exact ⟨_, loc, hway, .inl (.inl ⟨members, rfl, hnone, hdeclared, hlacks⟩)⟩
    · have hstep : TriedStep defs fault (.map members) step child :=
        ⟨members, trail, loc, rfl, hnone, hdeclared, htries, hpassed⟩
      exact ih step child htries.isChild _ (hway.child hstep) hfails

theorem exists_way_of_sampleFrom (htrail : TrailOf defs trail) :
    ∀ node loc, Way (TriedStep defs fault) defs root trail node loc →
      (sampleFrom defs trail node loc).outcome = .error fault →
      ∃ trail' origin here, Way (TriedStep defs fault) defs root trail' origin here ∧
        (HasNoSample defs trail' origin here fault ∨
          ∃ e, fault = .schema e ∧ Refused defs trail' origin here e) := by
  refine TrailOf.induction (P := fun trail => ∀ node loc,
    Way (TriedStep defs fault) defs root trail node loc →
    (sampleFrom defs trail node loc).outcome = .error fault →
    ∃ trail' origin here, Way (TriedStep defs fault) defs root trail' origin here ∧
      (HasNoSample defs trail' origin here fault ∨
        ∃ e, fault = .schema e ∧ Refused defs trail' origin here e)) ?_ htrail
  intro trail htrail ih node loc hway h
  rw [sampleFrom, visitFrom_eq htrail] at h
  obtain ⟨origin, here, horigin, hown | ⟨members, ref, rfl, href, hfollow⟩⟩ :=
    exists_way_of_sampleWalk node loc hway h
  · exact ⟨trail, origin, here, horigin, .inl hown⟩
  · unfold sampleFollow at hfollow
    rcases cases_of_followFrom _ _ href with
      ⟨e, hrefused, hraise⟩ | ⟨name, target, hopen, hvisit⟩
    · rw [hraise] at hfollow
      cases hfollow
      exact ⟨trail, _, here, horigin, .inr ⟨e, rfl, hrefused⟩⟩
    · obtain ⟨-, hnew, hget⟩ := openReference_eq_ok_iff.1 hopen
      rw [hvisit] at hfollow
      exact ih name target hnew hget target here (horigin.component href hopen) hfollow

/-- **Where a fault of sampling comes from.** -/
theorem exists_way_of_sample_eq_error (h : (sample defs root).outcome = .error fault) :
    ∃ trail origin here, Way (TriedStep defs fault) defs root trail origin here ∧
      (HasNoSample defs trail origin here fault ∨
        ∃ e, fault = .schema e ∧ Refused defs trail origin here e) :=
  exists_way_of_sampleFrom (TrailOf.empty defs) root .top .start h

end EndpointAtlas.Schema
