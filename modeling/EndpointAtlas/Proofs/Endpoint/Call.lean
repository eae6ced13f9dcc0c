import EndpointAtlas.Endpoint.Call
import EndpointAtlas.Proofs.Outcome
import EndpointAtlas.Proofs.Reached

/-!
# When there are example calls

The first call passes all parameters, behind the body. Whatever needs an example needs it there, so
the calls fail with the first of these that has none (`outcome_examples_eq_error_iff`).
-/

namespace EndpointAtlas.Call

/-- What needs an example: the declared one, and the schema that gives one otherwise. -/
structure Subject where
  declared : Value
  schema : Members

/-- A parameter as it needs an example. -/
def Subject.ofParameter (p : Parameter) : Subject := ⟨p.sample, p.schema⟩

/-- A body as it needs an example. -/
def Subject.ofBody (b : Body) : Subject := ⟨b.sample, b.schema⟩

/-- The example of a subject. -/
def Subject.sample (s : Subject) : Logged Fault Value := exampleOf s.declared s.schema

/-- A subject has an example. -/
def HasExample (s : Subject) : Prop := ∃ v, s.sample.outcome = .ok v

/-- All parameters, the required ones first. -/
def allParameters (params : List Parameter) : List Parameter :=
  params.filter (·.required) ++ params.filter (!·.required)

/-- What needs an example, in the order in which the examples are made. -/
def subjects (params : List Parameter) (requestBody : Option Body) : List Subject :=
  requestBody.toList.map Subject.ofBody ++ (allParameters params).map Subject.ofParameter

variable {params : List Parameter} {body : Option Value} {requestBody : Option Body}
  {streaming : Bool} {fault : Fault}

/-! ## One call -/

theorem outcome_passAll_eq_error_iff (call : Members) :
    (passAll call params).outcome = .error fault ↔
      ∃ s, Reached HasExample (params.map Subject.ofParameter) s ∧
        s.sample.outcome = .error fault := by
  induction params generalizing call with
  | nil => simp [passAll]
  | cons p rest ih =>
    rw [passAll, Logged.outcome_bind, Outcome.bind_eq_error_iff, List.map_cons,
      Reached.exists_cons_iff]
    simp only [ih, exists_and_right]
    rfl

theorem exists_passAll (h : ∀ p ∈ params, HasExample (.ofParameter p)) (call : Members) :
    ∃ passed, (passAll call params).outcome = .ok passed := by
  induction params generalizing call with
  | nil => exact ⟨call, rfl⟩
  | cons p rest ih =>
    rw [List.forall_mem_cons] at h
    obtain ⟨⟨v, hv⟩, hrest⟩ := h
    obtain ⟨all, hall⟩ := ih hrest (passed call p v)
    refine ⟨all, ?_⟩
    rw [passAll, Logged.outcome_bind]
    exact Outcome.bind_eq_ok_iff.2 ⟨v, hv, hall⟩

theorem hasExample_of_passAll {call all : Members} (h : (passAll call params).outcome = .ok all) :
    ∀ p ∈ params, HasExample (.ofParameter p) := by
  induction params generalizing call with
  | nil => simp
  | cons p rest ih =>
    rw [passAll, Logged.outcome_bind] at h
    obtain ⟨v, hv, hrest⟩ := Outcome.bind_eq_ok_iff.1 h
    exact List.forall_mem_cons.2 ⟨⟨v, hv⟩, ih hrest⟩

theorem outcome_render_eq_error_iff (body : Option Value) (streaming : Bool) :
    (render params body streaming).outcome = .error fault ↔
      (passAll [] params).outcome = .error fault := by
  simp [render, Outcome.map_eq_error_iff]

theorem exists_render_iff : (∃ call, (render params body streaming).outcome = .ok call) ↔
    ∃ passed, (passAll [] params).outcome = .ok passed := by
  simp [render, Outcome.map_eq_ok_iff]

/-! ## All calls -/

theorem exists_renderAll (body : Option Value) (streaming : Bool) {variants : List (List Parameter)}
    (h : ∀ params ∈ variants, ∀ p ∈ params, HasExample (.ofParameter p)) :
    ∃ calls, (renderAll body streaming variants).outcome = .ok calls := by
  induction variants with
  | nil => exact ⟨[], rfl⟩
  | cons params rest ih =>
    rw [List.forall_mem_cons] at h
    obtain ⟨call, hcall⟩ := exists_render_iff.2 (exists_passAll h.1 [])
    obtain ⟨calls, hcalls⟩ := ih h.2
    refine ⟨call :: calls, ?_⟩
    simp only [renderAll, Logged.outcome_bind, Outcome.bind_eq_ok_iff]
    exact ⟨call, hcall, calls, hcalls, rfl⟩

/-- Every call passes parameters that the first call passes. -/
theorem mem_allParameters_of_mem_variants {variant : List Parameter}
    (h : variant ∈ variants params) {p : Parameter} (hp : p ∈ variant) :
    p ∈ allParameters params := by
  unfold variants at h
  rcases List.mem_cons.1 h with rfl | h
  · exact hp
  · obtain ⟨q, hq, rfl⟩ := List.mem_map.1 h
    rcases List.mem_append.1 hp with hrequired | hq'
    · exact List.mem_append_left _ hrequired
    · rw [List.mem_singleton.1 hq']
      exact List.mem_append_right _ hq

theorem outcome_renderAll_variants_eq_error_iff (body : Option Value) (streaming : Bool) :
    (renderAll body streaming (variants params)).outcome = .error fault ↔
      (passAll [] (allParameters params)).outcome = .error fault := by
  rw [← outcome_render_eq_error_iff body streaming]
  change (renderAll body streaming (allParameters params :: _)).outcome = _ ↔ _
  rw [renderAll, Logged.outcome_bind, Outcome.bind_eq_error_iff]
  refine or_iff_left ?_
  -- the first call has passed what any other call passes
  rintro ⟨call, hcall, h⟩
  obtain ⟨all, hall⟩ := exists_render_iff.1 ⟨call, hcall⟩
  have hexample := hasExample_of_passAll hall
  obtain ⟨calls, hcalls⟩ := exists_renderAll body streaming fun variant hvariant p hp =>
    hexample p (mem_allParameters_of_mem_variants (List.mem_cons_of_mem _ hvariant) hp)
  rw [Logged.outcome_bind, hcalls] at h
  cases h

/-- **The example calls fail** with the first subject that has no example. -/
theorem outcome_examples_eq_error_iff :
    (examples params requestBody streaming).outcome = .error fault ↔
      ∃ s, Reached HasExample (subjects params requestBody) s ∧
        s.sample.outcome = .error fault := by
  unfold subjects
  cases requestBody with
  | none =>
    rw [Option.toList_none, List.map_nil, List.nil_append, ← outcome_passAll_eq_error_iff [],
      ← outcome_renderAll_variants_eq_error_iff none streaming]
    rfl
  | some b =>
    have hexamples : examples params (some b) streaming =
        (some <$> ofBody b) >>= fun body => renderAll body streaming (variants params) := rfl
    rw [hexamples, Logged.outcome_bind, Option.toList_some, List.map_singleton,
      List.singleton_append, Reached.exists_cons_iff, ← outcome_passAll_eq_error_iff [],
      Outcome.bind_eq_error_iff]
    simp only [Logged.outcome_map, Outcome.map_eq_error_iff, Outcome.map_eq_ok_iff,
      outcome_renderAll_variants_eq_error_iff, exists_and_right]
    refine or_congr Iff.rfl (and_congr_left fun _ => ?_)
    constructor
    · rintro ⟨_, v, hv, -⟩
      exact ⟨v, hv⟩
    · rintro ⟨v, hv⟩
      exact ⟨_, v, hv, rfl⟩

end EndpointAtlas.Call
