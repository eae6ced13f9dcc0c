import EndpointAtlas.Endpoint.Call
import EndpointAtlas.Proofs.Members
import EndpointAtlas.Proofs.Outcome

/-!
# What example calls look like

Arguments of parameters are grouped by the places where they are passed. The body and the mark of a
stream stand behind them, under keys that are no places.

1. `mem_passAll`: passing parameters adds groups for their places only.
2. `Suits`: a call has the keys that its endpoint asks for; `suits_of_render` for one call.
3. `length_and_suits_of_examples`: one call for all parameters and one for each optional one.
-/

namespace EndpointAtlas

/-- The keys behind the arguments are no places. -/
theorem Place.label_ne (place : Place) : place.label ≠ "body" ∧ place.label ≠ "parse_as" := by
  cases place <;> decide

namespace Call

variable {params : List Parameter} {body : Option Value} {requestBody : Option Body}
  {streaming : Bool} {call : Members}

/-- Passing parameters adds groups for their places only. -/
theorem mem_passAll {start : Members} (h : (passAll start params).outcome = .ok call) :
    ∀ m ∈ call, m ∈ start ∨ ∃ p ∈ params, m.1 = .str p.place.label := by
  induction params generalizing start with
  | nil =>
    cases h
    exact fun m hm => .inl hm
  | cons p rest ih =>
    rw [passAll, Logged.outcome_bind] at h
    obtain ⟨v, -, hrest⟩ := Outcome.bind_eq_ok_iff.1 h
    intro m hm
    rcases ih hrest m hm with hpassed | ⟨q, hq, hplace⟩
    · rcases Members.mem_set hpassed with hkey | hstart
      · exact .inr ⟨p, List.mem_cons_self, hkey⟩
      · exact .inl hstart
    · exact .inr ⟨q, List.mem_cons_of_mem p hq, hplace⟩

/-- A call has a body if one is asked for, the mark of a stream if there is one, and else groups of
arguments for places of parameters only. -/
structure Suits (params : List Parameter) (hasBody streaming : Bool) (call : Members) : Prop where
  body : call.has "body" = hasBody
  mark : call.get? "parse_as" = if streaming then some (.str "stream") else none
  keys : ∀ m ∈ call, m.1 = .str "body" ∨ m.1 = .str "parse_as" ∨
    ∃ p ∈ params, m.1 = .str p.place.label

theorem suits_of_render (h : (render params body streaming).outcome = .ok call) :
    Suits params body.isSome streaming call := by
  unfold render at h
  rw [Logged.outcome_bind] at h
  obtain ⟨groups, hgroups, heq⟩ := Outcome.bind_eq_ok_iff.1 h
  have hplaces : ∀ m ∈ groups, ∃ p ∈ params, m.1 = .str p.place.label := by
    intro m hm
    rcases mem_passAll hgroups m hm with hstart | hplace
    · cases hstart
    · exact hplace
  have hbody : groups.get? "body" = none := by
    refine Members.get?_eq_none_iff.2 fun m hm hkey => ?_
    obtain ⟨p, -, hplace⟩ := hplaces m hm
    rw [hplace] at hkey
    exact (Place.label_ne p.place).1 (Scalar.str.inj hkey)
  have hmark : groups.get? "parse_as" = none := by
    refine Members.get?_eq_none_iff.2 fun m hm hkey => ?_
    obtain ⟨p, -, hplace⟩ := hplaces m hm
    rw [hplace] at hkey
    exact (Place.label_ne p.place).2 (Scalar.str.inj hkey)
  cases heq
  constructor
  · rw [Members.has, Members.get?_append, Members.get?_append, hbody]
    cases body <;> cases streaming <;> rfl
  · rw [Members.get?_append, Members.get?_append, hmark]
    cases body <;> cases streaming <;> rfl
  · intro m hm
    rcases List.mem_append.1 hm with hm | hm
    · rcases List.mem_append.1 hm with hm | hm
      · exact .inr (.inr (hplaces m hm))
      · cases body with
        | none => cases hm
        | some v =>
          rw [List.mem_singleton.1 hm]
          exact .inl rfl
    · cases streaming with
      | false => cases hm
      | true =>
        rw [List.mem_singleton.1 hm]
        exact .inr (.inl rfl)

theorem renders_of_renderAll {variants : List (List Parameter)} {calls : List Members}
    (h : (renderAll body streaming variants).outcome = .ok calls) :
    List.Forall₂ (fun params call => (render params body streaming).outcome = .ok call) variants
      calls := by
  induction variants generalizing calls with
  | nil =>
    cases h
    exact .nil
  | cons params rest ih =>
    rw [renderAll, Logged.outcome_bind] at h
    obtain ⟨call, hcall, h⟩ := Outcome.bind_eq_ok_iff.1 h
    rw [Logged.outcome_bind] at h
    obtain ⟨others, hothers, heq⟩ := Outcome.bind_eq_ok_iff.1 h
    cases heq
    exact .cons hcall (ih hothers)

/-- A variant passes parameters of the endpoint. -/
theorem mem_of_mem_variants {variant : List Parameter} (h : variant ∈ variants params)
    {p : Parameter} (hp : p ∈ variant) : p ∈ params := by
  have hfilter : ∀ f : Parameter → Bool, p ∈ params.filter f → p ∈ params :=
    fun f hf => (List.mem_filter.1 hf).1
  unfold variants at h
  rcases List.mem_cons.1 h with rfl | h
  · rcases List.mem_append.1 hp with hp | hp <;> exact hfilter _ hp
  · obtain ⟨q, hq, rfl⟩ := List.mem_map.1 h
    rcases List.mem_append.1 hp with hp | hp
    · exact hfilter _ hp
    · rw [List.mem_singleton.1 hp]
      exact (List.mem_filter.1 hq).1

theorem length_variants (params : List Parameter) :
    (variants params).length = 1 + (params.filter (!·.required)).length := by
  unfold variants
  rw [List.length_cons, List.length_map, Nat.add_comm]

/-- Example calls are rendered from the example of the body, if there is one. -/
theorem exists_renderAll_of_examples {calls : List Members}
    (h : (examples params requestBody streaming).outcome = .ok calls) :
    ∃ body, Option.Rel (fun b v => (ofBody b).outcome = .ok v) requestBody body ∧
      (renderAll body streaming (variants params)).outcome = .ok calls := by
  cases requestBody with
  | none => exact ⟨none, .none, h⟩
  | some b =>
    change ((some <$> ofBody b) >>= fun body =>
      renderAll body streaming (variants params)).outcome = .ok calls at h
    rw [Logged.outcome_bind, Logged.outcome_map] at h
    obtain ⟨body, hbody, hcalls⟩ := Outcome.bind_eq_ok_iff.1 h
    obtain ⟨v, hv, rfl⟩ := Outcome.map_eq_ok_iff.1 hbody
    exact ⟨some v, .some hv, hcalls⟩

/-- **Example calls** are as many as there are optional parameters, and one more; each of them suits
the endpoint. -/
theorem length_and_suits_of_examples {calls : List Members}
    (h : (examples params requestBody streaming).outcome = .ok calls) :
    calls.length = 1 + (params.filter (!·.required)).length ∧
      ∀ call ∈ calls, Suits params requestBody.isSome streaming call := by
  obtain ⟨body, hbody, hcalls⟩ := exists_renderAll_of_examples h
  have hsome : body.isSome = requestBody.isSome := by cases hbody <;> rfl
  have hrenders := renders_of_renderAll hcalls
  constructor
  · rw [← hrenders.length_eq, length_variants]
  · intro call hcall
    rw [← List.map_snd_zip (Nat.le_of_eq hrenders.length_eq.symm)] at hcall
    obtain ⟨⟨variant, _⟩, hmem, rfl⟩ := List.mem_map.1 hcall
    have hsuits := suits_of_render (List.forall₂_zip hrenders hmem)
    rw [hsome] at hsuits
    exact { hsuits with
      keys := fun m hm => (hsuits.keys m hm).imp_right fun h => h.imp_right fun ⟨p, hp, hplace⟩ =>
        ⟨p, mem_of_mem_variants (List.of_mem_zip hmem).1 hp, hplace⟩ }

end Call

end EndpointAtlas
