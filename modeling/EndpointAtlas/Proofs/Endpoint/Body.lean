import EndpointAtlas.Endpoint.Body
import EndpointAtlas.Proofs.Json
import EndpointAtlas.Proofs.Unrecorded

/-!
# When bodies can be read

A media type is picked by matching the keys of a content map one after the other, which have to be
texts. In a document of JSON they are, so that all faults of bodies are put on record.
-/

namespace EndpointAtlas

theorem Media.exists_firstJson? {members : Members} (h : ∀ m ∈ members, ∃ s, m.1 = .str s) :
    ∃ found, firstJson? members = .ok found := by
  induction members with
  | nil => exact ⟨none, rfl⟩
  | cons m rest ih =>
    obtain ⟨k, entry⟩ := m
    rw [List.forall_mem_cons] at h
    obtain ⟨⟨key, rfl⟩, hrest⟩ := h
    rw [firstJson?]
    split
    · exact ⟨_, rfl⟩
    · exact ih hrest

theorem Media.exists_pick {members : Members} (h : ∀ m ∈ members, ∃ s, m.1 = .str s) :
    ∃ picked, pick (.map members) = .ok picked := by
  obtain ⟨found, hfound⟩ := exists_firstJson? h
  unfold pick
  split
  · exact ⟨none, rfl⟩
  · simp only [hfound, bind, Except.bind]
    split
    · exact ⟨_, rfl⟩
    · split <;> exact ⟨_, rfl⟩

namespace Body

variable {fault : Fault} {v : Value}

theorem not_unrecorded_ofEntry (defs : Members) (mediaType : String) (entry : Members) :
    ¬ Unrecorded (ofEntry defs mediaType entry) fault := by
  simp [ofEntry, Unrecorded.bind_iff, inlinedSchema]

theorem not_unrecorded_ofContent (defs : Members) (loc : Location) (h : v.isJson = true) :
    ¬ Unrecorded (ofContent defs v loc) fault := by
  unfold ofContent
  cases v with
  | scalar s =>
    cases s with
    | null => exact (Unrecorded.ok_iff _).1
    | _ => exact (Unrecorded.schema_iff _).1
  | map members =>
    obtain ⟨picked, hpicked⟩ := Media.exists_pick fun m hm => (Value.isJson_map h m hm).1
    dsimp only
    rw [hpicked, Unrecorded.bind_iff]
    rintro (hpick | ⟨_, hok, hrest⟩)
    · exact (Unrecorded.ok_iff _).1 hpick
    · cases hok
      split at hrest
      · exact (Unrecorded.ok_iff _).1 hrest
      · exact not_unrecorded_ofEntry _ _ _ (Unrecorded.map_iff.1 hrest)
      · exact (Unrecorded.schema_iff _).1 hrest
  | _ => exact (Unrecorded.schema_iff _).1

/-- The faults of a request body are put on record. -/
theorem not_unrecorded_ofRequest (defs : Members) (h : v.isJson = true) :
    ¬ Unrecorded (ofRequest defs v) fault := by
  unfold ofRequest
  dsimp only
  split
  · exact (Unrecorded.ok_iff _).1
  · cases v with
    | map fields =>
      dsimp only
      split
      · exact (Unrecorded.schema_iff _).1
      · exact not_unrecorded_ofContent _ _ (Value.isJson_getD h _)
    | _ => exact (Unrecorded.schema_iff _).1

theorem not_unrecorded_ofResponse (defs : Members) (loc : Location) (h : v.isJson = true) :
    ¬ Unrecorded (ofResponse defs v loc) fault := by
  unfold ofResponse
  cases v with
  | scalar s =>
    cases s with
    | null => exact (Unrecorded.ok_iff _).1
    | _ => exact (Unrecorded.schema_iff _).1
  | map fields =>
    dsimp only
    split
    · exact (Unrecorded.schema_iff _).1
    · exact not_unrecorded_ofContent _ _ (Value.isJson_getD h _)
  | _ => exact (Unrecorded.schema_iff _).1

theorem not_unrecorded_addResponses (defs : Members) (bodies : List (String × Option Body))
    {responses : Members} (h : ∀ m ∈ responses, m.2.isJson = true) :
    ¬ Unrecorded (addResponses defs bodies responses) fault := by
  induction responses generalizing bodies with
  | nil => exact (Unrecorded.ok_iff _).1
  | cons m rest ih =>
    obtain ⟨code, response⟩ := m
    rw [List.forall_mem_cons] at h
    rw [addResponses, Unrecorded.bind_iff]
    rintro (hresponse | ⟨body, -, hrest⟩)
    · exact not_unrecorded_ofResponse _ _ h.1 hresponse
    · exact ih _ h.2 hrest

/-- The faults of responses are put on record. -/
theorem not_unrecorded_ofResponses (defs : Members) (h : v.isJson = true) :
    ¬ Unrecorded (ofResponses defs v) fault := by
  unfold ofResponses
  cases v with
  | scalar s =>
    cases s with
    | null => exact (Unrecorded.ok_iff _).1
    | _ => exact (Unrecorded.schema_iff _).1
  | map members => exact not_unrecorded_addResponses _ _ fun m hm => (Value.isJson_map h m hm).2
  | _ => exact (Unrecorded.schema_iff _).1

end Body

end EndpointAtlas
