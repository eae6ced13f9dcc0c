import EndpointAtlas.Endpoint.Body
import EndpointAtlas.Proofs.Endpoint.Parameter
import EndpointAtlas.Proofs.Schema.SelfContained

/-!
# Schemas of parameters and bodies

Wherever a schema is read from an operation it is inlined first, so that parameters and bodies hold
self-contained schemas only.

1. `selfContained_of_inlinedSchema`: the schema of a record.
2. `Parameter.selfContained_of_ofValues`: all parameters of a list.
3. `Body.Describes`: how the fields of a body are read off the entry of its media type.
4. `Body.Sound`: a body with such a schema, which is a stream just when its media type is for one.
   Bodies of requests and responses are sound, and each code stands once
   (`Body.sound_of_ofResponses`).
-/

namespace EndpointAtlas

open Schema (SelfContained)

variable {defs : Members}

theorem inline_of_inlinedSchema {fields : Members} {v : Value}
    (h : inlinedSchema defs fields = .ok v) :
    Schema.inline defs (declaredSchema fields) = .ok v := by
  unfold inlinedSchema at h
  rwa [Outcome.mapError_eq_ok_iff] at h

/-- A declared schema that is a mapping once it is inlined holds no references. -/
theorem selfContained_of_inlinedSchema {fields schema : Members}
    (h : inlinedSchema defs fields = .ok (.map schema)) : SelfContained (.map schema) :=
  (Schema.unfolds_of_inline (inline_of_inlinedSchema h)).selfContained

/-! ## Parameters -/

/-- All parameters of a list hold self-contained schemas. -/
theorem Parameter.selfContained_of_ofValues {values : List Value} {params : List Parameter}
    (h : (ofValues defs values).outcome = .ok params) :
    ∀ p ∈ params, SelfContained (.map p.schema) := by
  intro p hp
  obtain ⟨fields, -, hfields⟩ := Outcome.exists_of_forall₂ (outcome_ofValues_eq_ok_iff.1 h).2 hp
  exact selfContained_of_inlinedSchema hfields.schema

/-! ## Bodies -/

namespace Body

/-- A body holds a self-contained schema, and is a stream just when its media type is for one. -/
structure Sound (b : Body) : Prop where
  schema : SelfContained (.map b.schema)
  streaming : b.streaming = Media.isStreaming b.mediaType

/-- A body that may be absent is sound if it is there. -/
def Sound? (body : Option Body) : Prop := ∀ b, body = some b → b.Sound

theorem Sound?.none : Sound? none := by
  intro b hb
  cases hb

/-- The fields describe a body in a media type. -/
structure Describes (defs : Members) (mediaType : String) (fields : Members) (b : Body) : Prop where
  inMediaType : mediaType = b.mediaType
  schema : inlinedSchema defs fields = .ok (.map b.schema)
  streaming : Media.isStreaming mediaType = b.streaming
  sample : declaredExample fields = b.sample
  refName : Schema.referencedName? (declaredSchema fields) = b.refName

theorem describes_of_ofEntry {mediaType : String} {fields : Members} {b : Body}
    (h : ofEntry defs mediaType fields = .ok b) : Describes defs mediaType fields b := by
  obtain ⟨v, hinlined, hchecked⟩ := Outcome.bind_eq_ok_iff.1 h
  -- from the last field to the first
  obtain ⟨_, _, hsample, href, rfl⟩ :=
    Checked.seq_eq_ok_iff.1 (Checked.toExcept_eq_ok_iff.1 hchecked)
  obtain ⟨_, _, hstreaming, hsampled, rfl⟩ := Checked.seq_eq_ok_iff.1 hsample
  obtain ⟨_, _, hbody, hstreams, rfl⟩ := Checked.seq_eq_ok_iff.1 hstreaming
  obtain ⟨schema, hschema, rfl⟩ := Checked.map_eq_ok_iff.1 hbody
  cases href
  cases hsampled
  cases hstreams
  rw [Checked.inField_eq_ok_iff, Check.mapping_eq_ok_iff] at hschema
  exact ⟨rfl, hschema ▸ hinlined, rfl, rfl, rfl⟩

theorem sound_of_ofEntry {mediaType : String} {entry : Members} {b : Body}
    (h : ofEntry defs mediaType entry = .ok b) : b.Sound := by
  have hb := describes_of_ofEntry h
  exact ⟨selfContained_of_inlinedSchema hb.schema, hb.streaming.symm.trans (by rw [hb.inMediaType])⟩

theorem sound_of_ofContent {content : Value} {loc : Location} {body : Option Body}
    (h : ofContent defs content loc = .ok body) : Sound? body := by
  unfold ofContent at h
  dsimp only at h
  split at h
  case h_3 => cases h
  -- null and a mapping are described alike
  all_goals
    obtain ⟨picked, -, hpicked⟩ := Outcome.bind_eq_ok_iff.1 h
    split at hpicked
    · cases hpicked
      exact .none
    · obtain ⟨b, hb, heq⟩ := Outcome.bind_eq_ok_iff.1 hpicked
      cases heq
      rintro _ ⟨⟩
      exact sound_of_ofEntry hb
    · cases hpicked

/-- The body of a request is sound. -/
theorem sound_of_ofRequest {request : Value} {body : Option Body}
    (h : ofRequest defs request = .ok body) : Sound? body := by
  unfold ofRequest at h
  dsimp only at h
  split at h
  · cases h
    exact .none
  · cases request with
    | map fields =>
      dsimp only at h
      split at h
      · cases h
      · exact sound_of_ofContent h
    | _ => cases h

theorem sound_of_ofResponse {response : Value} {loc : Location} {body : Option Body}
    (h : ofResponse defs response loc = .ok body) : Sound? body := by
  unfold ofResponse at h
  cases response with
  | scalar s =>
    cases s with
    | null =>
      cases h
      exact .none
    | _ => cases h
  | map fields =>
    dsimp only at h
    split at h
    · cases h
    · exact sound_of_ofContent h
  | _ => cases h

/-- Bodies by code: the codes are distinct, and the bodies are sound. -/
structure SoundResponses (bodies : List (String × Option Body)) : Prop where
  nodup : (bodies.map Prod.fst).Nodup
  sound : ∀ p ∈ bodies, Sound? p.2

theorem mem_keys_setCode {code : String} {body : Option Body}
    {bodies : List (String × Option Body)} {other : String} :
    other ∈ (setCode code body bodies).map Prod.fst ↔
      other = code ∨ other ∈ bodies.map Prod.fst := by
  induction bodies with
  | nil => simp [setCode]
  | cons p rest ih =>
    obtain ⟨c, b⟩ := p
    rw [setCode]
    split
    · next hc =>
      subst hc
      simp
    · rw [List.map_cons, List.mem_cons, ih, List.map_cons, List.mem_cons]
      exact or_left_comm

/-- Setting a code keeps the codes distinct. -/
theorem SoundResponses.setCode {code : String} {body : Option Body}
    {bodies : List (String × Option Body)} (h : SoundResponses bodies) (hbody : Sound? body) :
    SoundResponses (setCode code body bodies) := by
  induction bodies with
  | nil => exact ⟨List.nodup_singleton _, List.forall_mem_singleton.2 hbody⟩
  | cons p rest ih =>
    obtain ⟨c, b⟩ := p
    obtain ⟨hnodup, hsound⟩ := h
    rw [List.map_cons, List.nodup_cons] at hnodup
    rw [List.forall_mem_cons] at hsound
    rw [Body.setCode]
    split
    · exact ⟨List.nodup_cons.2 hnodup, List.forall_mem_cons.2 ⟨hbody, hsound.2⟩⟩
    · next hc =>
      obtain ⟨hrestNodup, hrestSound⟩ := ih ⟨hnodup.2, hsound.2⟩
      refine ⟨List.nodup_cons.2 ⟨fun hmem => ?_, hrestNodup⟩,
        List.forall_mem_cons.2 ⟨hsound.1, hrestSound⟩⟩
      rcases mem_keys_setCode.1 hmem with heq | hrest
      · exact hc heq
      · exact hnodup.1 hrest

theorem sound_of_addResponses {bodies result : List (String × Option Body)} {responses : Members}
    (hbodies : SoundResponses bodies) (h : addResponses defs bodies responses = .ok result) :
    SoundResponses result := by
  induction responses generalizing bodies with
  | nil =>
    cases h
    exact hbodies
  | cons m rest ih =>
    obtain ⟨code, response⟩ := m
    rw [addResponses] at h
    obtain ⟨body, hbody, hrest⟩ := Outcome.bind_eq_ok_iff.1 h
    exact ih (hbodies.setCode (sound_of_ofResponse hbody)) hrest

/-- The bodies of responses are sound, and each code stands once. -/
theorem sound_of_ofResponses {responses : Value} {bodies : List (String × Option Body)}
    (h : ofResponses defs responses = .ok bodies) : SoundResponses bodies := by
  have hempty : SoundResponses [] := ⟨List.nodup_nil, by simp⟩
  unfold ofResponses at h
  cases responses with
  | scalar s =>
    cases s with
    | null =>
      cases h
      exact hempty
    | _ => cases h
  | map members => exact sound_of_addResponses hempty h
  | _ => cases h

end Body

end EndpointAtlas
