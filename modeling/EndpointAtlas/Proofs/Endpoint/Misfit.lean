import EndpointAtlas.Proofs.Endpoint.Shape
import EndpointAtlas.Proofs.Schema.ErrorLocation

/-!
# Where malformed operations are malformed

An operation that is malformed holds a value of a wrong shape, and the error names the segments that
lead there. Only the entry of a parameter list is counted among the shared parameters that stay as
well, so that the segments lead to another place if there are any.

1. `Value.Holds`, `Operation.Misfit`: a value behind segments, and the shapes that are wrong.
2. `Malforms`: computations that end with an error of this kind; schemas and example calls do not.
3. `Parameter.malforms_merged`, `Body.malforms_ofRequest`, `Body.malforms_ofResponses`: the errors of
   the parts of an operation.
4. `Operation.located_of_malformed`: the errors of an operation.
-/

namespace EndpointAtlas

/-- What is matched by no mapping is none. -/
theorem Value.not_isMap {v : Value} (h : ∀ members, v ≠ .map members) : ¬ v.IsMap := by
  rintro ⟨members, rfl⟩
  exact h members rfl

/-- A value holds another one behind segments, which are keys of mappings and positions in lists. -/
inductive Value.Holds : Value → List String → Value → Prop
  | here {v : Value} : Holds v [] v
  | member {members : Members} {key : Scalar} {v w : Value} {segments : List String}
      (mem : (key, v) ∈ members) (holds : Holds v segments w) :
      Holds (.map members) (key.text :: segments) w
  | item {items : List Value} {i : Nat} {v w : Value} {segments : List String}
      (get : items[i]? = some v) (holds : Holds v segments w) :
      Holds (.list items) (toString i :: segments) w

theorem Value.Holds.trans {v w u : Value} {segments more : List String} (h : v.Holds segments w)
    (hmore : w.Holds more u) : v.Holds (segments ++ more) u := by
  induction h with
  | here => exact hmore
  | member hmem _ ih => exact .member hmem (ih hmore)
  | item hget _ ih => exact .item hget (ih hmore)

/-- The first segment is a key of a mapping or a position in a list. -/
theorem Value.Holds.cases_cons {v w : Value} {first : String} {segments : List String}
    (h : v.Holds (first :: segments) w) :
    (∃ (members : Members) (key : Scalar) (u : Value), v = .map members ∧ (key, u) ∈ members ∧
        key.text = first ∧ u.Holds segments w) ∨
      ∃ (items : List Value) (i : Nat) (u : Value), v = .list items ∧ items[i]? = some u ∧
        toString i = first ∧ u.Holds segments w := by
  generalize hall : first :: segments = all at h
  cases h with
  | here => cases hall
  | member hmem hholds =>
    cases hall
    exact .inl ⟨_, _, _, rfl, hmem, rfl, hholds⟩
  | item hget hholds =>
    cases hall
    exact .inr ⟨_, _, _, rfl, hget, rfl, hholds⟩

/-- The shapes that are wrong in a content map, at the segments behind it. -/
inductive Body.ContentMisfit : SchemaError.Cause → List String → Value → Prop
  | content {v : Value} (notMap : ¬ v.IsMap) : ContentMisfit .contentNotMap [] v
  | entry {mediaType : String} {v : Value} (notMap : ¬ v.IsMap) :
      ContentMisfit .mediaTypeNotObject [mediaType] v

/-- The shapes that are wrong in an operation, at the segments behind it. -/
inductive Operation.Misfit : SchemaError.Cause → List String → Value → Prop
  | id {v : Value} (notText : ∀ s, v ≠ .str s) : Misfit (.operationIdNotText v) ["operationId"] v
  | list {field : String} {v : Value} (isField : field = "parameters" ∨ field = "tags")
      (notList : ∀ items, v ≠ .list items) : Misfit (.fieldNotList field) [field] v
  | parameter {i : Nat} {v : Value} (notMap : ¬ v.IsMap) :
      Misfit .parameterNotObject ["parameters", toString i] v
  | requestBody {v : Value} (notMap : ¬ v.IsMap) : Misfit .requestBodyNotObject ["requestBody"] v
  | requestContent {cause : SchemaError.Cause} {segments : List String} {v : Value}
      (misfit : Body.ContentMisfit cause segments v) :
      Misfit cause ("requestBody" :: "content" :: segments) v
  | responses {v : Value} (notMap : ¬ v.IsMap) : Misfit .responsesNotMap ["responses"] v
  | response {code : String} {v : Value} (notMap : ¬ v.IsMap) :
      Misfit .responseNotObject ["responses", code] v
  | responseContent {code : String} {cause : SchemaError.Cause} {segments : List String} {v : Value}
      (misfit : Body.ContentMisfit cause segments v) :
      Misfit cause ("responses" :: code :: "content" :: segments) v

/-- An error is located at a value of the operation that has the shape it reports. -/
def Operation.Locates (op : Operation) (e : SchemaError) : Prop :=
  ∃ segments v, op.content.Holds segments v ∧ Misfit e.cause segments v ∧
    e.location = ⟨"#", segments⟩

/-- Only what stands among the parameters is wrong as an entry of them. -/
theorem Operation.Misfit.cause_ne {cause : SchemaError.Cause} {first : String}
    {segments : List String} {v : Value} (h : Misfit cause (first :: segments) v)
    (hfirst : first ≠ "parameters") : cause ≠ .parameterNotObject := by
  rintro rfl
  cases h with
  | parameter => exact hfirst rfl
  | requestContent misfit => cases misfit
  | responseContent misfit => cases misfit

/-- What is read under a key is there, unless it is null. -/
theorem Members.get?_of_getD_ne_null {fields : Members} {key : String}
    (h : fields.getD key ≠ .null) : fields.get? key = some (fields.getD key) := by
  unfold getD at h ⊢
  cases hget : fields.get? key with
  | none => exact absurd (by rw [hget]; rfl) h
  | some v => rfl

theorem Members.get?_of_isTruthy {fields : Members} {key : String}
    (h : (fields.getD key).isTruthy = true) : fields.get? key = some (fields.getD key) := by
  refine get?_of_getD_ne_null fun hnull => ?_
  rw [hnull] at h
  cases h

theorem Value.Holds.field {fields : Members} {key : String} {v w : Value} {segments : List String}
    (hget : fields.get? key = some v) (h : v.Holds segments w) :
    (Value.map fields).Holds (key :: segments) w := .member (Members.mem_of_get? hget) h

/-! ## Computations that end malformed -/

/-- A computation ends with the error that something is malformed. -/
def Malforms {α : Type} (x : Except Fault α) (e : SchemaError) : Prop :=
  x = .error (.schema e) ∧ e.kind = .malformed

namespace Malforms

variable {α β : Type} {x : Except Fault α} {e : SchemaError}

theorem bind_iff {f : α → Except Fault β} : Malforms (x >>= f) e ↔
    Malforms x e ∨ ∃ a, x = .ok a ∧ Malforms (f a) e := by
  cases x <;> simp [Malforms, bind, Except.bind]

theorem map_iff {f : α → β} : Malforms (f <$> x) e ↔ Malforms x e := by
  cases x <;> simp [Malforms, Functor.map, Except.map]

@[simp] theorem ok_iff (a : α) : Malforms (.ok a) e ↔ False := by simp [Malforms]

theorem error_iff {e' : SchemaError} :
    Malforms (.error (.schema e') : Except Fault α) e ↔ e' = e ∧ e.kind = .malformed := by
  simp [Malforms]

@[simp] theorem toExcept_iff (type : RecordType) (x : Checked α) :
    Malforms (x.toExcept type) e ↔ False := by
  cases x <;> simp [Malforms, Checked.toExcept]

theorem mapError_iff (x : Except SchemaError α) :
    Malforms (x.mapError .schema) e ↔ x = .error e ∧ e.kind = .malformed := by
  cases x <;> simp [Malforms, Except.mapError]

/-- A computation that fails because of values of a wrong type does not end malformed. -/
theorem not_of_failsIff {p : Prop} (hx : FailsIff x p) : ¬ Malforms x e := by
  rintro ⟨rfl, -⟩
  obtain ⟨-, v, hv⟩ := hx
  cases hv

end Malforms

namespace Schema

variable {defs : Members} {node : Value} {e : SchemaError}

theorem Refused.kind_ne_malformed {trail : Trail} {loc : Location}
    (h : Refused defs trail node loc e) : e.kind ≠ .malformed := by
  rcases h.kind with hkind | hkind <;> simp [hkind]

/-- Inlining finds nothing malformed. -/
theorem kind_ne_malformed_of_inline (h : inline defs node = .error e) : e.kind ≠ .malformed := by
  obtain ⟨trail, origin, here, -, hincomplete | hrefused⟩ := exists_way_of_inline_eq_error h
  · obtain ⟨members, cause, -, -, hmissing, rfl⟩ := hincomplete
    exact ne_of_eq_of_ne (kind_missingStructure? hmissing) (by decide)
  · exact hrefused.kind_ne_malformed

/-- Sampling finds nothing malformed. -/
theorem kind_ne_malformed_of_sample (h : (sample defs node).outcome = .error (.schema e)) :
    e.kind ≠ .malformed := by
  obtain ⟨trail, origin, here, -, hown | ⟨e', he, hrefused⟩⟩ := exists_way_of_sample_eq_error h
  · exact ne_of_eq_of_ne hown.kind (by decide)
  · cases he
    exact hrefused.kind_ne_malformed

end Schema

variable {defs fields : Members} {e : SchemaError}

theorem not_malforms_inlinedSchema : ¬ Malforms (inlinedSchema defs fields) e := by
  rw [inlinedSchema, Malforms.mapError_iff]
  rintro ⟨h, hkind⟩
  exact Schema.kind_ne_malformed_of_inline h hkind

/-- The example calls of an endpoint find nothing malformed. -/
theorem Call.not_malforms_examples {params : List Parameter} {requestBody : Option Body}
    {streaming : Bool} : ¬ Malforms (examples params requestBody streaming).outcome e := by
  rintro ⟨h, hkind⟩
  obtain ⟨s, -, hs⟩ := outcome_examples_eq_error_iff.1 h
  unfold Subject.sample exampleOf at hs
  split at hs
  · exact Schema.kind_ne_malformed_of_sample hs hkind
  · cases hs

/-! ## List fields and parameters -/

theorem malforms_listField {key : String}
    (h : Malforms ((listField fields key).mapError .schema) e) :
    ∃ v, fields.get? key = some v ∧ (∀ items, v ≠ .list items) ∧
      e = ⟨.fieldNotList key, ⟨"#", [key]⟩⟩ := by
  obtain ⟨hfield, -⟩ := (Malforms.mapError_iff _).1 h
  unfold listField at hfield
  dsimp only at hfield
  split at hfield
  · cases hfield
  · next hgiven =>
    split at hfield
    · cases hfield
    · next hlist =>
      cases hfield
      exact ⟨_, Members.get?_of_isTruthy (by simpa using hgiven), hlist, rfl⟩

namespace Parameter

theorem not_malforms_ofFields : ¬ Malforms (ofFields defs fields) e := by
  simp [ofFields, Malforms.bind_iff, not_malforms_inlinedSchema]

theorem not_malforms_entries (v : Value) : ¬ Malforms (entries v) e := by
  rintro ⟨h, -⟩
  unfold entries at h
  split at h
  · cases h
  · split at h <;> cases h

/-- A list of parameters is malformed at its first entry that is no mapping. -/
theorem malforms_ofValuesFrom {i : Nat} {ps : List Value}
    (h : Malforms (ofValuesFrom defs i ps).outcome e) :
    ∃ before v after, ps = before ++ v :: after ∧ (∀ p ∈ before, p.IsMap) ∧ ¬ v.IsMap ∧
      e = ⟨.parameterNotObject, ⟨"#", ["parameters", toString (i + before.length)]⟩⟩ := by
  induction ps generalizing i with
  | nil => exact ((Malforms.ok_iff _).1 h).elim
  | cons p rest ih =>
    have hlater : p.IsMap → Malforms (ofValuesFrom defs (i + 1) rest).outcome e →
        ∃ before v after, p :: rest = before ++ v :: after ∧ (∀ p ∈ before, p.IsMap) ∧
          ¬ v.IsMap ∧ e = ⟨.parameterNotObject,
            ⟨"#", ["parameters", toString (i + before.length)]⟩⟩ := by
      intro hp h
      obtain ⟨before, v, after, rfl, hbefore, hv, rfl⟩ := ih h
      refine ⟨p :: before, v, after, rfl, List.forall_mem_cons.2 ⟨hp, hbefore⟩, hv, ?_⟩
      rw [List.length_cons, Nat.add_right_comm, Nat.add_assoc]
    unfold ofValuesFrom at h
    split at h
    · next fields =>
      split at h
      · simp only [Logged.outcome_bind, Logged.outcome_write, Malforms.bind_iff,
          Malforms.ok_iff, false_or] at h
        obtain ⟨-, -, h⟩ := h
        exact hlater ⟨fields, rfl⟩ h
      · simp only [Logged.outcome_bind, Logged.outcome_ofExcept, Malforms.bind_iff,
          not_malforms_ofFields, Logged.outcome_pure, Malforms.ok_iff, false_or, and_false,
          exists_false, or_false] at h
        obtain ⟨-, -, h⟩ := h
        exact hlater ⟨fields, rfl⟩ h
    · next hmap =>
      obtain ⟨rfl, -⟩ := Malforms.error_iff.1 h
      exact ⟨[], p, rest, rfl, by simp, Value.not_isMap hmap, rfl⟩

theorem sublist_of_without {taken : List Identity} {ps rest : List Value}
    (h : without taken ps = .ok rest) : rest.Sublist ps := by
  induction ps generalizing rest with
  | nil =>
    cases h
    exact .refl _
  | cons p others ih =>
    have hkept : (do return p :: (← without taken others)) = Except.ok rest →
        rest.Sublist (p :: others) := by
      intro h
      obtain ⟨left, hleft, h⟩ := Outcome.bind_eq_ok_iff.1 h
      cases h
      exact (ih hleft).cons_cons p
    rw [without] at h
    obtain ⟨id?, -, h⟩ := Outcome.bind_eq_ok_iff.1 h
    cases id? with
    | none => exact hkept h
    | some id =>
      dsimp only at h
      split at h
      · exact (ih h).cons p
      · exact hkept h

/-- Shared parameters come before an operation's own ones, so that the positions of these are
counted on from the shared ones that stay. -/
theorem malforms_merged {shared own merged : List Value} (hshared : ∀ p ∈ shared, p.IsMap)
    (hmerge : merge shared own = .ok merged) (h : Malforms (ofValues defs merged).outcome e) :
    ∃ kept before v after, own = before ++ v :: after ∧ merge shared own = .ok (kept ++ own) ∧
      (∀ p ∈ before, p.IsMap) ∧ ¬ v.IsMap ∧ e = ⟨.parameterNotObject,
        ⟨"#", ["parameters", toString (kept.length + before.length)]⟩⟩ := by
  obtain ⟨taken, -, hrest⟩ := Outcome.bind_eq_ok_iff.1 hmerge
  obtain ⟨kept, hkept, hmerged⟩ := Outcome.bind_eq_ok_iff.1 hrest
  cases hmerged
  have hmaps : ∀ p ∈ kept, p.IsMap := fun p hp => hshared p ((sublist_of_without hkept).subset hp)
  obtain ⟨front, v, after, hsplit, hfront, hv, rfl⟩ := malforms_ofValuesFrom h
  -- the entry is not among the shared ones, since these are mappings
  obtain ⟨before, rfl, hown⟩ : ∃ before, front = kept ++ before ∧ own = before ++ v :: after := by
    rcases List.append_eq_append_iff.1 hsplit with ⟨before, hfront, hown⟩ | ⟨_ | ⟨p, ps⟩, hkept, hrest⟩
    · exact ⟨before, hfront, hown⟩
    · exact ⟨[], by simpa using hkept.symm, by simpa using hrest.symm⟩
    · cases hrest
      exact absurd (hmaps v (hkept ▸ List.mem_append_right _ List.mem_cons_self)) hv
  refine ⟨kept, before, v, after, hown, hmerge, fun p hp => hfront p (List.mem_append_right _ hp),
    hv, ?_⟩
  rw [Nat.zero_add, List.length_append]

end Parameter

/-! ## Bodies -/

theorem Media.mem_of_selected? {content : Members} {m : Scalar × Value}
    (h : selected? content = some m) : m ∈ content := by
  unfold selected? at h
  rcases Option.or_eq_some_iff.1 h with hfind | ⟨-, hhead⟩
  · exact List.mem_of_find?_eq_some hfind
  · exact List.mem_of_head? hhead

theorem Media.not_malforms_firstJson? (content : Members) : ¬ Malforms (firstJson? content) e := by
  induction content with
  | nil => simp [firstJson?]
  | cons m rest ih =>
    obtain ⟨k, entry⟩ := m
    cases k with
    | str key =>
      rw [firstJson?]
      split
      · simp
      · exact ih
    | _ => simp [firstJson?, Malforms]

theorem Media.not_malforms_pick (content : Members) : ¬ Malforms (pick (.map content)) e := by
  unfold pick
  split
  · simp
  · rw [Malforms.bind_iff]
    rintro (hfirst | ⟨found, -, h⟩)
    · exact not_malforms_firstJson? content hfirst
    · split at h
      · exact (Malforms.ok_iff _).1 h
      · split at h <;> exact (Malforms.ok_iff _).1 h

/-- A value that is picked and is no mapping stands in the content map. -/
theorem Media.mem_of_pick {content : Members} {mediaType : String} {v : Value}
    (h : pick (.map content) = .ok (some (mediaType, v))) (hv : ¬ v.IsMap) :
    (.str mediaType, v) ∈ content := by
  obtain ⟨⟨key, entry⟩, hselected, heq⟩ := Option.map_eq_some_iff.1 (pick_eq_ok h).symm
  obtain ⟨rfl, hgiven⟩ := Prod.mk.inj heq
  have hentry : entry = v := by
    unfold givenEntry at hgiven
    split at hgiven
    · exact hgiven
    · exact absurd ⟨[], hgiven.symm⟩ hv
  exact hentry ▸ mem_of_selected? hselected

namespace Body

variable {v : Value} {loc : Location}

theorem not_malforms_ofEntry {mediaType : String} : ¬ Malforms (ofEntry defs mediaType fields) e := by
  simp [ofEntry, Malforms.bind_iff, not_malforms_inlinedSchema]

/-- A content map is malformed itself, or at the entry that is picked. -/
theorem malforms_ofContent (h : Malforms (ofContent defs v loc) e) :
    ∃ segments w, v.Holds segments w ∧ ContentMisfit e.cause segments w ∧
      e.location = ⟨loc.root, loc.segments ++ "content" :: segments⟩ := by
  unfold ofContent at h
  split at h
  · exact ((Malforms.ok_iff _).1 h).elim
  · next members =>
    rcases Malforms.bind_iff.1 h with hpick | ⟨picked, hpicked, h⟩
    · exact absurd hpick (Media.not_malforms_pick _)
    · split at h
      · exact ((Malforms.ok_iff _).1 h).elim
      · exact absurd (Malforms.map_iff.1 h) not_malforms_ofEntry
      · next mediaType entry hentry =>
        obtain ⟨rfl, -⟩ := Malforms.error_iff.1 h
        have hmap : ¬ entry.IsMap := Value.not_isMap hentry
        refine ⟨[mediaType], entry, .member (Media.mem_of_pick hpicked hmap) .here, .entry hmap, ?_⟩
        exact congrArg (Location.mk loc.root) (List.append_assoc loc.segments _ _)
  · next hnull hmap =>
    obtain ⟨rfl, -⟩ := Malforms.error_iff.1 h
    exact ⟨[], v, .here, .content (Value.not_isMap hmap), rfl⟩

/-- The same for the field of a request body or a response. -/
theorem malforms_contentField (h : Malforms (ofContent defs (fields.getD "content") loc) e) :
    ∃ segments w, (Value.map fields).Holds ("content" :: segments) w ∧
      ContentMisfit e.cause segments w ∧
      e.location = ⟨loc.root, loc.segments ++ "content" :: segments⟩ := by
  have hgiven : fields.getD "content" ≠ .null := by
    intro hnull
    rw [hnull] at h
    exact (Malforms.ok_iff _).1 h
  obtain ⟨segments, w, hholds, hmisfit, hloc⟩ := malforms_ofContent h
  exact ⟨segments, w, .field (Members.get?_of_getD_ne_null hgiven) hholds, hmisfit, hloc⟩

/-- A request body is malformed itself, or in its content map. -/
theorem malforms_ofRequest (h : Malforms (ofRequest defs (fields.getD "requestBody")) e) :
    ∃ segments w, (Value.map fields).Holds ("requestBody" :: segments) w ∧
      Operation.Misfit e.cause ("requestBody" :: segments) w ∧
      e.location = ⟨"#", "requestBody" :: segments⟩ := by
  unfold ofRequest at h
  dsimp only at h
  split at h
  · exact ((Malforms.ok_iff _).1 h).elim
  · next hgiven =>
    have hget := Members.get?_of_isTruthy (by simpa using hgiven)
    split at h
    · next request hrequest =>
      rw [hrequest] at hget
      split at h
      · obtain ⟨rfl, hkind⟩ := Malforms.error_iff.1 h
        cases hkind
      · obtain ⟨segments, w, hholds, hmisfit, hloc⟩ := malforms_contentField h
        exact ⟨_, w, .field hget hholds, .requestContent hmisfit, hloc⟩
    · next hmap =>
      obtain ⟨rfl, -⟩ := Malforms.error_iff.1 h
      exact ⟨[], _, .field hget .here, .requestBody (Value.not_isMap hmap), rfl⟩

/-- A response is malformed itself, or in its content map. -/
theorem malforms_ofResponse {code : String}
    (h : Malforms (ofResponse defs v (Location.top / "responses" / code)) e) :
    ∃ segments w, v.Holds segments w ∧ Operation.Misfit e.cause ("responses" :: code :: segments) w ∧
      e.location = ⟨"#", "responses" :: code :: segments⟩ := by
  unfold ofResponse at h
  split at h
  · exact ((Malforms.ok_iff _).1 h).elim
  · split at h
    · obtain ⟨rfl, hkind⟩ := Malforms.error_iff.1 h
      cases hkind
    · obtain ⟨segments, w, hholds, hmisfit, hloc⟩ := malforms_contentField h
      exact ⟨_, w, hholds, .responseContent hmisfit, hloc⟩
  · next hnull hmap =>
    obtain ⟨rfl, -⟩ := Malforms.error_iff.1 h
    exact ⟨[], v, .here, .response (Value.not_isMap hmap), rfl⟩

theorem malforms_addResponses {bodies : List (String × Option Body)} {responses : Members}
    (h : Malforms (addResponses defs bodies responses) e) :
    ∃ segments w, (Value.map responses).Holds segments w ∧
      Operation.Misfit e.cause ("responses" :: segments) w ∧
      e.location = ⟨"#", "responses" :: segments⟩ := by
  suffices hresponse : ∃ m ∈ responses,
      Malforms (ofResponse defs m.2 (Location.top / "responses" / m.1.text)) e by
    obtain ⟨⟨code, response⟩, hmem, hresponse⟩ := hresponse
    obtain ⟨segments, w, hholds, hmisfit, hloc⟩ := malforms_ofResponse hresponse
    exact ⟨code.text :: segments, w, .member hmem hholds, hmisfit, hloc⟩
  induction responses generalizing bodies with
  | nil => exact ((Malforms.ok_iff _).1 h).elim
  | cons m rest ih =>
    obtain ⟨code, response⟩ := m
    rw [addResponses, Malforms.bind_iff] at h
    rcases h with hresponse | ⟨body, -, hrest⟩
    · exact ⟨_, List.mem_cons_self, hresponse⟩
    · obtain ⟨m, hmem, hresponse⟩ := ih hrest
      exact ⟨m, List.mem_cons_of_mem _ hmem, hresponse⟩

/-- Responses are malformed themselves, or at one of them. -/
theorem malforms_ofResponses (h : Malforms (ofResponses defs (fields.getD "responses")) e) :
    ∃ segments w, (Value.map fields).Holds ("responses" :: segments) w ∧
      Operation.Misfit e.cause ("responses" :: segments) w ∧
      e.location = ⟨"#", "responses" :: segments⟩ := by
  have hget : fields.get? "responses" = some (fields.getD "responses") := by
    refine Members.get?_of_getD_ne_null fun hnull => ?_
    rw [hnull] at h
    exact (Malforms.ok_iff _).1 h
  unfold ofResponses at h
  split at h
  · exact ((Malforms.ok_iff _).1 h).elim
  · next responses hresponses =>
    obtain ⟨segments, w, hholds, hmisfit, hloc⟩ := malforms_addResponses h
    exact ⟨segments, w, .field (hresponses ▸ hget) hholds, hmisfit, hloc⟩
  · next hnull hmap =>
    obtain ⟨rfl, -⟩ := Malforms.error_iff.1 h
    exact ⟨[], _, .field hget .here, .responses (Value.not_isMap hmap), rfl⟩

end Body

/-! ## Operations -/

namespace Operation

variable {op : Operation} {shared : List Value}

/-- An operation's own parameters have a first entry that is no mapping, and some of the shared
parameters stay in front of them. -/
structure FirstMisfit (op : Operation) (shared kept own : List Value) (j : Nat) (v : Value) :
    Prop where
  holds : op.content.Holds ["parameters"] (.list own)
  merged : Parameter.merge shared own = .ok (kept ++ own)
  entry : own[j]? = some v
  notMap : ¬ v.IsMap
  before : ∀ p ∈ own.take j, p.IsMap

/-- With no shared parameters that stay, the error is located at the entry. -/
theorem FirstMisfit.locates {own : List Value} {j : Nat} {v : Value}
    (h : op.FirstMisfit shared [] own j v) (hcause : e.cause = .parameterNotObject)
    (hloc : e.location = ⟨"#", ["parameters", toString j]⟩) : op.Locates e :=
  ⟨_, v, h.holds.trans (.item h.entry .here), hcause ▸ .parameter h.notMap, hloc⟩

/-- An error is located, or else it is about one of the own parameters, which are counted on from the
shared ones that stay. -/
inductive Placed (op : Operation) (shared : List Value) (e : SchemaError) : Prop
  | located (locates : op.Locates e) (other : e.cause ≠ .parameterNotObject) : Placed op shared e
  | counted {kept own : List Value} {j : Nat} {v : Value} (cause : e.cause = .parameterNotObject)
      (first : op.FirstMisfit shared kept own j v)
      (location : e.location = ⟨"#", ["parameters", toString (kept.length + j)]⟩) :
      Placed op shared e

theorem holds_of_listField {key : String} {items : List Value}
    (h : listField fields key = .ok items) (hne : items ≠ []) :
    (Value.map fields).Holds [key] (.list items) := by
  unfold listField at h
  dsimp only at h
  split at h
  · cases h
    exact absurd rfl hne
  · next hgiven =>
    have hget := Members.get?_of_isTruthy (by simpa using hgiven)
    split at h
    · next heq =>
      cases h
      exact .field (heq ▸ hget) .here
    · cases h

theorem not_malforms_upperMethod (method : Value) : ¬ Malforms (upperMethod method) e := by
  rintro ⟨h, -⟩
  unfold upperMethod at h
  split at h <;> cases h

/-- What is wrong is located where it is, or else it is one of the parameters. -/
theorem placed_of_describeAs {id : String} (hcontent : op.content = .map fields)
    (hshared : Parameter.entries op.shared = .ok shared) (hmaps : ∀ p ∈ shared, p.IsMap)
    (h : Malforms (describeAs defs op fields id).outcome e) : op.Placed shared e := by
  have hlocates : ∀ first segments v, first ≠ "parameters" →
      (Value.map fields).Holds (first :: segments) v → Misfit e.cause (first :: segments) v →
      e.location = ⟨"#", first :: segments⟩ → op.Placed shared e := by
    intro first segments v hfirst hholds hmisfit hloc
    exact .located ⟨_, v, hcontent ▸ hholds, hmisfit, hloc⟩ (hmisfit.cause_ne hfirst)
  unfold describeAs at h
  simp only [Logged.outcome_bind, Logged.outcome_ofExcept, Malforms.bind_iff] at h
  rcases h with hlist | ⟨own, hown, (hentries | ⟨shared', -, hmerge⟩) | ⟨merged, hmerged, hparams |
    ⟨params, -, hrequest | ⟨request, -, hresponses | ⟨responses, -, hmethod | ⟨method, -, htags |
    ⟨tags, -, hcalls | ⟨calls, -, hrecord⟩⟩⟩⟩⟩⟩⟩⟩
  · obtain ⟨v, hget, hv, rfl⟩ := malforms_listField hlist
    exact .located ⟨_, v, hcontent ▸ .field hget .here, .list (.inl rfl) hv, rfl⟩ nofun
  · exact absurd hentries (Parameter.not_malforms_entries _)
  · exact absurd hmerge (Malforms.not_of_failsIff (Parameter.merge_failsIff _ _))
  · rw [hshared] at hmerged
    obtain ⟨kept, before, v, after, rfl, hkept, hbefore, hv, rfl⟩ :=
      Parameter.malforms_merged hmaps hmerged hparams
    have hholds := holds_of_listField (Outcome.mapError_eq_ok_iff.1 hown) (by simp)
    exact .counted rfl
      ⟨hcontent ▸ hholds, hkept, by simp, hv, by simpa using hbefore⟩ rfl
  · obtain ⟨segments, v, hholds, hmisfit, hloc⟩ := Body.malforms_ofRequest hrequest
    exact hlocates _ _ v (by decide) hholds hmisfit hloc
  · obtain ⟨segments, v, hholds, hmisfit, hloc⟩ := Body.malforms_ofResponses hresponses
    exact hlocates _ _ v (by decide) hholds hmisfit hloc
  · exact absurd hmethod (not_malforms_upperMethod _)
  · obtain ⟨v, hget, hv, rfl⟩ := malforms_listField htags
    exact .located ⟨_, v, hcontent ▸ .field hget .here, .list (.inr rfl) hv, rfl⟩ nofun
  · exact absurd hcalls Call.not_malforms_examples
  · exact ((Malforms.toExcept_iff _ _).1 hrecord).elim

theorem placed_of_malformed (hshared : Parameter.entries op.shared = .ok shared)
    (hmaps : ∀ p ∈ shared, p.IsMap) (h : (op.describe defs).outcome = .error (.schema e))
    (hkind : e.kind = .malformed) : op.Placed shared e := by
  unfold describe at h
  split at h
  · next fields hcontent =>
    dsimp only at h
    split at h
    · cases h
    · next hgiven =>
      have hget := Members.get?_of_isTruthy (by simpa using hgiven)
      split at h
      · rw [Logged.outcome_map, Outcome.map_eq_error_iff] at h
        exact placed_of_describeAs hcontent hshared hmaps ⟨h, hkind⟩
      · next hid =>
        cases h
        exact .located ⟨_, _, hcontent ▸ .field hget .here, .id hid, rfl⟩ nofun
  · cases h

/-- **Malformed operations.** Beside shared parameters that are mappings, an error is located at the
value whose shape it reports; but an entry of the own parameters is counted on from the shared
parameters that stay, so that it is located only if there are none. -/
theorem located_of_malformed (hshared : Parameter.entries op.shared = .ok shared)
    (hmaps : ∀ p ∈ shared, p.IsMap) (h : (op.describe defs).outcome = .error (.schema e))
    (hkind : e.kind = .malformed) :
    (e.cause ≠ .parameterNotObject → op.Locates e) ∧
      (e.cause = .parameterNotObject → ∃ kept own j v, op.FirstMisfit shared kept own j v ∧
        e.location = ⟨"#", ["parameters", toString (kept.length + j)]⟩ ∧
        (kept = [] → op.Locates e)) := by
  cases placed_of_malformed hshared hmaps h hkind with
  | located hlocates hother => exact ⟨fun _ => hlocates, fun hcause => absurd hcause hother⟩
  | counted hcause hfirst hloc =>
    refine ⟨fun hother => absurd hcause hother, fun _ => ⟨_, _, _, _, hfirst, hloc, ?_⟩⟩
    rintro rfl
    exact hfirst.locates hcause (by simpa using hloc)

/-- A shared parameter. -/
def searchedFor : Value := .map [(.str "name", .str "q"), (.str "in", .str "query")]

/-- An operation with a number in the place of a media type. -/
def numberedContent : Operation :=
  ⟨.str "/x", .str "get", .map [(.str "operationId", .str "a"), (.str "responses",
    .map [(.str "200", .map [(.str "content", .map [(.str "application/json", .int 5)])])])],
    .list [searchedFor]⟩

theorem located_of_malformed_numberedContent :
    numberedContent.Locates
      ⟨.mediaTypeNotObject, ⟨"#", ["responses", "200", "content", "application/json"]⟩⟩ := by
  have hmaps : ∀ p ∈ [searchedFor], p.IsMap := by
    rw [List.forall_mem_singleton]
    exact ⟨_, rfl⟩
  have hfails : (numberedContent.describe []).outcome = .error (.schema
      ⟨.mediaTypeNotObject, ⟨"#", ["responses", "200", "content", "application/json"]⟩⟩) := by
    decide +kernel
  exact (located_of_malformed rfl hmaps hfails rfl).1 nofun

/-- An operation with a number in the place of a parameter. -/
def numberedParameter : Operation :=
  ⟨.str "/x", .str "get",
    .map [(.str "operationId", .str "a"), (.str "parameters", .list [.int 5])],
    .list [searchedFor]⟩

/-- The number is the first of the own parameters, and the error leads to a second one, which is not
there. -/
theorem not_located_numberedParameter :
    (numberedParameter.describe []).outcome =
        .error (.schema ⟨.parameterNotObject, ⟨"#", ["parameters", "1"]⟩⟩) ∧
      ¬ numberedParameter.Locates ⟨.parameterNotObject, ⟨"#", ["parameters", "1"]⟩⟩ := by
  refine ⟨by decide +kernel, ?_⟩
  rintro ⟨segments, v, hholds, -, hloc⟩
  cases hloc
  rcases hholds.cases_cons with ⟨_, key, u, heq, hmem, hkey, hrest⟩ | ⟨_, _, _, heq, -⟩
  · cases heq
    have hparameters : u = .list [.int 5] := by
      rcases List.mem_cons.1 hmem with h | h
      · cases h
        exact absurd hkey (by decide)
      · cases List.mem_singleton.1 h
        rfl
    subst hparameters
    rcases hrest.cases_cons with ⟨_, _, _, heq, -⟩ | ⟨items, i, _, heq, hget, hposition, -⟩
    · cases heq
    · cases heq
      -- the only position is the first one
      obtain ⟨hlt, -⟩ := List.getElem?_eq_some_iff.1 hget
      obtain rfl : i = 0 := by simpa using hlt
      exact absurd hposition (by decide)
  · cases heq

end Operation

end EndpointAtlas
