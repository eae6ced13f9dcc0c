import EndpointAtlas.Proofs.Endpoint.Arguments
import EndpointAtlas.Proofs.Endpoint.Describe
import EndpointAtlas.Proofs.Endpoint.Override
import EndpointAtlas.Proofs.Schema.SelfContained

/-!
# Shapes of operations

A value of an operation is checked for its type where it counts as given. `Operation.Shaped` says
which values have to be lists and mappings, up to values that are absent; what absent means is left
open, since null is meant and all that does not count as given is taken.

1. `Parameter.listOf_of_entries`, `Parameter.isMap_of_merge`: lists of parameters that can be read.
2. `Body.Content`: what a content map is read into, by the entry that is used. A body of a request
   needs an example, so that its entry is there (`Body.Content.shaped_of_hasExample`).
3. `Operation.shaped_of_describeAs`: the shape of an operation that gives an endpoint.
4. `Operation.describe_nulled`: null in the place of what does not count as given changes nothing.
-/

namespace EndpointAtlas

variable {v : Value} {defs : Members} {loc : Location}

/-! ## Shapes -/

/-- A value is absent, or a list whose items have a property. -/
def Value.ListOf (absent P : Value → Prop) (v : Value) : Prop :=
  absent v ∨ ∃ items, v = .list items ∧ ∀ item ∈ items, P item

/-- A value is absent, or a mapping with a property. -/
def Value.MapOf (absent : Value → Prop) (P : Members → Prop) (v : Value) : Prop :=
  absent v ∨ ∃ members, v = .map members ∧ P members

/-- A value is null. -/
def Value.IsNull (v : Value) : Prop := v = .null

/-- A value does not count as given: it is null, or false, zero or empty. -/
def Value.NotGiven (v : Value) : Prop := v.isTruthy = false

/-- A value is a mapping. -/
def Value.IsMap (v : Value) : Prop := ∃ members, v = .map members

/-- Whether a key is a media type for JSON. -/
def Media.isJsonKey : Scalar → Bool
  | .str key => isJson key
  | _ => false

/-- The member of a content map that is used: the first with a key for JSON, else the first. -/
def Media.selected? (content : Members) : Option (Scalar × Value) :=
  (content.find? fun m => isJsonKey m.1).or content.head?

/-- A content map has its shape. -/
def Body.ContentShaped (absent : Value → Prop) (content : Value) : Prop :=
  content.MapOf Value.IsNull fun members =>
    ∀ key entry, Media.selected? members = some (key, entry) → entry.MapOf absent fun _ => True

open Value in
/-- An operation has its shape, as far as values are not absent. The entry of a request body is null
or a mapping in any case. -/
structure Operation.Shaped (absent : Value → Prop) (op : Operation) (fields : Members) : Prop where
  parameters : (fields.getD "parameters").ListOf absent IsMap
  shared : op.shared.ListOf NotGiven IsMap
  tags : (fields.getD "tags").ListOf absent fun _ => True
  requestBody : (fields.getD "requestBody").MapOf absent fun request =>
    Body.ContentShaped IsNull (request.getD "content")
  responses : (fields.getD "responses").MapOf IsNull fun responses =>
    ∀ m ∈ responses, m.2.MapOf IsNull fun response =>
      Body.ContentShaped absent (response.getD "content")

/-! ## Lists -/

theorem listOf_of_listField {fields : Members} {key : String} {items : List Value}
    {P : Value → Prop} (h : listField fields key = .ok items) (hP : ∀ item ∈ items, P item) :
    (fields.getD key).ListOf Value.NotGiven P := by
  unfold listField at h
  dsimp only at h
  split at h
  · next hnot => exact .inl (by simpa [Value.NotGiven] using hnot)
  · split at h
    · next heq =>
      cases h
      exact .inr ⟨items, heq, hP⟩
    · cases h

namespace Parameter

theorem listOf_of_entries {ps : List Value} (h : entries v = .ok ps) (hmaps : ∀ p ∈ ps, p.IsMap) :
    v.ListOf Value.NotGiven Value.IsMap := by
  unfold entries at h
  split at h
  · next hnot => exact .inl (by simpa [Value.NotGiven] using hnot)
  · next hgiven =>
    -- of what is gone through, only the items of a list can be mappings
    have hscalars : ∀ {α : Type} (xs : List α) (f : α → Scalar),
        ps = xs.map (fun x => Value.scalar (f x)) → xs = [] := by
      rintro α (_ | ⟨x, xs⟩) f rfl
      · rfl
      · obtain ⟨_, hx⟩ := hmaps _ List.mem_cons_self
        cases hx
    split at h <;> cases h
    · exact .inr ⟨ps, rfl, hmaps⟩
    · next members => simp [Value.isTruthy, hscalars members Prod.fst rfl] at hgiven
    · next items => simp [Value.isTruthy, hscalars items id rfl] at hgiven
    · next s =>
      have hnil := hscalars s.toList (fun c => .str c.toString) rfl
      simp [Value.isTruthy, String.toList_eq_nil_iff.1 hnil] at hgiven
    · next bs => simp [Value.isTruthy, hscalars bs (fun b => .int b.toNat) rfl] at hgiven

theorem isMap_of_described? {p : Value} {fields : Members} (h : described? p = some fields) :
    p.IsMap := by
  unfold described? at h
  split at h
  · exact ⟨_, rfl⟩
  · cases h

theorem isMap_of_without {taken : List Identity} {ps rest : List Value}
    (h : without taken ps = .ok rest) (hrest : ∀ p ∈ rest, p.IsMap) : ∀ p ∈ ps, p.IsMap := by
  induction ps generalizing rest with
  | nil => exact fun p hp => absurd hp List.not_mem_nil
  | cons p others ih =>
    have hkept : (do return p :: (← without taken others)) = Except.ok rest →
        ∀ q ∈ p :: others, q.IsMap := by
      intro h
      obtain ⟨left, hleft, h⟩ := Outcome.bind_eq_ok_iff.1 h
      cases h
      rw [List.forall_mem_cons] at hrest ⊢
      exact ⟨hrest.1, ih hleft hrest.2⟩
    rw [without] at h
    obtain ⟨id?, hid, h⟩ := Outcome.bind_eq_ok_iff.1 h
    cases id? with
    | none => exact hkept h
    | some id =>
      dsimp only at h
      split at h
      · obtain ⟨fields, hfields, -⟩ := exists_of_identity? hid
        exact List.forall_mem_cons.2 ⟨isMap_of_described? hfields, ih h hrest⟩
      · exact hkept h

theorem isMap_of_merge {shared own merged : List Value} (h : merge shared own = .ok merged)
    (hmerged : ∀ p ∈ merged, p.IsMap) : (∀ p ∈ shared, p.IsMap) ∧ ∀ p ∈ own, p.IsMap := by
  obtain ⟨taken, -, h⟩ := Outcome.bind_eq_ok_iff.1 h
  obtain ⟨rest, hrest, h⟩ := Outcome.bind_eq_ok_iff.1 h
  cases h
  rw [List.forall_mem_append] at hmerged
  exact ⟨isMap_of_without hrest hmerged.1, hmerged.2⟩

end Parameter

/-! ## Bodies -/

theorem Media.find?_of_firstJson? {content : Members} {found : Option (String × Value)}
    (h : firstJson? content = .ok found) :
    content.find? (fun m => isJsonKey m.1) = found.map fun m => (.str m.1, m.2) := by
  induction content with
  | nil => cases h; rfl
  | cons m rest ih =>
    obtain ⟨k, entry⟩ := m
    cases k with
    | str key =>
      rw [firstJson?] at h
      by_cases hjson : isJson key
      · rw [if_pos hjson] at h
        cases h
        exact List.find?_cons_of_pos hjson
      · rw [if_neg hjson] at h
        simpa [isJsonKey, hjson] using ih h
    | _ => cases h

/-- What is picked of a content map is the member that is used. -/
theorem Media.pick_eq_ok {content : Members} {picked : Option (String × Value)}
    (h : pick (.map content) = .ok picked) :
    picked.map (fun m => (Scalar.str m.1, m.2)) =
      (selected? content).map fun m => (m.1, givenEntry m.2) := by
  unfold pick at h
  split at h
  · next hnot =>
    cases h
    have hnil : content = [] := by simpa [Value.isTruthy] using hnot
    rw [hnil]
    rfl
  · obtain ⟨found, hfound, h⟩ := Outcome.bind_eq_ok_iff.1 h
    unfold selected?
    rw [find?_of_firstJson? hfound]
    cases found with
    | some m =>
      cases h
      rfl
    | none =>
      rcases content with _ | ⟨⟨k, entry⟩, rest⟩
      · cases h
        rfl
      · cases k with
        | str key =>
          cases h
          rfl
        | _ => cases hfound

namespace Body

/-- A content map is read into a body by the entry that is used; without entries there is none. -/
inductive Content (defs : Members) : Value → Option Body → Prop
  | absent : Content defs .null none
  | empty : Content defs (.map []) none
  | entry {members fields : Members} {mediaType : String} {entry : Value} {b : Body}
      (selected : Media.selected? members = some (.str mediaType, entry))
      (given : Media.givenEntry entry = .map fields)
      (read : ofEntry defs mediaType fields = .ok b) : Content defs (.map members) (some b)

theorem content_of_ofContent {content : Value} {body : Option Body}
    (h : ofContent defs content loc = .ok body) : Content defs content body := by
  unfold ofContent at h
  split at h
  · cases h
    exact .absent
  · next members =>
    obtain ⟨picked, hpicked, h⟩ := Outcome.bind_eq_ok_iff.1 h
    have hselected := Media.pick_eq_ok hpicked
    split at h
    · cases h
      have hnil : members = [] := by
        rcases members with _ | ⟨m, rest⟩
        · rfl
        · simp [Media.selected?] at hselected
      rw [hnil]
      exact .empty
    · next mediaType fields =>
      obtain ⟨b, hb, h⟩ := Outcome.bind_eq_ok_iff.1 h
      cases h
      obtain ⟨⟨key, entry⟩, hentry, heq⟩ := Option.map_eq_some_iff.1 hselected.symm
      obtain ⟨rfl, hgiven⟩ := Prod.mk.inj heq
      exact .entry hentry hgiven hb
    · cases h
  · cases h

/-- The entry that is used is a mapping, or else it does not count as given and an empty one is read
in its place. -/
theorem Content.shaped_of {absent : Value → Prop} {content : Value} {body : Option Body}
    (h : Content defs content body)
    (hnot : ∀ entry mediaType b, entry.NotGiven → ofEntry defs mediaType [] = .ok b →
      body = some b → absent entry) : ContentShaped absent content := by
  cases h with
  | absent => exact .inl rfl
  | empty => exact .inr ⟨[], rfl, fun _ _ h => by cases h⟩
  | entry selected given read =>
    refine .inr ⟨_, rfl, fun key entry h => ?_⟩
    cases selected.symm.trans h
    unfold Media.givenEntry at given
    split at given
    · exact .inr ⟨_, given, trivial⟩
    · next hgiven =>
      cases given
      exact .inl (hnot _ _ _ (by simpa [Value.NotGiven] using hgiven) read rfl)

theorem Content.shaped {content : Value} {body : Option Body} (h : Content defs content body) :
    ContentShaped Value.NotGiven content :=
  h.shaped_of fun _ _ _ hnot _ _ => hnot

/-- The body of an empty entry has no example. -/
theorem not_hasExample_of_ofEntry {mediaType : String} {b : Body}
    (h : ofEntry defs mediaType [] = .ok b) : ¬ Call.HasExample (.ofBody b) := by
  have hempty : Schema.inline [] (.map []) = .ok (.map []) := by cbv
  have hinline : Schema.inline defs (.map []) = .ok (.map []) :=
    Schema.inline_of_unfolds ((Schema.unfolds_of_inline hempty).self defs)
  have hinlined : inlinedSchema defs [] = .ok (.map []) := congrArg (Except.mapError _) hinline
  unfold ofEntry at h
  rw [hinlined] at h
  cases h
  rintro ⟨v, hv⟩
  cases hv

/-- The entry of a body with an example is given. -/
theorem Content.shaped_of_hasExample {content : Value} {body : Option Body}
    (h : Content defs content body) (hexample : ∀ b ∈ body, Call.HasExample (.ofBody b)) :
    ContentShaped Value.IsNull content :=
  h.shaped_of fun _ _ b _ hread hbody =>
    absurd (hexample b hbody) (not_hasExample_of_ofEntry hread)

theorem mapOf_of_ofRequest {request : Value} {body : Option Body}
    (h : ofRequest defs request = .ok body)
    (hexample : ∀ b ∈ body, Call.HasExample (.ofBody b)) :
    request.MapOf Value.NotGiven fun fields =>
      ContentShaped Value.IsNull (fields.getD "content") := by
  unfold ofRequest at h
  dsimp only at h
  split at h
  · next hnot => exact .inl (by simpa [Value.NotGiven] using hnot)
  · split at h
    · next fields _ =>
      split at h
      · cases h
      · exact .inr ⟨fields, rfl, (content_of_ofContent h).shaped_of_hasExample hexample⟩
    · cases h

theorem mapOf_of_ofResponse {response : Value} {body : Option Body}
    (h : ofResponse defs response loc = .ok body) :
    response.MapOf Value.IsNull fun fields =>
      ContentShaped Value.NotGiven (fields.getD "content") := by
  unfold ofResponse at h
  split at h
  · exact .inl rfl
  · next fields =>
    split at h
    · cases h
    · exact .inr ⟨fields, rfl, (content_of_ofContent h).shaped⟩
  · cases h

theorem exists_ofResponse_of_addResponses {bodies all : List (String × Option Body)}
    {responses : Members} (h : addResponses defs bodies responses = .ok all) :
    ∀ m ∈ responses, ∃ loc body, ofResponse defs m.2 loc = .ok body := by
  induction responses generalizing bodies with
  | nil => exact fun m hm => absurd hm List.not_mem_nil
  | cons m rest ih =>
    obtain ⟨body, hbody, hrest⟩ := Outcome.bind_eq_ok_iff.1 h
    exact List.forall_mem_cons.2 ⟨⟨_, body, hbody⟩, ih hrest⟩

theorem mapOf_of_ofResponses {responses : Value} {bodies : List (String × Option Body)}
    (h : ofResponses defs responses = .ok bodies) :
    responses.MapOf Value.IsNull fun members => ∀ m ∈ members, m.2.MapOf Value.IsNull
      fun fields => ContentShaped Value.NotGiven (fields.getD "content") := by
  unfold ofResponses at h
  split at h
  · exact .inl rfl
  · next members =>
    refine .inr ⟨members, rfl, fun m hm => ?_⟩
    obtain ⟨_, _, hbody⟩ := exists_ofResponse_of_addResponses h m hm
    exact mapOf_of_ofResponse hbody
  · cases h

end Body

/-! ## Operations -/

namespace Operation

variable {op : Operation} {fields : Members} {id : String} {e : Endpoint}

theorem shaped_of_describeAs (h : (describeAs defs op fields id).outcome = .ok e) :
    op.Shaped Value.NotGiven fields := by
  obtain ⟨p, calls, hreads, hcalls, -⟩ := outcome_describeAs_eq_ok_iff.1 h
  obtain ⟨shared, hshared, hmerge⟩ := Outcome.bind_eq_ok_iff.1 hreads.merged
  have hmaps := Parameter.isMap_of_merge hmerge
    (Parameter.outcome_ofValues_eq_ok_iff.1 hreads.params).1
  have hexample := (Call.hasExample_of_examples hcalls).1
  exact {
    parameters := listOf_of_listField hreads.own hmaps.2
    shared := Parameter.listOf_of_entries hshared hmaps.1
    tags := listOf_of_listField hreads.tags fun _ _ => trivial
    requestBody := Body.mapOf_of_ofRequest hreads.requestBody hexample
    responses := Body.mapOf_of_ofResponses hreads.responses }

end Operation

/-! ## Values that are not given -/

/-- A value with null in its place if it does not count as given. -/
def Value.nulled (v : Value) : Value := if v.isTruthy then v else .null

theorem Value.isTruthy_nulled (v : Value) : v.nulled.isTruthy = v.isTruthy := by
  unfold nulled
  split
  · rfl
  · next h => simpa [isTruthy] using h

/-- A content map with null for entries that do not count as given. -/
def Body.nulledContent : Value → Value
  | .map entries => .map (entries.map fun (key, entry) => (key, entry.nulled))
  | v => v

/-- A field of a response, with a content map of that kind. -/
def Body.nulledResponseField (key : Scalar) (v : Value) : Value :=
  if key = .str "content" then nulledContent v else v

/-- A response with a content map of that kind. -/
def Body.nulledResponse : Value → Value
  | .map fields => .map (fields.map fun (key, v) => (key, nulledResponseField key v))
  | v => v

/-- Responses of that kind. -/
def Body.nulledResponses : Value → Value
  | .map responses => .map (responses.map fun (code, v) => (code, nulledResponse v))
  | v => v

namespace Operation

/-- A field of an operation with null for what does not count as given. -/
def nulledField (key : Scalar) (v : Value) : Value :=
  if key = .str "responses" then Body.nulledResponses v
  else if key ∈ [.str "parameters", .str "tags", .str "requestBody"] then v.nulled
  else v

/-- An operation with null for what does not count as given. -/
def nulled (op : Operation) : Operation :=
  { op with content := match op.content with
    | .map fields => .map (fields.map fun (key, v) => (key, nulledField key v))
    | v => v }

end Operation

theorem listField_eq_of_nulled {fields fields' : Members} {key : String}
    (h : fields'.getD key = (fields.getD key).nulled) :
    listField fields' key = listField fields key := by
  unfold listField
  dsimp only
  rw [h, Value.isTruthy_nulled]
  unfold Value.nulled
  split
  · rfl
  · next hgiven => rw [if_pos (by simpa using hgiven)]

namespace Media

theorem givenEntry_nulled (entry : Value) : givenEntry entry.nulled = givenEntry entry := by
  unfold givenEntry
  rw [Value.isTruthy_nulled]
  unfold Value.nulled
  split <;> rfl

theorem firstJson?_nulled (content : Members) :
    firstJson? (content.map fun (key, entry) => (key, entry.nulled)) =
      (firstJson? content).map (Option.map fun m => (m.1, m.2.nulled)) := by
  induction content with
  | nil => rfl
  | cons m rest ih =>
    obtain ⟨k, entry⟩ := m
    cases k with
    | str key =>
      rw [List.map_cons, firstJson?, firstJson?, ih]
      split <;> rfl
    | _ => rfl

theorem pick_nulledContent (content : Value) :
    pick (Body.nulledContent content) = pick content := by
  cases content with
  | map members =>
    have htruthy : (Body.nulledContent (.map members)).isTruthy = (Value.map members).isTruthy := by
      simp [Body.nulledContent, Value.isTruthy]
    unfold pick
    rw [htruthy]
    split
    · rfl
    · dsimp only [Body.nulledContent]
      rw [firstJson?_nulled]
      cases firstJson? members with
      | error fault => rfl
      | ok found =>
        cases found with
        | some m => simp [Except.map, bind, Except.bind, givenEntry_nulled]
        | none =>
          rcases members with _ | ⟨⟨k, entry⟩, rest⟩
          · rfl
          · cases k <;> simp [Except.map, bind, Except.bind, givenEntry_nulled]
  | _ => rfl

end Media

namespace Body

theorem ofContent_nulledContent (defs : Members) (content : Value) (loc : Location) :
    ofContent defs (nulledContent content) loc = ofContent defs content loc := by
  unfold ofContent
  rw [Media.pick_nulledContent]
  cases content <;> rfl

theorem ofResponse_nulledResponse (defs : Members) (response : Value) (loc : Location) :
    ofResponse defs (nulledResponse response) loc = ofResponse defs response loc := by
  cases response with
  | map fields =>
    have href := Members.get?_map fields nulledResponseField Schema.referenceKeyword
    have hcontent := Members.getD_map fields nulledResponseField
      (show nulledResponseField (.str "content") .null = .null from rfl)
    have hsame : nulledResponseField (.str Schema.referenceKeyword) = id := rfl
    rw [hsame, Option.map_id] at href
    dsimp only [nulledResponse, ofResponse]
    rw [href, hcontent]
    cases Members.get? fields Schema.referenceKeyword with
    | some ref => rfl
    | none => exact ofContent_nulledContent defs _ loc
  | _ => rfl

theorem ofResponses_nulledResponses (defs : Members) (responses : Value) :
    ofResponses defs (nulledResponses responses) = ofResponses defs responses := by
  cases responses with
  | map members =>
    dsimp only [nulledResponses, ofResponses]
    generalize ([] : List (String × Option Body)) = bodies
    induction members generalizing bodies with
    | nil => rfl
    | cons m rest ih =>
      obtain ⟨code, response⟩ := m
      simp only [List.map_cons, addResponses, ofResponse_nulledResponse, ih]
  | _ => rfl

theorem ofRequest_nulled (defs : Members) (request : Value) :
    ofRequest defs request.nulled = ofRequest defs request := by
  unfold ofRequest
  dsimp only
  rw [Value.isTruthy_nulled]
  unfold Value.nulled
  split
  · rfl
  · next hgiven => rw [if_pos (by simpa using hgiven)]

end Body

namespace Operation

theorem describeAs_congr {defs fields fields' : Members} {op op' : Operation} {id : String}
    (hpath : op'.path = op.path) (hmethod : op'.method = op.method)
    (hshared : op'.shared = op.shared)
    (hparameters : listField fields' "parameters" = listField fields "parameters")
    (hrequest : Body.ofRequest defs (fields'.getD "requestBody") =
      Body.ofRequest defs (fields.getD "requestBody"))
    (hresponses : Body.ofResponses defs (fields'.getD "responses") =
      Body.ofResponses defs (fields.getD "responses"))
    (htags : listField fields' "tags" = listField fields "tags")
    (hsummary : fields'.getD "summary" = fields.getD "summary")
    (hdescription : fields'.getD "description" = fields.getD "description") :
    describeAs defs op' fields' id = describeAs defs op fields id := by
  unfold describeAs
  rw [hpath, hmethod, hshared, hparameters, hrequest, hresponses, htags, hsummary, hdescription]

theorem getD_nulled (fields : Members) (key : String) :
    Members.getD (fields.map fun (key, v) => (key, nulledField key v)) key =
      nulledField (.str key) (fields.getD key) := by
  refine Members.getD_map fields nulledField ?_
  unfold nulledField Body.nulledResponses Value.nulled
  split <;> simp

/-- **Absent.** What does not count as given is read as null. -/
theorem describe_nulled (defs : Members) (op : Operation) :
    describe defs op.nulled = describe defs op := by
  obtain ⟨path, method, content, shared⟩ := op
  cases content with
  | map fields =>
    have hget := getD_nulled fields
    generalize hnulled : (fields.map fun (key, v) => (key, nulledField key v)) = fields' at hget
    have hop : nulled ⟨path, method, .map fields, shared⟩ =
        ⟨path, method, .map fields', shared⟩ := by
      rw [← hnulled]
      rfl
    have hsame : ∀ id, describeAs defs ⟨path, method, .map fields', shared⟩ fields' id =
        describeAs defs ⟨path, method, .map fields, shared⟩ fields id := fun id =>
      describeAs_congr rfl rfl rfl (listField_eq_of_nulled (hget "parameters"))
        (by rw [hget]; exact Body.ofRequest_nulled defs _)
        (by rw [hget]; exact Body.ofResponses_nulledResponses defs _)
        (listField_eq_of_nulled (hget "tags")) (hget "summary") (hget "description")
    have hid : Members.getD fields' "operationId" = Members.getD fields "operationId" :=
      hget "operationId"
    rw [hop]
    unfold describe
    dsimp only
    rw [hid]
    simp only [hsame]
  | _ => rfl

/-- **Shapes.** An operation that gives an endpoint has its shape, as far as what it holds counts as
given; one with an id that has not fails. What does not count as given is read as null, of whatever
type it is. -/
theorem describe_shaped (defs : Members) (op : Operation) :
    (∀ e, (describe defs op).outcome = .ok (some e) →
        ∃ fields, op.content = .map fields ∧ op.Shaped Value.NotGiven fields) ∧
      (∀ fields id, op.Named fields id → ¬ op.Shaped Value.NotGiven fields →
        ∃ fault, (describe defs op).outcome = .error fault) ∧
      describe defs op.nulled = describe defs op := by
  refine ⟨fun e h => ?_, fun fields id hnamed hshape => ?_, describe_nulled defs op⟩
  · obtain ⟨fields, id, hnamed, he⟩ := named_of_describe h
    exact ⟨fields, hnamed.content, shaped_of_describeAs he⟩
  · rw [describe_of_named hnamed, Logged.outcome_map]
    cases houtcome : (describeAs defs op fields id).outcome with
    | ok e => exact absurd (shaped_of_describeAs houtcome) hshape
    | error fault => exact ⟨fault, rfl⟩

/-- An operation under `/x` with one further field. -/
def withField (key : String) (v : Value) : Operation :=
  ⟨.str "/x", .str "get", .map [(.str "operationId", .str "a"), (.str key, v)], .list []⟩

/-- An operation gives an endpoint, though not all of its values are null or of their types. -/
structure Misread (op : Operation) : Prop where
  described : ∃ e, (describe [] op).outcome = .ok (some e)
  misshaped : ∀ fields, op.content = .map fields → ¬ op.Shaped Value.IsNull fields

/-- Four values of a wrong type that do not count as given. -/
theorem misread_standIns :
    Misread (withField "parameters" (.map [])) ∧ Misread (withField "tags" (.str "")) ∧
      Misread (withField "requestBody" (.list [])) ∧
      Misread (withField "responses" (.map [(.str "200", .map [(.str "content",
        .map [(.str "application/json", .int 0)])])])) := by
  refine ⟨⟨⟨_, rfl⟩, ?_⟩, ⟨⟨_, rfl⟩, ?_⟩, ⟨⟨_, rfl⟩, ?_⟩, ⟨_, rfl⟩, ?_⟩ <;> rintro _ ⟨⟩ h
  · rcases h.parameters with h | ⟨_, h, -⟩ <;> cases h
  · rcases h.tags with h | ⟨_, h, -⟩ <;> cases h
  · rcases h.requestBody with h | ⟨_, h, -⟩ <;> cases h
  · rcases h.responses with h | ⟨_, h, hresponses⟩ <;> cases h
    rcases hresponses _ List.mem_cons_self with h | ⟨_, h, hcontent⟩ <;> cases h
    rcases hcontent with h | ⟨_, h, hentry⟩ <;> cases h
    rcases hentry _ _ rfl with h | ⟨_, h, -⟩ <;> cases h

end Operation

end EndpointAtlas
