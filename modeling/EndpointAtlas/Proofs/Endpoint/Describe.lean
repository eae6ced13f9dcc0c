import EndpointAtlas.Endpoint.Operation
import EndpointAtlas.Endpoint.Table
import EndpointAtlas.Proofs.Checked
import EndpointAtlas.Proofs.Outcome

/-!
# Describing an operation, part by part

`Operation.Parts` are what an operation is read into, and `Operation.Reads` says that reading gives
them. An endpoint comes of parts with example calls whose record is accepted
(`outcome_describeAs_eq_ok_iff`). Which operations are described at all is `describe_cases`; an
endpoint has the id of its operation (`id_of_describe`).
-/

namespace EndpointAtlas

namespace Operation

/-- What is read of an operation before its example calls are made. -/
structure Parts where
  own : List Value
  merged : List Value
  params : List Parameter
  requestBody : Option Body
  responses : List (String × Option Body)
  method : String
  tags : List Value

/-- The parts are those of an operation. -/
structure Reads (defs : Members) (op : Operation) (fields : Members) (p : Parts) : Prop where
  own : listField fields "parameters" = .ok p.own
  merged : (Parameter.entries op.shared >>= fun shared => Parameter.merge shared p.own) =
    .ok p.merged
  params : (Parameter.ofValues defs p.merged).outcome = .ok p.params
  requestBody : Body.ofRequest defs (fields.getD "requestBody") = .ok p.requestBody
  responses : Body.ofResponses defs (fields.getD "responses") = .ok p.responses
  method : upperMethod op.method = .ok p.method
  tags : listField fields "tags" = .ok p.tags

namespace Parts

/-- The example calls of an operation with the parts. -/
def calls (p : Parts) : Logged Fault (List Members) :=
  Call.examples p.params p.requestBody (isStreaming p.responses)

/-- The endpoint that is made of the parts. -/
def record (p : Parts) (op : Operation) (fields : Members) (id : String) (calls : List Members) :
    Checked Endpoint :=
  (fun title path tags => Endpoint.mk id (camelCase id) title p.method path p.params p.requestBody
    p.responses (isStreaming p.responses) tags calls) <$>
    (Check.text (firstGiven [fields.getD "summary", fields.getD "description"] id)).inField "title" <*>
    (Check.text op.path).inField "path" <*>
    (Check.list Check.text (.list p.tags)).inField "tags"

theorem operationId_of_record {p : Parts} {op : Operation} {fields : Members} {id : String}
    {calls : List Members} {e : Endpoint} (h : p.record op fields id calls = .ok e) :
    e.operationId = id := by
  obtain ⟨_, _, hpath, -, rfl⟩ := Checked.seq_eq_ok_iff.1 h
  obtain ⟨_, _, htitle, -, rfl⟩ := Checked.seq_eq_ok_iff.1 hpath
  obtain ⟨_, -, rfl⟩ := Checked.map_eq_ok_iff.1 htitle
  rfl

end Parts

variable {defs : Members} {op : Operation} {fields : Members} {id : String} {e : Endpoint}

theorem outcome_describeAs_eq_ok_iff :
    (describeAs defs op fields id).outcome = .ok e ↔ ∃ p calls, Reads defs op fields p ∧
      p.calls.outcome = .ok calls ∧ p.record op fields id calls = .ok e := by
  simp only [describeAs, Logged.outcome_bind, Logged.outcome_ofExcept, Outcome.bind_eq_ok_iff,
    Outcome.mapError_eq_ok_iff, Checked.toExcept_eq_ok_iff]
  constructor
  · rintro ⟨own, hown, merged, hmerged, params, hparams, requestBody, hrequest, responses,
      hresponses, method, hmethod, tags, htags, calls, hcalls, he⟩
    exact ⟨⟨own, merged, params, requestBody, responses, method, tags⟩, calls,
      ⟨hown, Outcome.bind_eq_ok_iff.2 hmerged, hparams, hrequest, hresponses, hmethod, htags⟩,
      hcalls, he⟩
  · rintro ⟨p, calls, h, hcalls, he⟩
    exact ⟨_, h.own, _, Outcome.bind_eq_ok_iff.1 h.merged, _, h.params, _, h.requestBody, _,
      h.responses, _, h.method, _, h.tags, _, hcalls, he⟩

theorem operationId_of_describeAs (h : (describeAs defs op fields id).outcome = .ok e) :
    e.operationId = id := by
  obtain ⟨_, _, -, -, he⟩ := outcome_describeAs_eq_ok_iff.1 h
  exact Parts.operationId_of_record he

/-- An operation has a text as id. -/
structure Named (op : Operation) (fields : Members) (id : String) : Prop where
  content : op.content = .map fields
  hasId : fields.getD "operationId" = .str id
  ne_empty : id ≠ ""

theorem describe_of_named (h : op.Named fields id) :
    describe defs op = some <$> describeAs defs op fields id := by
  obtain ⟨hcontent, hid, hne⟩ := h
  unfold describe
  rw [hcontent]
  dsimp only
  rw [hid]
  simp [Value.isTruthy, hne]

/-- **Three kinds of operations.** Without an id there is no endpoint, with a text as id there is the
endpoint that is described, and any other id is malformed. -/
theorem describe_cases (defs : Members) (op : Operation) :
    (op.id.isTruthy = false ∧ describe defs op = pure none) ∨
      (∃ fields id, op.Named fields id ∧
        describe defs op = some <$> describeAs defs op fields id) ∨
      describe defs op =
        throw (.schema ⟨.operationIdNotText op.id, Location.top / "operationId"⟩) := by
  by_cases htruthy : op.id.isTruthy = false
  · refine .inl ⟨htruthy, ?_⟩
    unfold describe
    unfold id at htruthy
    cases hcontent : op.content with
    | map fields =>
      rw [hcontent] at htruthy
      dsimp only at htruthy ⊢
      rw [htruthy]
      rfl
    | _ => rfl
  · refine .inr ?_
    unfold id at htruthy
    cases hcontent : op.content with
    | map fields =>
      rw [hcontent] at htruthy
      dsimp only at htruthy
      by_cases htext : ∃ id, Members.getD fields "operationId" = .str id
      · obtain ⟨id, hid⟩ := htext
        have hne : id ≠ "" := by
          rintro rfl
          rw [hid] at htruthy
          exact htruthy rfl
        have hnamed : op.Named fields id := ⟨hcontent, hid, hne⟩
        exact .inl ⟨fields, id, hnamed, describe_of_named hnamed⟩
      · refine .inr ?_
        unfold describe Operation.id
        rw [hcontent]
        dsimp only
        rw [eq_true_of_ne_false htruthy]
        split
        · next hfalse => cases hfalse
        · split
          · next id hid => exact absurd ⟨id, hid⟩ htext
          · rfl
    | _ => rw [hcontent] at htruthy; exact absurd rfl htruthy

theorem not_isTruthy_of_describe (h : (describe defs op).outcome = .ok none) :
    op.id.isTruthy = false := by
  rcases describe_cases defs op with ⟨htruthy, -⟩ | ⟨fields, id, -, heq⟩ | heq
  · exact htruthy
  · rw [heq, Logged.outcome_map] at h
    obtain ⟨e, -, he⟩ := Outcome.map_eq_ok_iff.1 h
    cases he
  · rw [heq] at h
    cases h

theorem named_of_describe (h : (describe defs op).outcome = .ok (some e)) :
    ∃ fields id, op.Named fields id ∧ (describeAs defs op fields id).outcome = .ok e := by
  rcases describe_cases defs op with ⟨-, heq⟩ | ⟨fields, id, hnamed, heq⟩ | heq
  · rw [heq] at h
    cases h
  · rw [heq, Logged.outcome_map] at h
    obtain ⟨e, he, hsome⟩ := Outcome.map_eq_ok_iff.1 h
    cases hsome
    exact ⟨fields, id, hnamed, he⟩
  · rw [heq] at h
    cases h

end Operation

namespace PathOperation

variable {defs : Members} {op : PathOperation} {e : Endpoint}

/-- An operation as it is described, with the parameters that its path item shares. -/
def withShared (op : PathOperation) (shared : List Value) : Operation :=
  ⟨.scalar op.path, .str op.method, op.content, .list shared⟩

theorem outcome_describe_eq_ok_iff {described : Option Endpoint} :
    (op.describe defs).outcome = .ok described ↔
      ∃ shared, listField op.item "parameters" = .ok shared ∧
        (Operation.describe defs (op.withShared shared)).outcome = .ok described := by
  simp only [describe, Logged.outcome_bind, Logged.outcome_ofExcept, Outcome.bind_eq_ok_iff,
    Outcome.mapError_eq_ok_iff]
  rfl

theorem id_of_describe (h : (op.describe defs).outcome = .ok (some e)) :
    op.id = .str e.operationId ∧ e.operationId ≠ "" := by
  obtain ⟨shared, -, h⟩ := outcome_describe_eq_ok_iff.1 h
  obtain ⟨fields, id, hnamed, he⟩ := Operation.named_of_describe h
  have hcontent : op.content = .map fields := hnamed.content
  rw [Operation.operationId_of_describeAs he, PathOperation.id, hcontent]
  exact ⟨hnamed.hasId, hnamed.ne_empty⟩

theorem not_isTruthy_of_describe (h : (op.describe defs).outcome = .ok none) :
    op.id.isTruthy = false := by
  obtain ⟨shared, -, h⟩ := outcome_describe_eq_ok_iff.1 h
  exact Operation.not_isTruthy_of_describe h

end PathOperation

end EndpointAtlas
