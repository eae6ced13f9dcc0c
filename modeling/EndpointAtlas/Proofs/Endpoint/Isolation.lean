import EndpointAtlas.Proofs.Endpoint.Accounting
import EndpointAtlas.Proofs.Endpoint.Body
import EndpointAtlas.Proofs.Endpoint.Call
import EndpointAtlas.Proofs.Endpoint.Parameter
import EndpointAtlas.Proofs.Schema.Untypable

/-!
# Which operations end a run

A malformed operation is put on record, and the run goes on. That is so for all but two kinds of
malformed operations (`EndsRun`): one with a parameter whose name or place is a list or a mapping,
and one that can be read but needs a sample of a schema whose type is a list or a mapping. A run
over a document of JSON reaches its end just when no operation is of these kinds.
-/

namespace EndpointAtlas

open Schema (Meets withoutComponents)

namespace PathOperation

/-- An operation is malformed in a way that is not put on record. -/
inductive EndsRun (defs : Members) (op : PathOperation) : Prop
  | parameter {fields : Members} {id : String} {shared own : List Value} {p : Value}
      (sharedList : listField op.item "parameters" = .ok shared)
      (named : (op.withShared shared).Named fields id)
      (ownList : listField fields "parameters" = .ok own) (mem : p ∈ own ++ shared)
      (unkeyed : Parameter.Unkeyed p) : EndsRun defs op
  | sample {fields : Members} {id : String} {shared : List Value} {parts : Operation.Parts}
      {subject : Call.Subject} {declared : Value}
      (sharedList : listField op.item "parameters" = .ok shared)
      (named : (op.withShared shared).Named fields id)
      (reads : Operation.Reads defs (op.withShared shared) fields parts)
      (reached : Reached Call.HasExample (Call.subjects parts.params parts.requestBody) subject)
      (undeclared : subject.declared = .null)
      (meets : Meets withoutComponents declared (.map subject.schema) .top) : EndsRun defs op

end PathOperation

variable {defs : Members} {op : PathOperation} {fault : Fault} {shared : List Value}
  {fields : Members} {id : String}

/-! ## Samples -/

theorem unrecorded_subject {s : Call.Subject} (h : Unrecorded s.sample.outcome fault) :
    s.declared = .null ∧ ∃ declared, fault = .mistyped declared ∧
      Meets withoutComponents declared (.map s.schema) .top := by
  obtain ⟨herror, hreport⟩ := h
  unfold Call.Subject.sample Call.exampleOf at herror
  split at herror
  · next hnull =>
    refine ⟨hnull, ?_⟩
    rcases Schema.outcome_sample_nil_eq_error herror with ⟨e, rfl⟩ | hmeets
    · cases hreport
    · exact hmeets
  · cases herror

theorem unrecorded_of_meets {s : Call.Subject} {declared : Value} (hnull : s.declared = .null)
    (h : Meets withoutComponents declared (.map s.schema) .top) :
    Unrecorded s.sample.outcome (.mistyped declared) := by
  refine ⟨?_, rfl⟩
  rw [Call.Subject.sample, Call.exampleOf, if_pos hnull, Schema.sample_nil]
  exact (Schema.outcome_sampleWalk_eq_mistyped_iff Schema.outcome_withoutComponents_ne_mistyped _
    _).2 h

/-- The example calls of parts that were read end for want of a key, or their fault is put on
record. -/
theorem unrecorded_calls_iff {p : Operation.Parts} : Unrecorded p.calls.outcome fault ↔
    ∃ s, Reached Call.HasExample (Call.subjects p.params p.requestBody) s ∧
      Unrecorded s.sample.outcome fault := by
  simp only [Unrecorded, Operation.Parts.calls, Call.outcome_examples_eq_error_iff, ← and_assoc,
    exists_and_right]

/-! ## One operation -/

theorem entries_list (shared : List Value) : Parameter.entries (.list shared) = .ok shared := by
  cases shared <;> rfl

/-- An operation with an id is not put on record when its parameters cannot be merged, or when it
can be read and its example calls are not put on record. -/
theorem unrecorded_describeAs_iff (hjson : op.content.isJson = true)
    (hnamed : (op.withShared shared).Named fields id) :
    Unrecorded (Operation.describeAs defs (op.withShared shared) fields id).outcome fault ↔
      (∃ own, listField fields "parameters" = .ok own ∧
        Unrecorded (Parameter.merge shared own) fault) ∨
      ∃ p, Operation.Reads defs (op.withShared shared) fields p ∧
        Unrecorded p.calls.outcome fault := by
  rw [show op.content = .map fields from hnamed.content] at hjson
  -- all faults but those of the merge and of the calls are put on record
  have hrequest : ¬ Unrecorded (Body.ofRequest defs (Members.getD fields "requestBody")) fault :=
    Body.not_unrecorded_ofRequest defs (Value.isJson_getD hjson _)
  have hresponses : ¬ Unrecorded (Body.ofResponses defs (Members.getD fields "responses")) fault :=
    Body.not_unrecorded_ofResponses defs (Value.isJson_getD hjson _)
  have hmethod : ¬ Unrecorded (Operation.upperMethod (op.withShared shared).method) fault :=
    (Unrecorded.ok_iff _).1
  have hentries : Parameter.entries (op.withShared shared).shared = .ok shared :=
    entries_list shared
  simp only [Operation.describeAs, Logged.outcome_bind, Logged.outcome_ofExcept,
    Unrecorded.bind_iff, Unrecorded.mapError_iff, Unrecorded.toExcept_iff, Unrecorded.ok_iff,
    Parameter.not_unrecorded_ofValues, hrequest, hresponses, hmethod, hentries, false_or,
    Outcome.mapError_eq_ok_iff, and_false, exists_false, or_false, Except.ok.injEq,
    exists_eq_left']
  constructor
  · rintro ⟨own, hown, hmerge | ⟨merged, hmerged, params, hparams, requestBody, hrequestBody,
      responses, hresponses, method, hmethod, tags, htags, hcalls⟩⟩
    · exact .inl ⟨own, hown, hmerge⟩
    · refine .inr ⟨⟨own, merged, params, requestBody, responses, method, tags⟩, ?_, hcalls⟩
      exact ⟨hown, hentries ▸ hmerged, hparams, hrequestBody, hresponses, hmethod, htags⟩
  · rintro (⟨own, hown, hmerge⟩ | ⟨p, hreads, hcalls⟩)
    · exact ⟨own, hown, .inl hmerge⟩
    · exact ⟨_, hreads.own, .inr ⟨_, hentries ▸ hreads.merged, _, hreads.params, _,
        hreads.requestBody, _, hreads.responses, _, hreads.method, _, hreads.tags, hcalls⟩⟩

theorem unrecorded_describe_iff : Unrecorded (op.describe defs).outcome fault ↔
    ∃ shared fields id, listField op.item "parameters" = .ok shared ∧
      (op.withShared shared).Named fields id ∧
      Unrecorded (Operation.describeAs defs (op.withShared shared) fields id).outcome fault := by
  simp only [PathOperation.describe, Logged.outcome_bind, Logged.outcome_ofExcept,
    Unrecorded.bind_iff, Unrecorded.mapError_iff, false_or, Outcome.mapError_eq_ok_iff,
    exists_and_left]
  refine exists_congr fun shared => and_congr_right fun _ => ?_
  change Unrecorded (Operation.describe defs (op.withShared shared)).outcome fault ↔ _
  constructor
  · intro h
    rcases Operation.describe_cases defs (op.withShared shared) with
      ⟨-, heq⟩ | ⟨fields, id, hnamed, heq⟩ | heq
    · rw [heq] at h
      exact ((Unrecorded.ok_iff _).1 h).elim
    · rw [heq, Logged.outcome_map, Unrecorded.map_iff] at h
      exact ⟨fields, id, hnamed, h⟩
    · rw [heq] at h
      exact ((Unrecorded.schema_iff _).1 h).elim
  · rintro ⟨fields, id, hnamed, h⟩
    rwa [Operation.describe_of_named hnamed, Logged.outcome_map, Unrecorded.map_iff]

/-- A fault of an operation that is not put on record comes of a value of a wrong type, and the
operation is of one of the two kinds. -/
theorem endsRun_of_unrecorded (hjson : op.content.isJson = true)
    (h : Unrecorded (op.describe defs).outcome fault) :
    op.EndsRun defs ∧ ∃ v, fault = .mistyped v := by
  obtain ⟨shared, fields, id, hshared, hnamed, h⟩ := unrecorded_describe_iff.1 h
  rcases (unrecorded_describeAs_iff hjson hnamed).1 h with
    ⟨own, hown, hmerge⟩ | ⟨p, hreads, hcalls⟩
  · obtain ⟨⟨q, hmem, hunkeyed⟩, hfault⟩ := (Parameter.merge_failsIff shared own).mistyped hmerge
    exact ⟨.parameter hshared hnamed hown hmem hunkeyed, hfault⟩
  · obtain ⟨s, hreached, hsample⟩ := unrecorded_calls_iff.1 hcalls
    obtain ⟨hnull, declared, hfault, hmeets⟩ := unrecorded_subject hsample
    exact ⟨.sample hshared hnamed hreads hreached hnull hmeets, declared, hfault⟩

theorem unrecorded_of_endsRun (hjson : op.content.isJson = true) (h : op.EndsRun defs) :
    ∃ fault, Unrecorded (op.describe defs).outcome fault := by
  simp only [unrecorded_describe_iff]
  cases h with
  | parameter hshared hnamed hown hmem hunkeyed =>
    obtain ⟨fault, hfault⟩ :=
      (Parameter.merge_failsIff _ _).exists_unrecorded_iff.2 ⟨_, hmem, hunkeyed⟩
    exact ⟨fault, _, _, _, hshared, hnamed,
      (unrecorded_describeAs_iff hjson hnamed).2 (.inl ⟨_, hown, hfault⟩)⟩
  | sample hshared hnamed hreads hreached hnull hmeets =>
    have hcalls := unrecorded_calls_iff.2 ⟨_, hreached, unrecorded_of_meets hnull hmeets⟩
    exact ⟨_, _, _, _, hshared, hnamed,
      (unrecorded_describeAs_iff hjson hnamed).2 (.inr ⟨_, hreads, hcalls⟩)⟩

/-! ## A run -/

namespace Table

variable {t t' : Table} {ops : List PathOperation}

/-- A fault of an operation that is not put on record is not caught. -/
theorem outcome_add_eq_error_iff {path : String} (hpath : op.path = .str path) :
    (add true defs t op).outcome = .error fault ↔ Unrecorded (op.describe defs).outcome fault := by
  -- under a text as path a report is always made
  have hreported : ∀ kind reason, (report true t op kind reason).outcome ≠ .error fault := by
    intro kind reason
    rw [outcome_report, failureOf_eq hpath]
    intro h
    cases h
  rw [outcome_add, outcome_describeNew]
  rcases (op.describe defs).outcome with other | _ | e
  · dsimp only
    cases hreport : other.report? with
    | none =>
      simp only [Unrecorded, Except.error.injEq]
      exact ⟨fun h => ⟨h, h ▸ hreport⟩, And.left⟩
    | some report =>
      refine iff_of_false (hreported _ _) ?_
      rintro ⟨heq, hnone⟩
      cases heq
      rw [hreport] at hnone
      cases hnone
  · refine iff_of_false (fun h => ?_) (Unrecorded.ok_iff _).1
    cases h
  · dsimp only
    refine iff_of_false (fun h => ?_) (Unrecorded.ok_iff _).1
    cases hlookup : t.endpoints.lookup e.operationId with
    | none => rw [hlookup] at h; cases h
    | some holder =>
      rw [hlookup] at h
      exact hreported _ _ h

/-- A run ends with the first fault that is not put on record. -/
theorem value_addAll_eq_some {ops : List PathOperation}
    (hpaths : ∀ op ∈ ops, ∃ path, op.path = .str path)
    (h : (addAll true defs t ops).value = (t', some fault)) :
    ∃ op ∈ ops, Unrecorded (op.describe defs).outcome fault := by
  induction ops generalizing t with
  | nil => cases h
  | cons op rest ih =>
    rw [List.forall_mem_cons] at hpaths
    obtain ⟨⟨path, hpath⟩, hrest⟩ := hpaths
    rw [value_addAll_cons] at h
    cases hadd : (add true defs t op).outcome with
    | error other =>
      rw [hadd] at h
      cases h
      exact ⟨op, List.mem_cons_self, (outcome_add_eq_error_iff hpath).1 hadd⟩
    | ok next =>
      rw [hadd] at h
      obtain ⟨bad, hmem, hbad⟩ := ih hrest h
      exact ⟨bad, List.mem_cons_of_mem _ hmem, hbad⟩

/-- A run that reaches its end has met no fault that is not put on record. -/
theorem not_unrecorded_of_value_addAll
    (hpaths : ∀ op ∈ ops, ∃ path, op.path = .str path)
    (h : (addAll true defs t ops).value = (t', none)) :
    ∀ op ∈ ops, ∀ fault, ¬ Unrecorded (op.describe defs).outcome fault := by
  induction ops generalizing t with
  | nil => simp
  | cons op rest ih =>
    rw [List.forall_mem_cons] at hpaths ⊢
    obtain ⟨⟨path, hpath⟩, hrest⟩ := hpaths
    rw [value_addAll_cons] at h
    cases hadd : (add true defs t op).outcome with
    | error other => rw [hadd] at h; cases h
    | ok next =>
      rw [hadd] at h
      refine ⟨fun fault hop => ?_, ih hrest h⟩
      rw [(outcome_add_eq_error_iff hpath).2 hop] at hadd
      cases hadd

end Table

theorem isJson_content {paths : Members} (hjson : Value.isJson (.map paths) = true)
    (hop : op ∈ PathOperation.all paths) : op.content.isJson = true := by
  obtain ⟨hitem, hcontent, -⟩ := PathOperation.mem_all_iff.1 hop
  exact (Value.isJson_map (Value.isJson_map hjson _ hitem).2 _ hcontent).2

/-- **Isolation of failures.** A run over a document of JSON reaches its end just when no operation
is of the two kinds that end it; then the table answers for every id with the first endpoint built
under it. Else the run ends because of a value of a wrong type. -/
theorem ofPaths_returns_iff (defs paths : Members) (failures : List Failure)
    (hjson : Value.isJson (.map paths) = true) :
    ((Table.ofPaths true defs paths failures).value.2 = none ↔
        ∀ op ∈ PathOperation.all paths, ¬ op.EndsRun defs) ∧
      ((Table.ofPaths true defs paths failures).value.2 = none →
        ∀ id, (Table.ofPaths true defs paths failures).value.1.endpoints.lookup id =
          firstBuilt? defs (PathOperation.all paths) id) ∧
      ∀ fault, (Table.ofPaths true defs paths failures).value.2 = some fault →
        ∃ v, fault = .mistyped v := by
  have hpaths : ∀ op ∈ PathOperation.all paths, ∃ path, op.path = .str path := fun op hop =>
    (Value.isJson_map hjson _ (PathOperation.mem_all_iff.1 hop).1).1
  rcases hrun : (Table.ofPaths true defs paths failures).value with ⟨t, _ | fault⟩
  · have hclean := Table.not_unrecorded_of_value_addAll (t := ⟨[], failures⟩) hpaths hrun
    obtain ⟨entries, haccount⟩ := (Accounting.start defs failures).addAll hpaths hrun
    refine ⟨iff_of_true rfl fun op hop hends => ?_, fun _ => haccount.lookup, fun _ h => ?_⟩
    · obtain ⟨fault, hfault⟩ := unrecorded_of_endsRun (isJson_content hjson hop) hends
      exact hclean op hop fault hfault
    · cases h
  · obtain ⟨op, hop, hfault⟩ := Table.value_addAll_eq_some hpaths hrun
    obtain ⟨hends, v, hv⟩ := endsRun_of_unrecorded (isJson_content hjson hop) hfault
    refine ⟨iff_of_false (fun h => ?_) fun h => h op hop hends, fun h => ?_, fun other hother => ?_⟩
    · cases h
    · cases h
    · cases hother
      exact ⟨v, hv⟩

/-- A path with one operation, of an id and with parameters. -/
def getPath (name id : String) (params : List Value) : Scalar × Value :=
  (.str name, .map [(.str "get",
    .map [(.str "operationId", .str id), (.str "parameters", .list params)])])

/-- A parameter of a query. -/
def queryParameter (name schema : Value) : Value :=
  .map [(.str "in", .str "query"), (.str "name", name), (.str "schema", schema)]

/-- Between two operations that can be built, three that are malformed: by a parameter that is none,
by a type that is unknown, and by a name that is a number. -/
def recordedPaths : Members :=
  [getPath "/first" "first" [], getPath "/none" "none" [.int 5],
    getPath "/unknown" "unknown"
      [queryParameter (.str "q") (.map [(.str "type", .str "unheard-of")])],
    getPath "/number" "number" [queryParameter (.int 5) (.map [(.str "type", .str "string")])],
    getPath "/last" "last" []]

/-- Between two operations that can be built, one with a parameter whose name is a list. -/
def unkeyedPaths : Members :=
  [getPath "/first" "first" [],
    getPath "/bad" "bad" [queryParameter (.list [.str "q"]) (.map [(.str "type", .str "string")])],
    getPath "/last" "last" []]

/-- Between two operations that can be built, one with a parameter whose type is a mapping. -/
def untypablePaths : Members :=
  [getPath "/first" "first" [],
    getPath "/bad" "bad" [queryParameter (.str "q") (.map [(.str "type", .map [])])],
    getPath "/last" "last" []]

theorem ofPaths_returns_recordedPaths :
    (Value.isJson (.map recordedPaths) = true ∧
        (∀ op ∈ PathOperation.all recordedPaths, ¬ op.EndsRun []) ∧
        (Table.ofPaths true [] recordedPaths []).value.1.endpoints.map Prod.fst =
          ["first", "last"]) ∧
      (Value.isJson (.map unkeyedPaths) = true ∧
        ¬ ∀ op ∈ PathOperation.all unkeyedPaths, ¬ op.EndsRun []) ∧
      (Value.isJson (.map untypablePaths) = true ∧
        ¬ ∀ op ∈ PathOperation.all untypablePaths, ¬ op.EndsRun []) := by
  refine ⟨⟨rfl, (ofPaths_returns_iff [] recordedPaths [] rfl).1.1 rfl, rfl⟩, ⟨rfl, fun h => ?_⟩,
    ⟨rfl, fun h => ?_⟩⟩
  · have hend := (ofPaths_returns_iff [] unkeyedPaths [] rfl).1.2 h
    cases hend
  · have hend := (ofPaths_returns_iff [] untypablePaths [] rfl).1.2 h
    cases hend

/-- A malformed operation can take the rest of the table down, and nothing is put on record. -/
theorem ofPaths_not_isolated :
    (Value.isJson (.map unkeyedPaths) = true ∧ Value.isJson (.map untypablePaths) = true) ∧
      ((Table.ofPaths true [] unkeyedPaths []).value.2 = some (.mistyped (.list [.str "q"])) ∧
        (Table.ofPaths true [] untypablePaths []).value.2 = some (.mistyped (.map []))) ∧
      ((Table.ofPaths true [] unkeyedPaths []).value.1.endpoints.map Prod.fst = ["first"] ∧
        (Table.ofPaths true [] unkeyedPaths []).value.1.failures = [] ∧
        (firstBuilt? [] (PathOperation.all unkeyedPaths) "last").isSome = true) :=
  ⟨⟨rfl, rfl⟩, ⟨rfl, rfl⟩, rfl, rfl, rfl⟩

end EndpointAtlas
