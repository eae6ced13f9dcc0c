import EndpointAtlas.Json.Plain
import EndpointAtlas.Proofs.Endpoint.WellFormed
import EndpointAtlas.Proofs.Json
import EndpointAtlas.Proofs.Json.Numbers

/-!
# Endpoints that are written out and read again

What is written of an endpoint is checked field by field when it is read, and gives the endpoint
again, with everything in its order. Of the fields only the example calls restrict what an endpoint
can be: their keys have to be texts.

1. `Checked.all_map`, `Checked.allFrom_map`: lists and mappings, item by item.
2. `Check.parameter_toMembers`, `Check.body_toMembers`: the records inside an endpoint.
3. `Check.endpoint_toMembers_iff`: endpoints whose calls have texts as keys. Those that have been
   read and those of a table have.
4. `Json.plain_eq_self`: in a form for JSON, what is written stays as it is.
5. `survives_of_accepted`: all endpoints that are accepted or are in a table.
-/

namespace EndpointAtlas

/-- All keys are texts. -/
def Members.TextKeyed (members : Members) : Prop := ∀ m ∈ members, ∃ s, m.1 = .str s

/-- Pairs of a text and a value as members. -/
def Members.ofPairs (pairs : List (String × Value)) : Members := pairs.map fun (k, v) => (.str k, v)

namespace Members

theorem textKeyed_ofPairs (pairs : List (String × Value)) : (ofPairs pairs).TextKeyed := by
  intro m hm
  obtain ⟨⟨k, v⟩, -, rfl⟩ := List.mem_map.1 hm
  exact ⟨k, rfl⟩

theorem TextKeyed.exists_ofPairs {members : Members} (h : members.TextKeyed) :
    ∃ pairs, members = ofPairs pairs := by
  induction members with
  | nil => exact ⟨[], rfl⟩
  | cons m rest ih =>
    obtain ⟨k, v⟩ := m
    obtain ⟨⟨s, rfl⟩, hrest⟩ := List.forall_mem_cons.1 h
    obtain ⟨pairs, rfl⟩ := ih hrest
    exact ⟨(s, v) :: pairs, rfl⟩

end Members

/-! ## Lists and mappings -/

namespace Checked

variable {α β : Type} {check : α → Checked β} {write : β → α}

theorem all_map {bs : List β} (h : ∀ b ∈ bs, check (write b) = .ok b) :
    all check (bs.map write) = .ok bs := by
  induction bs with
  | nil => rfl
  | cons b rest ih =>
    rw [List.forall_mem_cons] at h
    rw [List.map_cons, all, h.1, ih h.2]
    rfl

theorem allFrom_map {bs : List β} (h : ∀ b ∈ bs, check (write b) = .ok b) (i : Nat) :
    allFrom check i (bs.map write) = .ok bs := by
  induction bs generalizing i with
  | nil => rfl
  | cons b rest ih =>
    rw [List.forall_mem_cons] at h
    rw [List.map_cons, allFrom, h.1, ih h.2]
    rfl

theorem exists_of_allFrom {as : List α} {bs : List β} {i : Nat} (h : allFrom check i as = .ok bs) :
    ∀ b ∈ bs, ∃ a ∈ as, check a = .ok b := by
  induction as generalizing i bs with
  | nil =>
    cases h
    exact fun b hb => absurd hb List.not_mem_nil
  | cons a rest ih =>
    obtain ⟨_, others, hfirst, hothers, rfl⟩ := seq_eq_ok_iff.1 h
    obtain ⟨b, hb, rfl⟩ := map_eq_ok_iff.1 hfirst
    rw [inField_eq_ok_iff] at hb
    refine List.forall_mem_cons.2 ⟨⟨a, List.mem_cons_self, hb⟩, fun b' hb' => ?_⟩
    obtain ⟨a', ha', hcheck⟩ := ih hothers b' hb'
    exact ⟨a', List.mem_cons_of_mem a ha', hcheck⟩

end Checked

namespace Check

variable {α : Type} {check : Value → Checked α}

theorem list_map {write : α → Value} {as : List α} (h : ∀ a ∈ as, check (write a) = .ok a) :
    list check (.list (as.map write)) = .ok as := Checked.allFrom_map h 0

theorem mapOf_map {write : α → Value} {pairs : List (String × α)}
    (h : ∀ p ∈ pairs, check (write p.2) = .ok p.2) :
    mapOf check (.map (pairs.map fun (k, a) => (.str k, write a))) = .ok pairs := by
  refine Checked.all_map fun p hp => ?_
  obtain ⟨k, a⟩ := p
  dsimp only
  rw [h _ hp]
  rfl

theorem textMap_ofPairs (pairs : List (String × Value)) :
    textMap (.map (Members.ofPairs pairs)) = .ok (Members.ofPairs pairs) := by
  have hpairs : mapOf any (.map (Members.ofPairs pairs)) = .ok pairs :=
    @mapOf_map _ any id pairs fun _ _ => rfl
  rw [textMap, hpairs]
  rfl

theorem textMap_of_textKeyed {members : Members} (h : members.TextKeyed) :
    textMap (.map members) = .ok members := by
  obtain ⟨pairs, rfl⟩ := h.exists_ofPairs
  exact textMap_ofPairs pairs

theorem textKeyed_of_textMap {v : Value} {members : Members} (h : textMap v = .ok members) :
    members.TextKeyed := by
  obtain ⟨pairs, -, rfl⟩ := Checked.map_eq_ok_iff.1 h
  exact Members.textKeyed_ofPairs pairs

/-! ## Records -/

theorem place_label (place : Place) : Check.place (.str place.label) = .ok place := by
  cases place <;> rfl

theorem optional_ofText? (s : Option String) : optional text (.ofText? s) = .ok s := by
  cases s <;> rfl

theorem required_eq_ok {fields : Members} {key : String} {v : Value} {a : α}
    (hget : fields.get? key = some v) (hcheck : check v = .ok a) :
    required fields key check = .ok a := by
  rw [required, hget]
  exact congrArg (Checked.inField key) hcheck

theorem withDefault_eq_ok {fields : Members} {key : String} {default a : α} {v : Value}
    (hget : fields.get? key = some v) (hcheck : check v = .ok a) :
    withDefault fields key default check = .ok a := by
  rw [withDefault, hget]
  exact congrArg (Checked.inField key) hcheck

/-- A parameter is read as it is written. -/
theorem parameter_toMembers (p : Parameter) : parameter p.toMembers = .ok p := by
  have hplace : required p.toMembers "location" Check.place = .ok p.place :=
    required_eq_ok rfl (place_label p.place)
  have hrefName : withDefault p.toMembers "ref_name" none (optional text) = .ok p.refName :=
    withDefault_eq_ok rfl (optional_ofText? p.refName)
  rw [parameter, hplace, hrefName]
  rfl

/-- A body is read as it is written. -/
theorem body_toMembers (b : Body) : body b.toMembers = .ok b := by
  have hrefName : withDefault b.toMembers "ref_name" none (optional text) = .ok b.refName :=
    withDefault_eq_ok rfl (optional_ofText? b.refName)
  rw [body, hrefName]
  rfl

theorem optional_toValue? (b : Option Body) :
    optional (record .body body) (Body.toValue? b) = .ok b := by
  cases b with
  | none => rfl
  | some b => exact Checked.map_eq_ok_iff.2 ⟨b, body_toMembers b, rfl⟩

/-- An endpoint is read as it is written if its calls have texts as keys. -/
theorem endpoint_toMembers {e : Endpoint} (h : ∀ call ∈ e.exampleParams, call.TextKeyed) :
    endpoint e.toMembers = .ok e := by
  have hparams : required e.toMembers "params" (list (record .parameter parameter)) =
      .ok e.params := required_eq_ok rfl (list_map fun p _ => parameter_toMembers p)
  have hrequest : withDefault e.toMembers "request_body" none (optional (record .body body)) =
      .ok e.requestBody := withDefault_eq_ok rfl (optional_toValue? e.requestBody)
  have hresponses : required e.toMembers "response_bodies"
      (mapOf (optional (record .body body))) = .ok e.responseBodies :=
    required_eq_ok rfl (mapOf_map fun p _ => optional_toValue? p.2)
  have htags : withDefault e.toMembers "tags" [] (list text) = .ok e.tags :=
    withDefault_eq_ok rfl (list_map fun _ _ => rfl)
  have hcalls : withDefault e.toMembers "example_params" [] (list textMap) = .ok e.exampleParams :=
    withDefault_eq_ok rfl (list_map fun call hcall => textMap_of_textKeyed (h call hcall))
  rw [endpoint, hparams, hrequest, hresponses, htags, hcalls]
  rfl

theorem textKeyed_of_list {v : Value} {calls : List Members} (h : list textMap v = .ok calls) :
    ∀ call ∈ calls, call.TextKeyed := by
  unfold list at h
  split at h
  · intro call hcall
    obtain ⟨v, -, hv⟩ := Checked.exists_of_allFrom h call hcall
    exact textKeyed_of_textMap hv
  · cases h

theorem exampleParams_of_endpoint {fields : Members} {e : Endpoint} (h : endpoint fields = .ok e) :
    withDefault fields "example_params" [] (list textMap) = .ok e.exampleParams := by
  -- from the last field to the first
  obtain ⟨_, calls, htags, hcalls, rfl⟩ := Checked.seq_eq_ok_iff.1 h
  obtain ⟨_, _, hstreaming, -, rfl⟩ := Checked.seq_eq_ok_iff.1 htags
  obtain ⟨_, _, hresponses, -, rfl⟩ := Checked.seq_eq_ok_iff.1 hstreaming
  obtain ⟨_, _, hrequest, -, rfl⟩ := Checked.seq_eq_ok_iff.1 hresponses
  obtain ⟨_, _, hparams, -, rfl⟩ := Checked.seq_eq_ok_iff.1 hrequest
  obtain ⟨_, _, hpath, -, rfl⟩ := Checked.seq_eq_ok_iff.1 hparams
  obtain ⟨_, _, hmethod, -, rfl⟩ := Checked.seq_eq_ok_iff.1 hpath
  obtain ⟨_, _, htitle, -, rfl⟩ := Checked.seq_eq_ok_iff.1 hmethod
  obtain ⟨_, _, hmethodName, -, rfl⟩ := Checked.seq_eq_ok_iff.1 htitle
  obtain ⟨_, _, hid, -, rfl⟩ := Checked.seq_eq_ok_iff.1 hmethodName
  obtain ⟨_, -, rfl⟩ := Checked.map_eq_ok_iff.1 hid
  exact hcalls

/-- The calls of an endpoint that has been read have texts as keys. -/
theorem textKeyed_of_endpoint {fields : Members} {e : Endpoint} (h : endpoint fields = .ok e) :
    ∀ call ∈ e.exampleParams, call.TextKeyed := by
  have hcalls := exampleParams_of_endpoint h
  unfold withDefault at hcalls
  split at hcalls
  · exact textKeyed_of_list (Checked.inField_eq_ok_iff.1 hcalls)
  · rw [← Checked.ok.inj hcalls]
    exact fun call hcall => absurd hcall List.not_mem_nil

/-- **Endpoints.** An endpoint is read as it is written just when its calls have texts as keys. -/
theorem endpoint_toMembers_iff {e : Endpoint} : endpoint e.toMembers = .ok e ↔
    ∀ call ∈ e.exampleParams, call.TextKeyed :=
  ⟨textKeyed_of_endpoint, endpoint_toMembers⟩

end Check

/-- The calls of a well-formed endpoint have texts as keys. -/
theorem Call.Suits.textKeyed {params : List Parameter} {hasBody streaming : Bool} {call : Members}
    (h : Suits params hasBody streaming call) : call.TextKeyed := by
  intro m hm
  rcases h.keys m hm with hbody | hmark | ⟨p, -, hplace⟩
  · exact ⟨_, hbody⟩
  · exact ⟨_, hmark⟩
  · exact ⟨_, hplace⟩

/-! ## Forms for JSON -/

/-- A value that is written in JSON as it is: the numbers in it are finite, and the keys of a mapping
are texts, none of them twice. -/
inductive Value.IsPlain : Value → Prop
  | scalar {s : Scalar} (isJson : s.isJson = true) (finite : ∀ x, s = .float x → x.isFinite = true) :
      IsPlain (.scalar s)
  | list {items : List Value} (all : ∀ v ∈ items, IsPlain v) : IsPlain (.list items)
  | map {members : Members} (textKeyed : members.TextKeyed)
      (nodup : (members.map Prod.fst).Nodup) (all : ∀ m ∈ members, IsPlain m.2) :
      IsPlain (.map members)

namespace Json

theorem plainScalar_eq_self {s : Scalar} (hjson : s.isJson = true)
    (hfinite : ∀ x, s = .float x → x.isFinite = true) : plainScalar s = .ok s := by
  cases s with
  | float x => rw [plainScalar, hfinite x rfl, if_pos rfl]
  | date d => cases hjson
  | moment m => cases hjson
  | bytes bs => cases hjson
  | _ => rfl

theorem plainItems_eq_self {items : List Value} (h : ∀ v ∈ items, plain v = .ok v) :
    plainItems items = .ok items := by
  induction items with
  | nil => rfl
  | cons v rest ih =>
    rw [List.forall_mem_cons] at h
    rw [plainItems, h.1, ih h.2]
    rfl

theorem plainMembers_eq_self {members : Members} (hkeys : members.TextKeyed)
    (h : ∀ m ∈ members, plain m.2 = .ok m.2) : plainMembers members = .ok members := by
  induction members with
  | nil => rfl
  | cons m rest ih =>
    obtain ⟨k, v⟩ := m
    obtain ⟨⟨s, rfl⟩, hrest⟩ := List.forall_mem_cons.1 hkeys
    rw [List.forall_mem_cons] at h
    rw [plainMembers, h.1, ih hrest h.2]
    rfl

theorem ofList_of_textKeyed {members : Members} (hkeys : members.TextKeyed)
    (hnodup : (members.map Prod.fst).Nodup) : Members.ofList members = members := by
  refine Members.ofList_eq_self ?_
  refine List.Pairwise.imp_of_mem ?_ (List.pairwise_map.1 hnodup)
  intro m m' hm hm' hne
  obtain ⟨s, hs⟩ := hkeys m hm
  obtain ⟨t, ht⟩ := hkeys m' hm'
  rw [hs, ht] at hne ⊢
  rw [Scalar.same_str]
  exact decide_eq_false fun heq => hne (congrArg Scalar.str heq)

/-- **JSON.** A plain value has itself as its form for JSON. -/
theorem plain_eq_self {v : Value} (h : v.IsPlain) : plain v = .ok v := by
  induction h with
  | scalar hjson hfinite =>
    rw [plain, plainScalar_eq_self hjson hfinite]
    rfl
  | list _ ih =>
    rw [plain, plainItems_eq_self ih]
    rfl
  | map hkeys hnodup _ ih =>
    rw [plain, plainMembers_eq_self hkeys ih]
    exact congrArg (fun members => Except.ok (Value.map members)) (ofList_of_textKeyed hkeys hnodup)

end Json

namespace Value.IsPlain

theorem str (s : String) : (Value.str s).IsPlain := .scalar rfl nofun

theorem bool (b : Bool) : (Value.bool b).IsPlain := .scalar rfl nofun

theorem null : Value.null.IsPlain := .scalar rfl nofun

theorem ofText? (s : Option String) : (Value.ofText? s).IsPlain := by
  cases s with
  | none => exact null
  | some s => exact str s

end Value.IsPlain

/-- The schema and the example of a parameter or a body are plain. -/
def PlainExample (schema : Members) (sample : Value) : Prop :=
  (Value.map schema).IsPlain ∧ sample.IsPlain

theorem Parameter.isPlain_toMembers {p : Parameter} (h : PlainExample p.schema p.sample) :
    (Value.map p.toMembers).IsPlain := by
  refine .map ?_ ?_ ?_
  · simp [Members.TextKeyed, toMembers]
  · simp [toMembers]
  · simp only [toMembers, List.forall_mem_cons, List.not_mem_nil, false_implies, implies_true,
      and_true]
    exact ⟨.str _, .str _, .bool _, h.1, h.2, .ofText? _, .str _⟩

theorem Body.isPlain_toMembers {b : Body} (h : PlainExample b.schema b.sample) :
    (Value.map b.toMembers).IsPlain := by
  refine .map ?_ ?_ ?_
  · simp [Members.TextKeyed, toMembers]
  · simp [toMembers]
  · simp only [toMembers, List.forall_mem_cons, List.not_mem_nil, false_implies, implies_true,
      and_true]
    exact ⟨.str _, h.1, .bool _, h.2, .ofText? _⟩

theorem Body.isPlain_toValue? {b : Option Body} (h : ∀ body ∈ b, PlainExample body.schema body.sample) :
    (toValue? b).IsPlain := by
  cases b with
  | none => exact .null
  | some body => exact isPlain_toMembers (h body rfl)

/-- The values in an endpoint are plain, and no status code stands there twice. -/
structure Endpoint.IsPlain (e : Endpoint) : Prop where
  params : ∀ p ∈ e.params, PlainExample p.schema p.sample
  requestBody : ∀ b ∈ e.requestBody, PlainExample b.schema b.sample
  responses : ∀ p ∈ e.responseBodies, ∀ b ∈ p.2, PlainExample b.schema b.sample
  codes : (e.responseBodies.map Prod.fst).Nodup
  calls : ∀ call ∈ e.exampleParams, (Value.map call).IsPlain

theorem Endpoint.IsPlain.responseBodies {e : Endpoint} (h : e.IsPlain) :
    (Value.map (e.responseBodies.map fun (code, body) =>
      (.str code, Body.toValue? body))).IsPlain := by
  refine .map ?_ ?_ ?_
  · intro m hm
    obtain ⟨⟨code, body⟩, -, rfl⟩ := List.mem_map.1 hm
    exact ⟨code, rfl⟩
  · have hcodes := h.codes.map fun _ _ => Scalar.str.inj
    rwa [List.map_map] at hcodes ⊢
  · intro m hm
    obtain ⟨⟨code, body⟩, hmem, rfl⟩ := List.mem_map.1 hm
    exact Body.isPlain_toValue? (h.responses _ hmem)

/-- An endpoint with plain values is plain as it is written. -/
theorem Endpoint.IsPlain.toMembers {e : Endpoint} (h : e.IsPlain) :
    (Value.map e.toMembers).IsPlain := by
  have hparams : (Value.list (e.params.map fun p => .map p.toMembers)).IsPlain := by
    refine .list (List.forall_mem_map.2 fun p hp => ?_)
    exact Parameter.isPlain_toMembers (h.params p hp)
  have htags : (Value.list (e.tags.map .str)).IsPlain :=
    .list (List.forall_mem_map.2 fun s _ => .str s)
  have hcalls : (Value.list (e.exampleParams.map .map)).IsPlain :=
    .list (List.forall_mem_map.2 h.calls)
  refine .map ?_ ?_ ?_
  · simp [Members.TextKeyed, Endpoint.toMembers]
  · simp [Endpoint.toMembers]
  · simp only [Endpoint.toMembers, List.forall_mem_cons, List.not_mem_nil, false_implies,
      implies_true, and_true]
    exact ⟨.str _, .str _, .str _, .str _, .str _, hparams, Body.isPlain_toValue? h.requestBody,
      h.responseBodies, .bool _, htags, hcalls⟩

/-! ## Endpoints that survive -/

/-- An endpoint survives being written out: it is read as it is written, and if its values are plain,
it is written in JSON like this. -/
structure Endpoint.Survives (e : Endpoint) : Prop where
  read : Check.endpoint e.toMembers = .ok e
  plain : e.IsPlain → Json.plain (.map e.toMembers) = .ok (.map e.toMembers)

theorem Endpoint.survives_of_textKeyed {e : Endpoint}
    (h : ∀ call ∈ e.exampleParams, call.TextKeyed) : e.Survives :=
  ⟨Check.endpoint_toMembers h, fun hplain => Json.plain_eq_self hplain.toMembers⟩

/-- The endpoint of an operation survives being written out. -/
theorem PathOperation.survives_of_describe {defs : Members} {op : PathOperation} {e : Endpoint}
    (hhttp : isHttpMethod op.method = true) (h : (op.describe defs).outcome = .ok (some e)) :
    e.Survives :=
  Endpoint.survives_of_textKeyed fun call hcall =>
    ((wellFormed_of_describe hhttp h).calls call hcall).textKeyed

/-- **Endpoints survive being written out**: those that are accepted by the check of their fields, and
those in the table of a document. -/
theorem endpoints_survive :
    (∀ fields e, Check.endpoint fields = .ok e → e.Survives) ∧
      ∀ collect defs paths failures id e,
        (id, e) ∈ (Table.ofPaths collect defs paths failures).value.1.endpoints → e.Survives := by
  refine ⟨fun fields e h => Endpoint.survives_of_textKeyed (Check.textKeyed_of_endpoint h), ?_⟩
  intro collect defs paths failures id e h
  refine Table.forall_endpoints_addAll (P := Endpoint.Survives) ?_ ?_ (id, e) h
  · exact fun p hp => absurd hp List.not_mem_nil
  · intro op hop e he
    exact PathOperation.survives_of_describe (PathOperation.mem_all_iff.1 hop).2.2 he

/-- The fields of an endpoint with an answer and an empty one. What has a default is left out. -/
def deletionFields : Members :=
  [(.str "operation_id", .str "user_delete"), (.str "method_name", .str "userDelete"),
    (.str "title", .str "Delete a user"), (.str "method", .str "DELETE"),
    (.str "path", .str "/users"), (.str "params", .list []),
    (.str "response_bodies", .map [(.str "200", .map [(.str "media_type", .str "application/json"),
      (.str "body_schema", .map [(.str "type", .str "boolean")])]), (.str "204", .null)]),
    (.str "example_params", .list [.map []])]

/-- The schema of the answer. -/
def deletionSchema : Members := [(.str "type", .str "boolean")]

/-- The endpoint that has these fields. -/
def deletionEndpoint : Endpoint where
  operationId := "user_delete"
  methodName := "userDelete"
  title := "Delete a user"
  method := "DELETE"
  path := "/users"
  params := []
  requestBody := none
  responseBodies := [("200", some ⟨"application/json", deletionSchema, false, .null, none⟩),
    ("204", none)]
  streaming := false
  tags := []
  exampleParams := [[]]

theorem isPlain_deletionEndpoint : deletionEndpoint.IsPlain := by
  have hschema : PlainExample deletionSchema .null :=
    ⟨.map (by simp [deletionSchema, Members.TextKeyed]) (by decide)
      (List.forall_mem_singleton.2 (.str "boolean")), .null⟩
  have hcall : (Value.map []).IsPlain := .map nofun .nil nofun
  refine ⟨nofun, nofun, ?_, by decide, List.forall_mem_singleton.2 hcall⟩
  simp [deletionEndpoint, hschema]

theorem endpoints_survive_deletion :
    Check.endpoint deletionFields = .ok deletionEndpoint ∧
      Check.endpoint deletionEndpoint.toMembers = .ok deletionEndpoint ∧
      Json.plain (.map deletionEndpoint.toMembers) = .ok (.map deletionEndpoint.toMembers) ∧
      Check.endpoint searchEndpoint.toMembers = .ok searchEndpoint := by
  have hread : Check.endpoint deletionFields = .ok deletionEndpoint := rfl
  have hsurvives := endpoints_survive.1 _ _ hread
  have hmem : ("search", searchEndpoint) ∈
      (Table.ofPaths false searchComponents searchPaths []).value.1.endpoints := by decide +kernel
  exact ⟨hread, hsurvives.read, hsurvives.plain isPlain_deletionEndpoint,
    (endpoints_survive.2 _ _ _ _ _ _ hmem).read⟩

end EndpointAtlas
