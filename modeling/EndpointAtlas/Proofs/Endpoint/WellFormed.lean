import EndpointAtlas.Proofs.Endpoint.Contribution
import EndpointAtlas.Proofs.Endpoint.Rendering
import EndpointAtlas.Proofs.Endpoint.Schemas

/-!
# Endpoints are well-formed

An endpoint can be written out, sampled and called without the document it comes from. What that
takes is said by `Endpoint.WellFormed`, of an endpoint alone.

1. `upper_mem_of_isHttpMethod`, `ne_empty_of_text`: methods and titles.
2. `Operation.wellFormed_of_describeAs`: what an operation is described by is well-formed, whatever
   the parts are read from.
3. `Table.forall_endpoints_addAll`: what holds of all described endpoints holds of all in the table.
4. `wellFormed_of_mem_ofPaths`: so all endpoints of a document are well-formed.
-/

namespace EndpointAtlas

open Schema (SelfContained)

/-- An endpoint describes a call completely: by an HTTP method and a title, schemas without
references, and example calls that can be made again from the rest. -/
structure Endpoint.WellFormed (e : Endpoint) : Prop where
  method : e.method ∈ ["GET", "PUT", "POST", "DELETE", "OPTIONS", "HEAD", "PATCH", "TRACE"]
  title : e.title ≠ ""
  params : ∀ p ∈ e.params, SelfContained (.map p.schema)
  requestBody : ∀ b, e.requestBody = some b → SelfContained (.map b.schema)
  responseBodies : ∀ code b, (code, some b) ∈ e.responseBodies → SelfContained (.map b.schema)
  codes : (e.responseBodies.map Prod.fst).Nodup
  streaming : e.streaming = true ↔
    ∃ b, ("200", some b) ∈ e.responseBodies ∧ Media.isStreaming b.mediaType = true
  callCount : e.exampleParams.length = 1 + (e.params.filter (!·.required)).length
  calls : ∀ call ∈ e.exampleParams,
    Call.Suits e.params e.requestBody.isSome e.streaming call
  recomputed : (Call.examples e.params e.requestBody e.streaming).outcome = .ok e.exampleParams

/-! ## Methods -/

theorem upperChar_of_toLower {c : Char} (h : c.toLower.toNat < 128) :
    Text.upperChar c = [c.toLower.toUpper] := by
  have hc : c.toNat < 128 := by
    unfold Char.toLower at h
    split at h
    · next hupper =>
      have hle : c.toNat ≤ 90 := hupper.2
      omega
    · exact h
  have hascii : ∀ n < 128, (Char.ofNat n).toUpper = (Char.ofNat n).toLower.toUpper := by decide
  have hsame := hascii c.toNat hc
  rw [Char.ofNat_toNat] at hsame
  unfold Text.upperChar
  dsimp only
  rw [if_pos hc, hsame]

theorem upper_of_toLower {key word : String} (h : key.toList.map Char.toLower = word.toList)
    (hascii : ∀ c ∈ word.toList, c.toNat < 128) :
    Text.upper key = String.ofList (word.toList.map Char.toUpper) := by
  unfold Text.upper
  congr 1
  rw [← h] at hascii ⊢
  generalize key.toList = cs at hascii
  induction cs with
  | nil => rfl
  | cons c rest ih =>
    rw [List.map_cons, List.forall_mem_cons] at hascii
    rw [List.flatMap_cons, upperChar_of_toLower hascii.1, ih hascii.2]
    rfl

/-- A key that is an HTTP method in any case is one in upper case. -/
theorem upper_mem_of_isHttpMethod {key : String} (h : isHttpMethod key = true) :
    Text.upper key ∈ ["GET", "PUT", "POST", "DELETE", "OPTIONS", "HEAD", "PATCH", "TRACE"] := by
  have hascii : ∀ word ∈ httpMethods, word.toList.all (·.toNat < 128) = true := by decide
  have hupper : ∀ word ∈ httpMethods, String.ofList (word.toList.map Char.toUpper) ∈
      ["GET", "PUT", "POST", "DELETE", "OPTIONS", "HEAD", "PATCH", "TRACE"] := by decide
  have hmem : String.ofList (key.toList.map Char.toLower) ∈ httpMethods := List.contains_iff_mem.1 h
  have hchars := List.all_eq_true.1 (hascii _ hmem)
  rw [upper_of_toLower (String.toList_ofList).symm fun c hc => of_decide_eq_true (hchars c hc)]
  exact hupper _ hmem

/-! ## Titles -/

theorem ne_nil_of_decode {bytes : List UInt8} {cs : List Char} (hbytes : bytes ≠ [])
    (h : Text.decode bytes = some cs) : cs ≠ [] := by
  rintro rfl
  cases bytes with
  | nil => exact hbytes rfl
  | cons a rest =>
    unfold Text.decode at h
    -- every branch adds a character to what the rest is decoded to
    repeat' split at h
    all_goals simp [Option.bind_eq_some_iff] at h

/-- What is given and accepted as a text is not empty. -/
theorem ne_empty_of_text {v : Value} {s : String} (hgiven : v.isTruthy = true)
    (h : Check.text v = .ok s) : s ≠ "" := by
  unfold Check.text at h
  split at h
  · cases h
    simpa [Value.isTruthy] using hgiven
  · next bytes =>
    have hbytes : bytes ≠ [] := by
      rintro rfl
      cases hgiven
    split at h
    · next cs hcs =>
      cases h
      intro hempty
      exact ne_nil_of_decode hbytes hcs (by simpa using congrArg String.toList hempty)
    · cases h
  · cases h

theorem Operation.isTruthy_firstGiven {values : List Value} {otherwise : String}
    (h : otherwise ≠ "") : (firstGiven values otherwise).isTruthy = true := by
  unfold firstGiven
  cases hfind : values.find? Value.isTruthy with
  | some v => exact List.find?_some hfind
  | none => simpa [Value.isTruthy] using h

/-- Where keys are distinct, a lookup finds every pair. -/
theorem lookup_eq_some_iff_mem {α : Type} {pairs : List (String × α)} {key : String} {a : α}
    (h : (pairs.map Prod.fst).Nodup) : pairs.lookup key = some a ↔ (key, a) ∈ pairs := by
  constructor
  · intro hlookup
    obtain ⟨before, after, rfl, -⟩ := List.lookup_eq_some_iff.1 hlookup
    exact List.mem_append_right _ List.mem_cons_self
  · intro hmem
    obtain ⟨before, after, rfl⟩ := List.append_of_mem hmem
    refine List.lookup_eq_some_iff.2 ⟨before, after, rfl, fun p hp => ?_⟩
    rw [List.map_append, List.nodup_append] at h
    have hne := h.2.2 p.1 (List.mem_map_of_mem hp) key List.mem_cons_self
    simpa using Ne.symm hne

/-! ## Operations -/

namespace Operation

variable {defs : Members} {op : Operation} {fields : Members} {id : String} {e : Endpoint}

/-- The parts of which an endpoint is made are those it shows. -/
theorem Parts.fields_of_record {p : Parts} {calls : List Members}
    (h : p.record op fields id calls = .ok e) :
    e.method = p.method ∧ e.params = p.params ∧ e.requestBody = p.requestBody ∧
      e.responseBodies = p.responses ∧ e.streaming = isStreaming p.responses ∧
      e.exampleParams = calls ∧
      Check.text (firstGiven [fields.getD "summary", fields.getD "description"] id) =
        .ok e.title := by
  obtain ⟨_, _, hpath, -, rfl⟩ := Checked.seq_eq_ok_iff.1 h
  obtain ⟨_, _, hfields, -, rfl⟩ := Checked.seq_eq_ok_iff.1 hpath
  obtain ⟨title, htitle, rfl⟩ := Checked.map_eq_ok_iff.1 hfields
  exact ⟨rfl, rfl, rfl, rfl, rfl, rfl, Checked.inField_eq_ok_iff.1 htitle⟩

/-- The response `200` makes a stream just when it has a body with the media type of one. -/
theorem isStreaming_iff {responses : List (String × Option Body)}
    (h : Body.SoundResponses responses) :
    isStreaming responses = true ↔
      ∃ b, ("200", some b) ∈ responses ∧ Media.isStreaming b.mediaType = true := by
  have hlookup : ∀ body, responses.lookup "200" = some body ↔ ("200", body) ∈ responses :=
    fun body => lookup_eq_some_iff_mem h.nodup
  unfold isStreaming
  constructor
  · intro hstreaming
    split at hstreaming
    · next b hb =>
      have hmem := (hlookup _).1 hb
      refine ⟨b, hmem, ?_⟩
      rw [← (h.sound _ hmem b rfl).streaming]
      exact hstreaming
    · cases hstreaming
  · rintro ⟨b, hmem, hmedia⟩
    rw [(hlookup _).2 hmem]
    dsimp only
    rw [(h.sound _ hmem b rfl).streaming]
    exact hmedia

/-- **What an operation is described by is well-formed**, if its method is an HTTP method and its id
is not empty. -/
theorem wellFormed_of_describeAs {method : String} (hmethod : op.method = .str method)
    (hhttp : isHttpMethod method = true) (hid : id ≠ "")
    (h : (describeAs defs op fields id).outcome = .ok e) : e.WellFormed := by
  obtain ⟨p, calls, hreads, hcalls, hrecord⟩ := outcome_describeAs_eq_ok_iff.1 h
  obtain ⟨heMethod, heParams, heRequest, heResponses, heStreaming, heCalls, htitle⟩ :=
    Parts.fields_of_record hrecord
  have hresponses := Body.sound_of_ofResponses hreads.responses
  have hupper : Text.upper method = p.method := by
    have hread := hreads.method
    rw [hmethod] at hread
    exact Except.ok.inj hread
  obtain ⟨hcount, hsuits⟩ := Call.length_and_suits_of_examples hcalls
  constructor
  · rw [heMethod, ← hupper]
    exact upper_mem_of_isHttpMethod hhttp
  · exact ne_empty_of_text (isTruthy_firstGiven hid) htitle
  · rw [heParams]
    exact Parameter.selfContained_of_ofValues hreads.params
  · rw [heRequest]
    intro b hb
    exact (Body.sound_of_ofRequest hreads.requestBody b hb).schema
  · rw [heResponses]
    intro code b hmem
    exact (hresponses.sound _ hmem b rfl).schema
  · rw [heResponses]
    exact hresponses.nodup
  · rw [heStreaming, heResponses]
    exact isStreaming_iff hresponses
  · rw [heCalls, heParams]
    exact hcount
  · rw [heCalls, heParams, heRequest, heStreaming]
    exact hsuits
  · rw [heCalls, heParams, heRequest, heStreaming]
    exact hcalls

end Operation

namespace PathOperation

variable {defs : Members} {op : PathOperation} {e : Endpoint}

theorem wellFormed_of_describe (hhttp : isHttpMethod op.method = true)
    (h : (op.describe defs).outcome = .ok (some e)) : e.WellFormed := by
  obtain ⟨shared, -, hdescribe⟩ := outcome_describe_eq_ok_iff.1 h
  obtain ⟨fields, id, hnamed, he⟩ := Operation.named_of_describe hdescribe
  exact Operation.wellFormed_of_describeAs rfl hhttp hnamed.ne_empty he

end PathOperation

/-! ## Tables -/

namespace Table

variable {collect : Bool} {defs : Members} {t t' : Table} {op : PathOperation}
  {ops : List PathOperation} {P : Endpoint → Prop}

/-- One operation enters at most the endpoint that it is described by. -/
theorem forall_endpoints_add (ht : ∀ p ∈ t.endpoints, P p.2)
    (hop : ∀ e, (op.describe defs).outcome = .ok (some e) → P e)
    (h : (add collect defs t op).outcome = .ok t') : ∀ p ∈ t'.endpoints, P p.2 := by
  rw [outcome_add_eq_map_enter] at h
  obtain ⟨entry, hentry, rfl⟩ := Outcome.map_eq_ok_iff.1 h
  intro p hp
  rcases List.mem_append.1 hp with hold | hnew
  · exact ht p hold
  · unfold contribution at hentry
    split at hentry
    · next e hdescribed =>
      cases hentry
      cases List.mem_singleton.1 hnew
      exact hop e (describe_of_describeNew hdescribed)
    · cases hentry
      cases hnew
    · rw [endpoint?_of_reportEntry hentry] at hnew
      cases hnew

/-- **What holds of all described endpoints holds of all in the table**, also when a fault ends the
run. -/
theorem forall_endpoints_addAll (ht : ∀ p ∈ t.endpoints, P p.2)
    (hops : ∀ op ∈ ops, ∀ e, (op.describe defs).outcome = .ok (some e) → P e) :
    ∀ p ∈ (addAll collect defs t ops).value.1.endpoints, P p.2 := by
  induction ops generalizing t with
  | nil => exact ht
  | cons op rest ih =>
    rw [List.forall_mem_cons] at hops
    rw [value_addAll_cons]
    cases hadd : (add collect defs t op).outcome with
    | error fault => exact ht
    | ok next => exact ih (forall_endpoints_add ht hops.1 hadd) hops.2

end Table

/-- **Every endpoint of a document is well-formed**, whatever the document and its components are,
and whatever is wrong with the other operations. -/
theorem wellFormed_of_mem_ofPaths {collect : Bool} {defs paths : Members} {failures : List Failure}
    {id : String} {e : Endpoint}
    (h : (id, e) ∈ (Table.ofPaths collect defs paths failures).value.1.endpoints) :
    e.WellFormed := by
  refine Table.forall_endpoints_addAll (P := Endpoint.WellFormed) ?_ ?_ (id, e) h
  · exact fun p hp => absurd hp List.not_mem_nil
  · intro op hop e he
    exact PathOperation.wellFormed_of_describe (PathOperation.mem_all_iff.1 hop).2.2 he

/-- A number of results. -/
def searchComponents : Members :=
  [(.str "Limit", .map [(.str "type", .str "integer"), (.str "minimum", .int 1)])]

/-- A search with a shared parameter, an optional one and a stream of answers, beside an operation
that is malformed. -/
def searchPaths : Members :=
  [(.str "/search", .map
    [(.str "parameters", .list [.map [(.str "name", .str "q"), (.str "required", .bool true),
        (.str "schema", .map [(.str "type", .str "string")])]]),
      (.str "Get", .map [(.str "operationId", .str "search"),
        (.str "parameters", .list [.map [(.str "name", .str "limit"), (.str "in", .str "header"),
          (.str "schema", Schema.componentReference "Limit")]]),
        (.str "responses", .map [(.int 200, .map [(.str "content", .map
          [(.str "application/x-ndjson", .map [(.str "schema", .map [])])])])])]),
      (.str "post", .map [(.str "operationId", .str "broken"), (.str "parameters", .int 1)])])]

/-- The endpoint of the search. Both calls pass the only optional parameter. -/
def searchEndpoint : Endpoint where
  operationId := "search"
  methodName := "search"
  title := "search"
  method := "GET"
  path := "/search"
  params :=
    [⟨"q", .query, true, [(.str "type", .str "string")], .null, none, ""⟩,
      ⟨"limit", .header, false, [(.str "type", .str "integer"), (.str "minimum", .int 1)], .null,
        some "Limit", ""⟩]
  requestBody := none
  responseBodies := [("200", some ⟨"application/x-ndjson", [], true, .null, none⟩)]
  streaming := true
  tags := []
  exampleParams := List.replicate 2 [(.str "query", .map [(.str "q", .str "")]),
    (.str "header", .map [(.str "limit", .int 1)]), (.str "parse_as", .str "stream")]

theorem wellFormed_of_mem_ofPaths_search :
    ("search", searchEndpoint) ∈
        (Table.ofPaths false searchComponents searchPaths []).value.1.endpoints ∧
      searchEndpoint.WellFormed := by
  have hmem : ("search", searchEndpoint) ∈
      (Table.ofPaths false searchComponents searchPaths []).value.1.endpoints := by decide +kernel
  exact ⟨hmem, wellFormed_of_mem_ofPaths hmem⟩

end EndpointAtlas
