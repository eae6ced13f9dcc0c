import EndpointAtlas.Proofs.Endpoint.Run
import Mathlib.Data.List.Nodup

/-!
# Every operation is accounted for

A run that reaches its end has made something of every operation: an endpoint, a report, or nothing
for an operation without an id. `Accounting` relates a table to the operations that were entered so
far. One operation keeps it (`Accounting.add`), so a run does (`Accounting.addAll`).

The table answers for an id with the first endpoint that is built under it (`firstBuilt?`): an
operation that cannot be built does not take the id, and a later one cannot replace the first.
-/

namespace EndpointAtlas

/-- What an operation contributes to a table. -/
inductive Entry where
  | endpoint (e : Endpoint)
  | failure (f : Failure)
  | nothing

namespace Entry

/-- The endpoint that is entered under its id. -/
def endpoint? : Entry → Option (String × Endpoint)
  | endpoint e => some (e.operationId, e)
  | _ => none

/-- The report that is made. -/
def failure? : Entry → Option Failure
  | failure f => some f
  | _ => none

end Entry

/-- The endpoint of an operation, if it can be described and has one. -/
def PathOperation.built? (defs : Members) (op : PathOperation) : Option Endpoint :=
  match (op.describe defs).outcome with
  | .ok described => described
  | .error _ => none

/-- The endpoint of the first operation with an id that can be built. -/
def firstBuilt? (defs : Members) (ops : List PathOperation) (id : String) : Option Endpoint :=
  ops.findSome? fun op => if op.id = .str id then op.built? defs else none

/-- The fault by which an operation is left out: its own, or that an earlier operation has been
built under its id. -/
inductive Raises (defs : Members) (earlier : List PathOperation) (op : PathOperation) : Fault → Prop
  | own {fault : Fault} (raised : (op.describe defs).outcome = .error fault) :
      Raises defs earlier op fault
  | duplicate {e holder : Endpoint} (built : op.built? defs = some e)
      (taken : firstBuilt? defs earlier e.operationId = some holder) :
      Raises defs earlier op (Table.duplicate e holder)

/-- What an operation contributes behind earlier ones. -/
inductive Contributes (defs : Members) (earlier : List PathOperation) (op : PathOperation) :
    Entry → Prop
  | endpoint {e : Endpoint} (built : op.built? defs = some e)
      (free : firstBuilt? defs earlier e.operationId = none) :
      Contributes defs earlier op (.endpoint e)
  | failure {fault : Fault} {kind error path : String} (raises : Raises defs earlier op fault)
      (recorded : fault.report? = some (kind, error)) (textPath : op.path = .str path) :
      Contributes defs earlier op
        (.failure ⟨path, Text.upper op.method, op.textId?, kind, error⟩)
  | nothing (skipped : (op.describe defs).outcome = .ok none) (noId : op.id.isTruthy = false) :
      Contributes defs earlier op .nothing

/-- What each of some operations contributes, in their order. -/
inductive Contributions (defs : Members) : List PathOperation → List Entry → Prop
  | none : Contributions defs [] []
  | next {ops : List PathOperation} {entries : List Entry} {op : PathOperation} {entry : Entry}
      (earlier : Contributions defs ops entries) (contributes : Contributes defs ops op entry) :
      Contributions defs (ops ++ [op]) (entries ++ [entry])

/-- A table holds what operations contribute, behind reports that were made before. -/
structure Accounting (defs : Members) (failures : List Failure) (ops : List PathOperation)
    (t : Table) (entries : List Entry) : Prop where
  contributions : Contributions defs ops entries
  endpoints : t.endpoints = entries.filterMap Entry.endpoint?
  failures : t.failures = failures ++ entries.filterMap Entry.failure?
  nodup : (t.endpoints.map Prod.fst).Nodup
  named : ∀ id e, (id, e) ∈ t.endpoints → id = e.operationId ∧ id ≠ ""
  lookup : ∀ id, t.endpoints.lookup id = firstBuilt? defs ops id

variable {defs : Members} {ops : List PathOperation} {op : PathOperation} {e : Endpoint}
  {entries : List Entry} {t t' : Table} {failures : List Failure}

/-! ## Built endpoints -/

theorem PathOperation.built?_eq_some :
    op.built? defs = some e ↔ (op.describe defs).outcome = .ok (some e) := by
  unfold built?
  rcases (op.describe defs).outcome with _ | _ | _ <;> simp

theorem firstBuilt?_append_singleton (id : String) :
    firstBuilt? defs (ops ++ [op]) id =
      (firstBuilt? defs ops id).or (if op.id = .str id then op.built? defs else none) := by
  unfold firstBuilt?
  rw [List.findSome?_append]
  congr 1
  rw [List.findSome?_cons]
  cases if op.id = .str id then op.built? defs else none <;> rfl

/-- An operation that is not built holds no id. -/
theorem firstBuilt?_append_of_not_built (h : op.built? defs = none) (id : String) :
    firstBuilt? defs (ops ++ [op]) id = firstBuilt? defs ops id := by
  rw [firstBuilt?_append_singleton, h, ite_self, Option.or_none]

/-- An operation that is built holds its id unless an earlier one does. -/
theorem firstBuilt?_append_of_built (h : op.built? defs = some e) (id : String) :
    firstBuilt? defs (ops ++ [op]) id =
      (firstBuilt? defs ops id).or (if e.operationId = id then some e else none) := by
  have hid := (PathOperation.id_of_describe (PathOperation.built?_eq_some.1 h)).1
  rw [firstBuilt?_append_singleton, h, hid]
  simp only [Value.scalar.injEq, Scalar.str.injEq]

/-- An operation that is left out holds no id. -/
theorem Raises.firstBuilt?_append {fault : Fault} (h : Raises defs ops op fault) (id : String) :
    firstBuilt? defs (ops ++ [op]) id = firstBuilt? defs ops id := by
  cases h with
  | own hraised =>
    have hbuilt : op.built? defs = none := by rw [PathOperation.built?, hraised]
    exact firstBuilt?_append_of_not_built hbuilt id
  | @duplicate e holder hbuilt htaken =>
    -- built, but behind the endpoint that holds the id
    rw [firstBuilt?_append_of_built hbuilt]
    by_cases hid : e.operationId = id
    · rw [← hid, htaken, Option.some_or]
    · rw [if_neg hid, Option.or_none]

/-! ## Lookups -/

theorem lookup_singleton (key id : String) (e : Endpoint) :
    [(key, e)].lookup id = if key = id then some e else none := by
  rw [List.lookup_cons]
  by_cases h : key = id
  · simp [h]
  · rw [if_neg h, beq_false_of_ne (Ne.symm h)]
    rfl

theorem not_mem_keys_of_lookup {l : List (String × Endpoint)} {id : String}
    (h : l.lookup id = none) : id ∉ l.map Prod.fst := by
  rintro hmem
  obtain ⟨p, hp, rfl⟩ := List.mem_map.1 hmem
  exact absurd (List.lookup_eq_none_iff.1 h p hp) (by simp)

/-- Ids stay distinct when one is added that a lookup does not find. -/
theorem nodup_keys_append {l : List (String × Endpoint)} {id : String}
    (h : (l.map Prod.fst).Nodup) (hfree : l.lookup id = none) (e : Endpoint) :
    ((l ++ [(id, e)]).map Prod.fst).Nodup := by
  rw [List.map_append, List.nodup_append]
  refine ⟨h, List.nodup_singleton _, ?_⟩
  rintro key hkey _ hnew rfl
  rw [List.map_singleton, List.mem_singleton] at hnew
  rw [hnew] at hkey
  exact not_mem_keys_of_lookup hfree hkey

/-! ## One operation -/

namespace Accounting

theorem start (defs : Members) (failures : List Failure) :
    Accounting defs failures [] ⟨[], failures⟩ [] where
  contributions := .none
  endpoints := rfl
  failures := by simp
  nodup := List.nodup_nil
  named := by simp
  lookup _ := rfl

/-- An operation is built and no earlier one has been built under its id. -/
theorem addEndpoint (h : Accounting defs failures ops t entries) (hbuilt : op.built? defs = some e)
    (hfree : t.endpoints.lookup e.operationId = none) :
    Accounting defs failures (ops ++ [op])
      { t with endpoints := t.endpoints ++ [(e.operationId, e)] } (entries ++ [.endpoint e]) where
  contributions := h.contributions.next (.endpoint hbuilt (h.lookup _ ▸ hfree))
  endpoints := by
    rw [List.filterMap_append, ← h.endpoints]
    rfl
  failures := by
    rw [List.filterMap_append, h.failures]
    simp [Entry.failure?]
  nodup := nodup_keys_append h.nodup hfree e
  named := by
    intro id other hmem
    rcases List.mem_append.1 hmem with hold | hnew
    · exact h.named id other hold
    · cases List.mem_singleton.1 hnew
      exact ⟨rfl, (PathOperation.id_of_describe (PathOperation.built?_eq_some.1 hbuilt)).2⟩
  lookup id := by
    rw [List.lookup_append, lookup_singleton, h.lookup, firstBuilt?_append_of_built hbuilt]

/-- An operation has no endpoint. -/
theorem addNothing (h : Accounting defs failures ops t entries)
    (hskipped : (op.describe defs).outcome = .ok none) :
    Accounting defs failures (ops ++ [op]) t (entries ++ [.nothing]) where
  contributions :=
    h.contributions.next (.nothing hskipped (PathOperation.not_isTruthy_of_describe hskipped))
  endpoints := by
    rw [List.filterMap_append, ← h.endpoints]
    simp [Entry.endpoint?]
  failures := by
    rw [List.filterMap_append, h.failures]
    simp [Entry.failure?]
  nodup := h.nodup
  named := h.named
  lookup id := by
    have hbuilt : op.built? defs = none := by rw [PathOperation.built?, hskipped]
    rw [firstBuilt?_append_of_not_built hbuilt, h.lookup]

/-- An operation is left out and put on record. -/
theorem addFailure {fault : Fault} {kind error path : String}
    (h : Accounting defs failures ops t entries) (hraises : Raises defs ops op fault)
    (hreport : fault.report? = some (kind, error)) (hpath : op.path = .str path) :
    Accounting defs failures (ops ++ [op])
      { t with failures := t.failures ++ [⟨path, Text.upper op.method, op.textId?, kind, error⟩] }
      (entries ++ [.failure ⟨path, Text.upper op.method, op.textId?, kind, error⟩]) where
  contributions := h.contributions.next (.failure hraises hreport hpath)
  endpoints := by
    rw [List.filterMap_append, ← h.endpoints]
    simp [Entry.endpoint?]
  failures := by
    rw [List.filterMap_append, h.failures, List.append_assoc]
    rfl
  nodup := h.nodup
  named := h.named
  lookup id := by rw [hraises.firstBuilt?_append, h.lookup]

/-- A fault of an operation that is new to the table, or the fault that its id is taken. -/
theorem raises_of_describeNew {fault : Fault} (h : Accounting defs failures ops t entries)
    (hfault : (Table.describeNew defs t op).outcome = .error fault) : Raises defs ops op fault := by
  rw [Table.outcome_describeNew] at hfault
  rcases hop : (op.describe defs).outcome with other | _ | e <;> simp only [hop] at hfault
  · cases hfault
    exact .own hop
  · cases hfault
  · cases hholder : t.endpoints.lookup e.operationId <;> rw [hholder] at hfault <;> cases hfault
    exact .duplicate (PathOperation.built?_eq_some.2 hop) (h.lookup _ ▸ hholder)

/-- **One operation keeps accounts.** -/
theorem add {path : String} (h : Accounting defs failures ops t entries)
    (hpath : op.path = .str path) (hadd : (Table.add true defs t op).outcome = .ok t') :
    ∃ entry, Accounting defs failures (ops ++ [op]) t' (entries ++ [entry]) := by
  rw [Table.outcome_add] at hadd
  cases hnew : (Table.describeNew defs t op).outcome with
  | error fault =>
    have hraises := h.raises_of_describeNew hnew
    simp only [hnew] at hadd
    cases hreport : fault.report? with
    | none => rw [hreport] at hadd; cases hadd
    | some report =>
      simp only [hreport, Table.outcome_report, Table.failureOf_eq hpath] at hadd
      cases hadd
      exact ⟨_, h.addFailure hraises hreport hpath⟩
  | ok described =>
    simp only [hnew] at hadd
    rw [Table.outcome_describeNew] at hnew
    rcases hop : (op.describe defs).outcome with other | _ | e <;> simp only [hop] at hnew
    · cases hnew
    · cases hnew
      cases hadd
      exact ⟨_, h.addNothing hop⟩
    · cases hfree : t.endpoints.lookup e.operationId <;> rw [hfree] at hnew <;> cases hnew
      cases hadd
      exact ⟨_, h.addEndpoint (PathOperation.built?_eq_some.2 hop) hfree⟩

/-! ## A run -/

theorem addAll {rest : List PathOperation} (h : Accounting defs failures ops t entries)
    (hpaths : ∀ op ∈ rest, ∃ path, op.path = .str path)
    (hrun : (Table.addAll true defs t rest).value = (t', none)) :
    ∃ entries, Accounting defs failures (ops ++ rest) t' entries := by
  -- the operations in front are those that have been entered
  induction rest generalizing ops t entries with
  | nil =>
    cases hrun
    exact ⟨entries, (List.append_nil ops).symm ▸ h⟩
  | cons op rest ih =>
    rw [Table.value_addAll_cons] at hrun
    cases hadd : (Table.add true defs t op).outcome with
    | error fault => rw [hadd] at hrun; cases hrun
    | ok next =>
      simp only [hadd] at hrun
      obtain ⟨path, hpath⟩ := hpaths op List.mem_cons_self
      obtain ⟨entry, hnext⟩ := h.add hpath hadd
      have := ih hnext (fun op hop => hpaths op (List.mem_cons_of_mem _ hop)) hrun
      rwa [List.append_assoc] at this

end Accounting

/-- **No operation is lost, doubled or mistaken for another.** A run over a document that reaches
its end has accounted for all operations. -/
theorem ofPaths_accounting {defs paths : Members} {failures : List Failure} {t : Table}
    (hkeys : ∀ m ∈ paths, ∃ path, m.1 = .str path)
    (h : (Table.ofPaths true defs paths failures).value = (t, none)) :
    ∃ entries, Accounting defs failures (PathOperation.all paths) t entries := by
  have hpaths : ∀ op ∈ PathOperation.all paths, ∃ path, op.path = .str path :=
    fun op hop => hkeys _ (PathOperation.mem_all_iff.1 hop).1
  exact (Accounting.start defs failures).addAll hpaths h

/-- Three operations with one id, the first of them malformed, and an operation without an id. -/
def itemPaths : Members :=
  [(.str "/items", .map
    [(.str "GET", .map [(.str "operationId", .str "list"), (.str "parameters", .int 1)]),
      (.str "post", .map [(.str "operationId", .str "list")]),
      (.str "Put", .map [(.str "operationId", .str "list"), (.str "summary", .str "Put items")]),
      (.str "trace", .map [(.str "summary", .str "Follow a request")])])]

/-- A run over `itemPaths`, behind a report that was made before. -/
def itemRun : Table × Option Fault :=
  (Table.ofPaths true [] itemPaths [⟨"/", "GET", none, "ValidationError", "earlier"⟩]).value

theorem ofPaths_accounting_itemPaths :
    itemRun.2 = none ∧ itemRun.1.endpoints.map (fun p => (p.1, p.2.method)) = [("list", "POST")] ∧
      itemRun.1.failures.map (fun f => (f.method, f.operationId)) =
        [("GET", none), ("GET", some "list"), ("PUT", some "list")] ∧
      ∃ entries, Accounting [] [⟨"/", "GET", none, "ValidationError", "earlier"⟩]
        (PathOperation.all itemPaths) itemRun.1 entries :=
  ⟨rfl, rfl, rfl, ofPaths_accounting (by simp [itemPaths]) rfl⟩

end EndpointAtlas
