import EndpointAtlas.Proofs.Endpoint.Accounting

/-!
# A run, entry by entry

What an operation contributes to a table is told apart from the table: `Table.contribution` is the
entry, and `Table.Enters` a run over operations with all of their entries.

1. `outcome_add_eq_map_enter`, `value_addAll_eq_none_iff`: entering operations is entering what they
   contribute.
2. `Enters.unique`, `Enters.append_iff`: a run determines its entries, and runs can be cut.
3. `Enters.lookup_eq`: a run changes what the table answers for the ids of its operations only.
4. `contribution_congr`, `Enters.congr`: a table bears on an operation only through what it answers
   for the id of the operation.
-/

namespace EndpointAtlas

namespace Table

/-- The table with an entry at its end. -/
def enter (t : Table) (entry : Entry) : Table :=
  ⟨t.endpoints ++ entry.endpoint?.toList, t.failures ++ entry.failure?.toList⟩

/-- What a fault of an operation contributes: its report if reports are collected. A fault that is
not put on record ends the run. -/
def reportEntry (collect : Bool) (op : PathOperation) (fault : Fault) : Except Fault Entry :=
  match fault.report? with
  | some (kind, reason) =>
    if collect then Entry.failure <$> failureOf op kind reason else .ok .nothing
  | none => .error fault

/-- What an operation contributes to a table, or the fault that ends the run. -/
def contribution (collect : Bool) (defs : Members) (t : Table) (op : PathOperation) :
    Except Fault Entry :=
  match (describeNew defs t op).outcome with
  | .ok (some e) => .ok (.endpoint e)
  | .ok none => .ok .nothing
  | .error fault => reportEntry collect op fault

/-- Operations contribute entries to a table, one after the other, and a table comes of it. -/
inductive Enters (collect : Bool) (defs : Members) :
    Table → List PathOperation → List Entry → Table → Prop
  | done (t : Table) : Enters collect defs t [] [] t
  | next {t t' : Table} {op : PathOperation} {ops : List PathOperation} {entry : Entry}
      {entries : List Entry} (contributes : contribution collect defs t op = .ok entry)
      (rest : Enters collect defs (t.enter entry) ops entries t') :
      Enters collect defs t (op :: ops) (entry :: entries) t'

variable {collect : Bool} {defs : Members} {t t' t'' u : Table} {op op' : PathOperation}
  {ops ops' : List PathOperation} {entry : Entry} {entries entries' : List Entry}

/-! ## Entering what operations contribute -/

theorem enter_endpoint (t : Table) (e : Endpoint) :
    t.enter (.endpoint e) = { t with endpoints := t.endpoints ++ [(e.operationId, e)] } := by
  unfold enter
  exact congrArg (Table.mk _) (List.append_nil t.failures)

theorem enter_failure (t : Table) (f : Failure) :
    t.enter (.failure f) = { t with failures := t.failures ++ [f] } := by
  unfold enter
  exact congrArg (Table.mk · _) (List.append_nil t.endpoints)

theorem enter_nothing (t : Table) : t.enter .nothing = t := by
  unfold enter
  exact congrArg₂ Table.mk (List.append_nil t.endpoints) (List.append_nil t.failures)

/-- A report is entered as the entry that it makes. -/
theorem outcome_report_eq_map_enter {fault : Fault} {kind reason : String}
    (h : fault.report? = some (kind, reason)) :
    (report collect t op kind reason).outcome = t.enter <$> reportEntry collect op fault := by
  rw [outcome_report, reportEntry, h]
  dsimp only
  cases collect with
  | false => exact congrArg Except.ok (enter_nothing t).symm
  | true =>
    rw [if_pos rfl, if_pos rfl]
    cases failureOf op kind reason with
    | error other => rfl
    | ok f => exact congrArg Except.ok (enter_failure t f).symm

theorem outcome_add_eq_map_enter :
    (add collect defs t op).outcome = t.enter <$> contribution collect defs t op := by
  rw [outcome_add, contribution]
  rcases (describeNew defs t op).outcome with fault | _ | e
  · dsimp only
    cases hreport : fault.report? with
    | none =>
      rw [reportEntry, hreport]
      rfl
    | some report => exact outcome_report_eq_map_enter hreport
  · exact congrArg Except.ok (enter_nothing t).symm
  · exact congrArg Except.ok (enter_endpoint t e).symm

/-- A run reaches its end just when all operations contribute entries. -/
theorem value_addAll_eq_none_iff :
    (addAll collect defs t ops).value = (t', none) ↔
      ∃ entries, Enters collect defs t ops entries t' := by
  induction ops generalizing t with
  | nil =>
    constructor
    · intro h
      cases h
      exact ⟨[], .done _⟩
    · rintro ⟨entries, h⟩
      cases h
      rfl
  | cons op rest ih =>
    rw [value_addAll_cons, outcome_add_eq_map_enter]
    cases hentry : contribution collect defs t op with
    | error fault =>
      refine iff_of_false (fun h => ?_) ?_
      · cases h
      · rintro ⟨entries, h⟩
        cases h with
        | next hnext _ => rw [hentry] at hnext; cases hnext
    | ok entry =>
      change (addAll collect defs (t.enter entry) rest).value = (t', none) ↔ _
      rw [ih]
      constructor
      · rintro ⟨entries, h⟩
        exact ⟨entry :: entries, .next hentry h⟩
      · rintro ⟨entries, h⟩
        cases h with
        | next hnext hrest =>
          rw [hentry] at hnext
          cases hnext
          exact ⟨_, hrest⟩

namespace Enters

theorem unique (h : Enters collect defs t ops entries t')
    (h' : Enters collect defs t ops entries' t'') : entries = entries' ∧ t' = t'' := by
  induction h generalizing entries' with
  | done t =>
    cases h'
    exact ⟨rfl, rfl⟩
  | next hentry _ ih =>
    cases h' with
    | next hentry' hrest' =>
      rw [hentry] at hentry'
      cases hentry'
      obtain ⟨rfl, rfl⟩ := ih hrest'
      exact ⟨rfl, rfl⟩

theorem append_iff : Enters collect defs t (ops ++ ops') entries t'' ↔
    ∃ first second t', entries = first ++ second ∧ Enters collect defs t ops first t' ∧
      Enters collect defs t' ops' second t'' := by
  induction ops generalizing t entries with
  | nil =>
    constructor
    · intro h
      exact ⟨[], entries, t, rfl, .done t, h⟩
    · rintro ⟨first, second, t', rfl, hfirst, hsecond⟩
      cases hfirst
      exact hsecond
  | cons op ops ih =>
    constructor
    · intro h
      cases h with
      | next hentry hrest =>
        obtain ⟨first, second, t', rfl, hfirst, hsecond⟩ := ih.1 hrest
        exact ⟨_ :: first, second, t', rfl, .next hentry hfirst, hsecond⟩
    · rintro ⟨first, second, t', rfl, hfirst, hsecond⟩
      cases hfirst with
      | next hentry hrest => exact .next hentry (ih.2 ⟨_, second, t', rfl, hrest, hsecond⟩)

theorem length_eq (h : Enters collect defs t ops entries t') : entries.length = ops.length := by
  induction h with
  | done t => rfl
  | next _ _ ih => rw [List.length_cons, List.length_cons, ih]

/-- A run leaves the table with the endpoints and the reports among its entries. -/
theorem table_eq (h : Enters collect defs t ops entries t') :
    t' = ⟨t.endpoints ++ entries.filterMap Entry.endpoint?,
      t.failures ++ entries.filterMap Entry.failure?⟩ := by
  induction h with
  | done t => rw [List.filterMap_nil, List.filterMap_nil, List.append_nil, List.append_nil]
  | next _ _ ih =>
    simp only [List.filterMap_eq_flatMap_toList, List.flatMap_cons] at ih ⊢
    rw [ih, ← List.append_assoc, ← List.append_assoc]
    rfl

end Enters

/-! ## What the table has to do with it -/

theorem endpoint?_of_reportEntry {fault : Fault} (h : reportEntry collect op fault = .ok entry) :
    entry.endpoint? = none := by
  unfold reportEntry at h
  split at h
  · split at h
    · obtain ⟨f, -, rfl⟩ := Outcome.map_eq_ok_iff.1 h
      rfl
    · cases h
      rfl
  · cases h

/-- An endpoint is entered under the id of its operation. -/
theorem id_of_contribution {key : String} {e : Endpoint}
    (h : contribution collect defs t op = .ok entry) (he : entry.endpoint? = some (key, e)) :
    op.id = .str key := by
  unfold contribution at h
  rcases hnew : (describeNew defs t op).outcome with fault | _ | built <;> rw [hnew] at h
  · rw [endpoint?_of_reportEntry h] at he
    cases he
  · cases h
    cases he
  · cases h
    cases he
    exact (PathOperation.id_of_describe (describe_of_describeNew hnew)).1

theorem lookup_enter (t : Table) (entry : Entry) (id : String) :
    (t.enter entry).endpoints.lookup id =
      (t.endpoints.lookup id).or (entry.endpoint?.toList.lookup id) :=
  List.lookup_append

/-- A run changes what the table answers for the ids of its operations, and for no other. -/
theorem Enters.lookup_eq (h : Enters collect defs t ops entries t') {id : String}
    (hid : ∀ op ∈ ops, op.id ≠ .str id) : t'.endpoints.lookup id = t.endpoints.lookup id := by
  induction h with
  | done t => rfl
  | @next t _ op _ entry _ hentry _ ih =>
    rw [List.forall_mem_cons] at hid
    rw [ih hid.2, lookup_enter]
    have hother : entry.endpoint?.toList.lookup id = none := by
      cases he : entry.endpoint? with
      | none => rfl
      | some p =>
        obtain ⟨key, e⟩ := p
        have hkey : key ≠ id := by
          rintro rfl
          exact hid.1 (id_of_contribution hentry he)
        rw [Option.toList_some, List.lookup_cons, beq_false_of_ne (Ne.symm hkey)]
        rfl
    rw [hother, Option.or_none]

end Table

/-- Two operations that are described alike: at most what stands beside them in their path items is
not the same, and there the shared parameters are. -/
structure PathOperation.Alike (a b : PathOperation) : Prop where
  path : a.path = b.path
  method : a.method = b.method
  content : a.content = b.content
  shared : listField a.item "parameters" = listField b.item "parameters"

namespace PathOperation.Alike

variable {a b : PathOperation}

theorem refl (a : PathOperation) : a.Alike a := ⟨rfl, rfl, rfl, rfl⟩

theorem id (h : a.Alike b) : a.id = b.id := by
  unfold PathOperation.id
  rw [h.content]

theorem describe (h : a.Alike b) (defs : Members) : a.describe defs = b.describe defs := by
  unfold PathOperation.describe
  rw [h.path, h.method, h.content, h.shared]

theorem failureOf (h : a.Alike b) (kind reason : String) :
    Table.failureOf a kind reason = Table.failureOf b kind reason := by
  unfold Table.failureOf
  rw [h.id, h.path, h.method]

end PathOperation.Alike

namespace Table

variable {collect : Bool} {defs : Members} {t t' u : Table} {op op' : PathOperation}
  {ops ops' : List PathOperation} {entries : List Entry}

/-- A table bears on an operation only through what it answers for the id of the operation. -/
theorem contribution_congr (halike : op.Alike op')
    (hlookup : ∀ id, op.id = .str id → t.endpoints.lookup id = u.endpoints.lookup id) :
    contribution collect defs t op = contribution collect defs u op' := by
  have hreport : ∀ fault, reportEntry collect op fault = reportEntry collect op' fault := by
    intro fault
    unfold reportEntry
    simp only [halike.failureOf]
  have hnew : (describeNew defs t op).outcome = (describeNew defs u op').outcome := by
    rw [outcome_describeNew, outcome_describeNew, ← halike.describe]
    rcases hop : (op.describe defs).outcome with fault | _ | e
    · rfl
    · rfl
    · dsimp only
      rw [hlookup _ (PathOperation.id_of_describe hop).1]
  unfold contribution
  rw [hnew, funext hreport]

/-- Operations that are described alike contribute the same entries to two tables that answer alike
for their ids. -/
theorem Enters.congr (h : Enters collect defs t ops entries t')
    (halike : List.Forall₂ PathOperation.Alike ops ops')
    (hlookup : ∀ op ∈ ops, ∀ id, op.id = .str id →
      t.endpoints.lookup id = u.endpoints.lookup id) :
    ∃ u', Enters collect defs u ops' entries u' := by
  induction h generalizing u ops' with
  | done t =>
    cases halike
    exact ⟨u, .done u⟩
  | @next t _ op rest entry _ hentry _ ih =>
    obtain ⟨op', rest', hop, hrest, rfl⟩ := List.forall₂_cons_left_iff.1 halike
    rw [List.forall_mem_cons] at hlookup
    rw [contribution_congr hop hlookup.1] at hentry
    have hnext : ∀ op ∈ rest, ∀ id, op.id = .str id →
        (t.enter entry).endpoints.lookup id = (u.enter entry).endpoints.lookup id := by
      intro other hother id hid
      rw [lookup_enter, lookup_enter, hlookup.2 other hother id hid]
    obtain ⟨u', hu'⟩ := ih hrest hnext
    exact ⟨u', .next hentry hu'⟩

end Table

end EndpointAtlas
