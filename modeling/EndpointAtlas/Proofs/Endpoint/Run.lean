import EndpointAtlas.Proofs.Endpoint.Describe

/-!
# A run over the operations

What becomes of one operation, without the log: `outcome_add`. A run goes on with the table that an
operation leaves, or ends with the fault (`value_addAll_cons`).
-/

namespace EndpointAtlas

namespace PathOperation

/-- The id of an operation if it is a text. -/
def textId? (op : PathOperation) : Option String :=
  match op.id with
  | .str s => some s
  | _ => none

/-- The operations of a document are the members of its path items whose keys are HTTP methods. -/
theorem mem_all_iff {paths : Members} {op : PathOperation} :
    op ∈ all paths ↔ (op.path, .map op.item) ∈ paths ∧ (.str op.method, op.content) ∈ op.item ∧
      isHttpMethod op.method = true := by
  unfold all
  rw [List.mem_flatMap]
  constructor
  · rintro ⟨⟨path, item⟩, hpath, hop⟩
    cases item with
    | map members =>
      obtain ⟨⟨key, content⟩, hmem, heq⟩ := List.mem_filterMap.1 hop
      cases key with
      | str method =>
        dsimp only at heq
        split at heq
        · next hmethod =>
          cases heq
          exact ⟨hpath, hmem, hmethod⟩
        · cases heq
      | _ => cases heq
    | _ => exact absurd hop List.not_mem_nil
  · rintro ⟨hpath, hmem, hmethod⟩
    refine ⟨_, hpath, List.mem_filterMap.2 ⟨_, hmem, ?_⟩⟩
    dsimp only
    rw [if_pos hmethod]

end PathOperation

namespace Table

variable {collect : Bool} {defs : Members} {t : Table} {op : PathOperation}

/-- The report of an operation under a text as path. -/
theorem failureOf_eq {path : String} (h : op.path = .str path) (kind reason : String) :
    failureOf op kind reason = .ok ⟨path, Text.upper op.method, op.textId?, kind, reason⟩ := by
  unfold failureOf
  rw [h]
  rfl

theorem outcome_report (collect : Bool) (t : Table) (op : PathOperation) (kind reason : String) :
    (report collect t op kind reason).outcome =
      if collect then (fun failure => { t with failures := t.failures ++ [failure] }) <$>
        failureOf op kind reason
      else .ok t := by
  unfold report
  cases collect
  · simp
  · simp only [Logged.outcome_bind, Logged.outcome_write, if_true, Logged.outcome_ofExcept]
    cases failureOf op kind reason <;> rfl

/-- The fault of an operation whose id is taken. -/
def duplicate (e holder : Endpoint) : Fault :=
  .schema ⟨.duplicateOperationId e.operationId holder.label, Location.top / "operationId"⟩

theorem outcome_describeNew (defs : Members) (t : Table) (op : PathOperation) :
    (describeNew defs t op).outcome =
      match (op.describe defs).outcome with
      | .ok (some e) =>
        match t.endpoints.lookup e.operationId with
        | some holder => .error (duplicate e holder)
        | none => .ok (some e)
      | .ok none => .ok none
      | .error fault => .error fault := by
  rw [describeNew, Logged.outcome_bind]
  rcases (op.describe defs).outcome with fault | _ | e
  · rfl
  · rfl
  · change Logged.outcome (match t.endpoints.lookup e.operationId with
      | some holder => throw (duplicate e holder)
      | none => pure (some e)) = _
    dsimp only
    cases t.endpoints.lookup e.operationId <;> rfl

/-- An operation that is new to a table is described as it is without the table. -/
theorem describe_of_describeNew {described : Option Endpoint}
    (h : (describeNew defs t op).outcome = .ok described) :
    (op.describe defs).outcome = .ok described := by
  rw [outcome_describeNew] at h
  rcases hop : (op.describe defs).outcome with fault | _ | other <;> rw [hop] at h
  · cases h
  · exact h
  · dsimp only at h
    cases hlookup : t.endpoints.lookup other.operationId <;> rw [hlookup] at h <;> cases h
    rfl

/-- **One operation.** Its endpoint is entered, or nothing is done, or its fault is put on record; a
fault that is not put on record is the outcome. -/
theorem outcome_add (collect : Bool) (defs : Members) (t : Table) (op : PathOperation) :
    (add collect defs t op).outcome =
      match (describeNew defs t op).outcome with
      | .ok (some e) => .ok { t with endpoints := t.endpoints ++ [(e.operationId, e)] }
      | .ok none => .ok t
      | .error fault =>
        match fault.report? with
        | some (kind, reason) => (report collect t op kind reason).outcome
        | none => .error fault := by
  rw [add, Logged.outcome_bind]
  rw [Logged.outcome_tryCatch, Logged.outcome_map]
  rcases (describeNew defs t op).outcome with fault | _ | e
  · have hcatch : ∀ handle : Fault → Except Fault (Except (String × String) (Option Endpoint)),
        tryCatch (Except.ok <$> (.error fault : Except Fault (Option Endpoint))) handle =
          handle fault := fun _ => rfl
    rw [hcatch]
    dsimp only
    cases fault.report? with
    | none => rfl
    | some report => rfl
  · rfl
  · rfl

theorem value_addAll_cons (collect : Bool) (defs : Members) (t : Table) (op : PathOperation)
    (rest : List PathOperation) :
    (addAll collect defs t (op :: rest)).value =
      match (add collect defs t op).outcome with
      | .ok t' => (addAll collect defs t' rest).value
      | .error fault => (t, some fault) := by
  rw [addAll, Noted.value_bind]
  change _ = match (add collect defs t op).run.value with
    | .ok t' => _
    | .error fault => _
  cases (add collect defs t op).run.value <;> rfl

end Table

end EndpointAtlas
