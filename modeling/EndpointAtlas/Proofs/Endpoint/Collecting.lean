import EndpointAtlas.Proofs.Endpoint.Contribution
import EndpointAtlas.Proofs.Unrecorded

/-!
# Collecting reports

A run can collect the reports of operations that are left out, or do without them. A report takes
the path of its operation as a text, but the paths of a document may be other scalars. Then there is
no report, and the run that collects reports ends; the other one goes on.

1. `outcome_describeNew_eq_error_iff`: when an operation is left out, without the table.
2. `contribution_compared`: one operation in both runs.
3. `runs`: two runs have the same result, or come to an operation that cannot be reported.
4. `result_collecting_eq_iff`: which of both it is for the runs over a document.
-/

namespace EndpointAtlas

/-- Behind earlier operations, an operation is left out, and its path is not the text that a report
of it takes. -/
structure Unreportable (defs : Members) (earlier : List PathOperation) (op : PathOperation) :
    Prop where
  leftOut : ∃ fault, Raises defs earlier op fault ∧ fault.report?.isSome = true
  noText : ∀ path, Check.text (.scalar op.path) ≠ .ok path

/-- Operations that do not end a run: all of their faults are put on record. -/
def GoesOn (defs : Members) (ops : List PathOperation) : Prop :=
  ∀ op ∈ ops, ∀ fault, ¬ Unrecorded (op.describe defs).outcome fault

/-- Behind earlier operations, a run over operations comes to one that cannot be reported. -/
def ComesToUnreportable (defs : Members) (earlier ops : List PathOperation) : Prop :=
  ∃ before op after, ops = before ++ op :: after ∧ GoesOn defs (earlier ++ before) ∧
    Unreportable defs (earlier ++ before) op

section Operations

variable {defs : Members} {op : PathOperation} {earlier ops : List PathOperation} {fault : Fault}

theorem goesOn_singleton :
    GoesOn defs [op] ↔ ∀ fault, ¬ Unrecorded (op.describe defs).outcome fault := by
  unfold GoesOn
  rw [List.forall_mem_singleton]

theorem GoesOn.append (h : GoesOn defs earlier) (h' : GoesOn defs ops) :
    GoesOn defs (earlier ++ ops) :=
  List.forall_mem_append.2 ⟨h, h'⟩

theorem not_comesToUnreportable_nil (defs : Members) (earlier : List PathOperation) :
    ¬ ComesToUnreportable defs earlier [] := by
  rintro ⟨before, op, after, hops, -⟩
  cases before <;> cases hops

theorem comesToUnreportable_cons_iff : ComesToUnreportable defs earlier (op :: ops) ↔
    (GoesOn defs earlier ∧ Unreportable defs earlier op) ∨
      ComesToUnreportable defs (earlier ++ [op]) ops := by
  constructor
  · rintro ⟨before, other, after, hops, hgo, h⟩
    rcases List.cons_eq_append_iff.1 hops with ⟨rfl, hcons⟩ | ⟨before, rfl, rfl⟩
    · cases hcons
      rw [List.append_nil] at hgo h
      exact .inl ⟨hgo, h⟩
    · rw [List.append_cons] at hgo h
      exact .inr ⟨before, other, after, (List.cons.inj hops).2, hgo, h⟩
  · rintro (⟨hgo, h⟩ | ⟨before, other, after, rfl, hgo, h⟩)
    · exact ⟨[], op, ops, rfl, by rwa [List.append_nil], by rwa [List.append_nil]⟩
    · rw [← List.append_cons] at hgo h
      exact ⟨op :: before, other, after, rfl, hgo, h⟩

end Operations

namespace Table

/-- What a run gives: its endpoints, or the fault that ended it. -/
def result : Table × Option Fault → Except Fault (List (String × Endpoint))
  | (t, none) => .ok t.endpoints
  | (_, some fault) => .error fault

variable {defs : Members} {t t' u : Table} {op : PathOperation} {earlier ops : List PathOperation}
  {fault : Fault}

/-! ## One operation -/

/-- A table answers for every id with the first endpoint that was built under it. -/
def Answers (defs : Members) (earlier : List PathOperation) (t : Table) : Prop :=
  ∀ id, t.endpoints.lookup id = firstBuilt? defs earlier id

/-- Behind earlier operations, an operation that is new to the table fails by its own fault or
because its id is taken. -/
theorem outcome_describeNew_eq_error_iff (h : Answers defs earlier t) :
    (describeNew defs t op).outcome = .error fault ↔ Raises defs earlier op fault := by
  rw [outcome_describeNew]
  constructor
  · intro hfault
    rcases hop : (op.describe defs).outcome with other | _ | e <;> simp only [hop] at hfault
    · cases hfault
      exact .own hop
    · cases hfault
    · cases hholder : t.endpoints.lookup e.operationId <;> rw [hholder] at hfault <;> cases hfault
      exact .duplicate (PathOperation.built?_eq_some.2 hop) (h _ ▸ hholder)
  · intro hraises
    cases hraises with
    | own hop => rw [hop]
    | duplicate hbuilt htaken =>
      rw [PathOperation.built?_eq_some.1 hbuilt]
      dsimp only
      rw [h, htaken]

/-- An operation that is entered holds its id from then on, unless an earlier one does. -/
theorem answers_enter {collect : Bool} {entry : Entry} (h : Answers defs earlier t)
    (hentry : contribution collect defs t op = .ok entry) :
    Answers defs (earlier ++ [op]) (t.enter entry) := by
  intro id
  rw [lookup_enter, h id]
  unfold contribution at hentry
  rcases hnew : (describeNew defs t op).outcome with fault | _ | e <;> simp only [hnew] at hentry
  · have hraises := (outcome_describeNew_eq_error_iff h).1 hnew
    rw [endpoint?_of_reportEntry hentry, hraises.firstBuilt?_append]
    exact Option.or_none
  · cases hentry
    have hbuilt : op.built? defs = none := by
      rw [PathOperation.built?, describe_of_describeNew hnew]
    rw [firstBuilt?_append_of_not_built hbuilt]
    exact Option.or_none
  · cases hentry
    have hbuilt := PathOperation.built?_eq_some.2 (describe_of_describeNew hnew)
    rw [firstBuilt?_append_of_built hbuilt, Entry.endpoint?, Option.toList_some,
      lookup_singleton]

/-- There is a report of an operation just when its path is a text, or bytes that are one. -/
theorem failureOf_cases (op : PathOperation) (kind reason : String) :
    (∃ f path, failureOf op kind reason = .ok f ∧ Check.text (.scalar op.path) = .ok path) ∨
      ∃ entries, failureOf op kind reason = .error (.invalid ⟨.failure, entries⟩) ∧
        ∀ path, Check.text (.scalar op.path) ≠ .ok path := by
  unfold failureOf
  cases Check.text (.scalar op.path) with
  | ok path => exact .inl ⟨_, path, rfl, rfl⟩
  | failed entries =>
    refine .inr ⟨_, rfl, fun path h => ?_⟩
    cases h

/-- An operation that ends a run is not put on record. -/
theorem report?_of_raises {other : Fault} (hraises : Raises defs earlier op other)
    (h : Unrecorded (op.describe defs).outcome fault) : other.report? = none := by
  cases hraises with
  | own hown =>
    rw [h.1] at hown
    cases hown
    exact h.2
  | duplicate hbuilt =>
    rw [PathOperation.built?_eq_some, h.1] at hbuilt
    cases hbuilt

/-- An operation that ends a run is not left out. -/
theorem not_unreportable_of_unrecorded (h : Unrecorded (op.describe defs).outcome fault) :
    ¬ Unreportable defs earlier op := by
  rintro ⟨⟨other, hraises, hrecorded⟩, -⟩
  rw [report?_of_raises hraises h] at hrecorded
  cases hrecorded

/-- What one operation contributes to a run that collects reports, and to one that does not. -/
inductive Compared (defs : Members) (earlier : List PathOperation) (op : PathOperation) :
    Except Fault Entry → Except Fault Entry → Prop
  | alike {entry entry' : Entry} (endpoint : entry.endpoint? = entry'.endpoint?)
      (goesOn : GoesOn defs [op]) (reportable : ¬ Unreportable defs earlier op) :
      Compared defs earlier op (.ok entry) (.ok entry')
  | ends {fault : Fault} (unrecorded : Unrecorded (op.describe defs).outcome fault) :
      Compared defs earlier op (.error fault) (.error fault)
  | apart {entries : List ValidationError.Entry} (unreportable : Unreportable defs earlier op) :
      Compared defs earlier op (.error (.invalid ⟨.failure, entries⟩)) (.ok .nothing)

/-- **One operation.** Only one that is left out and cannot be reported tells the runs apart. -/
theorem contribution_compared (h : Answers defs earlier t) (op : PathOperation) :
    Compared defs earlier op (contribution true defs t op) (contribution false defs t op) := by
  unfold contribution
  cases hnew : (describeNew defs t op).outcome with
  | ok described =>
    have hgo : GoesOn defs [op] := by
      rw [goesOn_singleton]
      intro fault hunrecorded
      rw [describe_of_describeNew hnew] at hunrecorded
      exact (Unrecorded.ok_iff _).1 hunrecorded
    have hreportable : ¬ Unreportable defs earlier op := by
      rintro ⟨⟨fault, hraises, -⟩, -⟩
      rw [(outcome_describeNew_eq_error_iff h).2 hraises] at hnew
      cases hnew
    cases described with
    | none => exact .alike rfl hgo hreportable
    | some e => exact .alike rfl hgo hreportable
  | error fault =>
    have hraises := (outcome_describeNew_eq_error_iff h).1 hnew
    simp only [reportEntry]
    cases hreport : fault.report? with
    | none =>
      cases hraises with
      | own hown => exact .ends ⟨hown, hreport⟩
      | duplicate => cases hreport
    | some report =>
      rcases failureOf_cases op report.1 report.2 with
        ⟨f, path, hfailure, hpath⟩ | ⟨entries, hfailure, hpath⟩
      · have hgo : GoesOn defs [op] := by
          rw [goesOn_singleton]
          intro other hunrecorded
          rw [report?_of_raises hraises hunrecorded] at hreport
          cases hreport
        simp only [hfailure]
        exact .alike rfl hgo fun hunreportable => hunreportable.noText path hpath
      · simp only [hfailure]
        exact .apart ⟨⟨fault, hraises, by rw [hreport]; rfl⟩, hpath⟩

/-! ## Two runs -/

theorem report?_of_contribution (h : contribution false defs t op = .error fault) :
    fault.report? = none := by
  unfold contribution at h
  rcases hnew : (describeNew defs t op).outcome with raised | _ | e <;> rw [hnew] at h
  · dsimp only [reportEntry] at h
    cases hreport : raised.report? with
    | none =>
      rw [hreport] at h
      cases h
      exact hreport
    | some report => rw [hreport] at h; cases h
  · cases h
  · cases h

/-- A run that collects no reports ends only with a fault that is not put on record. -/
theorem report?_of_result_eq_error (h : result (addAll false defs t ops).value = .error fault) :
    fault.report? = none := by
  induction ops generalizing t with
  | nil => cases h
  | cons op rest ih =>
    rw [value_addAll_cons, outcome_add_eq_map_enter] at h
    cases hentry : contribution false defs t op with
    | ok entry =>
      rw [hentry] at h
      exact ih h
    | error other =>
      rw [hentry] at h
      cases h
      exact report?_of_contribution hentry

/-- What tells a run that collects reports from one that does not. -/
inductive Runs (defs : Members) (earlier ops : List PathOperation) :
    Except Fault (List (String × Endpoint)) → Except Fault (List (String × Endpoint)) → Prop
  | same {r : Except Fault (List (String × Endpoint))}
      (reportable : ¬ ComesToUnreportable defs earlier ops) : Runs defs earlier ops r r
  | apart {entries : List ValidationError.Entry} {r : Except Fault (List (String × Endpoint))}
      (unreportable : ComesToUnreportable defs earlier ops) :
      Runs defs earlier ops (.error (.invalid ⟨.failure, entries⟩)) r

theorem Runs.cons {r r' : Except Fault (List (String × Endpoint))}
    (h : Runs defs (earlier ++ [op]) ops r r') (hop : ¬ Unreportable defs earlier op) :
    Runs defs earlier (op :: ops) r r' := by
  have hcons : ComesToUnreportable defs earlier (op :: ops) ↔
      ComesToUnreportable defs (earlier ++ [op]) ops := by
    rw [comesToUnreportable_cons_iff, or_iff_right fun hnow => hop hnow.2]
  cases h with
  | same hreportable => exact .same (hcons.not.2 hreportable)
  | apart hunreportable => exact .apart (hcons.2 hunreportable)

/-- Behind an operation that ends a run there is none to come to. -/
theorem not_comesToUnreportable_of_unrecorded (h : Unrecorded (op.describe defs).outcome fault) :
    ¬ ComesToUnreportable defs earlier (op :: ops) := by
  rw [comesToUnreportable_cons_iff]
  rintro (⟨-, hop⟩ | ⟨before, other, after, -, hgo, -⟩)
  · exact not_unreportable_of_unrecorded h hop
  · have hmem : op ∈ earlier ++ [op] ++ before := by simp
    exact hgo op hmem fault h

/-- **Two runs**, from tables with the same endpoints. -/
theorem runs (h : Answers defs earlier t) (hsame : t.endpoints = u.endpoints)
    (hgo : GoesOn defs earlier) :
    Runs defs earlier ops (result (addAll true defs t ops).value)
      (result (addAll false defs u ops).value) := by
  -- the operations in front are those that have been entered
  induction ops generalizing t u earlier with
  | nil =>
    change Runs defs earlier [] (.ok t.endpoints) (.ok u.endpoints)
    rw [hsame]
    exact .same (not_comesToUnreportable_nil defs earlier)
  | cons op rest ih =>
    have hplain : contribution false defs u op = contribution false defs t op :=
      contribution_congr (.refl op) fun id _ => by rw [hsame]
    rw [value_addAll_cons, value_addAll_cons, outcome_add_eq_map_enter, outcome_add_eq_map_enter,
      hplain]
    have hnext : ∀ entry, contribution true defs t op = .ok entry →
        Answers defs (earlier ++ [op]) (t.enter entry) := fun _ => answers_enter h
    have hcompared := contribution_compared h op
    generalize contribution true defs t op = collected at hnext hcompared ⊢
    generalize contribution false defs t op = plain at hcompared ⊢
    cases hcompared with
    | ends hunrecorded =>
      exact .same (not_comesToUnreportable_of_unrecorded hunrecorded)
    | apart hunreportable =>
      exact .apart (comesToUnreportable_cons_iff.2 (.inl ⟨hgo, hunreportable⟩))
    | @alike entry entry' hendpoint hgoesOn hreportable =>
      have hendpoints : (t.enter entry).endpoints = (u.enter entry').endpoints :=
        congrArg₂ (· ++ ·) hsame (congrArg Option.toList hendpoint)
      exact (ih (hnext entry rfl) hendpoints (hgo.append hgoesOn)).cons hreportable

/-- **Collecting reports changes nothing but for one kind of operations.** A run that collects
reports has the result of the run that does without just when it comes to no operation that is left
out and has no text as path; when it comes to one, it ends because that path is no text. -/
theorem result_collecting_eq_iff (defs paths : Members) (failures : List Failure) :
    (result (ofPaths true defs paths failures).value =
          result (ofPaths false defs paths []).value ↔
        ¬ ComesToUnreportable defs [] (PathOperation.all paths)) ∧
      (ComesToUnreportable defs [] (PathOperation.all paths) →
        ∃ entries, result (ofPaths true defs paths failures).value =
          .error (.invalid ⟨.failure, entries⟩)) := by
  have hanswers : Answers defs [] ⟨[], failures⟩ := fun _ => rfl
  have hruns : Runs defs [] (PathOperation.all paths)
      (result (ofPaths true defs paths failures).value)
      (result (ofPaths false defs paths []).value) :=
    runs hanswers rfl (List.forall_mem_nil _)
  have hplain : ∀ fault, result (ofPaths false defs paths []).value = .error fault →
      fault.report? = none := fun _ => report?_of_result_eq_error
  generalize result (ofPaths true defs paths failures).value = collected at hruns ⊢
  generalize result (ofPaths false defs paths []).value = plain at hruns hplain ⊢
  cases hruns with
  | same hreportable => exact ⟨iff_of_true rfl hreportable, fun h => absurd h hreportable⟩
  | apart hunreportable =>
    refine ⟨iff_of_false (fun heq => ?_) (not_not_intro hunreportable), fun _ => ⟨_, rfl⟩⟩
    cases hplain _ heq.symm

/-- An operation under a number as path, which no endpoint can have, in front of one that can be
built. -/
def numberPaths : Members :=
  [(.int 1, .map [(.str "get", .map [(.str "operationId", .str "number")])]),
    (.str "/text", .map [(.str "get", .map [(.str "operationId", .str "text")])])]

/-- Collecting reports can end a run that goes on without them. -/
theorem result_collecting_ne_numberPaths :
    result (ofPaths true [] numberPaths []).value ≠
        result (ofPaths false [] numberPaths []).value ∧
      result (ofPaths true [] numberPaths []).value =
        .error (.invalid ⟨.failure, [⟨["path"], .notText⟩]⟩) ∧
      (result (ofPaths false [] numberPaths []).value).map (List.map Prod.fst) = .ok ["text"] := by
  refine ⟨fun h => ?_, rfl, rfl⟩
  cases h

end Table

end EndpointAtlas
