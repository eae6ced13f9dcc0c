import EndpointAtlas.Proofs.Endpoint.Shape
import EndpointAtlas.Proofs.Endpoint.Site

/-!
# Operations without an id

An operation is nameless if it is a mapping whose `operationId` is absent, null or empty. It has no
endpoint. It is not passed over in silence, though, if the parameters that its path item shares are
no list: these are read before the id is, and the operation is reported.

1. `Table.namelessEntry_of_contribution`: what a nameless operation contributes.
2. `Table.Enters.filter`: an operation without an endpoint does not bear on others, so that a run
   can do without it.
3. `alike_withoutNameless`: a document without its nameless operations has the other ones.
4. `ofPaths_withoutNameless`: a run over such a document builds the same endpoints. It leaves the
   same table just when no nameless operation is reported.
-/

namespace EndpointAtlas

variable {collect : Bool} {defs : Members} {op : PathOperation} {entry : Entry}

/-! ## What nameless operations contribute -/

/-- Whether the content of an operation is a mapping whose id is absent, null or empty. -/
def isNameless : Value → Bool
  | .map fields =>
    let id := Members.getD fields "operationId"
    id = .null || id = .str ""
  | _ => false

/-- The parameters that a path item shares are a list, as far as they count as given. -/
def SharesList (item : Members) : Prop :=
  (item.getD "parameters").ListOf Value.NotGiven fun _ => True

/-- What a nameless operation contributes: nothing, or a report of what its path item shares. -/
inductive NamelessEntry (collect : Bool) (op : PathOperation) : Entry → Prop
  | skipped (readable : collect = true → SharesList op.item) : NamelessEntry collect op .nothing
  | reported {f : Failure} (collects : collect = true) (unreadable : ¬ SharesList op.item)
      (report : Table.failureOf op "MalformedOperation"
        "'parameters' must be a list at #/parameters" = .ok f) :
      NamelessEntry collect op (.failure f)

theorem NamelessEntry.endpoint?_eq_none (h : NamelessEntry collect op entry) :
    entry.endpoint? = none := by
  cases h <;> rfl

/-- A nameless operation has no report just when reports are not collected or its path item can be
read. -/
theorem NamelessEntry.failure?_eq_none_iff (h : NamelessEntry collect op entry) :
    entry.failure? = none ↔ (collect = true → SharesList op.item) := by
  cases h with
  | skipped hreadable => exact iff_of_true rfl hreadable
  | reported hcollect hunreadable _ =>
    exact iff_of_false (Option.some_ne_none _) fun h => hunreadable (h hcollect)

/-- A list field is read, or else what it holds counts as given and is no list. -/
theorem cases_of_listField (fields : Members) (key : String) :
    ((fields.getD key).ListOf Value.NotGiven (fun _ => True) ∧
        ∃ items, listField fields key = .ok items) ∨
      ¬ (fields.getD key).ListOf Value.NotGiven (fun _ => True) ∧
        listField fields key = .error ⟨.fieldNotList key, Location.top / key⟩ := by
  cases hfield : listField fields key with
  | ok items =>
    exact .inl ⟨listOf_of_listField hfield fun _ _ => trivial, items, rfl⟩
  | error e =>
    unfold listField at hfield
    dsimp only at hfield
    refine .inr ⟨?_, ?_⟩
    · rintro (hnot | ⟨items, hitems, -⟩)
      · rw [Value.NotGiven] at hnot
        simp [hnot] at hfield
      · rw [hitems] at hfield
        split at hfield <;> cases hfield
    · split at hfield
      · cases hfield
      · split at hfield <;> cases hfield
        rfl

theorem Operation.describe_of_isNameless {op : Operation} (h : isNameless op.content = true) :
    describe defs op = pure none := by
  obtain ⟨path, method, content, shared⟩ := op
  cases content with
  | map fields =>
    have hid : (Members.getD fields "operationId").isTruthy = false := by
      simp only [isNameless, Bool.or_eq_true, decide_eq_true_eq] at h
      rcases h with hid | hid <;> rw [hid] <;> rfl
    unfold describe
    dsimp only
    rw [hid]
    rfl
  | _ => cases h

/-- The shared parameters are read first. -/
theorem PathOperation.outcome_describe_of_isNameless (h : isNameless op.content = true) :
    (op.describe defs).outcome =
      match listField op.item "parameters" with
      | .ok _ => .ok none
      | .error e => .error (.schema e) := by
  rw [describe, Logged.outcome_bind, Logged.outcome_ofExcept]
  cases listField op.item "parameters" with
  | ok shared => exact congrArg Logged.outcome (Operation.describe_of_isNameless h)
  | error e => rfl

namespace Table

variable {t t' u : Table} {ops : List PathOperation} {entries : List Entry}

theorem namelessEntry_of_contribution (hop : isNameless op.content = true)
    (h : contribution collect defs t op = .ok entry) : NamelessEntry collect op entry := by
  rw [contribution, outcome_describeNew, PathOperation.outcome_describe_of_isNameless hop] at h
  rcases cases_of_listField op.item "parameters" with
    ⟨hreadable, items, hlist⟩ | ⟨hunreadable, hlist⟩ <;> rw [hlist] at h
  · cases h
    exact .skipped fun _ => hreadable
  · cases collect with
    | false =>
      cases h
      exact .skipped fun hcollect => by cases hcollect
    | true =>
      obtain ⟨f, hf, rfl⟩ := Outcome.map_eq_ok_iff.1 h
      exact .reported rfl hunreadable hf

/-! ## Leaving operations out of a run -/

/-- The entries of those operations that are kept. -/
def keptEntries (keep : PathOperation → Bool) (ops : List PathOperation) (entries : List Entry) :
    List Entry :=
  ((ops.zip entries).filter fun p => keep p.1).map Prod.snd

/-- Leaving members out of a list leaves out what they are mapped to, unless that is nothing. -/
theorem filterMap_filter_eq_iff {α β : Type} {p : α → Bool} {f : α → Option β} {l : List α} :
    (l.filter p).filterMap f = l.filterMap f ↔ ∀ a ∈ l, p a = false → f a = none := by
  induction l with
  | nil => simp
  | cons a rest ih =>
    rw [List.forall_mem_cons, ← ih]
    by_cases hp : p a = true
    · rw [List.filter_cons_of_pos hp, List.filterMap_cons, List.filterMap_cons]
      cases f a <;> simp [hp]
    · have hfalse : p a = false := by simpa using hp
      rw [List.filter_cons_of_neg hp]
      cases hf : f a with
      | none => simp [hf]
      | some b =>
        -- one entry is missing, so the lists differ in length
        have hlength : ((rest.filter p).filterMap f).length ≤ (rest.filterMap f).length :=
          (List.filter_sublist.filterMap f).length_le
        refine iff_of_false (fun heq => ?_) (fun h => by simpa using h.1 hfalse)
        rw [heq, List.filterMap_cons_some hf, List.length_cons] at hlength
        omega

theorem keptEntries_sublist (keep : PathOperation → Bool) (h : entries.length = ops.length) :
    (keptEntries keep ops entries).Sublist entries := by
  have hsublist : (keptEntries keep ops entries).Sublist ((ops.zip entries).map Prod.snd) :=
    List.filter_sublist.map Prod.snd
  rwa [List.map_snd_zip (Nat.le_of_eq h)] at hsublist

theorem filterMap_keptEntries_eq_iff {β : Type} {keep : PathOperation → Bool}
    {f : Entry → Option β} (h : entries.length = ops.length) :
    (keptEntries keep ops entries).filterMap f = entries.filterMap f ↔
      ∀ op entry, (op, entry) ∈ ops.zip entries → keep op = false → f entry = none := by
  have hentries : entries = (ops.zip entries).map Prod.snd :=
    (List.map_snd_zip (Nat.le_of_eq h)).symm
  have hall : entries.filterMap f = (ops.zip entries).filterMap (f ∘ Prod.snd) := by
    rw [← List.filterMap_map, ← hentries]
  rw [keptEntries, List.filterMap_map, hall, filterMap_filter_eq_iff]
  exact Prod.forall

/-- Each entry of a run is what its operation contributes at some time. -/
theorem Enters.forall_mem_zip {P : PathOperation → Entry → Prop}
    (h : Enters collect defs t ops entries t')
    (hP : ∀ t op entry, contribution collect defs t op = .ok entry → P op entry) :
    ∀ op entry, (op, entry) ∈ ops.zip entries → P op entry := by
  induction h with
  | done t => exact fun op entry hmem => absurd hmem List.not_mem_nil
  | next hentry _ ih =>
    intro op entry hmem
    rw [List.zip_cons_cons, List.mem_cons] at hmem
    rcases hmem with heq | hmem
    · cases heq
      exact hP _ _ _ hentry
    · exact ih op entry hmem

/-- Operations without endpoints can be left out: the others contribute what they did. -/
theorem Enters.filter {keep : PathOperation → Bool} (h : Enters collect defs t ops entries t')
    (hlookup : ∀ id, t.endpoints.lookup id = u.endpoints.lookup id)
    (hleft : ∀ op entry, (op, entry) ∈ ops.zip entries → keep op = false →
      entry.endpoint? = none) :
    ∃ u', Enters collect defs u (ops.filter keep) (keptEntries keep ops entries) u' := by
  induction h generalizing u with
  | done t => exact ⟨u, .done u⟩
  | @next t _ op rest entry entries hentry _ ih =>
    have hrest : ∀ op entry, (op, entry) ∈ rest.zip entries → keep op = false →
        entry.endpoint? = none :=
      fun op entry hmem => hleft op entry (List.mem_cons_of_mem _ hmem)
    unfold keptEntries
    rw [List.zip_cons_cons]
    by_cases hkeep : keep op = true
    · rw [List.filter_cons_of_pos hkeep, List.filter_cons_of_pos (by exact hkeep), List.map_cons]
      rw [contribution_congr (.refl op) fun id _ => hlookup id] at hentry
      have hnext : ∀ id, (t.enter entry).endpoints.lookup id =
          (u.enter entry).endpoints.lookup id := by
        intro id
        rw [lookup_enter, lookup_enter, hlookup]
      obtain ⟨u', hu'⟩ := ih hnext hrest
      exact ⟨u', .next hentry hu'⟩
    · rw [List.filter_cons_of_neg hkeep, List.filter_cons_of_neg (by exact hkeep)]
      have hnone : entry.endpoint? = none :=
        hleft op entry List.mem_cons_self (by simpa using hkeep)
      have hnext : ∀ id, (t.enter entry).endpoints.lookup id = u.endpoints.lookup id := by
        intro id
        rw [lookup_enter, hnone, hlookup]
        exact Option.or_none
      exact ih hnext hrest

end Table

/-! ## Documents without nameless operations -/

/-- Whether a member of a path item is a nameless operation. -/
def isNamelessMember : Scalar × Value → Bool
  | (.str method, content) => isHttpMethod method && isNameless content
  | _ => false

/-- A path item without its nameless operations. -/
def itemWithoutNameless (item : Members) : Members := item.filter fun m => !isNamelessMember m

/-- A document without its nameless operations. -/
def withoutNameless (paths : Members) : Members :=
  paths.map fun (path, item) =>
    match item with
    | .map members => (path, .map (itemWithoutNameless members))
    | _ => (path, item)

theorem ofItem_itemWithoutNameless (path : Scalar) (item members : Members) :
    PathOperation.ofItem path item (itemWithoutNameless members) =
      (PathOperation.ofItem path item members).filter fun op => !isNameless op.content := by
  unfold PathOperation.ofItem itemWithoutNameless
  rw [List.filterMap_filter, List.filter_filterMap]
  congr 1
  funext ⟨key, content⟩
  cases key with
  | str method =>
    by_cases hmethod : isHttpMethod method = true
    · cases hname : isNameless content <;>
        simp [isNamelessMember, hmethod, hname, Option.filter]
    · simp [isNamelessMember, hmethod]
  | _ => rfl

/-- The shared parameters stay. -/
theorem listField_itemWithoutNameless (item : Members) :
    listField (itemWithoutNameless item) "parameters" = listField item "parameters" := by
  have hkeep : ∀ v, (!isNamelessMember (.str "parameters", v)) = true := by
    intro v
    have hkey : isHttpMethod "parameters" = false := by decide
    simp [isNamelessMember, hkey]
  unfold listField Members.getD itemWithoutNameless
  rw [Members.get?_filter hkeep]

/-- A document without its nameless operations has the other ones. -/
theorem alike_withoutNameless (paths : Members) :
    List.Forall₂ PathOperation.Alike
      ((PathOperation.all paths).filter fun op => !isNameless op.content)
      (PathOperation.all (withoutNameless paths)) := by
  induction paths with
  | nil => exact .nil
  | cons m rest ih =>
    obtain ⟨path, item⟩ := m
    cases item with
    | map members =>
      rw [PathOperation.all_cons_map, List.filter_append, ← ofItem_itemWithoutNameless]
      exact List.rel_append (PathOperation.alike_ofItem path
        (listField_itemWithoutNameless members).symm _) ih
    | _ => exact ih

/-! ## Runs -/

/-- A run over a document, and one without its nameless operations: what comes of these, and what
the second run leaves of the table. -/
structure NamelessRun (collect : Bool) (defs paths : Members) (failures : List Failure)
    (entries : List Entry) (t t' : Table) : Prop where
  enters : Table.Enters collect defs ⟨[], failures⟩ (PathOperation.all paths) entries t
  nameless : ∀ op entry, (op, entry) ∈ (PathOperation.all paths).zip entries →
    isNameless op.content = true → NamelessEntry collect op entry
  without : (Table.ofPaths collect defs (withoutNameless paths) failures).value = (t', none)
  endpoints : t'.endpoints = t.endpoints
  reports : t'.failures.Sublist t.failures
  same_iff : t' = t ↔ (collect = true → ∀ op ∈ PathOperation.all paths,
    isNameless op.content = true → SharesList op.item)

/-- No nameless operation is reported just when reports are not collected or the path items of all
nameless operations can be read. -/
theorem forall_failure?_eq_none_iff {ops : List PathOperation} {entries : List Entry}
    (hlength : entries.length = ops.length)
    (hnameless : ∀ op entry, (op, entry) ∈ ops.zip entries → isNameless op.content = true →
      NamelessEntry collect op entry) :
    (∀ op entry, (op, entry) ∈ ops.zip entries → isNameless op.content = true →
        entry.failure? = none) ↔
      (collect = true → ∀ op ∈ ops, isNameless op.content = true → SharesList op.item) := by
  constructor
  · intro h hcollect op hop hname
    rw [← List.map_fst_zip (Nat.le_of_eq hlength.symm)] at hop
    obtain ⟨⟨_, entry⟩, hmem, rfl⟩ := List.mem_map.1 hop
    exact (hnameless _ entry hmem hname).failure?_eq_none_iff.1 (h _ entry hmem hname) hcollect
  · intro h op entry hmem hname
    refine (hnameless op entry hmem hname).failure?_eq_none_iff.2 fun hcollect => ?_
    exact h hcollect op (List.of_mem_zip hmem).1 hname

/-- **Operations without an id.** None of them gives an endpoint, and without them a run builds the
same endpoints. It makes the same reports unless reports are collected and a nameless operation
stands in a path item whose shared parameters are no list: that one is reported. -/
theorem ofPaths_withoutNameless {collect : Bool} {defs paths : Members} {failures : List Failure}
    {t : Table} (h : (Table.ofPaths collect defs paths failures).value = (t, none)) :
    ∃ entries t', NamelessRun collect defs paths failures entries t t' := by
  obtain ⟨entries, henters⟩ := Table.value_addAll_eq_none_iff.1 h
  have hlength := henters.length_eq
  have hnameless : ∀ op entry, (op, entry) ∈ (PathOperation.all paths).zip entries →
      isNameless op.content = true → NamelessEntry collect op entry :=
    henters.forall_mem_zip fun _ _ _ hentry hop => Table.namelessEntry_of_contribution hop hentry
  have hleft : ∀ op entry, (op, entry) ∈ (PathOperation.all paths).zip entries →
      (!isNameless op.content) = false → entry.endpoint? = none := fun op entry hmem hop =>
    (hnameless op entry hmem (by simpa using hop)).endpoint?_eq_none
  obtain ⟨u, hu⟩ := henters.filter (fun _ => rfl) hleft
  obtain ⟨t', ht'⟩ := hu.congr (alike_withoutNameless paths) fun _ _ _ _ => rfl
  have hendpoints : t'.endpoints = t.endpoints := by
    rw [ht'.table_eq, henters.table_eq, List.append_right_inj,
      Table.filterMap_keptEntries_eq_iff hlength]
    exact hleft
  refine ⟨entries, t', henters, hnameless, Table.value_addAll_eq_none_iff.2 ⟨_, ht'⟩, hendpoints,
    ?_, ?_⟩
  · rw [ht'.table_eq, henters.table_eq]
    exact ((Table.keptEntries_sublist _ hlength).filterMap _).append_left _
  · have hsame : t' = t ↔ t'.failures = t.failures := by
      refine ⟨congrArg Table.failures, fun hfailures => ?_⟩
      exact congrArg₂ Table.mk hendpoints hfailures
    rw [hsame, ← forall_failure?_eq_none_iff hlength hnameless, ht'.table_eq, henters.table_eq,
      List.append_right_inj, Table.filterMap_keptEntries_eq_iff hlength]
    simp only [Bool.not_eq_false']

/-- A path item with a number in the place of its shared parameters, and one that can be read. Each
of them has an operation without an id and one with an id. -/
def shopPaths : Members :=
  [(.str "/carts", .map [(.str "parameters", .int 5), (.str "get", .map []),
      (.str "post", .map [(.str "operationId", .str "addCart")])]),
    (.str "/items", .map [(.str "Get", .map [(.str "operationId", .str "")]),
      (.str "put", .map [(.str "operationId", .str "putItem")])])]

/-- A run over `shopPaths`. -/
def shopRun : Table × Option Fault := (Table.ofPaths true [] shopPaths []).value

/-- The nameless operation of the first path item is reported, that of the second is not. -/
theorem ofPaths_withoutNameless_shopPaths :
    shopRun.2 = none ∧ shopRun.1.endpoints.map Prod.fst = ["putItem"] ∧
      shopRun.1.failures.map (fun f => (f.path, f.method, f.operationId)) =
        [("/carts", "GET", none), ("/carts", "POST", some "addCart")] ∧
      ∃ entries t', NamelessRun true [] shopPaths [] entries shopRun.1 t' ∧ t' ≠ shopRun.1 := by
  obtain ⟨entries, t', hrun⟩ := ofPaths_withoutNameless (t := shopRun.1)
    (show (Table.ofPaths true [] shopPaths []).value = (shopRun.1, none) from rfl)
  refine ⟨rfl, rfl, rfl, entries, t', hrun, fun hsame => ?_⟩
  have hshares := hrun.same_iff.1 hsame rfl _ List.mem_cons_self rfl
  rcases hshares with hnot | ⟨_, hlist, -⟩
  · cases hnot
  · cases hlist

/-- A document whose one operation has no id. -/
def namelessPaths : Members :=
  [(.str "/x", .map [(.str "parameters", .int 5), (.str "get", .map [])])]

/-- The run reports the operation without an id, and there would be no report without it. -/
theorem ofPaths_reports_nameless :
    isNameless (.map []) = true ∧
      (Table.ofPaths true [] namelessPaths []).value =
        (⟨[], [⟨"/x", "GET", none, "MalformedOperation",
          "'parameters' must be a list at #/parameters"⟩]⟩, none) ∧
      (Table.ofPaths true [] (withoutNameless namelessPaths) []).value = (⟨[], []⟩, none) :=
  ⟨rfl, rfl, rfl⟩

end EndpointAtlas
