import EndpointAtlas.Proofs.Endpoint.Contribution
import EndpointAtlas.Proofs.Members

/-!
# Operations do not interfere

A `Site` is a document with a place for one operation. The place can be filled in different ways, or
left empty; what the other operations contribute to the table stays the same.

1. `mem_all_iff_exists_site`: the operations of a document are those that stand at a site of it.
2. `all_fill`: the operations of a document, cut at the site. The ones in front and behind are
   described alike however the place is filled (`alike_inFront`, `alike_behind`).
3. `enters_without`: without the operation at the site, the others contribute what they did.
4. `ofPaths_fill`: two runs over documents that differ at a site have the same entries elsewhere.
-/

namespace EndpointAtlas

namespace PathOperation

theorem ofItem_append (path : Scalar) (item front back : Members) :
    ofItem path item (front ++ back) = ofItem path item front ++ ofItem path item back :=
  List.filterMap_append

theorem all_append (earlier later : Members) :
    all (earlier ++ later) = all earlier ++ all later :=
  List.flatMap_append

theorem all_cons_map (path : Scalar) (item later : Members) :
    all ((path, .map item) :: later) = ofItem path item item ++ all later :=
  List.flatMap_cons

/-- Operations of path items that share the same parameters are described alike. -/
theorem alike_ofItem (path : Scalar) {item item' : Members}
    (h : listField item "parameters" = listField item' "parameters") (members : Members) :
    List.Forall₂ Alike (ofItem path item members) (ofItem path item' members) := by
  refine List.rel_filterMap (R := Eq) ?_ (List.forall₂_refl members)
  rintro ⟨key, content⟩ _ rfl
  cases key with
  | str method =>
    by_cases hmethod : isHttpMethod method = true
    · simp only [if_pos hmethod]
      exact .some ⟨rfl, rfl, rfl, h⟩
    · simp only [if_neg hmethod]
      exact .none
  | _ => exact .none

theorem map_id_eq {ops ops' : List PathOperation} (h : List.Forall₂ Alike ops ops') :
    ops.map id = ops'.map id := by
  have hids : List.Forall₂ (· = ·) (ops.map id) (ops'.map id) :=
    List.rel_map (fun _ _ halike => halike.id) h
  rwa [List.forall₂_eq_eq_eq] at hids

end PathOperation

/-- A document with a place for one operation: the members in front of its path item and behind it,
and in its path item the members in front of the place and behind it. -/
structure Site where
  earlier : Members
  path : Scalar
  front : Members
  method : String
  back : Members
  later : Members
  isMethod : isHttpMethod method = true

namespace Site

/-- The path item with a content in the place, or with nothing there. -/
def item (s : Site) (content : Option Value) : Members :=
  s.front ++ (content.map fun v => (Scalar.str s.method, v)).toList ++ s.back

/-- The document with a content in the place, or with nothing there. -/
def fill (s : Site) (content : Option Value) : Members :=
  s.earlier ++ (s.path, .map (s.item content)) :: s.later

/-- The operation at the site, if there is one. -/
def operation? (s : Site) (content : Option Value) : Option PathOperation :=
  content.map fun v => ⟨s.path, s.item content, s.method, v⟩

/-- The operations in front of the site. -/
def opsInFront (s : Site) (content : Option Value) : List PathOperation :=
  PathOperation.all s.earlier ++ PathOperation.ofItem s.path (s.item content) s.front

/-- The operations behind the site. -/
def opsBehind (s : Site) (content : Option Value) : List PathOperation :=
  PathOperation.ofItem s.path (s.item content) s.back ++ PathOperation.all s.later

/-- The operation at the site has an id of its own: no other operation of the document has it. -/
def Apart (s : Site) (content : Option Value) : Prop :=
  ∀ op ∈ s.operation? content, ∀ other ∈ PathOperation.all (s.fill none), ∀ id,
    op.id = .str id → other.id ≠ .str id

variable (s : Site) {content : Option Value}

/-! ## The operations around a site -/

theorem all_fill (content : Option Value) :
    PathOperation.all (s.fill content) =
      s.opsInFront content ++ (s.operation? content).toList ++ s.opsBehind content := by
  have hplace : PathOperation.ofItem s.path (s.item content)
      (content.map fun v => (Scalar.str s.method, v)).toList = (s.operation? content).toList := by
    cases content with
    | none => rfl
    | some v => exact List.filterMap_cons_some (if_pos s.isMethod)
  have hitem : PathOperation.ofItem s.path (s.item content) (s.item content) =
      PathOperation.ofItem s.path (s.item content) s.front ++ (s.operation? content).toList ++
        PathOperation.ofItem s.path (s.item content) s.back := by
    rw [← hplace, ← PathOperation.ofItem_append, ← PathOperation.ofItem_append]
    rfl
  rw [fill, PathOperation.all_append, PathOperation.all_cons_map, hitem]
  simp only [opsInFront, opsBehind, List.append_assoc]

/-- The operations of a document are those that stand at a site of it. -/
theorem mem_all_iff_exists_site {paths : Members} {op : PathOperation} :
    op ∈ PathOperation.all paths ↔ ∃ s : Site,
      paths = s.fill (some op.content) ∧ s.operation? (some op.content) = some op := by
  constructor
  · intro h
    obtain ⟨hpath, hcontent, hmethod⟩ := PathOperation.mem_all_iff.1 h
    obtain ⟨earlier, later, hpaths⟩ := List.append_of_mem hpath
    obtain ⟨front, back, hmembers⟩ := List.append_of_mem hcontent
    let s : Site := ⟨earlier, op.path, front, op.method, back, later, hmethod⟩
    have hitem : s.item (some op.content) = op.item := by
      rw [hmembers]
      exact List.append_assoc front [_] back
    refine ⟨s, ?_, ?_⟩
    · rw [hpaths, fill, hitem]
    · rw [operation?, hitem]
      rfl
  · rintro ⟨s, rfl, hop⟩
    rw [all_fill, hop]
    simp

/-- The place is not the one that the shared parameters are read from. -/
theorem listField_item (content content' : Option Value) :
    listField (s.item content) "parameters" = listField (s.item content') "parameters" := by
  have hkey : s.method ≠ "parameters" := by
    intro h
    have hmethod := s.isMethod
    rw [h] at hmethod
    exact absurd hmethod (by decide)
  have hplace : ∀ content : Option Value,
      Members.get? (content.map fun v => (Scalar.str s.method, v)).toList "parameters" = none := by
    intro content
    cases content with
    | none => rfl
    | some v => exact if_neg fun heq => hkey (Scalar.str.inj heq)
  unfold listField Members.getD item
  simp only [Members.get?_append, hplace, Option.or_none]

theorem alike_inFront (content content' : Option Value) :
    List.Forall₂ PathOperation.Alike (s.opsInFront content) (s.opsInFront content') :=
  List.rel_append (List.forall₂_same.2 fun op _ => .refl op)
    (PathOperation.alike_ofItem s.path (s.listField_item content content') s.front)

theorem alike_behind (content content' : Option Value) :
    List.Forall₂ PathOperation.Alike (s.opsBehind content) (s.opsBehind content') :=
  List.rel_append (PathOperation.alike_ofItem s.path (s.listField_item content content') s.back)
    (List.forall₂_same.2 fun op _ => .refl op)

/-! ## Runs -/

/-- A run over the document with a content in the place: what the operations in front of the site,
at the site and behind it contribute, and the table that comes of it. -/
structure Run (collect : Bool) (defs : Members) (failures : List Failure)
    (content : Option Value) (before atSite after : List Entry) (t : Table) : Prop where
  enters : Table.Enters collect defs ⟨[], failures⟩ (PathOperation.all (s.fill content))
    (before ++ atSite ++ after) t
  inFront : before.length = (s.opsInFront content).length
  behind : after.length = (s.opsBehind content).length
  endpoints : t.endpoints = (before ++ atSite ++ after).filterMap Entry.endpoint?
  reports : t.failures = failures ++ (before ++ atSite ++ after).filterMap Entry.failure?

variable {s} {collect : Bool} {defs : Members} {t t' : Table} {entries : List Entry}
  {failures : List Failure}

/-- Without the operation at the site the others contribute what they did. -/
theorem enters_without (hapart : s.Apart content)
    (h : Table.Enters collect defs t (PathOperation.all (s.fill content)) entries t') :
    ∃ before atSite after u, entries = before ++ atSite ++ after ∧
      before.length = (s.opsInFront content).length ∧
      after.length = (s.opsBehind content).length ∧
      Table.Enters collect defs t (PathOperation.all (s.fill none)) (before ++ after) u := by
  rw [all_fill] at h
  obtain ⟨_, after, t₂, rfl, hfirst, hbehind⟩ := Table.Enters.append_iff.1 h
  obtain ⟨before, atSite, t₁, rfl, hinFront, hsite⟩ := Table.Enters.append_iff.1 hfirst
  -- in front: the same entries, so the same table
  obtain ⟨u₁, hu₁⟩ := hinFront.congr (s.alike_inFront content none) fun _ _ _ _ => rfl
  have htable : u₁ = t₁ := hu₁.table_eq.trans hinFront.table_eq.symm
  rw [htable] at hu₁
  -- at the site: the answers for the ids of other operations are the same before and after
  have hlookup : ∀ op ∈ s.opsBehind content, ∀ id, op.id = .str id →
      t₂.endpoints.lookup id = t₁.endpoints.lookup id := by
    intro op hop id hid
    refine hsite.lookup_eq fun own hown hownId => ?_
    have hmem : op.id ∈ (s.opsBehind none).map PathOperation.id := by
      rw [← PathOperation.map_id_eq (s.alike_behind content none)]
      exact List.mem_map_of_mem hop
    obtain ⟨other, hother, heq⟩ := List.mem_map.1 hmem
    have hall : other ∈ PathOperation.all (s.fill none) := by
      rw [all_fill]
      exact List.mem_append_right _ hother
    exact hapart own (Option.mem_toList.1 hown) other hall id hownId (heq.trans hid)
  obtain ⟨u₂, hu₂⟩ := hbehind.congr (s.alike_behind content none) hlookup
  refine ⟨before, atSite, after, u₂, rfl, hinFront.length_eq, hbehind.length_eq, ?_⟩
  rw [all_fill]
  exact Table.Enters.append_iff.2 ⟨before, after, t₁, rfl,
    Table.Enters.append_iff.2 ⟨before, [], t₁, (List.append_nil before).symm, hu₁, .done t₁⟩, hu₂⟩

/-- A run that reaches its end, and what becomes of it without the operation at the site. -/
theorem exists_run (hapart : s.Apart content)
    (h : (Table.ofPaths collect defs (s.fill content) failures).value = (t, none)) :
    ∃ before atSite after u, s.Run collect defs failures content before atSite after t ∧
      Table.Enters collect defs ⟨[], failures⟩ (PathOperation.all (s.fill none))
        (before ++ after) u := by
  obtain ⟨entries, henters⟩ := Table.value_addAll_eq_none_iff.1 h
  obtain ⟨before, atSite, after, u, rfl, hinFront, hbehind, hwithout⟩ :=
    enters_without hapart henters
  have htable := henters.table_eq
  rw [List.nil_append] at htable
  exact ⟨before, atSite, after, u, ⟨henters, hinFront, hbehind, congrArg Table.endpoints htable,
    congrArg Table.failures htable⟩, hwithout⟩

end Site

/-- **Operations do not interfere.** Two documents differ in the operation at one site: one has
another content than the other, or none at all. If the id of that operation is taken by no other
operation and both runs reach their end, then the operations in front of the site and behind it
contribute the same endpoints and reports in both. -/
theorem ofPaths_fill {s : Site} {collect : Bool} {defs : Members} {failures : List Failure}
    {old new : Option Value} {t t' : Table} (hold : s.Apart old) (hnew : s.Apart new)
    (h : (Table.ofPaths collect defs (s.fill old) failures).value = (t, none))
    (h' : (Table.ofPaths collect defs (s.fill new) failures).value = (t', none)) :
    ∃ before after atOld atNew,
      s.Run collect defs failures old before atOld after t ∧
      s.Run collect defs failures new before atNew after t' := by
  obtain ⟨before, atOld, after, u, hrun, hwithout⟩ := Site.exists_run hold h
  obtain ⟨before', atNew, after', u', hrun', hwithout'⟩ := Site.exists_run hnew h'
  have hlength : before.length = before'.length := by
    rw [hrun.inFront, hrun'.inFront, (s.alike_inFront old new).length_eq]
  obtain ⟨rfl, rfl⟩ := List.append_inj (hwithout.unique hwithout').1 hlength
  exact ⟨before, after, atOld, atNew, hrun, hrun'⟩

/-- A document in which an item is replaced by an operation between two others of one id. -/
def itemSite : Site where
  earlier := [(.str "/health", .map [(.str "get", .map [(.str "operationId", .str "health")])])]
  path := .str "/items"
  front := [(.str "get", .map [(.str "operationId", .str "list")])]
  method := "Put"
  back := [(.str "post", .map [(.str "operationId", .str "list")]), (.str "parameters", .list [])]
  later := []
  isMethod := rfl

/-- An operation that replaces an item, with some parameters. -/
def replaceItem (parameters : Value) : Value :=
  .map [(.str "operationId", .str "replace"), (.str "parameters", parameters)]

/-- A run over `itemSite` with an operation in the place. -/
def replaceRun (parameters : Value) : Table × Option Fault :=
  (Table.ofPaths true [] (itemSite.fill (some (replaceItem parameters))) []).value

theorem ofPaths_fill_itemSite :
    (replaceRun .null).2 = none ∧
      (replaceRun .null).1.endpoints.map Prod.fst = ["health", "list", "replace"] ∧
      (replaceRun (.int 1)).2 = none ∧
      (replaceRun (.int 1)).1.endpoints.map Prod.fst = ["health", "list"] ∧
      ∃ before after atOld atNew,
        itemSite.Run true [] [] (some (replaceItem .null)) before atOld after (replaceRun .null).1 ∧
        itemSite.Run true [] [] (some (replaceItem (.int 1))) before atNew after
          (replaceRun (.int 1)).1 := by
  have hothers : ∀ other ∈ PathOperation.all (itemSite.fill none), other.id ≠ .str "replace" := by
    decide
  have hapart : ∀ parameters, itemSite.Apart (some (replaceItem parameters)) := by
    rintro parameters op ⟨⟩ other hother id ⟨⟩
    exact hothers other hother
  exact ⟨rfl, rfl, rfl, rfl, ofPaths_fill (hapart _) (hapart _) rfl rfl⟩

end EndpointAtlas
