import EndpointAtlas.Proofs.Schema.ErrorLocation
import EndpointAtlas.Proofs.Schema.Session

/-!
# Components that are asked for by name

A component is visited by its name through a reference: the name is written behind the component
prefix and read back. That gives the name again unless no reference can hold it.

1. `Addressable`: the names that a reference can hold; `openReference_of_addressable` opens the
   reference, `openReference_of_not_addressable` is refused.
2. `visitNamed_of_addressable`: a visit by name is a visit of the component with the name on the
   trail. `keeps_sampleNamed` says so of sampling in a session.
3. `inlineNamed_eq_ok_iff_inline`: for a result of inlining, the name on the trail makes no
   difference.
4. `visits_by_name`: what becomes of every component that is asked for.
-/

namespace EndpointAtlas.Schema

/-- A reference can hold the name: it is not empty and holds no slash. -/
def Addressable (name : String) : Prop := name ≠ "" ∧ '/' ∉ name.toList

/-- The error of a reference that a name is turned into and that holds no name. -/
def unaddressable (name : String) : SchemaError :=
  ⟨.unsupportedReference (.str (componentPrefix ++ name)), .top⟩

variable {defs : Members} {name : String} {target : Value} {trail : Trail}

/-! ## From the name to the reference and back -/

/-- The reference names what it was made of, if it names anything. -/
theorem names_componentPrefix_iff {other : String} :
    Names (.str (componentPrefix ++ name)) other ↔ other = name ∧ Addressable name := by
  constructor
  · rintro ⟨htext, hempty, hslash⟩
    obtain rfl : name = other := by simpa using htext
    exact ⟨rfl, hempty, hslash⟩
  · rintro ⟨rfl, hempty, hslash⟩
    exact ⟨rfl, hempty, hslash⟩

theorem openReference_of_addressable (h : Addressable name) (hget : defs.get? name = some target)
    (loc : Location) :
    openReference defs [] (.str (componentPrefix ++ name)) loc = .ok (name, target) :=
  openReference_eq_ok_iff.2 ⟨names_componentPrefix_iff.2 ⟨rfl, h⟩, List.not_mem_nil, hget⟩

theorem openReference_of_not_addressable (h : ¬ Addressable name) :
    openReference defs trail (.str (componentPrefix ++ name)) .top =
      .error (unaddressable name) := by
  refine openReference_eq_error_iff.2 (.inl ⟨fun other hother => ?_, rfl⟩)
  exact h (names_componentPrefix_iff.1 hother).2

/-! ## Visits by name -/

section

variable {m : Type → Type} {α : Type} {raise : SchemaError → m α} {walk : Walk m α}

theorem visitNamed_eq (hget : defs.get? name = some target)
    (hwalk : ∀ follow : Follow m α, walk follow (componentReference name) .top =
      follow (.str (componentPrefix ++ name)) .top) :
    visitNamed raise walk defs name =
      followFrom raise walk defs [] (.str (componentPrefix ++ name)) .top := by
  have hvisit : visitNamed raise walk defs name =
      visitFrom raise walk defs [] (componentReference name) .top :=
    if_pos (Members.has_eq_true.2 ⟨target, hget⟩)
  rw [hvisit, visitFrom_eq (TrailOf.empty defs), hwalk]

/-- A visit by name goes on in the component, with the name on the trail. -/
theorem visitNamed_of_addressable (h : Addressable name) (hget : defs.get? name = some target)
    (hwalk : ∀ follow : Follow m α, walk follow (componentReference name) .top =
      follow (.str (componentPrefix ++ name)) .top) :
    visitNamed raise walk defs name = visitFrom raise walk defs [name] target .top := by
  rw [visitNamed_eq hget hwalk, followFrom, openReference_of_addressable h hget]
  rfl

/-- A name that no reference can hold is refused, though there is a component of that name. -/
theorem visitNamed_of_not_addressable (h : ¬ Addressable name)
    (hget : defs.get? name = some target)
    (hwalk : ∀ follow : Follow m α, walk follow (componentReference name) .top =
      follow (.str (componentPrefix ++ name)) .top) :
    visitNamed raise walk defs name = raise (unaddressable name) := by
  rw [visitNamed_eq hget hwalk, followFrom, openReference_of_not_addressable h]

/-- A level as high as there are components does for every trail. -/
theorem visitFrom_eq_visitWithin (h : TrailOf defs trail) : ∀ node loc,
    visitFrom raise walk defs trail node loc =
      visitWithin raise walk defs defs.length trail node loc := by
  refine TrailOf.induction (P := fun trail => ∀ node loc,
    visitFrom raise walk defs trail node loc =
      visitWithin raise walk defs defs.length trail node loc) ?_ h
  intro trail htrail ih node loc
  rw [visitFrom_eq htrail, Session.visitWithin_eq]
  congr 1
  funext ref here
  unfold followFrom
  cases hopen : openReference defs trail ref here with
  | error e => rfl
  | ok opened =>
    obtain ⟨-, hnew, hget⟩ := openReference_eq_ok_iff.1 hopen
    exact ih opened.1 opened.2 hnew hget opened.2 here

end

theorem trailOf_singleton (hget : defs.get? name = some target) : TrailOf defs [name] :=
  (TrailOf.empty defs).push List.not_mem_nil hget

theorem inlineNamed_eq_inlineFrom (h : Addressable name) (hget : defs.get? name = some target) :
    inlineNamed defs name = inlineFrom defs [name] target .top :=
  visitNamed_of_addressable h hget fun _ => expand_reference rfl

theorem sampleNamed_eq_sampleFrom (h : Addressable name) (hget : defs.get? name = some target) :
    sampleNamed defs name = sampleFrom defs [name] target .top :=
  visitNamed_of_addressable h hget fun _ => sampleWalk_reference rfl

/-- Sampling by name is sampling the component in a session with the name alone on its trail. -/
theorem keeps_sampleNamed (h : Addressable name) (hget : defs.get? name = some target) :
    Session.Keeps [name] (Session.sampleAt defs target .top) (sampleNamed defs name) := by
  rw [sampleNamed_eq_sampleFrom h hget, sampleFrom,
    visitFrom_eq_visitWithin (trailOf_singleton hget)]
  exact Session.keeps_sampleAt [name] target .top

/-- With the name on the trail, inlining the component gives what it gives without: a component that
reaches itself has no result in either case. -/
theorem inlineNamed_eq_ok_iff_inline (h : Addressable name) (hget : defs.get? name = some target)
    (r : Value) : inlineNamed defs name = .ok r ↔ inline defs target = .ok r := by
  constructor
  · intro hr
    rw [inlineNamed_eq_inlineFrom h hget] at hr
    exact inline_of_unfolds (unfolds_of_inlineFrom (trailOf_singleton hget) _ _ _ hr)
  · intro hr
    have hunfolds : Unfolds defs (componentReference name) r :=
      .reference rfl (names_componentPrefix_iff.2 ⟨rfl, h⟩) hget (unfolds_of_inline hr)
    exact (if_pos (Members.has_eq_true.2 ⟨target, hget⟩)).trans (inline_of_unfolds hunfolds)

/-! ## Errors of visits by name -/

/-- A reference that leads nowhere is not the one that an existing component was asked for with. -/
theorem Dangling.ne_componentReference {cause : SchemaError.Cause} {node : Value}
    (h : Dangling defs cause node) (hname : Addressable name)
    (hget : defs.get? name = some target) : node ≠ componentReference name := by
  rintro rfl
  have hnames : Names (.str (componentPrefix ++ name)) name := names_componentPrefix_iff.2 ⟨rfl, hname⟩
  cases h with
  | malformed href hunnamed =>
    cases href
    exact hunnamed name hnames
  | unknown href hnames' hmissing =>
    cases href
    obtain rfl := hnames.unique hnames'
    rw [hget] at hmissing
    cases hmissing

/-- An unresolved reference that is reported is another one: it is met below the component, and leads
nowhere. -/
theorem pointsAt_of_unresolved (h : Addressable name) (hget : defs.get? name = some target)
    {e : SchemaError} (hkind : e.kind = .unresolvedReference)
    (hfails : inlineNamed defs name = .error e ∨
      (sampleNamed defs name).outcome = .error (.schema e)) :
    PointsAt InlineStep defs (componentReference name) e fun node =>
      node ≠ componentReference name ∧ Dangling defs e.cause node := by
  have hhas : defs.has name = true := Members.has_eq_true.2 ⟨target, hget⟩
  have hpoints : ∀ trail node here, Way InlineStep defs (componentReference name) trail node here →
      Refused defs trail node here e → PointsAt InlineStep defs (componentReference name) e
        fun node => node ≠ componentReference name ∧ Dangling defs e.cause node := by
    intro trail node here hway hrefused
    obtain ⟨hloc, hdangling⟩ := hrefused.dangling (by simp [hkind])
    exact hway.pointsAt hloc ⟨hdangling.ne_componentReference h hget, hdangling⟩
  rcases hfails with hinline | hsample
  · have hroot : inline defs (componentReference name) = .error e := (if_pos hhas).symm.trans hinline
    obtain ⟨trail, origin, here, hway, hincomplete | hrefused⟩ :=
      exists_way_of_inline_eq_error hroot
    · obtain ⟨members, cause, -, -, hmissing, rfl⟩ := hincomplete
      exact absurd ((kind_missingStructure? hmissing).symm.trans hkind) (by decide)
    · exact hpoints trail origin here hway hrefused
  · have hroot : (sample defs (componentReference name)).outcome = .error (.schema e) :=
      (congrArg Logged.outcome (if_pos hhas)).symm.trans hsample
    obtain ⟨trail, origin, here, hway, hown | ⟨_, he, hrefused⟩⟩ :=
      exists_way_of_sample_eq_error hroot
    · exact absurd (hown.kind.symm.trans hkind) (by decide)
    · cases he
      exact hpoints trail origin here (hway.mono fun _ _ _ => inlineStep_of_triedStep) hrefused

/-! ## Every component -/

/-- **Components by name.** With a name that a reference can hold, a component is inlined to what it
is inlined to by itself, and its sample is the one that it has in a session with the name alone on
the trail; no error says that the name is unresolved. With any other name it is refused for its
name, whatever it is. -/
theorem visits_by_name (hget : defs.get? name = some target) :
    (Addressable name →
      (∀ r, inlineNamed defs name = .ok r ↔ inline defs target = .ok r) ∧
        Session.Keeps [name] (Session.sampleAt defs target .top) (sampleNamed defs name) ∧
        ∀ e, e.kind = .unresolvedReference →
          (inlineNamed defs name = .error e ∨
            (sampleNamed defs name).outcome = .error (.schema e)) →
          PointsAt InlineStep defs (componentReference name) e fun node =>
            node ≠ componentReference name ∧ Dangling defs e.cause node) ∧
      (¬ Addressable name →
        inlineNamed defs name = .error (unaddressable name) ∧
          sampleNamed defs name = throw (.schema (unaddressable name))) := by
  refine ⟨fun h => ⟨inlineNamed_eq_ok_iff_inline h hget, keeps_sampleNamed h hget, fun e => ?_⟩,
    fun h => ⟨?_, ?_⟩⟩
  · exact pointsAt_of_unresolved h hget
  · exact visitNamed_of_not_addressable h hget fun _ => expand_reference rfl
  · exact visitNamed_of_not_addressable h hget fun _ => sampleWalk_reference rfl

/-- A tree is a list of trees or a text. -/
def tree : Value :=
  .map [(.str "oneOf", .list [
    .map [(.str "type", .str "array"), (.str "items", componentReference "Tree")],
    .map [(.str "type", .str "string")]])]

/-- Trees, nuts of an unknown kind, and a component with a slash in its name. -/
def treeComponents : Members :=
  [(.str "Tree", tree), (.str "Nut", .map [(.str "items", componentReference "Kind")]),
    (.str "leaf/green", .map [(.str "type", .str "string")])]

/-- By its name a tree is a text, since a list of trees would open the tree once more; by itself it
is a list. -/
theorem visits_by_name_tree :
    treeComponents.get? "Tree" = some tree ∧ Addressable "Tree" ∧
      (sampleNamed treeComponents "Tree").outcome = .ok (.str "") ∧
      (sample treeComponents tree).outcome = .ok (.list [.str ""]) ∧
      ((Session.sampleAt treeComponents tree .top).runFrom ["Tree"]).value =
        (.ok (.str ""), ["Tree"]) ∧
      (∀ r, inlineNamed treeComponents "Tree" = .ok r ↔ inline treeComponents tree = .ok r) ∧
      PointsAt InlineStep treeComponents (componentReference "Nut")
        ⟨.unknownReference "#/components/schemas/Kind", ⟨"#", ["items"]⟩⟩
        (fun node => node ≠ componentReference "Nut" ∧
          Dangling treeComponents (.unknownReference "#/components/schemas/Kind") node) := by
  have htree : Addressable "Tree" := ⟨by decide, by decide⟩
  have hnut : Addressable "Nut" := ⟨by decide, by decide⟩
  have hsample : (sampleNamed treeComponents "Tree").outcome = .ok (.str "") := by
    decide +kernel
  have htreeIs : treeComponents.get? "Tree" = some tree := rfl
  have hnutIs : treeComponents.get? "Nut" =
      some (.map [(.str "items", componentReference "Kind")]) := rfl
  have hkind : inlineNamed treeComponents "Nut" =
      .error ⟨.unknownReference "#/components/schemas/Kind", ⟨"#", ["items"]⟩⟩ := by cbv
  obtain ⟨hinline, hkeeps, -⟩ := (visits_by_name htreeIs).1 htree
  obtain ⟨-, -, helsewhere⟩ := (visits_by_name hnutIs).1 hnut
  refine ⟨htreeIs, htree, hsample, by decide +kernel, ?_, hinline, helsewhere _ rfl (.inl hkind)⟩
  rw [hkeeps, ← hsample]
  rfl

/-- A component that can be inlined and sampled cannot be asked for by its name: the name holds a
slash. -/
theorem refused_by_name_leaf :
    (∃ leaf, treeComponents.get? "leaf/green" = some leaf ∧
      inline treeComponents leaf = .ok leaf ∧
      ((Session.sampleAt treeComponents leaf .top).runFrom ["leaf/green"]).value =
        (.ok (.str ""), ["leaf/green"])) ∧
      inlineNamed treeComponents "leaf/green" = .error (unaddressable "leaf/green") ∧
      (sampleNamed treeComponents "leaf/green").outcome =
        .error (.schema (unaddressable "leaf/green")) := by
  refine ⟨⟨_, rfl, ?_, ?_⟩, ?_, ?_⟩
  · cbv
  · decide +kernel
  · cbv
  · decide +kernel

end EndpointAtlas.Schema
