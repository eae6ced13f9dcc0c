import EndpointAtlas.Proofs.Members
import EndpointAtlas.Proofs.Outcome
import EndpointAtlas.Schema.Reference
import Mathlib.Data.List.Nodup
import Mathlib.Data.List.Perm.Subperm

/-!
# Trails of open components

A walk keeps the names of the components that it has opened on a trail. The names are distinct and
belong to components (`TrailOf`), so that a trail is never longer than the mapping of definitions.

1. `Names`: what it means that a reference names a component; `componentName?_eq_some` reads it off
   the text.
2. `openReference_eq_ok_iff`, `openReference_eq_error_iff`: which references a walk opens, and why it
   does not open the others.
3. `visitFrom`: a walk on a trail, with a level that is always high enough; `visitFrom_eq` is the
   recursion without levels.
4. `TrailOf.induction`: a trail grows only finitely often.
-/

namespace EndpointAtlas

namespace Schema

/-! ## References -/

/-- The value of a `$ref` names a component: it is the component prefix followed by the name, which
is not empty and holds no slash. -/
structure Names (ref : Value) (name : String) : Prop where
  text : ref = .str (componentPrefix ++ name)
  ne_empty : name ≠ ""
  no_slash : '/' ∉ name.toList

theorem componentName?_eq_some {ref name : String} :
    componentName? ref = some name ↔ Names (.str ref) name := by
  unfold componentName?
  constructor
  · intro h
    split at h
    · next chars hchars =>
      split at h
      · cases h
      · next hname =>
        cases h
        rw [List.isPrefixOf?_eq_some_iff_append_eq] at hchars
        simp only [Bool.or_eq_true, List.isEmpty_iff, List.contains_iff_mem, not_or] at hname
        refine ⟨?_, fun hempty => hname.1 ?_, by simpa using hname.2⟩
        · rw [← String.ofList_toList (s := ref), ← hchars, String.ofList_append,
            String.ofList_toList]
        · simpa using congrArg String.toList hempty
    · cases h
  · rintro ⟨htext, hempty, hslash⟩
    cases htext
    have hchars : componentPrefix.toList.isPrefixOf? (componentPrefix ++ name).toList =
        some name.toList := by
      rw [List.isPrefixOf?_eq_some_iff_append_eq, String.toList_append]
    rw [hchars]
    simp [hempty, hslash]

theorem componentName_eq_ok_iff {ref : Value} {loc : Location} {name : String} :
    componentName ref loc = .ok name ↔ Names ref name := by
  unfold componentName
  constructor
  · intro h
    cases ref with
    | scalar s =>
      cases s with
      | str ref =>
        cases hname : componentName? ref with
        | none => simp [hname] at h
        | some other =>
          simp only [hname, Except.ok.injEq] at h
          exact componentName?_eq_some.1 (h ▸ hname)
      | _ => simp at h
    | _ => simp at h
  · intro h
    obtain rfl := h.text
    simp [componentName?_eq_some.2 h]

theorem Names.unique {ref : Value} {a b : String} (ha : Names ref a) (hb : Names ref b) :
    a = b := by
  have h : componentName ref .top = .ok a := componentName_eq_ok_iff.2 ha
  rw [componentName_eq_ok_iff.2 hb] at h
  cases h
  rfl

theorem resolveNamed_eq_ok_iff {defs : Members} {ref target : Value} {loc : Location}
    {name : String} :
    resolveNamed defs ref loc = .ok (name, target) ↔
      Names ref name ∧ defs.get? name = some target := by
  rw [resolveNamed, Outcome.bind_eq_ok_iff]
  constructor
  · rintro ⟨other, hname, h⟩
    cases hget : defs.get? other with
    | none => simp [hget, throw, throwThe, MonadExceptOf.throw] at h
    | some v =>
      rw [hget] at h
      cases h
      exact ⟨componentName_eq_ok_iff.1 hname, hget⟩
  · rintro ⟨hname, hget⟩
    refine ⟨name, componentName_eq_ok_iff.2 hname, ?_⟩
    rw [hget]
    rfl

/-- A walk opens the references to components that are not on its trail. -/
theorem openReference_eq_ok_iff {defs : Members} {trail : Trail} {ref target : Value}
    {loc : Location} {name : String} :
    openReference defs trail ref loc = .ok (name, target) ↔
      Names ref name ∧ name ∉ trail ∧ defs.get? name = some target := by
  rw [openReference, Outcome.bind_eq_ok_iff]
  constructor
  · rintro ⟨other, hname, h⟩
    split at h
    · cases h
    · next htrail =>
      obtain ⟨hother, hget⟩ := resolveNamed_eq_ok_iff.1 h
      obtain rfl := Names.unique hother (componentName_eq_ok_iff.1 hname)
      exact ⟨hother, htrail, hget⟩
  · rintro ⟨hname, htrail, hget⟩
    refine ⟨name, componentName_eq_ok_iff.2 hname, ?_⟩
    rw [if_neg htrail]
    exact resolveNamed_eq_ok_iff.2 ⟨hname, hget⟩

theorem componentName_eq_error_iff {ref : Value} {loc : Location} {e : SchemaError} :
    componentName ref loc = .error e ↔
      (∀ name, ¬ Names ref name) ∧ e = ⟨.unsupportedReference (.str ref.text), loc⟩ := by
  have hnames : ∀ name, componentName ref loc = .ok name ↔ Names ref name :=
    fun _ => componentName_eq_ok_iff
  unfold componentName at hnames ⊢
  dsimp only at hnames ⊢
  constructor
  · intro h
    split at h
    · cases h
    · next hnone =>
      cases h
      refine ⟨fun name hname => ?_, rfl⟩
      have hok := (hnames name).2 hname
      rw [hnone] at hok
      cases hok
  · rintro ⟨hno, rfl⟩
    split
    · next name hname =>
      refine absurd ((hnames name).1 ?_) (hno name)
      rw [hname]
    · rfl

theorem resolveNamed_of_names {defs : Members} {ref : Value} {name : String}
    (h : Names ref name) (loc : Location) :
    resolveNamed defs ref loc =
      match defs.get? name with
      | some target => .ok (name, target)
      | none => .error ⟨.unknownReference ref.text, loc⟩ := by
  rw [resolveNamed, componentName_eq_ok_iff.2 h]
  change (match defs.get? name with
    | some target => pure (name, target)
    | none => throw (⟨.unknownReference ref.text, loc⟩ : SchemaError)) = _
  cases defs.get? name <;> rfl

/-- **Why a reference is not opened.** It names no component at all, or one that is being opened
already, or one that does not exist. -/
theorem openReference_eq_error_iff {defs : Members} {trail : Trail} {ref : Value}
    {loc : Location} {e : SchemaError} :
    openReference defs trail ref loc = .error e ↔
      ((∀ name, ¬ Names ref name) ∧ e = ⟨.unsupportedReference (.str ref.text), loc⟩) ∨
      (∃ name ∈ trail, Names ref name ∧ e = ⟨.circular (trail ++ [name]), loc⟩) ∨
      ∃ name, name ∉ trail ∧ Names ref name ∧ defs.get? name = none ∧
        e = ⟨.unknownReference ref.text, loc⟩ := by
  rw [openReference, Outcome.bind_eq_error_iff, componentName_eq_error_iff]
  refine or_congr Iff.rfl ⟨?_, ?_⟩
  · rintro ⟨name, hname, h⟩
    have hnames := componentName_eq_ok_iff.1 hname
    by_cases htrail : name ∈ trail
    · rw [if_pos htrail] at h
      cases h
      exact .inl ⟨name, htrail, hnames, rfl⟩
    · rw [if_neg htrail] at h
      change resolveNamed defs ref loc = .error e at h
      rw [resolveNamed_of_names hnames] at h
      cases hget : defs.get? name with
      | some target => rw [hget] at h; cases h
      | none =>
        rw [hget] at h
        cases h
        exact .inr ⟨name, htrail, hnames, hget, rfl⟩
  · rintro (⟨name, htrail, hnames, rfl⟩ | ⟨name, htrail, hnames, hget, rfl⟩)
    · refine ⟨name, componentName_eq_ok_iff.2 hnames, ?_⟩
      rw [if_pos htrail]
      rfl
    · refine ⟨name, componentName_eq_ok_iff.2 hnames, ?_⟩
      rw [if_neg htrail]
      change resolveNamed defs ref loc = _
      rw [resolveNamed_of_names hnames, hget]

/-! ## Trails -/

/-- The names on a trail are distinct, and each belongs to a component. -/
structure TrailOf (defs : Members) (trail : Trail) : Prop where
  nodup : trail.Nodup
  known : ∀ name ∈ trail, defs.has name

namespace TrailOf

variable {defs : Members} {trail : Trail} {name : String} {target : Value}

theorem empty (defs : Members) : TrailOf defs [] := ⟨List.nodup_nil, by simp⟩

theorem push (h : TrailOf defs trail) (hname : name ∉ trail) (hget : defs.get? name = some target) :
    TrailOf defs (trail ++ [name]) where
  nodup := List.nodup_append.2 ⟨h.nodup, List.nodup_singleton name, by
    rintro a ha b hb rfl
    exact hname (List.mem_singleton.1 hb ▸ ha)⟩
  known := by
    intro other hother
    rcases List.mem_append.1 hother with hold | hnew
    · exact h.known other hold
    · rw [List.mem_singleton.1 hnew, Members.has, hget]
      rfl

/-- There are no more names on a trail than components. -/
theorem length_le (h : TrailOf defs trail) : trail.length ≤ defs.length := by
  have hsub : trail.map Scalar.str ⊆ defs.map Prod.fst := by
    intro k hk
    obtain ⟨name, hmem, rfl⟩ := List.mem_map.1 hk
    obtain ⟨v, hv⟩ := Members.has_eq_true.1 (h.known name hmem)
    exact List.mem_map.2 ⟨_, Members.mem_of_get? hv, rfl⟩
  have hnodup : (trail.map Scalar.str).Nodup := by
    refine List.Nodup.map (fun a b hab => ?_) h.nodup
    cases hab
    rfl
  simpa using (hnodup.subperm hsub).length_le

theorem length_lt (h : TrailOf defs trail) (hname : name ∉ trail)
    (hget : defs.get? name = some target) : trail.length < defs.length := by
  have := (h.push hname hget).length_le
  rw [List.length_append, List.length_singleton] at this
  omega

/-- **Induction on trails.** What passes to a trail from all trails with one name more holds of all
trails. -/
theorem induction {P : Trail → Prop}
    (step : ∀ trail, TrailOf defs trail →
      (∀ name target, name ∉ trail → defs.get? name = some target → P (trail ++ [name])) → P trail)
    {trail : Trail} (h : TrailOf defs trail) : P trail :=
  step trail h fun name _ hname hget =>
    have := h.length_lt hname hget
    induction step (h.push hname hget)
termination_by defs.length - trail.length
decreasing_by simp; omega

end TrailOf

/-! ## Walks on a trail -/

variable {m : Type → Type} {α : Type}

/-- A walk that opens references, on a trail. -/
def visitFrom (raise : SchemaError → m α) (walk : Walk m α) (defs : Members) (trail : Trail)
    (node : Value) (loc : Location) : m α :=
  visitWithin raise walk defs (defs.length - trail.length) trail node loc

/-- What a walk on a trail makes of a reference: it goes on in the component, with the name of the
component on the trail. -/
def followFrom (raise : SchemaError → m α) (walk : Walk m α) (defs : Members) (trail : Trail) :
    Follow m α := fun ref loc =>
  match openReference defs trail ref loc with
  | .error e => raise e
  | .ok (name, target) => visitFrom raise walk defs (trail ++ [name]) target loc

/-- The level is never used up: on the last level all components are on the trail. -/
theorem visitFrom_eq {defs : Members} {trail : Trail} (h : TrailOf defs trail)
    (raise : SchemaError → m α) (walk : Walk m α) (node : Value) (loc : Location) :
    visitFrom raise walk defs trail node loc =
      walk (followFrom raise walk defs trail) node loc := by
  unfold visitFrom
  cases hlevel : defs.length - trail.length with
  | zero =>
    rw [visitWithin]
    congr 1
    funext ref here
    unfold followFrom
    cases hopen : openReference defs trail ref here with
    | error e => rfl
    | ok p =>
      obtain ⟨-, hname, hget⟩ := openReference_eq_ok_iff.1 hopen
      have := h.length_lt hname hget
      omega
  | succ level =>
    rw [visitWithin]
    congr 1
    funext ref here
    unfold followFrom
    cases openReference defs trail ref here with
    | error e => rfl
    | ok p =>
      obtain ⟨name, target⟩ := p
      have hlength : defs.length - (trail ++ [name]).length = level := by
        rw [List.length_append, List.length_singleton]
        omega
      change visitWithin raise walk defs level (trail ++ [name]) target here =
        visitWithin raise walk defs (defs.length - (trail ++ [name]).length) (trail ++ [name])
          target here
      rw [hlength]

end Schema

end EndpointAtlas
