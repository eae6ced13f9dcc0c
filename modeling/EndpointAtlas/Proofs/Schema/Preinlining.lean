import EndpointAtlas.Proofs.Schema.SelfContained

/-!
# Components that are inlined beforehand

The components of a document can be inlined before anything that refers to them: each one once, in
any order, some at a time. A result of inlining is the same before and after, so it can take the
place of its component.

1. `Replaces`, `replaced`: components with results of inlining in their places.
2. `unfolds_replaced`, `unfolds_of_replaced`: a node unfolds to the same value with both.
3. `inline_preinlined`: so it does after any number of replacements, one after the other.
-/

namespace EndpointAtlas.Schema

/-- The value of a component: a new one if there is one for its name. -/
def replacement (new : String → Option Value) : Scalar → Value → Value
  | .str name, v => (new name).getD v
  | _, v => v

/-- The components with new values for some names, each in its place. -/
def replaced (new : String → Option Value) (defs : Members) : Members :=
  defs.map fun (k, v) => (k, replacement new k v)

/-- The values for some names are what inlining gives for the components of these names. -/
def Replaces (defs : Members) (new : String → Option Value) : Prop :=
  ∀ name r, new name = some r → ∃ target, defs.get? name = some target ∧ inline defs target = .ok r

/-- Components come of others by replacements, each by what inlining gives at the time. -/
inductive Preinlined (defs : Members) : Members → Prop
  | start : Preinlined defs defs
  | replace {defs' : Members} {new : String → Option Value} (earlier : Preinlined defs defs')
      (replaces : Replaces defs' new) : Preinlined defs (replaced new defs')

variable {defs defs' : Members} {new : String → Option Value} {node r : Value} {name : String}

theorem get?_replaced (new : String → Option Value) (defs : Members) (name : String) :
    (replaced new defs).get? name = (defs.get? name).map fun v => (new name).getD v :=
  Members.get?_map defs (replacement new) name

/-- A node has one unfolding at most. -/
theorem Unfolds.unique {r' : Value} (h : Unfolds defs node r) (h' : Unfolds defs node r') :
    r = r' := by
  have hinline := inline_of_unfolds h
  rw [inline_of_unfolds h'] at hinline
  exact (Except.ok.inj hinline).symm

/-! ## One replacement -/

/-- A replaced component is what it unfolds to; any other is the one it was. -/
theorem Replaces.cases (h : Replaces defs new) {target : Value}
    (hget : (replaced new defs).get? name = some target) :
    defs.get? name = some target ∨
      ∃ old, defs.get? name = some old ∧ Unfolds defs old target := by
  rw [get?_replaced] at hget
  obtain ⟨old, hold, htarget⟩ := Option.map_eq_some_iff.1 hget
  cases hnew : new name with
  | none =>
    rw [hnew, Option.getD_none] at htarget
    exact .inl (htarget ▸ hold)
  | some r =>
    rw [hnew, Option.getD_some] at htarget
    obtain ⟨old', hold', hr⟩ := h name r hnew
    exact .inr ⟨old', hold', htarget ▸ unfolds_of_inline hr⟩

/-- What unfolds still does, to the same value. -/
theorem unfolds_replaced (h : Replaces defs new) (hunfolds : Unfolds defs node r) :
    Unfolds (replaced new defs) node r := by
  induction hunfolds with
  | @reference members ref target r name href hname hget hold ih =>
    cases hnew : new name with
    | none =>
      refine .reference href hname ?_ ih
      rw [get?_replaced, hget, Option.map_some, hnew, Option.getD_none]
    | some s =>
      -- the component is its own unfolding by now
      obtain ⟨target', hget', hs⟩ := h name s hnew
      obtain rfl : target = target' := Option.some.inj (hget.symm.trans hget')
      obtain rfl := hold.unique (unfolds_of_inline hs)
      refine .reference href hname ?_ (hold.self _)
      rw [get?_replaced, hget, Option.map_some, hnew, Option.getD_some]
  | leaf hleaf => exact .leaf hleaf
  | schema hnone hcomplete hlengths _ ih => exact .schema hnone hcomplete hlengths ih

/-- What unfolds now did so before, to the same value. -/
theorem unfolds_of_replaced (h : Replaces defs new)
    (hunfolds : Unfolds (replaced new defs) node r) : Unfolds defs node r := by
  induction hunfolds with
  | @reference members ref target r name href hname hget _ ih =>
    rcases h.cases hget with hsame | ⟨old, hold, htarget⟩
    · exact .reference href hname hsame ih
    · obtain rfl := ih.unique (htarget.self defs)
      exact .reference href hname hold htarget
  | leaf hleaf => exact .leaf hleaf
  | schema hnone hcomplete hlengths _ ih => exact .schema hnone hcomplete hlengths ih

theorem inline_replaced (h : Replaces defs new) (node r : Value) :
    inline (replaced new defs) node = .ok r ↔ inline defs node = .ok r :=
  ⟨fun hr => inline_of_unfolds (unfolds_of_replaced h (unfolds_of_inline hr)),
    fun hr => inline_of_unfolds (unfolds_replaced h (unfolds_of_inline hr))⟩

/-! ## Replacements in any order -/

/-- **Inlining components beforehand changes no result.** Whatever has been replaced so far, and in
whatever order: each component is still the one it was, or what inlining gave for it at first; and
a node is inlined to the same value as at first, or fails as it did at first. -/
theorem inline_preinlined (h : Preinlined defs defs') :
    (∀ node r, inline defs' node = .ok r ↔ inline defs node = .ok r) ∧
      ∀ name, defs'.get? name = defs.get? name ∨ ∃ target r, defs.get? name = some target ∧
        inline defs target = .ok r ∧ defs'.get? name = some r := by
  induction h with
  | start => exact ⟨fun _ _ => Iff.rfl, fun _ => .inl rfl⟩
  | @replace defs' new _ hreplaces ih =>
    obtain ⟨hsame, hcomponents⟩ := ih
    refine ⟨fun node r => (inline_replaced hreplaces node r).trans (hsame node r), fun name => ?_⟩
    rw [get?_replaced]
    cases hnew : new name with
    | none => simpa using hcomponents name
    | some r =>
      obtain ⟨target', hget', hr⟩ := hreplaces name r hnew
      rw [hsame] at hr
      rw [hget', Option.map_some, Option.getD_some]
      -- what was inlined now had been inlined before, or is the component itself
      rcases hcomponents name with hold | ⟨target, s, hget, hs, hget''⟩
      · exact .inr ⟨target', r, hold ▸ hget', hr, rfl⟩
      · obtain rfl : s = target' := Option.some.inj (hget''.symm.trans hget')
        obtain rfl := (unfolds_of_inline hr).unique ((unfolds_of_inline hs).self defs)
        exact .inr ⟨target, r, hget, hs, rfl⟩

/-- Shelves of books, and a list that contains itself. -/
def shelfComponents : Members :=
  [(.str "Shelf", .map [(.str "type", .str "array"), (.str "items", componentReference "Book")]),
    (.str "Book", .map [(.str "type", .str "string")]),
    (.str "Endless", .map [(.str "items", componentReference "Endless")])]

/-- What is left of a shelf. -/
def inlinedShelf : Value :=
  .map [(.str "type", .str "array"), (.str "items", .map [(.str "type", .str "string")])]

/-- The components with the shelf inlined. -/
def shelfComponentsInlined : Members :=
  replaced (fun name => if name = "Shelf" then some inlinedShelf else none) shelfComponents

/-- The shelf can be inlined beforehand, and still the endless list cannot be inlined. -/
theorem inline_preinlined_shelf :
    Preinlined shelfComponents shelfComponentsInlined ∧
      inline shelfComponentsInlined (componentReference "Shelf") = .ok inlinedShelf ∧
      ∀ r, inline shelfComponentsInlined (componentReference "Endless") ≠ .ok r := by
  have hpreinlined : Preinlined shelfComponents shelfComponentsInlined := by
    refine .replace .start fun name r hnew => ?_
    split at hnew
    · next hname =>
      subst hname
      cases hnew
      exact ⟨_, rfl, by cbv⟩
    · cases hnew
  have hsame := (inline_preinlined hpreinlined).1
  refine ⟨hpreinlined, (hsame _ _).2 (by cbv), fun r => ?_⟩
  rw [Ne, hsame]
  have hfails : ∃ e, inline shelfComponents (componentReference "Endless") = .error e :=
    ⟨_, by cbv⟩
  obtain ⟨e, he⟩ := hfails
  simp [he]

end EndpointAtlas.Schema
