import EndpointAtlas.Proofs.Yaml.Oversized
import EndpointAtlas.Yaml.Node.Reading

/-!
# Faults of building

The builder of nodes finds a text malformed, or it comes to the end of the tokens and passes on the
error that is there (`Relays`). So a fault with a scalar that ends the building is one of the text
(`oversized_of_ofTokens`).
-/

namespace EndpointAtlas.Yaml.Node

variable {α β : Type}

/-- A step of the builder leaves the error behind the tokens where it is, and fails with no other
but that the text is malformed. -/
structure Relays (x : Build α) : Prop where
  error_eq : ∀ i a i', x.run i = .ok (a, i') → i'.error = i.error
  passedOn : ∀ i e, x.run i = .error e → e = .malformed ∨ i.error = some e

/-! ## Steps -/

section

variable {x y : Build α} {f : α → Build β}

theorem relays_pure (a : α) : Relays (pure a : Build α) where
  error_eq i b i' h := by cases h; rfl
  passedOn i e h := by cases h

theorem relays_malformed : Relays (malformed : Build α) where
  error_eq i b i' h := by cases h
  passedOn i e h := by cases h; exact .inl rfl

theorem Relays.bind (hx : Relays x) (hf : ∀ a, Relays (f a)) : Relays (x >>= f) where
  error_eq i b i'' h := by
    rw [StateT.run_bind] at h
    obtain ⟨⟨a, i'⟩, ha, hb⟩ := Outcome.bind_eq_ok_iff.1 h
    rw [(hf a).error_eq _ _ _ hb, hx.error_eq _ _ _ ha]
  passedOn i e h := by
    rw [StateT.run_bind] at h
    rcases Outcome.bind_eq_error_iff.1 h with he | ⟨⟨a, i'⟩, ha, he⟩
    · exact hx.passedOn _ _ he
    · rw [← hx.error_eq _ _ _ ha]
      exact (hf a).passedOn _ _ he

theorem Relays.ite {p : Prop} [Decidable p] (hx : Relays x) (hy : Relays y) :
    Relays (if p then x else y) := by
  split
  · exact hx
  · exact hy

theorem relays_get : Relays (get : Build Input) where
  error_eq i b i' h := by cases h; rfl
  passedOn i e h := by cases h

theorem relays_modify {g : Input → Input} (hg : ∀ i, (g i).error = i.error) :
    Relays (modify g : Build Unit) where
  error_eq i b i' h := by cases h; exact hg i
  passedOn i e h := by cases h

theorem relays_advance : Relays advance := relays_modify fun _ => rfl

theorem peek_run (i : Input) : peek.run i = match i.tokens, i.error with
    | t :: _, _ => .ok (some t, i)
    | [], some e => .error e
    | [], none => .ok (none, i) := by
  obtain ⟨tokens, error, handles, anchors⟩ := i
  cases tokens with
  | cons t rest => rfl
  | nil => cases error <;> rfl

/-- Here the error behind the tokens is passed on. -/
theorem relays_peek : Relays peek where
  error_eq i b i' h := by
    rw [peek_run] at h
    split at h <;> cases h <;> rfl
  passedOn i e h := by
    rw [peek_run] at h
    split at h
    · cases h
    · next herror =>
      cases h
      exact .inr herror
    · cases h

end

/-! ## Properties of a node -/

theorem relays_expandTag (handle : Option (List Char)) (suffix : List Char) :
    Relays (expandTag handle suffix) := by
  unfold expandTag
  split
  · exact relays_pure _
  · refine relays_get.bind fun i => ?_
    split
    · exact relays_pure _
    · exact relays_malformed

theorem relays_anchorProperty : Relays anchorProperty := by
  refine relays_peek.bind fun t => ?_
  split
  · exact relays_advance.bind fun _ => relays_pure _
  · exact relays_pure _

theorem relays_tagProperty : Relays tagProperty := by
  refine relays_peek.bind fun t => ?_
  split
  · exact relays_advance.bind fun _ => relays_pure _
  · exact relays_pure _

theorem relays_properties : Relays properties := by
  refine relays_anchorProperty.bind fun before => relays_tagProperty.bind fun tag => ?_
  extract_lets rest
  have hend (anchor : Option (List Char)) : Relays (rest anchor) := by
    dsimp only [rest]
    split
    · exact (relays_expandTag _ _).bind fun _ => relays_pure _
    · exact relays_pure _
  exact .ite (relays_anchorProperty.bind hend) ((relays_pure _).bind hend)

theorem relays_register (anchor : List Char) (node : Node) : Relays (register anchor node) := by
  have hrun (i : Input) : (register anchor node).run i =
      if (i.anchors.lookup anchor).isSome then .error .malformed
      else .ok ((), { i with anchors := (anchor, node) :: i.anchors }) := by
    change (if (i.anchors.lookup anchor).isSome then (malformed : Build Unit)
      else set { i with anchors := (anchor, node) :: i.anchors }) i = _
    split <;> rfl
  constructor
  · intro i a i' h
    rw [hrun] at h
    split at h <;> cases h
    rfl
  · intro i e h
    rw [hrun] at h
    split at h <;> cases h
    exact .inl rfl

theorem relays_settle (anchor : List Char) (node : Node) : Relays (settle anchor node) :=
  relays_modify fun _ => rfl

theorem relays_finished (p : Properties) (node : Node) : Relays (finished p node) := by
  unfold finished
  split
  · exact (relays_register _ _).bind fun _ => relays_pure _
  · exact relays_pure _

theorem relays_collection (p : Properties) (isList : Bool) {parts : Build Node}
    (h : Relays parts) : Relays (collection p isList parts) := by
  unfold collection
  split
  · exact h
  · refine (relays_register _ _).bind fun _ => h.bind fun _ => ?_
    exact (relays_settle _ _).bind fun _ => relays_pure _

theorem relays_missing (p : Properties) : Relays (missing p) :=
  .ite relays_malformed (relays_finished _ _)

/-! ## Nodes -/

/-- The parts of the builder with room for so many nodes inside each other. -/
structure RelaysAt (room : Nat) : Prop where
  build : ∀ place, Relays (build room place)
  blockItems : Relays (blockItems room)
  dashes : Relays (dashes room)
  blockPart : Relays (blockPart room)
  blockPairs : Relays (blockPairs room)
  flowKey : ∀ last, Relays (flowKey room last)
  flowValue : ∀ last, Relays (flowValue room last)
  flowItems : ∀ first, Relays (flowItems room first)
  flowPairs : ∀ first, Relays (flowPairs room first)

theorem relaysAt_zero : RelaysAt 0 where
  build _ := relays_malformed
  blockItems := relays_malformed
  dashes := relays_malformed
  blockPart := relays_malformed
  blockPairs := relays_malformed
  flowKey _ := relays_malformed
  flowValue _ := relays_malformed
  flowItems _ := relays_malformed
  flowPairs _ := relays_malformed

variable {room : Nat}

theorem RelaysAt.build_succ (h : RelaysAt room) (place : Place) :
    Relays (Node.build (room + 1) place) := by
  rw [Node.build]
  refine relays_peek.bind fun t => ?_
  split
  · refine relays_advance.bind fun _ => relays_get.bind fun i => ?_
    split
    · exact relays_pure _
    · exact relays_malformed
  · refine relays_properties.bind fun p => relays_peek.bind fun t => ?_
    split
    · refine .ite (relays_collection p true ?_) (relays_missing p)
      exact h.dashes.bind fun _ => relays_pure _
    · exact relays_advance.bind fun _ => relays_finished p _
    · exact relays_collection p true
        (relays_advance.bind fun _ => (h.flowItems true).bind fun _ => relays_pure _)
    · exact relays_collection p false
        (relays_advance.bind fun _ => (h.flowPairs true).bind fun _ => relays_pure _)
    · exact .ite (relays_missing p) (relays_collection p true
        (relays_advance.bind fun _ => h.blockItems.bind fun _ => relays_pure _))
    · exact .ite (relays_missing p) (relays_collection p false
        (relays_advance.bind fun _ => h.blockPairs.bind fun _ => relays_pure _))
    · exact relays_missing p

theorem RelaysAt.blockItems_succ (h : RelaysAt room) : Relays (Node.blockItems (room + 1)) := by
  rw [Node.blockItems]
  refine relays_peek.bind fun t => ?_
  split
  · exact relays_advance.bind fun _ => relays_pure _
  · refine relays_advance.bind fun _ => relays_peek.bind fun t => ?_
    have hrest (item : Node) : Relays (do return item :: (← Node.blockItems room)) :=
      h.blockItems.bind fun _ => relays_pure _
    split
    · exact (relays_pure _).bind hrest
    · exact (relays_pure _).bind hrest
    · exact (h.build .block).bind hrest
  · exact relays_malformed

theorem RelaysAt.dashes_succ (h : RelaysAt room) : Relays (Node.dashes (room + 1)) := by
  rw [Node.dashes]
  refine relays_peek.bind fun t => ?_
  split
  · refine relays_advance.bind fun _ => relays_peek.bind fun t => ?_
    have hrest (item : Node) : Relays (do return item :: (← Node.dashes room)) :=
      h.dashes.bind fun _ => relays_pure _
    split
    · exact (relays_pure _).bind hrest
    · exact (relays_pure _).bind hrest
    · exact (relays_pure _).bind hrest
    · exact (relays_pure _).bind hrest
    · exact (h.build .block).bind hrest
  · exact relays_pure _

theorem RelaysAt.blockPart_succ (h : RelaysAt room) : Relays (Node.blockPart (room + 1)) := by
  rw [Node.blockPart]
  refine relays_peek.bind fun t => ?_
  split
  · exact relays_pure _
  · exact relays_pure _
  · exact relays_pure _
  · exact h.build .blockOrDashes

theorem RelaysAt.blockPairs_succ (h : RelaysAt room) : Relays (Node.blockPairs (room + 1)) := by
  rw [Node.blockPairs]
  refine relays_peek.bind fun t => ?_
  split
  · exact relays_advance.bind fun _ => relays_pure _
  · refine relays_advance.bind fun _ => h.blockPart.bind fun key => relays_peek.bind fun t => ?_
    have hrest (value : Node) : Relays (do return (key, value) :: (← Node.blockPairs room)) :=
      h.blockPairs.bind fun _ => relays_pure _
    split
    · exact relays_advance.bind fun _ => h.blockPart.bind hrest
    · exact (relays_pure _).bind hrest
  · exact relays_malformed

theorem RelaysAt.flowKey_succ (h : RelaysAt room) (last : Token) :
    Relays (Node.flowKey (room + 1) last) := by
  rw [Node.flowKey]
  exact relays_peek.bind fun t => .ite (relays_pure _) (h.build .flow)

theorem RelaysAt.flowValue_succ (h : RelaysAt room) (last : Token) :
    Relays (Node.flowValue (room + 1) last) := by
  rw [Node.flowValue]
  refine relays_peek.bind fun t => ?_
  split
  · refine relays_advance.bind fun _ => relays_peek.bind fun t => ?_
    exact .ite (relays_pure _) (h.build .flow)
  · exact relays_pure _

theorem RelaysAt.flowItems_succ (h : RelaysAt room) (first : Bool) :
    Relays (Node.flowItems (room + 1) first) := by
  rw [Node.flowItems]
  refine relays_peek.bind fun t => .ite (relays_advance.bind fun _ => relays_pure _) ?_
  extract_lets behindComma
  have hbehind (r : Unit) : Relays (behindComma r) := by
    refine relays_peek.bind fun t => ?_
    split
    · exact relays_advance.bind fun _ => relays_pure _
    · refine relays_advance.bind fun _ => (h.flowKey _).bind fun key => ?_
      exact (h.flowValue _).bind fun value => (h.flowItems false).bind fun _ => relays_pure _
    · exact (h.build .flow).bind fun item => (h.flowItems false).bind fun _ => relays_pure _
  refine .ite (relays_peek.bind fun t => ?_) (hbehind ())
  exact .ite (relays_advance.bind hbehind) (relays_malformed.bind hbehind)

theorem RelaysAt.flowPairs_succ (h : RelaysAt room) (first : Bool) :
    Relays (Node.flowPairs (room + 1) first) := by
  rw [Node.flowPairs]
  refine relays_peek.bind fun t => .ite (relays_advance.bind fun _ => relays_pure _) ?_
  extract_lets behindComma
  have hbehind (r : Unit) : Relays (behindComma r) := by
    refine relays_peek.bind fun t => ?_
    split
    · exact relays_advance.bind fun _ => relays_pure _
    · refine relays_advance.bind fun _ => (h.flowKey _).bind fun key => ?_
      exact (h.flowValue _).bind fun value => (h.flowPairs false).bind fun _ => relays_pure _
    · exact (h.build .flow).bind fun key => (h.flowPairs false).bind fun _ => relays_pure _
  refine .ite (relays_peek.bind fun t => ?_) (hbehind ())
  exact .ite (relays_advance.bind hbehind) (relays_malformed.bind hbehind)

theorem relaysAt (room : Nat) : RelaysAt room := by
  induction room with
  | zero => exact relaysAt_zero
  | succ room h =>
    exact ⟨h.build_succ, h.blockItems_succ, h.dashes_succ, h.blockPart_succ, h.blockPairs_succ,
      h.flowKey_succ, h.flowValue_succ, h.flowItems_succ, h.flowPairs_succ⟩

/-! ## Documents -/

theorem relays_directives (room : Nat) (versioned : Bool) (handles : Handles) :
    Relays (directives room versioned handles) := by
  induction room generalizing versioned handles with
  | zero => exact relays_malformed
  | succ room ih =>
    rw [directives]
    refine relays_peek.bind fun t => ?_
    split
    · exact relays_advance.bind fun _ => .ite relays_malformed (ih _ _)
    · exact relays_advance.bind fun _ => .ite relays_malformed (ih _ _)
    · exact relays_advance.bind fun _ => ih _ _
    · exact relays_pure _

theorem relays_skipEnds (room : Nat) : Relays (skipEnds room) := by
  induction room with
  | zero => exact relays_malformed
  | succ room ih =>
    rw [skipEnds]
    exact relays_peek.bind fun t => .ite (relays_advance.bind fun _ => ih) (relays_pure _)

theorem relays_finish (room : Nat) : Relays (finish room) := by
  refine (relays_skipEnds room).bind fun _ => relays_peek.bind fun t => ?_
  exact .ite ((relays_directives room false []).bind fun _ => relays_malformed) (relays_pure _)

theorem relays_markedContent (room : Nat) : Relays (markedContent room) := by
  refine relays_peek.bind fun t => ?_
  split
  · exact relays_pure _
  · exact .ite (relays_pure _) ((relaysAt room).build .block)

theorem relays_document (room : Nat) : Relays (document room) := by
  refine relays_peek.bind fun t => ?_
  split
  · exact relays_pure _
  · extract_lets rest
    have hrest (node : Node) : Relays (rest node) :=
      (relays_finish room).bind fun _ => relays_pure _
    refine .ite ?_ (((relaysAt room).build .block).bind hrest)
    refine (relays_directives room false []).bind fun handles => relays_peek.bind fun t => ?_
    refine .ite (relays_advance.bind fun _ => ?_) (relays_malformed.bind hrest)
    refine .bind (relays_modify ?_) fun _ => (relays_markedContent room).bind hrest
    exact fun _ => rfl

/-- **A fault with a scalar that ends the building** is an escape in the text for which there is no
character. -/
theorem oversized_of_ofTokens {text : List Char} {e : ScalarError}
    (h : ofTokens (.ofText text) = .error (.scalar e)) : OversizedEscape text e := by
  have hrun := Outcome.map_eq_error_iff.1 h
  rcases (relays_document _).passedOn _ _ hrun with hmalformed | herror
  · cases hmalformed
  · exact oversized_of_ofText herror

end EndpointAtlas.Yaml.Node
