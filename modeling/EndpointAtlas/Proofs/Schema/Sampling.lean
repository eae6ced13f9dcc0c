import EndpointAtlas.Proofs.Reached
import EndpointAtlas.Proofs.Schema.Expansion
import EndpointAtlas.Schema.Sample

/-!
# Sampling, node by node

`sampleWalk` goes to one slot of a schema, by a recursion of its own. Here it is one equation for
each kind of node.

1. `sampleSlot_eq`: the sample that a slot determines.
2. `shape_eq_composite` and `shape_rebuilt`: the shape of a schema, also of one with other children.
3. `sampleWalk_rebuilt`: the samples of two schemas agree when those of their children do.
4. `outcome_sampleWalk_eq_error_iff`: when a sample fails, in terms of the schema itself (`Lacks`)
   and of the children that are tried (`Tries`).
5. `cases_of_outcome_sampleWalk_eq_ok`: what a sample is made of.
-/

namespace EndpointAtlas.Schema

section

variable {m : Type → Type} [Monad m] [MonadExceptOf Fault m] [MonadLog m]
variable {follow follow' : Follow m Value} {members : Members} {loc : Location}

/-! ## Nodes and slots -/

theorem sampleWalk_reference {ref : Value} (h : members.get? referenceKeyword = some ref) :
    sampleWalk follow (.map members) loc = follow ref loc := by
  simp only [sampleWalk, h]

theorem sampleWalk_of_not_map {v : Value} (h : ∀ members, v ≠ .map members) :
    sampleWalk follow v loc = failAt (.notASchema v) loc := by
  cases v <;> simp_all [sampleWalk]

theorem sampleSlot_eq (slot : Slot) : sampleSlot follow slot members loc =
    match slot, members.get? slot.keyword with
    | .properties, some (.map props) => do return .map (← sampleProperties follow props loc)
    | .items, some v => do return .list [← sampleWalk follow v (Step.items.from loc)]
    | .items, none => failAt .noItems loc
    | .branches c, some (.list branches) => sampleBranches follow c 0 branches loc
    | .branches c, _ => failAt (.noBranch c) loc
    | _, _ => failAt .noProperties loc := by
  induction members with
  | nil => cases slot <;> simp [sampleSlot]
  | cons m rest ih =>
    obtain ⟨k, v⟩ := m
    by_cases hk : k = .str slot.keyword
    · subst hk
      rw [Members.get?_cons, if_pos rfl]
      rcases slot with _ | _ | _ | c <;> cases v <;> simp [sampleSlot]
    · rw [Members.get?_cons, if_neg hk, ← ih]
      rcases slot with _ | _ | _ | c <;> cases v <;> simp only [sampleSlot, hk, if_false]

end

/-! ## Shapes -/

theorem shape_eq_composite {schema : Members} {c : Composite} (h : shape schema = .composite c) :
    ∃ branches, schema.get? c.keyword = some (.list branches) ∧ branches ≠ [] := by
  unfold shape at h
  split at h
  · next d branches hbranches =>
    cases h
    obtain ⟨d, -, hd⟩ := List.exists_of_findSome?_eq_some hbranches
    obtain ⟨schemas, hschemas, heq⟩ := Option.map_eq_some_iff.1 hd
    cases heq
    exact ⟨_, nonemptyList?_eq_some.1 hschemas⟩
  · split at h
    · cases h
    · split at h <;> cases h

/-- The shape depends on which composite keywords have branches and on the declared type. -/
theorem shape_congr {a b : Members}
    (hbranches : ∀ c, (nonemptyList? (a.get? (Composite.keyword c))).isSome =
      (nonemptyList? (b.get? c.keyword)).isSome)
    (htype : primaryType a = primaryType b) : shape a = shape b := by
  have hfirst : (compositeBranches? a).map Prod.fst = (compositeBranches? b).map Prod.fst := by
    unfold compositeBranches?
    rw [List.map_findSome?, List.map_findSome?]
    congr 1
    funext c
    have := hbranches c
    cases ha : nonemptyList? (a.get? c.keyword) <;> cases hb : nonemptyList? (b.get? c.keyword) <;>
      simp_all
  unfold shape
  rw [htype]
  cases ha : compositeBranches? a <;> cases hb : compositeBranches? b <;> simp_all

/-! ## Schemas with other children -/

section

variable {new : Slot → List Value} {members : Members}

theorem declaredExample?_rebuilt :
    declaredExample? (rebuilt new members) = declaredExample? members := by
  unfold declaredExample?
  rw [get?_rebuilt_of_not_mem new members (by decide),
    get?_rebuilt_of_not_mem new members (by decide)]

theorem primaryType_rebuilt : primaryType (rebuilt new members) = primaryType members := by
  unfold primaryType
  rw [get?_rebuilt_of_not_mem new members (by decide)]

theorem samplePrimitive_rebuilt {loc : Location} :
    samplePrimitive (rebuilt new members) loc = samplePrimitive members loc := by
  unfold samplePrimitive
  rw [primaryType_rebuilt,
    get?_rebuilt_of_not_mem new members (by decide),
    get?_rebuilt_of_not_mem new members (by decide)]

/-- As many branches are branches of the same composite keywords. -/
theorem shape_rebuilt
    (hlengths : ∀ slot v, members.get? (Slot.keyword slot) = some v →
      (slot.children v).length = (new slot).length) :
    shape (rebuilt new members) = shape members := by
  refine shape_congr (fun c => ?_) primaryType_rebuilt
  have hget := get?_rebuilt new members (.branches c)
  rw [Slot.keyword] at hget
  rw [hget]
  cases hv : members.get? c.keyword with
  | none => rfl
  | some v =>
    cases v with
    | list schemas =>
      have hlength := hlengths (.branches c) _ hv
      rw [Slot.children, List.length_mapIdx] at hlength
      rw [Option.map_some, Slot.rebuild?_branches, Option.getD_some]
      cases schemas <;> cases hnew : new (.branches c) <;> simp_all [nonemptyList?]
    | _ => rfl

variable {m : Type → Type} [Monad m] [MonadExceptOf Fault m] [MonadLog m]
variable {follow follow' : Follow m Value}

/-- Two schemas have the same samples under the same locations. -/
def SameSamples (follow follow' : Follow m Value) (child : Step × Value) (w : Value) : Prop :=
  ∀ loc, sampleWalk follow child.2 (child.1.from loc) = sampleWalk follow' w (child.1.from loc)

theorem sampleProperties_congr {props : Members} {ws : List Value}
    (h : List.Forall₂ (SameSamples follow follow') (Slot.children .properties (.map props)) ws)
    (loc : Location) :
    sampleProperties follow props loc =
      sampleProperties follow' (props.zipWith (fun p w => (p.1, w)) ws) loc := by
  unfold Slot.children at h
  induction props generalizing ws with
  | nil => rfl
  | cons p rest ih =>
    obtain ⟨k, v⟩ := p
    obtain ⟨w, ws, hw, hws, rfl⟩ := List.forall₂_cons_left_iff.1 h
    simp only [List.zipWith_cons_cons, sampleProperties, hw loc, ih hws]

theorem sampleBranches_congr {c : Composite} {i : Nat} {branches ws : List Value}
    (h : List.Forall₂ (SameSamples follow follow')
      (branches.mapIdx fun j v => (Step.branch c (i + j), v)) ws) (loc : Location) :
    sampleBranches follow c i branches loc = sampleBranches follow' c i ws loc := by
  induction branches generalizing i ws with
  | nil =>
    obtain rfl := List.forall₂_nil_left_iff.1 h
    rfl
  | cons v rest ih =>
    rw [List.mapIdx_cons, Nat.add_zero] at h
    obtain ⟨w, ws, hw, hws, rfl⟩ := List.forall₂_cons_left_iff.1 h
    have hrest : (rest.mapIdx fun j v => (Step.branch c (i + (j + 1)), v)) =
        rest.mapIdx fun j v => (Step.branch c (i + 1 + j), v) := by
      simp only [Nat.add_assoc, Nat.add_comm 1]
    rw [hrest] at hws
    simp only [sampleBranches, hw loc, ih hws]

/-- A schema with other children has the same sample as before when its children have. -/
theorem sampleWalk_rebuilt (hnone : members.get? referenceKeyword = none)
    (h : ∀ slot v, members.get? (Slot.keyword slot) = some v →
      List.Forall₂ (SameSamples follow follow') (slot.children v) (new slot)) (loc : Location) :
    sampleWalk follow (.map members) loc = sampleWalk follow' (.map (rebuilt new members)) loc := by
  have hshape := shape_rebuilt fun slot v hv => (h slot v hv).length_eq
  have hnone' : (rebuilt new members).get? referenceKeyword = none := by
    rw [get?_rebuilt_reference, hnone]
  simp only [sampleWalk, hnone, hnone', declaredExample?_rebuilt, hshape, samplePrimitive_rebuilt]
  cases declaredExample? members with
  | some v => rfl
  | none =>
    cases hs : shape members with
    | primitive => rfl
    | composite c =>
      obtain ⟨branches, hbranches, -⟩ := shape_eq_composite hs
      have hv : members.get? (Slot.keyword (.branches c)) = some (.list branches) := hbranches
      simp only [sampleSlot_eq, get?_rebuilt, hv, Option.map_some, Slot.rebuild?_branches,
        Option.getD_some]
      refine sampleBranches_congr ?_ loc
      simp only [Nat.zero_add]
      exact h (.branches c) _ hv
    | object =>
      simp only [sampleSlot_eq, get?_rebuilt]
      cases hv : members.get? (Slot.keyword .properties) with
      | none => rfl
      | some v =>
        cases v with
        | map props =>
          simp only [Option.map_some, Slot.rebuild?_properties, Option.getD_some,
            sampleProperties_congr (h .properties _ hv) loc]
        | _ => rfl
    | array =>
      simp only [sampleSlot_eq, get?_rebuilt]
      cases hv : members.get? (Slot.keyword .items) with
      | none => rfl
      | some v =>
        obtain ⟨w, ws, hw, hws, hnew⟩ := List.forall₂_cons_left_iff.1 (h .items v hv)
        obtain rfl := List.forall₂_nil_left_iff.1 hws
        simp only [Option.map_some, hnew, Slot.rebuild?, Option.getD_some, hw loc]

end

/-! ## Outcomes -/

/-- The shape of the schemas that are sampled from a slot. -/
def Slot.shape? : Slot → Option Shape
  | .properties => some .object
  | .items => some .array
  | .branches c => some (.composite c)
  | .additionalProperties => none

section

variable (follow : Follow (Logged Fault) Value)

/-- A node has a sample. -/
def HasSample (node : Value) (loc : Location) : Prop :=
  ∃ w, (sampleWalk follow node loc).outcome = .ok w

/-- A node fails in a way that lets the next branch be tried. -/
def PassedOver (node : Value) (loc : Location) : Prop :=
  ∃ fault, (sampleWalk follow node loc).outcome = .error fault ∧ (passedOver? fault).isSome = true

/-- A child lets the sampling go on with the next one: as a branch it is passed over, else it has a
sample. -/
def Settled (slot : Slot) (loc : Location) (child : Step × Value) : Prop :=
  match slot with
  | .branches _ => PassedOver follow child.2 (child.1.from loc)
  | _ => HasSample follow child.2 (child.1.from loc)

/-- The sampling of a schema comes to a child. -/
def Tries (members : Members) (loc : Location) (child : Step × Value) : Prop :=
  ∃ slot v, slot.shape? = some (shape members) ∧ members.get? slot.keyword = some v ∧
    Reached (Settled follow slot loc) (slot.children v) child

/-- A schema itself lacks what its sample would be made of. -/
def Lacks (members : Members) (loc : Location) (fault : Fault) : Prop :=
  match shape members with
  | .composite c =>
    fault = .schema ⟨.noBranch c, loc⟩ ∧
      ∀ branches, members.get? c.keyword = some (.list branches) →
        ∀ child ∈ Slot.children (.branches c) (.list branches),
          Settled follow (.branches c) loc child
  | .object => fault = .schema ⟨.noProperties, loc⟩ ∧
      ∀ props, members.get? Slot.properties.keyword ≠ some (.map props)
  | .array => fault = .schema ⟨.noItems, loc⟩ ∧ members.get? Slot.items.keyword = none
  | .primitive => samplePrimitive members loc = .error fault

end

section

variable {follow : Follow (Logged Fault) Value} {members : Members} {loc : Location} {fault : Fault}

theorem outcome_failAt {α : Type} (cause : SchemaError.Cause) (loc : Location) :
    (failAt cause loc : Logged Fault α).outcome = .error (.schema ⟨cause, loc⟩) := rfl

theorem Tries.isChild {child : Step × Value} (h : Tries follow members loc child) :
    IsChild (.map members) child.1 child.2 := by
  obtain ⟨slot, v, -, hv, hreached⟩ := h
  exact ⟨members, slot, v, rfl, hv, hreached.mem⟩

/-- The sampling of properties fails with the first one that fails. -/
theorem outcome_sampleProperties_eq_error_iff {props : Members} :
    (sampleProperties follow props loc).outcome = .error fault ↔
      ∃ child, Reached (Settled follow .properties loc) (Slot.children .properties (.map props))
          child ∧
        (sampleWalk follow child.2 (child.1.from loc)).outcome = .error fault := by
  simp only [Slot.children]
  induction props with
  | nil =>
    rw [sampleProperties]
    simp
  | cons p rest ih =>
    obtain ⟨k, v⟩ := p
    rw [List.map_cons, Reached.exists_cons_iff, ← ih, sampleProperties, Logged.outcome_bind,
      Outcome.bind_eq_error_iff]
    simp only [Logged.outcome_bind, Outcome.bind_eq_error_iff, Logged.outcome_pure, reduceCtorEq,
      and_false, exists_false, or_false, exists_and_right]
    rfl

/-- A branch, and what is done behind it if it is passed over. -/
def attempt {k : Type → Type} [MonadExceptOf Fault k] (branch : k Value)
    (next : SchemaError → k Value) : k Value :=
  tryCatchThe Fault branch fun fault =>
    match passedOver? fault with
    | some e => next e
    | none => throw fault

theorem outcome_attempt (branch : Logged Fault Value) (next : SchemaError → Logged Fault Value) :
    (attempt branch next).outcome =
      match branch.outcome with
      | .ok v => .ok v
      | .error fault =>
        match passedOver? fault with
        | some e => (next e).outcome
        | none => .error fault := by
  change Logged.outcome (tryCatch branch _) = _
  rw [Logged.outcome_tryCatch]
  cases branch.outcome with
  | ok v => rfl
  | error fault =>
    change Logged.outcome (match passedOver? fault with
      | some e => next e
      | none => throw fault) = _
    dsimp only
    cases passedOver? fault <;> rfl

/-- A branch that has a sample gives it, a branch that is passed over leaves it to the next, and any
other fault ends the sampling. -/
theorem outcome_sampleBranches_cons (c : Composite) (i : Nat) (v : Value) (rest : List Value)
    (loc : Location) :
    (sampleBranches follow c i (v :: rest) loc).outcome =
      match (sampleWalk follow v ((Step.branch c i).from loc)).outcome with
      | .ok w => .ok w
      | .error fault =>
        if (passedOver? fault).isSome then (sampleBranches follow c (i + 1) rest loc).outcome
        else .error fault := by
  rw [sampleBranches]
  change (attempt (sampleWalk follow v ((Step.branch c i).from loc)) _).outcome = _
  rw [outcome_attempt]
  cases (sampleWalk follow v ((Step.branch c i).from loc)).outcome with
  | ok w => rfl
  | error fault =>
    dsimp only
    cases passedOver? fault with
    | none => rfl
    | some e =>
      dsimp only
      rw [Logged.outcome_bind, Logged.outcome_write]
      rfl

/-- The sampling of branches fails when all of them are passed over, or with the first one that is
not. -/
theorem outcome_sampleBranches_eq_error_iff {c : Composite} {i : Nat} {branches : List Value} :
    (sampleBranches follow c i branches loc).outcome = .error fault ↔
      (fault = .schema ⟨.noBranch c, loc⟩ ∧
        ∀ child ∈ branches.mapIdx fun j v => (Step.branch c (i + j), v),
          Settled follow (.branches c) loc child) ∨
      ∃ child, Reached (Settled follow (.branches c) loc)
          (branches.mapIdx fun j v => (Step.branch c (i + j), v)) child ∧
        (sampleWalk follow child.2 (child.1.from loc)).outcome = .error fault ∧
        passedOver? fault = none := by
  induction branches generalizing i with
  | nil =>
    rw [sampleBranches, outcome_failAt]
    simp [eq_comm]
  | cons v rest ih =>
    have hrest : (rest.mapIdx fun j v => (Step.branch c (i + (j + 1)), v)) =
        rest.mapIdx fun j v => (Step.branch c (i + 1 + j), v) := by
      simp only [Nat.add_assoc, Nat.add_comm 1]
    rw [List.mapIdx_cons, Nat.add_zero, hrest, Reached.exists_cons_iff, List.forall_mem_cons,
      outcome_sampleBranches_cons]
    cases hv : (sampleWalk follow v ((Step.branch c i).from loc)).outcome with
    | ok w =>
      simp [Settled, PassedOver, hv]
    | error other =>
      dsimp only
      -- whether the branch is settled depends on its fault alone
      cases hpassed : passedOver? other with
      | none =>
        have hsettled : ¬ Settled follow (.branches c) loc (Step.branch c i, v) := by
          simp [Settled, PassedOver, hv, hpassed]
        simp only [Option.isSome_none, Bool.false_eq_true, if_false, hsettled, false_and, and_false,
          or_false, false_or, Except.error.injEq]
        constructor
        · rintro rfl
          exact ⟨rfl, hpassed⟩
        · exact And.left
      | some e =>
        have hsettled : Settled follow (.branches c) loc (Step.branch c i, v) :=
          ⟨other, hv, by rw [hpassed]; rfl⟩
        simp only [Option.isSome_some, if_true, ih, hsettled, true_and, Except.error.injEq]
        constructor
        · rintro (hall | htried)
          · exact .inl hall
          · exact .inr (.inr htried)
        · rintro (hall | ⟨rfl, hnone⟩ | htried)
          · exact .inl hall
          · rw [hpassed] at hnone
            cases hnone
          · exact .inr htried

theorem Slot.shape?_unique {a b : Slot} {s : Shape} (ha : a.shape? = some s)
    (hb : b.shape? = some s) : a = b := by
  cases s <;> cases a <;> cases b <;> simp_all [shape?]

/-- A schema is tried at the children in the slot that its shape asks for. -/
theorem tries_iff {slot : Slot} {child : Step × Value} (h : slot.shape? = some (shape members)) :
    Tries follow members loc child ↔ ∃ v, members.get? slot.keyword = some v ∧
      Reached (Settled follow slot loc) (slot.children v) child := by
  constructor
  · rintro ⟨other, v, hother, hv, hreached⟩
    obtain rfl := Slot.shape?_unique hother h
    exact ⟨v, hv, hreached⟩
  · rintro ⟨v, hv, hreached⟩
    exact ⟨slot, v, h, hv, hreached⟩

/-- **Where faults come from.** The sample of a schema fails when the schema itself lacks something,
or with a child that is tried; as a branch, such a child is not passed over. -/
theorem outcome_sampleWalk_eq_error_iff (hnone : members.get? referenceKeyword = none)
    (hdeclared : declaredExample? members = none) :
    (sampleWalk follow (.map members) loc).outcome = .error fault ↔
      Lacks follow members loc fault ∨
      ∃ child, Tries follow members loc child ∧
        (sampleWalk follow child.2 (child.1.from loc)).outcome = .error fault ∧
        ((∃ c, shape members = .composite c) → passedOver? fault = none) := by
  simp only [sampleWalk, hnone, hdeclared, Lacks]
  cases hs : shape members with
  | primitive =>
    -- no slot is asked for
    have htries : ∀ child, ¬ Tries follow members loc child := by
      rintro child ⟨slot, v, hslot, -, -⟩
      rw [hs] at hslot
      cases slot <;> cases hslot
    simp only [htries, false_and, exists_false, or_false]
    cases samplePrimitive members loc <;> simp
  | composite c =>
    obtain ⟨branches, hv, -⟩ := shape_eq_composite hs
    have hslot : Slot.shape? (.branches c) = some (shape members) := by rw [hs]; rfl
    simp only [sampleSlot_eq, Slot.keyword, hv, outcome_sampleBranches_eq_error_iff,
      tries_iff hslot, Option.some.injEq, Value.list.injEq, exists_eq_left', forall_eq',
      Nat.zero_add, Shape.composite.injEq, exists_eq', true_imp_iff]
    rfl
  | object =>
    have hslot : Slot.shape? .properties = some (shape members) := by rw [hs]; rfl
    simp only [sampleSlot_eq, tries_iff hslot, reduceCtorEq, exists_false, false_imp_iff, and_true]
    cases hv : members.get? (Slot.keyword .properties) with
    | none => simp [outcome_failAt, eq_comm]
    | some v =>
      cases v with
      | map props =>
        simp [Outcome.map_eq_error_iff, outcome_sampleProperties_eq_error_iff]
      | _ => simp [outcome_failAt, eq_comm, Slot.children]
  | array =>
    have hslot : Slot.shape? .items = some (shape members) := by rw [hs]; rfl
    simp only [sampleSlot_eq, tries_iff hslot, reduceCtorEq, exists_false, false_imp_iff, and_true]
    cases hv : members.get? (Slot.keyword .items) with
    | none => simp [outcome_failAt, eq_comm]
    | some v => simp [Outcome.map_eq_error_iff, Slot.children, Reached.cons_iff]

/-- The samples of properties are samples of all of them, under the same keys. -/
theorem outcome_sampleProperties_eq_ok_iff {props ws : Members} :
    (sampleProperties follow props loc).outcome = .ok ws ↔
      List.Forall₂ (fun p q => p.1 = q.1 ∧
        (sampleWalk follow p.2 ((Step.property p.1).from loc)).outcome = .ok q.2) props ws := by
  induction props generalizing ws with
  | nil =>
    rw [sampleProperties, List.forall₂_nil_left_iff, Logged.outcome_pure, Except.ok.injEq, eq_comm]
  | cons p rest ih =>
    obtain ⟨k, v⟩ := p
    rw [sampleProperties, Logged.outcome_bind, Outcome.bind_eq_ok_iff, List.forall₂_cons_left_iff]
    constructor
    · rintro ⟨w, hw, h⟩
      rw [Logged.outcome_bind, Outcome.bind_eq_ok_iff] at h
      obtain ⟨others, hothers, h⟩ := h
      cases h
      exact ⟨(k, w), others, ⟨rfl, hw⟩, ih.1 hothers, rfl⟩
    · rintro ⟨⟨k', w⟩, others, ⟨hk, hw⟩, hothers, rfl⟩
      cases hk
      refine ⟨w, hw, ?_⟩
      rw [Logged.outcome_bind, Outcome.bind_eq_ok_iff]
      exact ⟨others, ih.2 hothers, rfl⟩

/-- The sample of a list of branches is the sample of one of them. -/
theorem exists_branch_of_outcome_sampleBranches_eq_ok {c : Composite} {branches : List Value}
    {i : Nat} {v : Value} (h : (sampleBranches follow c i branches loc).outcome = .ok v) :
    ∃ branch ∈ branches, ∃ here, (sampleWalk follow branch here).outcome = .ok v := by
  induction branches generalizing i with
  | nil =>
    rw [sampleBranches, outcome_failAt] at h
    cases h
  | cons branch rest ih =>
    rw [outcome_sampleBranches_cons] at h
    cases hbranch : (sampleWalk follow branch ((Step.branch c i).from loc)).outcome with
    | ok w =>
      rw [hbranch] at h
      cases h
      exact ⟨branch, List.mem_cons_self, _, hbranch⟩
    | error fault =>
      rw [hbranch] at h
      dsimp only at h
      split at h
      · obtain ⟨other, hmem, hother⟩ := ih h
        exact ⟨other, List.mem_cons_of_mem branch hmem, hother⟩
      · cases h

/-- **What samples are made of**: the sample of a branch, samples of all properties, a sample of the
items, or a value of the declared type. -/
theorem cases_of_outcome_sampleWalk_eq_ok {v : Value}
    (hnone : members.get? referenceKeyword = none) (hdeclared : declaredExample? members = none)
    (h : (sampleWalk follow (.map members) loc).outcome = .ok v) :
    match shape members with
    | .composite c => ∃ branches, members.get? c.keyword = some (.list branches) ∧
        ∃ branch ∈ branches, ∃ here, (sampleWalk follow branch here).outcome = .ok v
    | .object => ∃ props ws, members.get? Slot.properties.keyword = some (.map props) ∧
        v = .map ws ∧ List.Forall₂ (fun p q => p.1 = q.1 ∧
          (sampleWalk follow p.2 ((Step.property p.1).from loc)).outcome = .ok q.2) props ws
    | .array => ∃ items w, members.get? Slot.items.keyword = some items ∧ v = .list [w] ∧
        (sampleWalk follow items (Step.items.from loc)).outcome = .ok w
    | .primitive => samplePrimitive members loc = .ok v := by
  simp only [sampleWalk, hnone, hdeclared] at h
  cases hs : shape members with
  | composite c =>
    obtain ⟨branches, hv, -⟩ := shape_eq_composite hs
    simp only [hs, sampleSlot_eq, Slot.keyword, hv] at h
    exact ⟨branches, hv, exists_branch_of_outcome_sampleBranches_eq_ok h⟩
  | object =>
    simp only [hs, sampleSlot_eq] at h
    cases hv : members.get? (Slot.keyword .properties) with
    | none =>
      rw [hv] at h
      cases h
    | some value =>
      rw [hv] at h
      cases value with
      | map props =>
        rw [Logged.outcome_bind, Outcome.bind_eq_ok_iff] at h
        obtain ⟨ws, hws, heq⟩ := h
        cases heq
        exact ⟨props, ws, rfl, rfl, outcome_sampleProperties_eq_ok_iff.1 hws⟩
      | _ => cases h
  | array =>
    simp only [hs, sampleSlot_eq] at h
    cases hv : members.get? (Slot.keyword .items) with
    | none =>
      rw [hv] at h
      cases h
    | some items =>
      rw [hv] at h
      rw [Logged.outcome_bind, Outcome.bind_eq_ok_iff] at h
      obtain ⟨w, hw, heq⟩ := h
      cases heq
      exact ⟨items, w, rfl, rfl, hw⟩
  | primitive =>
    simp only [hs] at h
    cases hprimitive : samplePrimitive members loc with
    | ok w =>
      rw [hprimitive] at h
      cases h
      rfl
    | error fault =>
      rw [hprimitive] at h
      cases h

/-- A fault that sampling itself gives rise to: the lack of an example, or a type that is no key. -/
def IsSampleFault : Fault → Prop
  | .schema e => e.kind = .noExample
  | .mistyped _ => True
  | _ => False

theorem isSampleFault_of_samplePrimitive (h : samplePrimitive members loc = .error fault) :
    IsSampleFault fault := by
  unfold samplePrimitive at h
  split at h
  · cases h
  · dsimp only at h
    generalize (if isNumeric (primaryType members) then members.get? "minimum" else none) =
      minimum at h
    cases minimum with
    | some v => cases h
    | none =>
      dsimp only at h
      split at h
      · split at h <;> cases h
        rfl
      · cases h
        trivial

theorem Lacks.isSampleFault (h : Lacks follow members loc fault) : IsSampleFault fault := by
  unfold Lacks at h
  split at h
  · obtain ⟨rfl, -⟩ := h
    rfl
  · obtain ⟨rfl, -⟩ := h
    rfl
  · obtain ⟨rfl, -⟩ := h
    rfl
  · exact isSampleFault_of_samplePrimitive h

/-- A schema with a declared example does not fail. -/
theorem declaredExample?_of_error (hnone : members.get? referenceKeyword = none)
    (h : (sampleWalk follow (.map members) loc).outcome = .error fault) :
    declaredExample? members = none := by
  cases hdeclared : declaredExample? members with
  | none => rfl
  | some v => simp [sampleWalk, hnone, hdeclared] at h

end

/-- What holds of the faults of sampling itself and of all faults of references holds of every fault
of a sample. -/
theorem fault_of_sampleWalk {follow : Follow (Logged Fault) Value} {P : Fault → Prop}
    (hown : ∀ fault, IsSampleFault fault → P fault)
    (hfollow : ∀ ref loc fault, (follow ref loc).outcome = .error fault → P fault) :
    ∀ node loc fault, (sampleWalk follow node loc).outcome = .error fault → P fault := by
  refine node_induction ?_ ?_ ?_
  · intro v hleaf loc fault h
    rw [sampleWalk_of_not_map hleaf, outcome_failAt] at h
    cases h
    exact hown _ rfl
  · intro members ref href loc fault h
    rw [sampleWalk_reference href] at h
    exact hfollow ref loc fault h
  · intro members hnone ih loc fault h
    have hdeclared := declaredExample?_of_error hnone h
    rcases (outcome_sampleWalk_eq_error_iff hnone hdeclared).1 h with
      hlacks | ⟨child, htries, hchild, -⟩
    · exact hown fault hlacks.isSampleFault
    · exact ih child.1 child.2 htries.isChild _ fault hchild

end EndpointAtlas.Schema
