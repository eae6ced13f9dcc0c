import EndpointAtlas.Proofs.Schema.Visitor

/-!
# Related walks

A walk knows nothing of the monad it works in but how computations are put together. A relation
between the computations of two monads that respects this is therefore kept by the whole walk, once
it holds of what becomes of references.

1. `Lifts`: the rules for expansions; `Lifts.expandNode` is one visit, `Lifts.expand` the walk.
2. `LiftsSamples`: the rules for samplings, where a branch may be passed over;
   `LiftsSamples.sampleNode` is one visit, `LiftsSamples.sampleWalk` the walk.
-/

namespace EndpointAtlas.Schema

/-- A relation between the computations of two monads that give results of one type. -/
abbrev Between (m n : Type → Type) := ∀ ⦃α : Type⦄, m α → n α → Prop

variable {m n : Type → Type} [Monad m] [Monad n] {R : Between m n}

/-- Results are related to themselves, and computations in steps are related step by step. -/
structure Lifts (R : Between m n) : Prop where
  pure : ∀ {α : Type} (a : α), R (Pure.pure a) (Pure.pure a)
  bind : ∀ {α β : Type} {x : m α} {y : n α} {f : α → m β} {g : α → n β}, R x y →
    (∀ a, R (f a) (g a)) → R (x >>= f) (y >>= g)

namespace Lifts

section

variable [LawfulMonad m] [LawfulMonad n]

theorem map (hR : Lifts R) {α β : Type} {x : m α} {y : n α} (f : α → β) (h : R x y) :
    R (f <$> x) (f <$> y) := by
  rw [map_eq_pure_bind, map_eq_pure_bind]
  exact hR.bind h fun a => hR.pure (f a)

theorem mapM (hR : Lifts R) {α β : Type} {f : α → m β} {g : α → n β} {xs : List α}
    (h : ∀ a ∈ xs, R (f a) (g a)) : R (xs.mapM f) (xs.mapM g) := by
  induction xs with
  | nil => exact hR.pure []
  | cons a rest ih =>
    rw [List.forall_mem_cons] at h
    rw [List.mapM_cons, List.mapM_cons]
    apply hR.bind h.1
    intro b
    apply hR.bind (ih h.2)
    intro bs
    exact hR.pure (b :: bs)

variable {raise : SchemaError → m Value} {raise' : SchemaError → n Value} {follow : Follow m Value}
  {follow' : Follow n Value}

section

variable {visit : Value → Location → m Value} {visit' : Value → Location → n Value}

theorem expandChildren (hR : Lifts R) {slot : Slot} {members : Members} {loc : Location}
    (hvisit : ∀ step child, IsChild (.map members) step child → ∀ here,
      R (visit child here) (visit' child here)) :
    R (Schema.expandChildren visit slot members loc)
      (Schema.expandChildren visit' slot members loc) := by
  unfold Schema.expandChildren
  cases hv : members.get? slot.keyword with
  | none => exact hR.pure none
  | some v =>
    apply hR.map
    apply hR.mapM
    intro child hchild
    exact hvisit child.1 child.2 ⟨members, slot, v, rfl, hv, hchild⟩ _

/-- Visits of a node are related when visits of its children are, and what becomes of references. -/
theorem expandNode (hR : Lifts R) (hraise : ∀ e, R (raise e) (raise' e))
    (hfollow : ∀ ref loc, R (follow ref loc) (follow' ref loc)) {node : Value}
    (hvisit : ∀ step child, IsChild node step child → ∀ here,
      R (visit child here) (visit' child here)) (loc : Location) :
    R (Schema.expandNode raise visit follow node loc)
      (Schema.expandNode raise' visit' follow' node loc) := by
  cases node with
  | map members =>
    simp only [Schema.expandNode]
    cases href : Members.get? members referenceKeyword with
    | some ref => exact hfollow ref loc
    | none =>
      dsimp only
      cases missingStructure? members with
      | some cause => exact hraise _
      | none =>
        apply hR.bind
        · apply hR.mapM
          intro slot _
          exact hR.bind (hR.expandChildren hvisit) fun w => hR.pure (slot, w)
        · intro replaced
          exact hR.pure _
  | _ =>
    simp only [Schema.expandNode]
    exact hR.pure _

end

/-- **Related expansions.** Expansions are related when their errors are, and what they make of
references. -/
theorem expand (hR : Lifts R) (hraise : ∀ e, R (raise e) (raise' e))
    (hfollow : ∀ ref loc, R (follow ref loc) (follow' ref loc)) :
    ∀ node loc,
      R (Schema.expand raise follow node loc) (Schema.expand raise' follow' node loc) := by
  refine IsChild.induction fun node ih loc => ?_
  rw [expand_eq_expandNode, expand_eq_expandNode]
  exact hR.expandNode hraise hfollow ih loc

end

end Lifts

/-! ## Samplings -/

section

variable [MonadExceptOf Fault m] [MonadExceptOf Fault n] [MonadLog m] [MonadLog n]

/-- Faults are related to themselves, and so are lines of the log; branches are related when they
are themselves and what is done behind them. -/
structure LiftsSamples (R : Between m n) : Prop extends Lifts R where
  throw : ∀ fault : Fault, R (throw fault : m Value) (throw fault : n Value)
  write : ∀ line : Log.Line, R (MonadLog.write line) (MonadLog.write line)
  attempt : ∀ {x : m Value} {y : n Value} {next : SchemaError → m Value}
    {next' : SchemaError → n Value}, R x y → (∀ e, R (next e) (next' e)) →
    R (Schema.attempt x next) (Schema.attempt y next')

/-- Branches are related when failures that are caught are. -/
theorem liftsSamples_of_tryCatch (hR : Lifts R)
    (hthrow : ∀ fault : Fault, R (throw fault : m Value) (throw fault : n Value))
    (hwrite : ∀ line : Log.Line, R (MonadLog.write line) (MonadLog.write line))
    (htryCatch : ∀ {x : m Value} {y : n Value} {handle : Fault → m Value}
      {handle' : Fault → n Value}, R x y → (∀ fault, R (handle fault) (handle' fault)) →
      R (tryCatchThe Fault x handle) (tryCatchThe Fault y handle')) : LiftsSamples R where
  toLifts := hR
  throw := hthrow
  write := hwrite
  attempt hxy hnext := by
    refine htryCatch hxy fun fault => ?_
    cases passedOver? fault with
    | some e => exact hnext e
    | none => exact hthrow fault

namespace LiftsSamples

variable {follow : Follow m Value} {follow' : Follow n Value}

section

variable {visit : Value → Location → m Value} {visit' : Value → Location → n Value}

theorem sampleEach (hR : LiftsSamples R) {props : Members}
    (hvisit : ∀ p ∈ props, ∀ here, R (visit p.2 here) (visit' p.2 here)) (loc : Location) :
    R (Schema.sampleEach visit props loc) (Schema.sampleEach visit' props loc) := by
  induction props with
  | nil =>
    unfold Schema.sampleEach
    exact hR.pure []
  | cons p rest ih =>
    obtain ⟨k, v⟩ := p
    rw [List.forall_mem_cons] at hvisit
    unfold Schema.sampleEach
    apply hR.bind (hvisit.1 _)
    intro w
    apply hR.bind (ih hvisit.2)
    intro ws
    exact hR.pure ((k, w) :: ws)

theorem sampleFirst (hR : LiftsSamples R) {c : Composite} {branches : List Value} (index : Nat)
    (hvisit : ∀ v ∈ branches, ∀ here, R (visit v here) (visit' v here)) (loc : Location) :
    R (Schema.sampleFirst visit c index branches loc)
      (Schema.sampleFirst visit' c index branches loc) := by
  induction branches generalizing index with
  | nil =>
    unfold Schema.sampleFirst
    exact hR.throw _
  | cons v rest ih =>
    rw [List.forall_mem_cons] at hvisit
    unfold Schema.sampleFirst
    apply hR.attempt (hvisit.1 _)
    intro e
    apply hR.bind (hR.write _)
    intro _
    exact ih (index + 1) hvisit.2

/-- Visits of a node are related when visits of its children are, and what becomes of references. -/
theorem sampleNode (hR : LiftsSamples R)
    (hfollow : ∀ ref loc, R (follow ref loc) (follow' ref loc)) {node : Value}
    (hvisit : ∀ step child, IsChild node step child → ∀ here,
      R (visit child here) (visit' child here)) (loc : Location) :
    R (Schema.sampleNode visit follow node loc) (Schema.sampleNode visit' follow' node loc) := by
  cases node with
  | map members =>
    simp only [Schema.sampleNode]
    cases href : Members.get? members referenceKeyword with
    | some ref => exact hfollow ref loc
    | none =>
      dsimp only
      cases declaredExample? members with
      | some v => exact hR.pure v
      | none =>
        dsimp only
        cases shape members with
        | composite c =>
          dsimp only
          cases hv : Members.get? members c.keyword with
          | none => exact hR.throw _
          | some v =>
            cases v with
            | list branches =>
              apply hR.sampleFirst
              intro v hmem
              obtain ⟨i, hchild⟩ := IsChild.branch hv hmem
              exact hvisit _ v hchild
            | _ => exact hR.throw _
        | object =>
          dsimp only
          cases hv : Members.get? members Slot.properties.keyword with
          | none => exact hR.throw _
          | some v =>
            cases v with
            | map props =>
              have hprops := hR.sampleEach (fun p hmem => hvisit _ p.2 (.property hv hmem)) loc
              exact hR.bind hprops fun ws => hR.pure _
            | _ => exact hR.throw _
        | array =>
          dsimp only
          cases hv : Members.get? members Slot.items.keyword with
          | none => exact hR.throw _
          | some v =>
            exact hR.bind (hvisit _ v (.items hv) _) fun w => hR.pure _
        | primitive =>
          dsimp only
          cases samplePrimitive members loc with
          | ok v => exact hR.pure v
          | error fault => exact hR.throw fault
  | _ =>
    simp only [Schema.sampleNode]
    exact hR.throw _

end

/-- **Related samplings.** Samplings are related when what they make of references is. -/
theorem sampleWalk (hR : LiftsSamples R)
    (hfollow : ∀ ref loc, R (follow ref loc) (follow' ref loc)) :
    ∀ node loc, R (Schema.sampleWalk follow node loc) (Schema.sampleWalk follow' node loc) := by
  refine IsChild.induction fun node ih loc => ?_
  rw [sampleWalk_eq_sampleNode, sampleWalk_eq_sampleNode]
  exact hR.sampleNode hfollow ih loc

end LiftsSamples

end

end EndpointAtlas.Schema
