import EndpointAtlas.Proofs.Schema.Visits

/-!
# The fuel of a run

Visits take fuel, one unit for each visit that stands inside another, and each visit puts down how
many stand inside each other with it. Both count the same visits: a run ends with some fuel just
when no visit has put down more than that.

1. `Watched.endFrom`: how a computation ends, without its lines.
2. `Limits`: a computation with less fuel ends as one with more does, or has no outcome when too
   many visits stand inside each other.
3. `limits_visit`: visits with less fuel are limited by it. The induction is on the greater fuel.
4. `fuel_needed`: the runs of inlining and of sampling.
-/

namespace EndpointAtlas.Schema

/-! ## Ends -/

namespace Watched

variable {ε α β : Type} (w : Watch)

/-- The outcome of a session and what has been seen of it, if it ends. -/
def endFrom (x : Watched ε α) (w : Watch) : Option (Except ε α × Watch) := (x.runFrom w).value

theorem endFrom_bind (x : Watched ε α) (f : α → Watched ε β) :
    (x >>= f).endFrom w = (x.endFrom w).bind fun p =>
      match p.1 with
      | .ok a => (f a).endFrom p.2
      | .error e => some (.error e, p.2) := by
  unfold endFrom runFrom
  rw [ExceptT.run_bind, StateT.run_bind, OptionT.run_bind, Option.elimM, Noted.value_bind]
  rcases (OptionT.run (StateT.run x.run w)).value with _ | ⟨_ | _, _⟩ <;> rfl

theorem endFrom_tryCatch (x : Watched ε α) (handle : ε → Watched ε α) :
    (tryCatch x handle).endFrom w = (x.endFrom w).bind fun p =>
      match p.1 with
      | .ok a => some (.ok a, p.2)
      | .error e => (handle e).endFrom p.2 := by
  unfold endFrom runFrom
  change (OptionT.run (StateT.run (ExceptT.tryCatch x handle).run w)).value = _
  rw [ExceptT.tryCatch, ExceptT.run_mk, StateT.run_bind, OptionT.run_bind, Option.elimM,
    Noted.value_bind, ExceptT.run]
  rcases (OptionT.run (StateT.run x w)).value with _ | ⟨_ | _, _⟩ <;> rfl

end Watched

/-! ## Computations with a limit -/

section

variable {ε ε' α β : Type} {limit : Nat}

/-- The second computation ends as the first does, unless a visit of the first puts down more than
the limit. Then the second has no outcome. -/
def Limited (limit : Nat) (w : Watch) (first second : Option (Except ε α × Watch)) : Prop :=
  ∀ p, first = some p → ∃ depths, p.2.depths = w.depths ++ depths ∧
    second = if ∀ depth ∈ depths, depth ≤ limit then some p else none

theorem Limited.bind {w : Watch} {first second : Option (Except ε α × Watch)}
    {next next' : Except ε α × Watch → Option (Except ε' β × Watch)}
    (h : Limited limit w first second) (hnext : ∀ p, Limited limit p.2 (next p) (next' p)) :
    Limited limit w (first.bind next) (second.bind next') := by
  intro q hq
  obtain ⟨p, hp, hpq⟩ := Option.bind_eq_some_iff.1 hq
  obtain ⟨depths, hdepths, hsecond⟩ := h p hp
  obtain ⟨more, hmore, hnext'⟩ := hnext p q hpq
  refine ⟨depths ++ more, by rw [hmore, hdepths, List.append_assoc], ?_⟩
  rw [hsecond]
  simp only [List.forall_mem_append]
  by_cases hlimit : ∀ depth ∈ depths, depth ≤ limit
  · rw [if_pos hlimit, Option.bind_some, hnext', if_congr (and_iff_right hlimit) rfl rfl]
  · rw [if_neg hlimit, if_neg fun hboth => hlimit hboth.1, Option.bind_none]

/-- What a computation with less fuel does, beside one with more. -/
def Limits (limit : Nat) (x y : Watched ε α) : Prop :=
  ∀ w, Limited limit w (x.endFrom w) (y.endFrom w)

namespace Limits

/-- A computation without visits takes no fuel. -/
theorem of_still {x : Watched ε α} (h : ∀ w p, x.endFrom w = some p → p.2.depths = w.depths) :
    Limits limit x x := by
  intro w p hp
  exact ⟨[], by rw [h w p hp, List.append_nil], by simpa using hp⟩

theorem of_pure (a : α) : Limits limit (pure a : Watched ε α) (pure a) := by
  apply of_still
  rintro w p ⟨⟩
  rfl

theorem of_throw (e : ε) : Limits limit (throw e : Watched ε α) (throw e) := by
  apply of_still
  rintro w p ⟨⟩
  rfl

theorem of_write (line : Log.Line) :
    Limits limit (MonadLog.write line : Watched ε Unit) (MonadLog.write line) := by
  apply of_still
  rintro w p ⟨⟩
  rfl

theorem of_trail : Limits limit (Watched.trail : Watched ε Trail) Watched.trail := by
  apply of_still
  rintro w p ⟨⟩
  rfl

theorem of_changeTrail (f : Trail → Trail) :
    Limits limit (Watched.changeTrail f : Watched ε Unit) (Watched.changeTrail f) := by
  apply of_still
  rintro w p ⟨⟩
  rfl

theorem bind {x y : Watched ε α} {f g : α → Watched ε β} (hxy : Limits limit x y)
    (hfg : ∀ a, Limits limit (f a) (g a)) : Limits limit (x >>= f) (y >>= g) := by
  intro w
  rw [Watched.endFrom_bind, Watched.endFrom_bind]
  apply (hxy w).bind
  rintro ⟨result, w'⟩
  cases result with
  | ok a => exact hfg a w'
  | error e => exact of_throw e w'

theorem tryCatch {x y : Watched ε α} {handle handle' : ε → Watched ε α} (hxy : Limits limit x y)
    (hhandle : ∀ e, Limits limit (handle e) (handle' e)) :
    Limits limit (tryCatch x handle) (tryCatch y handle') := by
  intro w
  rw [Watched.endFrom_tryCatch, Watched.endFrom_tryCatch]
  apply (hxy w).bind
  rintro ⟨result, w'⟩
  cases result with
  | ok a => exact of_pure a w'
  | error e => exact hhandle e w'

theorem opening (name : String) {x y : Watched ε α} (hxy : Limits limit x y) :
    Limits limit (Watched.opening name x) (Watched.opening name y) := by
  unfold Watched.opening
  rw [map_eq_pure_bind, map_eq_pure_bind]
  apply (of_changeTrail _).bind
  intro _
  apply ((hxy.bind fun a => of_pure _).tryCatch fun e => of_pure _).bind
  intro result
  apply (of_changeTrail _).bind
  intro _
  cases result with
  | ok a => exact of_pure a
  | error e => exact of_throw e

theorem noteVisit {depth : Nat} (h : depth ≤ limit) :
    Limits limit (Watched.noteVisit depth : Watched ε Unit) (Watched.noteVisit depth) := by
  rintro w p ⟨⟩
  have hall : ∀ noted ∈ [depth], noted ≤ limit := List.forall_mem_singleton.2 h
  refine ⟨[depth], rfl, ?_⟩
  rw [if_pos hall]
  rfl

/-- A visit that puts down more than the limit finds no fuel. -/
theorem outOfFuel {depth bound : Nat} {x y : Watched ε α} (hdepth : limit < depth)
    (hxy : Limits bound x y) :
    Limits limit (Watched.noteVisit depth >>= fun _ => x) Watched.outOfFuel := by
  intro w p hp
  rw [Watched.endFrom_bind] at hp
  obtain ⟨depths, hdepths, -⟩ := hxy _ p hp
  refine ⟨depth :: depths, ?_, ?_⟩
  · rw [hdepths]
    exact List.append_assoc w.depths [depth] depths
  · rw [if_neg fun hall => (hall depth List.mem_cons_self).not_gt hdepth]
    rfl

/-! ## Visits -/

theorem lifts : Lifts (m := Watched ε) (n := Watched ε) fun _ => Limits limit where
  pure a := of_pure a
  bind hxy hfg := hxy.bind hfg

theorem liftsSamples :
    LiftsSamples (m := Watched Fault) (n := Watched Fault) fun _ => Limits limit :=
  liftsSamples_of_tryCatch lifts of_throw of_write tryCatch

end Limits

/-- A visit behind its note: `inner` are the visits inside it. -/
def Watched.visitNode (raise : SchemaError → Watched ε α) (visitor : Visitor (Watched ε) α)
    (defs : Members) (inner : Value → Location → Watched ε α) : Value → Location → Watched ε α :=
  visitor inner fun ref here => do
    let trail ← trail
    match openReference defs trail ref here with
    | .error e => raise e
    | .ok (name, target) => opening name (inner target here)

/-- Each visit is put down, with those inside it one deeper. -/
theorem Watched.visit_succ (raise : SchemaError → Watched ε α) (visitor : Visitor (Watched ε) α)
    (defs : Members) (fuel depth : Nat) (node : Value) (loc : Location) :
    visit raise visitor defs (fuel + 1) depth node loc =
      (noteVisit depth >>= fun _ =>
        visitNode raise visitor defs (visit raise visitor defs fuel (depth + 1)) node loc) := rfl

section

variable {raise : SchemaError → Watched ε Value} {visitor : Visitor (Watched ε) Value}
  {defs : Members}

/-- What a visitor makes of a node is limited when what it makes of references is, and its visits to
children. -/
def Respects (visitor : Visitor (Watched ε) Value) : Prop :=
  ∀ limit visit visit' follow follow',
    (∀ ref loc, Limits limit (follow ref loc) (follow' ref loc)) →
    (∀ node loc, Limits limit (visit node loc) (visit' node loc)) →
    ∀ node loc, Limits limit (visitor visit follow node loc) (visitor visit' follow' node loc)

theorem limits_visitNode (hraise : ∀ limit e, Limits limit (raise e) (raise e))
    (hvisitor : Respects visitor) {limit : Nat} {inner inner' : Value → Location → Watched ε Value}
    (hinner : ∀ node loc, Limits limit (inner node loc) (inner' node loc)) (node : Value)
    (loc : Location) :
    Limits limit (Watched.visitNode raise visitor defs inner node loc)
      (Watched.visitNode raise visitor defs inner' node loc) := by
  apply hvisitor _ _ _ _ _ _ hinner
  intro ref here
  apply Limits.of_trail.bind
  intro trail
  cases openReference defs trail ref here with
  | error e => exact hraise limit e
  | ok opened => exact (hinner opened.2 here).opening opened.1

/-- With less fuel, visits are limited by the last one that there is fuel for. -/
theorem limits_visit (hraise : ∀ limit e, Limits limit (raise e) (raise e))
    (hvisitor : Respects visitor) (fuel : Nat) :
    ∀ {less depth limit : Nat}, depth + less = limit + 1 → ∀ node loc,
      Limits limit (Watched.visit raise visitor defs fuel depth node loc)
        (Watched.visit raise visitor defs less depth node loc) := by
  induction fuel with
  | zero =>
    intro less depth limit _ node loc w p hp
    cases hp
  | succ fuel ih =>
    intro less depth limit hlimit node loc
    rw [Watched.visit_succ]
    have hinner : ∀ less limit, depth + 1 + less = limit + 1 → Limits limit
        (Watched.visitNode raise visitor defs
          (Watched.visit raise visitor defs fuel (depth + 1)) node loc)
        (Watched.visitNode raise visitor defs
          (Watched.visit raise visitor defs less (depth + 1)) node loc) :=
      fun less limit h => limits_visitNode hraise hvisitor (ih h) node loc
    cases less with
    | zero =>
      -- the visit is one too many; those inside it are compared with themselves
      have hdepth : limit < depth := by omega
      exact Limits.outOfFuel hdepth (hinner fuel (depth + fuel) (by omega))
    | succ less =>
      have hdepth : depth ≤ limit := by omega
      rw [Watched.visit_succ]
      apply (Limits.noteVisit hdepth).bind
      intro _
      exact hinner less limit (by omega)

end

/-! ## Runs -/

theorem respects_expandNode :
    Respects (expandNode throw : Visitor (Watched SchemaError) Value) := by
  intro limit visit visit' follow follow' hfollow hvisit node
  exact Limits.lifts.expandNode Limits.of_throw hfollow fun _ child _ => hvisit child

theorem respects_sampleNode : Respects (sampleNode : Visitor (Watched Fault) Value) := by
  intro limit visit visit' follow follow' hfollow hvisit node
  exact Limits.liftsSamples.sampleNode hfollow fun _ child _ => hvisit child

theorem value_start {x y : Watched ε α} {limit : Nat} {result : Except ε α} {w : Watch}
    (hxy : Limits limit x y) (h : x.start.value = some (result, w)) :
    y.start.value = if ∀ depth ∈ w.depths, depth ≤ limit then some (result, w) else none := by
  obtain ⟨depths, hdepths, hend⟩ := hxy _ _ h
  rw [show w.depths = depths from hdepths]
  exact hend

/-- **The fuel of a run is what it puts down.** For a node there are depths that its visits put down,
and these decide every run: it ends when it has fuel for all of them, with the outcome that inlining
or sampling has, and it has no outcome when one of them is greater than its fuel. -/
theorem fuel_needed (defs : Members) (node : Value) :
    (∃ w : Watch, w.InOrder defs (visitBound defs node) [] ∧ ∀ fuel,
        (watchInline fuel defs node).value =
          if ∀ depth ∈ w.depths, depth ≤ fuel then some (inline defs node, w) else none) ∧
      ∃ w : Watch, w.InOrder defs (visitBound defs node) [] ∧ ∀ fuel,
        (watchSample fuel defs node).value =
          if ∀ depth ∈ w.depths, depth ≤ fuel then some ((sample defs node).outcome, w)
          else none := by
  have hstart := Watch.inOrder_start defs (visitBound defs node)
  constructor
  · obtain ⟨w, hw, hrun⟩ := tracks_inline (Nat.le_refl _) _ hstart
    refine ⟨w, hw, fun fuel => value_start ?_ (congrArg Noted.value hrun)⟩
    exact limits_visit (fun _ e => Limits.of_throw e) respects_expandNode _ (Nat.add_comm 1 fuel)
      _ _
  · obtain ⟨w, hw, hrun⟩ := tracks_sample (Nat.le_refl _) _ hstart
    refine ⟨w, hw, fun fuel => value_start ?_ (congrArg Noted.value hrun)⟩
    exact limits_visit (fun _ e => Limits.of_throw (Fault.schema e)) respects_sampleNode _
      (Nat.add_comm 1 fuel) _ _

/-- Inlining a text or a list, five visits stand inside each other at most; the bound is ten. -/
example : (watchInline 5 listComponents textOrList).value.isSome ∧
    (watchInline 4 listComponents textOrList).value.isNone := by decide +kernel

end

end EndpointAtlas.Schema
