import EndpointAtlas.Proofs.Schema.Related
import EndpointAtlas.Proofs.Schema.SampleUnfolding

/-!
# More components

A walk looks components up by name and sees nothing else of the definitions. Further components
therefore make a difference only to a walk that has come to a name without a component, and such a
walk has failed: no branch passes over an unknown name.

1. `Extends`: definitions with further components; `openReference_of_extends` for one reference.
2. `Upto`, `LoggedUpto`: two computations are one and the same, unless the first has come to an
   unknown name. Both relations are kept by walks (`Upto.lifts`, `LoggedUpto.lifts`).
3. `related_visitFrom`: by induction on the trail, what holds of walks holds of walks that open
   references.
4. `eq_of_extends`: what did not fail for want of a component is the same with more of them.
-/

namespace EndpointAtlas

/-- An error is that a reference names a component that does not exist. -/
def SchemaError.IsUnknownName (e : SchemaError) : Prop := ∃ ref, e.cause = .unknownReference ref

/-- A fault is that a reference names a component that does not exist. -/
def Fault.IsUnknownName (fault : Fault) : Prop := ∃ e, fault = .schema e ∧ e.IsUnknownName

namespace Schema

/-! ## Definitions with further components -/

/-- Definitions have the components of others, with the same schemas, and perhaps more. -/
def Extends (defs' defs : Members) : Prop :=
  ∀ name target, defs.get? name = some target → defs'.get? name = some target

section

variable {defs defs' : Members}

theorem Extends.trailOf (h : Extends defs' defs) {trail : Trail} (htrail : TrailOf defs trail) :
    TrailOf defs' trail where
  nodup := htrail.nodup
  known := by
    intro name hname
    obtain ⟨target, htarget⟩ := Members.has_eq_true.1 (htrail.known name hname)
    exact Members.has_eq_true.2 ⟨target, h name target htarget⟩

/-- Whether a reference is opened is settled by the components, unless its name is unknown. -/
theorem openReference_of_extends (h : Extends defs' defs) (trail : Trail) (ref : Value)
    (loc : Location) :
    (∃ e, openReference defs trail ref loc = .error e ∧ e.IsUnknownName) ∨
      openReference defs' trail ref loc = openReference defs trail ref loc := by
  cases hopen : openReference defs trail ref loc with
  | ok opened =>
    obtain ⟨name, target⟩ := opened
    obtain ⟨hname, hnew, hget⟩ := openReference_eq_ok_iff.1 hopen
    exact .inr (openReference_eq_ok_iff.2 ⟨hname, hnew, h name target hget⟩)
  | error e =>
    rcases openReference_eq_error_iff.1 hopen with hno | hcircular | ⟨name, -, -, -, rfl⟩
    · exact .inr (openReference_eq_error_iff.2 (.inl hno))
    · exact .inr (openReference_eq_error_iff.2 (.inr (.inl hcircular)))
    · exact .inl ⟨_, rfl, ref.text, rfl⟩

end

/-! ## The same, up to unknown names -/

/-- Two computations are the same, unless the first fails with an unknown name. -/
def Upto : Between (Except SchemaError) (Except SchemaError) := fun _ x y =>
  (∃ e, x = .error e ∧ e.IsUnknownName) ∨ y = x

theorem Upto.lifts : Lifts Upto where
  pure a := .inr rfl
  bind := by
    intro α β x y f g hxy hfg
    rcases hxy with ⟨e, rfl, hunknown⟩ | rfl
    · exact .inl ⟨e, rfl, hunknown⟩
    · cases y with
      | error e => exact .inr rfl
      | ok a => exact hfg a

/-- Two computations are the same with all that they write, unless the first fails with an unknown
name. -/
def LoggedUpto : Between (Logged Fault) (Logged Fault) := fun _ x y =>
  (∃ fault, x.outcome = .error fault ∧ fault.IsUnknownName) ∨ y = x

/-- No branch passes over an unknown name. -/
theorem passedOver?_of_isUnknownName {fault : Fault} (h : fault.IsUnknownName) :
    passedOver? fault = none := by
  obtain ⟨e, rfl, ref, hcause⟩ := h
  unfold passedOver? SchemaError.kind
  dsimp only
  rw [hcause]
  rfl

theorem attempt_congr {branch : Logged Fault Value} {next next' : SchemaError → Logged Fault Value}
    (h : ∀ fault e, branch.outcome = .error fault → passedOver? fault = some e →
      next e = next' e) : attempt branch next = attempt branch next' := by
  refine Logged.tryCatch_congr fun fault hfault => ?_
  cases hpassed : passedOver? fault with
  | none => rfl
  | some e => exact h fault e hfault hpassed

theorem LoggedUpto.lifts : LiftsSamples LoggedUpto where
  pure a := .inr rfl
  bind := by
    intro α β x y f g hxy hfg
    rcases hxy with ⟨fault, hx, hunknown⟩ | rfl
    · refine .inl ⟨fault, ?_, hunknown⟩
      rw [Logged.outcome_bind, hx]
      rfl
    · cases hy : y.outcome with
      | error fault =>
        refine .inr (Logged.bind_congr fun a ha => ?_)
        rw [hy] at ha
        cases ha
      | ok a =>
        rcases hfg a with ⟨fault, hf, hunknown⟩ | hgf
        · refine .inl ⟨fault, ?_, hunknown⟩
          rw [Logged.outcome_bind, hy]
          exact hf
        · refine .inr (Logged.bind_congr fun b hb => ?_)
          rw [hy] at hb
          cases hb
          exact hgf
  throw fault := .inr rfl
  write line := .inr rfl
  attempt := by
    intro x y next next' hxy hnext
    rcases hxy with ⟨fault, hx, hunknown⟩ | rfl
    · refine .inl ⟨fault, ?_, hunknown⟩
      rw [outcome_attempt, hx]
      dsimp only
      rw [passedOver?_of_isUnknownName hunknown]
    · -- what is done behind the branch matters only if the branch is passed over
      by_cases hpassed : ∃ fault e, y.outcome = .error fault ∧ passedOver? fault = some e
      · obtain ⟨fault, e, hy, he⟩ := hpassed
        rcases hnext e with ⟨other, hother, hunknown⟩ | hsame
        · refine .inl ⟨other, ?_, hunknown⟩
          rw [outcome_attempt, hy]
          dsimp only
          rw [he]
          exact hother
        · refine .inr (attempt_congr fun fault' e' hy' he' => ?_)
          rw [hy] at hy'
          cases hy'
          rw [he] at he'
          cases he'
          exact hsame
      · exact .inr (attempt_congr fun fault e hy he => absurd ⟨fault, e, hy, he⟩ hpassed)

/-! ## Walks that open references -/

section

variable {m : Type → Type} {R : Between m m} {raise : SchemaError → m Value} {walk : Walk m Value}
  {defs defs' : Members}

/-- A relation that walks keep is kept by walks that open references, in definitions and in
definitions with further components. -/
theorem related_visitFrom
    (hwalk : ∀ follow follow' : Follow m Value, (∀ ref loc, R (follow ref loc) (follow' ref loc)) →
      ∀ node loc, R (walk follow node loc) (walk follow' node loc))
    (hraise : ∀ e, R (raise e) (raise e))
    (hunknown : ∀ e y, SchemaError.IsUnknownName e → R (raise e) y)
    (h : Extends defs' defs) {trail : Trail} (htrail : TrailOf defs trail) :
    ∀ node loc, R (visitFrom raise walk defs trail node loc)
      (visitFrom raise walk defs' trail node loc) := by
  refine TrailOf.induction (P := fun trail => ∀ node loc,
    R (visitFrom raise walk defs trail node loc) (visitFrom raise walk defs' trail node loc)) ?_
    htrail
  intro trail htrail ih node loc
  rw [visitFrom_eq htrail, visitFrom_eq (h.trailOf htrail)]
  refine hwalk _ _ (fun ref here => ?_) node loc
  unfold followFrom
  rcases openReference_of_extends h trail ref here with ⟨e, hopen, he⟩ | hsame
  · rw [hopen]
    exact hunknown e _ he
  · rw [hsame]
    cases hopen : openReference defs trail ref here with
    | error e => exact hraise e
    | ok opened =>
      obtain ⟨name, target⟩ := opened
      obtain ⟨-, hnew, hget⟩ := openReference_eq_ok_iff.1 hopen
      exact ih name target hnew hget target here

end

variable {defs defs' : Members}

theorem upto_inline (h : Extends defs' defs) (node : Value) :
    Upto (inline defs node) (inline defs' node) :=
  related_visitFrom (fun _ _ => Upto.lifts.expand fun _ => .inr rfl) (fun _ => .inr rfl)
    (fun e _ he => .inl ⟨e, rfl, he⟩) h (TrailOf.empty defs) node .top

theorem loggedUpto_sample (h : Extends defs' defs) (node : Value) :
    LoggedUpto (sample defs node) (sample defs' node) :=
  related_visitFrom (fun _ _ => LoggedUpto.lifts.sampleWalk) (fun _ => .inr rfl)
    (fun e _ he => .inl ⟨.schema e, rfl, e, rfl, he⟩) h (TrailOf.empty defs) node .top

/-- **More components change nothing** for a schema that was inlined or sampled, or failed to be
for another reason than an unknown name: the outcome is the same, and so is the log. -/
theorem eq_of_extends {defs defs' : Members} (h : Extends defs' defs) (node : Value) :
    ((∀ e, inline defs node = .error e → ¬ e.IsUnknownName) →
        inline defs' node = inline defs node) ∧
      ((∀ e, (sample defs node).outcome = .error (.schema e) → ¬ e.IsUnknownName) →
        sample defs' node = sample defs node) := by
  constructor
  · intro hknown
    rcases upto_inline h node with ⟨e, he, hunknown⟩ | hsame
    · exact absurd hunknown (hknown e he)
    · exact hsame
  · intro hknown
    rcases loggedUpto_sample h node with ⟨fault, hfault, e, rfl, hunknown⟩ | hsame
    · exact absurd hunknown (hknown e hfault)
    · exact hsame

/-- An object that contains itself, and a text. -/
def loopComponents : Members :=
  [(.str "Loop", .map [(.str "type", .str "object"),
      (.str "properties", .map [(.str "self", componentReference "Loop")])]),
    (.str "Text", .map [(.str "type", .str "string")])]

/-- The same components behind one that refers to nothing. -/
def moreComponents : Members := (.str "Broken", componentReference "Nothing") :: loopComponents

/-- A choice between a choice without examples and a text. -/
def nestedChoice : Value :=
  .map [(.str "anyOf", .list [.map [(.str "oneOf", .list [componentReference "Loop",
      .map [(.str "type", .str "unheard-of")]])], componentReference "Text"])]

theorem extends_moreComponents : Extends moreComponents loopComponents := by
  intro name target h
  unfold moreComponents
  rw [Members.get?_cons]
  by_cases hname : name = "Broken"
  · subst hname
    have hnone : loopComponents.get? "Broken" = none := by decide
    rw [hnone] at h
    cases h
  · rw [if_neg fun heq => hname (Scalar.str.inj heq).symm]
    exact h

theorem eq_of_extends_nestedChoice :
    inline moreComponents nestedChoice = inline loopComponents nestedChoice ∧
      inline loopComponents nestedChoice = .error ⟨.circular ["Loop", "Loop"],
        ⟨"#", ["anyOf", "0", "oneOf", "0", "properties", "self"]⟩⟩ ∧
      sample moreComponents nestedChoice = sample loopComponents nestedChoice ∧
      (sample loopComponents nestedChoice).outcome = .ok (.str "") := by
  have hinline : inline loopComponents nestedChoice = .error ⟨.circular ["Loop", "Loop"],
      ⟨"#", ["anyOf", "0", "oneOf", "0", "properties", "self"]⟩⟩ := by cbv
  have hsample : (sample loopComponents nestedChoice).outcome = .ok (.str "") := by decide +kernel
  have hsame := eq_of_extends extends_moreComponents nestedChoice
  refine ⟨hsame.1 fun e he => ?_, hinline, hsame.2 fun e he => ?_, hsample⟩
  · rw [hinline] at he
    cases he
    rintro ⟨ref, hcause⟩
    cases hcause
  · rw [hsample] at he
    cases he

end Schema

end EndpointAtlas
