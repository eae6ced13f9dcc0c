import EndpointAtlas.Proofs.Schema.Depth
import EndpointAtlas.Proofs.Schema.Related
import EndpointAtlas.Proofs.Schema.Watch

/-!
# Visits inside each other

The walks over a schema are recursions on values, and components are opened on levels. Here both
are one recursion of visits: a visit of a node visits the children of the node, or the component
that a reference opens. Such a recursion need not end by itself, so it has fuel.

1. `Watched.visit`: visits with fuel, each of which is put down.
2. `tracks_visit`: with enough fuel for the node and for the components that are not open, visits
   do what the walk does. The induction is on the fuel: a child takes less of it because it is less
   deep, a component because its span leaves the reserve.
3. `visits_bounded`: on all runs the trail holds distinct components, and the number of visits
   inside each other has a bound that depends on the depths of the node and of the components.
-/

namespace EndpointAtlas.Schema

/-! ## Visits with fuel -/

/-- Visits inside each other, as many as there is fuel; `depth` is how many they are with the next
one. -/
def Watched.visit {ε α : Type} (raise : SchemaError → Watched ε α) (visitor : Visitor (Watched ε) α)
    (defs : Members) : Nat → Nat → Value → Location → Watched ε α
  | 0, _, _, _ => outOfFuel
  | fuel + 1, depth, node, loc => do
    noteVisit depth
    visitor (visit raise visitor defs fuel (depth + 1))
      (fun ref here => do
        let trail ← trail
        match openReference defs trail ref here with
        | .error e => raise e
        | .ok (name, target) =>
          opening name (visit raise visitor defs fuel (depth + 1) target here))
      node loc

/-- A watched run, with nothing open and nothing seen at its start. -/
def Watched.start {ε α : Type} (x : Watched ε α) : Noted (Option (Except ε α × Watch)) :=
  x.runFrom ⟨[], [], []⟩

/-- The run of an inlining with fuel. -/
def watchInline (fuel : Nat) (defs : Members) (node : Value) :
    Noted (Option (Except SchemaError Value × Watch)) :=
  (Watched.visit throw (expandNode throw) defs fuel 1 node .top).start

/-- The run of a sampling with fuel. -/
def watchSample (fuel : Nat) (defs : Members) (node : Value) :
    Noted (Option (Except Fault Value × Watch)) :=
  (Watched.visit (fun e => throw (.schema e)) sampleNode defs fuel 1 node .top).start

/-- The visits that can stand inside each other: one more than the depth of the node, and for each
component one more than its depth. -/
def visitBound (defs : Members) (node : Value) : Nat :=
  (1 + node.depth) + (defs.map fun m => 1 + m.2.depth).sum

/-! ## Visits do what the walk does -/

section

variable {m : Type → Type} {ε : Type} {defs : Members} {bound : Nat}
  {raise : SchemaError → m Value} {walk : Walk m Value} {fail : SchemaError → Watched ε Value}
  {visitor : Visitor (Watched ε) Value}

/-- A visitor does what a walk does when its visits to children and what it makes of references do. -/
def Conforms (defs : Members) (bound : Nat) (out : m Value → Logged ε Value)
    (visitor : Visitor (Watched ε) Value) (walk : Walk m Value) : Prop :=
  ∀ trail visit follow follow' node loc,
    (∀ step child, IsChild node step child → ∀ here,
      Tracks defs bound trail (visit child here) (out (walk follow' child here))) →
    (∀ ref here, Tracks defs bound trail (follow ref here) (out (follow' ref here))) →
    Tracks defs bound trail (visitor visit follow node loc) (out (walk follow' node loc))

theorem tracks_visit {out : m Value → Logged ε Value}
    (hfail : ∀ trail e, Tracks defs bound trail (fail e) (out (raise e)))
    (hvisitor : Conforms defs bound out visitor walk) (fuel : Nat) :
    ∀ {trail : Trail}, TrailOf defs trail → ∀ {depth : Nat} {node : Value} (loc : Location),
      span node + reserve defs trail ≤ fuel → depth + node.depth + reserve defs trail ≤ bound →
      Tracks defs bound trail (Watched.visit fail visitor defs fuel depth node loc)
        (out (visitFrom raise walk defs trail node loc)) := by
  induction fuel with
  | zero =>
    intro trail _ depth node loc hfuel _
    unfold span at hfuel
    omega
  | succ fuel ih =>
    intro trail htrail depth node loc hfuel hdepth
    unfold span at hfuel
    rw [Watched.visit, visitFrom_eq htrail]
    refine Tracks.noteVisit (by omega) (hvisitor trail _ _ _ node loc ?_ ?_)
    · -- a child: the same trail, and less depth
      intro step child hchild here
      have hless := hchild.depth_lt
      rw [← visitFrom_eq htrail raise walk]
      refine ih htrail here ?_ (by omega)
      unfold span
      omega
    · -- a component: one name more on the trail, and its span less in the reserve
      intro ref here
      refine Tracks.trail ?_
      unfold followFrom
      cases hopen : openReference defs trail ref here with
      | error e => exact hfail trail e
      | ok opened =>
        obtain ⟨name, target⟩ := opened
        obtain ⟨-, hname, hget⟩ := openReference_eq_ok_iff.1 hopen
        have hpush := htrail.push hname hget
        have hreserve := reserve_push hname hget
        refine Tracks.opening htrail hpush (ih hpush here (by omega) ?_)
        unfold span at hreserve
        omega

end

/-! ## The two visitors -/

section

variable {defs : Members} {bound : Nat}

theorem lifts_tracks (trail : Trail) :
    Lifts (m := Watched SchemaError) (n := Except SchemaError) fun _ x y =>
      Tracks defs bound trail x (.ofExcept y) where
  pure a := Tracks.of_pure a
  bind hxy hfg := by
    rw [Logged.ofExcept_bind]
    exact hxy.bind hfg

theorem liftsSamples_tracks (trail : Trail) :
    LiftsSamples (m := Watched Fault) (n := Logged Fault) fun _ => Tracks defs bound trail :=
  liftsSamples_of_tryCatch ⟨Tracks.of_pure, Tracks.bind⟩ Tracks.of_throw Tracks.of_write Tracks.tryCatch

theorem conforms_expandNode :
    Conforms defs bound Logged.ofExcept (expandNode throw) (expand .error) := by
  intro trail visit follow follow' node loc hchildren hfollow
  rw [expand_eq_expandNode]
  exact (lifts_tracks trail).expandNode (fun e => Tracks.of_throw e) hfollow hchildren loc

theorem conforms_sampleNode :
    Conforms defs bound id (sampleNode : Visitor (Watched Fault) Value) sampleWalk := by
  intro trail visit follow follow' node loc hchildren hfollow
  rw [sampleWalk_eq_sampleNode]
  exact (liftsSamples_tracks trail).sampleNode hfollow hchildren loc

end

/-! ## Runs -/

theorem Watch.inOrder_start (defs : Members) (bound : Nat) :
    Watch.InOrder defs bound [] ⟨[], [], []⟩ :=
  ⟨rfl, by simp, by simp⟩

/-- The bound in terms of the node and the reserve of all components. -/
theorem visitBound_eq (defs : Members) (node : Value) :
    visitBound defs node = span node + reserve defs [] := by
  rw [reserve_nil]
  rfl

section

variable {defs : Members} {node : Value} {fuel : Nat}

theorem tracks_inline (h : visitBound defs node ≤ fuel) :
    Tracks defs (visitBound defs node) []
      (Watched.visit throw (expandNode throw) defs fuel 1 node .top)
      (.ofExcept (inline defs node)) := by
  rw [visitBound_eq] at h ⊢
  exact tracks_visit (fun _ e => Tracks.of_throw e) conforms_expandNode fuel (TrailOf.empty defs)
    .top h (Nat.le_refl _)

theorem tracks_sample (h : visitBound defs node ≤ fuel) :
    Tracks defs (visitBound defs node) []
      (Watched.visit (fun e => throw (.schema e)) sampleNode defs fuel 1 node .top)
      (sample defs node) := by
  rw [visitBound_eq] at h ⊢
  exact tracks_visit (fun _ e => Tracks.of_throw (Fault.schema e)) conforms_sampleNode fuel
    (TrailOf.empty defs) .top h (Nat.le_refl _)

end

/-- **Visits are bounded.** With as much fuel as the bound, or more, the runs of inlining and of
sampling have the outcomes that inlining and sampling have. All trails in between are of distinct
components, the trail is empty at the end, and no more visits stand inside each other than the
bound allows.

A visit is all that a visitor does with a node: an override together with its call of the method
that it overrides, for the same node, is one visit. -/
theorem visits_bounded (defs : Members) (node : Value) {fuel : Nat}
    (h : visitBound defs node ≤ fuel) :
    (∃ w : Watch, watchInline fuel defs node = ⟨some (inline defs node, w), []⟩ ∧
        w.InOrder defs (visitBound defs node) []) ∧
      ∃ w : Watch,
        watchSample fuel defs node =
          ⟨some ((sample defs node).outcome, w), (sample defs node).lines⟩ ∧
        w.InOrder defs (visitBound defs node) [] := by
  have hstart := Watch.inOrder_start defs (visitBound defs node)
  constructor
  · obtain ⟨w, hw, hrun⟩ := tracks_inline h _ hstart
    exact ⟨w, hrun, hw⟩
  · obtain ⟨w, hw, hrun⟩ := tracks_sample h _ hstart
    exact ⟨w, hrun, hw⟩

/-- A list is an object with a tail, and the tail is a list again. -/
def listComponents : Members :=
  [(.str "List", .map [(.str "type", .str "object"),
      (.str "properties", .map [(.str "tail", componentReference "Tail")])]),
    (.str "Tail", componentReference "List")]

/-- A text, or a list. -/
def textOrList : Value :=
  .map [(.str "oneOf", .list [.map [(.str "type", .str "string")], componentReference "List"])]

theorem visits_bounded_textOrList :
    visitBound listComponents textOrList = 10 ∧
      inline listComponents textOrList = .error
        ⟨.circular ["List", "Tail", "List"], ⟨"#", ["oneOf", "1", "properties", "tail"]⟩⟩ ∧
      (sample listComponents textOrList).outcome = .ok (.str "") ∧
      (∃ w : Watch,
        watchInline 12 listComponents textOrList =
          ⟨some (inline listComponents textOrList, w), []⟩ ∧
        w.InOrder listComponents 10 []) ∧
      ∃ w : Watch,
        watchSample 12 listComponents textOrList =
          ⟨some ((sample listComponents textOrList).outcome, w),
            (sample listComponents textOrList).lines⟩ ∧
        w.InOrder listComponents 10 [] := by
  have hbound : visitBound listComponents textOrList = 10 := by decide
  have hruns := visits_bounded listComponents textOrList (hbound.trans_le (by decide : 10 ≤ 12))
  rw [hbound] at hruns
  exact ⟨hbound, by cbv, by rfl, hruns⟩

end EndpointAtlas.Schema
