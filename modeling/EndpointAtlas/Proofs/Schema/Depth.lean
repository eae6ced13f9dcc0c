import EndpointAtlas.Proofs.Schema.Child
import EndpointAtlas.Proofs.Schema.Trail
import Mathlib.Algebra.GroupWithZero.Nat
import Mathlib.Algebra.Order.BigOperators.Group.List
import Mathlib.Algebra.Order.Group.Nat

/-!
# Depth

How deep a walk over a schema can get. `Value.depth` counts lists and mappings that stand inside each
other. A step to a child goes down at least one of them (`IsChild.depth_lt`); a reference goes to a
component that may be deeper, but it costs the component: `reserve` is what the components hold
together that are not open yet (`reserve_push`).
-/

namespace EndpointAtlas

namespace Value

mutual

/-- How many lists and mappings stand inside each other. -/
def depth : Value → Nat
  | .scalar _ => 0
  | .list items => depthItems items + 1
  | .map members => depthMembers members + 1
  | .set _ => 1
  | .cut _ => 1

/-- The depth of the deepest item. -/
def depthItems : List Value → Nat
  | [] => 0
  | v :: rest => max v.depth (depthItems rest)

/-- The depth of the deepest value of a member. -/
def depthMembers : List (Scalar × Value) → Nat
  | [] => 0
  | (_, v) :: rest => max v.depth (depthMembers rest)

end

theorem depth_lt_list {items : List Value} {v : Value} (h : v ∈ items) :
    v.depth < (Value.list items).depth := by
  rw [depth]
  induction items with
  | nil => cases h
  | cons w rest ih =>
    rw [depthItems]
    rcases List.mem_cons.1 h with rfl | hrest
    · omega
    · have := ih hrest
      omega

theorem depth_lt_map {members : Members} {k : Scalar} {v : Value} (h : (k, v) ∈ members) :
    v.depth < (Value.map members).depth := by
  rw [depth]
  induction members with
  | nil => cases h
  | cons m rest ih =>
    obtain ⟨l, w⟩ := m
    rw [depthMembers]
    rcases List.mem_cons.1 h with heq | hrest
    · cases heq
      omega
    · have := ih hrest
      omega

end Value

namespace Schema

theorem Slot.depth_le_of_mem_children {slot : Slot} {v child : Value} {step : Step}
    (h : (step, child) ∈ slot.children v) : child.depth ≤ v.depth := by
  obtain rfl | ⟨props, k, rfl, hmem⟩ | ⟨schemas, rfl, hmem⟩ := cases_of_mem_children h
  · exact Nat.le_refl _
  · exact Nat.le_of_lt (Value.depth_lt_map hmem)
  · exact Nat.le_of_lt (Value.depth_lt_list hmem)

/-- A child is less deep than its schema. -/
theorem IsChild.depth_lt {node child : Value} {step : Step} (h : IsChild node step child) :
    child.depth < node.depth := by
  obtain ⟨members, slot, v, rfl, hget, hmem⟩ := h
  have hchild := Slot.depth_le_of_mem_children hmem
  have hv := Value.depth_lt_map (Members.mem_of_get? hget)
  omega

/-! ## What components hold -/

/-- The visits that can stand inside each other in one value: one more than its depth. -/
def span (v : Value) : Nat := 1 + v.depth

/-- The span of a component, unless it is open. -/
def unopened (trail : Trail) (m : Scalar × Value) : Nat :=
  if m.1 ∈ trail.map Scalar.str then 0 else span m.2

/-- The spans of all components that are not open. -/
def reserve (defs : Members) (trail : Trail) : Nat := (defs.map (unopened trail)).sum

/-- Before a component is open all spans count. -/
theorem reserve_nil (defs : Members) : reserve defs [] = (defs.map fun m => span m.2).sum := by
  have hall : ∀ m, unopened [] m = span m.2 := by
    intro m
    rw [unopened, List.map_nil, if_neg List.not_mem_nil]
  rw [reserve, funext hall]

/-- Opening one component more leaves no other with a larger span. -/
theorem unopened_push_le (trail : Trail) (name : String) (m : Scalar × Value) :
    unopened (trail ++ [name]) m ≤ unopened trail m := by
  unfold unopened
  by_cases hold : m.1 ∈ trail.map Scalar.str
  · have hnew : m.1 ∈ (trail ++ [name]).map Scalar.str := by
      rw [List.map_append]
      exact List.mem_append_left _ hold
    rw [if_pos hnew]
    exact Nat.zero_le _
  · rw [if_neg hold]
    split
    · exact Nat.zero_le _
    · exact Nat.le_refl _

theorem reserve_push_le (defs : Members) (trail : Trail) (name : String) :
    reserve defs (trail ++ [name]) ≤ reserve defs trail :=
  List.sum_le_sum fun m _ => unopened_push_le trail name m

/-- A component that is opened takes its span from the reserve. -/
theorem reserve_push {defs : Members} {trail : Trail} {name : String} {target : Value}
    (hname : name ∉ trail) (hget : defs.get? name = some target) :
    span target + reserve defs (trail ++ [name]) ≤ reserve defs trail := by
  induction defs with
  | nil => cases hget
  | cons m rest ih =>
    obtain ⟨k, v⟩ := m
    have hhead := unopened_push_le trail name (k, v)
    simp only [reserve, List.map_cons, List.sum_cons] at ih ⊢
    rw [Members.get?_cons] at hget
    by_cases hk : k = .str name
    · -- the member that the name is read from: its span is in the reserve before, and not after
      rw [if_pos hk] at hget
      cases hget
      subst hk
      have hbefore : unopened trail (.str name, target) = span target := by
        have hnew : Scalar.str name ∉ trail.map Scalar.str := by simpa using hname
        rw [unopened, if_neg hnew]
      have hafter : unopened (trail ++ [name]) (.str name, target) = 0 := by
        rw [unopened, if_pos (by simp)]
      have hrest := reserve_push_le rest trail name
      unfold reserve at hrest
      omega
    · rw [if_neg hk] at hget
      have hrest := ih hget
      omega

end Schema

end EndpointAtlas
