import EndpointAtlas.Value.Basic

/-!
# Members of a mapping

A key is read from its first member; keys that are read are members.
-/

namespace EndpointAtlas.Members

theorem mem_of_get? {members : Members} {key : String} {v : Value}
    (h : members.get? key = some v) : (.str key, v) ∈ members := by
  induction members with
  | nil => simp at h
  | cons m rest ih =>
    obtain ⟨k, w⟩ := m
    rw [get?_cons] at h
    split at h
    · next hk => subst hk; cases h; exact List.mem_cons_self
    · exact List.mem_cons_of_mem _ (ih h)

theorem not_mem_of_get? {members : Members} {key : String} (h : members.get? key = none)
    (v : Value) : (.str key, v) ∉ members := by
  induction members with
  | nil => exact List.not_mem_nil
  | cons m rest ih =>
    obtain ⟨k, w⟩ := m
    rw [get?_cons] at h
    split at h
    · cases h
    · next hk =>
      rw [List.mem_cons, not_or]
      exact ⟨fun heq => hk (congrArg Prod.fst heq).symm, ih h⟩

/-- Changing values key by key commutes with reading. -/
theorem get?_map (members : Members) (f : Scalar → Value → Value) (key : String) :
    get? (members.map fun (k, v) => (k, f k v)) key = (members.get? key).map (f (.str key)) := by
  induction members with
  | nil => rfl
  | cons m rest ih =>
    obtain ⟨k, v⟩ := m
    simp only [List.map_cons, get?_cons, ih]
    split
    · next hk => rw [hk, Option.map_some]
    · rfl

theorem getD_map (members : Members) (f : Scalar → Value → Value) {key : String}
    (h : f (.str key) .null = .null) :
    getD (members.map fun (k, v) => (k, f k v)) key = f (.str key) (members.getD key) := by
  unfold getD
  rw [get?_map]
  cases members.get? key with
  | none => exact h.symm
  | some v => rfl

/-- Leaving out members of other keys does not bear on reading. -/
theorem get?_filter {members : Members} {keep : Scalar × Value → Bool} {key : String}
    (h : ∀ v, keep (.str key, v) = true) :
    get? (members.filter keep) key = members.get? key := by
  induction members with
  | nil => rfl
  | cons m rest ih =>
    obtain ⟨k, v⟩ := m
    by_cases hkeep : keep (k, v) = true
    · rw [List.filter_cons_of_pos hkeep, get?_cons, get?_cons, ih]
    · have hother : k ≠ .str key := by
        rintro rfl
        exact hkeep (h v)
      rw [List.filter_cons_of_neg hkeep, ih, get?_cons, if_neg hother]

theorem get?_append (members members' : Members) (key : String) :
    get? (members ++ members') key = (members.get? key).or (members'.get? key) := by
  induction members with
  | nil => rfl
  | cons m rest ih =>
    obtain ⟨k, v⟩ := m
    rw [List.cons_append, get?_cons, get?_cons, ih]
    split <;> rfl

theorem has_eq_true {members : Members} {key : String} :
    members.has key = true ↔ ∃ v, members.get? key = some v := Option.isSome_iff_exists

/-- Setting a key adds no other key. -/
theorem mem_set {members : Members} {key : String} {v : Value} {m : Scalar × Value}
    (h : m ∈ members.set key v) : m.1 = .str key ∨ m ∈ members := by
  induction members with
  | nil =>
    rw [set, List.mem_singleton] at h
    rw [h]
    exact .inl rfl
  | cons p rest ih =>
    obtain ⟨k, w⟩ := p
    rw [set] at h
    split at h
    · next hk =>
      rcases List.mem_cons.1 h with rfl | hrest
      · exact .inl hk
      · exact .inr (List.mem_cons_of_mem _ hrest)
    · rcases List.mem_cons.1 h with rfl | hrest
      · exact .inr List.mem_cons_self
      · exact (ih hrest).imp_right (List.mem_cons_of_mem _)

/-- A key that is set keeps its place among the keys, or stands behind them. -/
theorem map_fst_set (members : Members) (key : String) (v : Value) :
    (members.set key v).map Prod.fst =
      if Scalar.str key ∈ members.map Prod.fst then members.map Prod.fst
      else members.map Prod.fst ++ [Scalar.str key] := by
  induction members with
  | nil => simp [set]
  | cons m rest ih =>
    obtain ⟨k, w⟩ := m
    by_cases hk : k = .str key
    · simp [set, hk]
    · have hne : Scalar.str key ≠ k := fun h => hk h.symm
      simp only [set, if_neg hk, List.map_cons, ih, List.mem_cons, hne, false_or]
      split <;> rfl

/-- Keys that stand in the order in which they first occurred still do when one more is set. -/
theorem map_fst_set_eraseDups {members : Members} {keys : List Scalar} {key : String}
    (h : members.map Prod.fst = keys.eraseDups) (v : Value) :
    (members.set key v).map Prod.fst = (keys ++ [Scalar.str key]).eraseDups := by
  simp only [map_fst_set, h, List.mem_eraseDups, List.eraseDups_append]
  by_cases hkey : Scalar.str key ∈ keys
  · simp [List.removeAll, hkey]
  · simp [List.removeAll, hkey, List.eraseDups_cons]

theorem get?_eq_none_iff {members : Members} {key : String} :
    members.get? key = none ↔ ∀ m ∈ members, m.1 ≠ .str key := by
  constructor
  · rintro h ⟨k, v⟩ hmem rfl
    exact not_mem_of_get? h v hmem
  · intro h
    cases hget : members.get? key with
    | none => rfl
    | some v => exact absurd rfl (h _ (mem_of_get? hget))

end EndpointAtlas.Members
