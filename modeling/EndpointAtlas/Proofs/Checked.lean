import EndpointAtlas.Endpoint.Check

/-!
# Results of checks

When a check of several fields accepts, and what it gives.
-/

namespace EndpointAtlas

namespace Checked

variable {α β : Type}

theorem map_eq_ok_iff {f : α → β} {x : Checked α} {b : β} :
    f <$> x = .ok b ↔ ∃ a, x = .ok a ∧ f a = b := by
  change seq (.ok f) x = .ok b ↔ _
  cases x <;> simp [seq]

theorem seq_eq_ok_iff {f : Checked (α → β)} {x : Checked α} {b : β} :
    f <*> x = .ok b ↔ ∃ g a, f = .ok g ∧ x = .ok a ∧ g a = b := by
  change seq f x = .ok b ↔ _
  cases f <;> cases x <;> simp [seq]

theorem toExcept_eq_ok_iff {type : RecordType} {x : Checked α} {a : α} :
    x.toExcept type = .ok a ↔ x = .ok a := by
  cases x <;> simp [toExcept]

theorem inField_eq_ok_iff {x : Checked α} {segment : String} {a : α} :
    x.inField segment = .ok a ↔ x = .ok a := by
  cases x <;> simp [inField]

end Checked

theorem Check.mapping_eq_ok_iff {v : Value} {members : Members} :
    mapping v = .ok members ↔ v = .map members := by
  cases v <;> simp [mapping, Checked.problem]

end EndpointAtlas
