/-!
# Items that are reached

Work on the items of a list goes on as long as each item is settled. `Reached` says which items it
comes to.
-/

namespace EndpointAtlas

variable {α β : Type} {settled : α → Prop}

/-- An item is reached: all items before it are settled. -/
def Reached (settled : α → Prop) (items : List α) (a : α) : Prop :=
  ∃ before after, items = before ++ a :: after ∧ ∀ b ∈ before, settled b

namespace Reached

theorem mem {items : List α} {a : α} (h : Reached settled items a) : a ∈ items := by
  obtain ⟨before, after, rfl, -⟩ := h
  exact List.mem_append_right _ List.mem_cons_self

@[simp] theorem nil_iff {a : α} : Reached settled [] a ↔ False := by
  simp [Reached]

theorem cons_iff {a b : α} {items : List α} :
    Reached settled (b :: items) a ↔ a = b ∨ settled b ∧ Reached settled items a := by
  constructor
  · rintro ⟨before, after, heq, hsettled⟩
    cases before with
    | nil =>
      cases heq
      exact .inl rfl
    | cons c before =>
      cases heq
      rw [List.forall_mem_cons] at hsettled
      exact .inr ⟨hsettled.1, before, after, rfl, hsettled.2⟩
  · rintro (rfl | ⟨hb, before, after, rfl, hsettled⟩)
    · exact ⟨[], items, rfl, by simp⟩
    · exact ⟨b :: before, after, rfl, List.forall_mem_cons.2 ⟨hb, hsettled⟩⟩

theorem map_iff {f : β → α} {items : List β} {a : α} :
    Reached settled (items.map f) a ↔ ∃ b, Reached (fun b => settled (f b)) items b ∧ f b = a := by
  induction items with
  | nil => simp
  | cons b rest ih =>
    simp only [List.map_cons, cons_iff, ih]
    constructor
    · rintro (rfl | ⟨hb, c, hc, rfl⟩)
      · exact ⟨b, .inl rfl, rfl⟩
      · exact ⟨c, .inr ⟨hb, hc⟩, rfl⟩
    · rintro ⟨c, rfl | ⟨hb, hc⟩, rfl⟩
      · exact .inl rfl
      · exact .inr ⟨hb, c, hc, rfl⟩

/-- The work stops at an item just when it reaches an item at which it stops: in the terms of the
first item and the others. -/
theorem exists_cons_iff {P : α → Prop} {b : α} {items : List α} :
    (∃ a, Reached settled (b :: items) a ∧ P a) ↔
      P b ∨ settled b ∧ ∃ a, Reached settled items a ∧ P a := by
  simp only [cons_iff, or_and_right, exists_or, exists_eq_left, and_assoc, exists_and_left]

end Reached

end EndpointAtlas
