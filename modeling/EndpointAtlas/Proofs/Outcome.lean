import EndpointAtlas.Log
import Mathlib.Data.List.Forall2

/-!
# Outcomes

How an outcome of a computation in steps comes from the outcomes of the steps: a computation
succeeds when all of its steps do, and fails with the first step that fails.
-/

namespace EndpointAtlas.Outcome

variable {ε ε' α β : Type}

theorem bind_eq_ok_iff {x : Except ε α} {f : α → Except ε β} {b : β} :
    x >>= f = .ok b ↔ ∃ a, x = .ok a ∧ f a = .ok b := by
  cases x <;> simp [bind, Except.bind]

theorem bind_eq_error_iff {x : Except ε α} {f : α → Except ε β} {e : ε} :
    x >>= f = .error e ↔ x = .error e ∨ ∃ a, x = .ok a ∧ f a = .error e := by
  cases x <;> simp [bind, Except.bind]

theorem map_eq_ok_iff {x : Except ε α} {f : α → β} {b : β} :
    f <$> x = .ok b ↔ ∃ a, x = .ok a ∧ f a = b := by
  cases x <;> simp [Functor.map, Except.map]

theorem map_eq_error_iff {x : Except ε α} {f : α → β} {e : ε} :
    f <$> x = .error e ↔ x = .error e := by
  cases x <;> simp [Functor.map, Except.map]

theorem mapError_eq_ok_iff {x : Except ε α} {f : ε → ε'} {a : α} :
    x.mapError f = .ok a ↔ x = .ok a := by
  cases x <;> simp [Except.mapError]

/-- Of two lists side by side, each item of the second has one of the first at its side. -/
theorem exists_of_forall₂ {R : α → β → Prop} {xs : List α} {ys : List β} (h : List.Forall₂ R xs ys)
    {y : β} (hy : y ∈ ys) : ∃ x ∈ xs, R x y := by
  induction h with
  | nil => cases hy
  | @cons x _ _ _ hxy _ ih =>
    rcases List.mem_cons.1 hy with rfl | hrest
    · exact ⟨x, List.mem_cons_self, hxy⟩
    · obtain ⟨x', hmem, hx'⟩ := ih hrest
      exact ⟨x', List.mem_cons_of_mem _ hmem, hx'⟩

/-- A traversal succeeds when it succeeds on every item. -/
theorem mapM_eq_ok_iff {f : α → Except ε β} {xs : List α} {ys : List β} :
    xs.mapM f = .ok ys ↔ List.Forall₂ (fun x y => f x = .ok y) xs ys := by
  induction xs generalizing ys with
  | nil => simp [pure, Except.pure, eq_comm]
  | cons x xs ih =>
    rw [List.mapM_cons, bind_eq_ok_iff, List.forall₂_cons_left_iff]
    constructor
    · rintro ⟨y, hy, h⟩
      obtain ⟨ys, hys, h⟩ := bind_eq_ok_iff.1 h
      cases h
      exact ⟨y, ys, hy, ih.1 hys, rfl⟩
    · rintro ⟨y, ys, hy, hys, rfl⟩
      exact ⟨y, hy, bind_eq_ok_iff.2 ⟨ys, ih.2 hys, rfl⟩⟩

/-- A traversal fails with an item that fails. -/
theorem exists_of_mapM_eq_error {f : α → Except ε β} {xs : List α} {e : ε}
    (h : xs.mapM f = .error e) : ∃ x ∈ xs, f x = .error e := by
  induction xs with
  | nil => cases h
  | cons x xs ih =>
    rw [List.mapM_cons, bind_eq_error_iff] at h
    rcases h with hx | ⟨y, -, h⟩
    · exact ⟨x, List.mem_cons_self, hx⟩
    · rcases bind_eq_error_iff.1 h with hxs | ⟨ys, -, hpure⟩
      · obtain ⟨x', hmem, hx'⟩ := ih hxs
        exact ⟨x', List.mem_cons_of_mem x hmem, hx'⟩
      · cases hpure

/-- A traversal that pairs each item with a result succeeds when there is a result for each. -/
theorem mapM_pair_eq_ok_iff [Inhabited β] {g : α → Except ε β} {xs : List α}
    {ps : List (α × β)} :
    (xs.mapM fun x => do return (x, ← g x)) = .ok ps ↔
      ∃ f : α → β, (∀ x ∈ xs, g x = .ok (f x)) ∧ ps = xs.map fun x => (x, f x) := by
  rw [mapM_eq_ok_iff]
  constructor
  · intro h
    refine ⟨fun x => (g x).toOption.getD default, ?_⟩
    induction h with
    | nil => simp
    | cons hp _ ih =>
      obtain ⟨b, hb, hp⟩ := bind_eq_ok_iff.1 hp
      cases hp
      simp only [List.forall_mem_cons, List.map_cons, hb, Except.toOption, Option.getD_some]
      exact ⟨⟨trivial, ih.1⟩, congrArg _ ih.2⟩
  · rintro ⟨f, hf, rfl⟩
    rw [List.forall₂_map_right_iff, List.forall₂_same]
    exact fun x hx => bind_eq_ok_iff.2 ⟨f x, hf x hx, rfl⟩

end EndpointAtlas.Outcome

namespace EndpointAtlas.Logged

variable {ε α β : Type} {x : Logged ε α} {a : α} {e : ε}

@[simp] theorem outcome_map (f : α → β) (x : Logged ε α) : outcome (f <$> x) = f <$> outcome x := by
  rw [map_eq_pure_bind, outcome_bind]
  cases outcome x <;> rfl

/-! ## Lines of the log -/

theorem lines_bind_ok (f : α → Logged ε β) (h : x.outcome = .ok a) :
    (x >>= f).lines = x.lines ++ (f a).lines := by
  unfold outcome at h
  unfold lines
  rw [ExceptT.run_bind, Noted.lines_bind, h]

theorem lines_bind_error (f : α → Logged ε β) (h : x.outcome = .error e) :
    (x >>= f).lines = x.lines := by
  unfold outcome at h
  unfold lines
  rw [ExceptT.run_bind, Noted.lines_bind, h]
  exact List.append_nil _

theorem lines_tryCatch_ok (handle : ε → Logged ε α) (h : x.outcome = .ok a) :
    (tryCatch x handle).lines = x.lines := by
  unfold outcome ExceptT.run at h
  unfold lines
  change (ExceptT.tryCatch x handle).run.lines = _
  rw [ExceptT.tryCatch, ExceptT.run_mk, Noted.lines_bind, h]
  exact List.append_nil _

theorem lines_tryCatch_error (handle : ε → Logged ε α) (h : x.outcome = .error e) :
    (tryCatch x handle).lines = x.lines ++ (handle e).lines := by
  unfold outcome ExceptT.run at h
  unfold lines
  change (ExceptT.tryCatch x handle).run.lines = _
  rw [ExceptT.tryCatch, ExceptT.run_mk, Noted.lines_bind, h]
  rfl

/-- Two computations with one first step are one when their second steps are, behind each result of
the first. -/
theorem bind_congr {f g : α → Logged ε β} (h : ∀ a, x.outcome = .ok a → f a = g a) :
    x >>= f = x >>= g := by
  have houtcome : (x >>= f).outcome = (x >>= g).outcome := by
    rw [outcome_bind, outcome_bind]
    cases hx : x.outcome with
    | ok a => exact congrArg outcome (h a hx)
    | error e => rfl
  have hlines : (x >>= f).lines = (x >>= g).lines := by
    cases hx : x.outcome with
    | ok a => rw [lines_bind_ok f hx, lines_bind_ok g hx, h a hx]
    | error e => rw [lines_bind_error f hx, lines_bind_error g hx]
  exact congrArg₂ Noted.mk houtcome hlines

/-- Two handlers are one when they are for every failure that comes to them. -/
theorem tryCatch_congr {f g : ε → Logged ε α} (h : ∀ e, x.outcome = .error e → f e = g e) :
    tryCatch x f = tryCatch x g := by
  have houtcome : (tryCatch x f).outcome = (tryCatch x g).outcome := by
    rw [outcome_tryCatch, outcome_tryCatch]
    cases hx : x.outcome with
    | ok a => rfl
    | error e => exact congrArg outcome (h e hx)
  have hlines : (tryCatch x f).lines = (tryCatch x g).lines := by
    cases hx : x.outcome with
    | ok a => rw [lines_tryCatch_ok f hx, lines_tryCatch_ok g hx]
    | error e => rw [lines_tryCatch_error f hx, lines_tryCatch_error g hx, h e hx]
  exact congrArg₂ Noted.mk houtcome hlines

/-! ## Computations that write nothing -/

theorem ofExcept_bind (o : Except ε α) (f : α → Except ε β) :
    ofExcept (o >>= f) = ofExcept o >>= fun a => ofExcept (f a) := by
  cases o <;> rfl

end EndpointAtlas.Logged
