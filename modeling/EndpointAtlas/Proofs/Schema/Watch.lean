import EndpointAtlas.Proofs.Outcome
import EndpointAtlas.Proofs.Schema.Trail

/-!
# Watched sessions

A session that opens components keeps its trail as a state. Here such a session is watched: every
trail that it has is put down, and so is, for each visit, how many visits stand inside each other.
A session that runs out of fuel has no outcome.

1. `Watched`: the computations, with `runFrom` and its equations.
2. `Tracks`: a watched computation does what an unwatched one does, and leaves the trail as it found
   it. There is one rule for each way in which computations are put together.
-/

namespace EndpointAtlas

instance {m : Type → Type} [Monad m] [MonadLog m] : MonadLog (OptionT m) :=
  ⟨fun line => OptionT.lift (MonadLog.write line)⟩

namespace Schema

/-- What is seen of a session: its trail, the trails that it has had, and for each visit how many
visits stood inside each other then, with the visit itself. -/
structure Watch where
  trail : Trail
  trails : List Trail
  depths : List Nat

/-- A computation that fails with `ε`, on a trail that outlives failures. It has no outcome when it
runs out of fuel. -/
abbrev Watched (ε : Type) := ExceptT ε (StateT Watch (OptionT Noted))

namespace Watched

variable {ε α β : Type}

/-- The outcome of a session and what has been seen of it, from what was seen before. -/
def runFrom (x : Watched ε α) (w : Watch) : Noted (Option (Except ε α × Watch)) :=
  OptionT.run (StateT.run x.run w)

/-- The trail as it stands. -/
def trail : Watched ε Trail := Watch.trail <$> get

/-- A change of the trail. -/
def changeTrail (f : Trail → Trail) : Watched ε Unit :=
  modify fun w => { w with trail := f w.trail, trails := w.trails ++ [f w.trail] }

/-- A visit begins. -/
def noteVisit (depth : Nat) : Watched ε Unit :=
  modify fun w => { w with depths := w.depths ++ [depth] }

/-- There is no fuel left. -/
def outOfFuel : Watched ε α := ExceptT.lift (StateT.lift OptionT.fail)

/-- A computation with a name on the trail. The name is taken off again at its end. -/
def opening (name : String) (x : Watched ε α) : Watched ε α := do
  changeTrail (· ++ [name])
  let result ← tryCatch (Except.ok <$> x) fun e => pure (Except.error e)
  changeTrail List.dropLast
  match result with
  | .ok a => pure a
  | .error e => throw e

/-! ## Equations -/

variable (w : Watch)

theorem runFrom_pure (a : α) : (pure a : Watched ε α).runFrom w = ⟨some (.ok a, w), []⟩ := rfl

theorem runFrom_throw (e : ε) :
    (throw e : Watched ε α).runFrom w = ⟨some (.error e, w), []⟩ := rfl

theorem runFrom_trail : (trail : Watched ε Trail).runFrom w = ⟨some (.ok w.trail, w), []⟩ := rfl

theorem runFrom_changeTrail (f : Trail → Trail) : (changeTrail f : Watched ε Unit).runFrom w =
    ⟨some (.ok (), { w with trail := f w.trail, trails := w.trails ++ [f w.trail] }), []⟩ := rfl

theorem runFrom_noteVisit (depth : Nat) : (noteVisit depth : Watched ε Unit).runFrom w =
    ⟨some (.ok (), { w with depths := w.depths ++ [depth] }), []⟩ := rfl

theorem runFrom_write (line : Log.Line) :
    (MonadLog.write line : Watched ε Unit).runFrom w = ⟨some (.ok (), w), [line]⟩ := rfl

variable {w} {w' : Watch} {lines : List Log.Line}

theorem runFrom_bind_ok {x : Watched ε α} {a : α} (f : α → Watched ε β)
    (h : x.runFrom w = ⟨some (.ok a, w'), lines⟩) :
    (x >>= f).runFrom w = ⟨((f a).runFrom w').value, lines ++ ((f a).runFrom w').lines⟩ := by
  unfold runFrom at h ⊢
  rw [ExceptT.run_bind, StateT.run_bind, OptionT.run_bind, h]
  rfl

theorem runFrom_bind_error {x : Watched ε α} {e : ε} (f : α → Watched ε β)
    (h : x.runFrom w = ⟨some (.error e, w'), lines⟩) :
    (x >>= f).runFrom w = ⟨some (.error e, w'), lines⟩ := by
  unfold runFrom at h ⊢
  rw [ExceptT.run_bind, StateT.run_bind, OptionT.run_bind, h]
  exact congrArg (Noted.mk _) (List.append_nil lines)

theorem runFrom_tryCatch_ok {x : Watched ε α} {a : α} (handle : ε → Watched ε α)
    (h : x.runFrom w = ⟨some (.ok a, w'), lines⟩) :
    (tryCatch x handle).runFrom w = ⟨some (.ok a, w'), lines⟩ := by
  unfold runFrom at h ⊢
  change OptionT.run (StateT.run (ExceptT.tryCatch x handle).run w) = _
  rw [ExceptT.tryCatch, ExceptT.run_mk, StateT.run_bind, OptionT.run_bind]
  rw [ExceptT.run] at h
  rw [h]
  exact congrArg (Noted.mk _) (List.append_nil lines)

theorem runFrom_tryCatch_error {x : Watched ε α} {e : ε} (handle : ε → Watched ε α)
    (h : x.runFrom w = ⟨some (.error e, w'), lines⟩) :
    (tryCatch x handle).runFrom w =
      ⟨((handle e).runFrom w').value, lines ++ ((handle e).runFrom w').lines⟩ := by
  unfold runFrom at h ⊢
  change OptionT.run (StateT.run (ExceptT.tryCatch x handle).run w) = _
  rw [ExceptT.tryCatch, ExceptT.run_mk, StateT.run_bind, OptionT.run_bind]
  rw [ExceptT.run] at h
  rw [h]
  rfl

/-- A computation whose failure is kept as a value. -/
theorem runFrom_attempt {x : Watched ε α} {result : Except ε α}
    (h : x.runFrom w = ⟨some (result, w'), lines⟩) :
    (tryCatch (Except.ok <$> x) fun e => pure (Except.error e)).runFrom w =
      ⟨some (.ok result, w'), lines⟩ := by
  rw [map_eq_pure_bind]
  cases result with
  | ok a =>
    have hmap : (x >>= fun a => pure (Except.ok a : Except ε α)).runFrom w =
        ⟨some (.ok (.ok a), w'), lines ++ []⟩ := runFrom_bind_ok _ h
    rw [List.append_nil] at hmap
    exact runFrom_tryCatch_ok _ hmap
  | error e =>
    have hmap : (x >>= fun a => pure (Except.ok a : Except ε α)).runFrom w =
        ⟨some (.error e, w'), lines⟩ := runFrom_bind_error _ h
    rw [runFrom_tryCatch_error _ hmap]
    exact congrArg (Noted.mk _) (List.append_nil lines)

/-- The name is on the trail while the component is open, and off it afterwards. -/
theorem runFrom_opening {name : String} {x : Watched ε α} {result : Except ε α}
    (h : x.runFrom { w with trail := w.trail ++ [name], trails := w.trails ++ [w.trail ++ [name]] } =
      ⟨some (result, w'), lines⟩) :
    (opening name x).runFrom w =
      ⟨some (result, { w' with
        trail := w'.trail.dropLast, trails := w'.trails ++ [w'.trail.dropLast] }), lines⟩ := by
  unfold opening
  rw [runFrom_bind_ok _ (runFrom_changeTrail w _), runFrom_bind_ok _ (runFrom_attempt h),
    runFrom_bind_ok _ (runFrom_changeTrail w' _)]
  cases result <;> exact congrArg (Noted.mk _) (List.append_nil lines)

end Watched

/-! ## Watched and unwatched computations -/

/-- Everything that was seen is in order: the trail is the given one, all trails there have been are
of distinct components, and no more visits than the bound stood inside each other. `Watched.visit_succ`
says that each visit is put down, and `fuel_needed` that a run needs the fuel that is put down. -/
structure Watch.InOrder (defs : Members) (bound : Nat) (trail : Trail) (w : Watch) : Prop where
  trail_eq : w.trail = trail
  trails : ∀ t ∈ w.trails, TrailOf defs t
  depths : ∀ depth ∈ w.depths, depth ≤ bound

/-- On a trail, a watched computation has the outcome and the log lines of an unwatched one. It
leaves the trail as it found it, and keeps what is seen in order. -/
def Tracks {ε α : Type} (defs : Members) (bound : Nat) (trail : Trail) (x : Watched ε α)
    (y : Logged ε α) : Prop :=
  ∀ w : Watch, w.InOrder defs bound trail → ∃ w' : Watch, w'.InOrder defs bound trail ∧
    x.runFrom w = ⟨some (y.outcome, w'), y.lines⟩

namespace Tracks

variable {ε α β : Type} {defs : Members} {bound : Nat} {t : Trail}

theorem of_pure (a : α) : Tracks (ε := ε) defs bound t (pure a) (pure a) :=
  fun w hw => ⟨w, hw, Watched.runFrom_pure w a⟩

theorem of_throw (e : ε) :
    Tracks defs bound t (throw e : Watched ε α) (throw e : Logged ε α) :=
  fun w hw => ⟨w, hw, Watched.runFrom_throw w e⟩

theorem of_write (line : Log.Line) :
    Tracks (ε := ε) defs bound t (MonadLog.write line) (MonadLog.write line) :=
  fun w hw => ⟨w, hw, Watched.runFrom_write w line⟩

theorem bind {x : Watched ε α} {y : Logged ε α} {f : α → Watched ε β} {g : α → Logged ε β}
    (hx : Tracks defs bound t x y) (hf : ∀ a, Tracks defs bound t (f a) (g a)) :
    Tracks defs bound t (x >>= f) (y >>= g) := by
  intro w hw
  obtain ⟨w₁, hw₁, hrun⟩ := hx w hw
  cases hy : y.outcome with
  | error e =>
    rw [hy] at hrun
    refine ⟨w₁, hw₁, ?_⟩
    rw [Watched.runFrom_bind_error f hrun, Logged.outcome_bind, hy, Logged.lines_bind_error g hy]
    rfl
  | ok a =>
    rw [hy] at hrun
    obtain ⟨w₂, hw₂, hrun₂⟩ := hf a w₁ hw₁
    refine ⟨w₂, hw₂, ?_⟩
    rw [Watched.runFrom_bind_ok f hrun, hrun₂, Logged.outcome_bind, hy, Logged.lines_bind_ok g hy]
    rfl

theorem tryCatch {x : Watched ε α} {y : Logged ε α} {handle : ε → Watched ε α}
    {handle' : ε → Logged ε α} (hx : Tracks defs bound t x y)
    (hhandle : ∀ e, Tracks defs bound t (handle e) (handle' e)) :
    Tracks defs bound t (tryCatch x handle) (tryCatch y handle') := by
  intro w hw
  obtain ⟨w₁, hw₁, hrun⟩ := hx w hw
  cases hy : y.outcome with
  | ok a =>
    rw [hy] at hrun
    refine ⟨w₁, hw₁, ?_⟩
    rw [Watched.runFrom_tryCatch_ok handle hrun, Logged.outcome_tryCatch, hy,
      Logged.lines_tryCatch_ok handle' hy]
    rfl
  | error e =>
    rw [hy] at hrun
    obtain ⟨w₂, hw₂, hrun₂⟩ := hhandle e w₁ hw₁
    refine ⟨w₂, hw₂, ?_⟩
    rw [Watched.runFrom_tryCatch_error handle hrun, hrun₂, Logged.outcome_tryCatch, hy,
      Logged.lines_tryCatch_error handle' hy]
    rfl

/-- What is done with the trail as it stands is done with the given one. -/
theorem trail {f : Trail → Watched ε α} {y : Logged ε α} (h : Tracks defs bound t (f t) y) :
    Tracks defs bound t (Watched.trail >>= f) y := by
  intro w hw
  obtain ⟨w₁, hw₁, hrun⟩ := h w hw
  refine ⟨w₁, hw₁, ?_⟩
  rw [Watched.runFrom_bind_ok f (Watched.runFrom_trail w), hw.trail_eq, hrun]
  rfl

/-- A visit begins inside no more visits than the bound allows. -/
theorem noteVisit {depth : Nat} (hdepth : depth ≤ bound) {x : Watched ε α} {y : Logged ε α}
    (hx : Tracks defs bound t x y) :
    Tracks defs bound t (do Watched.noteVisit depth; x) y := by
  intro w hw
  have hnoted : Watch.InOrder defs bound t { w with depths := w.depths ++ [depth] } := by
    refine ⟨hw.trail_eq, hw.trails, ?_⟩
    intro d hd
    rcases List.mem_append.1 hd with hold | hnew
    · exact hw.depths d hold
    · rw [List.mem_singleton.1 hnew]
      exact hdepth
  obtain ⟨w₁, hw₁, hrun⟩ := hx _ hnoted
  refine ⟨w₁, hw₁, ?_⟩
  rw [Watched.runFrom_bind_ok _ (Watched.runFrom_noteVisit w depth), hrun]
  rfl

end Tracks

theorem Watch.InOrder.changeTrail {defs : Members} {bound : Nat} {t t' : Trail} {w : Watch}
    (hw : w.InOrder defs bound t) (ht' : TrailOf defs t') :
    Watch.InOrder defs bound t' { w with trail := t', trails := w.trails ++ [t'] } where
  trail_eq := rfl
  trails := by
    intro s hs
    rcases List.mem_append.1 hs with hold | hnew
    · exact hw.trails s hold
    · rw [List.mem_singleton.1 hnew]
      exact ht'
  depths := hw.depths

/-- A component is opened, and closed again whatever happens inside. -/
theorem Tracks.opening {ε α : Type} {defs : Members} {bound : Nat} {t : Trail} {name : String}
    {x : Watched ε α} {y : Logged ε α} (ht : TrailOf defs t) (hpush : TrailOf defs (t ++ [name]))
    (hx : Tracks defs bound (t ++ [name]) x y) :
    Tracks defs bound t (Watched.opening name x) y := by
  intro w hw
  have hopened := hw.changeTrail hpush
  obtain ⟨w₁, hw₁, hrun⟩ := hx _ hopened
  rw [← hw.trail_eq] at hrun
  have hclosed : w₁.trail.dropLast = t := by rw [hw₁.trail_eq, List.dropLast_concat]
  have hrestored := hw₁.changeTrail ht
  have hopening := Watched.runFrom_opening hrun
  rw [hclosed] at hopening
  exact ⟨_, hrestored, hopening⟩

end Schema

end EndpointAtlas
