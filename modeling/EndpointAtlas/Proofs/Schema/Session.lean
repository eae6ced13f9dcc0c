import EndpointAtlas.Proofs.Schema.Related
import EndpointAtlas.Proofs.Schema.Trail
import EndpointAtlas.Schema.Session

/-!
# Sessions are as good as new

A session keeps one trail through all of its visits. Each visit takes off the trail what it has put
there, whether it ends with a result or with an error, so that the next visit finds it empty.

1. `Keeps`: on a trail, a session does what a computation without a state does, and leaves the trail
   as it found it. There is one rule for each way in which sessions are put together;
   `Keeps.opening` is the one for a component.
2. `related_visitWithin`: what holds of walks and of opening a component holds of visits, by
   induction on the level.
3. `visitWithin_succ`: a level as high as there are components is never used up, on any trail. A
   visit is therefore a walk that visits the components it opens (`keeps_openAnd`).
4. `reused_eq_fresh`: the visits of a session are those of sessions of their own.
-/

namespace EndpointAtlas.Schema

namespace Session

variable {ε α β : Type} {t : Trail}

/-! ## Runs -/

theorem runFrom_bind (x : Session ε α) (f : α → Session ε β) (t : Trail) :
    (x >>= f).runFrom t = x.runFrom t >>= fun p =>
      match p.1 with
      | .ok a => (f a).runFrom p.2
      | .error e => pure (.error e, p.2) := by
  unfold runFrom
  rw [ExceptT.run_bind, StateT.run_bind]
  congr 1
  funext p
  obtain ⟨a | e, t'⟩ := p <;> rfl

theorem runFrom_tryCatch (x : Session ε α) (handle : ε → Session ε α) (t : Trail) :
    (tryCatch x handle).runFrom t = x.runFrom t >>= fun p =>
      match p.1 with
      | .ok a => pure (.ok a, p.2)
      | .error e => (handle e).runFrom p.2 := by
  unfold runFrom
  change StateT.run (ExceptT.tryCatch x handle).run t = _
  rw [ExceptT.tryCatch, ExceptT.run_mk, StateT.run_bind]
  congr 1
  funext p
  obtain ⟨a | e, t'⟩ := p <;> rfl

/-- The name is on the trail while the component is open, and the last name is taken off behind it,
also behind an error. -/
theorem runFrom_opening (name : String) (x : Session ε α) (t : Trail) :
    (opening name x).runFrom t =
      (fun p => (p.1, p.2.dropLast)) <$> x.runFrom (t ++ [name]) := by
  have hpush : (modify (· ++ [name]) : Session ε Unit).runFrom t = pure (.ok (), t ++ [name]) := rfl
  unfold opening
  rw [runFrom_bind, hpush, pure_bind]
  dsimp only
  rw [runFrom_bind, runFrom_tryCatch, map_eq_pure_bind, runFrom_bind]
  simp only [bind_assoc, map_eq_pure_bind]
  congr 1
  funext p
  obtain ⟨e | a, t'⟩ := p <;> rfl

/-! ## Sessions that leave the trail as they found it -/

/-- On a trail, a session does what a computation without a state does, and leaves the trail as it
found it. -/
def Keeps (t : Trail) (x : Session ε α) (y : Logged ε α) : Prop :=
  x.runFrom t = (fun result => (result, t)) <$> y.run

namespace Keeps

theorem of_pure (a : α) : Keeps (ε := ε) t (pure a) (pure a) := rfl

theorem of_throw (e : ε) : Keeps t (throw e : Session ε α) (throw e) := rfl

theorem of_write (line : Log.Line) : Keeps (ε := ε) t (MonadLog.write line) (MonadLog.write line) :=
  rfl

theorem bind {x : Session ε α} {y : Logged ε α} {f : α → Session ε β} {g : α → Logged ε β}
    (hx : Keeps t x y) (hf : ∀ a, Keeps t (f a) (g a)) : Keeps t (x >>= f) (y >>= g) := by
  unfold Keeps at hx hf ⊢
  rw [runFrom_bind, hx, ExceptT.run_bind, bind_map_left, map_bind]
  congr 1
  funext result
  cases result with
  | ok a => exact hf a
  | error e => rfl

theorem tryCatch {x : Session ε α} {y : Logged ε α} {handle : ε → Session ε α}
    {handle' : ε → Logged ε α} (hx : Keeps t x y) (hhandle : ∀ e, Keeps t (handle e) (handle' e)) :
    Keeps t (tryCatch x handle) (tryCatch y handle') := by
  unfold Keeps at hx hhandle ⊢
  have hcatch : (MonadExcept.tryCatch y handle').run = y.run >>= fun result =>
      match result with
      | .ok a => Pure.pure (.ok a)
      | .error e => (handle' e).run := rfl
  rw [runFrom_tryCatch, hx, hcatch, bind_map_left, map_bind]
  congr 1
  funext result
  cases result with
  | ok a => rfl
  | error e => exact hhandle e

/-- What is done with the trail as it stands is done with the given one. -/
theorem trail {f : Trail → Session ε α} {y : Logged ε α} (h : Keeps t (f t) y) :
    Keeps t (trail >>= f) y := by
  have htrail : (Session.trail : Session ε Trail).runFrom t = Pure.pure (.ok t, t) := rfl
  unfold Keeps at h ⊢
  rw [runFrom_bind, htrail, pure_bind]
  exact h

/-- A component is opened, and closed again whatever happens inside. -/
theorem opening {name : String} {x : Session ε α} {y : Logged ε α} (h : Keeps (t ++ [name]) x y) :
    Keeps t (opening name x) y := by
  unfold Keeps at h ⊢
  rw [runFrom_opening, h, Functor.map_map]
  simp only [List.dropLast_concat]

end Keeps

/-! ## Walks -/

/-- Inlining in a session and inlining without one. -/
theorem lifts_keeps (t : Trail) :
    Lifts (m := Session SchemaError) (n := Except SchemaError) fun _ x y =>
      Keeps t x (.ofExcept y) where
  pure a := Keeps.of_pure a
  bind hxy hfg := by
    rw [Logged.ofExcept_bind]
    exact hxy.bind hfg

/-- Sampling in a session and sampling without one. -/
theorem liftsSamples_keeps (t : Trail) :
    LiftsSamples (m := Session Fault) (n := Logged Fault) fun _ => Keeps t :=
  liftsSamples_of_tryCatch ⟨Keeps.of_pure, Keeps.bind⟩ Keeps.of_throw Keeps.of_write Keeps.tryCatch

section

variable {m : Type → Type} {raise : SchemaError → Session ε α} {raise' : SchemaError → m α}
  {walk : Walk (Session ε) α} {walk' : Walk m α} {R : Trail → Session ε α → m α → Prop}

/-- Visits are related on every trail when walks are, and the computations on which a visit goes on
in a component. -/
theorem related_visitWithin (defs : Members) (hraise : ∀ t e, R t (raise e) (raise' e))
    (hwalk : ∀ t follow follow', (∀ ref loc, R t (follow ref loc) (follow' ref loc)) →
      ∀ node loc, R t (walk follow node loc) (walk' follow' node loc))
    (htrail : ∀ t (f : Trail → Session ε α) y, R t (f t) y → R t (trail >>= f) y)
    (hopening : ∀ t name x y, R (t ++ [name]) x y → R t (opening name x) y) (level : Nat) :
    ∀ t node loc, R t (visitWithin raise walk defs level node loc)
      (Schema.visitWithin raise' walk' defs level t node loc) := by
  induction level with
  | zero =>
    intro t node loc
    refine hwalk t _ _ (fun ref here => htrail t _ _ ?_) node loc
    cases openReference defs t ref here with
    | error e => exact hraise t e
    | ok opened => exact hraise t _
  | succ level ih =>
    intro t node loc
    refine hwalk t _ _ (fun ref here => htrail t _ _ ?_) node loc
    cases openReference defs t ref here with
    | error e => exact hraise t e
    | ok opened => exact hopening t opened.1 _ _ (ih (t ++ [opened.1]) opened.2 here)

end

variable {defs : Members}

theorem keeps_inlineAt (t : Trail) (node : Value) (loc : Location) :
    Keeps t (inlineAt defs node loc)
      (.ofExcept (Schema.visitWithin .error (expand .error) defs defs.length t node loc)) :=
  related_visitWithin (R := fun t x y => Keeps t x (.ofExcept y)) defs
    (fun _ e => Keeps.of_throw e)
    (fun t _ _ hfollow => (lifts_keeps t).expand (fun e => Keeps.of_throw e) hfollow)
    (fun _ _ _ => Keeps.trail) (fun _ _ _ _ => Keeps.opening) defs.length t node loc

theorem keeps_sampleAt (t : Trail) (node : Value) (loc : Location) :
    Keeps t (sampleAt defs node loc)
      (Schema.visitWithin (fun e => throw (.schema e)) sampleWalk defs defs.length t node loc) :=
  related_visitWithin (R := Keeps) defs (fun _ e => Keeps.of_throw (Fault.schema e))
    (fun t _ _ hfollow => (liftsSamples_keeps t).sampleWalk hfollow)
    (fun _ _ _ => Keeps.trail) (fun _ _ _ _ => Keeps.opening) defs.length t node loc

/-! ## Visits without levels -/

/-- How many components are not open. -/
def closedCount (defs : Members) (t : Trail) : Nat :=
  (defs.filter fun m => m.1 ∉ t.map Scalar.str).length

theorem closedCount_push {name : String} {target : Value} (hname : name ∉ t)
    (hget : defs.get? name = some target) : closedCount defs (t ++ [name]) < closedCount defs t := by
  have hfilter : (defs.filter fun m => m.1 ∉ (t ++ [name]).map Scalar.str) =
      (defs.filter fun m => m.1 ∉ t.map Scalar.str).filter fun m => m.1 ≠ .str name := by
    rw [List.filter_filter]
    refine List.filter_congr fun m _ => ?_
    simp [and_comm]
  have hmem : (Scalar.str name, target) ∈ defs.filter fun m => m.1 ∉ t.map Scalar.str := by
    refine List.mem_filter.2 ⟨Members.mem_of_get? hget, ?_⟩
    simpa using hname
  unfold closedCount
  rw [hfilter, List.length_filter_lt_length_iff_exists]
  exact ⟨_, hmem, by simp⟩

section

variable {m : Type → Type} {raise : SchemaError → m α} {walk : Walk m α}

/-- A level as high as there are components that are not open is as good as a higher one. -/
theorem visitWithin_succ (level : Nat) : ∀ t, closedCount defs t ≤ level → ∀ node loc,
    Schema.visitWithin raise walk defs (level + 1) t node loc =
      Schema.visitWithin raise walk defs level t node loc := by
  induction level with
  | zero =>
    intro t hlevel node loc
    rw [Schema.visitWithin, Schema.visitWithin]
    congr 1
    funext ref here
    cases hopen : openReference defs t ref here with
    | error e => rfl
    | ok opened =>
      -- no component is left to be opened
      obtain ⟨-, hname, hget⟩ := openReference_eq_ok_iff.1 hopen
      have := closedCount_push hname hget
      omega
  | succ level ih =>
    intro t hlevel node loc
    rw [Schema.visitWithin, Schema.visitWithin]
    congr 1
    funext ref here
    cases hopen : openReference defs t ref here with
    | error e => rfl
    | ok opened =>
      obtain ⟨-, hname, hget⟩ := openReference_eq_ok_iff.1 hopen
      have := closedCount_push hname hget
      exact ih (t ++ [opened.1]) (by omega) opened.2 here

/-- On any trail, a visit is a walk that visits the components it opens. -/
theorem visitWithin_eq (t : Trail) (node : Value) (loc : Location) :
    Schema.visitWithin raise walk defs defs.length t node loc =
      walk (fun ref here => match openReference defs t ref here with
        | .error e => raise e
        | .ok (name, target) =>
          Schema.visitWithin raise walk defs defs.length (t ++ [name]) target here) node loc := by
  have hlevel : closedCount defs t ≤ defs.length := List.length_filter_le _ _
  rw [← visitWithin_succ defs.length t hlevel]
  rfl

end

/-- What a session makes of a reference: it opens the component, visits it, and closes it again. -/
def openAnd (raise : SchemaError → Session ε α) (visit : Value → Location → Session ε α)
    (defs : Members) : Follow (Session ε) α := fun ref here => do
  match openReference defs (← trail) ref here with
  | .error e => raise e
  | .ok (name, target) => opening name (visit target here)

theorem inlineAt_eq (t : Trail) (node : Value) (loc : Location) :
    (inlineAt defs node loc).runFrom t =
      (expand throw (openAnd throw (inlineAt defs) defs) node loc).runFrom t := by
  refine (keeps_inlineAt t node loc).trans (Eq.symm ?_)
  rw [visitWithin_eq]
  refine (lifts_keeps t).expand (fun e => Keeps.of_throw e) (fun ref here => Keeps.trail ?_) node loc
  cases openReference defs t ref here with
  | error e => exact Keeps.of_throw e
  | ok opened => exact (keeps_inlineAt (t ++ [opened.1]) opened.2 here).opening

theorem sampleAt_eq (t : Trail) (node : Value) (loc : Location) :
    (sampleAt defs node loc).runFrom t =
      (sampleWalk (openAnd (fun e => throw (.schema e)) (sampleAt defs) defs) node loc).runFrom t := by
  refine (keeps_sampleAt t node loc).trans (Eq.symm ?_)
  rw [visitWithin_eq]
  refine (liftsSamples_keeps t).sampleWalk (fun ref here => Keeps.trail ?_) node loc
  cases openReference defs t ref here with
  | error e => exact Keeps.of_throw (Fault.schema e)
  | ok opened => exact (keeps_sampleAt (t ++ [opened.1]) opened.2 here).opening

/-! ## Visits one after the other -/

/-- Sessions that leave the trail as they found it have one after the other the results that they
have on their own. -/
theorem value_runAll {xs : List (Session ε α)} (h : ∀ x ∈ xs, (x.runFrom t).value.2 = t) :
    (runAll xs t).value = xs.map fun x => ((x.runFrom t).value.1, t) := by
  induction xs with
  | nil => rfl
  | cons x rest ih =>
    rw [List.forall_mem_cons] at h
    have hx : (x.runFrom t).value = ((x.runFrom t).value.1, t) := Prod.ext rfl h.1
    rw [runAll, Noted.value_bind, hx, Noted.value_bind, ih h.2]
    rfl

/-- Visits that can share a session. -/
structure Reusable (defs : Members) (raise : SchemaError → Session ε Value)
    (walk : Walk (Session ε) Value) (visit : Value → Location → Session ε Value) : Prop where
  /-- A visit is a walk that visits the components it opens. -/
  visit_eq : ∀ t node loc,
    (visit node loc).runFrom t = (walk (openAnd raise visit defs) node loc).runFrom t
  /-- A visit leaves the trail as it found it. -/
  trail_eq : ∀ t node loc, ((visit node loc).runFrom t).value.2 = t
  /-- Visits one after the other leave the trail empty and have the outcomes of visits in sessions
  of their own. -/
  run_eq : ∀ visits : List (Value × Location),
    (runAll (visits.map fun v => visit v.1 v.2) []).value =
      visits.map fun v => (((visit v.1 v.2).runFrom []).value.1, [])

theorem Reusable.of_keeps {raise : SchemaError → Session ε Value} {walk : Walk (Session ε) Value}
    {visit : Value → Location → Session ε Value}
    (hvisit : ∀ t node loc,
      (visit node loc).runFrom t = (walk (openAnd raise visit defs) node loc).runFrom t)
    (hkeeps : ∀ t node loc, ∃ y, Keeps t (visit node loc) y) : Reusable defs raise walk visit where
  visit_eq := hvisit
  trail_eq := by
    intro t node loc
    obtain ⟨y, hy⟩ := hkeeps t node loc
    rw [hy]
    rfl
  run_eq := by
    intro visits
    rw [value_runAll, List.map_map]
    · rfl
    · intro x hx
      obtain ⟨v, -, rfl⟩ := List.mem_map.1 hx
      obtain ⟨y, hy⟩ := hkeeps [] v.1 v.2
      rw [hy]
      rfl

/-- **A session is as good as new.** The visits of inlining and those of sampling leave the trail as
they find it, on every trail, and so can share a session. In a session of its own, a visit has the
outcome of inlining or sampling without a session. -/
theorem reusable_inlineAt_and_sampleAt (defs : Members) :
    Reusable defs throw (expand throw) (inlineAt defs) ∧
      Reusable defs (fun e => throw (.schema e)) sampleWalk (sampleAt defs) ∧
      ∀ node loc,
        ((inlineAt defs node loc).runFrom []).value.1 = Schema.inlineAt defs node loc ∧
          ((sampleAt defs node loc).runFrom []).value.1 = (Schema.sampleAt defs node loc).outcome := by
  refine ⟨.of_keeps inlineAt_eq fun t node loc => ⟨_, keeps_inlineAt t node loc⟩,
    .of_keeps sampleAt_eq fun t node loc => ⟨_, keeps_sampleAt t node loc⟩, fun node loc => ⟨?_, ?_⟩⟩
  · rw [keeps_inlineAt]
    rfl
  · rw [keeps_sampleAt]
    rfl

end Session

end EndpointAtlas.Schema
