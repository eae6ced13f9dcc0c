/-!
# Log lines

Log lines are data that a computation returns beside its result. `Noted` pairs a value with the
lines written on the way, and `Logged` is a computation that may also fail; the lines written
before a failure stay.

`Logged.outcome` forgets the lines. It commutes with `pure`, `>>=`, `throw` and `tryCatch`, so
that a statement about outcomes never mentions the log.
-/

namespace EndpointAtlas

namespace Log

/-- How important a line is. -/
inductive Level where
  | debug
  | warning
  deriving DecidableEq, Repr

/-- The name of a level at the start of a line. -/
def Level.label : Level → String
  | .debug => "DEBUG"
  | .warning => "WARNING"

/-- A log line. -/
structure Line where
  level : Level
  logger : String
  message : String
  deriving DecidableEq, Repr

/-- The line as it is printed. -/
def Line.text (l : Line) : String := l.level.label ++ " " ++ l.logger ++ ": " ++ l.message

end Log

/-- A value with the lines written on the way to it. -/
structure Noted (α : Type) where
  value : α
  lines : List Log.Line
  deriving Repr

instance : Monad Noted where
  pure a := ⟨a, []⟩
  bind x f := ⟨(f x.value).value, x.lines ++ (f x.value).lines⟩

namespace Noted

@[simp] theorem value_pure {α : Type} (a : α) : (pure a : Noted α).value = a := rfl

@[simp] theorem lines_pure {α : Type} (a : α) : (pure a : Noted α).lines = [] := rfl

@[simp] theorem value_bind {α β : Type} (x : Noted α) (f : α → Noted β) :
    (x >>= f).value = (f x.value).value := rfl

@[simp] theorem lines_bind {α β : Type} (x : Noted α) (f : α → Noted β) :
    (x >>= f).lines = x.lines ++ (f x.value).lines := rfl

end Noted

instance : LawfulMonad Noted := LawfulMonad.mk' _
  (fun _ => by simp [Functor.map])
  (fun _ _ => by simp [bind, pure])
  (fun _ _ _ => by simp [bind, List.append_assoc])

/-- Computations that can write log lines. -/
class MonadLog (m : Type → Type) where
  write : Log.Line → m Unit

instance : MonadLog Noted := ⟨fun line => ⟨(), [line]⟩⟩

instance {m : Type → Type} [Monad m] [MonadLog m] {ε : Type} : MonadLog (ExceptT ε m) :=
  ⟨fun line => ExceptT.lift (MonadLog.write line)⟩

instance {m : Type → Type} [Monad m] [MonadLog m] {σ : Type} : MonadLog (StateT σ m) :=
  ⟨fun line => StateT.lift (MonadLog.write line)⟩

/-- A computation that may fail and writes log lines. -/
abbrev Logged (ε : Type) := ExceptT ε Noted

namespace Logged

variable {ε α β : Type}

/-- The result without the lines. -/
def outcome (x : Logged ε α) : Except ε α := x.run.value

/-- The lines, also those of a computation that failed. -/
def lines (x : Logged ε α) : List Log.Line := x.run.lines

/-- A computation that writes nothing. -/
def ofExcept (x : Except ε α) : Logged ε α := ExceptT.mk (pure x)

@[simp] theorem outcome_pure (a : α) : outcome (pure a : Logged ε α) = .ok a := rfl

@[simp] theorem outcome_throw (e : ε) : outcome (throw e : Logged ε α) = .error e := rfl

@[simp] theorem outcome_ofExcept (x : Except ε α) : outcome (ofExcept x) = x := rfl

@[simp] theorem outcome_write (line : Log.Line) :
    outcome (MonadLog.write line : Logged ε Unit) = .ok () := rfl

@[simp] theorem outcome_bind (x : Logged ε α) (f : α → Logged ε β) :
    outcome (x >>= f) = outcome x >>= fun a => outcome (f a) := by
  simp only [outcome, ExceptT.run_bind, Noted.value_bind]
  cases h : x.run.value <;> rfl

@[simp] theorem outcome_tryCatch (x : Logged ε α) (handle : ε → Logged ε α) :
    outcome (tryCatch x handle) = tryCatch (outcome x) fun e => outcome (handle e) := by
  change (ExceptT.tryCatch x handle).run.value = _
  simp only [ExceptT.tryCatch, ExceptT.run_mk, Noted.value_bind, outcome]
  change _ = Except.tryCatch _ _
  cases h : x.run.value with
  | ok a => rw [show x.value = .ok a from h]; rfl
  | error e => rw [show x.value = .error e from h]; rfl

end Logged

end EndpointAtlas
