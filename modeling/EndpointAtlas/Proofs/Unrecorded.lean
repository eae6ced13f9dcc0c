import EndpointAtlas.Endpoint.Check
import EndpointAtlas.Proofs.Outcome

/-!
# Faults that are not put on record

A fault of an operation that is put on record is the end of that operation only. `Unrecorded` says
that a computation ends with a fault of another kind.
-/

namespace EndpointAtlas

variable {α β : Type}

/-- A computation ends with a fault that is not put on record. -/
def Unrecorded (x : Except Fault α) (fault : Fault) : Prop :=
  x = .error fault ∧ fault.report? = none

namespace Unrecorded

variable {x : Except Fault α} {f : α → Except Fault β} {fault : Fault}

theorem bind_iff : Unrecorded (x >>= f) fault ↔
    Unrecorded x fault ∨ ∃ a, x = .ok a ∧ Unrecorded (f a) fault := by
  cases x <;> simp [Unrecorded, bind, Except.bind]

theorem map_iff {f : α → β} : Unrecorded (f <$> x) fault ↔ Unrecorded x fault := by
  cases x <;> simp [Unrecorded, Functor.map, Except.map]

@[simp] theorem ok_iff (a : α) : Unrecorded (.ok a) fault ↔ False := by simp [Unrecorded]

@[simp] theorem schema_iff (e : SchemaError) :
    Unrecorded (.error (.schema e) : Except Fault α) fault ↔ False := by
  simp only [Unrecorded, Except.error.injEq, iff_false]
  rintro ⟨rfl, h⟩
  cases h

/-- The faults of a computation that gives rise to schema errors only are put on record. -/
@[simp] theorem mapError_iff (x : Except SchemaError α) :
    Unrecorded (x.mapError .schema) fault ↔ False := by
  cases x with
  | ok a => exact ok_iff a
  | error e => exact schema_iff e

/-- Problems of a record are put on record. -/
@[simp] theorem toExcept_iff (type : RecordType) (x : Checked α) :
    Unrecorded (x.toExcept type) fault ↔ False := by
  cases x with
  | ok a => exact ok_iff a
  | failed es =>
    simp only [Unrecorded, Checked.toExcept, Except.error.injEq, iff_false]
    rintro ⟨rfl, h⟩
    cases h

end Unrecorded

end EndpointAtlas
