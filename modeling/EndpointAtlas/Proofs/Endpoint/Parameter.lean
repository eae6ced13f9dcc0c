import EndpointAtlas.Endpoint.Parameter
import EndpointAtlas.Proofs.Checked
import EndpointAtlas.Proofs.Unrecorded
import EndpointAtlas.Schema.Sample

/-!
# When parameters can be read

Parameters are told apart by their names and places as keys. A parameter whose name or place is a
list or a mapping has no identity (`Unkeyed`), and then the parameters cannot be merged. All other
faults of parameters are put on record.

References among the entries of a list are passed over. What is `described` by the others is read
one by one (`outcome_ofValues_eq_ok_iff`).
-/

namespace EndpointAtlas

/-- A computation fails just when a condition holds, and then because of a value of a wrong type. -/
def FailsIff {α : Type} (x : Except Fault α) (condition : Prop) : Prop :=
  match x with
  | .ok _ => ¬ condition
  | .error fault => condition ∧ ∃ v, fault = .mistyped v

namespace FailsIff

variable {α β : Type} {x : Except Fault α} {p q : Prop} {fault : Fault}

theorem bind {f : α → Except Fault β} (hx : FailsIff x p) (hf : ∀ a, x = .ok a → FailsIff (f a) q) :
    FailsIff (x >>= f) (p ∨ q) := by
  cases x with
  | error fault => exact ⟨.inl hx.1, hx.2⟩
  | ok a =>
    have ha := hf a rfl
    change FailsIff (f a) (p ∨ q)
    rwa [or_iff_right (show ¬ p from hx)]

theorem bind_ok (hx : FailsIff x p) (f : α → β) : FailsIff (x >>= fun a => .ok (f a)) p := by
  cases x with
  | error fault => exact hx
  | ok a => exact hx

theorem congr (hx : FailsIff x p) (h : p ↔ q) : FailsIff x q := propext h ▸ hx

theorem mistyped (hx : FailsIff x p) (h : Unrecorded x fault) : p ∧ ∃ v, fault = .mistyped v := by
  obtain ⟨rfl, -⟩ := h
  exact hx

theorem exists_unrecorded_iff (hx : FailsIff x p) : (∃ fault, Unrecorded x fault) ↔ p := by
  refine ⟨fun ⟨_, h⟩ => (hx.mistyped h).1, fun hp => ?_⟩
  cases x with
  | ok a => exact absurd hp hx
  | error fault =>
    obtain ⟨-, v, rfl⟩ := hx
    exact ⟨_, rfl, rfl⟩

end FailsIff

namespace Parameter

open Schema (isKey)

/-- A parameter whose name or place is no key. -/
def Unkeyed (p : Value) : Prop :=
  ∃ fields : Members, p = .map fields ∧ fields.get? Schema.referenceKeyword = none ∧
    (isKey (fields.getD "name") = false ∨ isKey (fields.getD "in") = false)

theorem asKey_failsIff (v : Value) : FailsIff (asKey v) (isKey v = false) := by
  cases v with
  | scalar s => exact Bool.noConfusion
  | _ => exact ⟨rfl, _, rfl⟩

theorem identity?_failsIff (p : Value) : FailsIff (identity? p) (Unkeyed p) := by
  cases p with
  | map fields =>
    unfold identity?
    dsimp only
    split
    · next hhas =>
      rintro ⟨_, heq, hnone, -⟩
      cases heq
      rw [Members.has, hnone] at hhas
      cases hhas
    · next hhas =>
      have href : Members.get? fields Schema.referenceKeyword = none :=
        Option.not_isSome_iff_eq_none.1 hhas
      refine FailsIff.congr ((asKey_failsIff _).bind fun name _ => (asKey_failsIff _).bind_ok _) ?_
      constructor
      · exact fun h => ⟨fields, rfl, href, h⟩
      · rintro ⟨_, heq, -, h⟩
        cases heq
        exact h
  | _ =>
    rintro ⟨_, heq, -⟩
    cases heq

theorem identities_failsIff (ps : List Value) : FailsIff (identities ps) (∃ p ∈ ps, Unkeyed p) := by
  induction ps with
  | nil => rintro ⟨p, hp, -⟩; cases hp
  | cons p rest ih =>
    rw [identities]
    refine FailsIff.congr ((identity?_failsIff p).bind (q := ∃ p ∈ rest, Unkeyed p) ?_)
      (by simp)
    rintro (_ | id) -
    · exact ih
    · exact ih.bind_ok _

theorem without_failsIff (taken : List Identity) (ps : List Value) :
    FailsIff (without taken ps) (∃ p ∈ ps, Unkeyed p) := by
  induction ps with
  | nil => rintro ⟨p, hp, -⟩; cases hp
  | cons p rest ih =>
    have hkept : FailsIff (do return p :: (← without taken rest)) (∃ p ∈ rest, Unkeyed p) :=
      ih.bind_ok _
    rw [without]
    refine FailsIff.congr ((identity?_failsIff p).bind (q := ∃ p ∈ rest, Unkeyed p) ?_)
      (by simp)
    rintro (_ | id) -
    · exact hkept
    · dsimp only
      split
      · exact ih
      · exact hkept

/-- Parameters cannot be merged just when one of them has no identity. -/
theorem merge_failsIff (shared own : List Value) :
    FailsIff (merge shared own) (∃ p ∈ own ++ shared, Unkeyed p) := by
  rw [merge]
  refine FailsIff.congr ((identities_failsIff own).bind fun taken _ =>
    (without_failsIff taken shared).bind_ok _) ?_
  simp only [List.mem_append, or_and_right, exists_or]

/-! ## Reading the entries of a list -/

/-- The fields of an entry that describes a parameter; none for what is a reference or no parameter
at all. -/
def described? : Value → Option Members
  | .map fields => if Members.has fields Schema.referenceKeyword then none else some fields
  | _ => none

/-- The fields of all entries of a list that describe a parameter. -/
def described (ps : List Value) : List Members := ps.filterMap described?

theorem described_cons_reference {fields : Members} {ref : Value}
    (h : fields.get? Schema.referenceKeyword = some ref) (ps : List Value) :
    described (.map fields :: ps) = described ps :=
  List.filterMap_cons_none (by simp [described?, Members.has, h])

theorem described_cons {fields : Members} (h : fields.get? Schema.referenceKeyword = none)
    (ps : List Value) : described (.map fields :: ps) = fields :: described ps :=
  List.filterMap_cons_some (by simp [described?, Members.has, h])

/-- The fields describe a parameter. -/
structure Describes (defs fields : Members) (p : Parameter) : Prop where
  schema : inlinedSchema defs fields = .ok (.map p.schema)
  name : Check.text (fields.getD "name") = .ok p.name
  place : Check.place ((fields.get? "in").getD (.str "query")) = .ok p.place
  required : (fields.getD "required").isTruthy = p.required
  sample : declaredExample fields = p.sample
  refName : Schema.referencedName? (declaredSchema fields) = p.refName
  description : Check.text ((fields.get? "description").getD (.str "")) = .ok p.description

theorem describes_of_ofFields {defs fields : Members} {p : Parameter}
    (h : ofFields defs fields = .ok p) : Describes defs fields p := by
  obtain ⟨v, hinlined, hchecked⟩ := Outcome.bind_eq_ok_iff.1 h
  -- from the last field to the first
  obtain ⟨_, _, hrefName, hdescription, rfl⟩ :=
    Checked.seq_eq_ok_iff.1 (Checked.toExcept_eq_ok_iff.1 hchecked)
  obtain ⟨_, _, hsample, href, rfl⟩ := Checked.seq_eq_ok_iff.1 hrefName
  obtain ⟨_, _, hfields, hsampled, rfl⟩ := Checked.seq_eq_ok_iff.1 hsample
  obtain ⟨_, schema, hrequired, hschema, rfl⟩ := Checked.seq_eq_ok_iff.1 hfields
  obtain ⟨_, _, hplaced, hneeded, rfl⟩ := Checked.seq_eq_ok_iff.1 hrequired
  obtain ⟨_, place, hnamed, hplace, rfl⟩ := Checked.seq_eq_ok_iff.1 hplaced
  obtain ⟨name, hname, rfl⟩ := Checked.map_eq_ok_iff.1 hnamed
  cases href
  cases hsampled
  cases hneeded
  rw [Checked.inField_eq_ok_iff] at hname hplace hschema hdescription
  rw [Check.mapping_eq_ok_iff] at hschema
  exact ⟨hschema ▸ hinlined, hname, hplace, rfl, rfl, rfl, hdescription⟩

theorem ofFields_eq_ok_iff {defs fields : Members} {p : Parameter} :
    ofFields defs fields = .ok p ↔ Describes defs fields p := by
  refine ⟨describes_of_ofFields, fun h => ?_⟩
  simp only [ofFields, h.schema, h.name, h.place, h.required, h.sample, h.refName, h.description]
  rfl

theorem outcome_ofValuesFrom_eq_ok_iff {defs : Members} {i : Nat} {ps : List Value}
    {params : List Parameter} :
    (ofValuesFrom defs i ps).outcome = .ok params ↔
      (∀ p ∈ ps, ∃ fields, p = .map fields) ∧
        List.Forall₂ (Describes defs) (described ps) params := by
  induction ps generalizing i params with
  | nil => simp [ofValuesFrom, described, eq_comm]
  | cons v rest ih =>
    rw [List.forall_mem_cons]
    cases v with
    | map fields =>
      rw [ofValuesFrom]
      cases href : Members.get? fields Schema.referenceKeyword with
      | some ref =>
        simp [described_cons_reference href, Outcome.bind_eq_ok_iff, ih]
      | none =>
        simp only [described_cons href, List.forall₂_cons_left_iff, Logged.outcome_bind,
          Logged.outcome_ofExcept, Outcome.bind_eq_ok_iff, ofFields_eq_ok_iff, ih]
        constructor
        · rintro ⟨p, hp, others, ⟨hmaps, hothers⟩, heq⟩
          cases heq
          exact ⟨⟨⟨fields, rfl⟩, hmaps⟩, p, others, hp, hothers, rfl⟩
        · rintro ⟨⟨-, hmaps⟩, p, others, hp, hothers, rfl⟩
          exact ⟨p, hp, others, ⟨hmaps, hothers⟩, rfl⟩
    | _ => simp [ofValuesFrom]

/-- **The parameters of a list** are what its entries describe, references apart, and all of its
entries are mappings. -/
theorem outcome_ofValues_eq_ok_iff {defs : Members} {ps : List Value} {params : List Parameter} :
    (ofValues defs ps).outcome = .ok params ↔
      (∀ p ∈ ps, ∃ fields, p = .map fields) ∧
        List.Forall₂ (Describes defs) (described ps) params :=
  outcome_ofValuesFrom_eq_ok_iff

/-- The faults of parameters are put on record. -/
theorem not_unrecorded_ofValues (defs : Members) (ps : List Value) (fault : Fault) :
    ¬ Unrecorded (ofValues defs ps).outcome fault := by
  suffices h : ∀ i, ¬ Unrecorded (ofValuesFrom defs i ps).outcome fault from h 0
  induction ps with
  | nil => intro i; exact (Unrecorded.ok_iff _).1
  | cons p rest ih =>
    intro i
    cases p with
    | map fields =>
      rw [ofValuesFrom]
      cases Members.get? fields Schema.referenceKeyword with
      | some ref => simpa [Unrecorded.bind_iff] using ih (i + 1)
      | none =>
        simp [Unrecorded.bind_iff, Unrecorded.map_iff, ofFields, inlinedSchema, ih]
    | _ => exact (Unrecorded.schema_iff _).1

end Parameter

end EndpointAtlas
