import EndpointAtlas.Json.Reader
import EndpointAtlas.Proofs.Members
import Mathlib.Algebra.Group.Nat.Defs

/-!
# Values that JSON can write

The values of a JSON document: scalars of the types of JSON, without the integers that are too long
to be read back, lists, and mappings whose keys are texts.

1. `Value.isJson` says what these values are, `Value.isJson_map_iff` for mappings.
2. `Json.isJson_of_read?`: what is read from a JSON text is one of them.
-/

namespace EndpointAtlas

/-- Whether a scalar is of a type of JSON. -/
def Scalar.isJson : Scalar → Bool
  | .null | .bool _ | .int _ | .float _ | .str _ => true
  | _ => false

/-- Whether a scalar is no integer with more digits than a JSON text may give it. -/
def Scalar.isShort : Scalar → Bool
  | .int n => (Nat.toDigits 10 n.natAbs).length ≤ Json.maxIntegerDigits
  | _ => true

namespace Value

mutual

/-- Whether a value is one that JSON can write. -/
def isJson : Value → Bool
  | .scalar s => s.isJson && s.isShort
  | .list items => isJsonItems items
  | .map members => isJsonMembers members
  | _ => false

def isJsonItems : List Value → Bool
  | [] => true
  | v :: rest => v.isJson && isJsonItems rest

def isJsonMembers : List (Scalar × Value) → Bool
  | [] => true
  | (.str _, v) :: rest => v.isJson && isJsonMembers rest
  | _ => false

end

theorem isJson_list_iff {items : List Value} :
    isJson (.list items) = true ↔ ∀ v ∈ items, v.isJson = true := by
  rw [isJson]
  induction items with
  | nil => simp [isJsonItems]
  | cons v rest ih => rw [isJsonItems, Bool.and_eq_true, ih, List.forall_mem_cons]

/-- A member of JSON has a text as key and a value of JSON. -/
def IsJsonMember (m : Scalar × Value) : Prop := (∃ s, m.1 = .str s) ∧ m.2.isJson = true

theorem isJson_map_iff {members : Members} :
    isJson (.map members) = true ↔ ∀ m ∈ members, IsJsonMember m := by
  rw [isJson]
  induction members with
  | nil => simp [isJsonMembers]
  | cons m rest ih =>
    obtain ⟨k, v⟩ := m
    cases k with
    | str s => simp [isJsonMembers, IsJsonMember, ih]
    | _ => simp [isJsonMembers, IsJsonMember]

/-- A mapping of JSON has texts as keys and values of JSON. -/
theorem isJson_map {members : Members} (h : isJson (.map members) = true) :
    ∀ m ∈ members, (∃ s, m.1 = .str s) ∧ m.2.isJson = true :=
  isJson_map_iff.1 h

theorem isJson_getD {members : Members} (h : isJson (.map members) = true) (key : String) :
    (members.getD key).isJson = true := by
  unfold Members.getD
  cases hv : members.get? key with
  | none => rfl
  | some v => exact (isJson_map h _ (Members.mem_of_get? hv)).2

/-! ## Members that are put together -/

theorem IsJsonMember.put {members : Members} {m : Scalar × Value} (hm : IsJsonMember m)
    (h : ∀ n ∈ members, IsJsonMember n) : ∀ n ∈ members.put m.1 m.2, IsJsonMember n := by
  induction members with
  | nil =>
    rw [Members.put]
    exact List.forall_mem_singleton.2 hm
  | cons n rest ih =>
    obtain ⟨l, w⟩ := n
    rw [List.forall_mem_cons] at h
    rw [Members.put]
    split
    · exact List.forall_mem_cons.2 ⟨⟨h.1.1, hm.2⟩, h.2⟩
    · exact List.forall_mem_cons.2 ⟨h.1, ih h.2⟩

theorem isJson_ofList {pairs : List (Scalar × Value)} (h : ∀ m ∈ pairs, IsJsonMember m) :
    isJson (.map (Members.ofList pairs)) = true := by
  refine isJson_map_iff.2 (List.foldlRecOn (motive := fun members => ∀ n ∈ members, IsJsonMember n)
    pairs _ (by simp) ?_)
  intro members hmembers m hm
  exact (h m hm).put hmembers

end Value

/-! ## Reading -/

namespace Json

theorem foldl_lt {base : Nat} {digits : List Nat} (h : ∀ d ∈ digits, d < base) (n : Nat) :
    digits.foldl (fun n d => n * base + d) n < (n + 1) * base ^ digits.length := by
  induction digits generalizing n with
  | nil => exact Nat.lt_of_lt_of_eq (Nat.lt_succ_self n) (Nat.mul_one _).symm
  | cons d rest ih =>
    rw [List.forall_mem_cons] at h
    have hstep : n * base + d + 1 ≤ (n + 1) * base := by
      rw [Nat.succ_mul]
      have := h.1
      omega
    calc rest.foldl (fun n d => n * base + d) (n * base + d)
        < (n * base + d + 1) * base ^ rest.length := ih h.2 _
      _ ≤ (n + 1) * base * base ^ rest.length := Nat.mul_le_mul_right _ hstep
      _ = (n + 1) * base ^ (rest.length + 1) := by rw [Nat.pow_succ', Nat.mul_assoc]

/-- Digits of a base write a number below the power of the base for as many digits. -/
theorem ofDigits_lt_pow {base : Nat} {digits : List Nat} (h : ∀ d ∈ digits, d < base) :
    ofDigits base digits < base ^ digits.length := by
  have hlt := foldl_lt h 0
  rwa [Nat.zero_add, Nat.one_mul] at hlt

theorem decimalValue_lt_pow {digits : List Char} (h : ∀ c ∈ digits, c.isDigit = true) :
    decimalValue digits < 10 ^ digits.length := by
  have hdigits : ∀ d ∈ digits.map fun c => c.toNat - '0'.toNat, d < 10 := by
    intro d hd
    obtain ⟨c, hc, rfl⟩ := List.mem_map.1 hd
    have hnine : c.toNat ≤ 57 := (Char.isDigit_iff_toNat.1 (h c hc)).2
    exact Nat.lt_of_le_of_lt (Nat.sub_le_sub_right hnine _) (by decide)
  have hlt := ofDigits_lt_pow hdigits
  rwa [List.length_map] at hlt

theorem isDigit_of_mem_readWhole (cs : List Char) :
    ∀ c ∈ (readWhole cs).1, c.isDigit = true := by
  unfold readWhole
  split
  · simp
  · exact List.all_eq_true.1 List.all_takeWhile

/-- An integer of so many digits is short. -/
theorem isShort_of_natAbs_lt {n : Int} {length : Nat} (hlength : 0 < length)
    (hmax : length ≤ maxIntegerDigits) (h : n.natAbs < 10 ^ length) :
    (Scalar.int n).isShort = true := by
  unfold Scalar.isShort
  rw [decide_eq_true_iff]
  exact Nat.le_trans ((Nat.length_toDigits_le_iff (by decide) hlength).2 h) hmax

theorem isJson_of_readMagnitude {negative : Bool} {cs rest : List Char} {v : Value}
    (h : readMagnitude negative cs = some (v, rest)) : v.isJson = true := by
  have hdigits := isDigit_of_mem_readWhole cs
  unfold readMagnitude at h
  cases hwhole : readWhole cs with
  | mk whole behind =>
    rw [hwhole] at h hdigits
    dsimp only at h hdigits
    split at h
    · cases h
    · next hempty =>
      split at h
      · split at h
        · cases h
        · next hmax =>
          cases h
          have hlength : 0 < whole.length := by
            rw [List.length_pos_iff]
            rintro rfl
            exact hempty rfl
          refine isShort_of_natAbs_lt hlength (Nat.not_lt.1 hmax) ?_
          have hlt := decimalValue_lt_pow hdigits
          split <;> simpa using hlt
      · cases h
        rfl

theorem eq_of_readWord {word : String} {v w : Value} {cs rest : List Char}
    (h : readWord word v cs = some (w, rest)) : w = v := by
  unfold readWord at h
  dsimp only at h
  split at h
  · cases h
    rfl
  · cases h

theorem isJson_of_readAtom {cs rest : List Char} {v : Value} (h : readAtom cs = some (v, rest)) :
    v.isJson = true := by
  unfold readAtom at h
  split at h
  case h_7 | h_8 => exact isJson_of_readMagnitude h
  all_goals
    rw [eq_of_readWord h]
    rfl

section

open Value (IsJsonMember isJson_list_iff isJson_map_iff isJson_ofList)

variable {room : Nat} (hvalue : ∀ cs v rest, readValue room cs = some (v, rest) → v.isJson = true)
  (hitems : ∀ cs items rest, readItems room cs = some (items, rest) → ∀ v ∈ items, v.isJson = true)
  (hpairs : ∀ cs pairs rest, readPairs room cs = some (pairs, rest) → ∀ m ∈ pairs, IsJsonMember m)

include hitems hpairs in
theorem isJson_of_readValue_succ {cs rest : List Char} {v : Value}
    (h : readValue (room + 1) cs = some (v, rest)) : v.isJson = true := by
  unfold readValue at h
  split at h
  · obtain ⟨text, -, h⟩ := Option.bind_eq_some_iff.1 h
    cases h
    rfl
  · split at h
    · cases h
      rfl
    · obtain ⟨⟨items, behind⟩, hread, h⟩ := Option.bind_eq_some_iff.1 h
      cases h
      exact isJson_list_iff.2 (hitems _ _ _ hread)
  · split at h
    · cases h
      rfl
    · obtain ⟨⟨pairs, behind⟩, hread, h⟩ := Option.bind_eq_some_iff.1 h
      cases h
      exact isJson_ofList (hpairs _ _ _ hread)
  · exact isJson_of_readAtom h

include hvalue hitems in
theorem isJson_of_readItems_succ {cs rest : List Char} {items : List Value}
    (h : readItems (room + 1) cs = some (items, rest)) : ∀ v ∈ items, v.isJson = true := by
  unfold readItems at h
  obtain ⟨⟨v, behind⟩, hv, h⟩ := Option.bind_eq_some_iff.1 h
  dsimp only at h
  split at h
  · cases h
    exact List.forall_mem_singleton.2 (hvalue _ _ _ hv)
  · obtain ⟨⟨more, behind⟩, hmore, h⟩ := Option.bind_eq_some_iff.1 h
    cases h
    exact List.forall_mem_cons.2 ⟨hvalue _ _ _ hv, hitems _ _ _ hmore⟩
  · cases h

include hvalue hpairs in
theorem isJsonMember_of_readPairs_succ {cs rest : List Char} {pairs : List (Scalar × Value)}
    (h : readPairs (room + 1) cs = some (pairs, rest)) : ∀ m ∈ pairs, IsJsonMember m := by
  unfold readPairs at h
  split at h
  · obtain ⟨⟨key, behind⟩, -, h⟩ := Option.bind_eq_some_iff.1 h
    dsimp only at h
    split at h
    · obtain ⟨⟨v, behind⟩, hv, h⟩ := Option.bind_eq_some_iff.1 h
      have hmember : IsJsonMember (.str key, v) := ⟨⟨key, rfl⟩, hvalue _ _ _ hv⟩
      dsimp only at h
      split at h
      · cases h
        exact List.forall_mem_singleton.2 hmember
      · obtain ⟨⟨more, behind⟩, hmore, h⟩ := Option.bind_eq_some_iff.1 h
        cases h
        exact List.forall_mem_cons.2 ⟨hmember, hpairs _ _ _ hmore⟩
      · cases h
    · cases h
  · cases h

end

/-- With any room, values, items and members that are read are of JSON. -/
theorem isJson_of_read (room : Nat) :
    (∀ cs v rest, readValue room cs = some (v, rest) → v.isJson = true) ∧
      (∀ cs items rest, readItems room cs = some (items, rest) → ∀ v ∈ items, v.isJson = true) ∧
      ∀ cs pairs rest, readPairs room cs = some (pairs, rest) →
        ∀ m ∈ pairs, Value.IsJsonMember m := by
  induction room with
  | zero => exact ⟨nofun, nofun, nofun⟩
  | succ room ih =>
    obtain ⟨hvalue, hitems, hpairs⟩ := ih
    exact ⟨fun _ _ _ => isJson_of_readValue_succ hitems hpairs,
      fun _ _ _ => isJson_of_readItems_succ hvalue hitems,
      fun _ _ _ => isJsonMember_of_readPairs_succ hvalue hpairs⟩

/-- **What is read is of JSON.** A JSON text is read as a value that JSON can write. -/
theorem isJson_of_read? {cs : List Char} {v : Value} (h : read? cs = some v) : v.isJson = true := by
  unfold read? at h
  obtain ⟨⟨w, rest⟩, hw, h⟩ := Option.bind_eq_some_iff.1 h
  dsimp only at h
  split at h
  · cases h
    exact (isJson_of_read _).1 _ _ _ hw
  · cases h

end Json

end EndpointAtlas
