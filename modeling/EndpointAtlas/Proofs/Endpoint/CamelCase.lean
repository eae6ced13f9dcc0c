import EndpointAtlas.Endpoint.Name
import Mathlib.Data.List.Infix

/-!
# Joints of names

A joint of a name is an underscore with a lower-case letter behind it. A name falls into pieces at
its joints, in one way only (`Pieces.divides_iff`). In camel case the pieces stand side by side, each
but the first with its first letter in upper case (`camelChars_eq_camel`). That leaves no joint
(`not_hasJoint_camelChars`), and a name without joints is in camel case as it is
(`camelChars_eq_self_iff`).
-/

namespace EndpointAtlas

variable {a c : Char} {cs : List Char}

/-! ## Joints -/

/-- Whether a lower-case letter stands first. -/
def startsLower (cs : List Char) : Bool := cs.head?.any isLowerLetter

@[simp] theorem startsLower_cons : startsLower (c :: cs) = isLowerLetter c := rfl

/-- Somewhere a lower-case letter stands behind an underscore. -/
def HasJoint (cs : List Char) : Prop := ∃ c, isLowerLetter c = true ∧ ['_', c] <:+: cs

theorem not_hasJoint_nil : ¬ HasJoint [] := by
  rintro ⟨c, -, h⟩
  cases List.infix_nil.1 h

theorem hasJoint_cons_iff :
    HasJoint (a :: cs) ↔ (a = '_' ∧ startsLower cs = true) ∨ HasJoint cs := by
  unfold HasJoint
  simp only [List.infix_cons_iff, List.cons_prefix_cons, and_or_left, exists_or]
  refine or_congr_left ?_
  constructor
  · rintro ⟨c, hc, rfl, rest, rfl⟩
    exact ⟨rfl, hc⟩
  · rintro ⟨rfl, hlower⟩
    cases cs with
    | nil => cases hlower
    | cons c rest => exact ⟨c, hlower, rfl, rest, rfl⟩

/-- A letter in upper case makes no joint, whatever it stands behind or in front of. -/
theorem toUpper_of_isLowerLetter (h : isLowerLetter c = true) :
    isLowerLetter c.toUpper = false ∧ c.toUpper ≠ '_' := by
  have hall : ∀ n ∈ List.range' 97 26,
      isLowerLetter (Char.ofNat n).toUpper = false ∧ (Char.ofNat n).toUpper ≠ '_' := by decide
  obtain ⟨hlow, hhigh⟩ : 'a' ≤ c ∧ c ≤ 'z' := by simpa [isLowerLetter] using h
  have hmem : c.toNat ∈ List.range' 97 26 :=
    List.mem_range'_1.2 ⟨hlow, Nat.lt_succ_of_le hhigh⟩
  simpa only [Char.ofNat_toNat] using hall c.toNat hmem

theorem ne_underscore_of_isLowerLetter (h : isLowerLetter c = true) : c ≠ '_' := by
  rintro rfl
  cases h

/-! ## Pieces -/

/-- The parts of a name: the first one, and those that underscores are dropped in front of. -/
structure Pieces where
  first : List Char
  further : List (List Char)
  deriving DecidableEq, Repr

/-- A piece with its first letter in upper case. -/
def capitalized : List Char → List Char
  | [] => []
  | c :: rest => c.toUpper :: rest

namespace Pieces

/-- The pieces with underscores between them. -/
def joined (p : Pieces) : List Char := p.first ++ p.further.flatMap ('_' :: ·)

/-- The pieces side by side, all but the first with their first letter in upper case. -/
def camel (p : Pieces) : List Char := p.first ++ p.further.flatMap capitalized

/-- Pieces divide a name at its joints: there is a joint between any two, and none inside. -/
structure Divides (p : Pieces) (cs : List Char) : Prop where
  joined : p.joined = cs
  starts : ∀ piece ∈ p.further, startsLower piece = true
  whole : ∀ piece ∈ p.first :: p.further, ¬ HasJoint piece

/-- The pieces with a character in front of the first. -/
def push (a : Char) (p : Pieces) : Pieces := ⟨a :: p.first, p.further⟩

/-- The pieces behind an empty one. -/
def opened (p : Pieces) : Pieces := ⟨[], p.first :: p.further⟩

/-- The pieces of a name. -/
def of : List Char → Pieces
  | [] => ⟨[], []⟩
  | a :: rest => if a = '_' ∧ startsLower rest then (of rest).opened else (of rest).push a

theorem of_cons_of_joint (h : a = '_' ∧ startsLower cs = true) : of (a :: cs) = (of cs).opened :=
  if_pos h

theorem of_cons_of_not_joint (h : ¬ (a = '_' ∧ startsLower cs = true)) :
    of (a :: cs) = (of cs).push a :=
  if_neg h

variable {p q : Pieces}

/-- Behind the first piece there is an underscore or nothing. -/
theorem startsLower_joined : startsLower p.joined = startsLower p.first := by
  obtain ⟨first, further⟩ := p
  cases first with
  | cons c rest => rfl
  | nil => cases further <;> rfl

theorem divides_push_iff :
    (p.push a).Divides (a :: cs) ↔ p.Divides cs ∧ ¬ (a = '_' ∧ startsLower cs = true) := by
  constructor
  · rintro ⟨hjoined, hstarts, hwhole⟩
    have hcs : p.joined = cs := (List.cons.inj hjoined).2
    obtain ⟨hfirst, hfurther⟩ := List.forall_mem_cons.1 hwhole
    obtain ⟨hjoint, hfirst⟩ := not_or.1 (mt hasJoint_cons_iff.2 hfirst)
    rw [← startsLower_joined, hcs] at hjoint
    exact ⟨⟨hcs, hstarts, List.forall_mem_cons.2 ⟨hfirst, hfurther⟩⟩, hjoint⟩
  · rintro ⟨⟨hjoined, hstarts, hwhole⟩, hjoint⟩
    obtain ⟨hfirst, hfurther⟩ := List.forall_mem_cons.1 hwhole
    rw [← hjoined, startsLower_joined] at hjoint
    refine ⟨congrArg (a :: ·) hjoined, hstarts, List.forall_mem_cons.2 ⟨?_, hfurther⟩⟩
    exact mt hasJoint_cons_iff.1 (not_or.2 ⟨hjoint, hfirst⟩)

theorem divides_opened_iff :
    p.opened.Divides ('_' :: cs) ↔ p.Divides cs ∧ startsLower cs = true := by
  constructor
  · rintro ⟨hjoined, hstarts, hwhole⟩
    have hcs : p.joined = cs := (List.cons.inj hjoined).2
    obtain ⟨hfirst, hfurther⟩ := List.forall_mem_cons.1 hstarts
    rw [← hcs, startsLower_joined]
    exact ⟨⟨rfl, hfurther, (List.forall_mem_cons.1 hwhole).2⟩, hfirst⟩
  · rintro ⟨⟨rfl, hstarts, hwhole⟩, hlower⟩
    rw [startsLower_joined] at hlower
    exact ⟨rfl, List.forall_mem_cons.2 ⟨hlower, hstarts⟩,
      List.forall_mem_cons.2 ⟨not_hasJoint_nil, hwhole⟩⟩

/-- The first character of a name is in the first piece, or it is an underscore in front of the
second. -/
theorem Divides.cases_cons (h : q.Divides (a :: cs)) :
    (∃ p, q = push a p) ∨ a = '_' ∧ ∃ p, q = opened p := by
  obtain ⟨first, further⟩ := q
  cases first with
  | cons c rest =>
    obtain rfl : c = a := (List.cons.inj h.joined).1
    exact .inl ⟨⟨rest, further⟩, rfl⟩
  | nil =>
    cases further with
    | nil => cases h.joined
    | cons piece more =>
      obtain rfl : '_' = a := (List.cons.inj h.joined).1
      exact .inr ⟨rfl, ⟨piece, more⟩, rfl⟩

/-- **A name falls into pieces in one way only.** -/
theorem divides_iff : q.Divides cs ↔ q = of cs := by
  induction cs generalizing q with
  | nil =>
    constructor
    · rintro ⟨hjoined, -, -⟩
      obtain ⟨first, further⟩ := q
      obtain ⟨rfl, hfurther⟩ := List.append_eq_nil_iff.1 hjoined
      cases further with
      | nil => rfl
      | cons piece more => cases hfurther
    · rintro rfl
      exact ⟨rfl, List.forall_mem_nil _, List.forall_mem_singleton.2 not_hasJoint_nil⟩
  | cons a cs ih =>
    constructor
    · intro h
      rcases h.cases_cons with ⟨p, rfl⟩ | ⟨rfl, p, rfl⟩
      · obtain ⟨hp, hjoint⟩ := divides_push_iff.1 h
        rw [of_cons_of_not_joint hjoint, ← ih.1 hp]
      · obtain ⟨hp, hlower⟩ := divides_opened_iff.1 h
        rw [of_cons_of_joint ⟨rfl, hlower⟩, ← ih.1 hp]
    · rintro rfl
      by_cases hjoint : a = '_' ∧ startsLower cs = true
      · rw [of_cons_of_joint hjoint]
        obtain ⟨rfl, hlower⟩ := hjoint
        exact divides_opened_iff.2 ⟨ih.2 rfl, hlower⟩
      · rw [of_cons_of_not_joint hjoint]
        exact divides_push_iff.2 ⟨ih.2 rfl, hjoint⟩

end Pieces

/-! ## Camel case -/

theorem camelChars_eq_camel (cs : List Char) : camelChars cs = (Pieces.of cs).camel := by
  induction cs using camelChars.induct with
  | case1 c rest hlower ih =>
    have hjoint : '_' = '_' ∧ startsLower (c :: rest) = true := ⟨rfl, hlower⟩
    rw [camelChars, if_pos hlower, ih, Pieces.of_cons_of_joint hjoint,
      Pieces.of_cons_of_not_joint fun h => ne_underscore_of_isLowerLetter hlower h.1]
    rfl
  | case2 c rest hlower ih =>
    have hjoint : ¬ ('_' = '_' ∧ startsLower (c :: rest) = true) := fun h => hlower h.2
    rw [camelChars, if_neg hlower, ih, Pieces.of_cons_of_not_joint hjoint]
    rfl
  | case3 c rest hcons ih =>
    have hjoint : ¬ (c = '_' ∧ startsLower rest = true) := by
      rintro ⟨rfl, hlower⟩
      cases rest with
      | nil => cases hlower
      | cons b rest => exact hcons b rest rfl rfl
    rw [camelChars.eq_2 _ _ hcons, ih, Pieces.of_cons_of_not_joint hjoint]
    rfl
  | case4 => rfl

theorem startsLower_of_camelChars (h : startsLower (camelChars cs) = true) :
    startsLower cs = true := by
  fun_cases camelChars cs with
  | case1 c rest hlower =>
    rw [camelChars, if_pos hlower, startsLower_cons, (toUpper_of_isLowerLetter hlower).1] at h
    cases h
  | case2 c rest hlower =>
    rw [camelChars, if_neg hlower] at h
    cases h
  | case3 c rest hcons =>
    rw [camelChars.eq_2 _ _ hcons] at h
    exact h
  | case4 => cases h

/-- **In camel case there are no joints.** -/
theorem not_hasJoint_camelChars (cs : List Char) : ¬ HasJoint (camelChars cs) := by
  induction cs using camelChars.induct with
  | case1 c rest hlower ih =>
    rw [camelChars, if_pos hlower, hasJoint_cons_iff]
    exact not_or.2 ⟨fun h => (toUpper_of_isLowerLetter hlower).2 h.1, ih⟩
  | case2 c rest hlower ih =>
    rw [camelChars, if_neg hlower, hasJoint_cons_iff]
    exact not_or.2 ⟨fun h => hlower (startsLower_of_camelChars h.2), ih⟩
  | case3 c rest hcons ih =>
    rw [camelChars.eq_2 _ _ hcons, hasJoint_cons_iff]
    refine not_or.2 ⟨?_, ih⟩
    rintro ⟨rfl, hlower⟩
    cases rest with
    | nil => cases hlower
    | cons b rest => exact hcons b rest rfl rfl
  | case4 => exact not_hasJoint_nil

/-- The names that camel case leaves as they are. -/
theorem camelChars_eq_self_iff : camelChars cs = cs ↔ ¬ HasJoint cs := by
  constructor
  · intro h
    rw [← h]
    exact not_hasJoint_camelChars cs
  · intro h
    have hdivides : Pieces.Divides ⟨cs, []⟩ cs :=
      ⟨List.append_nil cs, List.forall_mem_nil _, List.forall_mem_singleton.2 h⟩
    rw [camelChars_eq_camel, ← Pieces.divides_iff.1 hdivides]
    exact List.append_nil cs

/-- **What camel case is**: a name has no joint left, so that it stays as it is, and it is put
together from the pieces between the joints that it had, all but the first with their first letter
in upper case. -/
theorem camelCase_joins_pieces (name : String) :
    ¬ HasJoint (camelCase name).toList ∧
      camelCase (camelCase name) = camelCase name ∧
      ∃ p : Pieces, (∀ q : Pieces, q.Divides name.toList ↔ q = p) ∧
        (camelCase name).toList = p.camel := by
  have hchars : (camelCase name).toList = camelChars name.toList := String.toList_ofList
  refine ⟨?_, ?_, Pieces.of name.toList, fun q => Pieces.divides_iff, ?_⟩
  · rw [hchars]
    exact not_hasJoint_camelChars name.toList
  · rw [camelCase, hchars, camelChars_eq_self_iff.2 (not_hasJoint_camelChars name.toList)]
    rfl
  · rw [hchars]
    exact camelChars_eq_camel name.toList

/-- Of two underscores in a row the second may be in a joint, and what is no lower-case letter is in
none. -/
example : Pieces.of "__item_get_2_".toList = ⟨['_'], ["item".toList, "get_2_".toList]⟩ ∧
    camelCase "__item_get_2_" = "_ItemGet_2_" := by decide

end EndpointAtlas
