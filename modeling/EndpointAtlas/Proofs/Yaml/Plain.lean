import EndpointAtlas.Proofs.Json.Reading
import EndpointAtlas.Yaml.Document
import Mathlib.Data.Bool.AllAny
import Mathlib.Tactic.IntervalCases

/-!
# Words and numbers of JSON as plain scalars

The words of JSON have the same value in YAML (`Word.scalar_text`). So has a number whose exponent
is one of YAML, too: an integer keeps its type, and any other number has a point. Other numbers are
texts (`Numeral.scalar_text`).
-/

namespace EndpointAtlas.Json

open Yaml (Tag)

/-! ## The characters of numbers -/

/-- The characters of numbers. -/
def numberChars : List Char :=
  ['0', '1', '2', '3', '4', '5', '6', '7', '8', '9', '+', '-', '.', 'e', 'E']

theorem mem_numberChars_of_isDigit {c : Char} (h : c.isDigit = true) : c ∈ numberChars := by
  have hbounds : 48 ≤ c.toNat ∧ c.toNat ≤ 57 := by
    simpa [Char.isDigit, UInt32.le_iff_toNat_le] using h
  obtain ⟨hlow, hhigh⟩ := hbounds
  rw [← Char.ofNat_toNat c]
  interval_cases c.toNat <;> decide

theorem Digits.mem_numberChars (d : Digits) {c : Char} (h : c ∈ d.chars) : c ∈ numberChars :=
  mem_numberChars_of_isDigit (d.isDigit c h)

theorem Sign.mem_numberChars {s : Sign} {c : Char} (h : c ∈ s.text) : c ∈ numberChars := by
  cases s with
  | none => cases h
  | plus => rw [List.mem_singleton.1 h]; decide
  | minus => rw [List.mem_singleton.1 h]; decide

theorem splitSign_of_isDigit {d : Char} (h : d.isDigit = true) (rest : List Char) :
    Numeric.splitSign (d :: rest) = (false, d :: rest) := by
  unfold Numeric.splitSign
  split
  · next heq => cases heq; cases h
  · next heq => cases heq; cases h
  · rfl

namespace Numeral

variable (n : Numeral)

theorem mem_numberChars_of_mem_fractionText {c : Char} (h : c ∈ n.fractionText) :
    c ∈ numberChars := by
  unfold fractionText at h
  cases hfraction : n.fraction with
  | none => rw [hfraction] at h; cases h
  | some digits =>
    rw [hfraction] at h
    rcases List.mem_cons.1 h with rfl | hdigit
    · decide
    · exact digits.mem_numberChars hdigit

theorem mem_numberChars_of_mem_exponentText {c : Char} (h : c ∈ n.exponentText) :
    c ∈ numberChars := by
  unfold exponentText at h
  cases hexponent : n.exponent with
  | none => rw [hexponent] at h; cases h
  | some e =>
    rw [hexponent] at h
    rcases List.mem_cons.1 h with rfl | hrest
    · rcases e.isMark with hmark | hmark <;> rw [hmark] <;> decide
    · rcases List.mem_append.1 hrest with hsign | hdigit
      · exact Sign.mem_numberChars hsign
      · exact e.digits.mem_numberChars hdigit

theorem mem_numberChars_of_mem_magnitudeText {c : Char} (h : c ∈ n.magnitudeText) :
    c ∈ numberChars := by
  rcases List.mem_append.1 h with h | h
  · rcases List.mem_append.1 h with h | h
    · exact n.whole.mem_numberChars h
    · exact n.mem_numberChars_of_mem_fractionText h
  · exact n.mem_numberChars_of_mem_exponentText h

theorem mem_numberChars {c : Char} (h : c ∈ n.text) : c ∈ numberChars := by
  unfold text at h
  rcases List.mem_append.1 h with hsign | hmagnitude
  · split at hsign
    · rw [List.mem_singleton.1 hsign]
      decide
    · cases hsign
  · exact n.mem_numberChars_of_mem_magnitudeText hmagnitude

theorem not_mem_magnitudeText {c : Char} (h : numberChars.contains c = false) :
    c ∉ n.magnitudeText := by
  intro hmem
  rw [List.contains_iff_mem.2 (n.mem_numberChars_of_mem_magnitudeText hmem)] at h
  cases h

/-- Characters that are in no number are not in this one. -/
theorem not_mem_text {c : Char} (h : numberChars.contains c = false) : c ∉ n.text := by
  intro hmem
  rw [List.contains_iff_mem.2 (n.mem_numberChars hmem)] at h
  cases h

theorem magnitudeText_eq :
    n.magnitudeText = n.whole.chars ++ (n.fractionText ++ n.exponentText) := by
  rw [magnitudeText, List.append_assoc]

/-- A number starts with a sign or a digit, and what is behind the sign starts with a digit. -/
theorem splitSign_text : Numeric.splitSign n.text = (n.negative, n.magnitudeText) := by
  obtain ⟨d, rest, hd, hdigit⟩ := n.exists_cons_magnitudeText
  unfold text
  cases n.negative with
  | true => rfl
  | false =>
    rw [if_neg Bool.false_ne_true, List.nil_append, hd]
    exact splitSign_of_isDigit hdigit rest

theorem unsigned_text : Yaml.Form.unsigned n.text = n.magnitudeText := by
  obtain ⟨d, rest, hd, hdigit⟩ := n.exists_cons_magnitudeText
  unfold text
  cases n.negative with
  | true => rfl
  | false =>
    rw [if_neg Bool.false_ne_true, List.nil_append, hd]
    unfold Yaml.Form.unsigned
    split
    · next heq => cases heq; cases hdigit
    · next heq => cases heq; cases hdigit
    · rfl

end Numeral

/-! ## Types -/

theorem splitOn_eq_singleton {separator : Char} {cs : List Char} (h : separator ∉ cs) :
    Text.splitOn separator cs = [cs] := by
  induction cs with
  | nil => rfl
  | cons c rest ih =>
    rw [List.mem_cons, not_or] at h
    rw [Text.splitOn, ih h.2]
    dsimp only
    rw [if_neg (Ne.symm h.1)]

theorem ne_of_isDigit {c mark : Char} (h : c.isDigit = true) (hmark : mark.isDigit = false) :
    c ≠ mark := by
  rintro rfl
  rw [h] at hmark
  cases hmark

theorem ofList_ne {word : String} {c mark : Char} {rest : List Char}
    (hword : word.toList.head? = some mark) (hne : c ≠ mark) :
    String.ofList (c :: rest) ≠ word := by
  rintro rfl
  rw [String.toList_ofList, List.head?_cons] at hword
  exact hne (Option.some.inj hword)

/-- A text is none of some words if it starts with another character than all of them. -/
theorem not_contains_ofList {words : List String} {c mark : Char} {rest : List Char}
    (hwords : ∀ w ∈ words, w.toList.head? = some mark) (hne : c ≠ mark) :
    words.contains (String.ofList (c :: rest)) = false := by
  rw [List.contains_eq_mem, decide_eq_false_iff_not]
  exact fun hmem => ofList_ne (hwords _ hmem) hne rfl

theorem isSpacedDigit_of_isDigit {c : Char} (h : c.isDigit = true) :
    Yaml.Form.isSpacedDigit c = true := by
  rw [Yaml.Form.isSpacedDigit, h, Bool.true_or]

theorem Digits.isSpacedNumber (d : Digits) :
    Yaml.Form.isSpacedNumber Char.isDigit d.chars = true := by
  have hall := d.isDigit
  obtain ⟨c, rest, hc⟩ := List.exists_cons_of_ne_nil d.ne_nil
  rw [hc, List.forall_mem_cons] at hall
  rw [hc, Yaml.Form.isSpacedNumber, hall.1, Bool.true_and, List.all_eq_true]
  exact fun x hx => isSpacedDigit_of_isDigit (hall.2 x hx)

/-- The exponent of a number is one of YAML if it has a sign. -/
theorem Exponent.isExponent (e : Exponent) :
    Yaml.Form.isExponent (e.mark :: (e.sign.text ++ e.digits.chars)) = decide (e.sign ≠ .none) := by
  have hmark : (decide (e.mark = 'e') || decide (e.mark = 'E')) = true := by
    rcases e.isMark with h | h <;> rw [h] <;> rfl
  have hall : e.digits.chars.all Char.isDigit = true := List.all_eq_true.2 e.digits.isDigit
  have hempty : e.digits.chars.isEmpty = false := List.isEmpty_eq_false_iff.2 e.digits.ne_nil
  obtain ⟨d, rest, hd⟩ := List.exists_cons_of_ne_nil e.digits.ne_nil
  have hdigit : d.isDigit = true := e.digits.isDigit d (hd ▸ List.mem_cons_self)
  cases hsign : e.sign with
  | none =>
    have hplus : d ≠ '+' := ne_of_isDigit hdigit rfl
    have hminus : d ≠ '-' := ne_of_isDigit hdigit rfl
    rw [Sign.text, List.nil_append, hd, Yaml.Form.isExponent]
    simp [hplus, hminus]
  | plus =>
    rw [Sign.text, List.singleton_append, Yaml.Form.isExponent, hmark, hall, hempty]
    rfl
  | minus =>
    rw [Sign.text, List.singleton_append, Yaml.Form.isExponent, hmark, hall, hempty]
    rfl

namespace Numeral

variable (n : Numeral)

theorem stopsAt_isSpacedDigit_exponentText :
    StopsAt Yaml.Form.isSpacedDigit n.exponentText := by
  unfold exponentText
  cases n.exponent with
  | none => exact stopsAt_nil _
  | some e =>
    rw [stopsAt_cons]
    rcases e.isMark with hmark | hmark <;> rw [hmark] <;> rfl

theorem stopsAt_isSpacedDigit_fractionText :
    StopsAt Yaml.Form.isSpacedDigit (n.fractionText ++ n.exponentText) := by
  unfold fractionText
  cases n.fraction with
  | none => exact n.stopsAt_isSpacedDigit_exponentText
  | some digits => exact stopsAt_cons.2 rfl

theorem isExponent_exponentText : Yaml.Form.isExponent n.exponentText =
    match n.exponent with
    | none => true
    | some e => decide (e.sign ≠ .none) := by
  unfold exponentText
  cases n.exponent with
  | none => rfl
  | some e => exact e.isExponent

/-- The characters that numbers start with. -/
def headChars : List Char := ['-', '0', '1', '2', '3', '4', '5', '6', '7', '8', '9']

theorem mem_headChars_of_isDigit {c : Char} (h : c.isDigit = true) : c ∈ headChars := by
  have hmem := mem_numberChars_of_isDigit h
  have hall : ∀ c ∈ numberChars, c.isDigit = true → c ∈ headChars :=
    List.all_iff_forall_prop.1 (by decide)
  exact hall c hmem h

theorem exists_cons_text_headChars : ∃ c rest, n.text = c :: rest ∧ c ∈ headChars := by
  obtain ⟨d, rest, hd, hdigit⟩ := n.exists_cons_magnitudeText
  unfold text
  cases n.negative with
  | true => exact ⟨'-', n.magnitudeText, rfl, List.mem_cons_self⟩
  | false => exact ⟨d, rest, hd, mem_headChars_of_isDigit hdigit⟩

/-- The point, the digits behind it and the exponent behind them. -/
theorem isPointed_text : Yaml.Form.isPointed (n.fractionText ++ n.exponentText) =
    (n.fraction.isSome && n.hasPlainExponent) := by
  unfold fractionText hasPlainExponent
  cases n.fraction with
  | none =>
    unfold exponentText
    cases n.exponent with
    | none => rfl
    | some e =>
      rw [List.nil_append, Option.isSome_none, Bool.false_and]
      dsimp only
      rcases e.isMark with hmark | hmark <;> rw [hmark] <;> rfl
  | some digits =>
    have hdrop := dropWhile_append
      (fun c hc => isSpacedDigit_of_isDigit (digits.isDigit c hc))
      n.stopsAt_isSpacedDigit_exponentText
    dsimp only [List.cons_append]
    rw [Yaml.Form.isPointed]
    unfold Yaml.Form.isFraction
    rw [hdrop, isExponent_exponentText]
    cases n.exponent <;> simp

/-- A number has the form of one with a point in YAML if it has a fraction, and a sign in front of
its exponent. -/
theorem isFloat_text : Yaml.Form.isFloat n.text = (n.fraction.isSome && n.hasPlainExponent) := by
  have hspaced : ∀ c ∈ n.whole.chars, Yaml.Form.isSpacedDigit c = true :=
    fun c hc => isSpacedDigit_of_isDigit (n.whole.isDigit c hc)
  have htake := takeWhile_append hspaced n.stopsAt_isSpacedDigit_fractionText
  have hdrop := dropWhile_append hspaced n.stopsAt_isSpacedDigit_fractionText
  rw [← n.magnitudeText_eq] at htake hdrop
  -- the other forms start with a point or hold a colon
  have hsixtieth : Yaml.Form.isSixtiethFloat n.magnitudeText = false := by
    have hcolon : ':' ∉ n.magnitudeText.takeWhile (· ≠ '.') :=
      fun hmem => n.not_mem_magnitudeText rfl (List.takeWhile_subset _ hmem)
    unfold Yaml.Form.isSixtiethFloat
    dsimp only
    rw [splitOn_eq_singleton hcolon]
  have hinfinity : Yaml.Form.isWord Yaml.Form.infinityWords n.magnitudeText = false := by
    obtain ⟨d, rest, hd, hdigit⟩ := n.exists_cons_magnitudeText
    rw [hd]
    have hpoint : ∀ w ∈ Yaml.Form.infinityWords, w.toList.head? = some '.' := by decide
    exact not_contains_ofList hpoint (ne_of_isDigit hdigit rfl)
  obtain ⟨c, rest, hc, hhead⟩ := n.exists_cons_text_headChars
  have hnan : Yaml.Form.isWord Yaml.Form.nanWords n.text = false := by
    rw [hc]
    have hpoint : ∀ w ∈ Yaml.Form.nanWords, w.toList.head? = some '.' := by decide
    exact not_contains_ofList hpoint (ne_of_mem_of_not_mem hhead (by decide))
  have hleading : Yaml.Form.isLeadingPoint n.text = false := by
    rw [hc]
    unfold Yaml.Form.isLeadingPoint
    split
    · next heq =>
      cases heq
      exact absurd hhead (by decide)
    · rfl
  unfold Yaml.Form.isFloat
  rw [n.unsigned_text]
  dsimp only
  rw [htake, hdrop, hsixtieth, hinfinity, hnan, hleading, n.whole.isSpacedNumber,
    isPointed_text, Bool.true_and, Bool.or_false, Bool.or_false, Bool.or_false, Bool.or_false]

theorem behind_of_isInteger (h : n.isInteger = true) : n.fractionText ++ n.exponentText = [] := by
  rw [isInteger, Bool.and_eq_true, Option.isNone_iff_eq_none, Option.isNone_iff_eq_none] at h
  rw [fractionText, exponentText, h.1, h.2, List.append_nil]

theorem magnitudeText_of_isInteger (h : n.isInteger = true) :
    n.magnitudeText = n.whole.chars := by
  rw [n.magnitudeText_eq, n.behind_of_isInteger h, List.append_nil]

theorem hasPlainExponent_of_isInteger (h : n.isInteger = true) : n.hasPlainExponent = true := by
  rw [isInteger, Bool.and_eq_true, Option.isNone_iff_eq_none, Option.isNone_iff_eq_none] at h
  rw [hasPlainExponent, h.2]

/-- The digits in front of the point are a zero, or start with another digit. -/
theorem whole_cases : n.whole.chars = ['0'] ∨
    ∃ d rest, n.whole.chars = d :: rest ∧ d ≠ '0' ∧ d.isDigit = true ∧
      ∀ c ∈ rest, c.isDigit = true := by
  have hall := n.whole.isDigit
  obtain ⟨d, rest, hd⟩ := List.exists_cons_of_ne_nil n.whole.ne_nil
  rw [hd, List.forall_mem_cons] at hall
  by_cases hzero : d = '0'
  · refine .inl (n.noZeros ?_)
    rw [hd, hzero, List.head?_cons]
  · exact .inr ⟨d, rest, hd, hzero, hall.1, hall.2⟩

/-- Behind the digits in front of the point, a number that is no integer goes on with a point or the
mark of an exponent. -/
theorem exists_cons_of_not_isInteger (h : n.isInteger = false) :
    ∃ c rest, n.fractionText ++ n.exponentText = c :: rest ∧ (c = '.' ∨ c = 'e' ∨ c = 'E') := by
  unfold isInteger at h
  unfold fractionText exponentText
  cases hfraction : n.fraction with
  | some digits => exact ⟨'.', _, rfl, .inl rfl⟩
  | none =>
    cases hexponent : n.exponent with
    | some e => exact ⟨e.mark, _, rfl, .inr e.isMark⟩
    | none => rw [hfraction, hexponent] at h; cases h

/-- Digits that do not start with a zero are an integer if nothing else is among them. -/
theorem isInt_eq_isSpacedNumber {cs rest : List Char} {d : Char}
    (h : Yaml.Form.unsigned cs = d :: rest) (hne : d ≠ '0') (hcolon : ':' ∉ d :: rest) :
    Yaml.Form.isInt cs = Yaml.Form.isSpacedNumber Yaml.Form.isPositiveDigit (d :: rest) := by
  unfold Yaml.Form.isInt
  rw [h]
  split
  · next heq => exact absurd (List.cons.inj heq).1 hne
  · next heq => exact absurd (List.cons.inj heq).1 hne
  · next heq => exact absurd (List.cons.inj heq).1 hne
  · next heq => exact absurd (List.cons.inj heq).1 hne
  · rw [splitOn_eq_singleton hcolon]

/-- A number has the form of an integer in YAML if it is one. -/
theorem isInt_text : Yaml.Form.isInt n.text = n.isInteger := by
  have hmagnitude : Yaml.Form.unsigned n.text =
      n.whole.chars ++ (n.fractionText ++ n.exponentText) := by
    rw [n.unsigned_text, n.magnitudeText_eq]
  have hcolon : ':' ∉ Yaml.Form.unsigned n.text := by
    rw [n.unsigned_text]
    exact n.not_mem_magnitudeText rfl
  rcases n.whole_cases with hzero | ⟨d, rest, hd, hne, hdigit, hrest⟩
  · unfold Yaml.Form.isInt
    cases hinteger : n.isInteger with
    | true =>
      rw [n.unsigned_text, n.magnitudeText_of_isInteger hinteger, hzero]
      rfl
    | false =>
      obtain ⟨c, behind, hc, hmark⟩ := n.exists_cons_of_not_isInteger hinteger
      rw [hmagnitude, hzero, hc]
      rcases hmark with rfl | rfl | rfl <;> rfl
  · rw [hd, List.cons_append] at hmagnitude
    rw [hmagnitude] at hcolon
    rw [isInt_eq_isSpacedNumber hmagnitude hne hcolon, Yaml.Form.isSpacedNumber,
      Yaml.Form.isPositiveDigit, hdigit, decide_eq_true hne, Bool.true_and, Bool.true_and,
      List.all_append, List.all_eq_true.2 fun c hc => isSpacedDigit_of_isDigit (hrest c hc),
      Bool.true_and]
    cases hinteger : n.isInteger with
    | true =>
      rw [n.behind_of_isInteger hinteger]
      rfl
    | false =>
      obtain ⟨c, behind, hc, hmark⟩ := n.exists_cons_of_not_isInteger hinteger
      rw [hc]
      rcases hmark with rfl | rfl | rfl <;> rfl

/-- The first digits of a number are not followed by a dash. -/
theorem text_ne_of_digits {digits rest : List Char} (hne : digits ≠ [])
    (hdigits : ∀ c ∈ digits, c.isDigit = true) : n.text ≠ digits ++ '-' :: rest := by
  intro heq
  obtain ⟨d, others, rfl⟩ := List.exists_cons_of_ne_nil hne
  have hmagnitude : n.magnitudeText = d :: others ++ '-' :: rest := by
    have hsign := n.splitSign_text
    rw [heq, List.cons_append, splitSign_of_isDigit (hdigits d List.mem_cons_self)] at hsign
    exact (congrArg Prod.snd hsign).symm
  have hbehind : n.fractionText ++ n.exponentText = '-' :: rest := by
    rw [n.magnitudeText_eq] at hmagnitude
    have hwhole := dropWhile_append
      (fun c hc => isSpacedDigit_of_isDigit (n.whole.isDigit c hc))
      n.stopsAt_isSpacedDigit_fractionText
    rw [hmagnitude, dropWhile_append (fun c hc => isSpacedDigit_of_isDigit (hdigits c hc))
      (stopsAt_cons.2 rfl)] at hwhole
    exact hwhole.symm
  cases hinteger : n.isInteger with
  | true =>
    rw [n.behind_of_isInteger hinteger] at hbehind
    cases hbehind
  | false =>
    obtain ⟨c, behind, hc, hmark⟩ := n.exists_cons_of_not_isInteger hinteger
    rw [hc] at hbehind
    cases hbehind
    rcases hmark with h | h | h <;> cases h

/-- No number has the form of a date. -/
theorem isTimestamp_text : Yaml.Form.isTimestamp n.text = false := by
  have htimestamp : Yaml.Form.timestamp? n.text = none := by
    unfold Yaml.Form.timestamp?
    split
    · next a b c d rest heq =>
      have hdigits : ¬ [a, b, c, d].all Char.isDigit = true := fun h =>
        n.text_ne_of_digits (List.cons_ne_nil _ _) (List.all_eq_true.1 h) heq
      rw [if_neg hdigits]
      rfl
    · rfl
  unfold Yaml.Form.isTimestamp
  rw [htimestamp]

/-- A number that has a point in YAML is no integer, and an integer has no exponent. -/
theorem isFloat_eq : (n.fraction.isSome && n.hasPlainExponent) =
    (!n.isInteger && n.hasPlainExponent) := by
  unfold isInteger hasPlainExponent
  cases n.fraction <;> cases n.exponent <;> simp

/-- The type of a number. -/
theorem ofPlain_text : Tag.ofPlain n.text =
    if n.isInteger then .int else if n.hasPlainExponent then .float else .str := by
  obtain ⟨c, rest, hc, hhead⟩ := n.exists_cons_text_headChars
  have hlast : n.text.getLast? ≠ some '\n' :=
    fun hlast => n.not_mem_text rfl (List.mem_of_getLast? hlast)
  have hempty : n.text.isEmpty = false := by rw [hc]; rfl
  have hfirst : n.text.headD Yaml.endMark = c := by rw [hc]; rfl
  have hbool : ∀ c ∈ headChars, "yYnNtTfFoO".toList.contains c = false :=
    List.all_iff_forall_prop.1 (by decide)
  have hfloat : ∀ c ∈ headChars, "-+0123456789.".toList.contains c = true :=
    List.all_iff_forall_prop.1 (by decide)
  have hint : ∀ c ∈ headChars, "-+0123456789".toList.contains c = true :=
    List.all_iff_forall_prop.1 (by decide)
  have hnull : ∀ c ∈ headChars, "~nN".toList.contains c = false :=
    List.all_iff_forall_prop.1 (by decide)
  have hmark : ∀ mark : Char, headChars.contains mark = false →
      ∀ others, n.text ≠ mark :: others := by
    rintro mark hmark others heq
    rw [hc] at heq
    cases heq
    rw [List.contains_iff_mem.2 hhead] at hmark
    cases hmark
  have hother : [['!'], ['&'], ['*']].contains n.text = false := by
    simp [hmark '!' rfl, hmark '&' rfl, hmark '*' rfl]
  unfold Tag.ofPlain
  rw [if_neg hlast, hfirst]
  dsimp only
  rw [hempty, hbool c hhead, hfloat c hhead, hint c hhead, hnull c hhead, n.isFloat_text,
    n.isInt_text, n.isTimestamp_text, n.isFloat_eq, if_neg (hmark '<' rfl _),
    if_neg (hmark '=' rfl _), hother]
  cases n.isInteger <;> cases n.hasPlainExponent <;> simp

end Numeral

/-! ## Plain texts of numbers -/

theorem trim_eq {dropped : Char → Bool} {cs : List Char} (h : ∀ c ∈ cs, dropped c = false) :
    Text.trim dropped cs = cs := by
  have hdrop : ∀ l : List Char, (∀ c ∈ l, dropped c = false) → l.dropWhile dropped = l := by
    intro l hl
    cases l with
    | nil => rfl
    | cons c rest => rw [List.dropWhile_cons, hl c List.mem_cons_self, if_neg Bool.false_ne_true]
  rw [Text.trim, hdrop cs h, hdrop _ fun c hc => h c (List.mem_reverse.1 hc), List.reverse_reverse]

theorem plain_eq {cs : List Char} (h : ∀ c ∈ cs, c ∈ numberChars) : Numeric.plain cs = cs := by
  have hblank : ∀ c ∈ numberChars, (Text.isBlank c && !Text.isSeparator c) = false :=
    List.all_iff_forall_prop.1 (by decide)
  have hdigit : ∀ c ∈ numberChars, Numeric.plainDigits [c] = [c] :=
    List.all_iff_forall_prop.1 (by decide)
  rw [Numeric.plain, trim_eq fun c hc => hblank c (h c hc), Numeric.plainDigits]
  refine (List.map_congr_left fun c hc => ?_).trans (List.map_id _)
  exact (List.cons.inj (hdigit c (h c hc))).1

theorem dropUnderscores?_eq {isDigit : Char → Bool} {cs : List Char} (h : '_' ∉ cs) :
    Numeric.dropUnderscores? isDigit cs = some cs := by
  induction cs with
  | nil => rfl
  | cons c rest ih =>
    rw [List.mem_cons, not_or] at h
    rw [Numeric.dropUnderscores?.eq_def]
    split
    · next heq => cases heq; simp at h
    · next heq => cases heq; simp at h
    · next heq => cases heq; simp at h
    · next heq => cases heq; rw [ih h.2]; rfl
    · next heq => cases heq

theorem filter_underscore {cs : List Char} (h : '_' ∉ cs) : cs.filter (· ≠ '_') = cs := by
  refine List.filter_eq_self.2 fun c hc => ?_
  rw [decide_eq_true_eq]
  rintro rfl
  exact h hc

theorem digitIn?_of_isDigit {c : Char} (h : c.isDigit = true) :
    Numeric.digitIn? 10 c = some (c.toNat - '0'.toNat) := by
  have hall : ∀ c ∈ numberChars, c.isDigit = true →
      Numeric.digitIn? 10 c = some (c.toNat - '0'.toNat) := List.all_iff_forall_prop.1 (by decide)
  exact hall c (mem_numberChars_of_isDigit h) h

theorem mapM_digitIn? {cs : List Char} (h : ∀ c ∈ cs, c.isDigit = true) :
    cs.mapM (Numeric.digitIn? 10) = some (cs.map fun c => c.toNat - '0'.toNat) := by
  induction cs with
  | nil => rfl
  | cons c rest ih =>
    rw [List.forall_mem_cons] at h
    rw [List.mapM_cons, digitIn?_of_isDigit h.1, ih h.2]
    rfl

theorem dropBaseMark_ten (cs : List Char) : Numeric.dropBaseMark 10 cs = cs := by
  unfold Numeric.dropBaseMark
  split
  · rw [if_neg]
    intro h
    cases h
  · rfl

/-- Digits that are not too many are read as an integer. -/
theorem Digits.readInteger? (d : Digits) (h : d.chars.length ≤ maxIntegerDigits) :
    Numeric.readInteger? 10 d.chars = some (decimalValue d.chars : Int) := by
  have hmem : ∀ c ∈ d.chars, c ∈ numberChars := fun c hc => d.mem_numberChars hc
  have hunderscore : '_' ∉ d.chars := fun hc => absurd (hmem _ hc) (by decide)
  have hsign : Numeric.splitSign d.chars = (false, d.chars) := by
    obtain ⟨c, rest, hc⟩ := List.exists_cons_of_ne_nil d.ne_nil
    rw [hc]
    exact splitSign_of_isDigit (d.isDigit c (hc ▸ List.mem_cons_self)) rest
  have hempty : (d.chars.map fun c => c.toNat - '0'.toNat).isEmpty = false := by
    rw [List.isEmpty_eq_false_iff, Ne, List.map_eq_nil_iff]
    exact d.ne_nil
  have hlength : ¬ Numeric.maxDecimalDigits < d.chars.length := Nat.not_lt.2 h
  unfold Numeric.readInteger?
  rw [plain_eq hmem, hsign]
  dsimp only
  rw [dropBaseMark_ten, dropUnderscores?_eq hunderscore]
  dsimp only [Option.bind_eq_bind, Option.bind_some]
  rw [mapM_digitIn? d.isDigit]
  dsimp only [Option.bind_some]
  rw [hempty, List.length_map, decide_eq_false hlength]
  rfl

namespace Numeral

variable (n : Numeral)

/-- The size of an integer. -/
theorem magnitude_whole (h : n.whole.chars.length ≤ maxIntegerDigits) :
    Yaml.Form.magnitude n.whole.chars = .ok (decimalValue n.whole.chars : Int) := by
  have hread := n.whole.readInteger? h
  rcases n.whole_cases with hzero | ⟨d, rest, hd, hne, -, -⟩
  · rw [hzero]
    rfl
  · have hcolon : n.whole.chars.contains ':' = false := by
      rw [List.contains_eq_mem, decide_eq_false_iff_not]
      exact fun hc => absurd (n.whole.mem_numberChars hc) (by decide)
    rw [hd] at hread hcolon ⊢
    unfold Yaml.Form.magnitude
    split
    · next heq => cases heq
    · next heq => cases heq; exact absurd rfl hne
    · next heq => cases heq; exact absurd rfl hne
    · next heq => cases heq; exact absurd rfl hne
    · next heq => cases heq; exact absurd rfl hne
    · rw [hcolon, if_neg Bool.false_ne_true, Yaml.Form.integer, hread]

theorem int_text (hinteger : n.isInteger = true) (hreadable : n.isReadable = true) :
    Yaml.Form.int n.text =
      .ok (.int
        (if n.negative then -decimalValue n.whole.chars else decimalValue n.whole.chars)) := by
  have hlength : n.whole.chars.length ≤ maxIntegerDigits := by
    rw [isReadable, hinteger] at hreadable
    simpa using hreadable
  unfold Yaml.Form.int
  rw [filter_underscore (n.not_mem_text rfl), n.splitSign_text]
  dsimp only
  rw [n.magnitudeText_of_isInteger hinteger, n.magnitude_whole hlength]
  rfl

end Numeral

/-! ## Numbers with a point -/

theorem nearest_negate (num den : Nat) :
    (Binary64.nearest false num den).negate = Binary64.nearest true num den := by
  simp only [Binary64.nearest]
  split
  · rfl
  · split
    all_goals
      dsimp only
      split <;> rfl

/-- The sign in front of a number can be read with it or apart from it. -/
theorem ofDecimal_negate (digits : Nat) (exponent : Int) :
    (Binary64.ofDecimal false digits exponent).negate =
      Binary64.ofDecimal true digits exponent := by
  simp only [Binary64.ofDecimal]
  split
  · rfl
  · split
    · rfl
    · split
      · rfl
      · cases exponent <;> exact nearest_negate _ _

theorem decimalValue_eq_foldl (cs : List Char) :
    decimalValue cs = cs.foldl (fun n d => n * 10 + (d.toNat - '0'.toNat)) 0 := by
  rw [decimalValue, ofDigits, List.foldl_map]

/-- An exponent with a small mark. -/
def Exponent.lowered (e : Exponent) : Exponent := .small e.sign e.digits

/-- A number with a small mark in front of its exponent. -/
def Numeral.lowered (n : Numeral) : Numeral :=
  { n with exponent := n.exponent.map Exponent.lowered }

theorem map_toLower_eq {cs : List Char} (h : ∀ c ∈ cs, c.isDigit = true) :
    cs.map Char.toLower = cs := by
  have hall : ∀ c ∈ numberChars, c.isDigit = true → c.toLower = c :=
    List.all_iff_forall_prop.1 (by decide)
  refine (List.map_congr_left fun c hc => ?_).trans (List.map_id _)
  exact hall c (mem_numberChars_of_isDigit (h c hc)) (h c hc)

theorem Sign.map_toLower_text (s : Sign) : s.text.map Char.toLower = s.text := by
  cases s <;> rfl

namespace Numeral

variable (n : Numeral)

theorem map_toLower_fractionText : n.fractionText.map Char.toLower = n.fractionText := by
  unfold fractionText
  cases n.fraction with
  | none => rfl
  | some digits =>
    dsimp only
    rw [List.map_cons, map_toLower_eq digits.isDigit]
    rfl

theorem map_toLower_exponentText : n.exponentText.map Char.toLower = n.lowered.exponentText := by
  unfold exponentText lowered
  cases n.exponent with
  | none => rfl
  | some e =>
    have hmark : e.mark.toLower = 'e' := by rcases e.isMark with h | h <;> rw [h] <;> rfl
    dsimp only [Option.map_some, Exponent.lowered, Exponent.small]
    rw [List.map_cons, List.map_append, hmark, e.sign.map_toLower_text,
      map_toLower_eq e.digits.isDigit]

theorem map_toLower_text : n.text.map Char.toLower = n.lowered.text := by
  have hsign : (if n.negative then ['-'] else []).map Char.toLower =
      if n.lowered.negative then ['-'] else [] := by
    change _ = if n.negative then ['-'] else []
    cases n.negative <;> rfl
  rw [text, magnitudeText, List.map_append, List.map_append, List.map_append, hsign,
    map_toLower_eq n.whole.isDigit, n.map_toLower_fractionText, n.map_toLower_exponentText]
  rfl

theorem value_lowered : n.lowered.value = n.value := by
  have hinteger : n.lowered.isInteger = n.isInteger := by
    unfold isInteger lowered
    rw [Option.isNone_map]
  have hexponent : n.lowered.exponentValue = n.exponentValue := by
    unfold exponentValue lowered
    cases n.exponent <;> rfl
  rw [value, hinteger, hexponent]
  rfl

/-- The exponent of a number is read behind the digits. -/
theorem exponent?_text : Binary64.exponent? n.exponentText = some n.exponentValue := by
  unfold exponentText exponentValue
  cases n.exponent with
  | none => rfl
  | some e =>
    have hmark : e.mark.toLower = 'e' := by rcases e.isMark with h | h <;> rw [h] <;> rfl
    have hempty : e.digits.chars.isEmpty = false := List.isEmpty_eq_false_iff.2 e.digits.ne_nil
    have hall : e.digits.chars.all Char.isDigit = true := List.all_eq_true.2 e.digits.isDigit
    have hsplit : Numeric.splitSign (e.sign.text ++ e.digits.chars) =
        (decide (e.sign = .minus), e.digits.chars) := by
      cases e.sign with
      | none =>
        obtain ⟨d, rest, hd⟩ := List.exists_cons_of_ne_nil e.digits.ne_nil
        rw [Sign.text, List.nil_append, hd]
        exact splitSign_of_isDigit (e.digits.isDigit d (hd ▸ List.mem_cons_self)) rest
      | plus => rfl
      | minus => rfl
    dsimp only
    rw [Binary64.exponent?, if_pos hmark, hsplit]
    dsimp only
    rw [hempty, hall, Bool.not_true, Bool.or_false, if_neg Bool.false_ne_true,
      ← decimalValue_eq_foldl]
    cases e.sign <;> rfl

theorem stopsAt_isDigit_exponentText : StopsAt Char.isDigit n.exponentText := by
  have hstops := n.stopsAt_exponentText (stopsAt_nil continuesNumber)
  rw [List.append_nil] at hstops
  exact fun c hc => (Bool.or_eq_false_iff.1 (hstops c hc)).1

/-- A number without its sign is read as it is in JSON. -/
theorem magnitude?_text (negative : Bool) :
    Binary64.magnitude? negative n.magnitudeText =
      some (.ofDecimal negative (decimalValue (n.whole.chars ++ n.fractionDigits))
        (n.exponentValue - n.fractionDigits.length)) := by
  have hunderscore : '_' ∉ n.magnitudeText := n.not_mem_magnitudeText rfl
  have hstops := n.stopsAt_fractionText (stopsAt_nil continuesNumber)
  rw [List.append_nil] at hstops
  have hempty : n.whole.chars.isEmpty = false := List.isEmpty_eq_false_iff.2 n.whole.ne_nil
  have htake := takeWhile_append n.whole.isDigit hstops
  have hdrop := dropWhile_append n.whole.isDigit hstops
  unfold Binary64.magnitude?
  rw [dropUnderscores?_eq hunderscore, n.magnitudeText_eq]
  dsimp only [Option.bind_eq_bind, Option.bind_some]
  rw [htake, hdrop]
  unfold fractionText fractionDigits
  cases n.fraction with
  | none =>
    rw [List.nil_append]
    split
    · next rest heq =>
      have hpoint := n.stopsAt_exponentText (stopsAt_nil continuesNumber)
      rw [List.append_nil, heq, stopsAt_cons] at hpoint
      cases hpoint
    · rw [hempty, n.exponent?_text, ← decimalValue_eq_foldl]
      rfl
  | some digits =>
    rw [List.cons_append]
    split
    · next heq =>
      cases heq
      rw [takeWhile_append digits.isDigit n.stopsAt_isDigit_exponentText,
        dropWhile_append digits.isDigit n.stopsAt_isDigit_exponentText, hempty, n.exponent?_text,
        ← decimalValue_eq_foldl]
      rfl
    · next hno => exact absurd rfl (hno _)

theorem ofText?_magnitudeText :
    Binary64.ofText? n.magnitudeText =
      some (.ofDecimal false (decimalValue (n.whole.chars ++ n.fractionDigits))
        (n.exponentValue - n.fractionDigits.length)) := by
  obtain ⟨d, rest, hd, hdigit⟩ := n.exists_cons_magnitudeText
  have hplain := plain_eq fun c => n.mem_numberChars_of_mem_magnitudeText (c := c)
  have hmagnitude := n.magnitude?_text false
  have hlower : (d :: rest).map Char.toLower = d :: rest.map Char.toLower := by
    rw [List.map_cons]
    have hall : ∀ c ∈ headChars, c.toLower = c := List.all_iff_forall_prop.1 (by decide)
    rw [hall d (mem_headChars_of_isDigit hdigit)]
  have hinfinity : Numeric.infinityWords.contains
      (String.ofList (d :: rest.map Char.toLower)) = false := by
    have hi : ∀ w ∈ Numeric.infinityWords, w.toList.head? = some 'i' := by decide
    exact not_contains_ofList hi (ne_of_isDigit hdigit rfl)
  have hnan : String.ofList (d :: rest.map Char.toLower) ≠ "nan" :=
    ofList_ne rfl (ne_of_isDigit hdigit rfl)
  unfold Binary64.ofText?
  rw [hplain, hd, splitSign_of_isDigit hdigit]
  rw [hd] at hmagnitude
  dsimp only
  rw [hlower, hinfinity, if_neg Bool.false_ne_true, if_neg hnan, hmagnitude]

theorem contains_colon_magnitudeText : n.magnitudeText.contains ':' = false := by
  rw [List.contains_eq_mem, decide_eq_false_iff_not]
  exact n.not_mem_magnitudeText rfl

theorem magnitudeText_ne {word : List Char} (h : word.head? = some '.') :
    n.magnitudeText ≠ word := by
  obtain ⟨d, rest, hd, hdigit⟩ := n.exists_cons_magnitudeText
  rintro rfl
  rw [hd, List.head?_cons] at h
  exact ne_of_isDigit hdigit rfl (Option.some.inj h)

theorem float_text (h : n.isInteger = false) :
    Value.scalar <$> Yaml.Form.float n.text = .ok n.value := by
  have hunderscore : '_' ∉ n.text := n.not_mem_text rfl
  have hempty : n.lowered.text.isEmpty = false := by
    obtain ⟨c, rest, hc, -⟩ := n.lowered.exists_cons_text_headChars
    rw [hc]
    rfl
  have hinteger : n.lowered.isInteger = false := by
    rw [isInteger, lowered, Option.isNone_map]
    exact h
  unfold Yaml.Form.float
  rw [filter_underscore hunderscore, n.map_toLower_text]
  dsimp only
  rw [hempty, n.lowered.splitSign_text]
  dsimp only
  rw [if_neg Bool.false_ne_true, if_neg (n.lowered.magnitudeText_ne rfl),
    if_neg (n.lowered.magnitudeText_ne rfl), n.lowered.contains_colon_magnitudeText,
    n.lowered.ofText?_magnitudeText, ← n.value_lowered, value, hinteger]
  cases hnegative : n.lowered.negative with
  | true => rw [← ofDecimal_negate]; rfl
  | false => rfl

/-- **The value of a number in YAML**, if it is not an integer with too many digits. -/
theorem scalar_text (h : n.isReadable = true) :
    Value.scalar <$> Yaml.Form.scalar (Tag.ofPlain n.text) n.text = .ok n.yamlValue := by
  rw [n.ofPlain_text, yamlValue]
  cases hinteger : n.isInteger with
  | true =>
    rw [if_pos rfl, Yaml.Form.scalar, n.int_text hinteger h,
      n.hasPlainExponent_of_isInteger hinteger, if_pos rfl, value, hinteger]
    rfl
  | false =>
    rw [if_neg Bool.false_ne_true]
    cases hexponent : n.hasPlainExponent with
    | true =>
      have hvalue := n.float_text hinteger
      rw [if_pos rfl, if_pos rfl, Yaml.Form.scalar]
      cases hfloat : Yaml.Form.float n.text with
      | error e => rw [hfloat] at hvalue; cases hvalue
      | ok x => rw [hfloat] at hvalue; exact congrArg Except.ok (Except.ok.inj hvalue)
    | false => rfl

end Numeral

/-! ## Words -/

theorem Word.scalar_text (w : Word) :
    (Value.scalar <$> Yaml.Form.scalar (Tag.ofPlain w.text) w.text) = .ok w.value := by
  rcases w with _ | _ | _ <;> rfl

end EndpointAtlas.Json
