import EndpointAtlas.Proofs.Json.Spelling

/-!
# Reading what is written

The reader takes the text of a spelling for the value that is spelled: `read?_text`. It goes by the
parts of the grammar, each with a text behind it: blanks, digits and pieces first, then values,
items and members together (`readValue_text`).
-/

namespace EndpointAtlas.Json

/-! ## Blanks and digits -/

/-- A text that does not go on with a character of some kind. -/
def StopsAt (p : Char → Bool) (tail : List Char) : Prop := ∀ c ∈ tail.head?, p c = false

theorem stopsAt_nil (p : Char → Bool) : StopsAt p [] := fun c h => by cases h

theorem stopsAt_cons {p : Char → Bool} {c : Char} {rest : List Char} :
    StopsAt p (c :: rest) ↔ p c = false := by
  simp [StopsAt]

theorem takeWhile_append {p : Char → Bool} {cs tail : List Char} (hcs : ∀ c ∈ cs, p c = true)
    (htail : StopsAt p tail) : (cs ++ tail).takeWhile p = cs := by
  rw [List.takeWhile_append_of_pos hcs]
  cases tail with
  | nil => simp
  | cons c rest => simp [stopsAt_cons.1 htail]

theorem dropWhile_append {p : Char → Bool} {cs tail : List Char} (hcs : ∀ c ∈ cs, p c = true)
    (htail : StopsAt p tail) : (cs ++ tail).dropWhile p = tail := by
  rw [List.dropWhile_append_of_pos hcs]
  cases tail with
  | nil => rfl
  | cons c rest => simp [stopsAt_cons.1 htail]

theorem skipBlanks_append (b : Blanks) {tail : List Char} (h : StopsAt isBlank tail) :
    skipBlanks (b.chars ++ tail) = tail :=
  dropWhile_append b.isBlank h

theorem skipBlanks_mark (b : Blanks) {c : Char} (h : isBlank c = false) (rest : List Char) :
    skipBlanks (b.chars ++ c :: rest) = c :: rest :=
  skipBlanks_append b (stopsAt_cons.2 h)

/-! ## Texts -/

theorem readUnits_piece (p : Piece) (rest : List Char) :
    readUnits (p.text ++ rest) =
      (readUnits rest).map fun (units, rest) => (p.unit :: units, rest) := by
  cases p with
  | raw c isRaw =>
    obtain ⟨hcontrol, hquote, hbackslash⟩ := isRaw
    rw [Piece.text, List.singleton_append, readUnits.eq_def]
    split
    · next h => cases h
    · next h => cases h; exact absurd rfl hquote
    · next h => cases h; exact absurd rfl hbackslash
    · next h => cases h; exact absurd rfl hbackslash
    · next h =>
      cases h
      rw [if_neg (Nat.not_lt.2 hcontrol)]
      cases readUnits rest <;> rfl
  | letter l c escapes =>
    have hu : l ≠ 'u' := by
      rintro rfl
      cases escapes
    rw [Piece.text, List.cons_append, List.singleton_append, readUnits.eq_def]
    split
    · next h => cases h
    · next h => cases h
    · next h => cases h; exact absurd rfl hu
    · next h =>
      cases h
      rw [escapes]
      cases readUnits rest <;> rfl
    · next hno heq =>
      cases heq
      exact (hno _ _ rfl rfl).elim
  | number digits values isHex length_eq =>
    match digits, length_eq with
    | [a, b, c, d], _ =>
      rw [Piece.text, List.cons_append, List.cons_append, List.cons_append, List.cons_append,
        List.cons_append, List.singleton_append, readUnits, isHex]
      cases readUnits rest <;> rfl

theorem readUnits_inner (pieces : List Piece) (tail : List Char) :
    readUnits (innerText pieces ++ '"' :: tail) = some (pieces.map Piece.unit, tail) := by
  induction pieces with
  | nil => rfl
  | cons p rest ih =>
    rw [innerText, List.flatMap_cons, List.append_assoc, readUnits_piece]
    change (readUnits (innerText rest ++ '"' :: tail)).map _ = _
    rw [ih]
    rfl

theorem readText_inner (pieces : List Piece) (tail : List Char) :
    readText (innerText pieces ++ '"' :: tail) =
      some (String.ofList (contentOf pieces), tail) := by
  rw [readText, readUnits_inner]
  rfl

/-! ## Numbers -/

/-- The characters that go on with a number. -/
def continuesNumber (c : Char) : Bool := c.isDigit || c = '.' || c = 'e' || c = 'E'

theorem StopsAt.isDigit {tail : List Char} (h : StopsAt continuesNumber tail) :
    StopsAt Char.isDigit tail := by
  intro c hc
  have := h c hc
  simp only [continuesNumber, Bool.or_eq_false_iff] at this
  exact this.1.1.1

namespace Numeral

variable (n : Numeral) {tail : List Char}

theorem stopsAt_exponentText (h : StopsAt continuesNumber tail) :
    StopsAt (fun c => c.isDigit || c = '.') (n.exponentText ++ tail) := by
  unfold exponentText
  cases n.exponent with
  | none =>
    intro c hc
    have := h c hc
    simp only [continuesNumber, Bool.or_eq_false_iff] at this ⊢
    exact this.1.1
  | some e =>
    rw [List.cons_append, stopsAt_cons]
    rcases e.isMark with hmark | hmark <;> rw [hmark] <;> decide

theorem stopsAt_fractionText (h : StopsAt continuesNumber tail) :
    StopsAt Char.isDigit (n.fractionText ++ (n.exponentText ++ tail)) := by
  unfold fractionText
  cases n.fraction with
  | none =>
    intro c hc
    have := n.stopsAt_exponentText h c hc
    simp only [Bool.or_eq_false_iff] at this
    exact this.1
  | some digits =>
    rw [List.cons_append, stopsAt_cons]
    decide

theorem readFraction_text (h : StopsAt continuesNumber tail) :
    readFraction (n.fractionText ++ (n.exponentText ++ tail)) =
      (n.fractionDigits, n.exponentText ++ tail) := by
  have hstops := n.stopsAt_exponentText h
  unfold fractionText fractionDigits
  cases n.fraction with
  | none =>
    rw [List.nil_append]
    unfold readFraction
    split
    · next heq =>
      rw [heq, stopsAt_cons] at hstops
      cases hstops
    · rfl
  | some digits =>
    have hdigits : StopsAt Char.isDigit (n.exponentText ++ tail) := by
      intro c hc
      have := hstops c hc
      simp only [Bool.or_eq_false_iff] at this
      exact this.1
    obtain ⟨d, rest, hd⟩ := List.exists_cons_of_ne_nil digits.ne_nil
    have hall := digits.isDigit
    dsimp only
    rw [hd] at hall ⊢
    rw [List.cons_append, List.cons_append, readFraction, if_pos (hall d List.mem_cons_self),
      ← List.cons_append, takeWhile_append hall hdigits, dropWhile_append hall hdigits]

theorem readExponent_text (h : StopsAt continuesNumber tail) :
    readExponent (n.exponentText ++ tail) =
      (n.exponent.map fun e => e.sign.apply (decimalValue e.digits.chars), tail) := by
  unfold exponentText
  cases n.exponent with
  | none =>
    rw [List.nil_append, Option.map_none]
    cases tail with
    | nil => rfl
    | cons c rest =>
      rw [stopsAt_cons] at h
      have hmark : ¬ (c = 'e' ∨ c = 'E') := by
        rintro (rfl | rfl) <;> cases h
      unfold readExponent
      exact if_neg hmark
  | some e =>
    have htake := takeWhile_append e.digits.isDigit h.isDigit
    have hdrop := dropWhile_append e.digits.isDigit h.isDigit
    obtain ⟨d, rest, hd⟩ := List.exists_cons_of_ne_nil e.digits.ne_nil
    have hdigit : d.isDigit = true := e.digits.isDigit d (hd ▸ List.mem_cons_self)
    have hminus : d ≠ '-' := by
      rintro rfl
      cases hdigit
    have hplus : d ≠ '+' := by
      rintro rfl
      cases hdigit
    dsimp only [Option.map_some]
    unfold readExponent
    rw [List.cons_append, List.append_assoc]
    dsimp only
    rw [if_pos e.isMark]
    rw [hd] at htake hdrop ⊢
    rw [List.cons_append] at htake hdrop ⊢
    cases e.sign <;> simp [Sign.text, Sign.apply, htake, hdrop, hminus, hplus]

theorem readWhole_text (h : StopsAt continuesNumber tail) :
    readWhole (n.magnitudeText ++ tail) =
      (n.whole.chars, n.fractionText ++ (n.exponentText ++ tail)) := by
  have hstops := n.stopsAt_fractionText h
  have hassoc : n.magnitudeText ++ tail =
      n.whole.chars ++ (n.fractionText ++ (n.exponentText ++ tail)) := by
    rw [magnitudeText, List.append_assoc, List.append_assoc]
  rw [hassoc]
  unfold readWhole
  split
  · next rest heq =>
    have hzero : n.whole.chars = ['0'] := by
      refine n.noZeros ?_
      obtain ⟨d, digits, hd⟩ := List.exists_cons_of_ne_nil n.whole.ne_nil
      rw [hd, List.cons_append] at heq
      cases heq
      rw [hd, List.head?_cons]
    rw [hzero] at heq ⊢
    cases heq
    rfl
  · rw [takeWhile_append n.whole.isDigit hstops, dropWhile_append n.whole.isDigit hstops]

theorem isInteger_iff : n.isInteger = true ↔
    n.fractionDigits.isEmpty = true ∧ n.exponent.isNone = true := by
  unfold isInteger fractionDigits
  cases n.fraction with
  | none => simp
  | some digits => simp [digits.ne_nil]

theorem getD_exponent :
    (n.exponent.map fun e => e.sign.apply (decimalValue e.digits.chars)).getD 0 =
      n.exponentValue := by
  unfold exponentValue
  cases n.exponent <;> rfl

theorem readMagnitude_text (hreadable : n.isReadable = true) (h : StopsAt continuesNumber tail) :
    readMagnitude n.negative (n.magnitudeText ++ tail) = some (n.value, tail) := by
  have hwhole : n.whole.chars.isEmpty = false := by
    rw [List.isEmpty_eq_false_iff]
    exact n.whole.ne_nil
  unfold readMagnitude
  rw [n.readWhole_text h]
  dsimp only
  rw [hwhole, if_neg Bool.false_ne_true, n.readFraction_text h]
  dsimp only
  rw [n.readExponent_text h]
  dsimp only
  rw [Option.isNone_map, n.getD_exponent]
  unfold value
  by_cases hinteger : n.isInteger = true
  · have hlength : ¬ maxIntegerDigits < n.whole.chars.length := by
      rw [isReadable, hinteger] at hreadable
      simpa using hreadable
    rw [if_pos (n.isInteger_iff.1 hinteger), if_neg hlength, if_pos hinteger]
  · rw [if_neg fun h => hinteger (n.isInteger_iff.2 h), if_neg hinteger]

theorem exists_cons_magnitudeText :
    ∃ d rest, n.magnitudeText = d :: rest ∧ d.isDigit = true := by
  obtain ⟨d, rest, hd⟩ := List.exists_cons_of_ne_nil n.whole.ne_nil
  refine ⟨d, rest ++ n.fractionText ++ n.exponentText, ?_, n.whole.isDigit d ?_⟩
  · rw [magnitudeText, hd, List.cons_append, List.cons_append]
  · rw [hd]
    exact List.mem_cons_self

theorem readAtom_text (hreadable : n.isReadable = true) (h : StopsAt continuesNumber tail) :
    readAtom (n.text ++ tail) = some (n.value, tail) := by
  have hmagnitude := n.readMagnitude_text hreadable h
  obtain ⟨d, rest, hd, hdigit⟩ := n.exists_cons_magnitudeText
  have hne : ∀ c : Char, c.isDigit = false → d ≠ c := by
    rintro c hc rfl
    rw [hdigit] at hc
    cases hc
  unfold text
  rw [hd, List.cons_append] at hmagnitude
  cases hnegative : n.negative with
  | true =>
    rw [hnegative] at hmagnitude
    rw [if_pos rfl, hd, List.singleton_append, List.cons_append, List.cons_append, readAtom.eq_def]
    split <;> simp_all
  | false =>
    rw [hnegative] at hmagnitude
    rw [if_neg Bool.false_ne_true, hd, List.nil_append, List.cons_append, readAtom.eq_def]
    split <;> simp_all

end Numeral

/-! ## Values -/

/-- The characters that words and numbers start with. -/
def startsAtom (c : Char) : Bool := c.isDigit || "-tfn".toList.contains c

/-- The characters that values start with. -/
def startsValue (c : Char) : Bool := startsAtom c || "\"[\x7b".toList.contains c

/-- A text that starts like a value. -/
def StartsValue (cs : List Char) : Prop := ∃ c rest, cs = c :: rest ∧ startsValue c = true

theorem StartsValue.append {cs : List Char} (h : StartsValue cs) (tail : List Char) :
    StartsValue (cs ++ tail) := by
  obtain ⟨c, rest, rfl, hstarts⟩ := h
  exact ⟨c, rest ++ tail, rfl, hstarts⟩

theorem Word.exists_cons_text (w : Word) : ∃ c rest, w.text = c :: rest ∧ startsAtom c = true := by
  rcases w with _ | _ | _ <;> exact ⟨_, _, rfl, rfl⟩

theorem Numeral.exists_cons_text (n : Numeral) :
    ∃ c rest, n.text = c :: rest ∧ startsAtom c = true := by
  obtain ⟨d, rest, hd, hdigit⟩ := n.exists_cons_magnitudeText
  unfold Numeral.text
  cases n.negative with
  | true => exact ⟨'-', n.magnitudeText, rfl, rfl⟩
  | false => exact ⟨d, rest, hd, by rw [startsAtom, hdigit, Bool.true_or]⟩

section

variable (change : List Char → List Char)

theorem Spelling.startsValue_textWith (v : Spelling) : StartsValue (v.textWith change) := by
  cases v with
  | word w =>
    obtain ⟨c, rest, hc, hstarts⟩ := w.exists_cons_text
    exact ⟨c, rest, hc, by rw [startsValue, hstarts, Bool.true_or]⟩
  | number n =>
    obtain ⟨c, rest, hc, hstarts⟩ := n.exists_cons_text
    exact ⟨c, rest, hc, by rw [startsValue, hstarts, Bool.true_or]⟩
  | _ => exact ⟨_, _, rfl, rfl⟩

theorem Spelling.startsValue_chars (v : Spelling) : StartsValue v.chars := v.startsValue_textWith id

theorem Items.startsValue_textWith (items : Items) : StartsValue (items.textWith change) := by
  cases items with
  | last item behind => exact (item.startsValue_textWith change).append _
  | more item behind next rest => exact (item.startsValue_textWith change).append _

theorem Pairs.exists_textWith (pairs : Pairs) : ∃ rest, pairs.textWith change = '"' :: rest := by
  cases pairs <;> exact ⟨_, rfl⟩

theorem Pairs.startsValue_textWith (pairs : Pairs) : StartsValue (pairs.textWith change) := by
  obtain ⟨rest, hrest⟩ := pairs.exists_textWith change
  exact ⟨'"', rest, hrest, rfl⟩

end

theorem stopsAt_blanks {p : Char → Bool} (b : Blanks) {tail : List Char}
    (hp : ∀ c, isBlank c = true → p c = false) (h : StopsAt p tail) :
    StopsAt p (b.chars ++ tail) := by
  have hall := b.isBlank
  cases hb : b.chars with
  | nil => exact h
  | cons c rest =>
    rw [hb] at hall
    exact stopsAt_cons.2 (hp c (hall c List.mem_cons_self))

theorem continuesNumber_of_isBlank (c : Char) (h : isBlank c = true) :
    continuesNumber c = false := by
  simp only [isBlank, Bool.or_eq_true, decide_eq_true_eq] at h
  rcases h with ((rfl | rfl) | rfl) | rfl <;> rfl

theorem isBlank_of_startsValue {c : Char} (h : startsValue c = true) : isBlank c = false := by
  rw [Bool.eq_false_iff]
  intro hblank
  simp only [isBlank, Bool.or_eq_true, decide_eq_true_eq] at hblank
  rcases hblank with ((rfl | rfl) | rfl) | rfl <;> cases h

/-- Words and numbers are read as such. -/
theorem readValue_atom {room : Nat} {cs tail : List Char} {v : Value}
    (hstarts : ∃ c rest, cs = c :: rest ∧ startsAtom c = true) (hroom : cs.length ≤ room)
    (hatom : readAtom (cs ++ tail) = some (v, tail)) :
    readValue room (cs ++ tail) = some (v, tail) := by
  obtain ⟨c, rest, rfl, h⟩ := hstarts
  obtain ⟨left, rfl⟩ := Nat.exists_eq_add_of_lt hroom
  rw [List.cons_append] at hatom ⊢
  rw [readValue.eq_def]
  dsimp only
  split
  · next heq => cases heq; cases h
  · next heq => cases heq; cases h
  · next heq => cases heq; cases h
  · exact hatom

theorem readAtom_word (w : Word) (tail : List Char) :
    readAtom (w.text ++ tail) = some (w.value, tail) := by
  rcases w with _ | _ | _ <;> simp [Word.text, Word.value, readAtom, readWord]

/-- A list is read behind its bracket and blanks. -/
theorem readValue_list {room : Nat} (before : Blanks) {c : Char} {rest : List Char}
    (h : startsValue c = true) :
    readValue (room + 1) ('[' :: (before.chars ++ c :: rest)) =
      (readItems room (c :: rest)).map fun (items, rest) => (.list items, rest) := by
  have hbracket : c ≠ ']' := by
    rintro rfl
    cases h
  rw [readValue, skipBlanks_mark before (isBlank_of_startsValue h)]
  split
  · next heq => cases heq; exact absurd rfl hbracket
  · cases readItems room (c :: rest) <;> rfl

/-- A mapping is read behind its brace and blanks. -/
theorem readValue_map {room : Nat} (before : Blanks) {rest : List Char} :
    readValue (room + 1) ('{' :: (before.chars ++ '"' :: rest)) =
      (readPairs room ('"' :: rest)).map fun (pairs, rest) =>
        (.map (Members.ofList pairs), rest) := by
  rw [readValue, skipBlanks_mark before rfl]
  split
  · next heq => cases heq
  · cases readPairs room ('"' :: rest) <;> rfl

/-- Blanks in front of a value. -/
theorem skipBlanks_before (b : Blanks) {cs : List Char} (h : StartsValue cs) :
    skipBlanks (b.chars ++ cs) = cs := by
  obtain ⟨c, rest, rfl, hstarts⟩ := h
  exact skipBlanks_mark b (isBlank_of_startsValue hstarts) rest

/-- The last item of a list is read with the bracket behind it. -/
theorem readItems_last {room : Nat} {cs tail : List Char} {v : Value} (behind : Blanks)
    (hv : readValue room cs = some (v, behind.chars ++ ']' :: tail)) :
    readItems (room + 1) cs = some ([v], tail) := by
  rw [readItems, hv]
  dsimp only [Option.bind_eq_bind, Option.bind_some]
  rw [skipBlanks_mark behind rfl]
  rfl

/-- An item is read with the comma behind it, and then the items behind that. -/
theorem readItems_more {room : Nat} {cs rest tail : List Char} {v : Value} {items : List Value}
    (behind : Blanks) (hv : readValue room cs = some (v, behind.chars ++ ',' :: rest))
    (hrest : readItems room (skipBlanks rest) = some (items, tail)) :
    readItems (room + 1) cs = some (v :: items, tail) := by
  rw [readItems, hv]
  dsimp only [Option.bind_eq_bind, Option.bind_some]
  rw [skipBlanks_mark behind rfl]
  simp [hrest]

/-- The last member of a mapping is read with the brace behind it. -/
theorem readPairs_last {room : Nat} {cs tail : List Char} {v : Value} (key : Key) (behind : Blanks)
    (hv : readValue room (skipBlanks cs) = some (v, behind.chars ++ '}' :: tail)) :
    readPairs (room + 1) (quotedText key.pieces ++ (key.gap.chars ++ ':' :: cs)) =
      some ([(.str (String.ofList (contentOf key.pieces)), v)], tail) := by
  rw [quotedText, List.cons_append, List.append_assoc, List.singleton_append, readPairs,
    readText_inner]
  dsimp only [Option.bind_eq_bind, Option.bind_some]
  rw [skipBlanks_mark key.gap rfl]
  simp [hv, skipBlanks_mark behind (c := '}') rfl]

/-- A member is read with the comma behind it, and then the members behind that. -/
theorem readPairs_more {room : Nat} {cs rest tail : List Char} {v : Value}
    {pairs : List (Scalar × Value)} (key : Key) (behind : Blanks)
    (hv : readValue room (skipBlanks cs) = some (v, behind.chars ++ ',' :: rest))
    (hrest : readPairs room (skipBlanks rest) = some (pairs, tail)) :
    readPairs (room + 1) (quotedText key.pieces ++ (key.gap.chars ++ ':' :: cs)) =
      some ((.str (String.ofList (contentOf key.pieces)), v) :: pairs, tail) := by
  rw [quotedText, List.cons_append, List.append_assoc, List.singleton_append, readPairs,
    readText_inner]
  dsimp only [Option.bind_eq_bind, Option.bind_some]
  rw [skipBlanks_mark key.gap rfl]
  simp [hv, hrest, skipBlanks_mark behind (c := ',') rfl]

mutual

theorem readValue_text : ∀ (v : Spelling) (room : Nat) (tail : List Char), v.isShared = true →
    v.chars.length ≤ room → StopsAt continuesNumber tail →
    readValue room (v.chars ++ tail) = some (v.value, tail)
  | .word w, room, tail, _, hroom, _ =>
    readValue_atom w.exists_cons_text hroom (readAtom_word w tail)
  | .number n, room, tail, hshared, hroom, htail =>
    readValue_atom n.exists_cons_text hroom (n.readAtom_text hshared htail)
  | .text pieces, room, tail, _, hroom, _ => by
    simp only [Spelling.chars, Spelling.textWith, Spelling.value, Spelling.valueWith,
      quotedText] at hroom ⊢
    obtain ⟨room, rfl⟩ := Nat.exists_eq_add_of_lt hroom
    rw [List.cons_append, List.append_assoc, List.singleton_append, readValue, readText_inner]
    rfl
  | .emptyList gap, room, tail, _, hroom, _ => by
    simp only [Spelling.chars, Spelling.textWith, Spelling.value, Spelling.valueWith, id] at hroom ⊢
    obtain ⟨room, rfl⟩ := Nat.exists_eq_add_of_lt hroom
    rw [List.cons_append, List.append_assoc, List.singleton_append, readValue,
      skipBlanks_mark gap rfl]
    rfl
  | .list before items, room, tail, hshared, hroom, _ => by
    obtain ⟨c, rest, hc, hstarts⟩ := items.startsValue_textWith id
    simp only [Spelling.isShared, Bool.and_eq_true] at hshared
    simp only [Spelling.chars, Spelling.textWith, Spelling.value, Spelling.valueWith, id,
      List.length_cons, List.length_append] at hroom ⊢
    obtain ⟨left, rfl⟩ : ∃ left, room = left + 1 := ⟨room - 1, by omega⟩
    have hitems := readItems_text items left tail hshared.2 (by omega)
    rw [hc, List.cons_append] at hitems
    rw [hc, List.cons_append, List.append_assoc, List.cons_append, readValue_list before hstarts,
      hitems]
    rfl
  | .emptyMap gap, room, tail, _, hroom, _ => by
    simp only [Spelling.chars, Spelling.textWith, Spelling.value, Spelling.valueWith, id] at hroom ⊢
    obtain ⟨room, rfl⟩ := Nat.exists_eq_add_of_lt hroom
    rw [List.cons_append, List.append_assoc, List.singleton_append, readValue,
      skipBlanks_mark gap rfl]
    rfl
  | .map before pairs, room, tail, hshared, hroom, _ => by
    obtain ⟨rest, hc⟩ := pairs.exists_textWith id
    simp only [Spelling.isShared, Bool.and_eq_true] at hshared
    simp only [Spelling.chars, Spelling.textWith, Spelling.value, Spelling.valueWith, id,
      List.length_cons, List.length_append] at hroom ⊢
    obtain ⟨left, rfl⟩ : ∃ left, room = left + 1 := ⟨room - 1, by omega⟩
    have hpairs := readPairs_text pairs left tail hshared.2 (by omega)
    rw [hc, List.cons_append] at hpairs
    rw [hc, List.cons_append, List.append_assoc, List.cons_append, readValue_map before, hpairs]
    rfl

theorem readItems_text : ∀ (items : Items) (room : Nat) (tail : List Char), items.isShared = true →
    (items.textWith id).length ≤ room →
    readItems room (items.textWith id ++ tail) = some (items.valuesWith Numeral.value, tail)
  | .last item behind, room, tail, hshared, hroom => by
    simp only [Items.isShared, Bool.and_eq_true] at hshared
    simp only [Items.textWith, Items.valuesWith, id, List.length_append, List.length_singleton]
      at hroom ⊢
    obtain ⟨left, rfl⟩ : ∃ left, room = left + 1 := ⟨room - 1, by omega⟩
    have hstops : StopsAt continuesNumber (behind.chars ++ ']' :: tail) :=
      stopsAt_blanks behind continuesNumber_of_isBlank (stopsAt_cons.2 rfl)
    have hitem := readValue_text item left _ hshared.1 (by rw [Spelling.chars]; omega) hstops
    rw [List.append_assoc, List.append_assoc, List.singleton_append]
    exact readItems_last behind hitem
  | .more item behind next rest, room, tail, hshared, hroom => by
    simp only [Items.isShared, Bool.and_eq_true] at hshared
    obtain ⟨⟨⟨hitemShared, -⟩, -⟩, hrestShared⟩ := hshared
    simp only [Items.textWith, Items.valuesWith, id, List.length_append, List.length_cons]
      at hroom ⊢
    obtain ⟨left, rfl⟩ : ∃ left, room = left + 1 := ⟨room - 1, by omega⟩
    have hstops : StopsAt continuesNumber
        (behind.chars ++ ',' :: (next.chars ++ (rest.textWith id ++ tail))) :=
      stopsAt_blanks behind continuesNumber_of_isBlank (stopsAt_cons.2 rfl)
    have hitem := readValue_text item left _ hitemShared (by rw [Spelling.chars]; omega) hstops
    have hrest := readItems_text rest left tail hrestShared (by omega)
    rw [← skipBlanks_before next ((rest.startsValue_textWith id).append tail)] at hrest
    rw [List.append_assoc, List.append_assoc, List.cons_append, List.append_assoc]
    exact readItems_more behind hitem hrest

theorem readPairs_text : ∀ (pairs : Pairs) (room : Nat) (tail : List Char), pairs.isShared = true →
    (pairs.textWith id).length ≤ room →
    readPairs room (pairs.textWith id ++ tail) = some (pairs.membersWith Numeral.value, tail)
  | .last key before item behind, room, tail, hshared, hroom => by
    simp only [Pairs.isShared, Bool.and_eq_true] at hshared
    obtain ⟨⟨-, hitemShared⟩, -⟩ := hshared
    simp only [Pairs.textWith, Pairs.membersWith, id, List.length_append, List.length_cons]
      at hroom ⊢
    obtain ⟨left, rfl⟩ : ∃ left, room = left + 1 := ⟨room - 1, by omega⟩
    have hstops : StopsAt continuesNumber (behind.chars ++ '}' :: tail) :=
      stopsAt_blanks behind continuesNumber_of_isBlank (stopsAt_cons.2 rfl)
    have hitem := readValue_text item left _ hitemShared (by rw [Spelling.chars]; omega) hstops
    rw [← skipBlanks_before before (item.startsValue_chars.append _)] at hitem
    simp only [List.append_assoc, List.cons_append, List.nil_append]
    exact readPairs_last key behind hitem
  | .more key before item behind next rest, room, tail, hshared, hroom => by
    simp only [Pairs.isShared, Bool.and_eq_true] at hshared
    obtain ⟨⟨⟨⟨-, hitemShared⟩, -⟩, -⟩, hrestShared⟩ := hshared
    simp only [Pairs.textWith, Pairs.membersWith, id, List.length_append, List.length_cons]
      at hroom ⊢
    obtain ⟨left, rfl⟩ : ∃ left, room = left + 1 := ⟨room - 1, by omega⟩
    have hstops : StopsAt continuesNumber
        (behind.chars ++ ',' :: (next.chars ++ (rest.textWith id ++ tail))) :=
      stopsAt_blanks behind continuesNumber_of_isBlank (stopsAt_cons.2 rfl)
    have hitem := readValue_text item left _ hitemShared (by rw [Spelling.chars]; omega) hstops
    have hrest := readPairs_text rest left tail hrestShared (by omega)
    rw [← skipBlanks_before before (item.startsValue_chars.append _)] at hitem
    rw [← skipBlanks_before next ((rest.startsValue_textWith id).append tail)] at hrest
    simp only [List.append_assoc, List.cons_append] at hitem hrest ⊢
    exact readPairs_more key behind hitem hrest

end

/-! ## Whole texts -/

/-- **The reader reads what is written.** -/
theorem read?_text (before behind : Blanks) (v : Spelling) (h : v.isShared = true) :
    read? (before.chars ++ v.chars ++ behind.chars) = some v.value := by
  have hstops : StopsAt continuesNumber (behind.chars ++ []) :=
    stopsAt_blanks behind continuesNumber_of_isBlank (stopsAt_nil _)
  rw [List.append_nil] at hstops
  have hvalue := readValue_text v (2 * (before.chars ++ v.chars ++ behind.chars).length + 2)
    behind.chars h (by simp only [List.length_append]; omega) hstops
  have hbehind : skipBlanks behind.chars = [] := by
    have := skipBlanks_append behind (stopsAt_nil isBlank)
    rwa [List.append_nil] at this
  unfold read?
  rw [List.append_assoc, skipBlanks_before before (v.startsValue_chars.append _)]
  rw [List.append_assoc] at hvalue
  rw [hvalue]
  dsimp only [Option.bind_eq_bind, Option.bind_some]
  rw [hbehind]
  rfl

end EndpointAtlas.Json
