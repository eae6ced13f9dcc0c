import EndpointAtlas.Proofs.Json
import EndpointAtlas.Proofs.Outcome
import EndpointAtlas.Proofs.Yaml.Position

/-!
# Texts of JSON as quoted scalars

A shared text of JSON is a quoted scalar with the same characters (`quotedScalar_text`). The scalar
is read in runs with spaces between them. Each piece goes on with what was read before it, and a
space ends a run, so what is read from a piece on is told together with what is read from the spaces
on that stand in front of it.
-/

namespace EndpointAtlas.Json

open Yaml (isBreak)

/-! ## Characters of pieces -/

/-- The character that a piece writes, unless it is half of a pair. -/
def Piece.char : Piece → Char
  | .raw c _ => c
  | .letter _ c _ => c
  | .number _ values _ _ => Char.ofNat (ofDigits 16 values)

/-- Whether a piece is a space that stands for itself. -/
def Piece.isSpace : Piece → Bool
  | .raw c _ => c = ' '
  | _ => false

theorem Piece.eq_of_isSpace {p : Piece} (h : p.isSpace = true) :
    p.text = [' '] ∧ p.char = ' ' := by
  cases p with
  | raw c isRaw =>
    have hspace : c = ' ' := of_decide_eq_true h
    subst hspace
    exact ⟨rfl, rfl⟩
  | letter l c escapes => cases h
  | number digits values isHex length_eq => cases h

theorem isBreak_of_isVisible {c : Char} (h : isVisible c = true) : isBreak c = false := by
  rw [Bool.eq_false_iff]
  intro hbreak
  simp only [isBreak, Bool.or_eq_true, decide_eq_true_eq] at hbreak
  rcases hbreak with (((rfl | rfl) | rfl) | rfl) | rfl <;> cases h

theorem ofUnits_eq_map {units : List Nat} (h : ∀ u ∈ units, ¬ (0xD800 ≤ u ∧ u < 0xE000)) :
    Text.ofUnits units = units.map Char.ofNat := by
  induction units using Text.ofUnits.induct with
  | case1 => rfl
  | case2 u hsurrogate => exact absurd hsurrogate (h u List.mem_cons_self)
  | case3 u hsurrogate => rw [Text.ofUnits, if_neg hsurrogate]; rfl
  | case4 u v rest hpair => exact absurd ⟨hpair.1, by omega⟩ (h u List.mem_cons_self)
  | case5 u v rest hpair hsurrogate => exact absurd hsurrogate (h u List.mem_cons_self)
  | case6 u v rest hpair hsurrogate ih =>
    rw [Text.ofUnits, if_neg hpair, if_neg hsurrogate,
      ih fun w hw => h w (List.mem_cons_of_mem u hw)]
    rfl

theorem not_surrogate (c : Char) : ¬ (0xD800 ≤ c.toNat ∧ c.toNat < 0xE000) := by
  have hvalid : c.toNat < 0xD800 ∨ (0xDFFF < c.toNat ∧ c.toNat < 0x110000) := c.valid
  omega

theorem Piece.not_surrogate_unit {p : Piece} (h : p.isShared = true) :
    ¬ (0xD800 ≤ p.unit ∧ p.unit < 0xE000) := by
  cases p with
  | raw c isRaw => exact not_surrogate c
  | letter l c escapes => exact not_surrogate c
  | number digits values isHex length_eq =>
    rw [Piece.isShared, Bool.or_eq_true, decide_eq_true_eq, decide_eq_true_eq] at h
    rw [Piece.unit]
    omega

theorem Piece.ofNat_unit (p : Piece) : Char.ofNat p.unit = p.char := by
  cases p with
  | raw c isRaw => exact Char.ofNat_toNat c
  | letter l c escapes => exact Char.ofNat_toNat c
  | number digits values isHex length_eq => rfl

/-- The content of a shared text has a character for each piece. -/
theorem contentOf_eq_map {pieces : List Piece} (h : pieces.all Piece.isShared = true) :
    contentOf pieces = pieces.map Piece.char := by
  rw [contentOf, ofUnits_eq_map, List.map_map]
  · exact List.map_congr_left fun p _ => p.ofNat_unit
  · intro u hu
    obtain ⟨p, hp, rfl⟩ := List.mem_map.1 hu
    exact Piece.not_surrogate_unit (List.all_eq_true.1 h p hp)

theorem hexValue?_lt {c : Char} {n : Nat} (h : hexValue? c = some n) : n < 16 := by
  have hle : ∀ {a b : Char}, a ≤ b → a.toNat ≤ b.toNat := fun hab => hab
  have hnine : '9'.toNat = '0'.toNat + 9 := rfl
  have hlower : 'f'.toNat = 'a'.toNat + 5 := rfl
  have hupper : 'F'.toNat = 'A'.toNat + 5 := rfl
  unfold hexValue? at h
  split_ifs at h with hc hc hc
  all_goals
    have := hle hc.2
    cases h
    omega

theorem ofDigits_lt_of_hexValue? {digits : List Char} {values : List Nat}
    (h : digits.mapM hexValue? = some values) : ofDigits 16 values < 16 ^ digits.length := by
  have hdigits := forall₂_of_mapM h
  rw [hdigits.length_eq]
  apply ofDigits_lt_pow
  intro v hv
  obtain ⟨c, -, hc⟩ := Outcome.exists_of_forall₂ hdigits hv
  exact hexValue?_lt hc

theorem ofDigits_lt {digits : List Char} {values : List Nat}
    (isHex : digits.mapM hexValue? = some values) (length_eq : digits.length = 4) :
    ofDigits 16 values < 0x10000 := by
  have hlt := ofDigits_lt_of_hexValue? isHex
  rw [length_eq] at hlt
  exact hlt

end EndpointAtlas.Json

namespace EndpointAtlas.Yaml

open Json (Piece innerText quotedText StopsAt stopsAt_cons)

variable {c : Cursor} {ch : Char} {text rest tail : List Char}

/-! ## Escapes -/

theorem escapedChar?_of_escaped? {letter : Char} (h : Json.escaped? letter = some ch) :
    escapedChar? letter = some ch := by
  unfold Json.escaped? at h
  split at h <;> first | exact h | cases h

theorem escapeSequence_letter {letter : Char} (hc : c.rest = letter :: rest)
    (h : Json.escaped? letter = some ch) : escapeSequence c = .ok ([ch], c.next) := by
  rw [escapeSequence, Cursor.peek_eq hc, escapedChar?_of_escaped? h]

theorem escapeSequence_number {digits : List Char} {values : List Nat}
    (isHex : digits.mapM Json.hexValue? = some values) (length_eq : digits.length = 4)
    (hc : c.rest = 'u' :: (digits ++ tail)) :
    escapeSequence c = .ok ([Char.ofNat (Json.ofDigits 16 values)], c.next.skip 4) := by
  have hbound := Json.ofDigits_lt isHex length_eq
  have hescaped : escapedChar? 'u' = none := rfl
  have hwidth : escapeWidth? 'u' = some 4 := rfl
  have hhex : hexNumber? 4 (digits ++ tail) = some (Json.ofDigits 16 values) := by
    have hlength : ¬ (digits ++ tail).length < 4 := by
      rw [List.length_append]
      omega
    rw [hexNumber?, if_neg hlength, List.take_left' length_eq, isHex]
    rfl
  have hcode : charOfCode (Json.ofDigits 16 values) =
      .ok (Char.ofNat (Json.ofDigits 16 values)) := by
    rw [charOfCode, if_pos (by omega)]
  rw [escapeSequence, Cursor.peek_eq hc, hescaped, hwidth]
  dsimp only
  rw [Cursor.rest_next hc (by decide), hhex]
  dsimp only
  rw [hcode]
  rfl

/-! ## Runs -/

theorem Cursor.takeWhile_cons {p : Char → Bool} (hc : c.rest = ch :: rest) (hreturn : ch ≠ '\r')
    (h : p ch = true) :
    c.takeWhile p = (ch :: (c.next.takeWhile p).1, (c.next.takeWhile p).2) := by
  have hrest := Cursor.rest_next hc hreturn
  simp only [Cursor.takeWhile, hc, hrest, List.takeWhile_cons, h, if_true, List.length_cons]
  rfl

theorem Cursor.takeWhile_of_stopsAt {p : Char → Bool} (h : StopsAt p c.rest) :
    c.takeWhile p = ([], c) := by
  have hc : c.rest = [] ++ c.rest := rfl
  exact Cursor.takeWhile_eq hc (List.forall_mem_nil _) h

/-- A character that ends no run is read. -/
theorem quotedRun_plain {room : Nat} (hc : c.rest = ch :: rest) (h : endsRun ch = false) :
    quotedRun true (room + 1) text c = quotedRun true (room + 1) (text ++ [ch]) c.next := by
  have hreturn : ch ≠ '\r' := by
    rintro rfl
    cases h
  have htake := Cursor.takeWhile_cons (p := fun ch => !endsRun ch) hc hreturn (by rw [h]; rfl)
  rw [quotedRun, quotedRun, htake]
  dsimp only
  rw [List.append_cons text ch]

/-- A single quote is read. -/
theorem quotedRun_singleQuote {room : Nat} (hc : c.rest = '\'' :: rest) :
    quotedRun true (room + 1) text c = quotedRun true room (text ++ ['\'']) c.next := by
  have htake := Cursor.takeWhile_of_stopsAt (c := c) (p := fun ch => !endsRun ch)
    (hc ▸ stopsAt_cons.2 rfl)
  rw [quotedRun, htake]
  dsimp only
  rw [Cursor.peek_eq hc, List.append_nil]
  rfl

/-- An escape is read as its character. -/
theorem quotedRun_escape {room : Nat} {escaped : List Char} {c' : Cursor}
    (hc : c.rest = '\\' :: rest) (h : escapeSequence c.next = .ok (escaped, c')) :
    quotedRun true (room + 1) text c = quotedRun true room (text ++ escaped) c' := by
  have htake := Cursor.takeWhile_of_stopsAt (c := c) (p := fun ch => !endsRun ch)
    (hc ▸ stopsAt_cons.2 rfl)
  rw [quotedRun, htake]
  dsimp only
  rw [Cursor.peek_eq hc, List.append_nil, h]
  rfl

/-- A space or the quote ends a run. -/
theorem quotedRun_stop {room : Nat} (hc : c.rest = ch :: rest) (h : ch = ' ' ∨ ch = '"') :
    quotedRun true room text c = .ok (text, c) := by
  cases room with
  | zero => rfl
  | succ room =>
    have hstops : StopsAt (fun ch => !endsRun ch) c.rest := by
      rw [hc, stopsAt_cons]
      rcases h with rfl | rfl <;> rfl
    rw [quotedRun, Cursor.takeWhile_of_stopsAt hstops]
    dsimp only
    rw [Cursor.peek_eq hc, List.append_nil]
    rcases h with rfl | rfl <;> rfl

/-! ## Spaces -/

theorem quotedSpaces_eq {spaces : List Char} (hc : c.rest = spaces ++ ch :: tail)
    (hspaces : ∀ d ∈ spaces, d = ' ') (hblank : (ch = ' ' || ch = '\t') = false)
    (hbreak : isBreak ch = false) :
    quotedSpaces c = .ok (spaces, c.skip spaces.length) ∧
      c.Runs spaces (c.skip spaces.length) := by
  have hruns := Cursor.runs_skip hc fun d hd => by rw [hspaces d hd]; rfl
  have hrest := Cursor.rest_of_runs hruns hc
  refine ⟨?_, hruns⟩
  rw [quotedSpaces, Cursor.takeWhile_eq hc (fun d hd => by rw [hspaces d hd]; rfl)
    (stopsAt_cons.2 hblank)]
  dsimp only
  rw [hrest, Cursor.peek_eq hrest, hbreak]
  rfl

/-! ## Pieces -/

/-- From the end of a run on, a quoted scalar has a text and ends at a position. -/
def EndsWith (text : List Char) (c : Cursor) (whole : List Char) (c' : Cursor) : Prop :=
  ∀ room, c.rest.length < room → quotedFrom true room text c = .ok (whole, c')

/-- From a position inside a run on, pieces are read up to the quote behind them. -/
def ReadsOn (pieces : List Piece) : Prop :=
  ∀ room text c tail, pieces.length < room → c.rest = innerText pieces ++ '"' :: tail →
    ∃ text' c' c'', quotedRun true room text c = .ok (text', c') ∧
      c'.rest.length ≤ c.rest.length ∧ EndsWith text' c' (text ++ pieces.map Piece.char) c'' ∧
      c.Runs (innerText pieces ++ ['"']) c''

/-- From spaces on, pieces are read up to the quote behind them. -/
def ReadsBehindSpaces (pieces : List Piece) : Prop :=
  ∀ spaces text c tail, spaces ≠ [] → (∀ ch ∈ spaces, ch = ' ') →
    c.rest = spaces ++ (innerText pieces ++ '"' :: tail) →
    ∃ c'', EndsWith text c (text ++ (spaces ++ pieces.map Piece.char)) c'' ∧
      c.Runs (spaces ++ (innerText pieces ++ ['"'])) c''

theorem innerText_cons (p : Piece) (pieces : List Piece) :
    innerText (p :: pieces) = p.text ++ innerText pieces := by
  rw [innerText, List.flatMap_cons]
  rfl

theorem length_le_innerText (pieces : List Piece) : pieces.length ≤ (innerText pieces).length := by
  induction pieces with
  | nil => exact Nat.le_refl 0
  | cons p rest ih =>
    have hp : 1 ≤ p.text.length := by
      cases p <;> exact Nat.succ_le_succ (Nat.zero_le _)
    rw [innerText_cons, List.length_append, List.length_cons]
    omega

theorem readsOn_nil : ReadsOn [] := by
  intro room text c tail _ hc
  refine ⟨text, c, c.next, quotedRun_stop hc (.inr rfl), Nat.le_refl _, ?_,
    Cursor.runs_next hc rfl⟩
  intro room' hroom'
  obtain ⟨left, rfl⟩ : ∃ left, room' = left + 1 := ⟨room' - 1, by omega⟩
  rw [quotedFrom, Cursor.peek_eq hc, if_pos rfl, if_pos rfl, List.map_nil, List.append_nil]

/-! ## Pieces inside a run -/

/-- A piece that a run goes on with. -/
def GoesOn (p : Piece) : Prop :=
  ∀ room text c rest, c.rest = p.text ++ rest →
    ∃ c' room', c.Runs p.text c' ∧ room ≤ room' ∧
      quotedRun true (room + 1) text c = quotedRun true room' (text ++ [p.char]) c'

theorem goesOn_raw (isRaw : 32 ≤ ch.toNat ∧ ch ≠ '"' ∧ ch ≠ '\\')
    (hbreak : isBreak ch = false) (hspace : ch ≠ ' ') : GoesOn (.raw ch isRaw) := by
  intro room text c rest hc
  have hruns := Cursor.runs_next hc hbreak
  by_cases hsingle : ch = '\''
  · subst hsingle
    exact ⟨c.next, room, hruns, Nat.le_refl room, quotedRun_singleQuote hc⟩
  · obtain ⟨hcontrol, hquote, hbackslash⟩ := isRaw
    have htab : ch ≠ '\t' := by
      rintro rfl
      exact absurd hcontrol (by decide)
    have hend : ch ≠ endMark := by
      rintro rfl
      exact absurd hcontrol (by decide)
    have hends : endsRun ch = false := by
      simp [endsRun, isBlankOrEnd, isSpaceOrEnd, isBreakOrEnd, *]
    exact ⟨c.next, room + 1, hruns, Nat.le_succ room, quotedRun_plain hc hends⟩

theorem goesOn_letter {letter : Char} (escapes : Json.escaped? letter = some ch) :
    GoesOn (.letter letter ch escapes) := by
  intro room text c rest hc
  change c.rest = '\\' :: letter :: rest at hc
  have hnext := Cursor.rest_next hc (by decide)
  have hletter := Json.isBreak_of_isVisible (Json.isVisible_of_escaped? escapes)
  have hruns := (Cursor.runs_next hc rfl).trans (Cursor.runs_next hnext hletter)
  exact ⟨c.next.next, room, hruns, Nat.le_refl room,
    quotedRun_escape hc (escapeSequence_letter hnext escapes)⟩

theorem goesOn_number {digits : List Char} {values : List Nat}
    (isHex : digits.mapM Json.hexValue? = some values) (length_eq : digits.length = 4) :
    GoesOn (.number digits values isHex length_eq) := by
  intro room text c rest hc
  change c.rest = '\\' :: 'u' :: (digits ++ rest) at hc
  have hnext := Cursor.rest_next hc (by decide)
  have hdigits := Cursor.rest_next hnext (by decide)
  have hhex := Json.isSome_of_forall₂ (Json.forall₂_of_mapM isHex)
  have hbreak : ∀ ch ∈ digits, isBreak ch = false := fun ch hch =>
    Json.isBreak_of_isVisible (Json.isVisible_of_hexValue? (hhex ch hch))
  have hruns := (Cursor.runs_next hc rfl).trans
    ((Cursor.runs_next hnext rfl).trans (Cursor.runs_skip hdigits hbreak))
  rw [length_eq] at hruns
  exact ⟨c.next.next.skip 4, room, hruns, Nat.le_refl room,
    quotedRun_escape hc (escapeSequence_number isHex length_eq hnext)⟩

/-- A run goes on with every piece that is no space. -/
theorem goesOn_of_not_isSpace {p : Piece} (hshared : p.isShared = true) (h : p.isSpace = false) :
    GoesOn p := by
  cases p with
  | raw ch isRaw =>
    rw [Piece.isShared, Bool.and_eq_true, Bool.not_eq_true'] at hshared
    exact goesOn_raw isRaw hshared.2 (of_decide_eq_false h)
  | letter l ch escapes => exact goesOn_letter escapes
  | number digits values isHex length_eq => exact goesOn_number isHex length_eq

/-- A piece that a run goes on with is read in front of the others. -/
theorem ReadsOn.cons {p : Piece} {pieces : List Piece} (h : ReadsOn pieces) (hp : GoesOn p) :
    ReadsOn (p :: pieces) := by
  intro room text c tail hroom hc
  rw [innerText_cons, List.append_assoc] at hc
  rw [List.length_cons] at hroom
  obtain ⟨left, rfl⟩ : ∃ left, room = left + 1 := ⟨room - 1, by omega⟩
  obtain ⟨c₁, room₁, hruns₁, hle, hrun⟩ := hp left text c _ hc
  have hrest := Cursor.rest_of_runs hruns₁ hc
  obtain ⟨text', c', c'', hread, hlength, hends, hruns⟩ :=
    h room₁ (text ++ [p.char]) c₁ tail (by omega) hrest
  have hshorter : c₁.rest.length ≤ c.rest.length := by
    rw [hruns₁.rest, List.length_append]
    omega
  refine ⟨text', c', c'', hrun.trans hread, Nat.le_trans hlength hshorter, ?_, ?_⟩
  · rw [List.append_assoc, List.singleton_append, ← List.map_cons] at hends
    exact hends
  · rw [innerText_cons, List.append_assoc]
    exact hruns₁.trans hruns

/-! ## Spaces between runs -/

/-- A space ends a run. -/
theorem ReadsBehindSpaces.readsOn {p : Piece} {pieces : List Piece} (h : ReadsBehindSpaces pieces)
    (hp : p.isSpace = true) : ReadsOn (p :: pieces) := by
  obtain ⟨htext, hchar⟩ := Piece.eq_of_isSpace hp
  intro room text c tail _ hc
  rw [innerText_cons, htext, List.singleton_append, List.cons_append] at hc
  obtain ⟨c'', hends, hruns⟩ := h [' '] text c tail (List.cons_ne_nil _ _)
    (fun ch hch => List.mem_singleton.1 hch) hc
  refine ⟨text, c, c'', quotedRun_stop hc (.inl rfl), Nat.le_refl _, ?_, ?_⟩
  · rw [List.map_cons, hchar]
    exact hends
  · rw [innerText_cons, htext, List.append_assoc]
    exact hruns

/-- One more space is read with those in front of it. -/
theorem ReadsBehindSpaces.cons {p : Piece} {pieces : List Piece} (h : ReadsBehindSpaces pieces)
    (hp : p.isSpace = true) : ReadsBehindSpaces (p :: pieces) := by
  obtain ⟨htext, hchar⟩ := Piece.eq_of_isSpace hp
  intro spaces text c tail hne hspaces hc
  rw [innerText_cons, htext, List.append_assoc, ← List.append_assoc] at hc
  have hmore : ∀ ch ∈ spaces ++ [' '], ch = ' ' :=
    List.forall_mem_append.2 ⟨hspaces, fun ch hch => List.mem_singleton.1 hch⟩
  obtain ⟨c'', hends, hruns⟩ := h (spaces ++ [' ']) text c tail (by simp) hmore hc
  refine ⟨c'', ?_, ?_⟩
  · rw [List.append_assoc, List.singleton_append] at hends
    rw [List.map_cons, hchar]
    exact hends
  · rw [innerText_cons, htext, List.append_assoc, ← List.append_assoc]
    exact hruns

theorem Piece.exists_cons_text {p : Piece} (hshared : p.isShared = true) (h : p.isSpace = false) :
    ∃ ch rest, p.text = ch :: rest ∧ (ch = ' ' || ch = '\t') = false ∧ isBreak ch = false := by
  cases p with
  | raw ch isRaw =>
    rw [Piece.isShared, Bool.and_eq_true, Bool.not_eq_true'] at hshared
    have hspace : ch ≠ ' ' := of_decide_eq_false h
    have htab : ch ≠ '\t' := by
      rintro rfl
      exact absurd isRaw.1 (by decide)
    exact ⟨ch, [], rfl, by simp [hspace, htab], hshared.2⟩
  | letter l ch escapes => exact ⟨'\\', [l], rfl, rfl, rfl⟩
  | number digits values isHex length_eq => exact ⟨'\\', 'u' :: digits, rfl, rfl, rfl⟩

/-- Spaces are read up to the first piece that is none, and a run starts with that. -/
theorem ReadsOn.behindSpaces {pieces : List Piece} (h : ReadsOn pieces)
    (hshared : pieces.all Piece.isShared = true)
    (hp : ∀ p ∈ pieces.head?, p.isSpace = false) : ReadsBehindSpaces pieces := by
  intro spaces text c tail hne hspaces hc
  obtain ⟨ch, others, hothers, hblank, hbreak⟩ :
      ∃ ch others, innerText pieces ++ '"' :: tail = ch :: others ∧
        (ch = ' ' || ch = '\t') = false ∧ isBreak ch = false := by
    cases pieces with
    | nil => exact ⟨'"', tail, rfl, rfl, rfl⟩
    | cons p rest =>
      rw [List.all_cons, Bool.and_eq_true] at hshared
      obtain ⟨ch, more, hmore, hblank, hbreak⟩ :=
        Piece.exists_cons_text hshared.1 (hp p rfl)
      exact ⟨ch, _, by rw [innerText_cons, hmore, List.cons_append, List.cons_append], hblank,
        hbreak⟩
  obtain ⟨hread, hruns⟩ := quotedSpaces_eq (hothers ▸ hc) hspaces hblank hbreak
  have hrest := Cursor.rest_of_runs hruns hc
  have hroom : pieces.length < (c.skip spaces.length).rest.length + 1 := by
    have := length_le_innerText pieces
    rw [hrest, List.length_append]
    omega
  obtain ⟨text', c', c'', hrun, hlength, hends, hruns'⟩ :=
    h _ (text ++ spaces) (c.skip spaces.length) tail hroom hrest
  refine ⟨c'', ?_, hruns.trans hruns'⟩
  intro room hroom
  have hspaces' : 0 < spaces.length := List.length_pos_iff.2 hne
  have hshorter : c.rest.length = spaces.length + (c.skip spaces.length).rest.length := by
    rw [hc, hrest, List.length_append]
  obtain ⟨left, rfl⟩ : ∃ left, room = left + 1 := ⟨room - 1, by omega⟩
  have hpeek : c.peek = ' ' := by
    obtain ⟨space, more, hmore⟩ := List.exists_cons_of_ne_nil hne
    rw [hmore, List.cons_append] at hc
    rw [Cursor.peek_eq hc]
    exact hspaces space (hmore ▸ List.mem_cons_self)
  rw [quotedFrom, hpeek, if_pos rfl, if_neg (by decide), hread]
  change quotedRun true _ (text ++ spaces) _ >>= _ = _
  rw [hrun, ← List.append_assoc]
  exact hends left (by omega)

/-! ## Whole texts -/

theorem readsOn_and_behindSpaces {pieces : List Piece} (h : pieces.all Piece.isShared = true) :
    ReadsOn pieces ∧ ReadsBehindSpaces pieces := by
  induction pieces with
  | nil => exact ⟨readsOn_nil, readsOn_nil.behindSpaces h fun p hp => by cases hp⟩
  | cons p rest ih =>
    have hshared := h
    rw [List.all_cons, Bool.and_eq_true] at h
    obtain ⟨hon, hbehind⟩ := ih h.2
    cases hspace : p.isSpace with
    | true => exact ⟨hbehind.readsOn hspace, hbehind.cons hspace⟩
    | false =>
      have hcons := hon.cons (goesOn_of_not_isSpace h.1 hspace)
      refine ⟨hcons, hcons.behindSpaces hshared fun q hq => ?_⟩
      cases hq
      exact hspace

/-- **A shared text of JSON is a quoted scalar with the same characters.** -/
theorem quotedScalar_text {pieces : List Piece} (h : pieces.all Piece.isShared = true)
    (hc : c.rest = quotedText pieces ++ tail) :
    ∃ c', quotedScalar true c = .ok (Json.contentOf pieces, c') ∧
      c.Runs (quotedText pieces) c' := by
  rw [quotedText, List.cons_append, List.append_assoc, List.singleton_append] at hc
  have hnext := Cursor.rest_next hc (by decide)
  have hroom : pieces.length < c.next.rest.length + 1 := by
    have := length_le_innerText pieces
    rw [hnext, List.length_append]
    omega
  obtain ⟨text', c', c'', hrun, -, hends, hruns⟩ :=
    (readsOn_and_behindSpaces h).1 _ [] c.next tail hroom hnext
  refine ⟨c'', ?_, (Cursor.runs_next hc rfl).trans hruns⟩
  change quotedRun true _ [] c.next >>= _ = _
  rw [hrun, Json.contentOf_eq_map h]
  exact hends _ (Nat.lt_succ_self _)

end EndpointAtlas.Yaml
