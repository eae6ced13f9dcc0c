import EndpointAtlas.Proofs.Yaml.Position

/-!
# Words and numbers between marks

In a flow collection a plain scalar ends at a blank or at a mark. A word or a number of JSON is
therefore read as a whole, and so are the blanks between it and the mark behind it
(`plainScalar_atom`).
-/

namespace EndpointAtlas.Yaml

open Json (numberChars IsSpacing)

variable {c : Cursor} {mark : Char} {b cs rest : List Char}

/-- The marks that can stand behind a value. -/
def closers : List Char := [',', ']', '}']

/-- The characters of words and numbers. -/
def atomChars : List Char := numberChars ++ "truefalsn".toList

/-- The characters that words and numbers start with. -/
def atomHeads : List Char := "tfn-0123456789".toList

/-- A text of such characters. Behind a minus there is a digit. -/
structure IsAtom (cs : List Char) : Prop where
  chars : ∀ ch ∈ cs, ch ∈ atomChars
  head : ∃ ch more, cs = ch :: more ∧ ch ∈ atomHeads ∧
    (ch = '-' → isBlankOrEnd (more.headD endMark) = false ∧ more.headD endMark ≠ '-')

theorem isAtom_word (w : Json.Word) : IsAtom w.text := by
  have hall : ∀ cs : List Char, (cs.all fun ch => decide (ch ∈ atomChars)) = true →
      ∀ ch ∈ cs, ch ∈ atomChars := fun _ h => List.all_iff_forall_prop.1 h
  rcases w with _ | _ | _
  · exact ⟨hall _ (by decide), 'n', "ull".toList, rfl, by decide, fun h => absurd h (by decide)⟩
  · exact ⟨hall _ (by decide), 'f', "alse".toList, rfl, by decide, fun h => absurd h (by decide)⟩
  · exact ⟨hall _ (by decide), 't', "rue".toList, rfl, by decide, fun h => absurd h (by decide)⟩

theorem isAtom_numeral (n : Json.Numeral) : IsAtom n.text := by
  refine ⟨fun ch h => List.mem_append_left _ (n.mem_numberChars h), ?_⟩
  obtain ⟨d, rest, hd, hdigit⟩ := n.exists_cons_magnitudeText
  have hmem := Json.mem_numberChars_of_isDigit hdigit
  unfold Json.Numeral.text
  cases n.negative with
  | true =>
    have hall : ∀ d ∈ numberChars, d.isDigit = true → isBlankOrEnd d = false ∧ d ≠ '-' :=
      List.all_iff_forall_prop.1 (by decide)
    refine ⟨'-', n.magnitudeText, rfl, by decide, fun _ => ?_⟩
    rw [hd]
    exact hall d hmem hdigit
  | false =>
    have hall : ∀ d ∈ numberChars, d.isDigit = true → d ∈ atomHeads ∧ d ≠ '-' :=
      List.all_iff_forall_prop.1 (by decide)
    exact ⟨d, rest, hd, (hall d hmem hdigit).1, fun h => absurd h (hall d hmem hdigit).2⟩

/-! ## Where a plain scalar ends -/

/-- The blanks and the mark behind a value start with a character that ends plain scalars. -/
theorem plainLength_behind (hb : IsSpacing b) (hmark : mark ∈ closers) (rest : List Char) :
    plainLength true (b ++ mark :: rest) = 0 := by
  cases b with
  | nil =>
    have hall : ∀ m ∈ closers, flowMarks.contains m = true := List.all_iff_forall_prop.1 (by decide)
    rw [List.nil_append, plainLength, hall mark hmark]
    simp
  | cons ch b =>
    have hblank : isBlankOrEnd ch = true := by
      rcases hb ch List.mem_cons_self with rfl | rfl <;> rfl
    rw [List.cons_append, plainLength, hblank]
    simp

theorem plainLength_atom (hcs : ∀ ch ∈ cs, ch ∈ atomChars) (tail : List Char) :
    plainLength true (cs ++ tail) = cs.length + plainLength true tail := by
  induction cs with
  | nil => rw [List.nil_append, List.length_nil, Nat.zero_add]
  | cons ch cs ih =>
    rw [List.forall_mem_cons] at hcs
    have hblank : ∀ ch ∈ atomChars, isBlankOrEnd ch = false :=
      List.all_iff_forall_prop.1 (by decide)
    have hcolon : ∀ ch ∈ atomChars, decide (ch = ':') = false :=
      List.all_iff_forall_prop.1 (by decide)
    have hflow : ∀ ch ∈ atomChars, flowMarks.contains ch = false :=
      List.all_iff_forall_prop.1 (by decide)
    rw [List.cons_append, plainLength, hblank ch hcs.1, hcolon ch hcs.1, hflow ch hcs.1, ih hcs.2,
      List.length_cons]
    simp
    omega

/-! ## Blanks behind a value -/

theorem atDocumentMark_behind (hb : IsSpacing b) (hmark : mark ∈ closers)
    (hc : c.rest = b ++ mark :: rest) : c.atDocumentMark = false := by
  obtain ⟨ch, more, hch, hne⟩ : ∃ ch more, c.rest = ch :: more ∧ ch ≠ '-' ∧ ch ≠ '.' := by
    cases b with
    | nil =>
      have hall : ∀ m ∈ closers, m ≠ '-' ∧ m ≠ '.' := List.all_iff_forall_prop.1 (by decide)
      exact ⟨mark, rest, hc, hall mark hmark⟩
    | cons ch b =>
      refine ⟨ch, b ++ mark :: rest, hc, ?_⟩
      rcases hb ch List.mem_cons_self with rfl | rfl <;> decide
  have hpeek : c.peekAt 0 = ch := by
    rw [Cursor.peekAt, hch]
    rfl
  rw [Cursor.atDocumentMark, Cursor.atMarks, Cursor.atMarks, hpeek, decide_eq_false hne.1,
    decide_eq_false hne.2]
  rfl

/-- Line ends and spaces are passed over up to the mark. -/
theorem plainBreaks_behind (hb : IsSpacing b) (hmark : mark ∈ closers) {room : Nat}
    (breaks : List Char) (hroom : b.length < room) (hc : c.rest = b ++ mark :: rest) :
    ∃ further c', plainBreaks room breaks c = (some further, c') ∧ c'.rest = mark :: rest := by
  induction b generalizing room breaks c with
  | nil =>
    have hall : ∀ m ∈ closers, m ≠ ' ' ∧ isBreak m = false := List.all_iff_forall_prop.1 (by decide)
    obtain ⟨hspace, hbreak⟩ := hall mark hmark
    obtain ⟨left, rfl⟩ : ∃ left, room = left + 1 := ⟨room - 1, by omega⟩
    refine ⟨breaks, c, ?_, hc⟩
    rw [plainBreaks, Cursor.peek_eq hc, if_neg hspace, hbreak, if_neg Bool.false_ne_true]
  | cons ch b ih =>
    obtain ⟨hch, hrest⟩ := List.forall_mem_cons.1 hb
    rw [List.length_cons] at hroom
    rw [List.cons_append] at hc
    obtain ⟨left, rfl⟩ : ∃ left, room = left + 1 := ⟨room - 1, by omega⟩
    rcases hch with rfl | rfl
    · have hnext := Cursor.rest_next hc (by decide)
      rw [plainBreaks, Cursor.peek_eq hc, if_pos rfl]
      exact ih hrest breaks (by omega) hnext
    · have hnext := Cursor.rest_next hc (by decide)
      have hfeed : isBreak '\n' = true := rfl
      rw [plainBreaks, Cursor.peek_eq hc, if_neg (by decide), if_pos hfeed, Cursor.lineBreak_eq hc]
      dsimp only
      rw [atDocumentMark_behind hrest hmark hnext, if_neg Bool.false_ne_true]
      exact ih hrest _ (by omega) hnext

/-- Blanks are spaces, and then nothing or a line end with further blanks. -/
theorem cases_of_isSpacing (hb : IsSpacing b) :
    ∃ spaces, (∀ ch ∈ spaces, ch = ' ') ∧
      (b = spaces ∨ ∃ further, b = spaces ++ '\n' :: further ∧ IsSpacing further) := by
  induction b with
  | nil => exact ⟨[], List.forall_mem_nil _, .inl rfl⟩
  | cons ch b ih =>
    obtain ⟨hch, hrest⟩ := List.forall_mem_cons.1 hb
    rcases hch with rfl | rfl
    · obtain ⟨spaces, hspaces, hcases⟩ := ih hrest
      refine ⟨' ' :: spaces, List.forall_mem_cons.2 ⟨rfl, hspaces⟩, ?_⟩
      rcases hcases with rfl | ⟨further, rfl, hfurther⟩
      · exact .inl rfl
      · exact .inr ⟨further, rfl, hfurther⟩
    · exact ⟨[], List.forall_mem_nil _, .inr ⟨b, rfl, hrest⟩⟩

/-- The gap behind a value ends at the mark. -/
theorem plainGap_behind (hb : IsSpacing b) (hmark : mark ∈ closers)
    (hc : c.rest = b ++ mark :: rest) : (plainGap c).cursor.rest = mark :: rest := by
  have hall : ∀ m ∈ closers, m ≠ ' ' ∧ isBreak m = false := List.all_iff_forall_prop.1 (by decide)
  obtain ⟨hspace, hbreak⟩ := hall mark hmark
  obtain ⟨spaces, hspaces, rfl | ⟨further, rfl, hfurther⟩⟩ := cases_of_isSpacing hb
  · have hruns := Cursor.runs_skip hc fun ch hch => by rw [hspaces ch hch]; rfl
    have hrest := Cursor.rest_of_runs hruns hc
    rw [plainGap, Cursor.takeWhile_eq hc (fun ch hch => decide_eq_true (hspaces ch hch))
      (Json.stopsAt_cons.2 (decide_eq_false hspace))]
    dsimp only
    rw [Cursor.peek_eq hrest, hbreak, if_neg Bool.false_ne_true]
    exact hrest
  · rw [List.append_assoc, List.cons_append] at hc
    have hruns := Cursor.runs_skip hc fun ch hch => by rw [hspaces ch hch]; rfl
    have hrest := Cursor.rest_of_runs hruns hc
    have hnext := Cursor.rest_next hrest (by decide)
    have hfeed : isBreak '\n' = true := rfl
    obtain ⟨breaks, c', hbreaks, hc'⟩ := plainBreaks_behind hfurther hmark []
      (show further.length < (c.skip spaces.length).next.rest.length by
        rw [hnext, List.length_append, List.length_cons]
        omega) hnext
    rw [plainGap, Cursor.takeWhile_eq hc (fun ch hch => decide_eq_true (hspaces ch hch))
      (Json.stopsAt_cons.2 rfl)]
    dsimp only
    rw [Cursor.peek_eq hrest, if_pos hfeed, Cursor.lineBreak_eq hrest]
    dsimp only
    rw [atDocumentMark_behind hfurther hmark hnext, if_neg Bool.false_ne_true, hbreaks]
    exact hc'

/-! ## Words and numbers -/

/-- In front of a mark nothing more is read. -/
theorem plainFrom_mark {indent : Int} {room : Nat} {text gap : List Char} {newLine : Bool}
    (hmark : mark ∈ closers) (hc : c.rest = mark :: rest) :
    plainFrom true indent room text gap newLine c = (text, newLine, c) := by
  cases room with
  | zero => rfl
  | succ room =>
    have hlength := plainLength_behind (List.forall_mem_nil _) hmark rest
    rw [List.nil_append] at hlength
    rw [plainFrom, hc, hlength, ite_self]
    rfl

/-- **A word or a number in front of a mark is a plain scalar.** -/
theorem plainScalar_atom (indent : Int) (hcs : IsAtom cs) (hb : IsSpacing b)
    (hmark : mark ∈ closers) (hc : c.rest = cs ++ (b ++ mark :: rest)) :
    ∃ newLine c', plainScalar true indent c = (cs, newLine, c') ∧ c'.rest = mark :: rest := by
  have hbreak : ∀ ch ∈ atomChars, isBreak ch = false := List.all_iff_forall_prop.1 (by decide)
  have hrest :=
    Cursor.rest_of_runs (Cursor.runs_skip hc fun ch hch => hbreak ch (hcs.chars ch hch)) hc
  have hgap := plainGap_behind hb hmark hrest
  have hlength : plainLength true c.rest = cs.length := by
    rw [hc, plainLength_atom hcs.chars, plainLength_behind hb hmark]
    rfl
  obtain ⟨ch, more, hch, hhead, -⟩ := hcs.head
  have hpeek : c.peek ≠ '#' := by
    have hall : ∀ ch ∈ atomHeads, ch ≠ '#' := List.all_iff_forall_prop.1 (by decide)
    rw [hch, List.cons_append] at hc
    rw [Cursor.peek_eq hc]
    exact hall ch hhead
  have hpos : cs.length ≠ 0 := by
    rw [hch, List.length_cons]
    exact Nat.succ_ne_zero _
  have htake : [] ++ [] ++ c.rest.take cs.length = cs := by
    rw [hc, List.take_left]
    rfl
  rw [plainScalar, plainFrom, if_neg hpeek, hlength, if_neg hpos]
  dsimp only
  rw [htake]
  split
  · exact ⟨_, _, rfl, hgap⟩
  · exact ⟨_, _, plainFrom_mark hmark hgap, hgap⟩

end EndpointAtlas.Yaml
