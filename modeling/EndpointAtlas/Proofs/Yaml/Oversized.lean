import EndpointAtlas.Proofs.Outcome
import EndpointAtlas.Proofs.Yaml.Quoted
import EndpointAtlas.Yaml.Token

/-!
# Escapes for which there is no character

The scanner goes through a text from its start to its end, so whatever it stands in front of is an
end of the text (`Cursor.StandsIn`). The one fault that it has with a scalar is an escape with a
number beyond the last character, and that escape is in the text (`oversized_of_ofText`).
-/

namespace EndpointAtlas.Yaml

variable {text : List Char} {c : Cursor} {α β : Type}

/-- A text holds an escape with a number beyond the last character. -/
def OversizedEscape (text : List Char) (e : ScalarError) : Prop :=
  ∃ rest n, '\\' :: 'U' :: rest <:+ text ∧ hexNumber? 8 rest = some n ∧ 0x10FFFF < n ∧
    e = if n ≤ maxEscapeNumber then .notOfType else .tooLarge

theorem OversizedEscape.mono {end' : List Char} {e : ScalarError} (h : OversizedEscape end' e)
    (hend : end' <:+ text) : OversizedEscape text e := by
  obtain ⟨rest, n, hrest, hn⟩ := h
  exact ⟨rest, n, hrest.trans hend, hn⟩

/-! ## Positions in a text -/

namespace Cursor

/-- What is in front of a position is an end of a text. -/
def StandsIn (c : Cursor) (text : List Char) : Prop := c.rest <:+ text

namespace StandsIn

theorem start (text : List Char) : (Cursor.start text).StandsIn text := List.suffix_rfl

theorem next (h : c.StandsIn text) : c.next.StandsIn text := by
  refine List.IsSuffix.trans ?_ h
  unfold Cursor.next
  split
  · exact List.suffix_rfl
  · next heq => rw [heq]; exact List.suffix_cons _ _
  · next heq =>
    rw [heq]
    split_ifs <;> exact List.suffix_cons _ _

theorem skip (h : c.StandsIn text) (n : Nat) : (c.skip n).StandsIn text := by
  induction n generalizing c with
  | zero => exact h
  | succ n ih => exact ih h.next

theorem takeWhile (h : c.StandsIn text) (p : Char → Bool) : (c.takeWhile p).2.StandsIn text :=
  h.skip _

theorem skipWhile (h : c.StandsIn text) (p : Char → Bool) : (c.skipWhile p).StandsIn text :=
  h.takeWhile p

theorem skipSpaces (h : c.StandsIn text) : c.skipSpaces.StandsIn text := h.skipWhile _

theorem skipComment (h : c.StandsIn text) : c.skipComment.StandsIn text := by
  unfold Cursor.skipComment
  split
  · exact h.skipWhile _
  · exact h

theorem lineBreak (h : c.StandsIn text) : c.lineBreak.2.StandsIn text := by
  unfold Cursor.lineBreak
  split
  · exact h.skip 2
  · split_ifs
    · exact h.next
    · exact h.next
    · exact h
  · exact h

end StandsIn

/-- A character that is in front of a position, and is no return, is the first of the rest. -/
theorem rest_of_peek {ch : Char} (h : c.peek = ch) (hend : ch ≠ endMark) (hreturn : ch ≠ '\r') :
    c.rest = ch :: c.next.rest := by
  cases hrest : c.rest with
  | nil => rw [peek, hrest] at h; exact absurd h.symm hend
  | cons first rest =>
    obtain rfl : first = ch := (peek_eq hrest).symm.trans h
    rw [rest_next hrest hreturn]

end Cursor

/-! ## Computations that go through a text -/

/-- A computation goes on through a text: it comes to a position in the text, and the one fault with
a scalar that it may have is an escape in the text. -/
structure Within (text : List Char) (place : α → Cursor) (x : Except Error α) : Prop where
  standsIn : ∀ a, x = .ok a → (place a).StandsIn text
  oversized : ∀ e, x = .error (.scalar e) → OversizedEscape text e

namespace Within

variable {place : α → Cursor} {place' : β → Cursor} {x : Except Error α}
  {f : α → Except Error β}

theorem ok {a : α} (h : (place a).StandsIn text) : Within text place (.ok a) :=
  ⟨fun _ heq => Except.ok.inj heq ▸ h, fun _ heq => (nomatch heq)⟩

theorem malformed : Within text place (.error .malformed) :=
  ⟨fun _ heq => (nomatch heq), fun _ heq => (nomatch heq)⟩

theorem bind (hx : Within text place x)
    (hf : ∀ a, (place a).StandsIn text → Within text place' (f a)) :
    Within text place' (x >>= f) := by
  cases x with
  | ok a => exact hf a (hx.standsIn a rfl)
  | error e =>
    refine ⟨fun _ heq => (nomatch heq), fun e' heq => hx.oversized e' ?_⟩
    cases heq
    rfl

theorem ite {p : Prop} [Decidable p] {y : Except Error α} (hx : p → Within text place x)
    (hy : ¬ p → Within text place y) : Within text place (if p then x else y) := by
  split
  · next h => exact hx h
  · next h => exact hy h

end Within

theorem within_skipRestOfLine (h : c.StandsIn text) : Within text id c.skipRestOfLine :=
  .ite (fun _ => .ok h.skipSpaces.skipComment.lineBreak) fun _ => .malformed

/-! ## Plain scalars -/

theorem standsIn_plainBreaks (room : Nat) (breaks : List Char) (h : c.StandsIn text) :
    (plainBreaks room breaks c).2.StandsIn text := by
  induction room generalizing breaks c with
  | zero => exact h
  | succ room ih =>
    rw [plainBreaks]
    split
    · exact ih _ h.next
    · split
      · dsimp only
        split
        · exact h.lineBreak
        · exact ih _ h.lineBreak
      · exact h

theorem standsIn_plainGap (h : c.StandsIn text) : (plainGap c).cursor.StandsIn text := by
  unfold plainGap
  dsimp only
  split
  · split
    · exact (h.takeWhile _).lineBreak
    · have hbreaks := standsIn_plainBreaks ((c.takeWhile (· = ' ')).2.lineBreak.2.rest.length) []
        (h.takeWhile (· = ' ')).lineBreak
      split <;> next heq => rw [heq] at hbreaks; exact hbreaks
  · exact h.takeWhile _

theorem standsIn_plainFrom (inFlow : Bool) (indent : Int) (room : Nat) (read gap : List Char)
    (newLine : Bool) (h : c.StandsIn text) :
    (plainFrom inFlow indent room read gap newLine c).2.2.StandsIn text := by
  induction room generalizing read gap newLine c with
  | zero => exact h
  | succ room ih =>
    rw [plainFrom]
    generalize (if c.peek = '#' then 0 else plainLength inFlow c.rest) = length
    dsimp only
    split
    · exact h
    · split
      · exact standsIn_plainGap (h.skip length)
      · exact ih _ _ _ (standsIn_plainGap (h.skip length))

theorem standsIn_plainScalar (inFlow : Bool) (indent : Int) (h : c.StandsIn text) :
    (plainScalar inFlow indent c).2.2.StandsIn text :=
  standsIn_plainFrom inFlow indent _ [] [] false h

/-! ## Quoted scalars -/

theorem within_quotedBreaks (room : Nat) (breaks : List Char) (h : c.StandsIn text) :
    Within text Prod.snd (quotedBreaks room breaks c) := by
  induction room generalizing breaks c with
  | zero => exact .ok h
  | succ room ih =>
    rw [quotedBreaks]
    refine .ite (fun _ => .malformed) fun _ => .ite (fun _ => ?_) fun _ => .ok (h.skipWhile _)
    exact ih _ (h.skipWhile _).lineBreak

theorem within_quotedSpaces (h : c.StandsIn text) : Within text Prod.snd (quotedSpaces c) := by
  unfold quotedSpaces
  refine .ite (fun _ => .malformed) fun _ => .ite (fun _ => ?_) fun _ => .ok (h.takeWhile _)
  exact .bind (within_quotedBreaks _ _ (h.takeWhile _).lineBreak) fun _ h => .ok h

theorem lt_of_hexNumber? {width n : Nat} {cs : List Char} (h : hexNumber? width cs = some n) :
    n < 16 ^ width := by
  unfold hexNumber? at h
  split at h
  · cases h
  · next hlength =>
    obtain ⟨values, hvalues, rfl⟩ := Option.map_eq_some_iff.1 h
    have hlt := Json.ofDigits_lt_of_hexValue? hvalues
    rwa [List.length_take_of_le (Nat.le_of_not_lt hlength)] at hlt

/-- Only the longest escape by number can ask for more than the last character. -/
theorem eq_of_escapeWidth? {ch : Char} {width n : Nat} (h : escapeWidth? ch = some width)
    (hn : n < 16 ^ width) (hlarge : 0x10FFFF < n) : ch = 'U' ∧ width = 8 := by
  unfold escapeWidth? at h
  split at h <;> cases h
  · omega
  · omega
  · exact ⟨rfl, rfl⟩

theorem eq_of_charOfCode {n : Nat} {e : ScalarError} (h : charOfCode n = .error (.scalar e)) :
    0x10FFFF < n ∧ e = if n ≤ maxEscapeNumber then .notOfType else .tooLarge := by
  unfold charOfCode at h
  split at h
  · cases h
  · next hlarge =>
    cases h
    exact ⟨Nat.lt_of_not_le hlarge, rfl⟩

theorem within_escapeSequence (h : '\\' :: c.rest <:+ text) :
    Within text Prod.snd (escapeSequence c) := by
  have hc : c.StandsIn text := (List.suffix_cons _ _).trans h
  unfold escapeSequence
  split
  · exact .ok hc.next
  · next width _ hwidth =>
    dsimp only
    split
    · next n hn =>
      refine .bind ⟨fun _ _ => hc.next.skip width, fun e hcode => ?_⟩ fun _ hplace => .ok hplace
      obtain ⟨hlarge, he⟩ := eq_of_charOfCode hcode
      obtain ⟨hch, rfl⟩ := eq_of_escapeWidth? hwidth (lt_of_hexNumber? hn) hlarge
      rw [Cursor.rest_of_peek hch (by decide) (by decide)] at h
      exact ⟨c.next.rest, n, h, hn, hlarge, he⟩
    · exact .malformed
  · exact .ite (fun _ => within_quotedBreaks _ _ hc.lineBreak) fun _ => .malformed

theorem within_quotedRun (double : Bool) (room : Nat) (read : List Char) (h : c.StandsIn text) :
    Within text Prod.snd (quotedRun double room read c) := by
  induction room generalizing read c with
  | zero => exact .ok h
  | succ room ih =>
    rw [quotedRun]
    have hrun := h.takeWhile fun ch => !endsRun ch
    refine .ite (fun _ => ih _ (hrun.skip 2)) fun _ => .ite (fun _ => ih _ hrun.next) fun _ => ?_
    refine .ite (fun hescape => ?_) fun _ => .ok hrun
    rw [Bool.and_eq_true, decide_eq_true_eq] at hescape
    have hrest := Cursor.rest_of_peek hescape.2 (by decide) (by decide)
    refine .bind (within_escapeSequence ?_) fun _ hplace => ih _ hplace
    rw [← hrest]
    exact hrun

theorem within_quotedFrom (double : Bool) (room : Nat) (read : List Char) (h : c.StandsIn text) :
    Within text Prod.snd (quotedFrom double room read c) := by
  induction room generalizing read c with
  | zero => exact .malformed
  | succ room ih =>
    rw [quotedFrom]
    refine .ite (fun _ => .ok h.next) fun _ => ?_
    refine .bind (within_quotedSpaces h) fun _ hgap => ?_
    exact .bind (within_quotedRun double _ _ hgap) fun _ hrun => ih _ hrun

theorem within_quotedScalar (double : Bool) (h : c.StandsIn text) :
    Within text Prod.snd (quotedScalar double c) :=
  .bind (within_quotedRun double _ _ h.next) fun _ hrun => within_quotedFrom double _ _ hrun

/-! ## Block scalars -/

theorem within_blockHeader (h : c.StandsIn text) : Within text (·.2.2) (blockHeader c) := by
  unfold blockHeader
  split
  next sign number c' heq =>
  have hc : c'.StandsIn text := by
    split at heq
    · split at heq <;> cases heq
      · exact h.next.next
      · exact h.next
    · split at heq
      · split at heq <;> cases heq
        · exact h.next.next
        · exact h.next
      · cases heq
        exact h
  exact .ite (fun _ => .malformed) fun _ => .ite (fun _ => .ok hc) fun _ => .malformed

theorem standsIn_blockIndentation (room : Nat) (breaks : List Char) (greatest : Nat)
    (h : c.StandsIn text) : (blockIndentation room breaks greatest c).2.2.StandsIn text := by
  induction room generalizing breaks greatest c with
  | zero => exact h
  | succ room ih =>
    rw [blockIndentation]
    split
    · exact ih _ _ h.next
    · split
      · exact ih _ _ h.lineBreak
      · exact h

theorem standsIn_blockBreaks (indent room : Nat) (breaks : List Char) (h : c.StandsIn text) :
    (blockBreaks indent room breaks c).2.StandsIn text := by
  induction room generalizing breaks c with
  | zero => exact h
  | succ room ih =>
    rw [blockBreaks]
    dsimp only
    split
    · exact ih _ (h.skip _).lineBreak
    · exact h.skip _

theorem standsIn_blockLines (folded : Bool) (indent room : Nat) {b : Block}
    (h : b.cursor.StandsIn text) : (blockLines folded indent room b).cursor.StandsIn text := by
  induction room generalizing b with
  | zero => exact h
  | succ room ih =>
    rw [blockLines]
    dsimp only
    split
    · have hbreaks {p : Char → Bool} {n : Nat} :=
        standsIn_blockBreaks indent n [] (h.takeWhile p).lineBreak
      split
      · exact ih hbreaks
      · exact hbreaks
    · exact h

theorem within_blockScalar (folded : Bool) (parent : Int) (h : c.StandsIn text) :
    Within text Prod.snd (blockScalar folded parent c) := by
  unfold blockScalar
  refine .bind (within_blockHeader h.next) fun header hheader => ?_
  obtain ⟨sign, number, c⟩ := header
  refine .bind (within_skipRestOfLine hheader) fun c hc => ?_
  dsimp only
  refine .ok (standsIn_blockLines _ _ _ ?_)
  cases number with
  | none => exact standsIn_blockIndentation _ _ _ hc
  | some n => exact standsIn_blockBreaks _ _ _ hc

/-! ## Names, tags and directives -/

theorem within_anchorName (h : c.StandsIn text) : Within text Prod.snd (anchorName c) :=
  .ite (fun _ => .malformed) fun _ => .ok (h.next.takeWhile _)

theorem within_percentBytes (room : Nat) (h : c.StandsIn text) :
    Within text Prod.snd (percentBytes room c) := by
  induction room generalizing c with
  | zero => exact .ok h
  | succ room ih =>
    rw [percentBytes]
    refine .ite (fun _ => ?_) fun _ => .ok h
    split
    · exact .bind (ih (h.skip 3)) fun _ hbytes => .ok hbytes
    · exact .malformed

theorem within_tagText (room : Nat) (h : c.StandsIn text) :
    Within text Prod.snd (tagText room c) := by
  induction room generalizing c with
  | zero => exact .ok h
  | succ room ih =>
    rw [tagText]
    refine .ite (fun _ => ?_) fun _ => .ok (h.takeWhile _)
    refine .bind (within_percentBytes _ (h.takeWhile _)) fun bytes hbytes => ?_
    dsimp only
    split
    · exact .bind (ih hbytes) fun _ hrest => .ok hrest
    · exact .malformed

theorem within_tagUri (h : c.StandsIn text) : Within text Prod.snd (tagUri c) :=
  .bind (within_tagText _ h) fun _ htext => .ite (fun _ => .malformed) fun _ => .ok htext

theorem within_tagHandle (h : c.StandsIn text) : Within text Prod.snd (tagHandle c) := by
  unfold tagHandle
  refine .ite (fun _ => .malformed) fun _ => .ite (fun _ => .ok h.next) fun _ => ?_
  exact .ite (fun _ => .ok (h.next.takeWhile _).next) fun _ => .malformed

theorem within_tagToken (h : c.StandsIn text) : Within text Prod.snd (tagToken c) := by
  unfold tagToken
  extract_lets finish
  have hfinish : ∀ p : Token × Cursor, p.2.StandsIn text → Within text Prod.snd (finish p) :=
    fun _ hc => .ite (fun _ => .ok hc) fun _ => .malformed
  refine .ite (fun _ => ?_) fun _ => .ite (fun _ => .bind (.ok h.next) hfinish) fun _ => ?_
  · refine .bind (within_tagUri (h.skip 2)) fun p hp => ?_
    exact .ite (fun _ => .bind (.ok hp.next) hfinish) fun _ => .bind .malformed hfinish
  · refine .ite (fun _ => ?_) fun _ => ?_
    · refine .bind (within_tagHandle h) fun p hp => ?_
      exact .bind (within_tagUri hp) fun q hq => .bind (.ok hq) hfinish
    · exact .bind (within_tagUri h.next) fun p hp => .bind (.ok hp) hfinish

theorem within_directiveNumber (h : c.StandsIn text) :
    Within text Prod.snd (directiveNumber c) :=
  .ite (fun _ => .malformed) fun _ => .ok (h.takeWhile _)

theorem within_directiveToken (h : c.StandsIn text) :
    Within text Prod.snd (directiveToken c) := by
  unfold directiveToken
  have hname := h.next.takeWhile isNameChar
  refine .ite (fun _ => .malformed) fun _ => ?_
  extract_lets finish
  have hfinish : ∀ p : Token × Cursor, p.2.StandsIn text → Within text Prod.snd (finish p) :=
    fun _ hc => .bind (within_skipRestOfLine hc) fun _ hrest => .ok hrest
  refine .ite (fun _ => ?_) fun _ => .ite (fun _ => ?_) fun _ =>
    .bind (.ok (hname.skipWhile _)) hfinish
  · refine .bind (within_directiveNumber hname.skipSpaces) fun p hp => ?_
    refine .ite (fun _ => .bind .malformed hfinish) fun _ => ?_
    refine .bind (within_directiveNumber hp.next) fun q hq => ?_
    exact .ite (fun _ => .bind (.ok hq) hfinish) fun _ => .bind .malformed hfinish
  · refine .bind (within_tagHandle hname.skipSpaces) fun p hp => ?_
    refine .ite (fun _ => .bind .malformed hfinish) fun _ => ?_
    refine .bind (within_tagUri hp.skipSpaces) fun q hq => ?_
    exact .ite (fun _ => .bind (.ok hq) hfinish) fun _ => .bind .malformed hfinish

theorem within_quotedToken (double : Bool) (h : c.StandsIn text) :
    Within text Prod.snd (quotedToken double c) :=
  .bind (within_quotedScalar double h) fun _ hscalar => .ok hscalar

/-! ## States of the scanner -/

namespace Scan

variable {s : Scan}

theorem standsIn_unwind (h : s.cursor.StandsIn text) (column : Int) :
    (s.unwind column).cursor.StandsIn text := by
  unfold unwind
  split <;> exact h

theorem standsIn_deepen (h : s.cursor.StandsIn text) (column : Nat) :
    (s.deepen column).1.cursor.StandsIn text := by
  unfold deepen
  split <;> exact h

theorem within_dropStaleKeys (h : s.cursor.StandsIn text) :
    Within text cursor s.dropStaleKeys := by
  have hkeys : Within text (fun _ => s.cursor) (s.keys.mapM (keepLive s.cursor)) := by
    refine ⟨fun _ _ => h, fun e herror => ?_⟩
    obtain ⟨key, -, hkey⟩ := Outcome.exists_of_mapM_eq_error herror
    unfold keepLive at hkey
    split at hkey
    · split_ifs at hkey
      cases hkey
    · cases hkey
  exact .bind hkeys fun _ hs => .ok hs

theorem within_dropKey (h : s.cursor.StandsIn text) : Within text cursor s.dropKey := by
  unfold dropKey
  split
  · exact .ite (fun _ => .malformed) fun _ => .ok h
  · exact .ok h

theorem within_saveKey (h : s.cursor.StandsIn text) : Within text cursor s.saveKey :=
  .ite (fun _ => .bind (within_dropKey h) fun _ hs => .ok hs) fun _ => .ok h

theorem standsIn_skipToToken (room : Nat) (h : s.cursor.StandsIn text) :
    (skipToToken room s).cursor.StandsIn text := by
  induction room generalizing s with
  | zero => exact h
  | succ room ih =>
    rw [skipToToken]
    split
    · exact ih h.skipSpaces.skipComment.lineBreak
    · exact h.skipSpaces.skipComment

theorem within_unwind_dropKey (h : s.cursor.StandsIn text) (column : Int) :
    Within text cursor (s.unwind column).dropKey :=
  within_dropKey (standsIn_unwind h column)

theorem within_documentMark (t : Token) (h : s.cursor.StandsIn text) :
    Within text cursor (s.documentMark t) :=
  .bind (within_unwind_dropKey h _) fun _ hs => .ok (hs.skip 3)

theorem within_directive (h : s.cursor.StandsIn text) : Within text cursor s.directive :=
  .bind (within_unwind_dropKey h _) fun _ hs =>
    .bind (within_directiveToken hs) fun _ hc => .ok hc

theorem within_openFlow (t : Token) (h : s.cursor.StandsIn text) :
    Within text cursor (s.openFlow t) :=
  .bind (within_saveKey h) fun _ hs => .ok hs.next

theorem within_closeFlow (t : Token) (h : s.cursor.StandsIn text) :
    Within text cursor (s.closeFlow t) :=
  .ite (fun _ => .bind (within_dropKey h) fun _ hs => .ok hs.next) fun _ => .malformed

theorem within_flowEntry (h : s.cursor.StandsIn text) : Within text cursor s.flowEntry :=
  .bind (within_dropKey h) fun _ hs => .ok hs.next

theorem within_openBlock (t : Token) (h : s.cursor.StandsIn text) :
    Within text cursor (s.openBlock t) := by
  unfold openBlock
  refine .ite (fun _ => .ok h) fun _ => .ite (fun _ => .malformed) fun _ => .ok ?_
  dsimp only
  split <;> exact standsIn_deepen h s.cursor.column

theorem within_blockEntry (h : s.cursor.StandsIn text) : Within text cursor s.blockEntry :=
  .bind (within_openBlock _ h) fun _ hopen => .bind (within_dropKey hopen) fun _ hs => .ok hs.next

theorem within_explicitKey (h : s.cursor.StandsIn text) : Within text cursor s.explicitKey :=
  .bind (within_openBlock _ h) fun _ hopen => .bind (within_dropKey hopen) fun _ hs => .ok hs.next

theorem within_value (h : s.cursor.StandsIn text) : Within text cursor s.value := by
  unfold value
  split
  · next key outer _ =>
    let block (s : Scan) : Scan :=
      if s.inFlow then s
      else if (s.deepen key.column).2 then
        (s.deepen key.column).1.insertAt key.number .blockMappingStart
      else (s.deepen key.column).1
    have hblock (s : Scan) (hs : s.cursor.StandsIn text) : (block s).cursor.StandsIn text := by
      dsimp only [block]
      split
      · exact hs
      · split <;> exact standsIn_deepen hs key.column
    exact .ok (hblock (insertAt { s with keys := none :: outer } key.number .key) h).next
  · exact .bind (within_openBlock _ h) fun _ hopen =>
      .bind (within_dropKey hopen) fun _ hs => .ok hs.next

theorem within_keyStart {read : Cursor → Except Error (Token × Cursor)}
    (hread : ∀ c : Cursor, c.StandsIn text → Within text Prod.snd (read c))
    (h : s.cursor.StandsIn text) : Within text cursor (s.keyStart read) :=
  .bind (within_saveKey h) fun _ hs => .bind (hread _ hs) fun _ hc => .ok hc

theorem within_blockScalarToken (folded : Bool) (h : s.cursor.StandsIn text) :
    Within text cursor (s.blockScalarToken folded) :=
  .bind (within_dropKey h) fun _ hs => .bind (within_blockScalar _ _ hs) fun _ hc => .ok hc

theorem within_plain (h : s.cursor.StandsIn text) : Within text cursor s.plain :=
  .bind (within_saveKey h) fun _ hs => .ok (standsIn_plainScalar _ _ hs)

theorem within_token (h : s.cursor.StandsIn text) : Within text cursor s.token := by
  have hname {t : List Char → Token} (c : Cursor) (hc : c.StandsIn text) :
      Within text Prod.snd (do
        let read ← anchorName c
        return (t read.1, read.2)) :=
    .bind (within_anchorName hc) fun _ hname => .ok hname
  unfold token
  split
  · exact within_openFlow _ h
  · exact within_openFlow _ h
  · exact within_closeFlow _ h
  · exact within_closeFlow _ h
  · exact within_flowEntry h
  · exact within_keyStart hname h
  · exact within_keyStart hname h
  · exact within_keyStart (fun _ => within_tagToken) h
  · exact within_keyStart (fun _ => within_quotedToken false) h
  · exact within_keyStart (fun _ => within_quotedToken true) h
  · refine .ite (fun _ => within_blockEntry h) fun _ => ?_
    refine .ite (fun _ => within_explicitKey h) fun _ => .ite (fun _ => within_value h) fun _ => ?_
    refine .ite (fun _ => within_blockScalarToken _ h) fun _ => ?_
    refine .ite (fun _ => within_blockScalarToken _ h) fun _ => ?_
    exact .ite (fun _ => within_plain h) fun _ => .malformed

theorem within_lineToken (h : s.cursor.StandsIn text) : Within text cursor s.lineToken := by
  unfold lineToken
  refine .ite (fun _ => within_directive h) fun _ => ?_
  refine .ite (fun _ => within_documentMark _ h) fun _ => ?_
  exact .ite (fun _ => within_documentMark _ h) fun _ => within_token h

theorem within_approach (h : s.cursor.StandsIn text) : Within text cursor s.approach :=
  .bind (within_dropStaleKeys (standsIn_skipToToken _ h)) fun _ hs => .ok (standsIn_unwind hs _)

/-- **A step of the scanner stays in the text**, and fails with a scalar only at an escape for which
there is no character. -/
theorem within_step (h : s.cursor.StandsIn text) :
    Within text (fun next => (next.getD s).cursor) s.step := by
  refine .bind (within_approach h) fun s' hs => .ite (fun _ => .ok h) fun _ => ?_
  exact .bind (within_lineToken hs) fun _ hnext => .ok hnext

theorem oversized_of_ended {e : ScalarError} (h : s.cursor.StandsIn text)
    (herror : s.ended.error = some (.scalar e)) : OversizedEscape text e := by
  have hwithin : Within text cursor
      ((skipToToken (s.cursor.rest.length + 1) s).dropStaleKeys >>= finish) :=
    .bind (within_dropStaleKeys (standsIn_skipToToken _ h)) fun _ hs => within_unwind_dropKey hs _
  unfold ended at herror
  split at herror
  · cases herror
  · next e' heq =>
    cases herror
    exact hwithin.oversized e heq

/-- The scanner runs on as long as its steps succeed. -/
theorem oversized_of_run (room : Nat) {e : ScalarError} (h : s.cursor.StandsIn text)
    (herror : (s.run room).error = some (.scalar e)) : OversizedEscape text e := by
  induction room generalizing s with
  | zero => cases herror
  | succ room ih =>
    have hstep := within_step h
    change (s.resume (run room)).error = _ at herror
    unfold resume at herror
    split at herror
    · next next heq => exact ih (hstep.standsIn _ heq) herror
    · exact oversized_of_ended h herror
    · next e' heq =>
      cases herror
      exact hstep.oversized e heq

end Scan

/-- **Which fault the tokens of a text can end with**: none with a scalar but an escape in the text
for which there is no character. -/
theorem oversized_of_ofText {e : ScalarError} (h : (Tokens.ofText text).error = some (.scalar e)) :
    OversizedEscape text e := by
  unfold Tokens.ofText at h
  split at h
  · dsimp only at h
    split at h
    · exact (Scan.oversized_of_run _ (.start _) h).mono (List.tail_suffix text)
    · exact Scan.oversized_of_run _ (.start _) h
  · cases h

end EndpointAtlas.Yaml
