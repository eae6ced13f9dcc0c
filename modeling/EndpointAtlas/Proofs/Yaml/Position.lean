import EndpointAtlas.Proofs.Json.Lines

/-!
# Moving through a YAML text

`Cursor.Runs c cs c'` says that the characters `cs` of one line stand between two positions. Blanks
in a flow collection may hold line ends, so behind them only the rest of the text is known.
-/

namespace EndpointAtlas.Yaml

open Json (StopsAt stopsAt_cons stopsAt_nil IsSpacing)

namespace Cursor

variable {c c' c'' : Cursor} {ch : Char} {cs ds rest tail : List Char}

/-! ## The next character -/

theorem peek_eq (h : c.rest = ch :: rest) : c.peek = ch := by
  rw [peek, h]
  rfl

theorem peekAt_one (h : c.rest = ch :: rest) : c.peekAt 1 = rest.headD endMark := by
  rw [peekAt, h]
  cases rest <;> rfl

/-- The position behind a character that is no return. -/
theorem next_eq (h : c.rest = ch :: rest) (hreturn : ch ≠ '\r') :
    c.next = if isBreak ch then ⟨rest, c.index + 1, c.line + 1, 0⟩
      else if ch = byteOrderMark then ⟨rest, c.index + 1, c.line, c.column⟩
      else ⟨rest, c.index + 1, c.line, c.column + 1⟩ := by
  rw [next.eq_def, h]
  split
  · next heq => cases heq
  · next heq => cases heq; exact absurd rfl hreturn
  · next heq => cases heq; rfl

theorem rest_next (h : c.rest = ch :: rest) (hreturn : ch ≠ '\r') : c.next.rest = rest := by
  rw [next_eq h hreturn]
  split
  · rfl
  · split <;> rfl

theorem ne_return_of_not_isBreak (h : isBreak ch = false) : ch ≠ '\r' := by
  rintro rfl
  cases h

/-! ## Characters of a line -/

/-- The characters of one line that stand between two positions. -/
structure Runs (c : Cursor) (cs : List Char) (c' : Cursor) : Prop where
  rest : c.rest = cs ++ c'.rest
  index : c'.index = c.index + cs.length
  line : c'.line = c.line

theorem Runs.refl (c : Cursor) : c.Runs [] c := ⟨rfl, rfl, rfl⟩

theorem Runs.trans (h : c.Runs cs c') (h' : c'.Runs ds c'') : c.Runs (cs ++ ds) c'' := by
  refine ⟨?_, ?_, h'.line.trans h.line⟩
  · rw [h.rest, h'.rest, List.append_assoc]
  · rw [h'.index, h.index, List.length_append, Nat.add_assoc]

theorem runs_next (h : c.rest = ch :: rest) (hbreak : isBreak ch = false) :
    c.Runs [ch] c.next := by
  have hreturn := ne_return_of_not_isBreak hbreak
  refine ⟨?_, ?_, ?_⟩
  · rw [rest_next h hreturn, h]
    rfl
  · rw [next_eq h hreturn, hbreak, if_neg Bool.false_ne_true]
    split <;> rfl
  · rw [next_eq h hreturn, hbreak, if_neg Bool.false_ne_true]
    split <;> rfl

/-- Characters without line ends are skipped on the same line. -/
theorem runs_skip (h : c.rest = cs ++ tail) (hbreak : ∀ ch ∈ cs, isBreak ch = false) :
    c.Runs cs (c.skip cs.length) := by
  induction cs generalizing c with
  | nil => exact Runs.refl c
  | cons ch cs ih =>
    rw [List.forall_mem_cons] at hbreak
    have hnext := runs_next h hbreak.1
    have hrest := rest_next h (ne_return_of_not_isBreak hbreak.1)
    exact hnext.trans (ih hrest hbreak.2)

theorem rest_of_runs (h : c.Runs cs c') (hc : c.rest = cs ++ tail) : c'.rest = tail :=
  List.append_cancel_left (h.rest.symm.trans hc)

theorem takeWhile_eq {p : Char → Bool} (h : c.rest = cs ++ tail) (hcs : ∀ ch ∈ cs, p ch = true)
    (htail : StopsAt p tail) : c.takeWhile p = (cs, c.skip cs.length) := by
  rw [takeWhile, h, Json.takeWhile_append hcs htail]

/-! ## Blanks -/

/-- Blanks of a flow collection may stand in front of the rest of a text. -/
def Before (c : Cursor) (tail : List Char) : Prop := ∃ b, IsSpacing b ∧ c.rest = b ++ tail

theorem Before.of_eq (h : c.rest = tail) : c.Before tail :=
  ⟨[], List.forall_mem_nil _, h⟩

theorem lineBreak_eq (h : c.rest = '\n' :: rest) : c.lineBreak = (['\n'], c.next) := by
  rw [lineBreak, h]
  rfl

end Cursor

end EndpointAtlas.Yaml
