import EndpointAtlas.Document.Load
import EndpointAtlas.Proofs.Yaml.Plain

/-!
# Line ends in JSON texts

The line ends of a file are made plain before it is read. In a JSON text they stand among the blanks
between the parts only, so the text of a value is that with plain line ends in its blanks
(`plainLines_text`). Without tabs these blanks are spaces and line feeds, and YAML allows each
character of the text (`isAllowed_text`).
-/

namespace EndpointAtlas.Json

open Document
open Yaml (isAllowed)

/-! ## Line ends -/

/-- The blanks that YAML skips in a flow collection. -/
def IsSpacing (cs : List Char) : Prop := ∀ c ∈ cs, c = ' ' ∨ c = '\n'

theorem plainLines_cons {c : Char} (h : c ≠ '\r') (rest : List Char) :
    plainLines (c :: rest) = c :: plainLines rest := by
  rw [plainLines.eq_def]
  split
  · next heq => cases heq; exact absurd rfl h
  · next heq => cases heq; exact absurd rfl h
  · next heq => cases heq; rfl
  · next heq => cases heq

/-- A text without returns is left as it is. -/
theorem plainLines_append_of_not_mem {cs : List Char} (h : '\r' ∉ cs) (tail : List Char) :
    plainLines (cs ++ tail) = cs ++ plainLines tail := by
  induction cs with
  | nil => rfl
  | cons c rest ih =>
    rw [List.mem_cons, not_or] at h
    rw [List.cons_append, plainLines_cons (Ne.symm h.1), ih h.2, List.cons_append]

/-- The line ends of a text do not depend on what follows, unless that starts with the second half
of one. -/
theorem plainLines_append (cs : List Char) {c : Char} (h : c ≠ '\n') (rest : List Char) :
    plainLines (cs ++ c :: rest) = plainLines cs ++ plainLines (c :: rest) := by
  induction cs using plainLines.induct with
  | case1 more ih => rw [List.cons_append, List.cons_append, plainLines, ih, plainLines]; rfl
  | case2 more hno ih =>
    have hnext : ∀ tail, more ++ c :: rest ≠ '\n' :: tail := by
      intro tail heq
      cases more with
      | nil => cases heq; exact h rfl
      | cons d others => cases heq; exact hno _ rfl
    rw [List.cons_append, plainLines.eq_2 _ hnext, plainLines.eq_2 _ hno, ih]
    rfl
  | case3 d more hno hreturn ih =>
    have hd : d ≠ '\r' := fun heq => hreturn heq
    rw [List.cons_append, plainLines_cons hd, plainLines_cons hd, ih, List.cons_append]
  | case4 => rfl

theorem isSpacing_plainLines {cs : List Char} (h : ∀ c ∈ cs, isBlank c = true ∧ c ≠ '\t') :
    IsSpacing (plainLines cs) := by
  induction cs using plainLines.induct with
  | case1 rest ih =>
    rw [List.forall_mem_cons, List.forall_mem_cons] at h
    rw [plainLines]
    exact List.forall_mem_cons.2 ⟨.inr rfl, ih h.2.2⟩
  | case2 rest hno ih =>
    rw [List.forall_mem_cons] at h
    rw [plainLines.eq_2 _ hno]
    exact List.forall_mem_cons.2 ⟨.inr rfl, ih h.2⟩
  | case3 c rest hno hreturn ih =>
    rw [List.forall_mem_cons] at h
    obtain ⟨⟨hblank, htab⟩, hrest⟩ := h
    have hc : c ≠ '\r' := fun heq => hreturn heq
    rw [plainLines_cons hc]
    refine List.forall_mem_cons.2 ⟨?_, ih hrest⟩
    simp only [isBlank, Bool.or_eq_true, decide_eq_true_eq] at hblank
    rcases hblank with ((hspace | htab') | hfeed) | hreturn'
    · exact .inl hspace
    · exact absurd htab' htab
    · exact .inr hfeed
    · exact absurd hreturn' hc
  | case4 => exact fun c hc => by cases hc

theorem Blanks.isSpacing (b : Blanks) (h : b.isShared = true) : IsSpacing (plainLines b.chars) := by
  refine isSpacing_plainLines fun c hc => ⟨b.isBlank c hc, ?_⟩
  rw [Blanks.isShared, List.all_eq_true] at h
  exact of_decide_eq_true (h c hc)

/-! ## The characters of parts -/

theorem forall₂_of_mapM {α β : Type} {f : α → Option β} {xs : List α} {ys : List β}
    (h : xs.mapM f = some ys) : List.Forall₂ (fun x y => f x = some y) xs ys := by
  induction xs generalizing ys with
  | nil =>
    cases h
    exact .nil
  | cons x rest ih =>
    rw [List.mapM_cons] at h
    obtain ⟨y, hy, h⟩ := Option.bind_eq_some_iff.1 h
    obtain ⟨more, hmore, h⟩ := Option.bind_eq_some_iff.1 h
    cases h
    exact .cons hy (ih hmore)

theorem isSome_of_forall₂ {α β : Type} {f : α → Option β} {xs : List α} {ys : List β}
    (h : List.Forall₂ (fun x y => f x = some y) xs ys) : ∀ x ∈ xs, (f x).isSome = true := by
  induction h with
  | nil => exact List.forall_mem_nil _
  | cons hy _ ih => exact List.forall_mem_cons.2 ⟨hy ▸ rfl, ih⟩

/-- The characters of ASCII that are written as they are. -/
def isVisible (c : Char) : Bool := 32 ≤ c.toNat && c.toNat ≤ 126

theorem isAllowed_of_isVisible {c : Char} (h : isVisible c = true) : isAllowed c = true := by
  simp only [isVisible, Bool.and_eq_true, decide_eq_true_eq] at h
  simp only [isAllowed, Bool.or_eq_true, Bool.and_eq_true, decide_eq_true_eq]
  omega

theorem isVisible_of_le {a b c : Char} (ha : isVisible a = true) (hb : isVisible b = true)
    (h : a ≤ c ∧ c ≤ b) : isVisible c = true := by
  have hle : ∀ {a b : Char}, a ≤ b → a.toNat ≤ b.toNat := fun hab => hab
  have hlow := hle h.1
  have hhigh := hle h.2
  simp only [isVisible, Bool.and_eq_true, decide_eq_true_eq] at ha hb ⊢
  omega

theorem isVisible_of_hexValue? {c : Char} (h : (hexValue? c).isSome = true) :
    isVisible c = true := by
  unfold hexValue? at h
  split at h
  · next hc => exact isVisible_of_le rfl rfl hc
  · split at h
    · next hc => exact isVisible_of_le rfl rfl hc
    · split at h
      · next hc => exact isVisible_of_le rfl rfl hc
      · cases h

theorem isVisible_of_escaped? {letter c : Char} (h : escaped? letter = some c) :
    isVisible letter = true := by
  unfold escaped? at h
  split at h <;> first | rfl | cases h

/-- A piece is visible, or it is a character that stands for itself. -/
theorem Piece.isVisible_or_eq (p : Piece) {c : Char} (h : c ∈ p.text) :
    isVisible c = true ∨ ∃ isRaw, p = .raw c isRaw := by
  cases p with
  | raw d isRaw =>
    rw [Piece.text, List.mem_singleton] at h
    subst h
    exact .inr ⟨isRaw, rfl⟩
  | letter l d escapes =>
    refine .inl ?_
    rw [Piece.text, List.mem_cons, List.mem_singleton] at h
    rcases h with rfl | rfl
    · rfl
    · exact isVisible_of_escaped? escapes
  | number digits values isHex length_eq =>
    refine .inl ?_
    rw [Piece.text, List.mem_cons, List.mem_cons] at h
    rcases h with rfl | rfl | h
    · rfl
    · rfl
    · exact isVisible_of_hexValue? (isSome_of_forall₂ (forall₂_of_mapM isHex) c h)

theorem Piece.return_not_mem (p : Piece) : '\r' ∉ p.text := by
  intro h
  rcases p.isVisible_or_eq h with hvisible | ⟨isRaw, -⟩
  · cases hvisible
  · exact absurd isRaw.1 (by decide)

theorem Piece.isAllowed_of_mem {p : Piece} (hp : p.isShared = true) {c : Char} (h : c ∈ p.text) :
    isAllowed c = true := by
  rcases p.isVisible_or_eq h with hvisible | ⟨isRaw, rfl⟩
  · exact isAllowed_of_isVisible hvisible
  · rw [Piece.isShared, Bool.and_eq_true] at hp
    exact hp.1

theorem mem_quotedText {pieces : List Piece} {c : Char} (h : c ∈ quotedText pieces) :
    c = '"' ∨ ∃ p ∈ pieces, c ∈ p.text := by
  rw [quotedText, List.mem_cons, List.mem_append, List.mem_singleton] at h
  rcases h with h | h | h
  · exact .inl h
  · exact .inr (List.mem_flatMap.1 h)
  · exact .inl h

theorem return_not_mem_quotedText (pieces : List Piece) : '\r' ∉ quotedText pieces := by
  intro h
  rcases mem_quotedText h with h | ⟨p, -, hp⟩
  · cases h
  · exact p.return_not_mem hp

theorem isAllowed_of_mem_quotedText {pieces : List Piece} (hp : pieces.all Piece.isShared = true)
    {c : Char} (h : c ∈ quotedText pieces) : isAllowed c = true := by
  rcases mem_quotedText h with rfl | ⟨p, hmem, hc⟩
  · rfl
  · exact Piece.isAllowed_of_mem (List.all_eq_true.1 hp p hmem) hc

theorem Word.isVisible_of_mem (w : Word) {c : Char} (h : c ∈ w.text) : isVisible c = true := by
  have hall : ∀ w : Word, w.text.all isVisible = true := by
    rintro (_ | _ | _) <;> rfl
  exact List.all_eq_true.1 (hall w) c h

theorem Numeral.isVisible_of_mem (n : Numeral) {c : Char} (h : c ∈ n.text) :
    isVisible c = true := by
  have hall : ∀ c ∈ numberChars, isVisible c = true := List.all_iff_forall_prop.1 (by decide)
  exact hall c (n.mem_numberChars h)

/-! ## Texts with plain line ends -/

theorem ne_feed_of_startsValue {c : Char} (h : startsValue c = true) : c ≠ '\n' := by
  rintro rfl
  cases h

theorem plainLines_before (b : Blanks) {cs : List Char} (h : StartsValue cs) :
    plainLines (b.chars ++ cs) = plainLines b.chars ++ plainLines cs := by
  obtain ⟨c, rest, rfl, hstarts⟩ := h
  exact plainLines_append b.chars (ne_feed_of_startsValue hstarts) rest

theorem plainLines_mark (b : Blanks) {c : Char} (hfeed : c ≠ '\n') (hreturn : c ≠ '\r')
    (rest : List Char) :
    plainLines (b.chars ++ c :: rest) = plainLines b.chars ++ c :: plainLines rest := by
  rw [plainLines_append b.chars hfeed, plainLines_cons hreturn]

mutual

theorem plainLines_value : ∀ (v : Spelling) (tail : List Char),
    plainLines (v.chars ++ tail) = v.textWith plainLines ++ plainLines tail
  | .word w, tail => plainLines_append_of_not_mem (fun h => by cases w.isVisible_of_mem h) tail
  | .number n, tail => plainLines_append_of_not_mem (fun h => by cases n.isVisible_of_mem h) tail
  | .text pieces, tail => plainLines_append_of_not_mem (return_not_mem_quotedText pieces) tail
  | .emptyList gap, tail => by
    simp only [Spelling.chars, Spelling.textWith, id, List.cons_append, List.append_assoc,
      List.nil_append]
    rw [plainLines_cons (by decide), plainLines_mark gap (by decide) (by decide)]
  | .list before items, tail => by
    simp only [Spelling.chars, Spelling.textWith, id, List.cons_append, List.append_assoc]
    rw [plainLines_cons (by decide),
      plainLines_before before ((items.startsValue_textWith id).append tail),
      plainLines_items items tail]
  | .emptyMap gap, tail => by
    simp only [Spelling.chars, Spelling.textWith, id, List.cons_append, List.append_assoc,
      List.nil_append]
    rw [plainLines_cons (by decide), plainLines_mark gap (by decide) (by decide)]
  | .map before pairs, tail => by
    simp only [Spelling.chars, Spelling.textWith, id, List.cons_append, List.append_assoc]
    rw [plainLines_cons (by decide),
      plainLines_before before ((pairs.startsValue_textWith id).append tail),
      plainLines_pairs pairs tail]

theorem plainLines_items : ∀ (items : Items) (tail : List Char),
    plainLines (items.textWith id ++ tail) = items.textWith plainLines ++ plainLines tail
  | .last item behind, tail => by
    have hitem := plainLines_value item (behind.chars ++ ']' :: tail)
    simp only [Items.textWith, id, List.cons_append, List.append_assoc, List.nil_append]
    rw [← Spelling.chars, hitem, plainLines_mark behind (by decide) (by decide)]
  | .more item behind next rest, tail => by
    have hitem := plainLines_value item
      (behind.chars ++ ',' :: (next.chars ++ (rest.textWith id ++ tail)))
    have hrest := plainLines_items rest tail
    simp only [Items.textWith, id, List.cons_append, List.append_assoc]
    rw [← Spelling.chars, hitem, plainLines_mark behind (by decide) (by decide),
      plainLines_before next ((rest.startsValue_textWith id).append tail), hrest]

theorem plainLines_pairs : ∀ (pairs : Pairs) (tail : List Char),
    plainLines (pairs.textWith id ++ tail) = pairs.textWith plainLines ++ plainLines tail
  | .last key before item behind, tail => by
    have hitem := plainLines_value item (behind.chars ++ '}' :: tail)
    simp only [Pairs.textWith, id, List.cons_append, List.append_assoc, List.nil_append]
    rw [plainLines_append_of_not_mem (return_not_mem_quotedText _),
      plainLines_mark key.gap (by decide) (by decide),
      plainLines_before before ((item.startsValue_textWith id).append _), ← Spelling.chars, hitem,
      plainLines_mark behind (by decide) (by decide)]
  | .more key before item behind next rest, tail => by
    have hitem := plainLines_value item
      (behind.chars ++ ',' :: (next.chars ++ (rest.textWith id ++ tail)))
    have hrest := plainLines_pairs rest tail
    simp only [Pairs.textWith, id, List.cons_append, List.append_assoc]
    rw [plainLines_append_of_not_mem (return_not_mem_quotedText _),
      plainLines_mark key.gap (by decide) (by decide),
      plainLines_before before ((item.startsValue_textWith id).append _), ← Spelling.chars, hitem,
      plainLines_mark behind (by decide) (by decide),
      plainLines_before next ((rest.startsValue_textWith id).append tail), hrest]

end

/-- **The line ends of a text are those in the blanks of its parts.** -/
theorem plainLines_text (before behind : Blanks) (v : Spelling) :
    plainLines (before.chars ++ v.chars ++ behind.chars) =
      plainLines before.chars ++ (v.textWith plainLines ++ plainLines behind.chars) := by
  rw [List.append_assoc, plainLines_before before (v.startsValue_chars.append behind.chars),
    plainLines_value]

/-! ## Allowed characters -/

/-- A text all of whose characters YAML allows. -/
def AllAllowed (cs : List Char) : Prop := ∀ c ∈ cs, isAllowed c = true

theorem allAllowed_cons {c : Char} {cs : List Char} :
    AllAllowed (c :: cs) ↔ isAllowed c = true ∧ AllAllowed cs :=
  List.forall_mem_cons

theorem allAllowed_append {cs ds : List Char} :
    AllAllowed (cs ++ ds) ↔ AllAllowed cs ∧ AllAllowed ds :=
  List.forall_mem_append

theorem allAllowed_nil : AllAllowed [] := fun c hc => by cases hc

theorem Blanks.allAllowed (b : Blanks) (h : b.isShared = true) :
    AllAllowed (plainLines b.chars) := by
  intro c hc
  rcases b.isSpacing h c hc with rfl | rfl <;> rfl

theorem Key.allAllowed (k : Key) (h : k.isShared = true) :
    AllAllowed (quotedText k.pieces) ∧ AllAllowed (plainLines k.gap.chars) := by
  rw [Key.isShared, Bool.and_eq_true, Bool.and_eq_true] at h
  refine ⟨fun c => isAllowed_of_mem_quotedText h.1.1, k.gap.allAllowed ?_⟩
  rw [Blanks.isShared, List.all_eq_true]
  intro c hc
  have hspace : c = ' ' := of_decide_eq_true (List.all_eq_true.1 h.1.2 c hc)
  rw [hspace]
  rfl

mutual

theorem allAllowed_value : ∀ v : Spelling, v.isShared = true → AllAllowed (v.textWith plainLines)
  | .word w, _ => fun _ hc => isAllowed_of_isVisible (w.isVisible_of_mem hc)
  | .number n, _ => fun _ hc => isAllowed_of_isVisible (n.isVisible_of_mem hc)
  | .text _, h => fun _ hc => isAllowed_of_mem_quotedText h hc
  | .emptyList gap, h => by
    rw [Spelling.textWith, allAllowed_cons, allAllowed_append, allAllowed_cons]
    exact ⟨rfl, gap.allAllowed h, rfl, allAllowed_nil⟩
  | .list before items, h => by
    rw [Spelling.isShared, Bool.and_eq_true] at h
    rw [Spelling.textWith, allAllowed_cons, allAllowed_append]
    exact ⟨rfl, before.allAllowed h.1, allAllowed_items items h.2⟩
  | .emptyMap gap, h => by
    rw [Spelling.textWith, allAllowed_cons, allAllowed_append, allAllowed_cons]
    exact ⟨rfl, gap.allAllowed h, rfl, allAllowed_nil⟩
  | .map before pairs, h => by
    rw [Spelling.isShared, Bool.and_eq_true] at h
    rw [Spelling.textWith, allAllowed_cons, allAllowed_append]
    exact ⟨rfl, before.allAllowed h.1, allAllowed_pairs pairs h.2⟩

theorem allAllowed_items : ∀ items : Items, items.isShared = true →
    AllAllowed (items.textWith plainLines)
  | .last item behind, h => by
    rw [Items.isShared, Bool.and_eq_true] at h
    rw [Items.textWith, allAllowed_append, allAllowed_append, allAllowed_cons]
    exact ⟨allAllowed_value item h.1, behind.allAllowed h.2, rfl, allAllowed_nil⟩
  | .more item behind next rest, h => by
    simp only [Items.isShared, Bool.and_eq_true] at h
    obtain ⟨⟨⟨hitem, hbehind⟩, hnext⟩, hrest⟩ := h
    rw [Items.textWith, allAllowed_append, allAllowed_append, allAllowed_cons, allAllowed_append]
    exact ⟨allAllowed_value item hitem, behind.allAllowed hbehind, rfl, next.allAllowed hnext,
      allAllowed_items rest hrest⟩

theorem allAllowed_pairs : ∀ pairs : Pairs, pairs.isShared = true →
    AllAllowed (pairs.textWith plainLines)
  | .last key before item behind, h => by
    simp only [Pairs.isShared, Bool.and_eq_true] at h
    obtain ⟨⟨⟨hkey, hbefore⟩, hitem⟩, hbehind⟩ := h
    rw [Pairs.textWith, allAllowed_append, allAllowed_append, allAllowed_cons, allAllowed_append,
      allAllowed_append, allAllowed_append, allAllowed_cons]
    exact ⟨(key.allAllowed hkey).1, (key.allAllowed hkey).2, rfl, before.allAllowed hbefore,
      allAllowed_value item hitem, behind.allAllowed hbehind, rfl, allAllowed_nil⟩
  | .more key before item behind next rest, h => by
    simp only [Pairs.isShared, Bool.and_eq_true] at h
    obtain ⟨⟨⟨⟨⟨hkey, hbefore⟩, hitem⟩, hbehind⟩, hnext⟩, hrest⟩ := h
    rw [Pairs.textWith, allAllowed_append, allAllowed_append, allAllowed_cons, allAllowed_append,
      allAllowed_append, allAllowed_append, allAllowed_cons, allAllowed_append]
    exact ⟨(key.allAllowed hkey).1, (key.allAllowed hkey).2, rfl, before.allAllowed hbefore,
      allAllowed_value item hitem, behind.allAllowed hbehind, rfl, next.allAllowed hnext,
      allAllowed_pairs rest hrest⟩

end

/-- **YAML allows each character of a shared text.** -/
theorem isAllowed_text (before behind : Blanks) (v : Spelling) (hbefore : before.isShared = true)
    (hv : v.isShared = true) (hbehind : behind.isShared = true) :
    (plainLines (before.chars ++ v.chars ++ behind.chars)).all isAllowed = true := by
  rw [plainLines_text, List.all_eq_true]
  exact allAllowed_append.2 ⟨before.allAllowed hbefore,
    allAllowed_append.2 ⟨allAllowed_value v hv, behind.allAllowed hbehind⟩⟩

end EndpointAtlas.Json
