import EndpointAtlas.Proofs.Yaml.Stepping

/-!
# Tokens of JSON texts

The scanner finds the tokens of a spelling in its text (`ofText_text`). Values, items and members
are treated together, each by the steps of its tokens.
-/

namespace EndpointAtlas

open Document (plainLines)
open Yaml (Token)

/-! ## Tokens of spellings -/

namespace Json

mutual

/-- The tokens of a value. -/
def Spelling.tokens : Spelling → List Token
  | .word w => [.scalar true w.text]
  | .number n => [.scalar true n.text]
  | .text pieces => [.scalar false (contentOf pieces)]
  | .emptyList _ => [.sequenceStart, .sequenceEnd]
  | .list _ items => .sequenceStart :: (items.tokens ++ [.sequenceEnd])
  | .emptyMap _ => [.mappingStart, .mappingEnd]
  | .map _ pairs => .mappingStart :: (pairs.tokens ++ [.mappingEnd])

/-- The tokens of items, with those of the commas between them. -/
def Items.tokens : Items → List Token
  | .last item _ => item.tokens
  | .more item _ _ rest => item.tokens ++ .flowEntry :: rest.tokens

/-- The tokens of members, with those of the commas between them. -/
def Pairs.tokens : Pairs → List Token
  | .last key _ item _ =>
    .key :: .scalar false (contentOf key.pieces) :: .value :: item.tokens
  | .more key _ item _ _ rest =>
    .key :: .scalar false (contentOf key.pieces) :: .value ::
      (item.tokens ++ .flowEntry :: rest.tokens)

end

/-- Whether a value is a list or a mapping. -/
def Spelling.isCollection : Spelling → Bool
  | .emptyList _ | .list _ _ | .emptyMap _ | .map _ _ => true
  | _ => false

end Json

namespace Yaml.Scan

open Json (Spelling Items Pairs IsSpacing)

variable {s s' : Scan} {tail rest : List Char}

theorem inFlow_of_length (h : s.inFlow = true) (hlength : s'.keys.length = s.keys.length) :
    s'.inFlow = true := by
  rw [inFlow, hlength]
  exact h

theorem before_of_spacing {b : List Char} {c : Cursor} (hb : IsSpacing b)
    (h : c.rest = b ++ tail) : c.Before tail := ⟨b, hb, h⟩

/-- What the scanner does with a value in a flow collection, where a mark follows. -/
def ReadsValue (v : Spelling) : Prop :=
  ∀ (s : Scan) (b : List Char) (mark : Char) (rest : List Char), s.Calm → s.inFlow = true →
    IsSpacing b → mark ∈ closers →
    s.cursor.Before (v.textWith plainLines ++ (b ++ mark :: rest)) →
    ∃ s', s.Passes v.tokens s' ∧ s'.keys.length = s.keys.length ∧
      s'.cursor.Before (mark :: rest)

/-- What the scanner does with a collection. -/
def ReadsCollection (v : Spelling) : Prop :=
  ∀ (s : Scan) (tail : List Char), s.Ready → s.cursor.Before (v.textWith plainLines ++ tail) →
    ∃ s', s.Passes v.tokens s' ∧ s'.keys.length = s.keys.length ∧ s'.cursor.rest = tail

/-- What the scanner does with what stands inside a collection and ends with a mark, up to that. -/
def ReadsInside (text : List Char) (ts : List Token) (ender : Char) : Prop :=
  ∀ (s : Scan) (tail : List Char), s.Calm → s.inFlow = true → s.keyAllowed = true →
    s.cursor.Before (text ++ tail) →
    ∃ s', s.Passes ts s' ∧ s'.keys.length = s.keys.length ∧ s'.cursor.Before (ender :: tail)

theorem ReadsCollection.readsValue {v : Spelling} (h : ReadsCollection v) : ReadsValue v := by
  intro s b mark rest hcalm hflow hb _ hbefore
  obtain ⟨s', hpasses, hlength, hrest⟩ := h s (b ++ mark :: rest) ⟨hcalm, .inl hflow⟩ hbefore
  exact ⟨s', hpasses, hlength, before_of_spacing hb hrest⟩

/-- A collection is read from the mark that opens it to the mark that ends it. -/
theorem exists_passes_collection {opener ender : Char} {t t' : Token} {text : List Char}
    {ts : List Token} (hopen : (opener, t) ∈ openers) (hend : (ender, t') ∈ enders)
    (hinside : ReadsInside text ts ender) (hready : s.Ready)
    (hbefore : s.cursor.Before (opener :: (text ++ tail))) :
    ∃ s', s.Passes (t :: (ts ++ [t'])) s' ∧ s'.keys.length = s.keys.length ∧
      s'.cursor.rest = tail := by
  obtain ⟨s₁, hpasses₁, hlength₁, hallowed, hrest₁⟩ := passes_open hready hopen hbefore
  have hlevels : 0 < s.keys.length := by
    rcases hready.place with hflow | ⟨hne, -, -⟩
    · exact Nat.lt_trans Nat.zero_lt_one (of_decide_eq_true hflow)
    · exact List.length_pos_iff.2 hne
  have hflow₁ : s₁.inFlow = true := by
    rw [inFlow, hlength₁]
    exact decide_eq_true (by omega)
  obtain ⟨s₂, hpasses₂, hlength₂, hbefore₂⟩ :=
    hinside s₁ tail hpasses₁.calm hflow₁ hallowed (.of_eq hrest₁)
  obtain ⟨s₃, hpasses₃, hlength₃, hrest₃⟩ :=
    passes_close hpasses₂.calm (inFlow_of_length hflow₁ hlength₂) hend hbefore₂
  exact ⟨s₃, hpasses₁.trans (hpasses₂.trans hpasses₃), by omega, hrest₃⟩

/-- Blanks alone inside a collection. -/
theorem readsInside_blanks {b : List Char} (hb : IsSpacing b) (ender : Char) :
    ReadsInside (b ++ [ender]) [] ender := by
  intro s tail hcalm _ _ hbefore
  obtain ⟨b', hb', hrest⟩ := hbefore
  refine ⟨s, ⟨.refl s, hcalm, rfl⟩, rfl, b' ++ b, ?_, ?_⟩
  · exact List.forall_mem_append.2 ⟨hb', hb⟩
  · rw [hrest, List.append_assoc, List.append_assoc, List.singleton_append]

theorem ReadsInside.behind_blanks {b text : List Char} {ts : List Token} {ender : Char}
    (hb : IsSpacing b) (h : ReadsInside text ts ender) : ReadsInside (b ++ text) ts ender := by
  intro s tail hcalm hflow hallowed hbefore
  obtain ⟨b', hb', hrest⟩ := hbefore
  refine h s tail hcalm hflow hallowed ⟨b' ++ b, List.forall_mem_append.2 ⟨hb', hb⟩, ?_⟩
  rw [hrest, List.append_assoc, List.append_assoc]

/-! ## Parts of collections -/

theorem readsValue_atom {v : Spelling} {cs : List Char} (h : IsAtom cs)
    (htext : v.textWith plainLines = cs) (htokens : v.tokens = [.scalar true cs]) :
    ReadsValue v := by
  intro s b mark rest hcalm hflow hb hmark hbefore
  rw [htext] at hbefore
  rw [htokens]
  obtain ⟨s', hpasses, hlength, hrest⟩ := passes_atom hcalm hflow h hb hmark hbefore
  exact ⟨s', hpasses, hlength, .of_eq hrest⟩

theorem readsValue_text {pieces : List Json.Piece} (h : pieces.all Json.Piece.isShared = true) :
    ReadsValue (.text pieces) := by
  intro s b mark rest hcalm hflow hb _ hbefore
  obtain ⟨s', hpasses, hlength, hrest, -⟩ := passes_text ⟨hcalm, .inl hflow⟩ h hbefore
  exact ⟨s', hpasses, hlength, before_of_spacing hb hrest⟩

/-- The last item of a list. -/
theorem readsInside_lastItem {item : Spelling} {behind : List Char} (hitem : ReadsValue item)
    (hbehind : IsSpacing behind) :
    ReadsInside (item.textWith plainLines ++ (behind ++ [']'])) item.tokens ']' := by
  intro s tail hcalm hflow _ hbefore
  rw [List.append_assoc, List.append_assoc, List.singleton_append] at hbefore
  exact hitem s behind ']' tail hcalm hflow hbehind (by decide) hbefore

/-- A comma, and what stands behind it. -/
theorem exists_passes_further {next text : List Char} {ts : List Token} {ender : Char}
    (hcalm : s.Calm) (hflow : s.inFlow = true) (hnext : IsSpacing next)
    (hrest : ReadsInside text ts ender)
    (hbefore : s.cursor.Before (',' :: (next ++ (text ++ tail)))) :
    ∃ s', s.Passes (.flowEntry :: ts) s' ∧ s'.keys.length = s.keys.length ∧
      s'.cursor.Before (ender :: tail) := by
  obtain ⟨s₁, hpasses₁, hlength₁, hallowed₁, hrest₁⟩ := passes_comma hcalm hflow hbefore
  obtain ⟨s₂, hpasses₂, hlength₂, hbefore₂⟩ := hrest s₁ tail hpasses₁.calm
    (inFlow_of_length hflow hlength₁) hallowed₁ (before_of_spacing hnext hrest₁)
  exact ⟨s₂, hpasses₁.trans hpasses₂, hlength₂.trans hlength₁, hbefore₂⟩

/-- An item of a list with others behind it. -/
theorem readsInside_moreItems {item : Spelling} {behind next text : List Char} {ts : List Token}
    (hitem : ReadsValue item) (hbehind : IsSpacing behind) (hnext : IsSpacing next)
    (hrest : ReadsInside text ts ']') :
    ReadsInside (item.textWith plainLines ++ (behind ++ ',' :: (next ++ text)))
      (item.tokens ++ .flowEntry :: ts) ']' := by
  intro s tail hcalm hflow _ hbefore
  simp only [List.append_assoc, List.cons_append] at hbefore
  obtain ⟨s₁, hpasses₁, hlength₁, hbefore₁⟩ :=
    hitem s behind ',' _ hcalm hflow hbehind (by decide) hbefore
  obtain ⟨s₂, hpasses₂, hlength₂, hbefore₂⟩ := exists_passes_further hpasses₁.calm
    (inFlow_of_length hflow hlength₁) hnext hrest hbefore₁
  exact ⟨s₂, hpasses₁.trans hpasses₂, hlength₂.trans hlength₁, hbefore₂⟩

/-- A member of a mapping, up to the mark behind it. -/
theorem exists_passes_member {key : Json.Key} {item : Spelling} {before behind rest : List Char}
    {mark : Char} (hkey : key.isShared = true) (hitem : ReadsValue item)
    (hb : IsSpacing before) (hbehind : IsSpacing behind) (hmark : mark ∈ closers)
    (hcalm : s.Calm) (hflow : s.inFlow = true) (hallowed : s.keyAllowed = true)
    (hbefore : s.cursor.Before (Json.quotedText key.pieces ++ (plainLines key.gap.chars ++
      ':' :: (before ++ (item.textWith plainLines ++ (behind ++ mark :: rest)))))) :
    ∃ s', s.Passes (.key :: .scalar false (Json.contentOf key.pieces) :: .value :: item.tokens) s' ∧
      s'.keys.length = s.keys.length ∧ s'.cursor.Before (mark :: rest) := by
  obtain ⟨s₁, hpasses₁, hlength₁, hrest₁⟩ := passes_key hcalm hflow hallowed hkey hbefore
  obtain ⟨s₂, hpasses₂, hlength₂, hbefore₂⟩ := hitem s₁ behind mark rest hpasses₁.calm
    (inFlow_of_length hflow hlength₁) hbehind hmark (before_of_spacing hb hrest₁)
  exact ⟨s₂, hpasses₁.trans hpasses₂, hlength₂.trans hlength₁, hbefore₂⟩

/-! ## Values -/

/-- A collection is read at the start of a text, too. -/
theorem ReadsCollection.readsBoth {v : Spelling} (h : ReadsCollection v) :
    ReadsValue v ∧ (v.isCollection = true → ReadsCollection v) :=
  ⟨h.readsValue, fun _ => h⟩

mutual

theorem readsBoth : ∀ v : Spelling, v.isShared = true →
    ReadsValue v ∧ (v.isCollection = true → ReadsCollection v)
  | .word w, _ => ⟨readsValue_atom (isAtom_word w) rfl rfl, fun h => by cases h⟩
  | .number n, _ => ⟨readsValue_atom (isAtom_numeral n) rfl rfl, fun h => by cases h⟩
  | .text _, h => ⟨readsValue_text h, fun h => by cases h⟩
  | .emptyList gap, h => ReadsCollection.readsBoth fun _ _ hready hbefore =>
    exists_passes_collection (by decide) (by decide) (readsInside_blanks (gap.isSpacing h) ']')
      hready hbefore
  | .list before items, h => by
    rw [Spelling.isShared, Bool.and_eq_true] at h
    exact ReadsCollection.readsBoth fun _ _ hready hbefore =>
      exists_passes_collection (by decide) (by decide)
        ((readsItems items h.2).behind_blanks (before.isSpacing h.1)) hready hbefore
  | .emptyMap gap, h => ReadsCollection.readsBoth fun _ _ hready hbefore =>
    exists_passes_collection (by decide) (by decide) (readsInside_blanks (gap.isSpacing h) '}')
      hready hbefore
  | .map before pairs, h => by
    rw [Spelling.isShared, Bool.and_eq_true] at h
    exact ReadsCollection.readsBoth fun _ _ hready hbefore =>
      exists_passes_collection (by decide) (by decide)
        ((readsPairs pairs h.2).behind_blanks (before.isSpacing h.1)) hready hbefore

theorem readsItems : ∀ items : Items, items.isShared = true →
    ReadsInside (items.textWith plainLines) items.tokens ']'
  | .last item behind, h => by
    rw [Items.isShared, Bool.and_eq_true] at h
    exact readsInside_lastItem (readsBoth item h.1).1 (behind.isSpacing h.2)
  | .more item behind next rest, h => by
    simp only [Items.isShared, Bool.and_eq_true] at h
    obtain ⟨⟨⟨hitem, hbehind⟩, hnext⟩, hrest⟩ := h
    exact readsInside_moreItems (readsBoth item hitem).1 (behind.isSpacing hbehind)
      (next.isSpacing hnext) (readsItems rest hrest)

theorem readsPairs : ∀ pairs : Pairs, pairs.isShared = true →
    ReadsInside (pairs.textWith plainLines) pairs.tokens '}'
  | .last key before item behind, h => by
    simp only [Pairs.isShared, Bool.and_eq_true] at h
    obtain ⟨⟨⟨hkey, hbefore⟩, hitem⟩, hbehind⟩ := h
    intro s tail hcalm hflow hallowed hplace
    simp only [Pairs.textWith, List.append_assoc, List.cons_append, List.nil_append] at hplace
    exact exists_passes_member hkey (readsBoth item hitem).1 (before.isSpacing hbefore)
      (behind.isSpacing hbehind) (by decide) hcalm hflow hallowed hplace
  | .more key before item behind next rest, h => by
    simp only [Pairs.isShared, Bool.and_eq_true] at h
    obtain ⟨⟨⟨⟨⟨hkey, hbefore⟩, hitem⟩, hbehind⟩, hnext⟩, hrest⟩ := h
    intro s tail hcalm hflow hallowed hplace
    simp only [Pairs.textWith, List.append_assoc, List.cons_append] at hplace
    obtain ⟨s₁, hpasses₁, hlength₁, hbefore₁⟩ :=
      exists_passes_member hkey (readsBoth item hitem).1 (before.isSpacing hbefore)
        (behind.isSpacing hbehind) (by decide) hcalm hflow hallowed hplace
    obtain ⟨s₂, hpasses₂, hlength₂, hbefore₂⟩ := exists_passes_further hpasses₁.calm
      (inFlow_of_length hflow hlength₁) (next.isSpacing hnext) (readsPairs rest hrest) hbefore₁
    exact ⟨s₂, hpasses₁.trans hpasses₂, hlength₂.trans hlength₁, hbefore₂⟩

end

/-! ## Whole texts -/

theorem ready_start (text : List Char) : (Scan.start text).Ready :=
  ⟨⟨rfl, fun _ hk => by cases hk; contradiction⟩,
    .inr ⟨List.cons_ne_nil _ _, show (-1 : Int) < 0 by decide, rfl⟩⟩

/-- At the end of a text nothing is left open in a calm state. -/
theorem run_of_spacing {room : Nat} (hcalm : s.Calm) (h : IsSpacing s.cursor.rest) :
    s.run (room + 1) = ⟨s.tokens.reverse, none⟩ := by
  have hrest : s.cursor.rest = s.cursor.rest ++ [] := (List.append_nil _).symm
  obtain ⟨c, a, hskip, hc, -, -⟩ :=
    skipToToken_eq h hrest (Json.stopsAt_nil isSkipped) (Nat.lt_succ_self _)
  have hcalm' : ({ s with cursor := c, keyAllowed := a } : Scan).Calm :=
    ⟨hcalm.indents, hcalm.free⟩
  have hdrop := hcalm'.dropStaleKeys_eq
  have hlive : ({ s with
      cursor := c, keyAllowed := a, keys := liveKeys c s.keys } : Scan).Calm :=
    ⟨hcalm.indents, hcalm.free.liveKeys c⟩
  have happroach : s.approach = .ok { s with
      cursor := c, keyAllowed := a, keys := liveKeys c s.keys } := by
    rw [approach, hskip, hdrop]
    exact congrArg Except.ok (hlive.unwind_eq c.column)
  have hstep : s.step = .ok none := by
    unfold step
    rw [happroach]
    change (if c.rest.isEmpty then _ else _) = _
    rw [hc]
    rfl
  obtain ⟨keys, hkeys, -, -⟩ := hlive.dropKey_eq
  have hfinish : (skipToToken (s.cursor.rest.length + 1) s).dropStaleKeys >>= finish =
      .ok { s with cursor := c, keyAllowed := a, keys } := by
    rw [hskip, hdrop]
    change finish _ = _
    rw [finish, hlive.unwind_eq, hkeys]
  change s.resume (run room) = _
  unfold resume
  rw [hstep]
  change s.ended = _
  unfold ended
  rw [hfinish]

/-- There is room for the steps up to the end of a text. -/
theorem run_of_passes {text : List Char} {ts : List Token} (h : (Scan.start text).Passes ts s)
    (hspacing : IsSpacing s.cursor.rest) :
    (Scan.start text).run (text.length + 1) = ⟨ts, none⟩ := by
  obtain ⟨n, hn, hrun⟩ := h.leads
  change n + s.cursor.rest.length ≤ text.length at hn
  have hroom : text.length + 1 = text.length - n + 1 + n := by omega
  rw [hroom, hrun, run_of_spacing h.calm hspacing, h.tokens]
  change (⟨(ts.reverse ++ []).reverse, none⟩ : Tokens) = _
  rw [List.append_nil, List.reverse_reverse]

theorem head?_ne_byteOrderMark {before cs : List Char} (hb : IsSpacing before)
    (h : Json.StartsValue cs) : (before ++ cs).head? ≠ some byteOrderMark := by
  cases before with
  | nil =>
    obtain ⟨c, rest, rfl, hstarts⟩ := h
    rintro ⟨⟩
    exact absurd hstarts (by decide)
  | cons c rest =>
    rintro ⟨⟩
    rcases hb _ List.mem_cons_self with h | h <;> exact absurd h (by decide)

/-- **The tokens of a text with a collection are those of the collection.** -/
theorem ofText_text (before behind : Json.Blanks) (v : Spelling)
    (hbefore : before.isShared = true) (hv : v.isShared = true) (hbehind : behind.isShared = true)
    (hcollection : v.isCollection = true) :
    Tokens.ofText (plainLines (before.chars ++ v.chars ++ behind.chars)) = ⟨v.tokens, none⟩ := by
  have hallowed := Json.isAllowed_text before behind v hbefore hv hbehind
  rw [Json.plainLines_text] at hallowed ⊢
  have hmark : (plainLines before.chars ++ (v.textWith plainLines ++ plainLines behind.chars)).head?
      ≠ some byteOrderMark :=
    head?_ne_byteOrderMark (before.isSpacing hbefore) ((v.startsValue_textWith plainLines).append _)
  obtain ⟨s, hpasses, -, hrest⟩ := (readsBoth v hv).2 hcollection
    (.start (plainLines before.chars ++ (v.textWith plainLines ++ plainLines behind.chars)))
    (plainLines behind.chars) (ready_start _) (before_of_spacing (before.isSpacing hbefore) rfl)
  rw [Tokens.ofText, if_pos hallowed, if_neg hmark]
  exact run_of_passes hpasses (hrest ▸ behind.isSpacing hbehind)

end Yaml.Scan

end EndpointAtlas
