import EndpointAtlas.Proofs.Outcome
import EndpointAtlas.Proofs.Yaml.Quoted
import EndpointAtlas.Proofs.Yaml.Unquoted

/-!
# Steps of the scanner in a flow collection

`Scan.Passes s tokens s'` says that the scanner gets from one state to another and finds some tokens
on its way. There is a lemma for each token of a flow collection. They hold in calm states, where no
block collection is open and no possible key has to be one: there the possible keys that are dropped
are no errors.
-/

namespace EndpointAtlas.Yaml.Scan

open Json (IsSpacing StopsAt stopsAt_cons stopsAt_nil)

variable {s s' s'' : Scan} {c : Cursor} {ch : Char} {b rest tail : List Char}
  {ts us : List Token}

/-! ## Runs -/

/-- The scanner gets from a state to another, taking a character at least with each step. -/
def Leads (s s' : Scan) : Prop :=
  ∃ n, n + s'.cursor.rest.length ≤ s.cursor.rest.length ∧ ∀ room, s.run (room + n) = s'.run room

theorem Leads.refl (s : Scan) : s.Leads s := ⟨0, by omega, fun _ => by rw [Nat.add_zero]⟩

theorem Leads.trans (h : s.Leads s') (h' : s'.Leads s'') : s.Leads s'' := by
  obtain ⟨n, hn, hrun⟩ := h
  obtain ⟨n', hn', hrun'⟩ := h'
  refine ⟨n' + n, by omega, fun room => ?_⟩
  rw [← Nat.add_assoc, hrun, hrun']

theorem leads_of_step (h : s.step = .ok (some s'))
    (hlt : s'.cursor.rest.length < s.cursor.rest.length) : s.Leads s' := by
  refine ⟨1, Nat.add_comm _ 1 ▸ hlt, fun room => ?_⟩
  change s.resume (run room) = _
  unfold resume
  rw [h]

/-! ## Calm states -/

/-- No possible key has to be one. -/
def Free (keys : List (Option PossibleKey)) : Prop :=
  ∀ key, some key ∈ keys → key.required = false

/-- A state without open block collections in which no possible key has to be one. -/
structure Calm (s : Scan) : Prop where
  indents : s.indents = []
  free : Free s.keys

theorem free_cons {key : Option PossibleKey} {keys : List (Option PossibleKey)} :
    Free (key :: keys) ↔ (∀ k, key = some k → k.required = false) ∧ Free keys := by
  constructor
  · intro h
    exact ⟨fun k hk => h k (hk ▸ List.mem_cons_self), fun k hk => h k (List.mem_cons_of_mem _ hk)⟩
  · rintro ⟨hhead, htail⟩ k hk
    rcases List.mem_cons.1 hk with heq | hmem
    · exact hhead k heq.symm
    · exact htail k hmem

theorem free_none_cons {keys : List (Option PossibleKey)} : Free (none :: keys) ↔ Free keys := by
  rw [free_cons]
  exact ⟨And.right, fun h => ⟨fun _ hk => (Option.some_ne_none _ hk.symm).elim, h⟩⟩

theorem Free.of_tail {keys : List (Option PossibleKey)} (h : Free keys) : Free keys.tail :=
  fun k hk => h k (List.mem_of_mem_tail hk)

/-- The possible keys that are near enough to a position. -/
def liveKeys (c : Cursor) (keys : List (Option PossibleKey)) : List (Option PossibleKey) :=
  keys.map (Option.filter (isLive c))

theorem Free.liveKeys {keys : List (Option PossibleKey)} (h : Free keys) (c : Cursor) :
    Free (liveKeys c keys) := by
  intro k hk
  obtain ⟨key, hkey, hfilter⟩ := List.mem_map.1 hk
  obtain ⟨rfl, -⟩ := Option.filter_eq_some_iff.1 hfilter
  exact h k hkey

theorem keepLive_eq {key : Option PossibleKey} (h : ∀ k, key = some k → k.required = false) :
    keepLive c key = .ok (key.filter (isLive c)) := by
  cases key with
  | none => rfl
  | some k =>
    rw [keepLive, h k rfl, Option.filter_some]
    cases isLive c k <;> rfl

theorem mapM_keepLive {keys : List (Option PossibleKey)} (h : Free keys) :
    keys.mapM (keepLive c) = .ok (liveKeys c keys) := by
  induction keys with
  | nil => rfl
  | cons key keys ih =>
    obtain ⟨hhead, htail⟩ := free_cons.1 h
    rw [List.mapM_cons, keepLive_eq hhead, ih htail]
    rfl

/-- In a calm state keys that are too far away are dropped. -/
theorem Calm.dropStaleKeys_eq (h : s.Calm) :
    s.dropStaleKeys = .ok { s with keys := liveKeys s.cursor s.keys } := by
  rw [dropStaleKeys, mapM_keepLive h.free]
  rfl

theorem Calm.unwind_eq (h : s.Calm) (column : Int) : s.unwind column = s := by
  obtain ⟨cursor, keys, indent, indents, keyAllowed, tokens⟩ := s
  obtain rfl : indents = [] := h.indents
  rw [unwind]
  split <;> rfl

/-- In a calm state the possible key of the present level can be dropped. -/
theorem Calm.dropKey_eq (h : s.Calm) :
    ∃ keys, s.dropKey = .ok { s with keys } ∧ Free keys ∧ keys.length = s.keys.length := by
  have hfree := h.free
  rw [dropKey]
  split
  · next key outer heq =>
    rw [heq] at hfree
    obtain ⟨hhead, htail⟩ := free_cons.1 hfree
    refine ⟨none :: outer, ?_, free_none_cons.2 htail, ?_⟩
    · rw [hhead key rfl, if_neg Bool.false_ne_true]
    · rw [heq]
      rfl
  · exact ⟨s.keys, rfl, hfree, rfl⟩

/-! ## Blanks -/

/-- The characters that are skipped, or that start what is skipped, in front of a token. -/
def isSkipped (ch : Char) : Bool := ch = ' ' || isBreak ch || ch = '#'

theorem skipComment_eq (h : StopsAt isSkipped c.rest) :
    c.skipComment = c ∧ isBreak c.peek = false := by
  have hpeek : c.peek ≠ '#' ∧ isBreak c.peek = false := by
    cases hc : c.rest with
    | nil => rw [Cursor.peek, hc]; exact ⟨by decide, rfl⟩
    | cons ch rest =>
      rw [hc, stopsAt_cons, isSkipped, Bool.or_eq_false_iff, Bool.or_eq_false_iff] at h
      rw [Cursor.peek_eq hc]
      exact ⟨of_decide_eq_false h.2, h.1.2⟩
  exact ⟨by rw [Cursor.skipComment, if_neg hpeek.1], hpeek.2⟩

theorem skipSpaces_eq {spaces : List Char} (hspaces : ∀ d ∈ spaces, d = ' ')
    (hc : c.rest = spaces ++ tail) (htail : StopsAt (· = ' ') tail) :
    c.Runs spaces c.skipSpaces := by
  rw [Cursor.skipSpaces, Cursor.skipWhile,
    Cursor.takeWhile_eq hc (fun d hd => decide_eq_true (hspaces d hd)) htail]
  exact Cursor.runs_skip hc fun d hd => by rw [hspaces d hd]; rfl

/-- The scanner skips blanks. On the same line the position behind them is known. -/
theorem skipToToken_eq {room : Nat} (hb : IsSpacing b) (hc : s.cursor.rest = b ++ tail)
    (htail : StopsAt isSkipped tail) (hroom : b.length < room) :
    ∃ c a, skipToToken room s = { s with cursor := c, keyAllowed := a } ∧ c.rest = tail ∧
      ((s.keyAllowed || !s.inFlow) = s.keyAllowed → a = s.keyAllowed) ∧
      ((∀ d ∈ b, d = ' ') → s.cursor.Runs b c) := by
  induction room generalizing b s with
  | zero => exact absurd hroom (Nat.not_lt_zero _)
  | succ room ih =>
    obtain ⟨spaces, hspaces, rfl | ⟨further, rfl, hfurther⟩⟩ := cases_of_isSpacing hb
    · have hstops : StopsAt (fun ch => decide (ch = ' ')) tail := by
        intro ch hch
        have := htail ch hch
        rw [isSkipped, Bool.or_eq_false_iff, Bool.or_eq_false_iff] at this
        exact this.1.1
      have hruns := skipSpaces_eq hspaces hc hstops
      have hrest := Cursor.rest_of_runs hruns hc
      obtain ⟨hcomment, hbreak⟩ := skipComment_eq (hrest ▸ htail)
      refine ⟨s.cursor.skipSpaces, s.keyAllowed, ?_, hrest, fun _ => rfl, fun _ => hruns⟩
      rw [skipToToken, hcomment, hbreak, if_neg Bool.false_ne_true]
    · rw [List.append_assoc, List.cons_append] at hc
      rw [List.length_append, List.length_cons] at hroom
      have hruns := skipSpaces_eq hspaces hc (stopsAt_cons.2 rfl)
      have hrest := Cursor.rest_of_runs hruns hc
      have hcomment : s.cursor.skipSpaces.skipComment = s.cursor.skipSpaces := by
        rw [Cursor.skipComment, Cursor.peek_eq hrest, if_neg (by decide)]
      have hnext := Cursor.rest_next hrest (by decide)
      have hfeed : isBreak '\n' = true := rfl
      have hmixed : ¬ ∀ d ∈ spaces ++ '\n' :: further, d = ' ' := fun h =>
        absurd (h '\n' (List.mem_append_right _ List.mem_cons_self)) (by decide)
      rw [skipToToken, hcomment, Cursor.peek_eq hrest, if_pos hfeed, Cursor.lineBreak_eq hrest]
      obtain ⟨c, a, hskip, hc', ha, -⟩ := ih (s := { s with
          cursor := s.cursor.skipSpaces.next, keyAllowed := s.keyAllowed || !s.inFlow })
        hfurther hnext (by omega)
      refine ⟨c, a, hskip, hc', fun h => ?_, fun h => absurd h hmixed⟩
      have hflow : (s.keyAllowed || !s.inFlow || !s.inFlow) = (s.keyAllowed || !s.inFlow) := by
        rw [Bool.or_assoc, Bool.or_self]
      exact (ha hflow).trans h

/-! ## Tokens -/

/-- The characters that tokens of JSON start with. -/
def startChars : List Char := "\"[]\x7b\x7d,:tfn-0123456789".toList

/-- A state at a token further on. -/
def moved (s : Scan) (c : Cursor) : Scan := { s with cursor := c, keys := liveKeys c s.keys }

theorem Calm.moved (h : s.Calm) (c : Cursor) : (s.moved c).Calm := ⟨h.indents, h.free.liveKeys c⟩

theorem length_moved_keys (s : Scan) (c : Cursor) : (s.moved c).keys.length = s.keys.length := by
  rw [Scan.moved, liveKeys, List.length_map]

theorem inFlow_moved (s : Scan) (c : Cursor) : (s.moved c).inFlow = s.inFlow := by
  rw [inFlow, length_moved_keys, inFlow]

/-- Whether a token may be looked for: if a line end comes first, it changes nothing. -/
def Settled (s : Scan) : Prop := (s.keyAllowed || !s.inFlow) = s.keyAllowed

theorem settled_of_inFlow (h : s.inFlow = true) : s.Settled := by
  rw [Settled, h, Bool.not_true, Bool.or_false]

/-- Where neither a directive nor a mark between documents starts, there is a token. -/
theorem lineToken_eq (hc : s.cursor.rest = ch :: rest) (hstart : ch ∈ startChars)
    (hdash : ch = '-' → rest.headD endMark ≠ '-') : s.lineToken = s.token := by
  have hall : ∀ ch ∈ startChars, ch ≠ '%' ∧ ch ≠ '.' := List.all_iff_forall_prop.1 (by decide)
  obtain ⟨hpercent, hpoint⟩ := hall ch hstart
  have hpeekAt : s.cursor.peekAt 0 = ch := by
    rw [Cursor.peekAt, hc]
    rfl
  have hdashes : s.cursor.atMarks '-' = false := by
    rw [Cursor.atMarks, hpeekAt]
    by_cases h : ch = '-'
    · rw [Cursor.peekAt_one hc, decide_eq_false (hdash h), Bool.and_false]
      rfl
    · rw [decide_eq_false h]
      rfl
  have hpoints : s.cursor.atMarks '.' = false := by
    rw [Cursor.atMarks, hpeekAt, decide_eq_false hpoint]
    rfl
  unfold lineToken
  dsimp only
  rw [Cursor.peek_eq hc, hdashes, hpoints]
  simp [hpercent]

/-- In a calm state the next token is the one behind the blanks. -/
theorem step_eq (hcalm : s.Calm) (hsettled : s.Settled) (hb : IsSpacing b)
    (hc : s.cursor.rest = b ++ ch :: rest) (hstart : ch ∈ startChars)
    (hdash : ch = '-' → rest.headD endMark ≠ '-') :
    ∃ c, c.rest = ch :: rest ∧ ((∀ d ∈ b, d = ' ') → s.cursor.Runs b c) ∧
      s.step = some <$> (s.moved c).token := by
  have hskipped : ∀ ch ∈ startChars, isSkipped ch = false := List.all_iff_forall_prop.1 (by decide)
  have hroom : b.length < s.cursor.rest.length + 1 := by
    rw [hc, List.length_append]
    omega
  obtain ⟨c, a, hskip, hrest, ha, hruns⟩ :=
    skipToToken_eq hb hc (stopsAt_cons.2 (hskipped ch hstart)) hroom
  refine ⟨c, hrest, hruns, ?_⟩
  have happroach : s.approach = .ok (s.moved c) := by
    have hcalm' : ({ s with cursor := c } : Scan).Calm := ⟨hcalm.indents, hcalm.free⟩
    rw [approach, hskip, ha hsettled, hcalm'.dropStaleKeys_eq]
    exact congrArg Except.ok ((hcalm.moved c).unwind_eq c.column)
  have hrest' : (s.moved c).cursor.rest = ch :: rest := hrest
  unfold step
  rw [happroach]
  change (if (s.moved c).cursor.rest.isEmpty then _ else some <$> (s.moved c).lineToken) = _
  rw [lineToken_eq hrest' hstart hdash, hrest', List.isEmpty_cons, if_neg Bool.false_ne_true]

/-- The scanner gets from one state to another and finds tokens on its way. -/
structure Passes (s : Scan) (ts : List Token) (s' : Scan) : Prop where
  leads : s.Leads s'
  calm : s'.Calm
  tokens : s'.tokens = ts.reverse ++ s.tokens

theorem Passes.trans (h : s.Passes ts s') (h' : s'.Passes us s'') : s.Passes (ts ++ us) s'' := by
  refine ⟨h.leads.trans h'.leads, h'.calm, ?_⟩
  rw [h'.tokens, h.tokens, List.reverse_append, List.append_assoc]

/-- A step that takes one token. -/
theorem passes_of_step {t : Token} {result : Except Error Scan}
    (hstep : s.step = some <$> result) (hresult : result = .ok s') (hcalm : s'.Calm)
    (htokens : s'.tokens = t :: s.tokens)
    (hlt : s'.cursor.rest.length < s.cursor.rest.length) : s.Passes [t] s' := by
  rw [hresult] at hstep
  exact ⟨leads_of_step hstep hlt, hcalm, htokens⟩

/-- A calm state at the start of a text or inside a flow collection. -/
structure Ready (s : Scan) : Prop where
  calm : s.Calm
  place : s.inFlow = true ∨ (s.keys ≠ [] ∧ s.indent < 0 ∧ s.keyAllowed = true)

theorem Ready.settled (h : s.Ready) : s.Settled := by
  rcases h.place with hflow | ⟨-, -, hallowed⟩
  · exact settled_of_inFlow hflow
  · rw [Settled, hallowed, Bool.true_or]

theorem Ready.moved (h : s.Ready) (c : Cursor) : (s.moved c).Ready := by
  refine ⟨h.calm.moved c, ?_⟩
  rcases h.place with hflow | ⟨hne, hindent, hallowed⟩
  · exact .inl ((inFlow_moved s c).trans hflow)
  · refine .inr ⟨?_, hindent, hallowed⟩
    rw [Ne, ← List.length_eq_zero_iff, length_moved_keys, List.length_eq_zero_iff]
    exact hne

/-- The possible key at a position. -/
def keyHere (s : Scan) : PossibleKey :=
  ⟨s.tokens.length, false, s.cursor.index, s.cursor.line, s.cursor.column⟩

/-- A possible key is remembered where one may start; it does not have to be one. -/
theorem Ready.saveKey_eq (h : s.Ready) :
    ∃ keys, s.saveKey = .ok { s with keys } ∧ Free keys ∧ keys.length = s.keys.length ∧
      (s.keyAllowed = true → keys.head? = some (some s.keyHere)) := by
  have hlength : 0 < s.keys.length := by
    rcases h.place with hflow | ⟨hne, -, -⟩
    · have := of_decide_eq_true hflow
      omega
    · exact List.length_pos_iff.2 hne
  have hrequired : (!s.inFlow && decide (s.indent = s.cursor.column)) = false := by
    rcases h.place with hflow | ⟨-, hindent, -⟩
    · rw [hflow]
      rfl
    · have : s.indent ≠ s.cursor.column := by omega
      rw [decide_eq_false this, Bool.and_false]
  by_cases hallowed : s.keyAllowed = true
  · obtain ⟨keys, hdrop, hfree, hkeys⟩ := h.calm.dropKey_eq
    refine ⟨some s.keyHere :: keys.tail, ?_, ?_, ?_, fun _ => rfl⟩
    · rw [saveKey, if_pos hallowed, hdrop, hrequired]
      rfl
    · exact free_cons.2 ⟨fun k hk => by cases hk; rfl, hfree.of_tail⟩
    · rw [List.length_cons, List.length_tail, hkeys]
      omega
  · refine ⟨s.keys, ?_, h.calm.free, rfl, fun h => absurd h hallowed⟩
    rw [saveKey, if_neg hallowed]

/-! ## Marks -/

theorem length_lt_of_rest {c' : Cursor} (hc : c.rest = b ++ ch :: rest) (hc' : c'.rest = rest) :
    c'.rest.length < c.rest.length := by
  rw [hc, hc', List.length_append, List.length_cons]
  omega

/-- The characters that open flow collections, with their tokens. -/
def openers : List (Char × Token) := [('[', .sequenceStart), ('{', .mappingStart)]

/-- The characters that close flow collections, with their tokens. -/
def enders : List (Char × Token) := [(']', .sequenceEnd), ('}', .mappingEnd)]

/-- What the scanner does at each mark of a flow collection. -/
def marks : List (Char × (Scan → Except Error Scan)) :=
  openers.map (fun p => (p.1, fun s => s.openFlow p.2)) ++
    enders.map (fun p => (p.1, fun s => s.closeFlow p.2)) ++ [(',', flowEntry)]

theorem token_mark {act : Scan → Except Error Scan} (hmark : (ch, act) ∈ marks)
    (hpeek : s.cursor.peek = ch) : s.token = act s := by
  unfold token
  rw [hpeek]
  simp only [marks, openers, enders, List.map_cons, List.map_nil, List.cons_append,
    List.nil_append, List.mem_cons, List.not_mem_nil, or_false, Prod.mk.injEq] at hmark
  rcases hmark with ⟨rfl, rfl⟩ | ⟨rfl, rfl⟩ | ⟨rfl, rfl⟩ | ⟨rfl, rfl⟩ | ⟨rfl, rfl⟩ <;> rfl

/-- A step to a mark of a flow collection. -/
theorem step_mark {act : Scan → Except Error Scan} (hcalm : s.Calm) (hsettled : s.Settled)
    (hmark : (ch, act) ∈ marks) (hbefore : s.cursor.Before (ch :: rest)) :
    ∃ c : Cursor, c.next.rest = rest ∧ c.next.rest.length < s.cursor.rest.length ∧
      s.step = some <$> act (s.moved c) := by
  obtain ⟨b, hb, hc⟩ := hbefore
  have hall : ∀ p ∈ marks, p.1 ∈ startChars ∧ p.1 ≠ '-' ∧ p.1 ≠ '\r' :=
    List.all_iff_forall_prop.1 (by decide)
  obtain ⟨hstart, hdash, hreturn⟩ := hall _ hmark
  obtain ⟨c, hrest, -, hstep⟩ := step_eq hcalm hsettled hb hc hstart fun h => absurd h hdash
  have hnext := Cursor.rest_next hrest hreturn
  have hpeek : (s.moved c).cursor.peek = ch := Cursor.peek_eq hrest
  rw [token_mark hmark hpeek] at hstep
  exact ⟨c, hnext, length_lt_of_rest hc hnext, hstep⟩

/-- A flow collection is opened. -/
theorem passes_open {t : Token} (hready : s.Ready) (hopen : (ch, t) ∈ openers)
    (hbefore : s.cursor.Before (ch :: rest)) :
    ∃ s', s.Passes [t] s' ∧ s'.keys.length = s.keys.length + 1 ∧ s'.keyAllowed = true ∧
      s'.cursor.rest = rest := by
  have hmark : (ch, fun s : Scan => s.openFlow t) ∈ marks :=
    List.mem_append_left _ (List.mem_append_left _ (List.mem_map_of_mem hopen))
  obtain ⟨c, hnext, hlt, hstep⟩ := step_mark hready.calm hready.settled hmark hbefore
  obtain ⟨keys, hsave, hfree, hlength, -⟩ := (hready.moved c).saveKey_eq
  refine ⟨{ s.moved c with
    tokens := t :: s.tokens, cursor := c.next, keys := none :: keys, keyAllowed := true },
    passes_of_step hstep ?_ ⟨hready.calm.indents, free_none_cons.2 hfree⟩ rfl hlt, ?_, rfl,
    hnext⟩
  · rw [openFlow, hsave]
    rfl
  · rw [List.length_cons, hlength, length_moved_keys]

/-- A flow collection is closed. -/
theorem passes_close {t : Token} (hcalm : s.Calm) (hflow : s.inFlow = true)
    (hclose : (ch, t) ∈ enders) (hbefore : s.cursor.Before (ch :: rest)) :
    ∃ s', s.Passes [t] s' ∧ s'.keys.length + 1 = s.keys.length ∧ s'.cursor.rest = rest := by
  have hmark : (ch, fun s : Scan => s.closeFlow t) ∈ marks :=
    List.mem_append_left _ (List.mem_append_right _ (List.mem_map_of_mem hclose))
  obtain ⟨c, hnext, hlt, hstep⟩ := step_mark hcalm (settled_of_inFlow hflow) hmark hbefore
  obtain ⟨keys, hdrop, hfree, hlength⟩ := (hcalm.moved c).dropKey_eq
  refine ⟨{ s.moved c with
    tokens := t :: s.tokens, cursor := c.next, keys := keys.tail, keyAllowed := false },
    passes_of_step hstep ?_ ⟨hcalm.indents, hfree.of_tail⟩ rfl hlt, ?_, hnext⟩
  · rw [closeFlow, inFlow_moved, hflow, if_pos rfl, hdrop]
    rfl
  · have hlevels : 1 < s.keys.length := of_decide_eq_true hflow
    rw [List.length_tail, hlength, length_moved_keys]
    omega

/-- A comma. -/
theorem passes_comma (hcalm : s.Calm) (hflow : s.inFlow = true)
    (hbefore : s.cursor.Before (',' :: rest)) :
    ∃ s', s.Passes [.flowEntry] s' ∧ s'.keys.length = s.keys.length ∧ s'.keyAllowed = true ∧
      s'.cursor.rest = rest := by
  have hmark : (',', flowEntry) ∈ marks := List.mem_append_right _ (List.mem_singleton.2 rfl)
  obtain ⟨c, hnext, hlt, hstep⟩ := step_mark hcalm (settled_of_inFlow hflow) hmark hbefore
  obtain ⟨keys, hdrop, hfree, hlength⟩ := (hcalm.moved c).dropKey_eq
  refine ⟨{ s.moved c with
    tokens := .flowEntry :: s.tokens, cursor := c.next, keys, keyAllowed := true },
    passes_of_step hstep ?_ ⟨hcalm.indents, hfree⟩ rfl hlt, ?_, rfl, hnext⟩
  · rw [flowEntry, hdrop]
    rfl
  · rw [hlength, length_moved_keys]

/-! ## Scalars -/

theorem quotedToken_eq {double : Bool} {c c' : Cursor} {text : List Char}
    (h : quotedScalar double c = .ok (text, c')) :
    quotedToken double c = .ok (.scalar false text, c') := by
  rw [quotedToken, h]
  rfl

/-- A token that may start a key is read behind the place of the key. -/
theorem keyStart_eq {read : Cursor → Except Error (Token × Cursor)} {t : Token} {c : Cursor}
    {s' : Scan} (hsave : s.saveKey = .ok s') (hread : read s'.cursor = .ok (t, c)) :
    s.keyStart read = .ok { s'.emitAt t c with keyAllowed := false } := by
  rw [keyStart, hsave]
  change (read s'.cursor >>= _) = _
  rw [hread]
  rfl

/-- A quoted scalar where a token is looked for. The result says where it ends and what is known of
the possible key in front of it. -/
theorem passes_text {pieces : List Json.Piece} (hready : s.Ready)
    (hshared : pieces.all Json.Piece.isShared = true)
    (hbefore : s.cursor.Before (Json.quotedText pieces ++ rest)) :
    ∃ s', s.Passes [.scalar false (Json.contentOf pieces)] s' ∧
      s'.keys.length = s.keys.length ∧ s'.cursor.rest = rest ∧
      (s.keyAllowed = true → ∃ key, s'.keys.head? = some (some key) ∧
        key.number = s.tokens.length ∧ key.line = s'.cursor.line ∧
        s'.cursor.index = key.index + (Json.quotedText pieces).length) := by
  obtain ⟨b, hb, hc⟩ := hbefore
  obtain ⟨c, hrest, -, hstep⟩ :=
    step_eq hready.calm hready.settled hb hc (by decide) fun h => absurd h (by decide)
  obtain ⟨keys, hsave, hfree, hlength, hkey⟩ := (hready.moved c).saveKey_eq
  obtain ⟨c', hquoted, hruns⟩ := quotedScalar_text hshared hrest
  have hrest' := Cursor.rest_of_runs hruns hrest
  have htoken : (s.moved c).token = (s.moved c).keyStart (quotedToken true) := by
    have hpeek : (s.moved c).cursor.peek = '"' := Cursor.peek_eq hrest
    unfold token
    rw [hpeek]
    rfl
  refine ⟨{ s.moved c with
    tokens := .scalar false (Json.contentOf pieces) :: s.tokens, cursor := c', keys,
    keyAllowed := false },
    passes_of_step hstep ?_ ⟨hready.calm.indents, hfree⟩ rfl ?_, ?_, hrest', ?_⟩
  · rw [htoken]
    exact keyStart_eq hsave (quotedToken_eq hquoted)
  · change c'.rest.length < s.cursor.rest.length
    rw [hc, hrest', Json.quotedText, List.length_append, List.length_append, List.length_cons]
    omega
  · rw [hlength, length_moved_keys]
  · intro hallowed
    exact ⟨(s.moved c).keyHere, hkey hallowed, rfl, hruns.line.symm, hruns.index⟩

/-- A plain scalar is read where a word or a number starts. -/
theorem token_atom (hc : s.cursor.rest = ch :: rest) (hhead : ch ∈ atomHeads)
    (hdash : ch = '-' → isBlankOrEnd (rest.headD endMark) = false) : s.token = s.plain := by
  have hpeek := Cursor.peek_eq hc
  have hpeekAt := Cursor.peekAt_one hc
  have hplain : s.startsPlain = true := by
    have hall : ∀ ch ∈ atomHeads, ch = '-' ∨
        (!(isBlankOrEnd ch || indicators.contains ch)) = true :=
        List.all_iff_forall_prop.1 (by decide)
    rw [startsPlain, hpeek, hpeekAt]
    rcases hall ch hhead with rfl | h
    · rw [hdash rfl]
      rfl
    · rw [h]
      rfl
  have hall : ∀ ch ∈ atomHeads, ch ≠ '?' ∧ ch ≠ ':' ∧ ch ≠ '|' ∧ ch ≠ '>' :=
    List.all_iff_forall_prop.1 (by decide)
  obtain ⟨hquestion, hcolon, hbar, hgreater⟩ := hall ch hhead
  have hentry : ¬ (ch = '-' ∧ isBlankOrEnd (s.cursor.peekAt 1) = true) := by
    rintro ⟨h, hblank⟩
    rw [hpeekAt, hdash h] at hblank
    cases hblank
  unfold token
  rw [hpeek]
  split
  all_goals first | exact absurd hhead (by decide) | skip
  rw [if_neg hentry, if_neg fun h => hquestion h.1, if_neg fun h => hcolon h.1,
    if_neg fun h => hbar h.1, if_neg fun h => hgreater h.1, hplain, if_pos rfl]

theorem plain_eq {keys : List (Option PossibleKey)} {text : List Char} {newLine : Bool}
    (hsave : s.saveKey = .ok { s with keys })
    (h : plainScalar ({ s with keys } : Scan).inFlow (s.indent + 1) s.cursor = (text, newLine, c)) :
    s.plain = .ok { s with
      keys, tokens := .scalar true text :: s.tokens, cursor := c, keyAllowed := newLine } := by
  rw [plain, hsave]
  dsimp only [bind, Except.bind]
  rw [h]
  rfl

/-- A word or a number in front of a mark. -/
theorem passes_atom {cs b' : List Char} {mark : Char} (hcalm : s.Calm) (hflow : s.inFlow = true)
    (hcs : IsAtom cs) (hb' : IsSpacing b') (hmark : mark ∈ closers)
    (hbefore : s.cursor.Before (cs ++ (b' ++ mark :: rest))) :
    ∃ s', s.Passes [.scalar true cs] s' ∧ s'.keys.length = s.keys.length ∧
      s'.cursor.rest = mark :: rest := by
  obtain ⟨b, hb, hc⟩ := hbefore
  have hready : s.Ready := ⟨hcalm, .inl hflow⟩
  obtain ⟨ch, more, rfl, hhead, hdash⟩ := hcs.head
  -- behind a minus there is a digit, so a number of that kind has a second character
  have hsecond : ch = '-' → (more ++ (b' ++ mark :: rest)).headD endMark = more.headD endMark := by
    intro h
    cases more with
    | nil => exact absurd (hdash h).1 (by decide)
    | cons d more => rfl
  have hstart : ∀ ch ∈ atomHeads, ch ∈ startChars := List.all_iff_forall_prop.1 (by decide)
  rw [List.cons_append] at hc
  obtain ⟨c, hrest, -, hstep⟩ := step_eq hcalm hready.settled hb hc (hstart ch hhead) fun h => by
    rw [hsecond h]
    exact (hdash h).2
  obtain ⟨keys, hsave, hfree, hlength, -⟩ := (hready.moved c).saveKey_eq
  obtain ⟨newLine, c', hplain, hrest'⟩ :=
    plainScalar_atom (s.indent + 1) hcs hb' hmark hrest
  have htoken : (s.moved c).token = (s.moved c).plain := token_atom hrest hhead fun h => by
    rw [hsecond h]
    exact (hdash h).1
  have hflow' : ({ s.moved c with keys := keys } : Scan).inFlow = true := by
    rw [inFlow, hlength, length_moved_keys]
    exact hflow
  have hplain' : plainScalar ({ s.moved c with keys := keys } : Scan).inFlow (s.indent + 1) c =
      (ch :: more, newLine, c') := by
    rw [hflow']
    exact hplain
  refine ⟨{ s.moved c with
    tokens := .scalar true (ch :: more) :: s.tokens, cursor := c', keys, keyAllowed := newLine },
    passes_of_step hstep ?_ ⟨hcalm.indents, hfree⟩ rfl ?_, ?_, hrest'⟩
  · rw [htoken]
    exact plain_eq hsave hplain'
  · change c'.rest.length < s.cursor.rest.length
    simp only [hc, hrest', List.length_append, List.length_cons]
    omega
  · rw [hlength, length_moved_keys]

/-! ## Keys -/

theorem isSpacing_of_spaces {gap : List Char} (h : ∀ d ∈ gap, d = ' ') : IsSpacing gap :=
  fun d hd => .inl (h d hd)

theorem token_colon (hpeek : s.cursor.peek = ':') (hflow : s.inFlow = true) :
    s.token = s.value := by
  have hmark : s.isMark = true := by rw [isMark, hflow, Bool.true_or]
  unfold token
  rw [hpeek]
  change (if ':' = '-' ∧ _ then _ else if ':' = '?' ∧ _ then _
    else if ':' = ':' ∧ s.isMark = true then _ else _) = _
  rw [if_neg (by simp), if_neg (by simp), if_pos ⟨rfl, hmark⟩]

theorem value_eq {key : PossibleKey} {outer : List (Option PossibleKey)} {t : Token}
    (hkeys : s.keys = some key :: outer) (hflow : s.inFlow = true)
    (hnumber : key.number = ts.length) (htokens : s.tokens = t :: ts) :
    s.value = .ok { s with
      keys := none :: outer, tokens := .value :: t :: .key :: ts, cursor := s.cursor.next,
      keyAllowed := false } := by
  have hinsert : ({ s with keys := none :: outer } : Scan).insertAt key.number .key =
      { s with keys := none :: outer, tokens := t :: .key :: ts } := by
    rw [insertAt, hnumber]
    dsimp only
    rw [htokens, List.length_cons, Nat.add_sub_cancel_left]
    rfl
  have hflow' : ({ s with keys := none :: outer, tokens := t :: .key :: ts } : Scan).inFlow =
      true := by
    rw [inFlow, hkeys] at hflow
    exact hflow
  unfold Scan.value
  rw [hkeys]
  dsimp only
  rw [hinsert, hflow', if_pos rfl]
  rfl

/-- The colon behind a possible key that is near enough. -/
theorem passes_colon {key : PossibleKey} {t : Token} {gap : List Char} (hcalm : s.Calm)
    (hflow : s.inFlow = true) (hgap : ∀ d ∈ gap, d = ' ')
    (hc : s.cursor.rest = gap ++ ':' :: rest) (hkey : s.keys.head? = some (some key))
    (hnumber : key.number = ts.length) (hline : key.line = s.cursor.line)
    (hnear : s.cursor.index + gap.length ≤ key.index + keyLimit) (htokens : s.tokens = t :: ts) :
    ∃ s', s.Leads s' ∧ s'.Calm ∧ s'.tokens = .value :: t :: .key :: ts ∧
      s'.keys.length = s.keys.length ∧ s'.cursor.rest = rest := by
  obtain ⟨c, hrest, hruns, hstep⟩ := step_eq hcalm (settled_of_inFlow hflow)
    (isSpacing_of_spaces hgap) hc (by decide) fun h => absurd h (by decide)
  have hruns := hruns hgap
  have hlive : isLive c key = true := by
    rw [isLive, hruns.line, hruns.index, hline, Bool.and_eq_true, decide_eq_true_eq,
      decide_eq_true_eq]
    exact ⟨rfl, by omega⟩
  obtain ⟨outer, houter⟩ := List.head?_eq_some_iff.1 hkey
  have hmoved : (s.moved c).keys = some key :: liveKeys c outer := by
    rw [Scan.moved, liveKeys, houter, List.map_cons, Option.filter_some, hlive]
    rfl
  have hfree : Free (none :: liveKeys c outer) := by
    have := hcalm.free
    rw [houter, free_cons] at this
    exact free_none_cons.2 (this.2.liveKeys c)
  have hflow' : (s.moved c).inFlow = true := (inFlow_moved s c).trans hflow
  have htoken : (s.moved c).token = (s.moved c).value :=
    token_colon (Cursor.peek_eq hrest) hflow'
  have hnext := Cursor.rest_next hrest (by decide)
  refine ⟨{ s.moved c with
    tokens := .value :: t :: .key :: ts, cursor := c.next, keys := none :: liveKeys c outer,
    keyAllowed := false }, leads_of_step ?_ (length_lt_of_rest hc hnext),
    ⟨hcalm.indents, hfree⟩, rfl, ?_, hnext⟩
  · rw [hstep, htoken, value_eq hmoved hflow' hnumber htokens]
    rfl
  · rw [houter, List.length_cons, List.length_cons, liveKeys, List.length_map]

theorem plainLines_spaces {gap : List Char} (h : ∀ d ∈ gap, d = ' ') :
    Document.plainLines gap = gap := by
  have hreturn : '\r' ∉ gap := fun hmem => absurd (h _ hmem) (by decide)
  have := Json.plainLines_append_of_not_mem hreturn []
  rwa [List.append_nil, show Document.plainLines [] = [] from rfl, List.append_nil] at this

/-- A key with its colon. The mark of a key stands in front of its text. -/
theorem passes_key {k : Json.Key} (hcalm : s.Calm) (hflow : s.inFlow = true)
    (hallowed : s.keyAllowed = true) (hshared : k.isShared = true)
    (hbefore : s.cursor.Before
      (Json.quotedText k.pieces ++ (Document.plainLines k.gap.chars ++ ':' :: rest))) :
    ∃ s', s.Passes [.key, .scalar false (Json.contentOf k.pieces), .value] s' ∧
      s'.keys.length = s.keys.length ∧ s'.cursor.rest = rest := by
  rw [Json.Key.isShared, Bool.and_eq_true, Bool.and_eq_true, decide_eq_true_eq] at hshared
  obtain ⟨⟨hpieces, hgap⟩, hlimit⟩ := hshared
  have hspaces : ∀ d ∈ k.gap.chars, d = ' ' :=
    fun d hd => of_decide_eq_true (List.all_eq_true.1 hgap d hd)
  rw [plainLines_spaces hspaces] at hbefore
  obtain ⟨s₁, hpasses, hlength, hrest, hkey⟩ :=
    passes_text ⟨hcalm, .inl hflow⟩ hpieces hbefore
  obtain ⟨key, hhead, hnumber, hline, hindex⟩ := hkey hallowed
  have hflow₁ : s₁.inFlow = true := by
    rw [inFlow, hlength]
    exact hflow
  obtain ⟨s₂, hleads, hcalm₂, htokens, hlength₂, hrest₂⟩ :=
    passes_colon hpasses.calm hflow₁ hspaces hrest hhead hnumber hline (by omega) hpasses.tokens
  exact ⟨s₂, ⟨hpasses.leads.trans hleads, hcalm₂, htokens⟩, hlength₂.trans hlength, hrest₂⟩

end EndpointAtlas.Yaml.Scan
