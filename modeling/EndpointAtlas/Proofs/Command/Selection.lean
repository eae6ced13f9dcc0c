import EndpointAtlas.Command.Selection
import Mathlib.Data.List.DropRight

/-!
# The patterns of an endpoint

An endpoint is asked for by its path, or by its method and its path. The text is trimmed and cut at
its last space, so it selects the endpoint unless the path holds a space or ends in a blank.

1. `Glob.accepts_eq_true_iff_of_literal`: a pattern without wildcards matches itself only.
2. `Pattern.path_ofText`, `Pattern.fits_method_ofText`: how a text that names an endpoint is read.
3. `Pattern.fits_ofText_iff`: when the endpoint is selected by such a text.
4. `keptPositions`: the positions that patterns select, with several patterns together.
5. `selects_named`: what becomes of the endpoints of a list.
-/

namespace EndpointAtlas

/-! ## Patterns without wildcards -/

namespace Glob

/-- A character that stands for itself in a pattern. -/
def isLiteral (c : Char) : Bool := c ≠ '*' && c ≠ '?' && c ≠ '['

theorem isLiteral_eq_true_iff {c : Char} : isLiteral c = true ↔ c ≠ '*' ∧ c ≠ '?' ∧ c ≠ '[' := by
  simp [isLiteral, and_assoc]

theorem pieces_of_literal {cs : List Char} (h : ∀ c ∈ cs, isLiteral c = true) :
    ∀ {room : Nat}, cs.length ≤ room → pieces room cs = cs.map .char := by
  induction cs with
  | nil =>
    intro room _
    cases room <;> rfl
  | cons c rest ih =>
    intro room hroom
    obtain ⟨room, rfl⟩ : ∃ r, room = r + 1 := Nat.exists_eq_add_of_le' (by
      simp only [List.length_cons] at hroom
      omega)
    obtain ⟨hstar, hany, hbracket⟩ := isLiteral_eq_true_iff.1 (h c List.mem_cons_self)
    have hrest : pieces room rest = rest.map .char :=
      ih (fun d hd => h d (List.mem_cons_of_mem c hd)) (Nat.le_of_succ_le_succ hroom)
    rw [pieces.eq_6 _ _ _ hstar hany hbracket, hrest, List.map_cons]

theorem matchedEnds_chars_ne_nil (text cs : List Char) :
    matchedEnds text (cs.map .char) ≠ [] := by
  cases cs <;> simp [matchedEnds]

/-- The ends of a text without its first character are those behind the first. -/
theorem exists_matchedEnds_cons (c : Char) (text cs : List Char) :
    ∃ b, matchedEnds (c :: text) (cs.map .char) = b :: matchedEnds text (cs.map .char) := by
  induction cs with
  | nil => exact ⟨false, rfl⟩
  | cons d rest ih =>
    obtain ⟨b, hb⟩ := ih
    obtain ⟨first, more, hmore⟩ :=
      List.exists_cons_of_ne_nil (matchedEnds_chars_ne_nil text rest)
    exact ⟨(Piece.char d).accepts c && first, by simp [matchedEnds, hb, hmore]⟩

theorem headD_matchedEnds_chars (text cs : List Char) :
    (matchedEnds text (cs.map .char)).headD false = true ↔ text = cs := by
  induction cs generalizing text with
  | nil => cases text <;> simp [matchedEnds, List.replicate_succ]
  | cons d rest ih =>
    cases text with
    | nil => simp [matchedEnds]
    | cons c text =>
      obtain ⟨b, hb⟩ := exists_matchedEnds_cons c text rest
      obtain ⟨first, more, hmore⟩ :=
        List.exists_cons_of_ne_nil (matchedEnds_chars_ne_nil text rest)
      have hfirst : first = true ↔ text = rest := by
        rw [← ih text, hmore, List.headD_cons]
      simp [matchedEnds, hb, hmore, Piece.accepts, hfirst]

/-- A pattern without wildcards matches itself only. -/
theorem accepts_eq_true_iff_of_literal {pattern text : String}
    (h : pattern.toList.all isLiteral = true) : accepts pattern text = true ↔ text = pattern := by
  dsimp only [accepts]
  rw [pieces_of_literal (List.all_eq_true.1 h) le_rfl, headD_matchedEnds_chars, String.toList_inj]

end Glob

/-! ## How a text is read -/

namespace Text

theorem upperChar_of_isBlank {c : Char} (h : isBlank c = true) : upperChar c = [c] := by
  have hall : ∀ n ∈ blanks, upperChar (Char.ofNat n) = [Char.ofNat n] := by decide +kernel
  have hmem : c.toNat ∈ blanks := by simpa [isBlank] using h
  simpa [Char.ofNat_toNat] using hall c.toNat hmem

/-- Blanks stay in the upper-case form of a text. -/
theorem isBlank_eq_false_of_upper {s : String} (h : ∀ c ∈ (upper s).toList, isBlank c = false) :
    ∀ c ∈ s.toList, isBlank c = false := by
  intro c hc
  by_contra hblank
  have hself := upperChar_of_isBlank (eq_true_of_ne_false hblank)
  refine hblank (h c ?_)
  rw [upper, String.toList_ofList, List.mem_flatMap]
  exact ⟨c, hc, by rw [hself]; exact List.mem_singleton_self c⟩

/-- In front of a character that stays, only the start is trimmed. -/
theorem trim_append_cons {dropped : Char → Bool} {c : Char} (h : dropped c = false)
    (front rest : List Char) :
    trim dropped (front ++ c :: rest) =
      front.dropWhile dropped ++ (c :: rest).rdropWhile dropped := by
  have hstart : (front ++ c :: rest).dropWhile dropped =
      front.dropWhile dropped ++ c :: rest := by
    rw [List.dropWhile_append]
    split
    · next hempty => simp [List.isEmpty_iff.1 hempty, h]
    · rfl
  have hstays : (c :: rest).reverse.dropWhile dropped ≠ [] := by
    simpa [List.dropWhile_eq_nil_iff] using .inr h
  rw [trim, hstart, List.reverse_append, List.dropWhile_append, if_neg (by simpa using hstays),
    List.reverse_append, List.reverse_reverse, List.rdropWhile]

end Text

/-- A method in upper case, without blanks. -/
def IsMethodName (method : String) : Prop :=
  ∀ c ∈ method.toList, Text.isBlank c = false ∧ Text.upperChar c = [c]

theorem isMethodName_of_letters {method : String}
    (h : method.toList.all (fun c => 'A' ≤ c && c ≤ 'Z') = true) : IsMethodName method := by
  have hall : ∀ n ∈ List.range' 65 26,
      Text.isBlank (Char.ofNat n) = false ∧ Text.upperChar (Char.ofNat n) = [Char.ofNat n] := by
    decide +kernel
  intro c hc
  obtain ⟨hlow, hhigh⟩ : 'A' ≤ c ∧ c ≤ 'Z' := by simpa using List.all_eq_true.1 h c hc
  have hmem : c.toNat ∈ List.range' 65 26 := by
    rw [List.mem_range'_1]
    exact ⟨hlow, Nat.lt_succ_of_le hhigh⟩
  simpa only [Char.ofNat_toNat] using hall c.toNat hmem

theorem IsMethodName.upper {method : String} (h : IsMethodName method) :
    Text.upper method = method := by
  have hself : method.toList.flatMap Text.upperChar = method.toList.flatMap ([·]) :=
    List.flatMap_congr fun c hc => (h c hc).2
  rw [Text.upper, hself, List.flatMap_singleton', String.ofList_toList]

namespace Pattern

section

variable {method path : List Char}

theorem takeWhile_reverse_of_not_mem (h : ' ' ∉ path) :
    path.reverse.takeWhile (· ≠ ' ') = path.reverse := by
  rw [List.takeWhile_eq_self_iff]
  intro c hc
  exact decide_eq_true fun hspace => h (hspace ▸ List.mem_reverse.1 hc)

/-- What holds no space is not cut. -/
theorem splitLast_of_not_mem (h : ' ' ∉ path) : splitLast path = ([], path) := by
  dsimp only [splitLast]
  rw [takeWhile_reverse_of_not_mem h, List.drop_of_length_le (Nat.le_succ _), List.reverse_reverse,
    List.reverse_nil]

theorem splitLast_append (h : ' ' ∉ path) : splitLast (method ++ ' ' :: path) = (method, path) := by
  have hreverse : (method ++ ' ' :: path).reverse = (path.reverse ++ [' ']) ++ method.reverse := by
    simp
  have hlast : (method ++ ' ' :: path).reverse.takeWhile (· ≠ ' ') = path.reverse := by
    rw [hreverse, List.append_assoc, List.takeWhile_append, takeWhile_reverse_of_not_mem h,
      if_pos rfl]
    simp
  have hlength : path.reverse.length + 1 = (path.reverse ++ [' ']).length := by simp
  dsimp only [splitLast]
  rw [hlast, hreverse, List.drop_left' hlength.symm, List.reverse_reverse, List.reverse_reverse]

/-- The part behind the last space does not depend on what stands in front of a space. -/
theorem splitLast_append_snd (method path : List Char) :
    (splitLast (method ++ ' ' :: path)).2 = (splitLast path).2 := by
  dsimp only [splitLast]
  rw [List.reverse_append, List.reverse_cons, List.append_assoc, List.takeWhile_append]
  split
  · next h =>
    rw [List.IsPrefix.eq_of_length (List.takeWhile_prefix _) h]
    simp
  · rfl

end

end Pattern

/-! ## Texts that name an endpoint -/

/-- A path that is read back as it is: it holds no space and ends in no blank. -/
def Unbroken (path : String) : Prop :=
  ' ' ∉ path.toList ∧ path.toList.getLast?.any Text.isBlank = false

namespace Endpoint

/-- The method of an endpoint is in upper case, and its path starts with a slash and holds no
wildcard. -/
structure IsLiteral (e : Endpoint) : Prop where
  method : IsMethodName e.method
  path : e.path.toList.head? = some '/'
  literal : e.path.toList.all Glob.isLiteral = true

/-- A text names an endpoint by its path, or by its method, in any case, and its path. -/
def IsNamedBy (e : Endpoint) (s : String) : Prop :=
  s = e.path ∨ s = e.label ∨ ∃ method, Text.upper method = e.method ∧ s = method ++ " " ++ e.path

variable {e : Endpoint} {s : String}

/-- The text of an endpoint in which the method is in any case. -/
theorem trim_written (he : e.IsLiteral) {method : String} (hmethod : Text.upper method = e.method) :
    Text.trim Text.isBlank (method ++ " " ++ e.path).toList =
        e.path.toList.rdropWhile Text.isBlank ∨
      Text.trim Text.isBlank (method ++ " " ++ e.path).toList =
        method.toList ++ ' ' :: e.path.toList.rdropWhile Text.isBlank := by
  have hblank : ∀ c ∈ method.toList, Text.isBlank c = false :=
    Text.isBlank_eq_false_of_upper fun c hc => (he.method c (hmethod ▸ hc)).1
  obtain ⟨rest, hpath⟩ := List.head?_eq_some_iff.1 he.path
  have hfront : (method ++ " " ++ e.path).toList = (method.toList ++ [' ']) ++ '/' :: rest := by
    simp [hpath]
  rw [hfront, Text.trim_append_cons (by decide), ← hpath]
  cases hlist : method.toList with
  | nil => exact .inl rfl
  | cons c cs =>
    have hc : Text.isBlank c = false := hblank c (hlist ▸ List.mem_cons_self)
    right
    simp [hc]

/-- A text that names an endpoint, with its ends trimmed. -/
theorem trim_of_isNamedBy (he : e.IsLiteral) (hs : e.IsNamedBy s) :
    Text.trim Text.isBlank s.toList = e.path.toList.rdropWhile Text.isBlank ∨
      ∃ method, Text.upper method = e.method ∧ Text.trim Text.isBlank s.toList =
        method.toList ++ ' ' :: e.path.toList.rdropWhile Text.isBlank := by
  rcases hs with rfl | rfl | ⟨method, hmethod, rfl⟩
  · obtain ⟨rest, hpath⟩ := List.head?_eq_some_iff.1 he.path
    have hslash : Text.isBlank '/' = false := by decide
    left
    rw [hpath]
    exact Text.trim_append_cons hslash [] rest
  · exact (trim_written he he.method.upper).imp_right fun h => ⟨_, he.method.upper, h⟩
  · exact (trim_written he hmethod).imp_right fun h => ⟨_, hmethod, h⟩

end Endpoint

namespace Pattern

variable {e : Endpoint} {s : String}

/-- What a pattern keeps of a path: the part behind the last space, without the blanks at the
end. -/
theorem path_ofText (he : e.IsLiteral) (hs : e.IsNamedBy s) : (ofText s).path =
    String.ofList ((e.path.toList.rdropWhile Text.isBlank).rtakeWhile (· ≠ ' ')) := by
  dsimp only [ofText]
  rcases e.trim_of_isNamedBy he hs with h | ⟨method, -, h⟩
  · rw [h]
    rfl
  · rw [h, splitLast_append_snd]
    rfl

theorem rtakeWhile_ne_space_eq_self_iff {cs : List Char} :
    cs.rtakeWhile (· ≠ ' ') = cs ↔ ' ' ∉ cs := by
  rw [List.rtakeWhile_eq_self_iff]
  constructor
  · intro h hmem
    exact of_decide_eq_true (h ' ' hmem) rfl
  · intro h c hc
    exact decide_eq_true fun hspace => h (hspace ▸ hc)

theorem rdropWhile_isBlank_eq_self_iff {cs : List Char} :
    cs.rdropWhile Text.isBlank = cs ↔ cs.getLast?.any Text.isBlank = false := by
  rw [List.rdropWhile_eq_self_iff, Option.any_eq_false]
  constructor
  · intro h c hc
    obtain ⟨hne, rfl⟩ := List.mem_getLast?_eq_getLast hc
    exact eq_false_of_ne_true (h hne)
  · intro h hne
    exact ne_true_of_eq_false (h _ (List.getLast_mem_getLast? hne))

/-- What is kept of a path is the path exactly if it is unbroken. -/
theorem kept_eq_iff {path : String} :
    String.ofList ((path.toList.rdropWhile Text.isBlank).rtakeWhile (· ≠ ' ')) = path ↔
      Unbroken path := by
  rw [← String.toList_inj, String.toList_ofList]
  constructor
  · intro h
    -- Both cuts can only shorten, so neither of them does.
    have htrimmed : path.toList.rdropWhile Text.isBlank = path.toList := by
      refine (List.rdropWhile_prefix Text.isBlank path.toList).eq_of_length_le ?_
      calc path.toList.length
          = ((path.toList.rdropWhile Text.isBlank).rtakeWhile (· ≠ ' ')).length := by rw [h]
        _ ≤ (path.toList.rdropWhile Text.isBlank).length :=
          (List.rtakeWhile_suffix (· ≠ ' ') _).length_le
    rw [htrimmed] at h
    exact ⟨rtakeWhile_ne_space_eq_self_iff.1 h, rdropWhile_isBlank_eq_self_iff.1 htrimmed⟩
  · rintro ⟨hspace, hlast⟩
    rw [rdropWhile_isBlank_eq_self_iff.2 hlast, rtakeWhile_ne_space_eq_self_iff.2 hspace]

/-- The method of a pattern for an unbroken path is that of the endpoint, or none. -/
theorem method_ofText (he : e.IsLiteral) (hs : e.IsNamedBy s) (h : Unbroken e.path) :
    (ofText s).method = "" ∨ (ofText s).method = e.method := by
  dsimp only [ofText]
  rcases e.trim_of_isNamedBy he hs with htrim | ⟨method, hmethod, htrim⟩
  · left
    rw [htrim, rdropWhile_isBlank_eq_self_iff.2 h.2, splitLast_of_not_mem h.1]
    rfl
  · right
    rw [htrim, rdropWhile_isBlank_eq_self_iff.2 h.2, splitLast_append h.1, String.ofList_toList,
      hmethod]

theorem all_isLiteral_path_ofText (he : e.IsLiteral) (hs : e.IsNamedBy s) :
    (ofText s).path.toList.all Glob.isLiteral = true := by
  rw [path_ofText he hs, String.toList_ofList, List.all_eq_true]
  intro c hc
  exact List.all_eq_true.1 he.literal c ((List.rdropWhile_prefix Text.isBlank _).subset
    ((List.rtakeWhile_suffix (· ≠ ' ') _).subset hc))

/-- A text that names an endpoint fits it exactly if the path can be read back. -/
theorem fits_ofText_iff (he : e.IsLiteral) (hs : e.IsNamedBy s) :
    (ofText s).fits e.method e.path = true ↔ Unbroken e.path := by
  have haccepts : Glob.accepts (ofText s).path e.path = true ↔ Unbroken e.path := by
    rw [Glob.accepts_eq_true_iff_of_literal (all_isLiteral_path_ofText he hs), eq_comm,
      path_ofText he hs, kept_eq_iff]
  rw [fits, Bool.and_eq_true, haccepts]
  refine and_iff_right_of_imp fun h => ?_
  simpa using method_ofText he hs h

end Pattern

/-! ## Positions -/

/-- The positions of the endpoints that patterns select. -/
def keptPositions (patterns : List String) (endpoints : List Endpoint) : List Nat :=
  endpoints.findIdxs fun e => isSelected patterns e.method e.path

section

variable {patterns more : List String} {endpoints : List Endpoint} {e : Endpoint} {i : Nat}

theorem mem_keptPositions_iff : i ∈ keptPositions patterns endpoints ↔
    ∃ e, endpoints[i]? = some e ∧ isSelected patterns e.method e.path = true := by
  rw [keptPositions, List.mem_findIdxs_iff_exists_getElem_pos]
  constructor
  · rintro ⟨hi, h⟩
    exact ⟨endpoints[i], List.getElem?_eq_getElem hi, h⟩
  · rintro ⟨e, hi, h⟩
    obtain ⟨hlt, rfl⟩ := List.getElem?_eq_some_iff.1 hi
    exact ⟨hlt, h⟩

theorem mem_keptPositions_of_getElem? (hi : endpoints[i]? = some e) :
    i ∈ keptPositions patterns endpoints ↔ isSelected patterns e.method e.path = true := by
  rw [mem_keptPositions_iff, hi]
  simp

theorem isSelected_eq_any (hne : patterns ≠ []) (method path : String) :
    isSelected patterns method path =
      patterns.any fun s => (Pattern.ofText s).fits method path := by
  rw [isSelected, List.isEmpty_eq_false_iff.2 hne, Bool.false_or]

/-- A pattern that fits selects, whatever other patterns there are. -/
theorem isSelected_of_mem {s method path : String} (hs : s ∈ patterns)
    (h : (Pattern.ofText s).fits method path = true) : isSelected patterns method path = true := by
  rw [isSelected_eq_any (List.ne_nil_of_mem hs), List.any_eq_true]
  exact ⟨s, hs, h⟩

theorem isSelected_singleton (s method path : String) :
    isSelected [s] method path = (Pattern.ofText s).fits method path := by
  simp [isSelected_eq_any]

/-- Two lists of patterns together select what one of them selects. -/
theorem mem_keptPositions_append_iff (hne : patterns ≠ []) (hne' : more ≠ []) :
    i ∈ keptPositions (patterns ++ more) endpoints ↔
      i ∈ keptPositions patterns endpoints ∨ i ∈ keptPositions more endpoints := by
  simp only [mem_keptPositions_iff, isSelected_eq_any hne, isSelected_eq_any hne',
    isSelected_eq_any (List.append_ne_nil_of_left_ne_nil hne more), List.any_append,
    Bool.or_eq_true, and_or_left, exists_or]

theorem pairwise_keptPositions (patterns : List String) (endpoints : List Endpoint) :
    (keptPositions patterns endpoints).Pairwise (· < ·) := List.pairwise_findIdxs

/-- What is selected stands at the positions that are kept, in order. -/
theorem map_getElem?_keptPositions (patterns : List String) (endpoints : List Endpoint) :
    (keptPositions patterns endpoints).map (endpoints[·]?) =
      (selectEndpoints patterns endpoints).map some := by
  unfold keptPositions selectEndpoints
  induction endpoints with
  | nil => rfl
  | cons e rest ih =>
    have hlater : ((rest.findIdxs fun e => isSelected patterns e.method e.path).map (· + 1)).map
        ((e :: rest)[·]?) =
          (rest.filter fun e => isSelected patterns e.method e.path).map some := by
      rw [← ih, List.map_map]
      rfl
    rw [List.findIdxs_cons, Nat.zero_add, List.findIdxs_start, List.filter_cons]
    split
    · rw [List.map_cons, hlater]
      rfl
    · exact hlater

end

/-! ## What becomes of the endpoints of a list -/

/-- **The patterns of an endpoint.** A text that names an endpoint selects it exactly if its path
holds no space and ends in no blank, and then whatever other patterns there are. Two lists of
patterns together select, in order and only once, what one of them selects. -/
theorem selects_named (endpoints : List Endpoint) :
    (∀ i e, endpoints[i]? = some e → e.IsLiteral → ∀ s, e.IsNamedBy s →
      (i ∈ keptPositions [s] endpoints ↔ Unbroken e.path) ∧
        (Unbroken e.path → ∀ patterns, s ∈ patterns → i ∈ keptPositions patterns endpoints)) ∧
    (∀ patterns more, patterns ≠ [] → more ≠ [] →
      (keptPositions (patterns ++ more) endpoints).Pairwise (· < ·) ∧
        ∀ i, i ∈ keptPositions (patterns ++ more) endpoints ↔
          i ∈ keptPositions patterns endpoints ∨ i ∈ keptPositions more endpoints) ∧
    ∀ patterns, (keptPositions patterns endpoints).map (endpoints[·]?) =
      (selectEndpoints patterns endpoints).map some := by
  refine ⟨fun i e hi he s hs => ⟨?_, fun hunbroken patterns hmem => ?_⟩,
    fun patterns more hne hne' => ⟨pairwise_keptPositions _ _, fun i => ?_⟩,
    fun patterns => map_getElem?_keptPositions patterns endpoints⟩
  · rw [mem_keptPositions_of_getElem? hi, isSelected_singleton, Pattern.fits_ofText_iff he hs]
  · rw [mem_keptPositions_of_getElem? hi]
    exact isSelected_of_mem hmem ((Pattern.fits_ofText_iff he hs).2 hunbroken)
  · exact mem_keptPositions_append_iff hne hne'

/-- An endpoint without anything but a method and a path. -/
def bareEndpoint (method path : String) : Endpoint :=
  ⟨"", "", "", method, path, [], none, [], false, [], []⟩

theorem selects_named_pets :
    0 ∈ keptPositions ["get /pets/{id}", "/users"] [bareEndpoint "GET" "/pets/{id}"] := by
  have hpath : Unbroken "/pets/{id}" := ⟨by decide, by decide⟩
  have hliteral : (bareEndpoint "GET" "/pets/{id}").IsLiteral :=
    ⟨isMethodName_of_letters (by decide), by decide, by decide⟩
  have hnamed : (bareEndpoint "GET" "/pets/{id}").IsNamedBy "get /pets/{id}" :=
    .inr (.inr ⟨"get", by decide, by decide⟩)
  exact ((selects_named _).1 0 _ rfl hliteral _ hnamed).2 hpath _ (by decide)

/-- An endpoint with a space in its path is selected neither by its method and its path nor by its
path. -/
theorem not_selected_of_space :
    (bareEndpoint "GET" "/a b").IsLiteral ∧
      selectEndpoints [(bareEndpoint "GET" "/a b").label] [bareEndpoint "GET" "/a b"] = [] ∧
      selectEndpoints [(bareEndpoint "GET" "/a b").path] [bareEndpoint "GET" "/a b"] = [] := by
  have hliteral : (bareEndpoint "GET" "/a b").IsLiteral :=
    ⟨isMethodName_of_letters (by decide), by decide, by decide⟩
  exact ⟨hliteral, by decide +kernel, by decide +kernel⟩

end EndpointAtlas
