import EndpointAtlas.Proofs.Json.Numbers
import EndpointAtlas.Proofs.Text.Encoding
import EndpointAtlas.Proofs.Yaml.Building

/-!
# One text in a file and at an address

A file is read as YAML and a page as JSON. Both give the members that a JSON text writes, but in a
file a number is a text if its exponent has no sign, or no fraction in front of it
(`outcome_load_text`). So a text can give two documents (`outcome_load_exponent`).
-/

namespace EndpointAtlas

namespace Json

/-! ## Texts of mappings -/

/-- Whether a value is a mapping. -/
def Spelling.isMap : Spelling → Bool
  | .emptyMap _ => true
  | .map _ _ => true
  | _ => false

/-- A JSON text with a mapping. -/
structure ObjectText where
  before : Blanks
  content : Spelling
  behind : Blanks
  isMap : content.isMap = true

namespace ObjectText

/-- A text as it is written. -/
def chars (t : ObjectText) : List Char := t.before.chars ++ t.content.chars ++ t.behind.chars

/-- Whether YAML takes a text apart in the same way. -/
def isShared (t : ObjectText) : Bool :=
  t.before.isShared && t.content.isShared && t.behind.isShared

/-- The members, given the values of numbers. -/
def membersWith (number : Numeral → Value) (t : ObjectText) : Members :=
  match t.content with
  | .map _ pairs => Members.ofList (pairs.membersWith number)
  | _ => []

/-- The members that are written. -/
def members (t : ObjectText) : Members := t.membersWith Numeral.value

/-- The members in YAML. -/
def yamlMembers (t : ObjectText) : Members := t.membersWith Numeral.yamlValue

variable (t : ObjectText)

theorem valueWith_content (number : Numeral → Value) :
    t.content.valueWith number = .map (t.membersWith number) := by
  have hmap := t.isMap
  unfold membersWith
  cases hcontent : t.content <;> rw [hcontent] at hmap <;> first | rfl | cases hmap

theorem isCollection_content : t.content.isCollection = true := by
  have hmap := t.isMap
  cases hcontent : t.content <;> rw [hcontent] at hmap <;> first | rfl | cases hmap

/-- A brace, blanks, and another mark of ASCII are the start of a mapping. -/
theorem exists_chars_content : ∃ (gap : Blanks) (mark : Char) (rest : List Char),
    t.content.chars = '{' :: (gap.chars ++ mark :: rest) ∧ Text.isAscii mark = true := by
  have hmap := t.isMap
  cases hcontent : t.content with
  | emptyMap gap => exact ⟨gap, '}', [], rfl, rfl⟩
  | map before pairs =>
    obtain ⟨rest, hrest⟩ := pairs.exists_textWith id
    exact ⟨before, '"', rest, by rw [Spelling.chars, Spelling.textWith, hrest]; rfl, rfl⟩
  | _ => rw [hcontent] at hmap; cases hmap

theorem isAscii_of_isBlank {c : Char} (h : isBlank c = true) : Text.isAscii c = true := by
  simp only [isBlank, Bool.or_eq_true, decide_eq_true_eq] at h
  rcases h with ((rfl | rfl) | rfl) | rfl <;> rfl

theorem yamlMembers_eq_members_iff :
    t.yamlMembers = t.members ↔ t.content.yamlValue = t.content.value := by
  rw [Spelling.yamlValue, Spelling.value, valueWith_content, valueWith_content]
  exact ⟨congrArg Value.map, Value.map.inj⟩

/-- What is read in a page. -/
theorem read?_chars (h : t.isShared = true) : read? t.chars = some (.map t.members) := by
  rw [isShared, Bool.and_eq_true, Bool.and_eq_true] at h
  rw [chars, read?_text t.before t.behind t.content h.1.2, Spelling.value, valueWith_content]
  rfl

/-- What is read in a file. -/
theorem read_chars (h : t.isShared = true) :
    Yaml.read (Document.plainLines t.chars) = .ok (.map t.yamlMembers) := by
  rw [isShared, Bool.and_eq_true, Bool.and_eq_true] at h
  rw [chars, Yaml.read_text t.before t.behind t.content h.1.1 h.1.2 h.2 t.isCollection_content,
    Spelling.yamlValue, valueWith_content]
  rfl

/-- A text is read back from its bytes. -/
theorem ofBytes_encode_chars : Text.ofBytes (Text.encode t.chars) = some t.chars := by
  obtain ⟨gap, mark, rest, hcontent, hmark⟩ := t.exists_chars_content
  have hchars : t.chars =
      (t.before.chars ++ '{' :: (gap.chars ++ [mark])) ++ (rest ++ t.behind.chars) := by
    rw [chars, hcontent]
    simp only [List.append_assoc, List.cons_append, List.nil_append]
  have hblank : ∀ b : Blanks, ∀ c ∈ b.chars, Text.isAscii c = true :=
    fun b c hc => isAscii_of_isBlank (b.isBlank c hc)
  rw [hchars]
  refine Text.ofBytes_encode_append ?_ ?_
  · refine List.forall_mem_append.2 ⟨hblank t.before, List.forall_mem_cons.2 ⟨rfl, ?_⟩⟩
    exact List.forall_mem_append.2 ⟨hblank gap, List.forall_mem_singleton.2 hmark⟩
  · simp only [List.length_append, List.length_cons]
    omega

end ObjectText

/-! ## Parts of texts -/

/-- No blanks. -/
def Blanks.none : Blanks := ⟨[], List.forall_mem_nil _⟩

/-- One blank. -/
def Blanks.single (c : Char) (h : Json.isBlank c = true) : Blanks :=
  ⟨[c], List.forall_mem_singleton.2 h⟩

/-- One digit. -/
def Digits.single (d : Char) (h : d.isDigit = true) : Digits :=
  ⟨[d], List.cons_ne_nil d [], List.forall_mem_singleton.2 h⟩

end Json

namespace Document

/-! ## Loading -/

/-- A text is in a file, and at an address. -/
structure Serves (s : Surroundings) (file url : String) (text : List Char) : Prop where
  isFile : isUrl file = false
  isUsable : (FilePath.ofText file).isUsable = true
  read_eq : s.read (FilePath.ofText file) = .ok (Text.encode text)
  isUrl : isUrl url = true
  isAddress : (Address.ofText? url.toList).isSome = true
  fetch_eq : s.fetch url = .page 200 (Text.encode text)

variable {s : Surroundings} {file url : String}

/-- A mapping in YAML is loaded from a file. -/
theorem Serves.outcome_load_file {text : List Char} {members : Members}
    (h : Serves s file url text) (hread : Yaml.read (plainLines text) = .ok (.map members)) :
    (load s file).outcome = .ok members := by
  have hfile : ofFile s (FilePath.ofText file) = .ok (.map members) := by
    rw [ofFile, if_pos h.isUsable, h.read_eq]
    change ofContent (FilePath.ofText file) (Text.encode text) = _
    rw [ofContent, Text.decode_encode]
    dsimp only
    rw [hread]
  rw [load, Logged.outcome_bind, ofSource, h.isFile, if_neg Bool.false_ne_true, hfile,
    Logged.outcome_ofExcept]
  rfl

/-- A mapping in JSON is loaded from an address. -/
theorem Serves.outcome_load_url {text : List Char} {members : Members}
    (h : Serves s file url text) (hbytes : Text.ofBytes (Text.encode text) = some text)
    (hread : Json.read? text = some (.map members)) : (load s url).outcome = .ok members := by
  have hreply : (s.fetch url).document url = .ok (.map members) := by
    obtain ⟨address, haddress⟩ := Option.isSome_iff_exists.1 h.isAddress
    have hjson : Page.json? (Text.encode text) = some (.map members) := by
      rw [Page.json?, hbytes]
      exact hread
    rw [h.fetch_eq, Reply.document, haddress, hjson]
    rfl
  rw [load, Logged.outcome_bind, ofSource, h.isUrl, if_pos rfl, Logged.outcome_bind, hreply]
  rfl

/-- **What a JSON text is as a document**: its members, but in a file a number is a text if its
exponent has no sign, or no fraction in front of it. The two documents are the same if there is no
such number, and only then if no key is written twice. -/
theorem outcome_load_text (t : Json.ObjectText) (hshared : t.isShared = true)
    (h : Serves s file url t.chars) :
    (load s url).outcome = .ok t.members ∧
    (load s file).outcome = .ok t.yamlMembers ∧
    ((∀ n ∈ t.content.numerals, n.hasPlainExponent = true) →
      (load s file).outcome = (load s url).outcome) ∧
    (t.content.HasUniqueKeys → (load s file).outcome = (load s url).outcome →
      ∀ n ∈ t.content.numerals, n.hasPlainExponent = true) := by
  rw [h.outcome_load_url t.ofBytes_encode_chars (t.read?_chars hshared),
    h.outcome_load_file (t.read_chars hshared)]
  refine ⟨rfl, rfl, fun hplain => ?_, fun hkeys heq => ?_⟩
  · exact congrArg Except.ok (t.yamlMembers_eq_members_iff.2 (t.content.yamlValue_eq_value hplain))
  · have hvalue := t.yamlMembers_eq_members_iff.1 (Except.ok.inj heq)
    exact (t.content.yamlValue_eq_value_iff hkeys).1 hvalue

/-! ## Two texts -/

/-- Surroundings in which a text is in every file and at every address. -/
def serving (text : List Char) : Surroundings :=
  ⟨fun _ => .ok (Text.encode text), fun _ => none, fun _ => .page 200 (Text.encode text)⟩

theorem serves_serving (text : List Char) :
    Serves (serving text) "doc.json" "http://h.test/doc" text :=
  ⟨by decide, by decide, rfl, by decide, by decide, rfl⟩

/-- A member with an exponent that has a sign and a fraction in front of it, behind one with an
escape. -/
def quarter : Json.ObjectText where
  before := .single '\n' rfl
  content := .map .none
    (.more ⟨[.number ['0', '0', 'e', '9'] [0, 0, 14, 9] rfl rfl], .single ' ' rfl⟩
      (.single '\r' rfl) (.list .none (.last (.word .null) .none)) .none (.single ' ' rfl)
      (.last ⟨[.raw 'x' (by decide)], .none⟩ .none
        (.number ⟨true, .single '2' rfl, some (.single '5' rfl),
          some ⟨'E', .minus, .single '1' rfl, .inr rfl⟩, fun h => nomatch h⟩)
        .none))
  behind := .none
  isMap := rfl

theorem outcome_load_quarter :
    quarter.chars = "\n\x7b\"\\u00e9\" :\r[null], \"x\":-2.5E-1\x7d".toList ∧
    quarter.isShared = true ∧ quarter.content.HasUniqueKeys ∧
    Serves (serving quarter.chars) "doc.json" "http://h.test/doc" quarter.chars ∧
    (load (serving quarter.chars) "http://h.test/doc").outcome =
      .ok [(.str "é", .list [.null]), (.str "x", .float (.ofDecimal true 25 (-2)))] ∧
    (load (serving quarter.chars) "doc.json").outcome =
      (load (serving quarter.chars) "http://h.test/doc").outcome := by
  have hserves := serves_serving quarter.chars
  have hkeys : quarter.content.HasUniqueKeys := ⟨by decide, trivial, trivial⟩
  have hmembers : quarter.members =
      [(.str "é", .list [.null]), (.str "x", .float (.ofDecimal true 25 (-2)))] := by rfl
  obtain ⟨hurl, -, hplain, -⟩ := outcome_load_text quarter (by decide) hserves
  have hequal := hplain (List.forall_mem_singleton.2 rfl)
  rw [hmembers] at hurl
  exact ⟨by decide, by decide, hkeys, hserves, hurl, hequal⟩

/-- A member with an exponent that has no sign and no fraction in front of it. -/
def thousand : Json.ObjectText where
  before := .none
  content := .map .none
    (.last ⟨[.raw 'a' (by decide)], .none⟩ (.single ' ' rfl)
      (.number ⟨false, .single '1' rfl, none, some (.small .none (.single '3' rfl)),
        fun h => nomatch h⟩)
      .none)
  behind := .none
  isMap := rfl

theorem outcome_load_exponent :
    thousand.chars = "\x7b\"a\": 1e3\x7d".toList ∧
    Serves (serving thousand.chars) "doc.json" "http://h.test/doc" thousand.chars ∧
    Json.read? thousand.chars = some (.map [(.str "a", .float (.ofInt 1000))]) ∧
    (load (serving thousand.chars) "doc.json").outcome = .ok [(.str "a", .str "1e3")] ∧
    (load (serving thousand.chars) "http://h.test/doc").outcome =
      .ok [(.str "a", .float (.ofInt 1000))] := by
  have hserves := serves_serving thousand.chars
  have hmembers : thousand.members = [(.str "a", .float (.ofInt 1000))] := by rfl
  have hread : Json.read? thousand.chars = some (.map thousand.members) :=
    thousand.read?_chars (by decide)
  have hfile := hserves.outcome_load_file (thousand.read_chars (by decide))
  have hurl := hserves.outcome_load_url thousand.ofBytes_encode_chars hread
  rw [hmembers] at hread hurl
  exact ⟨by decide, hserves, hread, hfile, hurl⟩

end Document

end EndpointAtlas
