import EndpointAtlas.Proofs.Yaml.Scanning
import EndpointAtlas.Yaml.Document

/-!
# Values of JSON texts

The tokens of a spelling make a node (`ofTokens_tokens`), and that node has the value that is
spelled, up to the numbers that YAML takes for texts (`valueAt_node`). Together with the scanner
this gives `Yaml.read_text`: what YAML reads in a text with a collection.
-/

namespace EndpointAtlas

open Yaml (Token Tag Node)

/-! ## Nodes of spellings -/

namespace Json

mutual

/-- The node of a value. -/
def Spelling.node : Spelling → Node
  | .word w => .scalar (.ofPlain w.text) w.text
  | .number n => .scalar (.ofPlain n.text) n.text
  | .text pieces => .scalar .str (contentOf pieces)
  | .emptyList _ => .sequence .seq []
  | .list _ items => .sequence .seq items.nodes
  | .emptyMap _ => .mapping .map []
  | .map _ pairs => .mapping .map pairs.nodes

/-- The nodes of items. -/
def Items.nodes : Items → List Node
  | .last item _ => [item.node]
  | .more item _ _ rest => item.node :: rest.nodes

/-- The nodes of members. -/
def Pairs.nodes : Pairs → List (Node × Node)
  | .last key _ item _ => [(.scalar .str (contentOf key.pieces), item.node)]
  | .more key _ item _ _ rest => (.scalar .str (contentOf key.pieces), item.node) :: rest.nodes

end

end Json

namespace Yaml.Node

open Json (Spelling Items Pairs)

/-! ## Building -/

/-- The tokens that flow nodes start with. -/
def startsNode : Token → Bool
  | .scalar _ _ => true
  | .sequenceStart => true
  | .mappingStart => true
  | _ => false

section

variable {room : Nat} {place : Place} {e : Option Error} {hs : Handles}
  {as : List (List Char × Node)} {ts : List Token} {t last : Token} {i i' i'' : Input}
  {node key : Node} {nodes : List Node} {pairs : List (Node × Node)}

theorem build_scalar (plain : Bool) (text : List Char) :
    build (room + 1) place ⟨.scalar plain text :: ts, e, hs, as⟩ =
      .ok (.scalar (if plain then .ofPlain text else .str) text, ⟨ts, e, hs, as⟩) := rfl

theorem build_sequence (h : flowItems room true ⟨ts, e, hs, as⟩ = .ok (nodes, i)) :
    build (room + 1) place ⟨.sequenceStart :: ts, e, hs, as⟩ = .ok (.sequence .seq nodes, i) := by
  change (flowItems room true ⟨ts, e, hs, as⟩ >>= fun (nodes, i) =>
    Except.ok (Node.sequence .seq nodes, i)) = _
  rw [h]
  rfl

theorem build_mapping (h : flowPairs room true ⟨ts, e, hs, as⟩ = .ok (pairs, i)) :
    build (room + 1) place ⟨.mappingStart :: ts, e, hs, as⟩ = .ok (.mapping .map pairs, i) := by
  change (flowPairs room true ⟨ts, e, hs, as⟩ >>= fun (pairs, i) =>
    Except.ok (Node.mapping .map pairs, i)) = _
  rw [h]
  rfl

theorem flowItems_end {first : Bool} :
    flowItems (room + 1) first ⟨.sequenceEnd :: ts, e, hs, as⟩ = .ok ([], ⟨ts, e, hs, as⟩) := rfl

theorem flowItems_first (ht : startsNode t = true)
    (hnode : build room .flow ⟨t :: ts, e, hs, as⟩ = .ok (node, i))
    (hrest : flowItems room false i = .ok (nodes, i')) :
    flowItems (room + 1) true ⟨t :: ts, e, hs, as⟩ = .ok (node :: nodes, i') := by
  cases t <;> cases ht
  all_goals
    change (build room .flow _ >>= fun (node, i) =>
      flowItems room false i >>= fun (nodes, i) => Except.ok (node :: nodes, i)) = _
    rw [hnode]
    change (flowItems room false i >>= fun (nodes, i) => Except.ok (node :: nodes, i)) = _
    rw [hrest]
    rfl

/-- Behind a comma a list goes on as it starts. -/
theorem flowItems_comma (ht : startsNode t = true) :
    flowItems (room + 1) false ⟨.flowEntry :: t :: ts, e, hs, as⟩ =
      flowItems (room + 1) true ⟨t :: ts, e, hs, as⟩ := by
  cases t <;> cases ht <;> rfl

theorem flowKey_node (ht : startsNode t = true) (hlast : startsNode last = false)
    (hnode : build room .flow ⟨t :: ts, e, hs, as⟩ = .ok (node, i)) :
    flowKey (room + 1) last ⟨t :: ts, e, hs, as⟩ = .ok (node, i) := by
  have hne : ¬ (some t = some .value ∨ some t = some .flowEntry ∨ some t = some last) := by
    rintro (h | h | h) <;> cases h
    · cases ht
    · cases ht
    · rw [ht] at hlast
      cases hlast
  change (if some t = some .value ∨ some t = some .flowEntry ∨ some t = some last then
    pure empty else build room .flow) _ = _
  rw [if_neg hne]
  exact hnode

theorem flowValue_node (ht : startsNode t = true) (hlast : startsNode last = false)
    (hnode : build room .flow ⟨t :: ts, e, hs, as⟩ = .ok (node, i)) :
    flowValue (room + 1) last ⟨.value :: t :: ts, e, hs, as⟩ = .ok (node, i) := by
  have hne : ¬ (some t = some .flowEntry ∨ some t = some last) := by
    rintro (h | h) <;> cases h
    · cases ht
    · rw [ht] at hlast
      cases hlast
  change (if some t = some .flowEntry ∨ some t = some last then
    pure empty else build room .flow) ⟨t :: ts, e, hs, as⟩ = _
  rw [if_neg hne]
  exact hnode

theorem flowPairs_end {first : Bool} :
    flowPairs (room + 1) first ⟨.mappingEnd :: ts, e, hs, as⟩ = .ok ([], ⟨ts, e, hs, as⟩) := rfl

theorem flowPairs_first (hkey : flowKey room .mappingEnd ⟨ts, e, hs, as⟩ = .ok (key, i))
    (hvalue : flowValue room .mappingEnd i = .ok (node, i'))
    (hrest : flowPairs room false i' = .ok (pairs, i'')) :
    flowPairs (room + 1) true ⟨.key :: ts, e, hs, as⟩ = .ok ((key, node) :: pairs, i'') := by
  change (flowKey room .mappingEnd ⟨ts, e, hs, as⟩ >>= fun (key, i) =>
    flowValue room .mappingEnd i >>= fun (node, i) =>
      flowPairs room false i >>= fun (pairs, i) => Except.ok ((key, node) :: pairs, i)) = _
  rw [hkey]
  change (flowValue room .mappingEnd i >>= fun (node, i) =>
    flowPairs room false i >>= fun (pairs, i) => Except.ok ((key, node) :: pairs, i)) = _
  rw [hvalue]
  change (flowPairs room false i' >>= fun (pairs, i) => Except.ok ((key, node) :: pairs, i)) = _
  rw [hrest]
  rfl

/-- Behind a comma a mapping goes on as it starts. -/
theorem flowPairs_comma :
    flowPairs (room + 1) false ⟨.flowEntry :: .key :: ts, e, hs, as⟩ =
      flowPairs (room + 1) true ⟨.key :: ts, e, hs, as⟩ := rfl

end

theorem exists_cons_tokens (v : Spelling) :
    ∃ t ts, v.tokens = t :: ts ∧ startsNode t = true := by
  cases v <;> exact ⟨_, _, rfl, rfl⟩

theorem length_tokens_pos (v : Spelling) : 0 < v.tokens.length := by
  obtain ⟨t, ts, htokens, -⟩ := exists_cons_tokens v
  rw [htokens, List.length_cons]
  exact Nat.succ_pos _

theorem exists_cons_itemTokens (items : Items) :
    ∃ t ts, items.tokens = t :: ts ∧ startsNode t = true := by
  cases items with
  | last item _ => exact exists_cons_tokens item
  | more item _ _ rest =>
    obtain ⟨t, ts, htokens, ht⟩ := exists_cons_tokens item
    exact ⟨t, ts ++ .flowEntry :: rest.tokens, by rw [Items.tokens, htokens]; rfl, ht⟩

theorem exists_cons_pairTokens (pairs : Pairs) : ∃ ts, pairs.tokens = .key :: ts := by
  cases pairs <;> exact ⟨_, rfl⟩

section

variable {e : Option Error} {hs : Handles} {as : List (List Char × Node)}

/-- A member is built from its mark, its key, and its value. -/
theorem flowPairs_member {room : Nat} {content : List Char} {item : Spelling} {rest : List Token}
    {pairs : List (Node × Node)} {i : Input}
    (hitem : build room .flow ⟨item.tokens ++ rest, e, hs, as⟩ =
      .ok (item.node, ⟨rest, e, hs, as⟩))
    (hroom : 0 < room) (hrest : flowPairs (room + 1) false ⟨rest, e, hs, as⟩ = .ok (pairs, i)) :
    flowPairs (room + 2) true
      ⟨.key :: .scalar false content :: .value :: (item.tokens ++ rest), e, hs, as⟩ =
      .ok ((.scalar .str content, item.node) :: pairs, i) := by
  obtain ⟨left, rfl⟩ : ∃ left, room = left + 1 := ⟨room - 1, by omega⟩
  obtain ⟨t, ts, htokens, ht⟩ := exists_cons_tokens item
  rw [htokens, List.cons_append] at hitem ⊢
  exact flowPairs_first (flowKey_node rfl rfl (build_scalar false content))
    (flowValue_node ht rfl hitem) hrest

/-- An item is built, and then what stands behind it. -/
theorem flowItems_item {room : Nat} {item : Spelling} {rest : List Token} {nodes : List Node}
    {i : Input} (hitem : build room .flow ⟨item.tokens ++ rest, e, hs, as⟩ =
      .ok (item.node, ⟨rest, e, hs, as⟩))
    (hrest : flowItems room false ⟨rest, e, hs, as⟩ = .ok (nodes, i)) :
    flowItems (room + 1) true ⟨item.tokens ++ rest, e, hs, as⟩ = .ok (item.node :: nodes, i) := by
  obtain ⟨t, ts, htokens, ht⟩ := exists_cons_tokens item
  rw [htokens, List.cons_append] at hitem ⊢
  exact flowItems_first ht hitem hrest

mutual

theorem build_tokens : ∀ (v : Spelling) (room : Nat) (place : Place) (rest : List Token),
    2 * v.tokens.length ≤ room →
    build room place ⟨v.tokens ++ rest, e, hs, as⟩ = .ok (v.node, ⟨rest, e, hs, as⟩)
  | .word w, room + 1, place, rest, _ => build_scalar true w.text
  | .number n, room + 1, place, rest, _ => build_scalar true n.text
  | .text pieces, room + 1, place, rest, _ => build_scalar false (Json.contentOf pieces)
  | .emptyList _, room + 2, place, rest, _ => build_sequence flowItems_end
  | .list _ items, room + 1, place, rest, hroom => by
    simp only [Spelling.tokens, List.length_cons, List.length_append, List.length_nil] at hroom
    have hitems := flowItems_tokens items room rest (by omega)
    rw [Spelling.tokens, List.cons_append, List.append_assoc]
    exact build_sequence hitems
  | .emptyMap _, room + 2, place, rest, _ => build_mapping flowPairs_end
  | .map _ pairs, room + 1, place, rest, hroom => by
    simp only [Spelling.tokens, List.length_cons, List.length_append, List.length_nil] at hroom
    have hpairs := flowPairs_tokens pairs room rest (by omega)
    rw [Spelling.tokens, List.cons_append, List.append_assoc]
    exact build_mapping hpairs

theorem flowItems_tokens : ∀ (items : Items) (room : Nat) (rest : List Token),
    2 * items.tokens.length + 1 ≤ room →
    flowItems room true ⟨items.tokens ++ .sequenceEnd :: rest, e, hs, as⟩ =
      .ok (items.nodes, ⟨rest, e, hs, as⟩)
  | .last item _, room, rest, hroom => by
    rw [Items.tokens] at hroom ⊢
    have hpos := length_tokens_pos item
    obtain ⟨left, rfl⟩ : ∃ left, room = left + 2 := ⟨room - 2, by omega⟩
    exact flowItems_item (build_tokens item (left + 1) .flow _ (by omega)) flowItems_end
  | .more item _ _ others, room, rest, hroom => by
    rw [Items.tokens, List.length_append, List.length_cons] at hroom
    rw [Items.tokens, List.append_assoc, List.cons_append]
    obtain ⟨left, rfl⟩ : ∃ left, room = left + 2 := ⟨room - 2, by omega⟩
    refine flowItems_item (build_tokens item (left + 1) .flow _ (by omega)) ?_
    have hothers := flowItems_tokens others (left + 1) rest (by omega)
    obtain ⟨t, ts, htokens, ht⟩ := exists_cons_itemTokens others
    rw [htokens, List.cons_append] at hothers ⊢
    rw [flowItems_comma ht]
    exact hothers

theorem flowPairs_tokens : ∀ (pairs : Pairs) (room : Nat) (rest : List Token),
    2 * pairs.tokens.length + 1 ≤ room →
    flowPairs room true ⟨pairs.tokens ++ .mappingEnd :: rest, e, hs, as⟩ =
      .ok (pairs.nodes, ⟨rest, e, hs, as⟩)
  | .last key _ item _, room, rest, hroom => by
    simp only [Pairs.tokens, List.length_cons, List.cons_append] at hroom ⊢
    obtain ⟨left, rfl⟩ : ∃ left, room = left + 2 := ⟨room - 2, by omega⟩
    exact flowPairs_member (build_tokens item left .flow _ (by omega)) (by omega) flowPairs_end
  | .more key _ item _ _ others, room, rest, hroom => by
    simp only [Pairs.tokens, List.length_cons, List.length_append] at hroom
    simp only [Pairs.tokens, List.cons_append, List.append_assoc]
    obtain ⟨left, rfl⟩ : ∃ left, room = left + 2 := ⟨room - 2, by omega⟩
    refine flowPairs_member (build_tokens item left .flow _ (by omega)) (by omega) ?_
    have hothers := flowPairs_tokens others (left + 1) rest (by omega)
    obtain ⟨ts, htokens⟩ := exists_cons_pairTokens others
    rw [htokens, List.cons_append] at hothers ⊢
    rw [flowPairs_comma]
    exact hothers

end

end

/-- A document of one node ends behind it. -/
theorem document_node {room : Nat} {t : Token} {ts : List Token} {node : Node} {hs : Handles}
    {as : List (List Char × Node)} (ht : startsNode t = true)
    (hbuild : build (room + 1) .block ⟨t :: ts, none, hs, as⟩ = .ok (node, ⟨[], none, hs, as⟩)) :
    document (room + 1) ⟨t :: ts, none, hs, as⟩ = .ok (some node, ⟨[], none, hs, as⟩) := by
  have hcontent : document (room + 1) ⟨t :: ts, none, hs, as⟩ =
      build (room + 1) .block ⟨t :: ts, none, hs, as⟩ >>= fun (node, i) =>
        finish (room + 1) i >>= fun (_, i) => Except.ok (some node, i) := by
    cases t <;> cases ht <;> rfl
  rw [hcontent, hbuild]
  rfl

/-- The tokens of a spelling are those of a document with its node. -/
theorem ofTokens_tokens (v : Spelling) : ofTokens ⟨v.tokens, none⟩ = .ok (some v.node) := by
  have hbuild : build (4 * v.tokens.length + 4) .block ⟨v.tokens ++ [], none, defaultHandles, []⟩ =
      .ok (v.node, ⟨[], none, defaultHandles, []⟩) :=
    build_tokens v _ .block [] (by omega)
  have hdocument : document (4 * v.tokens.length + 4) ⟨v.tokens, none, defaultHandles, []⟩ =
      .ok (some v.node, ⟨[], none, defaultHandles, []⟩) := by
    rw [List.append_nil] at hbuild
    obtain ⟨t, ts, htokens, ht⟩ := exists_cons_tokens v
    rw [htokens] at hbuild ⊢
    exact document_node ht hbuild
  change Prod.fst <$> document (4 * v.tokens.length + 4) ⟨v.tokens, none, defaultHandles, []⟩ = _
  rw [hdocument]
  rfl

/-! ## Merging -/

/-- Pairs whose keys are texts take no members from others. -/
def TextKeys (pairs : List (Node × Node)) : Prop := ∀ p ∈ pairs, ∃ text, p.1 = .scalar .str text

theorem textKeys_cons {text : List Char} {node : Node} {pairs : List (Node × Node)}
    (h : TextKeys pairs) : TextKeys ((.scalar .str text, node) :: pairs) :=
  List.forall_mem_cons.2 ⟨⟨text, rfl⟩, h⟩

theorem TextKeys.mergePairs?_eq {pairs : List (Node × Node)} (h : TextKeys pairs) :
    mergePairs? pairs = some pairs := by
  have hmerge : ∀ p ∈ pairs, isMergeKey p.1 = false := by
    intro p hp
    obtain ⟨text, htext⟩ := h p hp
    rw [htext]
    rfl
  have hkey : ∀ p ∈ pairs, (asKey p.1, p.2) = p := by
    intro p hp
    obtain ⟨text, htext⟩ := h p hp
    have hown : asKey (.scalar .str text) = .scalar .str text := rfl
    rw [htext, hown, ← htext]
  have hpartition : (pairs.partition fun p => isMergeKey p.1) = ([], pairs) := by
    rw [List.partition_eq_filter_filter]
    refine Prod.ext ?_ ?_
    · refine List.filter_eq_nil_iff.2 fun p hp => ?_
      rw [hmerge p hp]
      exact Bool.false_ne_true
    · refine List.filter_eq_self.2 fun p hp => ?_
      rw [Function.comp_apply, hmerge p hp]
      rfl
  have hown : (pairs.map fun p => (asKey p.1, p.2)) = pairs :=
    (List.map_congr_left hkey).trans (List.map_id _)
  rw [mergePairs?, hpartition]
  change some ([] ++ pairs.map fun p => (asKey p.1, p.2)) = _
  rw [hown, List.nil_append]

theorem TextKeys.mergedAgain?_eq {pairs : List (Node × Node)} (h : TextKeys pairs) :
    mergedAgain? pairs = none := by
  induction pairs with
  | nil => rfl
  | cons p rest ih =>
    obtain ⟨⟨text, htext⟩, hrest⟩ := List.forall_mem_cons.1 h
    obtain ⟨k, node⟩ := p
    obtain rfl : k = .scalar .str text := htext
    exact ih hrest

theorem TextKeys.mergedMapping_eq {pairs : List (Node × Node)} (h : TextKeys pairs) :
    mergedMapping .map pairs = .mapping .map pairs := by
  rw [mergedMapping, h.mergePairs?_eq, h.mergedAgain?_eq]

theorem textKeys_nodes : ∀ pairs : Pairs, TextKeys pairs.nodes
  | .last _ _ _ _ => textKeys_cons (List.forall_mem_nil _)
  | .more _ _ _ _ _ rest => textKeys_cons (textKeys_nodes rest)

mutual

theorem merged_node : ∀ v : Spelling, v.node.merged = v.node
  | .word _ => rfl
  | .number _ => rfl
  | .text _ => rfl
  | .emptyList _ => rfl
  | .list _ items => congrArg (Node.sequence .seq) (mergedItems_nodes items)
  | .emptyMap _ => rfl
  | .map _ pairs => by
    change mergedMapping .map (mergedMembers pairs.nodes) = _
    rw [mergedMembers_nodes pairs, (textKeys_nodes pairs).mergedMapping_eq]
    rfl

theorem mergedItems_nodes : ∀ items : Items, mergedItems items.nodes = items.nodes
  | .last item _ => by rw [Items.nodes, mergedItems, merged_node item, mergedItems]
  | .more item _ _ rest => by
    rw [Items.nodes, mergedItems, merged_node item, mergedItems_nodes rest]

theorem mergedMembers_nodes : ∀ pairs : Pairs, mergedMembers pairs.nodes = pairs.nodes
  | .last _ _ item _ => by
    rw [Pairs.nodes, mergedMembers, merged_node item, merged, mergedMembers]
  | .more _ _ item _ _ rest => by
    rw [Pairs.nodes, mergedMembers, merged_node item, merged, mergedMembers_nodes rest]

end

/-! ## Values -/

/-- A scalar that can be read has that value as a node. -/
theorem valueAt_scalar {tag : Tag} {text : List Char} {v : Value} (depth : Nat)
    (h : Value.scalar <$> Form.scalar tag text = .ok v) :
    valueAt depth (.scalar tag text) = .ok v := by
  have hread : ((Value.scalar <$> Form.scalar tag text).mapError fun e => Found.mk depth e) =
      .ok v := by
    rw [h]
    rfl
  cases tag <;> first | exact hread | cases h

theorem valueAt_str (depth : Nat) (text : List Char) :
    valueAt depth (.scalar .str text) = .ok (.str (String.ofList text)) := rfl

/-- The members of pairs whose first key is a text. -/
theorem memberValues_cons {depth : Nat} {text : List Char} {node : Node} {v : Value}
    {pairs : List (Node × Node)} {members : List (Scalar × Value)}
    (hnode : valueAt depth node = .ok v) (hrest : memberValues depth pairs = .ok members) :
    memberValues depth ((.scalar .str text, node) :: pairs) =
      .ok ((.str (String.ofList text), v) :: members) := by
  rw [memberValues, valueAt_str, hnode, hrest]
  rfl

mutual

/-- **The node of a shared spelling has the value that is spelled, up to numbers.** -/
theorem valueAt_node : ∀ (v : Spelling) (depth : Nat), v.isShared = true →
    valueAt depth v.node = .ok v.yamlValue
  | .word w, depth, _ => valueAt_scalar depth w.scalar_text
  | .number n, depth, h => valueAt_scalar depth (n.scalar_text h)
  | .text pieces, depth, _ => valueAt_str depth (Json.contentOf pieces)
  | .emptyList _, _, _ => rfl
  | .list _ items, depth, h => by
    rw [Spelling.isShared, Bool.and_eq_true] at h
    rw [Spelling.node, valueAt, itemValues_nodes items _ h.2]
    rfl
  | .emptyMap _, _, _ => rfl
  | .map _ pairs, depth, h => by
    rw [Spelling.isShared, Bool.and_eq_true] at h
    rw [Spelling.node, valueAt, memberValues_nodes pairs _ h.2]
    rfl

theorem itemValues_nodes : ∀ (items : Items) (depth : Nat), items.isShared = true →
    itemValues depth items.nodes = .ok (items.valuesWith Json.Numeral.yamlValue)
  | .last item _, depth, h => by
    rw [Items.isShared, Bool.and_eq_true] at h
    rw [Items.nodes, itemValues, valueAt_node item depth h.1]
    rfl
  | .more item _ _ rest, depth, h => by
    simp only [Items.isShared, Bool.and_eq_true] at h
    rw [Items.nodes, itemValues, valueAt_node item depth h.1.1.1, itemValues_nodes rest depth h.2]
    rfl

theorem memberValues_nodes : ∀ (pairs : Pairs) (depth : Nat), pairs.isShared = true →
    memberValues depth pairs.nodes = .ok (pairs.membersWith Json.Numeral.yamlValue)
  | .last _ _ item _, depth, h => by
    simp only [Pairs.isShared, Bool.and_eq_true] at h
    exact memberValues_cons (valueAt_node item depth h.1.2) rfl
  | .more _ _ item _ _ rest, depth, h => by
    simp only [Pairs.isShared, Bool.and_eq_true] at h
    exact memberValues_cons (valueAt_node item depth h.1.1.1.2) (memberValues_nodes rest depth h.2)

end

end Yaml.Node

/-! ## Documents -/

/-- **What YAML reads in a shared text with a collection.** -/
theorem Yaml.read_text (before behind : Json.Blanks) (v : Json.Spelling)
    (hbefore : before.isShared = true) (hv : v.isShared = true) (hbehind : behind.isShared = true)
    (hcollection : v.isCollection = true) :
    Yaml.read (Document.plainLines (before.chars ++ v.chars ++ behind.chars)) =
      .ok v.yamlValue := by
  have htokens := Scan.ofText_text before behind v hbefore hv hbehind hcollection
  have hvalue : v.node.value = .ok v.yamlValue := by
    rw [Node.value, Node.merged_node, Node.valueAt_node v 0 hv]
    rfl
  rw [Yaml.read, htokens, Node.ofTokens_tokens]
  exact hvalue

end EndpointAtlas
