import EndpointAtlas.Proofs.Json.Spelling

/-!
# Numbers that YAML takes for texts

A value is the same in YAML if every exponent in it has a sign, and a fraction in front of it
(`Spelling.yamlValue_eq_value`). If no key is written twice, it is the same only then
(`Spelling.yamlValue_eq_value_iff`): of two members with one key the first has no part in the value.
-/

namespace EndpointAtlas

namespace Members

theorem put_eq_append {members : Members} {k : Scalar} {v : Value}
    (h : ∀ m ∈ members, m.1.same k = false) : members.put k v = members ++ [(k, v)] := by
  induction members with
  | nil => rfl
  | cons m rest ih =>
    rw [List.forall_mem_cons] at h
    rw [put, h.1, if_neg Bool.false_ne_true, ih h.2, List.cons_append]

theorem foldl_put_eq_append (pairs : List (Scalar × Value)) : ∀ members : Members,
    (members ++ pairs).Pairwise (fun m m' => m.1.same m'.1 = false) →
    pairs.foldl (fun members (k, v) => members.put k v) members = members ++ pairs := by
  induction pairs with
  | nil => exact fun members _ => (List.append_nil members).symm
  | cons m rest ih =>
    intro members h
    have hput : members.put m.1 m.2 = members ++ [m] :=
      put_eq_append fun m' hm' => (List.pairwise_append.1 h).2.2 m' hm' m List.mem_cons_self
    rw [List.append_cons] at h ⊢
    rw [← hput] at h ⊢
    exact ih (members.put m.1 m.2) h

/-- Members whose keys all differ stay as they are. -/
theorem ofList_eq_self {pairs : List (Scalar × Value)}
    (h : pairs.Pairwise fun m m' => m.1.same m'.1 = false) : ofList pairs = pairs :=
  foldl_put_eq_append pairs [] h

end Members

namespace Json

/-! ## Numbers -/

/-- A number is the same in YAML only if its exponent has a sign and a fraction in front of it. -/
theorem Numeral.yamlValue_eq_value_iff (n : Numeral) :
    n.yamlValue = n.value ↔ n.hasPlainExponent = true := by
  refine ⟨fun h => ?_, fun h => if_pos h⟩
  cases hexponent : n.hasPlainExponent with
  | true => rfl
  | false =>
    rw [Numeral.yamlValue, hexponent, if_neg Bool.false_ne_true, Numeral.value] at h
    split at h <;> cases h

mutual

/-- The numbers in a value. -/
def Spelling.numerals : Spelling → List Numeral
  | .number n => [n]
  | .list _ items => items.numerals
  | .map _ pairs => pairs.numerals
  | _ => []

def Items.numerals : Items → List Numeral
  | .last item _ => item.numerals
  | .more item _ _ rest => item.numerals ++ rest.numerals

def Pairs.numerals : Pairs → List Numeral
  | .last _ _ item _ => item.numerals
  | .more _ _ item _ _ rest => item.numerals ++ rest.numerals

end

/-! ## Keys -/

/-- The keys of members, as they follow each other. -/
def Pairs.keys : Pairs → List String
  | .last key _ _ _ => [String.ofList (contentOf key.pieces)]
  | .more key _ _ _ _ rest => String.ofList (contentOf key.pieces) :: rest.keys

mutual

/-- No mapping in a value has a key twice. -/
def Spelling.HasUniqueKeys : Spelling → Prop
  | .list _ items => items.HasUniqueKeys
  | .map _ pairs => pairs.keys.Nodup ∧ pairs.HasUniqueKeys
  | _ => True

def Items.HasUniqueKeys : Items → Prop
  | .last item _ => item.HasUniqueKeys
  | .more item _ _ rest => item.HasUniqueKeys ∧ rest.HasUniqueKeys

def Pairs.HasUniqueKeys : Pairs → Prop
  | .last _ _ item _ => item.HasUniqueKeys
  | .more _ _ item _ _ rest => item.HasUniqueKeys ∧ rest.HasUniqueKeys

end

theorem Pairs.map_fst_membersWith (f : Numeral → Value) :
    ∀ pairs : Pairs, (pairs.membersWith f).map Prod.fst = pairs.keys.map Scalar.str
  | .last _ _ _ _ => rfl
  | .more _ _ _ _ _ rest => congrArg (_ :: ·) (rest.map_fst_membersWith f)

theorem Pairs.ofList_membersWith (f : Numeral → Value) {pairs : Pairs} (h : pairs.keys.Nodup) :
    Members.ofList (pairs.membersWith f) = pairs.membersWith f := by
  have hpairwise : (pairs.keys.map Scalar.str).Pairwise fun k l => k.same l = false := by
    refine List.pairwise_map.2 (List.Pairwise.imp (fun hne => ?_) h)
    rw [Scalar.same_str, decide_eq_false hne]
  rw [← pairs.map_fst_membersWith f] at hpairwise
  exact Members.ofList_eq_self (List.pairwise_map.1 hpairwise)

/-! ## Values -/

section

variable {f g : Numeral → Value}

mutual

theorem Spelling.valueWith_congr :
    ∀ v : Spelling, (∀ n ∈ v.numerals, f n = g n) → v.valueWith f = v.valueWith g
  | .word _, _ => rfl
  | .number n, h => h n (List.mem_singleton_self n)
  | .text _, _ => rfl
  | .emptyList _, _ => rfl
  | .list _ items, h => congrArg Value.list (items.valuesWith_congr h)
  | .emptyMap _, _ => rfl
  | .map _ pairs, h => congrArg (Value.map <| Members.ofList ·) (pairs.membersWith_congr h)

theorem Items.valuesWith_congr :
    ∀ items : Items, (∀ n ∈ items.numerals, f n = g n) → items.valuesWith f = items.valuesWith g
  | .last item _, h => congrArg ([·]) (item.valueWith_congr h)
  | .more item _ _ rest, h => by
    rw [Items.numerals, List.forall_mem_append] at h
    rw [Items.valuesWith, Items.valuesWith, item.valueWith_congr h.1, rest.valuesWith_congr h.2]

theorem Pairs.membersWith_congr :
    ∀ pairs : Pairs, (∀ n ∈ pairs.numerals, f n = g n) → pairs.membersWith f = pairs.membersWith g
  | .last key _ item _, h => by
    rw [Pairs.membersWith, Pairs.membersWith, item.valueWith_congr h]
  | .more key _ item _ _ rest, h => by
    rw [Pairs.numerals, List.forall_mem_append] at h
    rw [Pairs.membersWith, Pairs.membersWith, item.valueWith_congr h.1, rest.membersWith_congr h.2]

end

mutual

theorem Spelling.eq_of_valueWith_eq : ∀ v : Spelling, v.HasUniqueKeys →
    v.valueWith f = v.valueWith g → ∀ n ∈ v.numerals, f n = g n
  | .word _, _, _ => List.forall_mem_nil _
  | .number n, _, h => List.forall_mem_singleton.2 h
  | .text _, _, _ => List.forall_mem_nil _
  | .emptyList _, _, _ => List.forall_mem_nil _
  | .list _ items, hkeys, h => items.eq_of_valuesWith_eq hkeys (Value.list.inj h)
  | .emptyMap _, _, _ => List.forall_mem_nil _
  | .map _ pairs, hkeys, h => by
    rw [Spelling.valueWith, Spelling.valueWith, Pairs.ofList_membersWith f hkeys.1,
      Pairs.ofList_membersWith g hkeys.1] at h
    exact pairs.eq_of_membersWith_eq hkeys.2 (Value.map.inj h)

theorem Items.eq_of_valuesWith_eq : ∀ items : Items, items.HasUniqueKeys →
    items.valuesWith f = items.valuesWith g → ∀ n ∈ items.numerals, f n = g n
  | .last item _, hkeys, h => item.eq_of_valueWith_eq hkeys (List.cons.inj h).1
  | .more item _ _ rest, hkeys, h => List.forall_mem_append.2
    ⟨item.eq_of_valueWith_eq hkeys.1 (List.cons.inj h).1,
      rest.eq_of_valuesWith_eq hkeys.2 (List.cons.inj h).2⟩

theorem Pairs.eq_of_membersWith_eq : ∀ pairs : Pairs, pairs.HasUniqueKeys →
    pairs.membersWith f = pairs.membersWith g → ∀ n ∈ pairs.numerals, f n = g n
  | .last _ _ item _, hkeys, h =>
    item.eq_of_valueWith_eq hkeys (congrArg Prod.snd (List.cons.inj h).1)
  | .more _ _ item _ _ rest, hkeys, h => List.forall_mem_append.2
    ⟨item.eq_of_valueWith_eq hkeys.1 (congrArg Prod.snd (List.cons.inj h).1),
      rest.eq_of_membersWith_eq hkeys.2 (List.cons.inj h).2⟩

end

end

/-- If all exponents have a sign, and a fraction in front of them, the value in YAML is the same. -/
theorem Spelling.yamlValue_eq_value (v : Spelling)
    (h : ∀ n ∈ v.numerals, n.hasPlainExponent = true) : v.yamlValue = v.value :=
  v.valueWith_congr fun n hn => n.yamlValue_eq_value_iff.2 (h n hn)

/-- **Which values are the same in YAML.** -/
theorem Spelling.yamlValue_eq_value_iff (v : Spelling) (hkeys : v.HasUniqueKeys) :
    v.yamlValue = v.value ↔ ∀ n ∈ v.numerals, n.hasPlainExponent = true :=
  ⟨fun h n hn => n.yamlValue_eq_value_iff.1 (v.eq_of_valueWith_eq hkeys h n hn),
    v.yamlValue_eq_value⟩

end Json

end EndpointAtlas
