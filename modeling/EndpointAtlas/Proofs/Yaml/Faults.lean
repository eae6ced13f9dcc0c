import EndpointAtlas.Proofs.Yaml.Relay
import EndpointAtlas.Yaml.Document
import Mathlib.Data.List.MinMax

/-!
# The fault that counts

Several parts of a document may be wrong at once (`Node.faults`). The value of a node fails with the
first of the shallowest faults (`Node.fault?_valueAt`), and so it is told with which fault a text
gives no value (`read_eq_scalar_iff`).
-/

namespace EndpointAtlas.Yaml

namespace Node

variable {α β : Type}

/-! ## The shallowest of several faults -/

/-- The fault of a result that has one. -/
def fault? : Valued α → Option Found
  | .ok _ => none
  | .error f => some f

@[simp] theorem fault?_map (g : α → β) (x : Valued α) : fault? (g <$> x) = fault? x := by
  cases x <;> rfl

/-- Of two faults the shallower one, of two equally deep ones the first. -/
def shallower : Option Found → Option Found → Option Found
  | none, g => g
  | some f, none => some f
  | some f, some g => some (if f.depth ≤ g.depth then f else g)

theorem shallower_assoc (f g h : Option Found) :
    shallower (shallower f g) h = shallower f (shallower g h) := by
  cases f with
  | none => rfl
  | some f =>
    cases g with
    | none => rfl
    | some g =>
      cases h with
      | none => rfl
      | some h =>
        simp only [shallower]
        congr 1
        split_ifs <;> first | rfl | omega

@[simp] theorem fault?_both (x : Valued α) (y : Valued β) :
    fault? (both x y) = shallower (fault? x) (fault? y) := by
  cases x <;> cases y <;> rfl

/-- The first of the shallowest faults. -/
def leading (fs : List Found) : Option Found := fs.argmin Found.depth

theorem leading_cons (f : Found) (fs : List Found) :
    leading (f :: fs) = shallower (some f) (leading fs) := by
  unfold leading
  rw [List.argmin_cons]
  cases fs.argmin Found.depth with
  | none => rfl
  | some g =>
    simp only [shallower]
    split_ifs <;> first | rfl | omega

theorem mem_of_leading {fs : List Found} {f : Found} (h : leading fs = some f) : f ∈ fs :=
  List.argmin_mem h

@[simp] theorem leading_append (fs gs : List Found) :
    leading (fs ++ gs) = shallower (leading fs) (leading gs) := by
  induction fs with
  | nil => rfl
  | cons f fs ih => rw [List.cons_append, leading_cons, ih, leading_cons, shallower_assoc]

/-! ## Faults of nodes -/

/-- Whether the values of a type are collections. -/
def isCollectionTag (tag : Tag) : Bool :=
  tag = .seq || tag = .map || tag = .set || tag = .entries

/-- Whether a node is of a type of scalars. -/
def isScalarTyped : Node → Bool
  | .scalar tag _ => !isCollectionTag tag
  | .sequence tag _ => !isCollectionTag tag
  | .mapping tag _ => !isCollectionTag tag
  | .again _ _ => false

/-- What is wrong with a text of a type of scalars. -/
def textFaults (depth : Nat) (tag : Tag) (text : List Char) : List Found :=
  match Form.scalar tag text with
  | .ok _ => []
  | .error e => [⟨depth, e⟩]

/-- What is wrong with a mapping of a type of scalars. It stands for the text under its equals
sign. -/
def equalsFaults (depth : Nat) (tag : Tag) (pairs : List (Node × Node)) : List Found :=
  match textUnderEquals? pairs with
  | none => [⟨depth, .malformed⟩]
  | some text => if tag = .timestamp then [⟨depth, .scalar .notText⟩] else textFaults depth tag text

mutual

/-- All that is wrong with a node at a depth, in the order in which it is looked at. -/
def faults (depth : Nat) : Node → List Found
  | .scalar tag text =>
    if isCollectionTag tag then [⟨depth + 1, .malformed⟩] else textFaults depth tag text
  | .sequence .seq items => itemFaults (depth + 1) items
  | .sequence .entries items => entryFaults (depth + 1) items
  | .sequence tag _ => [⟨if isCollectionTag tag then depth + 1 else depth, .malformed⟩]
  | .mapping .map pairs => memberFaults (depth + 1) pairs
  | .mapping .set pairs => memberFaults (depth + 1) pairs
  | .mapping tag pairs =>
    if isCollectionTag tag then [⟨depth + 1, .malformed⟩] else equalsFaults depth tag pairs
  | .again _ _ => []

/-- What is wrong with items. -/
def itemFaults (depth : Nat) : List Node → List Found
  | [] => []
  | n :: rest => faults depth n ++ itemFaults depth rest

/-- What is wrong with mappings that should have one pair each, up to the first that has not. -/
def entryFaults (depth : Nat) : List Node → List Found
  | [] => []
  | .mapping _ [(k, v)] :: rest => faults depth k ++ faults depth v ++ entryFaults depth rest
  | _ :: _ => [⟨depth, .malformed⟩]

/-- What is wrong with the members of a mapping. A key has to be a scalar. -/
def memberFaults (depth : Nat) : List (Node × Node) → List Found
  | [] => []
  | (k, v) :: rest =>
    (if k.isScalarTyped then faults depth k else [⟨depth, .malformed⟩]) ++ faults depth v ++
      memberFaults depth rest

end

/-! ## Depths -/

section

variable {depth : Nat} {tag : Tag} {text : List Char} {pairs : List (Node × Node)} {f : Found}

theorem depth_of_mem_textFaults (h : f ∈ textFaults depth tag text) : f.depth = depth := by
  unfold textFaults at h
  split at h
  · cases h
  · rw [List.mem_singleton.1 h]

theorem depth_of_mem_equalsFaults (h : f ∈ equalsFaults depth tag pairs) : f.depth = depth := by
  unfold equalsFaults at h
  split at h
  · rw [List.mem_singleton.1 h]
  · split at h
    · rw [List.mem_singleton.1 h]
    · exact depth_of_mem_textFaults h

end

/-- The least depth of what may be wrong with a node: that of the node, or of its parts. -/
def leastDepth (depth : Nat) (n : Node) : Nat := if n.isScalarTyped then depth else depth + 1

theorem le_leastDepth (depth : Nat) (n : Node) : depth ≤ leastDepth depth n := by
  unfold leastDepth
  split <;> omega

mutual

/-- No fault of a node is shallower than the node, and those of a collection are deeper. -/
theorem leastDepth_le_of_mem_faults (depth : Nat) :
    ∀ n, ∀ f ∈ faults depth n, leastDepth depth n ≤ f.depth
  | .scalar tag text => by
    intro f hf
    rw [faults] at hf
    cases htag : isCollectionTag tag with
    | true =>
      rw [htag, if_pos rfl] at hf
      rw [leastDepth, isScalarTyped, htag, List.mem_singleton.1 hf]
      exact le_rfl
    | false =>
      rw [htag, if_neg Bool.false_ne_true] at hf
      rw [leastDepth, isScalarTyped, htag, depth_of_mem_textFaults hf]
      exact le_rfl
  | .sequence tag items => by
    cases tag with
    | seq => exact le_depth_of_mem_itemFaults (depth + 1) items
    | entries => exact le_depth_of_mem_entryFaults (depth + 1) items
    | _ => exact List.forall_mem_singleton.2 le_rfl
  | .mapping tag pairs => by
    cases tag with
    | map => exact le_depth_of_mem_memberFaults (depth + 1) pairs
    | set => exact le_depth_of_mem_memberFaults (depth + 1) pairs
    | seq => exact List.forall_mem_singleton.2 le_rfl
    | entries => exact List.forall_mem_singleton.2 le_rfl
    | _ => exact fun f hf => (depth_of_mem_equalsFaults hf).ge
  | .again _ _ => List.forall_mem_nil _

theorem le_depth_of_mem_itemFaults (depth : Nat) :
    ∀ ns, ∀ f ∈ itemFaults depth ns, depth ≤ f.depth
  | [] => List.forall_mem_nil _
  | n :: rest =>
    List.forall_mem_append.2
      ⟨fun f hf => (le_leastDepth depth n).trans (leastDepth_le_of_mem_faults depth n f hf),
        le_depth_of_mem_itemFaults depth rest⟩

theorem le_depth_of_mem_entryFaults (depth : Nat) :
    ∀ ns, ∀ f ∈ entryFaults depth ns, depth ≤ f.depth
  | [] => List.forall_mem_nil _
  | .mapping _ [(k, v)] :: rest =>
    List.forall_mem_append.2 ⟨List.forall_mem_append.2
      ⟨fun f hf => (le_leastDepth depth k).trans (leastDepth_le_of_mem_faults depth k f hf),
        fun f hf => (le_leastDepth depth v).trans (leastDepth_le_of_mem_faults depth v f hf)⟩,
      le_depth_of_mem_entryFaults depth rest⟩
  | .mapping _ [] :: _ => List.forall_mem_singleton.2 le_rfl
  | .mapping _ (_ :: _ :: _) :: _ => List.forall_mem_singleton.2 le_rfl
  | .scalar _ _ :: _ => List.forall_mem_singleton.2 le_rfl
  | .sequence _ _ :: _ => List.forall_mem_singleton.2 le_rfl
  | .again _ _ :: _ => List.forall_mem_singleton.2 le_rfl

theorem le_depth_of_mem_memberFaults (depth : Nat) :
    ∀ ps, ∀ f ∈ memberFaults depth ps, depth ≤ f.depth
  | [] => List.forall_mem_nil _
  | (k, v) :: rest => by
    refine List.forall_mem_append.2 ⟨List.forall_mem_append.2 ⟨?_, ?_⟩,
      le_depth_of_mem_memberFaults depth rest⟩
    · split
      · next hk =>
        have hle := leastDepth_le_of_mem_faults depth k
        rw [leastDepth, hk, if_pos rfl] at hle
        exact hle
      · exact List.forall_mem_singleton.2 le_rfl
    · exact fun f hf => (le_leastDepth depth v).trans (leastDepth_le_of_mem_faults depth v f hf)

end

/-! ## The fault of a value -/

theorem fault?_text (depth : Nat) (tag : Tag) (text : List Char) :
    fault? ((Value.scalar <$> Form.scalar tag text).mapError (⟨depth, ·⟩)) =
      leading (textFaults depth tag text) := by
  unfold textFaults
  cases Form.scalar tag text <;> rfl

theorem fault?_equals {depth : Nat} {tag : Tag} (h : isCollectionTag tag = false)
    (pairs : List (Node × Node)) :
    fault? (unlike tag depth (.mapping tag pairs)) = leading (equalsFaults depth tag pairs) := by
  have htext : (Node.mapping tag pairs).text? = textUnderEquals? pairs := by rw [text?]
  unfold unlike equalsFaults
  rw [htext]
  cases textUnderEquals? pairs with
  | none => cases tag <;> first | rfl | nomatch h
  | some text => cases tag <;> first | rfl | exact fault?_text depth _ text | nomatch h

theorem eq_scalar_of_text {depth : Nat} {tag : Tag} {text : List Char} {v : Value}
    (h : (Value.scalar <$> Form.scalar tag text).mapError (Found.mk depth ·) = .ok v) :
    ∃ s, v = .scalar s := by
  obtain ⟨s, -, rfl⟩ := Outcome.map_eq_ok_iff.1 (Outcome.mapError_eq_ok_iff.1 h)
  exact ⟨s, rfl⟩

/-- A node in the form of another type has no value, or that of the text of a scalar in it. -/
theorem eq_scalar_of_unlike {depth : Nat} {tag : Tag} {n : Node} {v : Value}
    (h : unlike tag depth n = .ok v) : isCollectionTag tag = false ∧ ∃ s, v = .scalar s := by
  unfold unlike at h
  cases tag with
  | seq => cases h
  | map => cases h
  | set => cases h
  | entries => cases h
  | timestamp => cases htext : n.text? <;> rw [htext] at h <;> cases h
  | _ =>
    refine ⟨rfl, ?_⟩
    cases htext : n.text? with
    | none => rw [htext] at h; cases h
    | some text => rw [htext] at h; exact eq_scalar_of_text h

/-- The value of a node is a scalar when the node is of a type of scalars. -/
theorem isScalarTyped_iff_of_valueAt {depth : Nat} {n : Node} {v : Value}
    (h : valueAt depth n = .ok v) : n.isScalarTyped = true ↔ ∃ s, v = .scalar s := by
  have hunlike {tag : Tag} (h : unlike tag depth n = .ok v) :
      !isCollectionTag tag ↔ ∃ s, v = .scalar s := by
    obtain ⟨htag, hscalar⟩ := eq_scalar_of_unlike h
    rw [htag]
    exact iff_of_true rfl hscalar
  have hparts (h : n.isScalarTyped = false) (hscalar : ∀ s, v ≠ .scalar s) :
      n.isScalarTyped = true ↔ ∃ s, v = .scalar s :=
    iff_of_false (by simp [h]) (by simpa using hscalar)
  cases n with
  | scalar tag text =>
    cases tag with
    | seq => rw [valueAt] at h; exact hunlike h
    | map => rw [valueAt] at h; exact hunlike h
    | set => rw [valueAt] at h; exact hunlike h
    | entries => rw [valueAt] at h; exact hunlike h
    | _ => rw [valueAt] at h <;> first | exact iff_of_true rfl (eq_scalar_of_text h) | nofun
  | sequence tag items =>
    cases tag with
    | seq =>
      obtain ⟨vs, -, rfl⟩ := Outcome.map_eq_ok_iff.1 h
      exact hparts rfl nofun
    | entries =>
      obtain ⟨vs, -, rfl⟩ := Outcome.map_eq_ok_iff.1 h
      exact hparts rfl nofun
    | _ => rw [valueAt] at h <;> first | exact hunlike h | nofun
  | mapping tag pairs =>
    cases tag with
    | map =>
      obtain ⟨ms, -, rfl⟩ := Outcome.map_eq_ok_iff.1 h
      exact hparts rfl nofun
    | set =>
      obtain ⟨ms, -, rfl⟩ := Outcome.map_eq_ok_iff.1 h
      exact hparts rfl nofun
    | _ => rw [valueAt] at h <;> first | exact hunlike h | nofun
  | again anchor isList =>
    cases h
    exact hparts rfl nofun

theorem depth_of_mem_faults {depth : Nat} {n : Node} (h : n.isScalarTyped = true) {f : Found}
    (hf : f ∈ faults depth n) : f.depth = depth := by
  cases n with
  | scalar tag text =>
    rw [faults, if_neg (by simpa [isScalarTyped] using h)] at hf
    exact depth_of_mem_textFaults hf
  | sequence tag items =>
    cases tag with
    | seq => cases h
    | map => cases h
    | set => cases h
    | entries => cases h
    | _ => rw [List.mem_singleton.1 hf]; rfl
  | mapping tag pairs =>
    cases tag with
    | seq => cases h
    | map => cases h
    | set => cases h
    | entries => cases h
    | _ => exact depth_of_mem_equalsFaults hf
  | again anchor isList => cases h

theorem fault?_keyOf {depth : Nat} {k : Node}
    (hk : fault? (valueAt depth k) = leading (faults depth k)) :
    fault? (keyOf depth (valueAt depth k)) =
      leading (if k.isScalarTyped then faults depth k else [⟨depth, .malformed⟩]) := by
  cases hvalue : valueAt depth k with
  | ok v =>
    rw [hvalue] at hk
    have hscalar := isScalarTyped_iff_of_valueAt hvalue
    split
    · next htyped =>
      obtain ⟨s, rfl⟩ := hscalar.1 htyped
      exact hk
    · next htyped =>
      cases v with
      | scalar s => exact absurd (hscalar.2 ⟨s, rfl⟩) htyped
      | _ => rfl
  | error f =>
    rw [hvalue] at hk
    have hmem := mem_of_leading hk.symm
    split
    · next htyped =>
      rw [keyOf, if_pos (depth_of_mem_faults htyped hmem)]
      exact hk
    · next htyped =>
      have hle := leastDepth_le_of_mem_faults depth k f hmem
      rw [leastDepth, if_neg htyped] at hle
      rw [keyOf, if_neg (by omega)]
      rfl

mutual

/-- **The value of a node fails with the first of its shallowest faults.** -/
theorem fault?_valueAt (depth : Nat) : ∀ n, fault? (valueAt depth n) = leading (faults depth n)
  | .scalar tag text => by
    cases tag <;> first | rfl | exact fault?_text depth _ text
  | .sequence tag items => by
    cases tag with
    | seq =>
      rw [valueAt, faults, fault?_map]
      exact fault?_itemValues (depth + 1) items
    | entries =>
      rw [valueAt, faults, fault?_map]
      exact fault?_entryValues (depth + 1) items
    | _ => rfl
  | .mapping tag pairs => by
    cases tag with
    | map =>
      rw [valueAt, faults, fault?_map]
      exact fault?_memberValues (depth + 1) pairs
    | set =>
      rw [valueAt, faults, fault?_map]
      exact fault?_memberValues (depth + 1) pairs
    | seq => rfl
    | entries => rfl
    | _ => exact fault?_equals rfl pairs
  | .again _ _ => rfl

theorem fault?_itemValues (depth : Nat) :
    ∀ ns, fault? (itemValues depth ns) = leading (itemFaults depth ns)
  | [] => rfl
  | n :: rest => by
    rw [itemValues, itemFaults, fault?_map, fault?_both, leading_append, fault?_valueAt depth n,
      fault?_itemValues depth rest]

theorem fault?_entryValues (depth : Nat) :
    ∀ ns, fault? (entryValues depth ns) = leading (entryFaults depth ns)
  | [] => rfl
  | .mapping _ [(k, v)] :: rest => by
    rw [entryValues, entryFaults, fault?_map, fault?_both, fault?_both, leading_append,
      leading_append, fault?_valueAt depth k, fault?_valueAt depth v, fault?_entryValues depth rest]
  | .mapping _ [] :: _ => rfl
  | .mapping _ (_ :: _ :: _) :: _ => rfl
  | .scalar _ _ :: _ => rfl
  | .sequence _ _ :: _ => rfl
  | .again _ _ :: _ => rfl

theorem fault?_memberValues (depth : Nat) :
    ∀ ps, fault? (memberValues depth ps) = leading (memberFaults depth ps)
  | [] => rfl
  | (k, v) :: rest => by
    rw [memberValues, memberFaults, fault?_map, fault?_both, fault?_both, leading_append,
      leading_append, fault?_keyOf (fault?_valueAt depth k), fault?_valueAt depth v,
      fault?_memberValues depth rest]

end

theorem value_eq_error_iff {n : Node} {e : Error} :
    n.value = .error e ↔ ∃ depth, leading (n.merged.faults 0) = some ⟨depth, e⟩ := by
  rw [← fault?_valueAt, value]
  cases valueAt 0 n.merged with
  | ok v => simp [fault?, Except.mapError]
  | error f =>
    simp only [fault?, Except.mapError, Except.error.injEq, Option.some.injEq]
    constructor
    · rintro rfl
      exact ⟨f.depth, rfl⟩
    · rintro ⟨depth, rfl⟩
      rfl

end Node

/-! ## The fault of a text -/

/-- A text fails with a scalar: the scanner comes to an escape for which there is no character
before anything else is wrong, or the text has a document, whose first and shallowest fault is a
scalar that is not one of its type. -/
inductive FailsWithScalar (text : List Char) (e : ScalarError) : Prop
  | escape (fails : Node.ofTokens (.ofText text) = .error (.scalar e))
      (oversized : OversizedEscape text e)
  | scalar {n : Node} {depth : Nat} (builds : Node.ofTokens (.ofText text) = .ok (some n))
      (leads : Node.leading (n.merged.faults 0) = some ⟨depth, .scalar e⟩)

theorem read_eq_scalar_iff {text : List Char} {e : ScalarError} :
    read text = .error (.scalar e) ↔ FailsWithScalar text e := by
  rw [read, Outcome.bind_eq_error_iff]
  constructor
  · rintro (hfails | ⟨node, hnode, hvalue⟩)
    · exact .escape hfails (Node.oversized_of_ofTokens hfails)
    · cases node with
      | none => cases hvalue
      | some n =>
        obtain ⟨depth, hleads⟩ := Node.value_eq_error_iff.1 hvalue
        exact .scalar hnode hleads
  · rintro (⟨hfails, -⟩ | ⟨hnode, hleads⟩)
    · exact .inl hfails
    · exact .inr ⟨_, hnode, Node.value_eq_error_iff.2 ⟨_, hleads⟩⟩

/-- The day, which no month has, stands in front of the word, but deeper. -/
example : read "[[2020-02-30], !!bool maybe]".toList = .error (.scalar .unknownWord) := by
  decide +kernel

end EndpointAtlas.Yaml
