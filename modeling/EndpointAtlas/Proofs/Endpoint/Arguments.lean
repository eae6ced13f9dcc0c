import EndpointAtlas.Proofs.Endpoint.Call
import EndpointAtlas.Proofs.Endpoint.Rendering
import Mathlib.Data.List.Forall2

/-!
# What an example call passes

An example call is determined by the parameters that are selected for it: which arguments it holds,
under which values, and in which order. `Passes` says so without the way in which the call is made.

1. `Subject.Gives` and `Subject.Lacks`: the example of a parameter or a body, or the fault instead.
2. `Groups`: arguments in their groups. One parameter keeps it (`Groups.passed`), so passing all of
   them does (`Groups.passAll`).
3. `passes_of_render`: one call, with its body and the mark of a stream.
4. `examples_exact`: when there are example calls, which they are, and which fault there is instead.
-/

namespace EndpointAtlas

theorem Place.label_injective {a b : Place} (h : a.label = b.label) : a = b := by
  cases a <;> cases b <;> simp [label] at h <;> rfl

namespace Call

/-! ## Examples -/

/-- A value is the example of a subject: the declared one unless that is null, and else the sample
of the schema, without any components. -/
def Subject.Gives (s : Subject) (v : Value) : Prop :=
  (s.declared ≠ .null ∧ v = s.declared) ∨
    (s.declared = .null ∧ (Schema.sample [] (.map s.schema)).outcome = .ok v)

/-- A subject has no example: none is declared, and the schema has no sample. -/
def Subject.Lacks (s : Subject) (fault : Fault) : Prop :=
  s.declared = .null ∧ (Schema.sample [] (.map s.schema)).outcome = .error fault

theorem Subject.gives_iff {s : Subject} {v : Value} :
    s.Gives v ↔ s.sample.outcome = .ok v := by
  unfold Gives sample exampleOf
  by_cases h : s.declared = .null
  · simp [h]
  · simp [h, eq_comm]

theorem Subject.lacks_iff {s : Subject} {fault : Fault} :
    s.Lacks fault ↔ s.sample.outcome = .error fault := by
  unfold Lacks sample exampleOf
  by_cases h : s.declared = .null
  · simp [h]
  · simp [h]

theorem hasExample_iff {s : Subject} : HasExample s ↔ ∃ v, s.Gives v := by
  simp only [HasExample, Subject.gives_iff]

/-! ## Groups of arguments -/

/-- The arguments that a call passes in a place. -/
def group (call : Members) (place : Place) : Members :=
  match call.get? place.label with
  | some (.map members) => members
  | _ => []

/-- The last of some parameters that has a place and a name. -/
def lastWith? (params : List Parameter) (place : Place) (name : String) : Option Parameter :=
  (params.filter fun p => p.place = place ∧ p.name = name).getLast?

/-- The names of the parameters in a place, in the order in which they first occur. -/
def namesIn (params : List Parameter) (place : Place) : List Scalar :=
  ((params.filter (·.place = place)).map fun p => Scalar.str p.name).eraseDups

/-- The places of parameters, in the order in which they first occur. -/
def placesOf (params : List Parameter) : List Scalar :=
  (params.map fun p => Scalar.str p.place.label).eraseDups

/-- The arguments for parameters, in groups: every group is a mapping, groups and names stand in the
order of their parameters, and of parameters with one place and name the last one counts. -/
structure Groups (params : List Parameter) (call : Members) : Prop where
  keys : call.map Prod.fst = placesOf params
  isMap : ∀ place v, call.get? place.label = some v → v = .map (group call place)
  names : ∀ place, (group call place).map Prod.fst = namesIn params place
  argument : ∀ place name v, (group call place).get? name = some v ↔
    ∃ p, lastWith? params place name = some p ∧ (Subject.ofParameter p).Gives v

variable {params rest : List Parameter} {call : Members} {p : Parameter} {v : Value}

theorem lastWith?_append (place : Place) (name : String) :
    lastWith? (params ++ [p]) place name =
      if p.place = place ∧ p.name = name then some p else lastWith? params place name := by
  unfold lastWith?
  by_cases h : p.place = place ∧ p.name = name
  · simp [List.filter_append, h]
  · simp [List.filter_append, List.filter_cons_of_neg, h]

theorem passed_eq (call : Members) (p : Parameter) (v : Value) :
    passed call p v =
      call.set p.place.label (.map (Members.set (group call p.place) p.name v)) := by
  unfold passed group Members.getD
  cases call.get? p.place.label with
  | none => rfl
  | some w => cases w <;> rfl

theorem get?_passed (call : Members) (p : Parameter) (v : Value) (place : Place) :
    (passed call p v).get? place.label =
      if place = p.place then some (.map (Members.set (group call p.place) p.name v))
      else call.get? place.label := by
  rw [passed_eq, Members.get?_set]
  by_cases h : place = p.place
  · simp [h]
  · rw [if_neg fun hlabel => h (Place.label_injective hlabel), if_neg h]

/-- Passing a parameter changes the group of its place only. -/
theorem group_passed (call : Members) (p : Parameter) (v : Value) (place : Place) :
    group (passed call p v) place =
      if place = p.place then Members.set (group call p.place) p.name v else group call place := by
  unfold group
  rw [get?_passed]
  by_cases h : place = p.place
  · simp [h, group]
  · simp [h]

namespace Groups

theorem nil : Groups [] [] where
  keys := rfl
  isMap := by simp
  names _ := rfl
  argument := by simp [group, lastWith?]

/-- **Passing one parameter** keeps the arguments in their groups. -/
theorem passed (h : Groups params call) (hv : (Subject.ofParameter p).Gives v) :
    Groups (params ++ [p]) (Call.passed call p v) where
  keys := by
    rw [passed_eq, placesOf, List.map_append]
    exact Members.map_fst_set_eraseDups h.keys _
  isMap place w hw := by
    rw [get?_passed] at hw
    rw [group_passed]
    by_cases hplace : place = p.place
    · simpa [hplace, eq_comm] using hw
    · rw [if_neg hplace] at hw ⊢
      exact h.isMap place w hw
  names place := by
    rw [group_passed]
    by_cases hplace : place = p.place
    · subst hplace
      rw [if_pos rfl, namesIn, List.filter_append, List.map_append]
      simpa using Members.map_fst_set_eraseDups (h.names p.place) v
    · have hfilter : ¬ p.place = place := fun heq => hplace heq.symm
      rw [if_neg hplace, h.names, namesIn, namesIn, List.filter_append]
      simp [hfilter]
  argument place name w := by
    rw [group_passed, lastWith?_append]
    by_cases hplace : place = p.place
    · subst hplace
      rw [if_pos rfl, Members.get?_set]
      by_cases hname : name = p.name
      · -- the value that is passed is the only example of the parameter
        have hunique : v = w ↔ (Subject.ofParameter p).Gives w := by
          rw [Subject.gives_iff] at hv ⊢
          simp [hv]
        simpa [hname] using hunique
      · have hother : ¬ p.name = name := fun heq => hname heq.symm
        simpa [hname, hother] using h.argument p.place name w
    · have hother : ¬ p.place = place := fun heq => hplace heq.symm
      simpa [hplace, hother] using h.argument place name w

/-- **Passing parameters** keeps the arguments in their groups. -/
theorem passAll {all : Members} (h : Groups params call)
    (hrun : (Call.passAll call rest).outcome = .ok all) : Groups (params ++ rest) all := by
  -- the parameters in front are those that have been passed
  induction rest generalizing params call with
  | nil =>
    cases hrun
    rwa [List.append_nil]
  | cons p rest ih =>
    rw [Call.passAll, Logged.outcome_bind] at hrun
    obtain ⟨v, hv, hrest⟩ := Outcome.bind_eq_ok_iff.1 hrun
    have hgives : (Subject.ofParameter p).Gives v := Subject.gives_iff.2 hv
    rw [List.append_cons]
    exact ih (h.passed hgives) hrest

end Groups

/-! ## One call -/

/-- A call passes parameters: arguments in groups, then the body, then the mark of a stream. -/
structure Passes (params : List Parameter) (body : Option Value) (streaming : Bool)
    (call : Members) : Prop where
  /-- An argument is passed just when a parameter has its place and its name. Its value is the
  example of the last such parameter. -/
  argument : ∀ place name v, (group call place).get? name = some v ↔
    ∃ p, lastWith? params place name = some p ∧ (Subject.ofParameter p).Gives v
  /-- Groups stand in the order of their parameters, in front of the body and the mark. -/
  keys : call.map Prod.fst = placesOf params ++ (if body.isSome then [.str "body"] else []) ++
    if streaming then [.str "parse_as"] else []
  /-- The names of a group stand in the order of their parameters. -/
  names : ∀ place, (group call place).map Prod.fst = namesIn params place
  /-- A group is a mapping with members. -/
  populated : ∀ place v, call.get? place.label = some v →
    v = .map (group call place) ∧ group call place ≠ []
  body : call.get? "body" = body
  mark : call.get? "parse_as" = if streaming then some (.str "stream") else none

/-- The members of a call behind the groups. -/
def ending (body : Option Value) (streaming : Bool) : Members :=
  (match body with
    | some v => [(.str "body", v)]
    | none => []) ++ if streaming then streamMark else []

theorem get?_ending (body : Option Value) (streaming : Bool) (key : String) :
    (ending body streaming).get? key =
      if key = "body" then body
      else if key = "parse_as" then if streaming then some (.str "stream") else none
      else none := by
  unfold ending streamMark
  cases body <;> cases streaming <;> grind [Members.get?_cons, Members.get?_nil]

theorem map_fst_ending (body : Option Value) (streaming : Bool) :
    (ending body streaming).map Prod.fst = (if body.isSome then [.str "body"] else []) ++
      if streaming then [.str "parse_as"] else [] := by
  cases body <;> cases streaming <;> rfl

theorem group_append_ending (groups : Members) (body : Option Value) (streaming : Bool)
    (place : Place) : (groups ++ ending body streaming).get? place.label = groups.get? place.label ∧
      group (groups ++ ending body streaming) place = group groups place := by
  have hget : (groups ++ ending body streaming).get? place.label = groups.get? place.label := by
    obtain ⟨hbody, hmark⟩ := place.label_ne
    rw [Members.get?_append, get?_ending, if_neg hbody, if_neg hmark, Option.or_none]
  exact ⟨hget, by rw [group, hget, group]⟩

/-- The group of a place is empty only if no parameter has the place. -/
theorem Groups.group_ne_nil (h : Groups params call) {place : Place}
    (hplace : call.get? place.label = some v) : group call place ≠ [] := by
  have hkey : Scalar.str place.label ∈ placesOf params := by
    rw [← h.keys]
    exact List.mem_map_of_mem (f := Prod.fst) (Members.mem_of_get? hplace)
  obtain ⟨p, hp, hlabel⟩ := List.mem_map.1 (List.mem_eraseDups.1 hkey)
  have hp' : p.place = place := Place.label_injective (Scalar.str.inj hlabel)
  have hname : Scalar.str p.name ∈ namesIn params place :=
    List.mem_eraseDups.2 (List.mem_map.2 ⟨p, List.mem_filter.2 ⟨hp, by simp [hp']⟩, rfl⟩)
  rw [← h.names] at hname
  intro hempty
  rw [hempty] at hname
  cases hname

/-- **One call** passes the parameters that are selected for it. -/
theorem passes_of_render {body : Option Value} {streaming : Bool}
    (h : (render params body streaming).outcome = .ok call) :
    Passes params body streaming call := by
  unfold render at h
  rw [Logged.outcome_bind] at h
  obtain ⟨groups, hgroups, heq⟩ := Outcome.bind_eq_ok_iff.1 h
  have hsound : Groups params groups := Groups.nil.passAll hgroups
  have hcall : call = groups ++ ending body streaming := by
    cases heq
    exact List.append_assoc _ _ _
  have hplaces : ∀ key, (∀ place : Place, place.label ≠ key) → groups.get? key = none := by
    refine fun key hkey => Members.get?_eq_none_iff.2 fun m hm heq => ?_
    have hmem : m.1 ∈ placesOf params := hsound.keys ▸ List.mem_map_of_mem hm
    obtain ⟨p, -, hlabel⟩ := List.mem_map.1 (List.mem_eraseDups.1 hmem)
    exact hkey p.place (Scalar.str.inj (hlabel.trans heq))
  subst hcall
  constructor
  · intro place name v
    rw [(group_append_ending groups body streaming place).2]
    exact hsound.argument place name v
  · rw [List.map_append, hsound.keys, map_fst_ending, List.append_assoc]
  · intro place
    rw [(group_append_ending groups body streaming place).2]
    exact hsound.names place
  · intro place v hv
    obtain ⟨hget, hgroup⟩ := group_append_ending groups body streaming place
    rw [hget] at hv
    rw [hgroup]
    exact ⟨hsound.isMap place v hv, hsound.group_ne_nil hv⟩
  · rw [Members.get?_append, hplaces "body" fun place => place.label_ne.1, get?_ending]
    rfl
  · rw [Members.get?_append, hplaces "parse_as" fun place => place.label_ne.2, get?_ending]
    rfl

/-! ## All calls -/

variable {requestBody : Option Body} {streaming : Bool}

theorem mem_allParameters : p ∈ allParameters params ↔ p ∈ params := by
  unfold allParameters
  rw [List.mem_append, List.mem_filter, List.mem_filter]
  cases p.required <;> simp

theorem hasExample_of_examples {calls : List Members}
    (h : (examples params requestBody streaming).outcome = .ok calls) :
    (∀ b ∈ requestBody, HasExample (.ofBody b)) ∧ ∀ p ∈ params, HasExample (.ofParameter p) := by
  obtain ⟨body, hbody, hcalls⟩ := exists_renderAll_of_examples h
  constructor
  · rintro b rfl
    cases hbody with
    | some hv => exact ⟨_, hv⟩
  · -- the first call passes all parameters
    obtain ⟨first, -, hfirst, -, -⟩ := List.forall₂_cons_left_iff.1 (renders_of_renderAll hcalls)
    obtain ⟨groups, hgroups⟩ := exists_render_iff.1 ⟨first, hfirst⟩
    intro p hp
    exact hasExample_of_passAll hgroups p (mem_allParameters.2 hp)

theorem exists_examples (hbody : ∀ b ∈ requestBody, HasExample (.ofBody b))
    (hparams : ∀ p ∈ params, HasExample (.ofParameter p)) (streaming : Bool) :
    ∃ calls, (examples params requestBody streaming).outcome = .ok calls := by
  cases hcalls : (examples params requestBody streaming).outcome with
  | ok calls => exact ⟨calls, rfl⟩
  | error fault =>
    obtain ⟨s, hreached, hfault⟩ := outcome_examples_eq_error_iff.1 hcalls
    have hexample : HasExample s := by
      rcases List.mem_append.1 hreached.mem with hmem | hmem
      · obtain ⟨b, hb, rfl⟩ := List.mem_map.1 hmem
        exact hbody b (Option.mem_toList.1 hb)
      · obtain ⟨p, hp, rfl⟩ := List.mem_map.1 hmem
        exact hparams p (mem_allParameters.1 hp)
    obtain ⟨v, hv⟩ := hexample
    rw [hv] at hfault
    cases hfault

theorem examples_eq_error_iff {fault : Fault} :
    (examples params requestBody streaming).outcome = .error fault ↔
      (∃ b ∈ requestBody, (Subject.ofBody b).Lacks fault) ∨
        (∀ b ∈ requestBody, HasExample (.ofBody b)) ∧
          ∃ p, Reached (fun q => HasExample (.ofParameter q)) (allParameters params) p ∧
            (Subject.ofParameter p).Lacks fault := by
  have hparams : (∃ s, Reached HasExample ((allParameters params).map Subject.ofParameter) s ∧
      s.sample.outcome = .error fault) ↔
      ∃ p, Reached (fun q => HasExample (.ofParameter q)) (allParameters params) p ∧
        (Subject.ofParameter p).Lacks fault := by
    simp only [Reached.map_iff, Subject.lacks_iff]
    constructor
    · rintro ⟨_, ⟨p, hp, rfl⟩, hfault⟩
      exact ⟨p, hp, hfault⟩
    · rintro ⟨p, hp, hfault⟩
      exact ⟨_, ⟨p, hp, rfl⟩, hfault⟩
  rw [outcome_examples_eq_error_iff, subjects]
  cases requestBody with
  | none => simpa using hparams
  | some b =>
    rw [Option.toList_some, List.map_singleton, List.singleton_append, Reached.exists_cons_iff,
      hparams, ← Subject.lacks_iff]
    simp

/-- **Example calls, exactly.** There are example calls just when the body, if there is one, and all
parameters have examples. The first call passes all parameters, the required ones in front; each
further call passes the required ones and one that is not. Else the fault is that of the body, or of
the first parameter without an example. -/
theorem examples_exact (params : List Parameter) (requestBody : Option Body) (streaming : Bool) :
    let required := params.filter (·.required)
    let optional := params.filter (!·.required)
    ((∃ calls, (examples params requestBody streaming).outcome = .ok calls) ↔
        (∀ b ∈ requestBody, ∃ v, (Subject.ofBody b).Gives v) ∧
          ∀ p ∈ params, ∃ v, (Subject.ofParameter p).Gives v) ∧
      (∀ calls, (examples params requestBody streaming).outcome = .ok calls →
        calls.length = 1 + optional.length ∧
          ∃ body, Option.Rel (fun b v => (Subject.ofBody b).Gives v) requestBody body ∧
            List.Forall₂ (fun selected call => Passes selected body streaming call)
              ((required ++ optional) :: optional.map fun p => required ++ [p]) calls) ∧
      ∀ fault, (examples params requestBody streaming).outcome = .error fault ↔
        (∃ b ∈ requestBody, (Subject.ofBody b).Lacks fault) ∨
          (∀ b ∈ requestBody, ∃ v, (Subject.ofBody b).Gives v) ∧
            ∃ p, Reached (fun q => ∃ v, (Subject.ofParameter q).Gives v) (required ++ optional) p ∧
              (Subject.ofParameter p).Lacks fault := by
  intro required optional
  simp only [← hasExample_iff]
  refine ⟨⟨fun ⟨_, h⟩ => hasExample_of_examples h, fun h => exists_examples h.1 h.2 streaming⟩,
    fun calls h => ?_, fun fault => examples_eq_error_iff⟩
  obtain ⟨body, hbody, hcalls⟩ := exists_renderAll_of_examples h
  simp only [Subject.gives_iff]
  exact ⟨(length_and_suits_of_examples h).1, body, hbody,
    (renders_of_renderAll hcalls).imp fun _ _ => passes_of_render⟩

/-- Of parameters with one name the last one counts, and required ones stand in front. -/
example :
    let limit (required : Bool) (n : Int) : Parameter :=
      ⟨"limit", .query, required, [], .int n, none, ""⟩
    (examples [limit false 1, limit true 2, limit false 3] none true).outcome =
      .ok ([3, 1, 3].map fun n =>
        [(.str "query", .map [(.str "limit", .int n)]), (.str "parse_as", .str "stream")]) := rfl

end Call

end EndpointAtlas
