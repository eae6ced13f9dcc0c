import EndpointAtlas.Proofs.Endpoint.Parameter

/-!
# Parameters that override shared ones

An operation's own parameters win over those that its path item shares. Which of these they override
is decided by name and place as they are written (`overrides`); a parameter is read with the query
as its place where it gives none, and bytes count as a text (`readsAs?`).

1. `described_merge`: the shared parameters that are not overridden stay, in front of all own ones.
2. `overrides_iff`: an own parameter that can be read overrides what is written as it is.
3. `readsAs?_eq_iff`: two parameters are read as one and yet both stay just when they are written in
   different ways (`WrittenApart`).
4. `ofValues_merge`: what this comes to for the parameters of an operation.
-/

namespace EndpointAtlas.Parameter

variable {own shared merged : List Value} {defs : Members}

/-! ## Which parameters are overridden -/

/-- Whether two values are one key. -/
def sameKey : Value → Value → Bool
  | .scalar a, .scalar b => a.same b
  | _, _ => false

/-- Whether own fields override shared ones: the names and the places are one key each, as they are
written. -/
def overrides (own shared : Members) : Bool :=
  sameKey (shared.getD "name") (own.getD "name") && sameKey (shared.getD "in") (own.getD "in")

/-- Whether an own parameter overrides shared fields. -/
def overridden (own : List Value) (fields : Members) : Bool :=
  (described own).any fun o => overrides o fields

/-- The shared parameters that stay. -/
def kept (shared own : List Value) : List Members :=
  (described shared).filter fun fields => !overridden own fields

/-- The shared parameters that are left out. -/
def dropped (shared own : List Value) : List Members :=
  (described shared).filter fun fields => overridden own fields

/-- The identity is that of the parameter with some fields. -/
structure Identity.Of (id : Identity) (fields : Members) : Prop where
  name : fields.getD "name" = .scalar id.name
  place : fields.getD "in" = .scalar id.place

theorem asKey_eq_ok_iff {v : Value} {s : Scalar} : asKey v = .ok s ↔ v = .scalar s := by
  cases v <;> simp [asKey]

theorem described?_of_identity?_none {p : Value} (h : identity? p = .ok none) :
    described? p = none := by
  unfold identity? at h
  split at h
  · next fields =>
    split at h
    · next href => simp [described?, href]
    · obtain ⟨_, -, h⟩ := Outcome.bind_eq_ok_iff.1 h
      obtain ⟨_, -, h⟩ := Outcome.bind_eq_ok_iff.1 h
      cases h
  · next hmap =>
    unfold described?
    split
    · exact absurd rfl (hmap _)
    · rfl

theorem exists_of_identity? {p : Value} {id : Identity} (h : identity? p = .ok (some id)) :
    ∃ fields, described? p = some fields ∧ id.Of fields := by
  unfold identity? at h
  split at h
  · next fields =>
    split at h
    · cases h
    · next href =>
      obtain ⟨name, hname, h⟩ := Outcome.bind_eq_ok_iff.1 h
      obtain ⟨place, hplace, h⟩ := Outcome.bind_eq_ok_iff.1 h
      cases h
      exact ⟨fields, by simp [described?, href], asKey_eq_ok_iff.1 hname, asKey_eq_ok_iff.1 hplace⟩
  · cases h

theorem forall₂_of_identities {ps : List Value} {ids : List Identity}
    (h : identities ps = .ok ids) : List.Forall₂ Identity.Of ids (described ps) := by
  induction ps generalizing ids with
  | nil => cases h; exact .nil
  | cons p rest ih =>
    rw [identities] at h
    obtain ⟨id?, hid, h⟩ := Outcome.bind_eq_ok_iff.1 h
    cases id? with
    | none =>
      rw [described, List.filterMap_cons_none (described?_of_identity?_none hid)]
      exact ih h
    | some id =>
      obtain ⟨fields, hfields, hof⟩ := exists_of_identity? hid
      obtain ⟨others, hothers, h⟩ := Outcome.bind_eq_ok_iff.1 h
      cases h
      rw [described, List.filterMap_cons_some hfields]
      exact .cons hof (ih hothers)

theorem any_same_eq_overridden {taken : List Identity} {id : Identity} {fields : Members}
    (htaken : List.Forall₂ Identity.Of taken (described own)) (hid : id.Of fields) :
    taken.any id.same = overridden own fields := by
  unfold overridden
  generalize described own = others at htaken
  induction htaken with
  | nil => rfl
  | cons hof _ ih =>
    simp only [List.any_cons, ih]
    simp [overrides, Identity.same, sameKey, hid.name, hid.place, hof.name, hof.place]

theorem described_of_without {taken : List Identity} {ps rest : List Value}
    (htaken : List.Forall₂ Identity.Of taken (described own)) (h : without taken ps = .ok rest) :
    described rest = kept ps own := by
  induction ps generalizing rest with
  | nil => cases h; rfl
  | cons p others ih =>
    rw [without] at h
    obtain ⟨id?, hid, h⟩ := Outcome.bind_eq_ok_iff.1 h
    cases id? with
    | none =>
      have hnone := described?_of_identity?_none hid
      obtain ⟨left, hleft, h⟩ := Outcome.bind_eq_ok_iff.1 h
      cases h
      simp only [kept, described, List.filterMap_cons_none hnone] at ih ⊢
      exact ih hleft
    | some id =>
      obtain ⟨fields, hfields, hof⟩ := exists_of_identity? hid
      have hany := any_same_eq_overridden htaken hof
      simp only [kept, described, List.filterMap_cons_some hfields, List.filter_cons] at ih ⊢
      dsimp only at h
      split at h
      · next htrue =>
        rw [hany] at htrue
        simpa [htrue] using ih h
      · next hfalse =>
        rw [hany, Bool.not_eq_true] at hfalse
        obtain ⟨left, hleft, h⟩ := Outcome.bind_eq_ok_iff.1 h
        cases h
        simpa [hfalse, List.filterMap_cons_some hfields] using ih hleft

/-- **Merging** keeps the shared parameters that are not overridden and all own ones. -/
theorem described_merge (h : merge shared own = .ok merged) :
    described merged = kept shared own ++ described own := by
  obtain ⟨taken, htaken, h⟩ := Outcome.bind_eq_ok_iff.1 h
  obtain ⟨rest, hrest, h⟩ := Outcome.bind_eq_ok_iff.1 h
  cases h
  rw [described, List.filterMap_append]
  exact congrArg (· ++ described own) (described_of_without (forall₂_of_identities htaken) hrest)

/-! ## How parameters are read -/

/-- The name and the place with which fields are read, if they can be. -/
def readsAs? (fields : Members) : Option (String × Place) :=
  match Check.text (fields.getD "name"), Check.place ((fields.get? "in").getD (.str "query")) with
  | .ok name, .ok place => some (name, place)
  | _, _ => none

theorem readsAs?_eq_some_iff {fields : Members} {name : String} {place : Place} :
    readsAs? fields = some (name, place) ↔ Check.text (fields.getD "name") = .ok name ∧
      Check.place ((fields.get? "in").getD (.str "query")) = .ok place := by
  unfold readsAs?
  split
  · next hname hplace => simp [hname, hplace]
  · next hnot =>
    refine ⟨nofun, fun ⟨hname, hplace⟩ => (hnot _ _ hname hplace).elim⟩

/-- A value is a text given in bytes. -/
def InBytes (v : Value) : Prop := ∃ bs, v = .scalar (.bytes bs)

theorem text_cases {v : Value} {s : String} (h : Check.text v = .ok s) :
    v = .str s ∨ InBytes v := by
  unfold Check.text at h
  split at h
  · cases h; exact .inl rfl
  · next bs => exact .inr ⟨bs, rfl⟩
  · cases h

theorem place_eq_ok_iff {v : Value} {place : Place} :
    Check.place v = .ok place ↔ v = .str place.label := by
  constructor
  · intro h
    unfold Check.place at h
    split at h <;> cases h <;> rfl
  · rintro rfl
    cases place <;> rfl

/-- A place that can be read is left out or stands there by its name. -/
theorem place_cases {fields : Members} {place : Place}
    (h : Check.place ((fields.get? "in").getD (.str "query")) = .ok place) :
    (fields.get? "in" = none ∧ place = .query) ∨ fields.get? "in" = some (.str place.label) := by
  rw [place_eq_ok_iff] at h
  cases hin : fields.get? "in" with
  | none =>
    rw [hin] at h
    refine .inl ⟨rfl, ?_⟩
    cases place <;> simp [Place.label] at h ⊢
  | some v =>
    rw [hin] at h
    exact .inr (congrArg some h)

/-- A key that is null, a text or in bytes is one with no other key. -/
theorem sameKey_iff {v w : Value} (h : w = .null ∨ (∃ s, w = .str s) ∨ InBytes w) :
    sameKey v w = true ↔ v = w := by
  cases v with
  | scalar a =>
    rcases h with rfl | ⟨s, rfl⟩ | ⟨bs, rfl⟩ <;>
      cases a <;> simp [sameKey, Scalar.same, Scalar.toInt?]
    -- a number with a fraction is left, and has no integer to be compared with
    all_goals next x => cases x.toInt? <;> rfl
  | _ => rcases h with rfl | ⟨s, rfl⟩ | ⟨bs, rfl⟩ <;> simp [sameKey]

/-- **Overriding.** An own parameter that can be read overrides what has its name and place as they
are written. -/
theorem overrides_iff {o s : Members} {r : String × Place} (h : readsAs? o = some r) :
    overrides o s = true ↔ s.getD "name" = o.getD "name" ∧ s.getD "in" = o.getD "in" := by
  obtain ⟨hname, hplace⟩ := readsAs?_eq_some_iff.1 h
  unfold overrides
  rw [Bool.and_eq_true, sameKey_iff, sameKey_iff]
  · rcases place_cases hplace with ⟨hin, -⟩ | hin
    · exact .inl (by simp [Members.getD, hin])
    · exact .inr (.inl ⟨_, by simp [Members.getD, hin]; rfl⟩)
  · rcases text_cases hname with htext | hbytes
    · exact .inr (.inl ⟨_, htext⟩)
    · exact .inr (.inr hbytes)

/-- Two parameters are read as one and written in different ways: one leaves out the place that the
other has, or one has its name in bytes. -/
structure WrittenApart (s o : Members) : Prop where
  reads : readsAs? s = readsAs? o
  apart : (s.get? "in" = none ∧ o.get? "in" = some (.str "query")) ∨
    (s.get? "in" = some (.str "query") ∧ o.get? "in" = none) ∨
    (s.getD "name" ≠ o.getD "name" ∧ (InBytes (s.getD "name") ∨ InBytes (o.getD "name")))

/-- **Both stay.** A shared parameter that is not overridden is read as an own one just when they
are written in different ways. -/
theorem readsAs?_eq_iff {s o : Members} {r : String × Place} (ho : readsAs? o = some r)
    (hkept : overrides o s = false) : readsAs? s = readsAs? o ↔ WrittenApart s o := by
  refine ⟨fun heq => ⟨heq, ?_⟩, WrittenApart.reads⟩
  obtain ⟨hname, hplace⟩ := readsAs?_eq_some_iff.1 ho
  obtain ⟨hname', hplace'⟩ := readsAs?_eq_some_iff.1 (heq.trans ho)
  have hdiffer : s.getD "name" = o.getD "name" → s.getD "in" ≠ o.getD "in" := by
    intro hn hp
    rw [(overrides_iff ho).2 ⟨hn, hp⟩] at hkept
    cases hkept
  by_cases hn : s.getD "name" = o.getD "name"
  · have hp := hdiffer hn
    rcases place_cases hplace with ⟨hin, hquery⟩ | hin <;>
      rcases place_cases hplace' with ⟨hin', hquery'⟩ | hin'
    · simp [Members.getD, hin, hin'] at hp
    · rw [hquery] at hin'
      exact .inr (.inl ⟨hin', hin⟩)
    · rw [hquery'] at hin
      exact .inl ⟨hin', hin⟩
    · simp [Members.getD, hin, hin'] at hp
  · refine .inr (.inr ⟨hn, ?_⟩)
    rcases text_cases hname with htext | hbytes
    · rcases text_cases hname' with htext' | hbytes'
      · exact absurd (htext'.trans htext.symm) hn
      · exact .inl hbytes'
    · exact .inr hbytes

theorem readsAs?_of_null {s : Members} (h : s.get? "in" = some .null) : readsAs? s = none := by
  unfold readsAs?
  rw [h]
  split
  · next hplace => cases hplace
  · rfl

/-- **Left out for a reason.** A shared parameter that is overridden is read as the own one, unless
its place is null. -/
theorem readsAs?_eq_of_overrides {s o : Members} {r : String × Place} (ho : readsAs? o = some r)
    (h : overrides o s = true) (hnull : s.get? "in" ≠ some .null) : readsAs? o = readsAs? s := by
  obtain ⟨hname, hplace⟩ := (overrides_iff ho).1 h
  have hin : s.get? "in" = o.get? "in" := by
    unfold Members.getD at hplace
    have hplace' := (readsAs?_eq_some_iff.1 ho).2
    cases hs : s.get? "in" with
    | none =>
      rcases place_cases hplace' with ⟨hin, -⟩ | hin
      · exact hin.symm
      · rw [hs, hin] at hplace
        cases hplace
    | some v =>
      have hv : v = (o.get? "in").getD .null := by rwa [hs] at hplace
      rcases place_cases hplace' with ⟨hin, -⟩ | hin
      · -- without a place of the own one, that of the shared one would be null
        rw [hin] at hv
        exact absurd (hs.trans (congrArg some hv)) hnull
      · rw [hin] at hv ⊢
        exact congrArg some hv
  unfold readsAs?
  rw [hname, hin]

/-! ## The parameters of an operation -/

theorem Describes.readsAs? {fields : Members} {p : Parameter} (h : Describes defs fields p) :
    readsAs? fields = some (p.name, p.place) :=
  readsAs?_eq_some_iff.2 ⟨h.name, h.place⟩

/-- Parameters have one name and place just when the fields that describe them are read as one. -/
theorem exists_same_iff {ss os : List Members} {ps qs : List Parameter}
    (hs : List.Forall₂ (Describes defs) ss ps) (ho : List.Forall₂ (Describes defs) os qs) :
    (∃ p ∈ ps, ∃ q ∈ qs, p.name = q.name ∧ p.place = q.place) ↔
      ∃ s ∈ ss, ∃ o ∈ os, Parameter.readsAs? s = Parameter.readsAs? o := by
  constructor
  · rintro ⟨p, hp, q, hq, hname, hplace⟩
    obtain ⟨s, hmem, hsp⟩ := Outcome.exists_of_forall₂ hs hp
    obtain ⟨o, hmem', hoq⟩ := Outcome.exists_of_forall₂ ho hq
    refine ⟨s, hmem, o, hmem', ?_⟩
    rw [hsp.readsAs?, hoq.readsAs?, hname, hplace]
  · rintro ⟨s, hmem, o, hmem', hreads⟩
    obtain ⟨p, hp, hsp⟩ := Outcome.exists_of_forall₂ hs.flip hmem
    obtain ⟨q, hq, hoq⟩ := Outcome.exists_of_forall₂ ho.flip hmem'
    rw [hsp.readsAs?, hoq.readsAs?, Option.some.injEq, Prod.mk.injEq] at hreads
    exact ⟨p, hp, q, hq, hreads⟩

/-- What the parameters of an operation come from. One of a shared entry has name and place of an
own one just when the two are written in different ways; and an entry is left out for an own one
that is read as it is, unless its place is null. -/
structure Joins (defs : Members) (shared own : List Value) (fromShared fromOwn : List Parameter) :
    Prop where
  stays : List.Forall₂ (Describes defs) (kept shared own) fromShared
  owns : List.Forall₂ (Describes defs) (described own) fromOwn
  alike : (∃ p ∈ fromShared, ∃ q ∈ fromOwn, p.name = q.name ∧ p.place = q.place) ↔
    ∃ s ∈ kept shared own, ∃ o ∈ described own, WrittenApart s o
  leftOut : ∀ s ∈ dropped shared own,
    (∃ o ∈ described own, readsAs? o = readsAs? s) ↔ s.get? "in" ≠ some .null

/-- **The parameters of an operation** are those described by the shared entries that stay, followed
by those described by the own entries, all of them. -/
theorem ofValues_merge {params : List Parameter} (hmerge : merge shared own = .ok merged)
    (hparams : (ofValues defs merged).outcome = .ok params) :
    ∃ fromShared fromOwn, params = fromShared ++ fromOwn ∧
      Joins defs shared own fromShared fromOwn := by
  have hdescribed := (outcome_ofValues_eq_ok_iff.1 hparams).2
  rw [described_merge hmerge] at hdescribed
  have hshared := List.forall₂_take (kept shared own).length hdescribed
  have hown := List.forall₂_drop (kept shared own).length hdescribed
  rw [List.take_left] at hshared
  rw [List.drop_left] at hown
  have hread : ∀ o ∈ described own, ∃ r, readsAs? o = some r := by
    intro o ho
    obtain ⟨q, -, hq⟩ := Outcome.exists_of_forall₂ hown.flip ho
    exact ⟨_, hq.readsAs?⟩
  refine ⟨_, _, (List.take_append_drop _ _).symm, hshared, hown, ?_, ?_⟩
  · rw [exists_same_iff hshared hown]
    refine exists_congr fun s => and_congr_right fun hs => exists_congr fun o =>
      and_congr_right fun ho => ?_
    obtain ⟨r, hr⟩ := hread o ho
    have hnot : overridden own s = false := by simpa using (List.mem_filter.1 hs).2
    exact readsAs?_eq_iff hr (by simpa using List.any_eq_false.1 hnot o ho)
  · intro s hs
    obtain ⟨o, ho, hover⟩ := List.any_eq_true.1 (List.mem_filter.1 hs).2
    obtain ⟨r, hr⟩ := hread o ho
    constructor
    · rintro ⟨o', ho', heq⟩ hnull
      obtain ⟨r', hr'⟩ := hread o' ho'
      rw [hr', readsAs?_of_null hnull] at heq
      cases heq
    · exact fun hnull => ⟨o, ho, readsAs?_eq_of_overrides hr hover hnull⟩

/-- Parameters that a path item shares: one without a place and one with it. -/
def pageParameters : List Value :=
  [.map [(.str "name", .str "q")],
    .map [(.str "name", .str "page"), (.str "in", .str "query")]]

/-- The own parameters of an operation under the path item, of the same names. -/
def searchParameters : List Value :=
  [.map [(.str "name", .str "q"), (.str "in", .str "query")],
    .map [(.str "name", .str "page"), (.str "in", .str "query"), (.str "required", .bool true)]]

/-- A parameter in the query that takes any value. -/
def queryParameter (name : String) (required : Bool) : Parameter :=
  ⟨name, .query, required, [], .null, none, ""⟩

/-- The page is overridden, and what is searched for is there twice. -/
theorem ofValues_merge_searchParameters :
    merge pageParameters searchParameters =
        .ok (.map [(.str "name", .str "q")] :: searchParameters) ∧
      (ofValues [] (.map [(.str "name", .str "q")] :: searchParameters)).outcome =
        .ok [queryParameter "q" false, queryParameter "q" false, queryParameter "page" true] ∧
      ∃ fromShared fromOwn,
        [queryParameter "q" false, queryParameter "q" false, queryParameter "page" true] =
            fromShared ++ fromOwn ∧
          Joins [] pageParameters searchParameters fromShared fromOwn := by
  have hmerge : merge pageParameters searchParameters =
      .ok (.map [(.str "name", .str "q")] :: searchParameters) := rfl
  have hparams : (ofValues [] (.map [(.str "name", .str "q")] :: searchParameters)).outcome =
      .ok [queryParameter "q" false, queryParameter "q" false, queryParameter "page" true] := rfl
  exact ⟨hmerge, hparams, ofValues_merge hmerge hparams⟩

/-- An own parameter does not override a shared one of its name and place in all cases. -/
theorem not_overridden_placeLeftOut :
    ¬ ∀ (defs : Members) (shared own merged : List Value) (params : List Parameter),
      merge shared own = .ok merged → (ofValues defs merged).outcome = .ok params →
        ∀ s ∈ kept shared own, ∀ o ∈ described own, ∀ p q, Describes defs s p →
          Describes defs o q → ¬ (p.name = q.name ∧ p.place = q.place) := by
  intro h
  exact h [] pageParameters searchParameters _ _ rfl rfl _ List.mem_cons_self _ List.mem_cons_self
    (queryParameter "q" false) (queryParameter "q" false) ⟨rfl, rfl, rfl, rfl, rfl, rfl, rfl⟩
    ⟨rfl, rfl, rfl, rfl, rfl, rfl, rfl⟩ ⟨rfl, rfl⟩

end EndpointAtlas.Parameter
