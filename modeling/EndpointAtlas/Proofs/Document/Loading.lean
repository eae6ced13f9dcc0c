import EndpointAtlas.Command.Run
import EndpointAtlas.Document.Directory
import EndpointAtlas.Proofs.Outcome
import EndpointAtlas.Proofs.Text.Encoding
import EndpointAtlas.Proofs.Yaml.Faults

/-!
# Faults of loading

A document that cannot be loaded is told by a fault of the document or of a file, and a command
shows these. Some sources give other faults (`Unloadable`), which end the program as they are: an
address that is none, a path that no file can have, and a file whose content cannot be read, be it
for its bytes or for a scalar.

1. `FilePath.isUsable_ofText_iff`: which paths a file can have.
2. `Document.failsOtherwise_load_iff`: which sources give other faults, from contents, files and
   replies to the document.
3. `Invocation.ending_run_of_load`: what a command makes of a fault of loading.
4. `Document.load_fails_otherwise_iff`: both in one.
-/

namespace EndpointAtlas

/-! ## Paths that a file can have -/

theorem Text.exists_mem_splitOn_iff {separator c : Char} (h : c ≠ separator) (cs : List Char) :
    (∃ part ∈ splitOn separator cs, c ∈ part) ↔ c ∈ cs := by
  induction cs with
  | nil => simp [splitOn]
  | cons d rest ih =>
    rw [splitOn]
    cases hsplit : splitOn separator rest with
    | nil =>
      have hlength := length_splitOn separator rest
      rw [hsplit] at hlength
      cases hlength
    | cons part parts =>
      rw [hsplit, List.exists_mem_cons_iff] at ih
      dsimp only
      split
      · next hd =>
        have hne : c ≠ d := hd ▸ h
        rw [List.exists_mem_cons_iff, List.exists_mem_cons_iff, ih, List.mem_cons]
        simp [hne]
      · rw [List.exists_mem_cons_iff, List.mem_cons, List.mem_cons, or_assoc, ih]

theorem FilePath.isUsable_ofText_iff {s : String} :
    (FilePath.ofText s).isUsable = true ↔ '\x00' ∉ s.toList := by
  rw [← Text.exists_mem_splitOn_iff (show '\x00' ≠ '/' by decide)]
  simp only [isUsable, ofText, List.all_map, List.all_eq_true, List.mem_filter, not_exists,
    Function.comp_apply, String.toList_ofList, List.contains_eq_mem, Bool.not_eq_true',
    decide_eq_false_iff_not, decide_eq_true_eq, not_and]
  constructor
  · intro h part hpart hmem
    refine h part ⟨hpart, ?_, ?_⟩ hmem
    · rintro rfl
      cases hmem
    · rintro rfl
      cases List.mem_singleton.1 hmem
  · exact fun h part hpart => h part hpart.1

/-! ## Faults that say that a document cannot be loaded -/

/-- A fault that says that a document cannot be loaded. -/
def Fault.IsLoadError : Fault → Prop
  | .document _ => True
  | .file _ => True
  | _ => False

/-- A result is a fault of another kind than those that say that a document cannot be loaded. -/
def FailsOtherwise {α : Type} (x : Except Fault α) (fault : Fault) : Prop :=
  x = .error fault ∧ ¬ fault.IsLoadError

section

variable {α β : Type} {fault other : Fault}

theorem not_failsOtherwise_ok {a : α} : ¬ FailsOtherwise (.ok a) fault := by
  rintro ⟨herror, -⟩
  cases herror

theorem not_failsOtherwise_of_isLoadError (h : other.IsLoadError) :
    ¬ FailsOtherwise (.error other : Except Fault α) fault := by
  rintro ⟨herror, hother⟩
  cases herror
  exact hother h

theorem failsOtherwise_error_iff (h : ¬ other.IsLoadError) :
    FailsOtherwise (.error other : Except Fault α) fault ↔ fault = other := by
  constructor
  · rintro ⟨herror, -⟩
    cases herror
    rfl
  · rintro rfl
    exact ⟨rfl, h⟩

theorem failsOtherwise_bind_iff {x : Except Fault α} {f : α → Except Fault β} :
    FailsOtherwise (x >>= f) fault ↔
      FailsOtherwise x fault ∨ ∃ a, x = .ok a ∧ FailsOtherwise (f a) fault := by
  unfold FailsOtherwise
  rw [Outcome.bind_eq_error_iff, or_and_right, ← exists_and_right]
  simp only [and_assoc]

end

namespace Document

variable {s : Surroundings} {source : String} {content : List UInt8} {fault : Fault}

/-! ## Contents -/

/-- A content of a file cannot be read: its bytes are not UTF-8, or its text fails with a scalar. -/
inductive Unreadable (content : List UInt8) : Fault → Prop
  | bytes (notText : ∀ cs, content ≠ Text.encode cs) : Unreadable content .undecodable
  | scalar {cs : List Char} {e : ScalarError} (isText : content = Text.encode cs)
      (fails : Yaml.FailsWithScalar (plainLines cs) e) : Unreadable content (.scalar e)

theorem failsOtherwise_ofContent_iff {path : FilePath} :
    FailsOtherwise (ofContent path content) fault ↔ Unreadable content fault := by
  unfold ofContent
  cases htext : Text.decode content with
  | none =>
    have hbytes (cs : List Char) : content ≠ Text.encode cs := by
      rintro rfl
      rw [Text.decode_encode] at htext
      cases htext
    rw [failsOtherwise_error_iff id]
    constructor
    · rintro rfl
      exact .bytes hbytes
    · rintro (- | ⟨hcontent, -⟩)
      · rfl
      · exact absurd hcontent (hbytes _)
  | some cs =>
    obtain rfl := Text.decode_eq_some_iff.1 htext
    have hscalar : Unreadable (Text.encode cs) fault ↔
        ∃ e, Yaml.read (plainLines cs) = .error (.scalar e) ∧ fault = .scalar e := by
      constructor
      · rintro (hbytes | ⟨hcontent, hfails⟩)
        · exact absurd rfl (hbytes cs)
        · have hcs := Text.decode_encode cs
          rw [hcontent, Text.decode_encode] at hcs
          cases hcs
          exact ⟨_, Yaml.read_eq_scalar_iff.2 hfails, rfl⟩
      · rintro ⟨e, hread, rfl⟩
        exact .scalar rfl (Yaml.read_eq_scalar_iff.1 hread)
    rw [hscalar]
    dsimp only
    cases hread : Yaml.read (plainLines cs) with
    | ok v =>
      refine iff_of_false not_failsOtherwise_ok ?_
      rintro ⟨e, h, -⟩
      cases h
    | error e =>
      cases e with
      | malformed =>
        refine iff_of_false (not_failsOtherwise_of_isLoadError trivial) ?_
        rintro ⟨e, h, -⟩
        cases h
      | scalar e =>
        dsimp only
        rw [failsOtherwise_error_iff id]
        constructor
        · rintro rfl
          exact ⟨e, rfl, rfl⟩
        · rintro ⟨e, h, rfl⟩
          cases h
          rfl

/-! ## Sources -/

/-- A source cannot be loaded, for another reason than that a document is missing or malformed: the
source is taken for an address and is none, no file can have its path, or the content of the file
cannot be read. -/
inductive Unloadable (s : Surroundings) (source : String) : Fault → Prop
  | address (url : isUrl source = true)
      (refused : s.fetch source = .invalidUrl ∨
        (∃ status body, s.fetch source = .page status body) ∧
          Address.ofText? source.toList = none) : Unloadable s source .invalidUrl
  | path (file : isUrl source = false) (nul : '\x00' ∈ source.toList) :
      Unloadable s source .unusablePath
  | content {content : List UInt8} {fault : Fault} (file : isUrl source = false)
      (noNul : '\x00' ∉ source.toList) (read : s.read (FilePath.ofText source) = .ok content)
      (unreadable : Unreadable content fault) : Unloadable s source fault

theorem failsOtherwise_document_iff {reply : Reply} :
    FailsOtherwise (reply.document source) fault ↔
      (reply = .invalidUrl ∨
        (∃ status body, reply = .page status body) ∧ Address.ofText? source.toList = none) ∧
      fault = .invalidUrl := by
  cases reply with
  | invalidUrl => exact (failsOtherwise_error_iff id).trans (by simp)
  | failed reason =>
    refine iff_of_false ?_ (by simp)
    exact not_failsOtherwise_of_isLoadError trivial
  | page status body =>
    unfold Reply.document
    cases haddress : Address.ofText? source.toList with
    | none => exact (failsOtherwise_error_iff id).trans (by simp)
    | some address =>
      refine iff_of_false ?_ (by simp)
      dsimp only
      split
      · split
        · exact not_failsOtherwise_ok
        · exact not_failsOtherwise_of_isLoadError trivial
      · exact not_failsOtherwise_of_isLoadError trivial

theorem failsOtherwise_ofFile_iff :
    FailsOtherwise (ofFile s (FilePath.ofText source)) fault ↔
      ('\x00' ∈ source.toList ∧ fault = .unusablePath) ∨
      ('\x00' ∉ source.toList ∧ ∃ content, s.read (FilePath.ofText source) = .ok content ∧
        Unreadable content fault) := by
  unfold ofFile
  by_cases hnul : '\x00' ∈ source.toList
  · rw [if_neg (fun h => FilePath.isUsable_ofText_iff.1 h hnul), failsOtherwise_error_iff id]
    simp [hnul]
  · rw [if_pos (FilePath.isUsable_ofText_iff.2 hnul), failsOtherwise_bind_iff, or_iff_right]
    · simp only [Outcome.mapError_eq_ok_iff, failsOtherwise_ofContent_iff]
      simp [hnul]
    · rintro ⟨herror, hother⟩
      cases hread : s.read (FilePath.ofText source) with
      | ok content => rw [hread] at herror; cases herror
      | error e =>
        rw [hread] at herror
        cases herror
        exact hother trivial

theorem failsOtherwise_ofSource_iff :
    FailsOtherwise (ofSource s source).outcome fault ↔ Unloadable s source fault := by
  unfold ofSource
  cases hurl : isUrl source with
  | true =>
    rw [if_pos rfl, Logged.outcome_bind]
    change FailsOtherwise ((s.fetch source).document source) fault ↔ _
    rw [failsOtherwise_document_iff]
    constructor
    · rintro ⟨hrefused, rfl⟩
      exact .address hurl hrefused
    · intro h
      cases h with
      | address _ hrefused => exact ⟨hrefused, rfl⟩
      | path hfile => rw [hurl] at hfile; cases hfile
      | content hfile => rw [hurl] at hfile; cases hfile
  | false =>
    rw [if_neg Bool.false_ne_true, Logged.outcome_ofExcept, failsOtherwise_ofFile_iff]
    constructor
    · rintro (⟨hnul, rfl⟩ | ⟨hnul, content, hread, hunreadable⟩)
      · exact .path hurl hnul
      · exact .content hurl hnul hread hunreadable
    · intro h
      cases h with
      | address hfetched => rw [hurl] at hfetched; cases hfetched
      | path _ hnul => exact .inl ⟨hnul, rfl⟩
      | content _ hnul hread hunreadable => exact .inr ⟨hnul, _, hread, hunreadable⟩

theorem failsOtherwise_load_iff :
    FailsOtherwise (load s source).outcome fault ↔ Unloadable s source fault := by
  rw [load, Logged.outcome_bind, failsOtherwise_bind_iff, failsOtherwise_ofSource_iff,
    or_iff_left]
  -- a value that is no mapping is told to be no document, which is a load error
  have hother : ¬ FailsOtherwise
      (.error (.document (.notADescription source)) : Except Fault Members) fault :=
    not_failsOtherwise_of_isLoadError trivial
  rintro ⟨v, -, hmembers⟩
  cases v with
  | map members => exact not_failsOtherwise_ok hmembers
  | _ => exact hother hmembers

end Document

/-! ## Commands -/

namespace Invocation

variable {i : Invocation} {s : Surroundings} {fault : Fault}

theorem ending_stopped (i : Invocation) (log : List Log.Line) (output : String) (fault : Fault) :
    (i.stopped log output fault).ending =
      if fault.shown?.isSome then .refused fault else .aborted fault := by
  unfold stopped
  cases fault.shown? <;> rfl

/-- A fault of loading ends every command. -/
theorem ending_run_of_load (h : (Document.load s i.source).outcome = .error fault) :
    (i.run s).ending = if fault.shown?.isSome then .refused fault else .aborted fault := by
  have htable : (i.table s).outcome = .error fault := by
    rw [table, Logged.outcome_bind, h]
    rfl
  have hschema (make : Members → Logged Fault Value) :
      (i.runSchema s make).ending =
        if fault.shown?.isSome then .refused fault else .aborted fault := by
    unfold runSchema
    dsimp only
    rw [Logged.outcome_bind, h]
    exact ending_stopped ..
  unfold run
  split
  · unfold runEndpoints
    dsimp only
    rw [htable]
    exact ending_stopped ..
  · unfold runCalls
    dsimp only
    rw [htable]
    exact ending_stopped ..
  · exact hschema _
  · exact hschema _

end Invocation

namespace Document

variable {s : Surroundings} {source : String} {fault : Fault}

theorem shown?_eq_none_of_unloadable (h : Unloadable s source fault) : fault.shown? = none := by
  cases h with
  | content _ _ _ hunreadable => cases hunreadable <;> rfl
  | _ => rfl

theorem shown?_isSome_of_isLoadError (h : fault.IsLoadError) : fault.shown?.isSome = true := by
  cases fault with
  | document e => rfl
  | file e => rfl
  | _ => cases h

/-- **Which faults of loading are no load errors.** Loading a source gives a fault that says that
the document cannot be loaded, unless the source is unloadable otherwise. Just then does a command
end with the fault of its source as it is, and shows no message. -/
theorem load_fails_otherwise_iff (s : Surroundings) (source : String) (fault : Fault) :
    ((load s source).outcome = .error fault ∧ ¬ fault.IsLoadError ↔ Unloadable s source fault) ∧
      ∀ i : Invocation, i.source = source →
        ((load s source).outcome = .error fault ∧ (i.run s).ending = .aborted fault ↔
          Unloadable s source fault) := by
  refine ⟨failsOtherwise_load_iff, ?_⟩
  rintro i rfl
  constructor
  · rintro ⟨herror, hending⟩
    refine failsOtherwise_load_iff.1 ⟨herror, fun hload => ?_⟩
    rw [Invocation.ending_run_of_load herror, shown?_isSome_of_isLoadError hload] at hending
    cases hending
  · intro h
    have herror := (failsOtherwise_load_iff.2 h).1
    refine ⟨herror, ?_⟩
    rw [Invocation.ending_run_of_load herror, shown?_eq_none_of_unloadable h]
    rfl

/-- A directory with two files: in one of them a byte starts no character, in the other one there is
a day that its month has not. No address is one. -/
def flawedSources : Surroundings where
  read := Directory.read ⟨[(["bytes.yaml"], Text.encode "a: ".toList ++ [0xFF]),
    (["day.yaml"], Text.encode "example: 2020-02-30\n".toList)]⟩
  write? _ := none
  fetch _ := .invalidUrl

/-- Loading does not always give members or a load error. -/
theorem not_isLoadError_flawedSources :
    (load flawedSources "bytes.yaml").outcome = .error .undecodable ∧
      (load flawedSources "day.yaml").outcome = .error (.scalar .notOfType) ∧
      (load flawedSources "http://127.0.0.1:8000/openapi.json").outcome = .error .invalidUrl ∧
      ¬ ∀ s source, (∃ members, (load s source).outcome = .ok members) ∨
        ∃ fault, (load s source).outcome = .error fault ∧ fault.IsLoadError := by
  have hbytes : (load flawedSources "bytes.yaml").outcome = .error .undecodable := by
    decide +kernel
  refine ⟨hbytes, by decide +kernel, by decide +kernel, fun h => ?_⟩
  rcases h flawedSources "bytes.yaml" with ⟨members, hmembers⟩ | ⟨fault, hfault, hload⟩
  · rw [hbytes] at hmembers
    cases hmembers
  · rw [hbytes] at hfault
    cases hfault
    exact hload

end Document

end EndpointAtlas
