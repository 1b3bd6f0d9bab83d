import LocalizedAccessors.Command.InputCatalog

/-!
# Lenient merges

A lenient merge is a strict merge of those inputs that can be read. One input decides this: if it
can be read, both kinds of merge do the same with it, and if not, a lenient merge goes on with the
catalog that it had. So a key that is defined again is all that a lenient merge can fail for.
-/

namespace LocalizedAccessors

/-- Whether a path leads to a file that can be opened and that holds what its format asks for. -/
def FileSystem.canRead (files : FileSystem) (format : SourceFormat) (path : String) : Bool :=
  (checkInput files path).isOk && (format.readPairs files path).value.isOk

/-- The inputs that can be read, in their order. -/
def InputFiles.readable (inputs : InputFiles) (files : FileSystem) : InputFiles where
  strings := inputs.strings.filter (files.canRead .strings)
  stringsdict := inputs.stringsdict.filter (files.canRead .stringsdict)

theorem InputFiles.ordered_readable (inputs : InputFiles) (files : FileSystem) :
    (inputs.readable files).ordered =
      inputs.ordered.filter fun input ↦ files.canRead input.2 input.1 := by
  simp only [ordered, readable, List.filter_append, List.filter_map]
  rfl

/-- A source that cannot be read on its own does not fail for a key that is defined again. -/
theorem SourceFormat.ne_duplicateKey {format : SourceFormat} {files : FileSystem} {path : String}
    {failure : SourceFailure} (h : (format.readPairs files path).value = .error failure)
    (duplicate : DuplicateKey) : failure ≠ .duplicateKey duplicate := by
  rintro rfl
  unfold readPairs at h
  split at h
  · simp at h
  · cases format with
    | strings =>
      simp only [ofTable] at h
      split at h <;> simp at h
    | stringsdict =>
      simp only [ofPropertyList] at h
      split at h <;> simp at h

namespace Catalog

variable {catalog : Catalog} {files : FileSystem} {path : String} {format : SourceFormat}

/-- The outcome of adding the pairs of an input that was read. -/
def afterAdding (catalog : Catalog) (path : String) (pairs : List (String × String)) :
    Except Failure Catalog :=
  match (catalog.add path pairs).value with
  | (merged, .ok ()) => .ok merged
  | (_, .error duplicate) => .error (.source (.duplicateKey duplicate))

theorem value_addFile_of_error {failure : SourceFailure}
    (h : (format.readPairs files path).value = .error failure) :
    (catalog.addFile files path format).value = (catalog, .error failure) := by
  rw [addFile, Reported.value_bind, h]
  rfl

/-- Strictness makes no difference for an input that can be read. -/
theorem value_mergeInput_of_canRead (catalog : Catalog) (h : files.canRead format path = true) :
    ∃ pairs, (format.readPairs files path).value = .ok pairs ∧
      ∀ strict, (catalog.mergeInput files strict path format).value =
        catalog.afterAdding path pairs := by
  rw [FileSystem.canRead, Bool.and_eq_true] at h
  obtain ⟨hcheck, hread⟩ := h
  cases hpairs : (format.readPairs files path).value with
  | error failure => simp [hpairs, Except.isOk, Except.toBool] at hread
  | ok pairs =>
    refine ⟨pairs, rfl, fun strict ↦ ?_⟩
    have hadded : (catalog.addFile files path format).value =
        ((catalog.add path pairs).value.1,
          (catalog.add path pairs).value.2.mapError .duplicateKey) := by
      rw [addFile, Reported.value_bind, hpairs]
      rfl
    cases hinput : checkInput files path with
    | error fault => simp [hinput, Except.isOk, Except.toBool] at hcheck
    | ok =>
      simp only [mergeInput, hinput, Reported.value_bind, hadded, afterAdding]
      rcases (catalog.add path pairs).value with ⟨merged, _ | _⟩ <;> rfl

/-- An input that cannot be read ends a strict merge, and leaves a lenient one with the catalog that
it had. -/
theorem value_mergeInput_of_not_canRead (catalog : Catalog)
    (h : files.canRead format path = false) :
    ∃ failure, ∀ strict, (catalog.mergeInput files strict path format).value =
      if strict then .error failure else .ok catalog := by
  cases hinput : checkInput files path with
  | error fault =>
    refine ⟨.input fault, fun strict ↦ ?_⟩
    cases strict <;> simp [mergeInput, hinput]
  | ok =>
    cases hpairs : (format.readPairs files path).value with
    | ok pairs =>
      simp [FileSystem.canRead, hinput, hpairs, Except.isOk, Except.toBool] at h
    | error failure =>
      have hduplicate := SourceFormat.ne_duplicateKey hpairs
      refine ⟨.unreadSource path failure, fun strict ↦ ?_⟩
      simp only [mergeInput, hinput, Reported.value_bind, value_addFile_of_error hpairs]
      cases failure with
      | duplicateKey duplicate => exact absurd rfl (hduplicate duplicate)
      | argumentMismatch | unknownFormat | propertyList | storage => cases strict <;> rfl

theorem value_mergeInput_lenient (catalog : Catalog) (h : files.canRead format path = false) :
    (catalog.mergeInput files false path format).value = .ok catalog := by
  obtain ⟨failure, hmerged⟩ := value_mergeInput_of_not_canRead catalog h
  exact hmerged false

theorem value_mergeInputs_cons (strict : Bool) (rest : List (String × SourceFormat)) :
    (catalog.mergeInputs files strict ((path, format) :: rest)).value =
      match (catalog.mergeInput files strict path format).value with
      | .error failure => .error failure
      | .ok merged => (merged.mergeInputs files strict rest).value := by
  rw [mergeInputs, Reported.value_bind]
  split <;> simp [*]

/-- A lenient merge is a strict merge of what can be read. -/
theorem value_mergeInputs_lenient (catalog : Catalog) (inputs : List (String × SourceFormat)) :
    (catalog.mergeInputs files false inputs).value =
      (catalog.mergeInputs files true
        (inputs.filter fun input ↦ files.canRead input.2 input.1)).value := by
  induction inputs generalizing catalog with
  | nil => rfl
  | cons input rest ih =>
    rw [value_mergeInputs_cons]
    cases hread : files.canRead input.2 input.1 with
    | true =>
      obtain ⟨pairs, -, hmerged⟩ := value_mergeInput_of_canRead catalog hread
      rw [List.filter_cons_of_pos (by simpa using hread), value_mergeInputs_cons, hmerged, hmerged]
      cases catalog.afterAdding input.1 pairs with
      | error failure => rfl
      | ok merged => exact ih merged
    | false =>
      rw [List.filter_cons_of_neg (by simpa using hread), value_mergeInput_lenient _ hread]
      exact ih catalog

theorem eq_duplicateKey_of_mergeInputs {inputs : List (String × SourceFormat)} {failure : Failure}
    (h : (catalog.mergeInputs files false inputs).value = .error failure) :
    ∃ duplicate, failure = .source (.duplicateKey duplicate) := by
  induction inputs generalizing catalog with
  | nil => simp [mergeInputs] at h
  | cons input rest ih =>
    rw [value_mergeInputs_cons] at h
    cases hread : files.canRead input.2 input.1 with
    | true =>
      obtain ⟨pairs, -, hmerged⟩ := value_mergeInput_of_canRead catalog hread
      rw [hmerged, afterAdding] at h
      rcases hadd : (catalog.add input.1 pairs).value with ⟨merged, duplicate | _⟩
      · rw [hadd] at h
        exact ⟨duplicate, (Except.error.inj h).symm⟩
      · rw [hadd] at h
        exact ih h
    | false =>
      rw [value_mergeInput_lenient _ hread] at h
      exact ih h

/-- A strict merge that succeeds could read all of its inputs. -/
theorem canRead_of_mergeInputs {inputs : List (String × SourceFormat)} {result : Catalog}
    (h : (catalog.mergeInputs files true inputs).value = .ok result) :
    ∀ input ∈ inputs, files.canRead input.2 input.1 = true := by
  induction inputs generalizing catalog with
  | nil => simp
  | cons input rest ih =>
    rw [value_mergeInputs_cons] at h
    cases hread : files.canRead input.2 input.1 with
    | true =>
      cases hmerged : (catalog.mergeInput files true input.1 input.2).value with
      | error failure => simp [hmerged] at h
      | ok merged =>
        rw [hmerged] at h
        exact List.forall_mem_cons.2 ⟨hread, ih h⟩
    | false =>
      obtain ⟨failure, hfailed⟩ := value_mergeInput_of_not_canRead catalog hread
      simp [hfailed] at h

end Catalog

namespace InputFiles

variable (inputs : InputFiles) (files : FileSystem) (policy : DuplicatePolicy)

theorem readable_eq_self {catalog : Catalog}
    (h : (inputs.catalog files policy true).value = .ok catalog) :
    (inputs.readable files).ordered = inputs.ordered := by
  rw [ordered_readable, List.filter_eq_self]
  exact Catalog.canRead_of_mergeInputs h

/-- A lenient merge comes to what a strict merge of the readable inputs comes to, be it a catalog or
a key that is defined again; it fails for nothing else. An input that cannot be read gives no pair,
and where all can be read the two kinds of merge are the same. -/
theorem catalog_lenient :
    (inputs.catalog files policy false).value =
        ((inputs.readable files).catalog files policy true).value ∧
      (∀ failure, (inputs.catalog files policy false).value = .error failure →
        ∃ duplicate, failure = .source (.duplicateKey duplicate)) ∧
      (∀ catalog : Catalog, ∀ input ∈ inputs.ordered, files.canRead input.2 input.1 = false →
        (catalog.mergeInput files false input.1 input.2).value = .ok catalog) ∧
      ∀ catalog, (inputs.catalog files policy true).value = .ok catalog →
        (inputs.catalog files policy false).value = .ok catalog := by
  have hlenient : (inputs.catalog files policy false).value =
      ((inputs.readable files).catalog files policy true).value := by
    rw [catalog, catalog, ordered_readable]
    exact Catalog.value_mergeInputs_lenient _ _
  refine ⟨hlenient, fun failure h ↦ Catalog.eq_duplicateKey_of_mergeInputs h,
    fun catalog input _ h ↦ catalog.value_mergeInput_lenient h, fun catalog h ↦ ?_⟩
  rw [hlenient, InputFiles.catalog, readable_eq_self inputs files policy h]
  exact h

end InputFiles

end LocalizedAccessors
