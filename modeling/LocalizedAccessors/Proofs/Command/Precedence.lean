import LocalizedAccessors.Proofs.Catalog.Merging
import LocalizedAccessors.Proofs.Command.Leniency

/-!
# Which input wins

The catalog of some inputs is the catalog of the sources that can be read from them, in the order of
their merging. Since the plural rules come last, they win over plain strings, and it does not matter
where they stand among the paths that are given.
-/

namespace LocalizedAccessors

/-! ## What inputs contribute -/

/-- The source that an input gives, if it can be read. -/
def FileSystem.source? (files : FileSystem) (input : String × SourceFormat) : Option Source :=
  match checkInput files input.1 with
  | .error _ => none
  | .ok () => (input.2.readPairs files input.1).value.toOption.map fun pairs ↦ ⟨input.1, pairs⟩

/-- The sources that inputs give, in the order of their merging. -/
def InputFiles.sources (inputs : InputFiles) (files : FileSystem) : List Source :=
  inputs.ordered.filterMap files.source?

namespace Catalog

variable {catalog merged : Catalog} {files : FileSystem} {path : String} {format : SourceFormat}
  {inputs : List (String × SourceFormat)}

theorem isSome_source? (input : String × SourceFormat) :
    (files.source? input).isSome = files.canRead input.2 input.1 := by
  rw [FileSystem.source?, FileSystem.canRead]
  cases checkInput files input.1 with
  | error fault => rfl
  | ok => cases (input.2.readPairs files input.1).value <;> rfl

theorem source?_of_canRead {pairs : List (String × String)} (h : files.canRead format path = true)
    (hpairs : (format.readPairs files path).value = .ok pairs) :
    files.source? (path, format) = some ⟨path, pairs⟩ := by
  rw [FileSystem.canRead, Bool.and_eq_true] at h
  cases hcheck : checkInput files path with
  | error fault => simp [hcheck, Except.isOk, Except.toBool] at h
  | ok => simp [FileSystem.source?, hcheck, hpairs, Except.toOption]

/-- Inputs that cannot be read have no part in a lenient merge. -/
theorem value_mergeInputs_sources (catalog : Catalog) (inputs : List (String × SourceFormat)) :
    (catalog.mergeInputs files false inputs).value =
      (catalog.addAll (inputs.filterMap files.source?)).mapError (.source ∘ .duplicateKey) := by
  induction inputs generalizing catalog with
  | nil => rfl
  | cons input rest ih =>
    rw [value_mergeInputs_cons]
    cases hread : files.canRead input.2 input.1 with
    | true =>
      obtain ⟨pairs, hpairs, hmerged⟩ := value_mergeInput_of_canRead catalog hread
      rw [hmerged, List.filterMap_cons_some (source?_of_canRead hread hpairs), addAll, afterAdding]
      rcases (catalog.add input.1 pairs).value with ⟨merged, duplicate | _⟩
      · rfl
      · exact ih merged
    | false =>
      have hnone : files.source? input = none := by
        rw [← Option.isNone_iff_eq_none, ← Option.not_isSome, isSome_source?, hread]
        rfl
      rw [value_mergeInput_lenient _ hread, List.filterMap_cons_none hnone]
      exact ih catalog

/-- A merge that succeeds is lenient at most in what it leaves out. -/
theorem value_mergeInputs_of_eq_ok {strict : Bool}
    (h : (catalog.mergeInputs files strict inputs).value = .ok merged) :
    (catalog.mergeInputs files false inputs).value = .ok merged := by
  cases strict with
  | false => exact h
  | true =>
    rw [value_mergeInputs_lenient, List.filter_eq_self.2 (canRead_of_mergeInputs h)]
    exact h

end Catalog

namespace InputFiles

variable {inputs : InputFiles} {files : FileSystem} {policy : DuplicatePolicy} {strict : Bool}
  {merged : Catalog}

/-- The catalog of some inputs holds what their sources give. -/
theorem eq_insertAll_of_catalog (h : (inputs.catalog files policy strict).value = .ok merged) :
    merged = (Catalog.empty policy).insertAll (Source.allPairs (inputs.sources files)) := by
  have hlenient := Catalog.value_mergeInputs_of_eq_ok h
  rw [Catalog.value_mergeInputs_sources] at hlenient
  cases hadd : (Catalog.empty policy).addAll (inputs.ordered.filterMap files.source?) with
  | error duplicate => simp [hadd, Except.mapError] at hlenient
  | ok added =>
    rw [hadd] at hlenient
    obtain rfl : added = merged := Except.ok.inj hlenient
    exact (Catalog.addAll_eq_ok.1 hadd).2

/-- If keys may be defined again, nothing but an input that cannot be read keeps inputs from being
merged, and that only if the merge is strict. -/
theorem exists_catalog_overwrite :
    (∃ merged, (inputs.catalog files .overwrite strict).value = .ok merged) ↔
      (strict = true → ∀ input ∈ inputs.ordered, files.canRead input.2 input.1 = true) := by
  have hlenient : (inputs.catalog files .overwrite false).value =
      .ok (.ofPairs (Source.allPairs (inputs.sources files))) := by
    rw [catalog, Catalog.value_mergeInputs_sources]
    exact congrArg (Except.mapError _) (Catalog.addAll_overwrite (inputs.sources files))
  cases strict with
  | false => exact iff_of_true ⟨_, hlenient⟩ (by simp)
  | true =>
    constructor
    · rintro ⟨merged, hmerged⟩ -
      exact Catalog.canRead_of_mergeInputs hmerged
    · intro hread
      refine ⟨_, Eq.trans ?_ hlenient⟩
      rw [catalog, catalog, Catalog.value_mergeInputs_lenient, List.filter_eq_self.2 (hread rfl)]

end InputFiles

/-! ## The last definition of a key -/

/-- The last value that a key is given in the last of some files that can be read and define it. -/
def FileSystem.lastValue? (files : FileSystem) (format : SourceFormat) (paths : List String)
    (key : String) : Option String :=
  paths.reverse.findSome? fun path ↦
    (files.source? (path, format)).bind fun source ↦ source.pairs.reverse.lookup key

/-- A later file is asked first. -/
theorem FileSystem.lastValue?_cons (files : FileSystem) (format : SourceFormat) (path : String)
    (rest : List String) (key : String) :
    files.lastValue? format (path :: rest) key = (files.lastValue? format rest key).or
      ((files.source? (path, format)).bind fun source ↦ source.pairs.reverse.lookup key) := by
  rw [lastValue?, List.reverse_cons, List.findSome?_append]
  simp [lastValue?]

theorem FileSystem.lookup_reverse_sources (files : FileSystem) (format : SourceFormat)
    (paths : List String) (key : String) :
    (Source.allPairs ((paths.map fun path ↦ (path, format)).filterMap
      files.source?)).reverse.lookup key = files.lastValue? format paths key := by
  induction paths with
  | nil => rfl
  | cons path rest ih =>
    rw [List.map_cons, lastValue?_cons, ← ih]
    cases hsource : files.source? (path, format) with
    | none => rw [List.filterMap_cons_none hsource, Option.bind_none, Option.or_none]
    | some source =>
      rw [List.filterMap_cons_some hsource, Source.allPairs, List.flatMap_cons, List.reverse_append,
        List.lookup_append, Option.bind_some]
      rfl

theorem InputFiles.lookup_reverse_sources (inputs : InputFiles) (files : FileSystem)
    (key : String) :
    (Source.allPairs (inputs.sources files)).reverse.lookup key =
      (files.lastValue? .stringsdict inputs.stringsdict key).or
        (files.lastValue? .strings inputs.strings key) := by
  rw [sources, ordered, List.filterMap_append, Source.allPairs, List.flatMap_append,
    List.reverse_append, List.lookup_append]
  exact congrArg₂ Option.or (files.lookup_reverse_sources ..) (files.lookup_reverse_sources ..)

/-! ## Paths in another order -/

namespace InputFiles

theorem classify_of_supported {paths : List String}
    (h : ∀ path ∈ paths, (SourceFormat.ofPath? path).isSome = true) :
    classify paths = .ok
      { strings := paths.filter fun path ↦ SourceFormat.ofPath? path = some .strings
        stringsdict := paths.filter fun path ↦ SourceFormat.ofPath? path = some .stringsdict } := by
  induction paths with
  | nil => rfl
  | cons path rest ih =>
    obtain ⟨hpath, hrest⟩ := List.forall_mem_cons.1 h
    rw [classify, ih hrest]
    cases hformat : SourceFormat.ofPath? path with
    | none => simp [hformat] at hpath
    | some format => cases format <;> simp [hformat, cons, Except.map]

/-- Paths of known formats are the same inputs in every order that keeps the paths of each format in
their order. If keys may be defined again, such inputs are merged unless the merge is strict and one
of them cannot be read. A key then has the last value that it is given in the last readable file of
plural rules that defines it; only if there is none, it has the last value that it is given in the
last readable table of strings that defines it. -/
theorem catalog_of_rearranged {paths others : List String}
    (supported : ∀ path ∈ paths, (SourceFormat.ofPath? path).isSome = true)
    (perm : others.Perm paths)
    (kept : ∀ format, (others.filter fun path ↦ SourceFormat.ofPath? path = some format) =
      paths.filter fun path ↦ SourceFormat.ofPath? path = some format) :
    ∃ inputs, classify paths = .ok inputs ∧ classify others = .ok inputs ∧
      ∀ files strict,
        ((∃ merged, (inputs.catalog files .overwrite strict).value = .ok merged) ↔
          (strict = true → ∀ input ∈ inputs.ordered, files.canRead input.2 input.1 = true)) ∧
        ∀ merged, (inputs.catalog files .overwrite strict).value = .ok merged → ∀ key,
          merged.get? key = (files.lastValue? .stringsdict inputs.stringsdict key).or
            (files.lastValue? .strings inputs.strings key) := by
  refine ⟨_, classify_of_supported supported, ?_, fun files strict ↦
    ⟨exists_catalog_overwrite, fun merged hmerged key ↦ ?_⟩⟩
  · rw [classify_of_supported fun path hpath ↦ supported path (perm.mem_iff.1 hpath), kept, kept]
  · rw [eq_insertAll_of_catalog hmerged, Catalog.get?_insertAll_empty, lookup_reverse_sources]

/-- A table, and plural rules that define one of its keys again. -/
def layeredFiles : FileSystem where
  workingDirectory := []
  nodes :=
    [(["a.strings"], .file (Markup.ascii "title = \"A\"; menu = \"B\";") {}),
      (["b.stringsdict"], .file (Markup.ascii ("<dict><key>title</key><dict>" ++
        "<key>NSStringLocalizedFormatKey</key><string>C</string></dict></dict>")) {})]

theorem catalog_of_rearranged_layeredFiles :
    (∀ path ∈ ["b.stringsdict", "a.strings", "gone.stringsdict"],
      (SourceFormat.ofPath? path).isSome = true) ∧
    ["a.strings", "b.stringsdict", "gone.stringsdict"].Perm
      ["b.stringsdict", "a.strings", "gone.stringsdict"] ∧
    (∀ format, (["a.strings", "b.stringsdict", "gone.stringsdict"].filter fun path ↦
      SourceFormat.ofPath? path = some format) =
        ["b.stringsdict", "a.strings", "gone.stringsdict"].filter fun path ↦
          SourceFormat.ofPath? path = some format) ∧
    ∃ inputs merged,
      classify ["b.stringsdict", "a.strings", "gone.stringsdict"] = .ok inputs ∧
      classify ["a.strings", "b.stringsdict", "gone.stringsdict"] = .ok inputs ∧
      (inputs.catalog layeredFiles .overwrite false).value = .ok merged ∧
      merged.get? "title" = some "C" ∧ merged.get? "menu" = some "B" := by
  have supported : ∀ path ∈ ["b.stringsdict", "a.strings", "gone.stringsdict"],
      (SourceFormat.ofPath? path).isSome = true := by decide +kernel
  have perm : ["a.strings", "b.stringsdict", "gone.stringsdict"].Perm
      ["b.stringsdict", "a.strings", "gone.stringsdict"] := .swap ..
  have kept : ∀ format, (["a.strings", "b.stringsdict", "gone.stringsdict"].filter fun path ↦
      SourceFormat.ofPath? path = some format) =
        ["b.stringsdict", "a.strings", "gone.stringsdict"].filter fun path ↦
          SourceFormat.ofPath? path = some format := by
    intro format
    cases format <;> decide +kernel
  obtain ⟨inputs, hpaths, hothers, hmerge⟩ := catalog_of_rearranged supported perm kept
  obtain ⟨hexists, hvalue⟩ := hmerge layeredFiles false
  obtain ⟨merged, hmerged⟩ := hexists.2 (by simp)
  have hinputs : inputs = ⟨["a.strings"], ["b.stringsdict", "gone.stringsdict"]⟩ := by
    have hclassify : classify ["b.stringsdict", "a.strings", "gone.stringsdict"] =
        .ok ⟨["a.strings"], ["b.stringsdict", "gone.stringsdict"]⟩ := by decide +kernel
    exact Except.ok.inj (hpaths.symm.trans hclassify)
  refine ⟨supported, perm, kept, inputs, merged, hpaths, hothers, hmerged, ?_⟩
  rw [hvalue merged hmerged, hvalue merged hmerged, hinputs]
  decide +kernel

end InputFiles

end LocalizedAccessors
