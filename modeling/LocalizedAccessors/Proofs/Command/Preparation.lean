import LocalizedAccessors.Command.Execution
import LocalizedAccessors.Proofs.Storage.Replacing

/-!
# What an execution depends on

The inputs and the configuration count only through what their paths lead to. So a file system in
which the output has been placed gives the same product and the same settings as before, provided
that no path among them leads to the output, and there is nothing left to prepare for it.
-/

namespace LocalizedAccessors

variable {files prepared after before : FileSystem} {path : String} {location : Location}
  {content : List UInt8} {permissions : Permissions}

/-! ## Inputs -/

/-- Where a path leads nowhere, no input is. -/
theorem checkInput_of_toOption (h : (files.resolve path).toOption = none) :
    checkInput files path = .error (.missing path) := by
  simp [checkInput, FileSystem.exists?, h]

theorem Catalog.mergeInput_congr (catalog : Catalog) (strict : Bool) (format : SourceFormat)
    (h : (after.resolve path).toOption = (before.resolve path).toOption) :
    catalog.mergeInput after strict path format = catalog.mergeInput before strict path format := by
  cases hbefore : before.resolve path with
  | error fault =>
    have hmissing : checkInput before path = .error (.missing path) :=
      checkInput_of_toOption (by rw [hbefore]; rfl)
    rw [hbefore] at h
    simp only [mergeInput, hmissing, checkInput_of_toOption h]
  | ok node =>
    rw [hbefore] at h
    have hafter : after.resolve path = .ok node := FileSystem.toOption_eq_some.1 h
    simp only [mergeInput, checkInput, FileSystem.exists?, FileSystem.isFile,
      FileSystem.isReadable, addFile, SourceFormat.readPairs, FileSystem.read, hbefore, hafter]

theorem Catalog.mergeInputs_congr (catalog : Catalog) (strict : Bool)
    {inputs : List (String × SourceFormat)}
    (h : ∀ input ∈ inputs,
      (after.resolve input.1).toOption = (before.resolve input.1).toOption) :
    catalog.mergeInputs after strict inputs = catalog.mergeInputs before strict inputs := by
  induction inputs generalizing catalog with
  | nil => rfl
  | cons input rest ih =>
    obtain ⟨hinput, hrest⟩ := List.forall_mem_cons.1 h
    rw [mergeInputs, mergeInputs, mergeInput_congr catalog strict input.2 hinput]
    congr 1
    funext merged
    cases merged with
    | error failure => rfl
    | ok merged => exact ih merged hrest

/-- Inputs give the same product wherever they lead to the same files. -/
theorem InputFiles.product_congr (inputs : InputFiles) (options : GenerationOptions) (strict : Bool)
    (h : ∀ input ∈ inputs.ordered,
      (after.resolve input.1).toOption = (before.resolve input.1).toOption) :
    inputs.product after options strict = inputs.product before options strict := by
  have hcatalog : inputs.catalog after options.duplicates strict =
      inputs.catalog before options.duplicates strict := Catalog.mergeInputs_congr _ strict h
  rw [product, product, hcatalog]

/-- Inputs that lead elsewhere give the same product after a file was replaced. -/
theorem InputFiles.product_of_replaces (inputs : InputFiles) (options : GenerationOptions)
    (strict : Bool) (replaces : before.Replaces location content permissions after)
    (helsewhere : ∀ input ∈ inputs.ordered, after.locate input.1 ≠ .ok location) :
    inputs.product after options strict = inputs.product before options strict :=
  inputs.product_congr options strict fun input hinput ↦
    replaces.toOption_resolve (helsewhere input hinput)

/-! ## The configuration -/

theorem Configuration.load_of_resolve {named : Option String} {node : Node}
    (hbefore : before.resolve (named.getD defaultPath) = .ok node)
    (hafter : after.resolve (named.getD defaultPath) = .ok node) :
    load after named = load before named := by
  cases named with
  | none =>
    rw [Option.getD_none] at hbefore hafter
    simp only [load, ofFile, FileSystem.isFile, FileSystem.read, hbefore, hafter]
  | some path =>
    rw [Option.getD_some] at hbefore hafter
    simp only [load, ofFile, FileSystem.read, hbefore, hafter]

theorem FileSystem.locate_defaultPath
    (h : files.node? files.workingDirectory = some (.directory permissions)) :
    files.locate Configuration.defaultPath =
      .ok (files.workingDirectory ++ [Configuration.defaultPath]) := by
  have hcheck : checkPath Configuration.defaultPath = .ok () := by rfl
  have hnames : FilePath.names Configuration.defaultPath = [Configuration.defaultPath] := by decide
  have horigin : files.origin Configuration.defaultPath = files.workingDirectory :=
    if_neg (by decide)
  refine bind_eq_ok.2 ⟨(), hcheck, ?_⟩
  rw [hnames, horigin]
  exact walk_cons_eq_ok.2 ⟨⟨_, h⟩, by decide, by simp [entered, Configuration.defaultPath, walk]⟩

/-- A path in the working directory leads to a file only if it did so before. -/
theorem FileSystem.isFile_defaultPath (gains : files.GainsDirectories prepared)
    (replaces : prepared.Replaces location content permissions after)
    (helsewhere : after.locate Configuration.defaultPath ≠ .ok location) {own : Permissions}
    (hworking : files.node? files.workingDirectory = some (.directory own))
    (h : after.isFile Configuration.defaultPath = true) :
    files.isFile Configuration.defaultPath = true := by
  obtain ⟨text, access, hafter, hkeeps⟩ := isFile_iff.1 h
  obtain ⟨other, hlocate, hnode⟩ := resolve_eq_ok.1 hafter
  have hne : other ≠ location := fun heq ↦ helsewhere (heq ▸ hlocate)
  have hfile : files.node? other = some (.file text access) :=
    gains.file_iff.1 (replaces.others other hne ▸ hnode)
  have hbefore := locate_defaultPath hworking
  have hafter' := replaces.keepsDirectories.locate replaces.workingDirectory
    (gains.keepsDirectories.locate gains.workingDirectory hbefore)
  obtain rfl := Except.ok.inj (hlocate.symm.trans hafter')
  exact isFile_iff.2 ⟨text, access, resolve_eq_ok.2 ⟨_, hbefore, hfile⟩, hkeeps⟩

/-- The configuration that was loaded is loaded again once the output is in its place. -/
theorem Configuration.load_kept {named : Option String} {layer : Configuration}
    (gains : files.GainsDirectories prepared)
    (replaces : prepared.Replaces location content permissions after)
    (helsewhere : after.locate (named.getD defaultPath) ≠ .ok location) {own : Permissions}
    (hworking : files.node? files.workingDirectory = some (.directory own))
    (h : (load files named).value = .ok layer) : (load after named).value = .ok layer := by
  cases hresolve : files.resolve (named.getD defaultPath) with
  | ok node =>
    have hkept := replaces.resolve_kept gains helsewhere hresolve
    rw [load_of_resolve hresolve hkept, h]
  | error fault =>
    cases named with
    | some path =>
      rw [Option.getD_some] at hresolve
      simp [load, ofFile, FileSystem.read, hresolve, bind, Except.bind] at h
    | none =>
      rw [Option.getD_none] at hresolve helsewhere
      have hbefore : files.isFile defaultPath = false := by simp [FileSystem.isFile, hresolve]
      have hafter : after.isFile defaultPath = false := by
        rw [← Bool.not_eq_true]
        intro hfile
        have := FileSystem.isFile_defaultPath gains replaces helsewhere hworking hfile
        simp [hbefore] at this
      simpa [load, hbefore, hafter] using h

/-! ## The output -/

theorem gainsDirectories_prepareOutput (files : FileSystem) (path : String) :
    files.GainsDirectories (prepareOutput files path).1 := by
  unfold prepareOutput
  split
  · exact .refl _
  · split
    · exact .refl _
    · split
      · exact .refl _
      · exact FileSystem.gainsDirectories_ensureEnclosing files path

/-- Either the directory around the output was there or it was made. -/
theorem prepareOutput_eq_ok (h : prepareOutput files path = (prepared, .ok ())) :
    Text.trim path.toList ≠ [] ∧
      (files.hasEnclosing path = true ∧ prepared = files ∨
        files.ensureEnclosing path = (prepared, .ok ())) := by
  unfold prepareOutput at h
  split at h
  · simp at h
  · next hblank =>
    refine ⟨hblank, ?_⟩
    split at h
    · simp at h
    · split at h
      · next henclosing =>
        obtain ⟨rfl, -⟩ := Prod.mk.inj h
        exact .inl ⟨henclosing, rfl⟩
      · rcases hmade : files.ensureEnclosing path with ⟨made, fault | _⟩
        · rw [hmade] at h
          have hfailed : .error (.noDirectory fault) = (.ok () : Except OutputFault Unit) :=
            congrArg Prod.snd h
          simp at hfailed
        · rw [hmade] at h
          obtain rfl : made = prepared := congrArg Prod.fst h
          exact .inr rfl

theorem ensureEnclosing_of_prepareOutput (h : prepareOutput files path = (prepared, .ok ())) :
    (prepared.ensureEnclosing path).1 = prepared := by
  obtain ⟨-, ⟨henclosing, rfl⟩ | hmade⟩ := prepareOutput_eq_ok h
  · exact FileSystem.ensureEnclosing_of_hasEnclosing henclosing
  · rw [FileSystem.ensureEnclosing_of_made hmade (fun _ _ hnode ↦ hnode) rfl]

/-- Once the output is in its place, there is nothing left to prepare. -/
theorem prepareOutput_of_replaces (h : prepareOutput files path = (prepared, .ok ()))
    (replaces : prepared.Replaces location content permissions after)
    (hlocate : after.locate path = .ok location) : prepareOutput after path = (after, .ok ()) := by
  obtain ⟨hblank, hready⟩ := prepareOutput_eq_ok h
  have hfile : after.resolve path = .ok (.file content permissions) :=
    FileSystem.resolve_eq_ok.2 ⟨location, hlocate, replaces.file⟩
  have hdirectory : after.isDirectory path = false := by simp [FileSystem.isDirectory, hfile]
  rw [prepareOutput, if_neg hblank, hdirectory, if_neg Bool.false_ne_true]
  split
  · rfl
  · next hmissing =>
    rcases hready with ⟨henclosing, rfl⟩ | hmade
    · exact absurd (replaces.hasEnclosing henclosing) hmissing
    · rw [FileSystem.ensureEnclosing_of_made hmade replaces.keepsDirectories
        replaces.workingDirectory]
      rfl

end LocalizedAccessors
