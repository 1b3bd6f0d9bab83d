import LocalizedAccessors.Proofs.Command.Precedence
import LocalizedAccessors.Proofs.Command.Regeneration

/-!
# A check predicts a generation

Checking and generating draw the same product from the inputs. Where the directory of the output is
there beforehand, generating prepares nothing, so the two can differ only in the last step: the
product may not be written where it is asked for. The sizes that a check tells can be told from the
keys of the inputs.
-/

namespace LocalizedAccessors

variable {files : FileSystem} {path : String} {inputs : InputFiles} {options : GenerationOptions}
  {strict printsTree : Bool}

/-! ## The two outcomes -/

namespace InputFiles

theorem check_files (inputs : InputFiles) (files : FileSystem) (options : GenerationOptions)
    (strict : Bool) : (inputs.check files options strict).value.files = files := by
  unfold check
  split
  · rfl
  · rw [Reported.value_bind]
    split <;> rfl

theorem check_outcome (inputs : InputFiles) (files : FileSystem) (options : GenerationOptions)
    (strict : Bool) :
    (inputs.check files options strict).value.outcome =
      if inputs.isEmpty then .ok .noInputs
      else (inputs.product files options strict).value.map fun product ↦
        .checked product.catalog.size product.generated.tree.entries.length := by
  unfold check
  split
  · rfl
  · rw [Reported.value_bind]
    cases (inputs.product files options strict).value <;> rfl

/-- With nothing to prepare, a generation fails for the same reasons as a check or because its
product cannot be written. -/
theorem writeProduct_outcome (hready : prepareOutput files path = (files, .ok ())) :
    (inputs.writeProduct files path options strict printsTree).value.outcome =
      if inputs.isEmpty then .ok .noInputs
      else (inputs.product files options strict).value >>= fun product ↦
        match (files.update path product.generated.bytes).2 with
        | .error fault => .error (.output (.unwritable path fault))
        | .ok written => .ok (.generated written product.generated.tree.entries.length) := by
  cases hinputs : inputs.isEmpty with
  | true => simp [writeProduct, hready, hinputs]
  | false =>
    cases hproduct : (inputs.product files options strict).value with
    | error failure => simp [writeProduct, hready, hinputs, hproduct, bind, Except.bind]
    | ok product =>
      rw [value_writeProduct hinputs hready hproduct]
      rcases hupdate : files.update path product.generated.bytes with ⟨after, fault | written⟩
      all_goals
        rw [(product.generated.value_writeTo hupdate).2, if_neg Bool.false_ne_true]
        simp [hupdate, bind, Except.bind]

/-! ## The sizes of a product -/

/-- The keys that the inputs define, each of them once. -/
def keys (inputs : InputFiles) (files : FileSystem) : List String :=
  ((Source.allPairs (inputs.sources files)).map Prod.fst).dedup

theorem keys_perm {product : Product}
    (h : (inputs.product files options strict).value = .ok product) :
    (product.catalog.pairs.map Prod.fst).Perm (inputs.keys files) := by
  rw [eq_insertAll_of_catalog (of_product_eq_ok h).1]
  exact Catalog.keys_insertAll_perm _ _

theorem size_eq_length_keys {product : Product}
    (h : (inputs.product files options strict).value = .ok product) :
    product.catalog.size = (inputs.keys files).length := by
  rw [← (keys_perm h).length_eq, List.length_map]
  rfl

/-- Every key makes an entry or is skipped. -/
theorem entries_add_skipped {product : Product}
    (h : (inputs.product files options strict).value = .ok product) :
    product.generated.tree.entries.length + (inputs.keys files).countP (Key.Skipped ·) =
      (inputs.keys files).length := by
  obtain ⟨hagree, htree⟩ := of_generate_eq_ok (of_product_eq_ok h).2
  have hentries := (NamespaceTree.keys_run_calls hagree).length_eq
  rw [List.length_map, List.length_map, ← htree, ← List.countP_eq_length_filter] at hentries
  rw [hentries, ← (keys_perm h).countP_eq, ← (keys_perm h).length_eq, List.countP_map,
    List.length_map, Nat.add_comm, List.length_eq_countP_add_countP fun pair ↦ Key.Skipped pair.1]
  simp [Function.comp_def]

/-! ## Agreement -/

/-- In a directory that exists there is nothing to prepare. -/
theorem prepareOutput_of_isDirectory (hblank : Text.trim path.toList ≠ [])
    (hfree : files.isDirectory path = false)
    (hparent : FilePath.enclosing path = "" ∨
      files.isDirectory (FilePath.enclosing path) = true) :
    prepareOutput files path = (files, .ok ()) ∧
      files.ensureEnclosing path = (files, .ok ()) := by
  have hmade : files.ensureEnclosing path = (files, .ok ()) := by
    unfold FileSystem.ensureEnclosing
    split
    · rfl
    · next hne => exact FileSystem.makeDirectories_of_isDirectory (hparent.resolve_left hne)
  refine ⟨?_, hmade⟩
  rw [prepareOutput, if_neg hblank, hfree, if_neg Bool.false_ne_true, hmade]
  split <;> rfl

/-- A check leaves all files as they are, and tells how many keys there are in the inputs that can be
read, and how many of them are not skipped. For an output that is neither blank nor a directory, in
a directory that exists, it finds no inputs if and only if a generation finds none. Where a file can
be put at the output, it fails if and only if a generation fails, for the same reason, and tells the
entries that a generation makes. Elsewhere a generation fails at least where a check does, and what
it fails for beyond that is that its product cannot be written. -/
theorem check_predicts (inputs : InputFiles) (options : GenerationOptions) (strict printsTree : Bool)
    (hblank : Text.trim path.toList ≠ []) (hfree : files.isDirectory path = false)
    (hparent : FilePath.enclosing path = "" ∨
      files.isDirectory (FilePath.enclosing path) = true) :
    let checked := (inputs.check files options strict).value
    let generated := (inputs.writeProduct files path options strict printsTree).value
    checked.files = files ∧
    (∀ keys entries, checked.outcome = .ok (.checked keys entries) →
      keys = (inputs.keys files).length ∧
      entries = keys - (inputs.keys files).countP (Key.Skipped ·)) ∧
    (checked.outcome = .ok .noInputs ↔ generated.outcome = .ok .noInputs) ∧
    (files.CanPlace path →
      (∀ failure, checked.outcome = .error failure ↔ generated.outcome = .error failure) ∧
      ∀ entries, (∃ keys, checked.outcome = .ok (.checked keys entries)) ↔
        ∃ written, generated.outcome = .ok (.generated written entries)) ∧
    (∀ failure, checked.outcome = .error failure → generated.outcome = .error failure) ∧
    (∀ written entries, generated.outcome = .ok (.generated written entries) →
      ∃ keys, checked.outcome = .ok (.checked keys entries)) ∧
    ∀ failure, generated.outcome = .error failure →
      checked.outcome = .error failure ∨ ∃ fault, failure = .output (.unwritable path fault) := by
  intro checked generated
  obtain ⟨hready, hmade⟩ := prepareOutput_of_isDirectory hblank hfree hparent
  have hchecked : checked.outcome = _ := check_outcome inputs files options strict
  have hgenerated : generated.outcome = _ := writeProduct_outcome hready
  refine ⟨check_files inputs files options strict, ?_⟩
  rw [hchecked, hgenerated]
  cases inputs.isEmpty with
  | true => simp
  | false =>
    simp only [Bool.false_eq_true, if_false]
    cases hproduct : (inputs.product files options strict).value with
    | error failure => simp [Except.map, bind, Except.bind]
    | ok product =>
      have hkeys := size_eq_length_keys hproduct
      have hentries := entries_add_skipped hproduct
      have hsizes : product.generated.tree.entries.length =
          product.catalog.size - (inputs.keys files).countP (Key.Skipped ·) := by omega
      have hwritten (hplace : files.CanPlace path) :
          ∃ written, (files.update path product.generated.bytes).2 = .ok written :=
        FileSystem.update_of_canPlace hplace hmade
      simp only [Except.map, bind, Except.bind]
      cases hupdate : (files.update path product.generated.bytes).2 with
      | error fault =>
        have hplace : ¬files.CanPlace path := by
          intro hplace
          obtain ⟨written, hok⟩ := hwritten hplace
          simp [hupdate] at hok
        simp [hplace, hkeys, hsizes, eq_comm]
      | ok written => simp [hkeys, hsizes, eq_comm]

theorem check_predicts_titleFiles :
    Text.trim "Title.swift".toList ≠ [] ∧ titleFiles.isDirectory "Title.swift" = false ∧
    FilePath.enclosing "Title.swift" = "" ∧ titleFiles.CanPlace "Title.swift" ∧
    let inputs : InputFiles := ⟨["t.strings"], ["gone.stringsdict"]⟩
    let checked := (inputs.check titleFiles {} false).value
    let generated := (inputs.writeProduct titleFiles "Title.swift" {} false false).value
    checked.outcome = .ok (.checked 1 1) ∧
    ∃ written, generated.outcome = .ok (.generated written 1) := by
  have hblank : Text.trim "Title.swift".toList ≠ [] := by decide +kernel
  have hfree : titleFiles.isDirectory "Title.swift" = false := by decide +kernel
  have hparent : FilePath.enclosing "Title.swift" = "" := by decide +kernel
  have hplace : titleFiles.CanPlace "Title.swift" := by
    have hnames : FilePath.names "Title.swift" = ["Title.swift"] := by decide +kernel
    refine ⟨[], "Title.swift", {}, ⟨by rfl, ?_, by decide, by decide, ?_, rfl⟩, ?_⟩
    · rw [hnames]
      rfl
    · rw [hnames]
      decide +kernel
    · have hnode : titleFiles.node? ([] ++ ["Title.swift"]) = none := by decide +kernel
      rw [FileSystem.Permits, hnode]
  have hchecked : ((⟨["t.strings"], ["gone.stringsdict"]⟩ : InputFiles).check
      titleFiles {} false).value.outcome = .ok (.checked 1 1) := by decide +kernel
  obtain ⟨-, -, -, hagree, -⟩ := check_predicts ⟨["t.strings"], ["gone.stringsdict"]⟩ {} false false
    hblank hfree (.inl hparent)
  exact ⟨hblank, hfree, hparent, hplace, hchecked, ((hagree hplace).2 1).1 ⟨1, hchecked⟩⟩

theorem check_titleFiles : (InputFiles.check ⟨["t.strings"], []⟩ titleFiles {} false).value.outcome =
    .ok (.checked 1 1) := by
  decide +kernel

/-! ## Names that are too long -/

section TooLong

variable {name : String} {permissions : Permissions}

/-- A name that is too long is none of those with a meaning of their own. -/
theorem ne_of_tooLong (hlong : 255 < name.utf8ByteSize) :
    name ≠ "" ∧ name ≠ "." ∧ name ≠ ".." := by
  refine ⟨?_, ?_, ?_⟩
  all_goals
    rintro rfl
    exact absurd hlong (by decide)

theorem names_of_not_mem (hslash : '/' ∉ name.toList) : FilePath.names name = [name] := by
  simp [FilePath.names, Text.fields, List.splitOn_eq_singleton hslash]

theorem enclosing_of_not_mem (hslash : '/' ∉ name.toList) : FilePath.enclosing name = "" := by
  rw [FilePath.enclosing, names_of_not_mem hslash]
  rfl

variable (hpath : FileSystem.checkPath name = .ok ()) (hslash : '/' ∉ name.toList)
  (hstart : files.node? (files.origin name) = some (.directory permissions))
  (hlong : 255 < name.utf8ByteSize)
include hpath hslash hstart hlong

/-- A single name that is too long leads nowhere, even from a directory that can be written. -/
theorem resolve_of_tooLong : files.resolve name = .error .nameTooLong := by
  obtain ⟨hempty, hdot, hup⟩ := ne_of_tooLong hlong
  rw [FileSystem.resolve, hpath, names_of_not_mem hslash]
  simp [FileSystem.walk, hstart, hempty, hdot, hup, hlong, bind, Except.bind]

theorem write_of_tooLong (content : List UInt8) :
    files.write name content = .error .nameTooLong := by
  obtain ⟨hempty, hdot, hup⟩ := ne_of_tooLong hlong
  simp [FileSystem.write, hpath, names_of_not_mem hslash, FileSystem.walk,
    FileSystem.directoryAt, hstart, hempty, hdot, hup, hlong, bind, Except.bind, throw, throwThe,
    MonadExceptOf.throw]

theorem update_of_tooLong (content : List UInt8) :
    files.update name content = (files, .error .nameTooLong) := by
  have hread : files.read name = .error .nameTooLong := by
    rw [FileSystem.read, resolve_of_tooLong hpath hslash hstart hlong]
    rfl
  simp [FileSystem.update, hread, FileSystem.ensureEnclosing, enclosing_of_not_mem hslash,
    write_of_tooLong hpath hslash hstart hlong, Except.toOption]

end TooLong

/-- One letter over and over. -/
def drawnOut (length : Nat) : String := String.ofList (List.replicate length 'a')

@[simp] theorem toList_drawnOut (length : Nat) :
    (drawnOut length).toList = List.replicate length 'a' :=
  String.toList_ofList ..

theorem utf8ByteSize_drawnOut (length : Nat) : (drawnOut length).utf8ByteSize = length := by
  rw [drawnOut, String.utf8ByteSize_ofList]
  induction length with
  | zero => rfl
  | succ n ih =>
    rw [List.replicate_succ, String.utf8Len_cons, ih]
    rfl

theorem trim_drawnOut (length : Nat) :
    Text.trim (drawnOut length).toList = List.replicate length 'a' := by
  have hletter : ¬Text.isBlank 'a' := by decide
  simp [Text.trim, hletter]

theorem checkPath_drawnOut {length : Nat} (hpos : 0 < length) (hmax : length ≤ 4095) :
    FileSystem.checkPath (drawnOut length) = .ok () := by
  have hne : drawnOut length ≠ "" := by
    intro hempty
    have hsize := congrArg String.utf8ByteSize hempty
    rw [utf8ByteSize_drawnOut] at hsize
    exact hpos.ne' hsize
  simp [FileSystem.checkPath, hne, utf8ByteSize_drawnOut, List.mem_replicate, hmax.not_gt]
  rfl

/-- A name that is too long is no directory and stands in one that exists and can be written, yet
nothing can be written there. -/
theorem writeProduct_drawnOut {length : Nat} (hlong : 255 < length) (hmax : length ≤ 4095) :
    Text.trim (drawnOut length).toList ≠ [] ∧ titleFiles.isDirectory (drawnOut length) = false ∧
    FilePath.enclosing (drawnOut length) = "" ∧
    (InputFiles.writeProduct ⟨["t.strings"], []⟩ titleFiles (drawnOut length) {} false
      false).value.outcome = .error (.output (.unwritable (drawnOut length) .nameTooLong)) := by
  have hpos : 0 < length := Nat.zero_lt_of_lt hlong
  have hslash : '/' ∉ (drawnOut length).toList := by
    rw [toList_drawnOut]
    exact mt List.eq_of_mem_replicate (by decide)
  have hblank : Text.trim (drawnOut length).toList ≠ [] := by
    rw [trim_drawnOut]
    exact mt (List.replicate_eq_nil_iff 'a').1 hpos.ne'
  have hpath := checkPath_drawnOut hpos hmax
  have hsize : 255 < (drawnOut length).utf8ByteSize := by rwa [utf8ByteSize_drawnOut]
  have hstart : titleFiles.node? (titleFiles.origin (drawnOut length)) = some (.directory {}) := by
    rw [FileSystem.origin]
    split <;> rfl
  have hfree : titleFiles.isDirectory (drawnOut length) = false := by
    rw [FileSystem.isDirectory, resolve_of_tooLong hpath hslash hstart hsize]
  have hready := prepareOutput_of_isDirectory hblank hfree (.inl (enclosing_of_not_mem hslash))
  have hsome : (⟨["t.strings"], []⟩ : InputFiles).isEmpty = false := rfl
  refine ⟨hblank, hfree, enclosing_of_not_mem hslash, ?_⟩
  rw [writeProduct_outcome hready.1, hsome, if_neg Bool.false_ne_true]
  obtain ⟨product, hproduct, -⟩ := exists_product_titleFiles
  rw [titleInputs] at hproduct
  simp [hproduct, bind, Except.bind, update_of_tooLong hpath hslash hstart hsize]

/-- A check finds one key where a generation fails. -/
theorem not_check_predicts_drawnOut :
    Text.trim (drawnOut 256).toList ≠ [] ∧ titleFiles.isDirectory (drawnOut 256) = false ∧
    FilePath.enclosing (drawnOut 256) = "" ∧
    titleFiles.directoryAt titleFiles.workingDirectory = .ok { writable := true } ∧
    (InputFiles.check ⟨["t.strings"], []⟩ titleFiles {} false).value.outcome =
      .ok (.checked 1 1) ∧
    (InputFiles.writeProduct ⟨["t.strings"], []⟩ titleFiles (drawnOut 256) {} false
      false).value.outcome = .error (.output (.unwritable (drawnOut 256) .nameTooLong)) := by
  obtain ⟨hblank, hfree, henclosing, hwritten⟩ :=
    writeProduct_drawnOut (show 255 < 256 by decide) (by decide)
  exact ⟨hblank, hfree, henclosing, rfl, check_titleFiles, hwritten⟩

end InputFiles

end LocalizedAccessors
