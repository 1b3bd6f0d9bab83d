import LocalizedAccessors.Proofs.Command.Preparation
import LocalizedAccessors.Proofs.Generation.Agreement
import LocalizedAccessors.Proofs.Text.Utf8

/-!
# Generating again

What a generation does to a file system. One that fails, or that has no inputs, makes directories at
most. One that succeeds puts its product in one place, and the same once more finds it there, unless
an input or the configuration is that very place. Where it can be written but not be found, in a file
that must not be read or a device that keeps nothing, it is written each time.
-/

namespace LocalizedAccessors

variable {files prepared after : FileSystem} {path : String} {inputs : InputFiles}
  {options : GenerationOptions} {strict printsTree : Bool}

/-- The bytes of a generated file. -/
def Generated.bytes (generated : Generated) : List UInt8 := Text.Utf8.encode generated.contents

theorem Generated.bytes_ne_nil {catalog : Catalog} {generated : Generated}
    (h : (generate catalog options).value = .ok generated) : generated.bytes ≠ [] := by
  intro hnil
  have hempty : Text.Utf8.decode [] = .ok "" := Text.Utf8.decode_encode ""
  have hread := Text.Utf8.decode_encode generated.contents
  rw [← bytes, hnil, hempty] at hread
  exact contents_ne_empty h (Except.ok.inj hread).symm

theorem Generated.value_writeTo (generated : Generated) {result : Except StorageFault Bool}
    (h : files.update path generated.bytes = (after, result)) :
    (generated.writeTo files path printsTree).value.files = after ∧
      (generated.writeTo files path printsTree).value.outcome =
        match result with
        | .error fault => .error (.output (.unwritable path fault))
        | .ok written => .ok (.generated written generated.tree.entries.length) := by
  rw [bytes] at h
  cases result with
  | error fault => simp [writeTo, h]
  | ok written => cases written <;> simp [writeTo, h]

namespace InputFiles

theorem of_product_eq_ok {product : Product}
    (h : (inputs.product files options strict).value = .ok product) :
    (inputs.catalog files options.duplicates strict).value = .ok product.catalog ∧
      (generate product.catalog options).value = .ok product.generated := by
  unfold InputFiles.product at h
  split at h
  · simp at h
  · rw [Reported.value_bind] at h
    split at h
    · simp at h
    · next catalog hcatalog =>
      rw [Reported.value_bind] at h
      split at h
      · simp at h
      · next generated hgenerated =>
        obtain rfl := Except.ok.inj h
        exact ⟨hcatalog, hgenerated⟩

theorem value_writeProduct {product : Product} (hinputs : inputs.isEmpty = false)
    (hprepared : prepareOutput files path = (prepared, .ok ()))
    (hproduct : (inputs.product prepared options strict).value = .ok product) :
    (inputs.writeProduct files path options strict printsTree).value =
      (product.generated.writeTo prepared path printsTree).value := by
  simp [writeProduct, hprepared, hinputs, hproduct]

/-- A generation stops somewhere on its way with the directories made so far, or it comes to write
its product. -/
theorem writeProduct_cases (inputs : InputFiles) (files : FileSystem) (path : String)
    (options : GenerationOptions) (strict printsTree : Bool) :
    let execution := (inputs.writeProduct files path options strict printsTree).value
    (files.GainsDirectories execution.files ∧
      (execution.outcome = .ok .noInputs ∨ ∃ failure, execution.outcome = .error failure)) ∨
    ∃ prepared product written,
      prepareOutput files path = (prepared, .ok ()) ∧ inputs.isEmpty = false ∧
      (inputs.product prepared options strict).value = .ok product ∧
      prepared.update path product.generated.bytes = (execution.files, .ok written) ∧
      execution.outcome = .ok (.generated written product.generated.tree.entries.length) := by
  intro execution
  have hgains := gainsDirectories_prepareOutput files path
  rcases hprepared : prepareOutput files path with ⟨prepared, fault | _⟩
  · rw [hprepared] at hgains
    have hexecution : execution = ⟨prepared, "", .error (.output fault)⟩ := by
      simp [execution, writeProduct, hprepared]
    rw [hexecution]
    exact .inl ⟨hgains, .inr ⟨_, rfl⟩⟩
  · rw [hprepared] at hgains
    cases hinputs : inputs.isEmpty with
    | true =>
      have hexecution : execution = ⟨prepared, "", .ok .noInputs⟩ := by
        simp [execution, writeProduct, hprepared, hinputs]
      rw [hexecution]
      exact .inl ⟨hgains, .inl rfl⟩
    | false =>
      cases hproduct : (inputs.product prepared options strict).value with
      | error failure =>
        have hexecution : execution = ⟨prepared, "", .error failure⟩ := by
          simp [execution, writeProduct, hprepared, hinputs, hproduct]
        rw [hexecution]
        exact .inl ⟨hgains, .inr ⟨_, rfl⟩⟩
      | ok product =>
        have hexecution : execution = (product.generated.writeTo prepared path printsTree).value :=
          value_writeProduct hinputs hprepared hproduct
        rcases hupdate : prepared.update path product.generated.bytes with ⟨after, fault | written⟩
        all_goals
          obtain ⟨hfiles, houtcome⟩ := product.generated.value_writeTo hupdate
          rw [hexecution, hfiles, houtcome]
        · exact .inl ⟨hgains.trans (FileSystem.gainsDirectories_update hupdate), .inr ⟨_, rfl⟩⟩
        · exact .inr ⟨prepared, product, written, rfl, rfl, hproduct, hupdate, rfl⟩

/-- Once a product is in its place, the same inputs lead to it again. -/
theorem writeProduct_again {product : Product} {location : Location} {held : List UInt8}
    {permissions : Permissions} {rewritten : Bool}
    (hprepared : prepareOutput files path = (prepared, .ok ())) (hinputs : inputs.isEmpty = false)
    (hproduct : (inputs.product prepared options strict).value = .ok product)
    (hlocate : after.locate path = .ok location)
    (replaces : prepared.Replaces location held permissions after)
    (hupdate : after.update path product.generated.bytes = (after, .ok rewritten))
    (helsewhere : ∀ input ∈ inputs.ordered, after.locate input.1 ≠ .ok location) :
    let again := (inputs.writeProduct after path options strict printsTree).value
    again.files = after ∧ again.outcome =
      .ok (.generated rewritten product.generated.tree.entries.length) := by
  intro again
  have hproduct' : (inputs.product after options strict).value = .ok product := by
    rw [product_of_replaces inputs options strict replaces helsewhere, hproduct]
  have hagain : again = (product.generated.writeTo after path printsTree).value :=
    value_writeProduct hinputs (prepareOutput_of_replaces hprepared replaces hlocate) hproduct'
  rw [hagain]
  exact product.generated.value_writeTo hupdate

/-- A product that its place does not give back is written, though nothing changes by it. -/
theorem writeProduct_of_unread {product : Product} (hinputs : inputs.isEmpty = false)
    (hprepared : prepareOutput files path = (files, .ok ()))
    (hproduct : (inputs.product files options strict).value = .ok product)
    (hunread : files.read path ≠ .ok product.generated.bytes)
    (hmade : files.ensureEnclosing path = (files, .ok ()))
    (hwrite : files.write path product.generated.bytes = .ok files) :
    let execution := (inputs.writeProduct files path options strict printsTree).value
    execution.files = files ∧
      execution.outcome = .ok (.generated true product.generated.tree.entries.length) := by
  intro execution
  have hexecution : execution = (product.generated.writeTo files path printsTree).value :=
    value_writeProduct hinputs hprepared hproduct
  rw [hexecution]
  exact product.generated.value_writeTo (FileSystem.update_of_unread hunread hmade hwrite)

end InputFiles

namespace Invocation

/-- A whole run, in which the configuration is read again, comes to the same action. -/
theorem run_again (invocation : Invocation) {environment : Environment} {layer : Configuration}
    {location : Location} {content : List UInt8} {permissions own : Permissions}
    (gains : files.GainsDirectories prepared)
    (replaces : prepared.Replaces location content permissions after)
    (hworking : files.node? files.workingDirectory = some (.directory own))
    (hlayer : (Configuration.load files invocation.configuration).value = .ok layer)
    (helsewhere :
      after.locate (invocation.configuration.getD Configuration.defaultPath) ≠ .ok location)
    (hinputs : InputFiles.resolve invocation.inputs environment = .ok inputs) :
    (invocation.run after environment).value =
      (invocation.act after inputs (layer.options invocation.settings)).value := by
  have hload := Configuration.load_kept gains replaces helsewhere hworking hlayer
  simp [run, hload, hinputs]

/-- What a generation does. If it fails or has no inputs, directories are all that is new. If it
succeeds, the product of the inputs, as they are read once the directory of the output is there, goes
to the place of the output, which holds it then unless it is a device that keeps nothing, and all
else is as it was; the outcome tells that nothing was written if and only if the place held the same
before and can be read. The same once more, provided that no input leads there, changes nothing and
tells that nothing was written if and only if the place holds the product and can be read; and so
does a whole run, provided that the configuration does not lead there either. -/
theorem act_generate (invocation : Invocation) (output : Option String) (printsTree : Bool)
    (files : FileSystem) (inputs : InputFiles) (options : GenerationOptions) :
    let command := { invocation with action := .generate output printsTree }
    let execution := (command.act files inputs options).value
    (∀ failure, execution.outcome = .error failure → files.GainsDirectories execution.files) ∧
    (execution.outcome = .ok .noInputs → files.GainsDirectories execution.files) ∧
    ∀ written entries, execution.outcome = .ok (.generated written entries) →
      ∃ path prepared product location held permissions,
        output = some path ∧ prepareOutput files path = (prepared, .ok ()) ∧
        (inputs.product prepared options command.strict).value = .ok product ∧
        entries = product.generated.tree.entries.length ∧
        execution.files.locate path = .ok location ∧
        files.GainsDirectories prepared ∧
        prepared.Receives location product.generated.bytes held permissions execution.files ∧
        (written = false ↔
          files.node? location = some (.file product.generated.bytes permissions) ∧
            permissions.readable = true) ∧
        ((∀ input ∈ inputs.ordered, execution.files.locate input.1 ≠ .ok location) →
          let again := (command.act execution.files inputs options).value
          again.files = execution.files ∧
          (∃ rewritten, again.outcome = .ok (.generated rewritten entries) ∧
            (rewritten = false ↔
              held = product.generated.bytes ∧ permissions.readable = true)) ∧
          ∀ environment layer own,
            files.node? files.workingDirectory = some (.directory own) →
            (Configuration.load files command.configuration).value = .ok layer →
            InputFiles.resolve command.inputs environment = .ok inputs →
            layer.options command.settings = options →
            execution.files.locate (command.configuration.getD Configuration.defaultPath) ≠
              .ok location →
            (command.run execution.files environment).value = again) := by
  intro command execution
  cases output with
  | none => exact ⟨fun _ _ ↦ .refl files, fun _ ↦ .refl files, fun written entries h ↦ nomatch h⟩
  | some path =>
    have hexecution :
        execution = (inputs.writeProduct files path options command.strict printsTree).value := rfl
    have hcases := inputs.writeProduct_cases files path options command.strict printsTree
    rw [← hexecution] at hcases
    rcases hcases with ⟨hgains, hstopped⟩ | ⟨prepared, product, isNew, hprepared, hinputs,
      hproduct, hupdate, houtcome⟩
    · refine ⟨fun _ _ ↦ hgains, fun _ ↦ hgains, fun written entries h ↦ ?_⟩
      rcases hstopped with hnone | ⟨failure, hfailed⟩
      · simp [hnone] at h
      · simp [hfailed] at h
    · refine ⟨fun _ h ↦ by simp [houtcome] at h, fun h ↦ by simp [houtcome] at h,
        fun written entries h ↦ ?_⟩
      obtain ⟨rfl, rfl⟩ : isNew = written ∧ product.generated.tree.entries.length = entries := by
        simpa [houtcome] using h
      have hgains : files.GainsDirectories prepared := by
        simpa [hprepared] using gainsDirectories_prepareOutput files path
      obtain ⟨location, held, permissions, hlocate, receives, hwritten, rewritten, hupdated,
        hrewritten⟩ := FileSystem.update_update hupdate (ensureEnclosing_of_prepareOutput hprepared)
      have replaces := receives.toReplaces
      refine ⟨path, prepared, product, location, held, permissions, rfl, hprepared, hproduct, rfl,
        hlocate, hgains, receives, ?_, fun helsewhere ↦ ?_⟩
      · rw [hwritten, hgains.file_iff]
      · intro again
        obtain ⟨hfiles, hagain⟩ : again.files = execution.files ∧ again.outcome = _ :=
          InputFiles.writeProduct_again hprepared hinputs hproduct hlocate replaces hupdated
            helsewhere
        refine ⟨hfiles, ⟨rewritten, hagain, hrewritten⟩, fun environment layer own hworking hlayer
          hresolve hoptions hconfiguration ↦ ?_⟩
        subst hoptions
        exact run_again command hgains replaces hworking hlayer hconfiguration hresolve

end Invocation

/-! ## Outputs that do not give back what they take -/

namespace InputFiles

/-- A directory with a single table. -/
def titleFiles : FileSystem where
  workingDirectory := []
  nodes := [(["t.strings"], .file (Markup.ascii "title = \"Title\";") {})]

def titleInputs : InputFiles := ⟨["t.strings"], []⟩

theorem exists_product_titleFiles :
    ∃ product, (titleInputs.product titleFiles {} false).value = .ok product ∧
      product.generated.tree.entries.length = 1 := by
  have hlength : (titleInputs.product titleFiles {} false).value.toOption.map
      (·.generated.tree.entries.length) = some 1 := by decide +kernel
  cases hproduct : (titleInputs.product titleFiles {} false).value with
  | error failure => simp [hproduct, Except.toOption] at hlength
  | ok product =>
    rw [hproduct] at hlength
    exact ⟨product, rfl, Option.some.inj hlength⟩

/-- The bytes of the accessors for the table. -/
def titleBytes : List UInt8 :=
  match (titleInputs.product titleFiles {} false).value with
  | .ok product => product.generated.bytes
  | .error _ => []

/-- The same directory with the accessors in a file that can be written but not read. -/
def sealedFiles : FileSystem :=
  titleFiles.put ["Title.swift"] (.file titleBytes { readable := false })

theorem product_sealedFiles :
    titleInputs.product sealedFiles {} false = titleInputs.product titleFiles {} false := by
  apply titleInputs.product_congr
  intro input hinput
  obtain rfl : input = ("t.strings", .strings) := List.mem_singleton.1 hinput
  rfl

end InputFiles

namespace Invocation

open InputFiles

/-- What the command to generate the accessors for the table does. -/
def titleRun (files : FileSystem) (path : String) : Execution :=
  let command : Invocation := {
    action := .generate (some path) false
    inputs := ["t.strings"]
    configuration := none
    settings := {}
    strict := false
    shown := none }
  (command.act files titleInputs {}).value

theorem titleRun_eq (files : FileSystem) (path : String) :
    titleRun files path = (titleInputs.writeProduct files path {} false false).value := rfl

/-- A file that holds the product but must not be read is written all the same, and left as it was;
so the same is done at the next run. The null device never holds the product, and is written at every
run too. -/
theorem act_generate_rewrites :
    ((titleInputs.product sealedFiles {} false).value.map (·.generated.bytes) = .ok titleBytes ∧
      sealedFiles.locate "Title.swift" = .ok ["Title.swift"] ∧
      sealedFiles.node? ["Title.swift"] = some (.file titleBytes { readable := false }) ∧
      (titleRun sealedFiles "Title.swift").outcome = .ok (.generated true 1) ∧
      (titleRun sealedFiles "Title.swift").files = sealedFiles) ∧
    titleBytes ≠ [] ∧ titleFiles.read "/dev/null" = .ok [] ∧
      (titleRun titleFiles "/dev/null").outcome = .ok (.generated true 1) ∧
      (titleRun titleFiles "/dev/null").files = titleFiles := by
  obtain ⟨product, hproduct, hlength⟩ := exists_product_titleFiles
  have hbytes : titleBytes = product.generated.bytes := by rw [titleBytes, hproduct]
  have hproduct' : (titleInputs.product sealedFiles {} false).value = .ok product := by
    rw [product_sealedFiles, hproduct]
  have hne : product.generated.bytes ≠ [] :=
    Generated.bytes_ne_nil (of_product_eq_ok hproduct).2
  have hdenied : sealedFiles.read "Title.swift" = .error .permissionDenied := rfl
  have hempty : titleFiles.read "/dev/null" = .ok [] := rfl
  have hwrite : sealedFiles.write "Title.swift" product.generated.bytes = .ok sealedFiles := by
    rw [← hbytes]
    rfl
  have hsealed : (titleRun sealedFiles "Title.swift").files = sealedFiles ∧
      (titleRun sealedFiles "Title.swift").outcome = .ok (.generated true 1) := by
    rw [titleRun_eq, ← hlength]
    exact writeProduct_of_unread rfl rfl hproduct' (by simp [hdenied]) rfl hwrite
  have hdropped : (titleRun titleFiles "/dev/null").files = titleFiles ∧
      (titleRun titleFiles "/dev/null").outcome = .ok (.generated true 1) := by
    rw [titleRun_eq, ← hlength]
    exact writeProduct_of_unread rfl rfl hproduct (by simpa [hempty] using hne.symm) rfl rfl
  refine ⟨⟨?_, rfl, rfl, hsealed.2, hsealed.1⟩, hbytes ▸ hne, hempty, hdropped.2, hdropped.1⟩
  rw [hproduct', hbytes]
  rfl

end Invocation

end LocalizedAccessors
