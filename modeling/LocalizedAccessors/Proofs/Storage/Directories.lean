import LocalizedAccessors.Proofs.Storage.Walk

/-!
# Making directories

Making the directories around a file adds directories and changes nothing else, whether it succeeds
or not. Once it has succeeded, it finds all of them from then on and makes none.
-/

namespace LocalizedAccessors.FileSystem

variable {files before after made later : FileSystem} {here : Location} {path : String}

/-- The second file system is the first one with some directories added. -/
structure GainsDirectories (before after : FileSystem) : Prop where
  workingDirectory : after.workingDirectory = before.workingDirectory
  node? : ∀ location, after.node? location = before.node? location ∨
    before.node? location = none ∧ after.node? location = some (.directory {})

namespace GainsDirectories

theorem refl (files : FileSystem) : files.GainsDirectories files := ⟨rfl, fun _ ↦ .inl rfl⟩

theorem trans (first : before.GainsDirectories made) (second : made.GainsDirectories after) :
    before.GainsDirectories after where
  workingDirectory := second.workingDirectory.trans first.workingDirectory
  node? location := by
    rcases second.node? location with hsame | ⟨hnone, hnew⟩
    · rw [hsame]
      exact first.node? location
    · refine .inr ⟨?_, hnew⟩
      rcases first.node? location with hsame | ⟨hnone', -⟩
      · rw [← hsame, hnone]
      · exact hnone'

theorem put {location : Location} (h : files.node? location = none) :
    files.GainsDirectories (files.put location (.directory {})) where
  workingDirectory := rfl
  node? other := by
    rw [node?_put]
    split
    · next heq => exact .inr ⟨heq ▸ h, rfl⟩
    · exact .inl rfl

/-- What was there is there still. -/
theorem kept (gains : before.GainsDirectories after) {location : Location} {node : Node}
    (h : before.node? location = some node) : after.node? location = some node := by
  rcases gains.node? location with hsame | ⟨hnone, -⟩
  · rw [hsame, h]
  · simp [hnone] at h

theorem keepsDirectories (gains : before.GainsDirectories after) :
    before.KeepsDirectories after := fun _ _ h ↦ gains.kept h

/-- No file is added, changed or removed. -/
theorem file_iff (gains : before.GainsDirectories after) {location : Location}
    {content : List UInt8} {permissions : Permissions} :
    after.node? location = some (.file content permissions) ↔
      before.node? location = some (.file content permissions) := by
  rcases gains.node? location with hsame | ⟨hnone, hnew⟩
  · rw [hsame]
  · simp [hnone, hnew]

end GainsDirectories

theorem gainsDirectories_makeMissing (files : FileSystem) (here : Location) (someMade : Bool)
    (names : List String) : files.GainsDirectories (files.makeMissing here someMade names).1 := by
  fun_induction makeMissing files here someMade names
  case case1 | case4 | case6 | case7 | case9 => exact .refl _
  case case2 ih | case3 ih | case5 ih => exact ih
  case case8 hnone _ _ _ ih => exact (GainsDirectories.put hnone).trans ih

/-- A second time there is nothing left to make, even if more was added in between. -/
theorem makeMissing_of_made {someMade : Bool} {names : List String}
    (h : files.makeMissing here someMade names = (made, .ok ()))
    (keeps : made.KeepsDirectories later) (later' : Bool) :
    later.makeMissing here later' names = (later, .ok ()) := by
  fun_induction makeMissing files here someMade names generalizing later'
  case case1 => rfl
  case case2 hskip ih =>
    rw [makeMissing, if_pos hskip]
    exact ih h later'
  case case3 hskip ih =>
    rw [makeMissing, if_neg hskip, if_pos rfl]
    exact ih h later'
  case case5 files here someMade name rest hskip hup hshort _ hnode ih =>
    have hmade := (gainsDirectories_makeMissing files (here ++ [name]) someMade rest).kept hnode
    rw [h] at hmade
    rw [makeMissing, if_neg hskip, if_neg hup, if_neg hshort, keeps _ _ hmade]
    exact ih h later'
  case case8 files here someMade name rest hskip hup hshort hnone _ _ _ ih =>
    have hnew : (files.put (here ++ [name]) (.directory {})).node? (here ++ [name]) =
        some (.directory {}) := by
      rw [node?_put, if_pos rfl]
    have hmade := (gainsDirectories_makeMissing _ (here ++ [name]) true rest).kept hnew
    rw [h] at hmade
    rw [makeMissing, if_neg hskip, if_neg hup, if_neg hshort, keeps _ _ hmade]
    exact ih h later'
  all_goals simp at h

/-- Names that lead on a walk to something that exists leave nothing to make, which is well if it is
a directory. -/
theorem makeMissing_of_walk {names : List String} {location : Location} {node : Node}
    (h : files.walk here names = .ok location) (hnode : files.node? location = some node)
    (someMade : Bool) :
    ∃ outcome, files.makeMissing here someMade (names.filter FilePath.leadsOn) = (files, outcome) ∧
      ∀ permissions, node = .directory permissions → outcome = .ok () := by
  induction names generalizing here with
  | nil => exact ⟨_, rfl, fun _ _ ↦ rfl⟩
  | cons name rest ih =>
    obtain ⟨-, hshort, hrest⟩ := walk_cons_eq_ok.1 h
    rw [entered] at hrest
    split at hrest
    · next hskip =>
      have hleads : ¬FilePath.leadsOn name = true := by
        rcases hskip with rfl | rfl <;> decide
      rw [List.filter_cons_of_neg hleads]
      exact ih hrest
    · next hskip =>
      have hleads : FilePath.leadsOn name = true := by simpa [FilePath.leadsOn] using hskip
      rw [List.filter_cons_of_pos hleads, makeMissing, if_neg hskip]
      split at hrest
      · next hup =>
        rw [if_pos hup]
        exact ih hrest
      · next hup =>
        rw [if_neg hup, if_neg (Nat.not_lt.2 hshort)]
        cases rest with
        | nil =>
          rw [Except.ok.inj hrest, hnode]
          cases node with
          | file => exact ⟨_, rfl, by simp⟩
          | directory => exact ⟨_, rfl, fun _ _ ↦ rfl⟩
        | cons =>
          obtain ⟨permissions, hdirectory⟩ := (walk_cons_eq_ok.1 hrest).1
          rw [hdirectory]
          exact ih hrest

theorem makeMissing_components (files : FileSystem) (here : Location) (someMade : Bool)
    (path : String) :
    files.makeMissing here someMade (FilePath.components path) =
      files.makeMissing here someMade ((FilePath.names path).filter FilePath.leadsOn) := by
  rw [FilePath.components]
  cases FilePath.names path with
  | nil => rfl
  | cons first rest =>
    by_cases hempty : first = ""
    · simp [hempty, FilePath.leadsOn]
    · by_cases hdot : first = "."
      · simp [hdot, FilePath.leadsOn, makeMissing]
      · simp [hempty, hdot, FilePath.leadsOn]

theorem gainsDirectories_makeDirectories (files : FileSystem) (path : String) :
    files.GainsDirectories (files.makeDirectories path).1 := by
  unfold makeDirectories
  split
  · exact .refl _
  · exact gainsDirectories_makeMissing ..

theorem gainsDirectories_ensureEnclosing (files : FileSystem) (path : String) :
    files.GainsDirectories (files.ensureEnclosing path).1 := by
  unfold ensureEnclosing
  split
  · exact .refl _
  · exact gainsDirectories_makeDirectories ..

theorem makeDirectories_of_exists (h : files.exists? path = true) :
    (files.makeDirectories path).1 = files := by
  obtain ⟨node, hnode⟩ := exists?_iff.1 h
  obtain ⟨location, hlocate, hnode⟩ := resolve_eq_ok.1 hnode
  obtain ⟨_, hcheck, hwalk⟩ := bind_eq_ok.1 hlocate
  obtain ⟨outcome, hmade, -⟩ := makeMissing_of_walk hwalk hnode false
  rw [makeDirectories, hcheck, makeMissing_components, hmade]

theorem makeDirectories_of_isDirectory (h : files.isDirectory path = true) :
    files.makeDirectories path = (files, .ok ()) := by
  obtain ⟨permissions, hnode⟩ := isDirectory_iff.1 h
  obtain ⟨location, hlocate, hnode⟩ := resolve_eq_ok.1 hnode
  obtain ⟨_, hcheck, hwalk⟩ := bind_eq_ok.1 hlocate
  obtain ⟨outcome, hmade, hok⟩ := makeMissing_of_walk hwalk hnode false
  rw [makeDirectories, hcheck, makeMissing_components, hmade, hok permissions rfl]

theorem ensureEnclosing_of_hasEnclosing (h : files.hasEnclosing path = true) :
    (files.ensureEnclosing path).1 = files := by
  unfold ensureEnclosing
  split
  · rfl
  · next hne => exact makeDirectories_of_exists (by simpa [hasEnclosing, hne] using h)

/-- Once the directories around a file were made, they are found. -/
theorem ensureEnclosing_of_made (h : files.ensureEnclosing path = (made, .ok ()))
    (keeps : made.KeepsDirectories later)
    (start : later.workingDirectory = made.workingDirectory) :
    later.ensureEnclosing path = (later, .ok ()) := by
  have hstart : later.workingDirectory = files.workingDirectory := by
    have gains := gainsDirectories_ensureEnclosing files path
    rw [h] at gains
    exact start.trans gains.workingDirectory
  unfold ensureEnclosing at h ⊢
  split at h
  · next hempty => rw [if_pos hempty]
  · next hempty =>
    have horigin : later.origin (FilePath.enclosing path) =
        files.origin (FilePath.enclosing path) := by rw [origin, origin, hstart]
    rw [if_neg hempty]
    cases hcheck : checkPath (FilePath.enclosing path) with
    | error fault => simp [makeDirectories, hcheck] at h
    | ok =>
      simp only [makeDirectories, hcheck] at h ⊢
      rw [horigin]
      exact makeMissing_of_made h keeps false

end LocalizedAccessors.FileSystem
