import LocalizedAccessors.Storage.FileSystem

/-!
# Following paths

Where a path leads depends on directories alone: if all directories of a file system are in another
one too, the paths that lead somewhere in the first lead to the same places in the second.
-/

namespace LocalizedAccessors.FileSystem

variable {files before after : FileSystem} {here there : Location} {path : String}

theorem bind_eq_ok {ε α β : Type} {first : Except ε α} {next : α → Except ε β} {b : β} :
    first >>= next = .ok b ↔ ∃ a, first = .ok a ∧ next a = .ok b := by
  cases first with
  | error fault => simp [bind, Except.bind]
  | ok a => simp [bind, Except.bind]

theorem toOption_eq_some {ε α : Type} {result : Except ε α} {a : α} :
    result.toOption = some a ↔ result = .ok a := by
  cases result <;> simp [Except.toOption]

/-- The location that a path leads to. The place itself need not exist. -/
def locate (files : FileSystem) (path : String) : Except StorageFault Location := do
  checkPath path
  files.walk (files.origin path) (FilePath.names path)

theorem resolve_eq (files : FileSystem) (path : String) :
    files.resolve path = files.locate path >>= fun location ↦
      match files.node? location with
      | some node => .ok node
      | none => .error .notFound := by
  simp only [resolve, locate, bind_assoc]
  rfl

theorem resolve_eq_ok {node : Node} :
    files.resolve path = .ok node ↔
      ∃ location, files.locate path = .ok location ∧ files.node? location = some node := by
  rw [resolve_eq, bind_eq_ok]
  apply exists_congr
  intro location
  apply and_congr_right
  intro _
  cases files.node? location <;> simp

theorem exists?_iff : files.exists? path = true ↔ ∃ node, files.resolve path = .ok node := by
  rw [exists?, Option.isSome_iff_exists]
  exact exists_congr fun node ↦ toOption_eq_some

theorem isFile_iff :
    files.isFile path = true ↔
      ∃ content permissions, files.resolve path = .ok (.file content permissions) ∧
        permissions.keeps = true := by
  unfold isFile
  split
  · next content permissions hfile =>
    constructor
    · exact fun hkeeps ↦ ⟨content, permissions, hfile, hkeeps⟩
    · rintro ⟨_, _, hresolve, hkeeps⟩
      obtain ⟨-, rfl⟩ := Node.file.inj (Except.ok.inj (hfile.symm.trans hresolve))
      exact hkeeps
  · next hfile =>
    refine iff_of_false Bool.false_ne_true ?_
    rintro ⟨content, permissions, hresolve, -⟩
    exact hfile content permissions hresolve

theorem isDirectory_iff :
    files.isDirectory path = true ↔
      ∃ permissions, files.resolve path = .ok (.directory permissions) := by
  unfold isDirectory
  split
  · next permissions hnode => exact iff_of_true rfl ⟨permissions, hnode⟩
  · next hnode => exact iff_of_false Bool.false_ne_true fun ⟨permissions, h⟩ ↦ hnode permissions h

/-- The location that a name leads to from another one. -/
def entered (here : Location) (name : String) : Location :=
  if name = "" ∨ name = "." then here
  else if name = ".." then here.dropLast
  else here ++ [name]

/-- A walk goes on from directories only, and by names that are not too long. -/
theorem walk_cons_eq_ok {name : String} {rest : List String} :
    files.walk here (name :: rest) = .ok there ↔
      (∃ permissions, files.node? here = some (.directory permissions)) ∧
        name.utf8ByteSize ≤ 255 ∧ files.walk (entered here name) rest = .ok there := by
  have hnone : "".utf8ByteSize ≤ 255 := by decide
  have hdot : ".".utf8ByteSize ≤ 255 := by decide
  have hdots : "..".utf8ByteSize ≤ 255 := by decide
  rw [walk, entered]
  cases files.node? here with
  | none => simp
  | some node =>
    cases node with
    | file content permissions => simp
    | directory permissions => grind

theorem walk_append_eq_ok {first rest : List String} :
    files.walk here (first ++ rest) = .ok there ↔
      ∃ between, files.walk here first = .ok between ∧ files.walk between rest = .ok there := by
  induction first generalizing here with
  | nil => simp [walk]
  | cons name first ih =>
    rw [List.cons_append, walk_cons_eq_ok, ih]
    simp only [walk_cons_eq_ok]
    grind

/-- Whether all directories of a file system are in another one too. -/
def KeepsDirectories (before after : FileSystem) : Prop :=
  ∀ location permissions, before.node? location = some (.directory permissions) →
    after.node? location = some (.directory permissions)

theorem KeepsDirectories.walk (keeps : before.KeepsDirectories after) {names : List String}
    (h : before.walk here names = .ok there) : after.walk here names = .ok there := by
  induction names generalizing here with
  | nil => exact h
  | cons name rest ih =>
    rw [walk_cons_eq_ok] at h ⊢
    obtain ⟨⟨permissions, hhere⟩, hshort, hrest⟩ := h
    exact ⟨⟨permissions, keeps here permissions hhere⟩, hshort, ih hrest⟩

theorem KeepsDirectories.locate (keeps : before.KeepsDirectories after)
    (start : after.workingDirectory = before.workingDirectory) {location : Location}
    (h : before.locate path = .ok location) : after.locate path = .ok location := by
  have horigin : after.origin path = before.origin path := by rw [origin, origin, start]
  obtain ⟨_, hcheck, hwalk⟩ := bind_eq_ok.1 h
  exact bind_eq_ok.2 ⟨_, hcheck, horigin ▸ keeps.walk hwalk⟩

end LocalizedAccessors.FileSystem
