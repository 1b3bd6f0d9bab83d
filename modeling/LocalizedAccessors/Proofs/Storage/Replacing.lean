import LocalizedAccessors.Proofs.Storage.Directories

/-!
# Replacing a file

Writing puts a file in one place, or gives content to a device there, and leaves everything else as
it was. So what is read along a path that leads elsewhere is the same afterwards, and an update that
is done again changes nothing.
-/

namespace LocalizedAccessors.FileSystem

variable {files before after written : FileSystem} {path : String} {content : List UInt8}
  {location directory : Location} {name : String} {permissions : Permissions}

theorem read_eq_ok :
    files.read path = .ok content ↔ ∃ location permissions, files.locate path = .ok location ∧
      files.node? location = some (.file content permissions) ∧ permissions.readable = true := by
  have hread : files.read path = .ok content ↔
      ∃ permissions, files.resolve path = .ok (.file content permissions) ∧
        permissions.readable = true := by
    rw [read, bind_eq_ok]
    constructor
    · rintro ⟨_ | _, hnode, h⟩
      · simp only [] at h
        split at h
        · next hreadable =>
          obtain rfl := Except.ok.inj h
          exact ⟨_, hnode, hreadable⟩
        · simp at h
      · simp at h
    · rintro ⟨permissions, hnode, hreadable⟩
      exact ⟨_, hnode, if_pos hreadable⟩
  rw [hread]
  simp only [resolve_eq_ok]
  grind

theorem read_eq_ok_of_locate {held : List UInt8} (hlocate : files.locate path = .ok location)
    (hfile : files.node? location = some (.file held permissions)) :
    files.read path = .ok content ↔ held = content ∧ permissions.readable = true := by
  simp [read_eq_ok, hlocate, hfile, and_assoc]

/-! ## Where a file can be -/

/-- Whether a path leads to a place in a directory that a file can have. -/
structure LeadsToFile (files : FileSystem) (path : String) (directory : Location) (name : String)
    (permissions : Permissions) : Prop where
  valid : checkPath path = .ok ()
  names : FilePath.names path = (FilePath.names path).dropLast ++ [name]
  leadsOn : name ≠ "" ∧ name ≠ "." ∧ name ≠ ".."
  short : name.utf8ByteSize ≤ 255
  walk : files.walk (files.origin path) (FilePath.names path).dropLast = .ok directory
  directory : files.node? directory = some (.directory permissions)

theorem LeadsToFile.locate (leads : files.LeadsToFile path directory name permissions) :
    files.locate path = .ok (directory ++ [name]) := by
  obtain ⟨hnone, hdot, hup⟩ := leads.leadsOn
  refine bind_eq_ok.2 ⟨(), leads.valid, ?_⟩
  rw [leads.names, walk_append_eq_ok]
  refine ⟨directory, leads.walk, walk_cons_eq_ok.2 ⟨⟨_, leads.directory⟩, leads.short, ?_⟩⟩
  simp [entered, hnone, hdot, hup, FileSystem.walk]

theorem LeadsToFile.of_keepsDirectories
    (leads : before.LeadsToFile path directory name permissions)
    (keeps : before.KeepsDirectories after)
    (start : after.workingDirectory = before.workingDirectory) :
    after.LeadsToFile path directory name permissions where
  valid := leads.valid
  names := leads.names
  leadsOn := leads.leadsOn
  short := leads.short
  walk := by
    rw [origin, start]
    exact keeps.walk leads.walk
  directory := keeps _ _ leads.directory

/-- The outcome of writing a file to a location in a directory. -/
def putFile (files : FileSystem) (location : Location) (content : List UInt8)
    (around : Permissions) : Except StorageFault FileSystem :=
  match files.node? location with
  | some (.directory _) => .error .isADirectory
  | some (.file _ own) =>
    if own.writable then .ok (files.overwrite location content own) else .error .permissionDenied
  | none =>
    if around.writable then .ok (files.put location (.file content {}))
    else .error .permissionDenied

/-- The names of a path without the empty ones at its end. -/
def trimmedNames (path : String) : List String :=
  ((FilePath.names path).reverse.dropWhile (· = "")).reverse

def lastName (path : String) : String := (trimmedNames path).getLast?.getD "."

theorem write_eq (files : FileSystem) (path : String) (content : List UInt8) :
    files.write path content = (do
      checkPath path
      let directory ← files.walk (files.origin path) (trimmedNames path).dropLast
      let permissions ← files.directoryAt directory
      if lastName path = "." ∨ lastName path = ".." ∨ (FilePath.names path).getLast? = some "" then
        .error .isADirectory
      else if 255 < (lastName path).utf8ByteSize then .error .nameTooLong
      else files.putFile (directory ++ [lastName path]) content permissions) :=
  rfl

theorem trimmedNames_of_names {names : List String} (h : FilePath.names path = names ++ [name])
    (hname : name ≠ "") : trimmedNames path = names ++ [name] := by
  simp [trimmedNames, h, hname]

theorem write_of_leadsToFile (leads : files.LeadsToFile path directory name permissions)
    (content : List UInt8) :
    files.write path content = files.putFile (directory ++ [name]) content permissions := by
  obtain ⟨hnone, hdot, hup⟩ := leads.leadsOn
  have htrimmed := trimmedNames_of_names leads.names hnone
  have hlast : lastName path = name := by
    rw [lastName, htrimmed, List.getLast?_concat, Option.getD_some]
  have hspecial : ¬(name = "." ∨ name = ".." ∨ (FilePath.names path).getLast? = some "") := by
    rw [leads.names, List.getLast?_concat, Option.some.injEq]
    exact not_or.2 ⟨hdot, not_or.2 ⟨hup, hnone⟩⟩
  have hshort := Nat.not_lt.2 leads.short
  rw [write_eq, hlast, htrimmed, List.dropLast_concat, leads.valid, leads.walk]
  simp only [directoryAt, leads.directory, bind, Except.bind, hspecial, hshort, if_false]

theorem exists_leadsToFile_of_write (h : files.write path content = .ok written) :
    ∃ directory name permissions, files.LeadsToFile path directory name permissions := by
  rw [write_eq] at h
  obtain ⟨_, hvalid, h⟩ := bind_eq_ok.1 h
  obtain ⟨directory, hwalk, h⟩ := bind_eq_ok.1 h
  obtain ⟨permissions, hdirectory, h⟩ := bind_eq_ok.1 h
  split at h
  · simp at h
  · next hspecial =>
    split at h
    · simp at h
    · next hshort =>
      -- Without a name at its end the path would be taken for a directory.
      rcases List.eq_nil_or_concat (FilePath.names path) with hnil | ⟨names, name, hnames⟩
      · simp [lastName, trimmedNames, hnil] at hspecial
      · rw [List.concat_eq_append] at hnames
        have hne : name ≠ "" := by
          rintro rfl
          simp [hnames] at hspecial
        have htrimmed := trimmedNames_of_names hnames hne
        have hlast : lastName path = name := by
          rw [lastName, htrimmed, List.getLast?_concat, Option.getD_some]
        rw [hlast] at hspecial hshort
        rw [htrimmed] at hwalk
        obtain ⟨hdot, hup, -⟩ : name ≠ "." ∧ name ≠ ".." ∧ _ := by simpa using hspecial
        refine ⟨directory, name, permissions, hvalid, ?_, ⟨hne, hdot, hup⟩,
          Nat.not_lt.1 hshort, ?_, ?_⟩
        · rw [hnames, List.dropLast_concat]
        · rw [hnames]
          exact hwalk
        · unfold directoryAt at hdirectory
          split at hdirectory
          · next hnode => rw [hnode, Except.ok.inj hdirectory]
          all_goals simp at hdirectory

/-- Whether a file can be put at a location: what has to be writable is the file that is there or,
if there is nothing, the directory around it. -/
def Permits (files : FileSystem) (location : Location) (around : Permissions) : Prop :=
  match files.node? location with
  | some (.directory _) => False
  | some (.file _ own) => own.writable = true
  | none => around.writable = true

/-- Whether a file can be written at a path. -/
def CanPlace (files : FileSystem) (path : String) : Prop :=
  ∃ directory name around, files.LeadsToFile path directory name around ∧
    files.Permits (directory ++ [name]) around

theorem exists_putFile_iff :
    (∃ written, files.putFile location content permissions = .ok written) ↔
      files.Permits location permissions := by
  unfold putFile Permits
  cases files.node? location with
  | none => by_cases h : permissions.writable = true <;> simp [h]
  | some node =>
    cases node with
    | directory => simp
    | file old own => by_cases h : own.writable = true <;> simp [h]

theorem exists_write_iff :
    (∃ written, files.write path content = .ok written) ↔ files.CanPlace path := by
  constructor
  · rintro ⟨written, h⟩
    obtain ⟨directory, name, around, leads⟩ := exists_leadsToFile_of_write h
    rw [write_of_leadsToFile leads] at h
    exact ⟨directory, name, around, leads, exists_putFile_iff.1 ⟨written, h⟩⟩
  · rintro ⟨directory, name, around, leads, hpermits⟩
    rw [write_of_leadsToFile leads]
    exact exists_putFile_iff.2 hpermits

/-! ## What a write does -/

/-- The second file system is the first one with this file at the location. -/
structure Replaces (before : FileSystem) (location : Location) (content : List UInt8)
    (permissions : Permissions) (after : FileSystem) : Prop where
  workingDirectory : after.workingDirectory = before.workingDirectory
  /-- Either the file is new, or only its content can differ from what it was. -/
  replaced : before.node? location = none ∧ permissions = {} ∨
    ∃ old, before.node? location = some (.file old permissions)
  file : after.node? location = some (.file content permissions)
  others : ∀ other, other ≠ location → after.node? other = before.node? other

theorem Replaces.keepsDirectories (replaces : before.Replaces location content permissions after) :
    before.KeepsDirectories after := by
  intro other own hother
  have hne : other ≠ location := by
    rintro rfl
    rcases replaces.replaced with ⟨hnone, -⟩ | ⟨old, hfile⟩
    · simp [hnone] at hother
    · simp [hfile] at hother
  rw [replaces.others other hne, hother]

theorem Replaces.directories_kept (replaces : before.Replaces location content permissions after) :
    after.KeepsDirectories before := by
  intro other own hother
  have hne : other ≠ location := by
    rintro rfl
    simp [replaces.file] at hother
  rw [← replaces.others other hne, hother]

/-- A path that leads elsewhere leads to the same node as before, or to none as before. -/
theorem Replaces.toOption_resolve (replaces : before.Replaces location content permissions after)
    (helsewhere : after.locate path ≠ .ok location) :
    (after.resolve path).toOption = (before.resolve path).toOption := by
  have hiff : ∀ node, after.resolve path = .ok node ↔ before.resolve path = .ok node := by
    intro node
    simp only [resolve_eq_ok]
    constructor
    · rintro ⟨other, hlocate, hnode⟩
      have hne : other ≠ location := fun heq ↦ helsewhere (heq ▸ hlocate)
      exact ⟨other, replaces.directories_kept.locate replaces.workingDirectory.symm hlocate,
        replaces.others other hne ▸ hnode⟩
    · rintro ⟨other, hlocate, hnode⟩
      have hlocate' := replaces.keepsDirectories.locate replaces.workingDirectory hlocate
      have hne : other ≠ location := fun heq ↦ helsewhere (heq ▸ hlocate')
      exact ⟨other, hlocate', (replaces.others other hne).trans hnode⟩
  apply Option.ext
  intro node
  rw [toOption_eq_some, toOption_eq_some, hiff]

/-- What a path that leads elsewhere leads to is there still. -/
theorem Replaces.resolve_kept {node : Node}
    (replaces : before.Replaces location content permissions after)
    (gains : files.GainsDirectories before)
    (helsewhere : after.locate path ≠ .ok location) (h : files.resolve path = .ok node) :
    after.resolve path = .ok node := by
  obtain ⟨other, hlocate, hnode⟩ := resolve_eq_ok.1 h
  have hbefore : before.resolve path = .ok node :=
    resolve_eq_ok.2 ⟨other, gains.keepsDirectories.locate gains.workingDirectory hlocate,
      gains.kept hnode⟩
  rw [← toOption_eq_some, replaces.toOption_resolve helsewhere, hbefore]
  rfl

theorem replaces_put
    (replaced : files.node? location = none ∧ permissions = {} ∨
      ∃ old, files.node? location = some (.file old permissions)) :
    files.Replaces location content permissions
      (files.put location (.file content permissions)) where
  workingDirectory := rfl
  replaced := replaced
  file := by rw [node?_put, if_pos rfl]
  others other hother := by rw [node?_put, if_neg hother]

theorem replaces_self (h : files.node? location = some (.file content permissions)) :
    files.Replaces location content permissions files :=
  ⟨rfl, .inr ⟨content, h⟩, h, fun _ _ ↦ rfl⟩

/-- The second file system is the first one after some content was written to a location, which then
holds the content. If what is there is a device that keeps nothing, all is as it was. -/
structure Receives (before : FileSystem) (location : Location) (content held : List UInt8)
    (permissions : Permissions) (after : FileSystem) : Prop
    extends before.Replaces location held permissions after where
  kept : permissions.keeps = true → held = content
  dropped : permissions.keeps = false → after = before

theorem receives_overwrite {old : List UInt8}
    (hfile : files.node? location = some (.file old permissions)) :
    ∃ held, files.Receives location content held permissions
      (files.overwrite location content permissions) := by
  cases hkeeps : permissions.keeps with
  | true =>
    rw [overwrite, if_pos hkeeps]
    exact ⟨content, replaces_put (.inr ⟨old, hfile⟩), fun _ ↦ rfl, by simp [hkeeps]⟩
  | false =>
    rw [overwrite, if_neg (by simp [hkeeps])]
    exact ⟨old, replaces_self hfile, by simp [hkeeps], fun _ ↦ rfl⟩

theorem write_eq_ok (h : files.write path content = .ok written) :
    ∃ directory name own held permissions, files.LeadsToFile path directory name own ∧
      files.Receives (directory ++ [name]) content held permissions written ∧
      permissions.writable = true := by
  obtain ⟨directory, name, own, leads⟩ := exists_leadsToFile_of_write h
  rw [write_of_leadsToFile leads, putFile] at h
  split at h
  · simp at h
  · next old permissions hfile =>
    split at h
    · next hwritable =>
      obtain rfl := Except.ok.inj h
      obtain ⟨held, receives⟩ := receives_overwrite hfile
      exact ⟨directory, name, own, held, permissions, leads, receives, hwritable⟩
    · simp at h
  · next hnone =>
    split at h
    · obtain rfl := Except.ok.inj h
      exact ⟨directory, name, own, content, {}, leads,
        ⟨replaces_put (.inl ⟨hnone, rfl⟩), fun _ ↦ rfl, nofun⟩, rfl⟩
    · simp at h

/-- The only file among the fixtures keeps nothing, so a file that does is none of them. -/
theorem lookup_of_keeps (hfile : files.node? location = some (.file content permissions))
    (hkeeps : permissions.keeps = true) :
    files.nodes.lookup location = some (.file content permissions) := by
  have hfixture : fixtures.lookup location ≠ some (.file content permissions) := by
    intro hlookup
    obtain ⟨front, rest, hfixtures, -⟩ := List.lookup_eq_some_iff.1 hlookup
    have hmem : (location, Node.file content permissions) ∈ fixtures := by simp [hfixtures]
    obtain ⟨-, -, rfl⟩ : location = ["dev", "null"] ∧ content = [] ∧
        permissions = { keeps := false } := by simpa [fixtures] using hmem
    simp at hkeeps
  rw [node?, List.lookup_append, Option.or_eq_some_iff] at hfile
  exact hfile.resolve_right fun hlookup ↦ hfixture hlookup.2

theorem put_self {node : Node} (h : files.nodes.lookup location = some node) :
    files.put location node = files := by
  have hnodes : ∀ nodes : List (Location × Node), nodes.lookup location = some node →
      putNode location node nodes = nodes := by
    intro nodes hlookup
    induction nodes with
    | nil => simp at hlookup
    | cons other rest ih => grind [putNode]
  rw [put, hnodes files.nodes h]

/-- What a file holds already, or does not keep, can be written to it without any change. -/
theorem overwrite_self {held : List UInt8}
    (hfile : files.node? location = some (.file held permissions))
    (hkept : permissions.keeps = true → held = content) :
    files.overwrite location content permissions = files := by
  unfold overwrite
  split
  · next hkeeps =>
    obtain rfl := hkept hkeeps
    exact put_self (lookup_of_keeps hfile hkeeps)
  · rfl

/-- Writing the same once more changes nothing. -/
theorem write_written (h : files.write path content = .ok written) :
    written.write path content = .ok written := by
  obtain ⟨directory, name, own, held, permissions, leads, receives, hwritable⟩ := write_eq_ok h
  have leads' := leads.of_keepsDirectories receives.keepsDirectories receives.workingDirectory
  rw [write_of_leadsToFile leads', putFile, receives.file]
  simp only [hwritable, if_true]
  rw [overwrite_self receives.file receives.kept]

theorem Replaces.exists? (replaces : before.Replaces location content permissions after)
    (h : before.exists? path = true) : after.exists? path = true := by
  obtain ⟨node, hresolve⟩ := exists?_iff.1 h
  obtain ⟨other, hlocate, hnode⟩ := resolve_eq_ok.1 hresolve
  have hlocate' := replaces.keepsDirectories.locate replaces.workingDirectory hlocate
  apply exists?_iff.2
  by_cases heq : other = location
  · exact ⟨_, resolve_eq_ok.2 ⟨other, hlocate', heq ▸ replaces.file⟩⟩
  · exact ⟨node, resolve_eq_ok.2 ⟨other, hlocate', (replaces.others other heq).trans hnode⟩⟩

theorem Replaces.hasEnclosing (replaces : before.Replaces location content permissions after)
    (h : before.hasEnclosing path = true) : after.hasEnclosing path = true := by
  rw [FileSystem.hasEnclosing, Bool.or_eq_true] at h ⊢
  exact h.imp_right replaces.exists?

/-! ## Updates -/

theorem update_of_read (h : files.read path = .ok content) :
    files.update path content = (files, .ok false) := by
  rw [update, if_pos (toOption_eq_some.2 h)]

/-- What cannot be read back is written. -/
theorem update_of_unread (hunread : files.read path ≠ .ok content)
    (hmade : files.ensureEnclosing path = (files, .ok ()))
    (hwrite : files.write path content = .ok written) :
    files.update path content = (written, .ok true) := by
  rw [update, if_neg (mt toOption_eq_some.1 hunread), hmade]
  simp only [hwrite]

/-- An update that fails has made directories at most. -/
theorem gainsDirectories_update {fault : StorageFault}
    (h : files.update path content = (after, .error fault)) : files.GainsDirectories after := by
  have hmade := gainsDirectories_ensureEnclosing files path
  rw [update] at h
  split at h
  · simp at h
  · split at h
    · next made fault' hfailed =>
      obtain ⟨rfl, -⟩ := Prod.mk.inj h
      rwa [hfailed] at hmade
    · next made hready =>
      split at h
      · simp at h
      · obtain ⟨rfl, -⟩ := Prod.mk.inj h
        rwa [hready] at hmade

/-- An update either finds the content or writes it. -/
theorem update_eq_ok {isNew : Bool} (h : files.update path content = (after, .ok isNew))
    (ready : (files.ensureEnclosing path).1 = files) :
    (isNew = false ∧ after = files ∧ files.read path = .ok content) ∨
      (isNew = true ∧ files.read path ≠ .ok content ∧
        files.ensureEnclosing path = (files, .ok ()) ∧ files.write path content = .ok after) := by
  by_cases hread : files.read path = .ok content
  · rw [update_of_read hread] at h
    obtain ⟨rfl, hnew⟩ := Prod.mk.inj h
    exact .inl ⟨(Except.ok.inj hnew).symm, rfl, hread⟩
  · rw [update, if_neg (mt toOption_eq_some.1 hread)] at h
    cases hmade : files.ensureEnclosing path with
    | mk made outcome =>
      obtain rfl : made = files := by rw [← ready, hmade]
      cases outcome with
      | error fault => simp [hmade] at h
      | ok =>
        cases hwrite : made.write path content with
        | error fault => simp [hmade, hwrite] at h
        | ok written =>
          obtain ⟨rfl, hnew⟩ : written = after ∧ true = isNew := by simpa [hmade, hwrite] using h
          exact .inr ⟨hnew.symm, hread, rfl, rfl⟩

/-- An update of a file that can be written is a write unless the content can be read there. -/
theorem update_of_file {held : List UInt8} (hlocate : files.locate path = .ok location)
    (hfile : files.node? location = some (.file held permissions))
    (hmade : files.ensureEnclosing path = (files, .ok ()))
    (hwrite : files.write path content = .ok files) :
    ∃ isNew, files.update path content = (files, .ok isNew) ∧
      (isNew = false ↔ held = content ∧ permissions.readable = true) := by
  have hiff := @read_eq_ok_of_locate files path content location permissions held hlocate hfile
  by_cases hread : files.read path = .ok content
  · exact ⟨false, update_of_read hread, iff_of_true rfl (hiff.1 hread)⟩
  · exact ⟨true, update_of_unread hread hmade hwrite,
      iff_of_false Bool.true_eq_false.mp (mt hiff.2 hread)⟩

/-- An update once the directories around the file are there: the content goes to the file, except
that a file that could be read and had it before is not written. The same update changes nothing
more; what it cannot read there, it writes again. -/
theorem update_update {isNew : Bool} (h : files.update path content = (after, .ok isNew))
    (ready : (files.ensureEnclosing path).1 = files) :
    ∃ location held permissions, after.locate path = .ok location ∧
      files.Receives location content held permissions after ∧
      (isNew = false ↔
        files.node? location = some (.file content permissions) ∧ permissions.readable = true) ∧
      ∃ rewritten, after.update path content = (after, .ok rewritten) ∧
        (rewritten = false ↔ held = content ∧ permissions.readable = true) := by
  rcases update_eq_ok h ready with ⟨hnew, rfl, hread⟩ | ⟨hnew, hunread, hmade, hwrite⟩
  · obtain ⟨location, permissions, hlocate, hfile, hreadable⟩ := read_eq_ok.1 hread
    refine ⟨location, content, permissions, hlocate,
      ⟨replaces_self hfile, fun _ ↦ rfl, fun _ ↦ rfl⟩, ?_, false, update_of_read hread, ?_⟩
    · exact iff_of_true hnew ⟨hfile, hreadable⟩
    · exact iff_of_true rfl ⟨rfl, hreadable⟩
  · obtain ⟨directory, name, own, held, permissions, leads, receives, -⟩ := write_eq_ok hwrite
    have keeps := receives.keepsDirectories
    have leads' := leads.of_keepsDirectories keeps receives.workingDirectory
    have hagain := ensureEnclosing_of_made hmade keeps receives.workingDirectory
    refine ⟨directory ++ [name], held, permissions, leads'.locate, receives, ?_, ?_⟩
    · refine iff_of_false (by simp [hnew]) fun ⟨hfile, hreadable⟩ ↦ hunread ?_
      exact read_eq_ok.2 ⟨_, _, leads.locate, hfile, hreadable⟩
    · exact update_of_file leads'.locate receives.file hagain (write_written hwrite)

/-- Once the directories around a file are there, an update fails only where nothing can be
written. -/
theorem update_of_canPlace (h : files.CanPlace path)
    (ready : files.ensureEnclosing path = (files, .ok ())) :
    ∃ isNew, (files.update path content).2 = .ok isNew := by
  rw [update]
  split
  · exact ⟨_, rfl⟩
  · obtain ⟨written, hwritten⟩ : ∃ written, files.write path content = .ok written :=
      exists_write_iff.2 h
    rw [ready]
    simp only [hwritten]
    exact ⟨_, rfl⟩

end LocalizedAccessors.FileSystem
