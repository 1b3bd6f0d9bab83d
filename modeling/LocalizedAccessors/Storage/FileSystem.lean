import LocalizedAccessors.Storage.FilePath

/-!
# The file system

A file system as a value: directories and files at locations, and the directory that relative paths
start from. Reading and writing follow a path name by name, as an operating system does, so that
`a/../b` needs a directory `a`, and a path with a slash at its end needs a directory. What goes
wrong is told by a fault; an operation that fails says what it did before.
-/

namespace LocalizedAccessors

inductive StorageFault where
  | notFound
  | permissionDenied
  | alreadyExists
  | notADirectory
  | isADirectory
  | nameTooLong
  | nullInName
  /-- The content of a file is not the text that it should be. -/
  | noText
  deriving DecidableEq, Repr

def StorageFault.message : StorageFault → String
  | notFound => "No such file or directory (os error 2)"
  | permissionDenied => "Permission denied (os error 13)"
  | alreadyExists => "File exists (os error 17)"
  | notADirectory => "Not a directory (os error 20)"
  | isADirectory => "Is a directory (os error 21)"
  | nameTooLong => "File name too long (os error 36)"
  | nullInName => "file name contained an unexpected NUL byte"
  | noText => "stream did not contain valid UTF-8"

/-- The names of the directories from the root to a place, and the name of the place itself. -/
abbrev Location := List String

structure Permissions where
  readable : Bool := true
  writable : Bool := true
  /-- Whether what is written stays. A device may take it and keep nothing of it. -/
  keeps : Bool := true
  deriving DecidableEq, Repr

inductive Node where
  | file (content : List UInt8) (permissions : Permissions)
  | directory (permissions : Permissions)
  deriving DecidableEq, Repr

structure FileSystem where
  /-- Where relative paths start. -/
  workingDirectory : Location
  /-- Everything but the fixtures, and what may be in the place of one. -/
  nodes : List (Location × Node)
  deriving DecidableEq, Repr

namespace FileSystem

/-- What a file system has where nothing else is: the root, and in the directory of the devices the
null device, which takes everything and is always empty. -/
def fixtures : List (Location × Node) :=
  [([], .directory {}), (["dev"], .directory {}), (["dev", "null"], .file [] { keeps := false })]

def node? (files : FileSystem) (location : Location) : Option Node :=
  (files.nodes ++ fixtures).lookup location

/-- Replaces what is at a location, or adds it. -/
def putNode (location : Location) (node : Node) : List (Location × Node) → List (Location × Node)
  | [] => [(location, node)]
  | other :: rest =>
    if other.1 = location then (location, node) :: rest
    else other :: putNode location node rest

def put (files : FileSystem) (location : Location) (node : Node) : FileSystem :=
  { files with nodes := putNode location node files.nodes }

theorem lookup_putNode (location other : Location) (node : Node)
    (nodes : List (Location × Node)) :
    (putNode location node nodes).lookup other =
      if other = location then some node else nodes.lookup other := by
  induction nodes with
  | nil => grind [putNode]
  | cons first rest ih => grind [putNode]

/-- What is put at a place is there, and all the rest is as before. -/
theorem node?_put (files : FileSystem) (location : Location) (node : Node) (other : Location) :
    (files.put location node).node? other =
      if other = location then some node else files.node? other := by
  rw [node?, node?, List.lookup_append, List.lookup_append, put, lookup_putNode]
  split <;> rfl

@[simp] theorem workingDirectory_put (files : FileSystem) (location : Location) (node : Node) :
    (files.put location node).workingDirectory = files.workingDirectory := rfl

/-- The place that some names lead to from a location. The place itself need not exist. -/
def walk (files : FileSystem) (here : Location) : List String → Except StorageFault Location
  | [] => .ok here
  | name :: rest =>
    match files.node? here with
    | none => .error .notFound
    | some (.file ..) => .error .notADirectory
    | some (.directory _) =>
      if name = "" ∨ name = "." then walk files here rest
      else if name = ".." then walk files here.dropLast rest
      else if 255 < name.utf8ByteSize then .error .nameTooLong
      else walk files (here ++ [name]) rest

/-- The directory that a path starts from. -/
def origin (files : FileSystem) (path : String) : Location :=
  if FilePath.isAbsolute path then [] else files.workingDirectory

/-- What makes a path useless whatever the file system holds. A path has at most 4095 bytes. -/
def checkPath (path : String) : Except StorageFault Unit := do
  if path = "" then throw .notFound
  if path.toList.contains '\x00' then throw .nullInName
  if 4095 < path.utf8ByteSize then throw .nameTooLong

/-- What a path leads to. -/
def resolve (files : FileSystem) (path : String) : Except StorageFault Node := do
  checkPath path
  match files.node? (← files.walk (files.origin path) (FilePath.names path)) with
  | some node => return node
  | none => throw .notFound

def exists? (files : FileSystem) (path : String) : Bool := (files.resolve path).toOption.isSome

/-- Whether a path leads to a file that is no device. -/
def isFile (files : FileSystem) (path : String) : Bool :=
  match files.resolve path with
  | .ok (.file _ permissions) => permissions.keeps
  | _ => false

def isDirectory (files : FileSystem) (path : String) : Bool :=
  match files.resolve path with
  | .ok (.directory _) => true
  | _ => false

def isReadable (files : FileSystem) (path : String) : Bool :=
  match files.resolve path with
  | .ok (.file _ permissions) | .ok (.directory permissions) => permissions.readable
  | .error _ => false

/-- The content of the file at a path. -/
def read (files : FileSystem) (path : String) : Except StorageFault (List UInt8) := do
  match ← files.resolve path with
  | .file content permissions =>
    if permissions.readable then return content else throw .permissionDenied
  | .directory permissions =>
    throw (if permissions.readable then .isADirectory else .permissionDenied)

/-- The permissions of the directory at a location. -/
def directoryAt (files : FileSystem) (location : Location) : Except StorageFault Permissions :=
  match files.node? location with
  | some (.directory permissions) => .ok permissions
  | some (.file ..) => .error .notADirectory
  | none => .error .notFound

/-- The file system after some content was written to the file at a location. -/
def overwrite (files : FileSystem) (location : Location) (content : List UInt8)
    (own : Permissions) : FileSystem :=
  if own.keeps then files.put location (.file content own) else files

/-- The file system with a file of this content at a path. Either the file has the content
afterwards or nothing is changed, be it by a fault or since a device keeps nothing. -/
def write (files : FileSystem) (path : String) (content : List UInt8) :
    Except StorageFault FileSystem := do
  checkPath path
  let names := ((FilePath.names path).reverse.dropWhile (· = "")).reverse
  let ⟨name, before⟩ : String × List String := (names.getLast?.getD ".", names.dropLast)
  let directory ← files.walk (files.origin path) before
  let permissions ← files.directoryAt directory
  if name = "." ∨ name = ".." ∨ (FilePath.names path).getLast? = some "" then throw .isADirectory
  if 255 < name.utf8ByteSize then throw .nameTooLong
  match files.node? (directory ++ [name]) with
  | some (.directory _) => throw .isADirectory
  | some (.file _ own) =>
    if own.writable then return files.overwrite (directory ++ [name]) content own
    else throw .permissionDenied
  | none =>
    if permissions.writable then return files.put (directory ++ [name]) (.file content {})
    else throw .permissionDenied

/-- Makes the directories that some names lead to from a location and that are missing. Those that
were made stay when a later one cannot be made. A file on the way is no directory to go through; at
the end, or once a directory was made, it takes the place of one that is wanted. -/
def makeMissing (files : FileSystem) (here : Location) (someMade : Bool) :
    List String → FileSystem × Except StorageFault Unit
  | [] => (files, .ok ())
  | name :: rest =>
    if name = "" ∨ name = "." then makeMissing files here someMade rest
    else if name = ".." then makeMissing files here.dropLast someMade rest
    else if 255 < name.utf8ByteSize then (files, .error .nameTooLong)
    else
      match files.node? (here ++ [name]) with
      | some (.directory _) => makeMissing files (here ++ [name]) someMade rest
      | some (.file ..) =>
        (files, .error (if someMade ∨ rest = [] then .alreadyExists else .notADirectory))
      | none =>
        match files.directoryAt here with
        | .error fault => (files, .error fault)
        | .ok permissions =>
          if permissions.writable then
            makeMissing (files.put (here ++ [name]) (.directory {})) (here ++ [name]) true rest
          else (files, .error .permissionDenied)

/-- Makes a directory, unless it exists, and those around it that are missing. -/
def makeDirectories (files : FileSystem) (path : String) :
    FileSystem × Except StorageFault Unit :=
  match checkPath path with
  | .error fault => (files, .error fault)
  | .ok () => files.makeMissing (files.origin path) false (FilePath.components path)

/-- Makes the directories around the last component of a path. -/
def ensureEnclosing (files : FileSystem) (path : String) :
    FileSystem × Except StorageFault Unit :=
  if FilePath.enclosing path = "" then (files, .ok ())
  else files.makeDirectories (FilePath.enclosing path)

/-- Whether the directory around the last component of a path exists; the one that the path starts
from always does. -/
def hasEnclosing (files : FileSystem) (path : String) : Bool :=
  FilePath.enclosing path = "" || files.exists? (FilePath.enclosing path)

/-- Gives the file at a path this content unless it has it already, and tells whether it had to.
Directories around the file that are missing are made first, and stay if the file then cannot be
written. -/
def update (files : FileSystem) (path : String) (content : List UInt8) :
    FileSystem × Except StorageFault Bool :=
  if (files.read path).toOption = some content then (files, .ok false)
  else
    match files.ensureEnclosing path with
    | (made, .error fault) => (made, .error fault)
    | (made, .ok ()) =>
      match made.write path content with
      | .ok written => (written, .ok true)
      | .error fault => (made, .error fault)

/-- What the second file system has and the first has not, or has otherwise. -/
def changes (before after : FileSystem) : List (Location × Node) :=
  after.nodes.filter fun entry ↦ before.node? entry.1 ≠ some entry.2

/-- The path that leads from a directory to a location within it. -/
def relativePath? (directory location : Location) : Option String :=
  if location.take directory.length = directory then
    some ("/".intercalate (location.drop directory.length))
  else none

end FileSystem

end LocalizedAccessors
