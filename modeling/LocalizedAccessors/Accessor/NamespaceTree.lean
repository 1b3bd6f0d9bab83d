import LocalizedAccessors.Accessor.Arena
import LocalizedAccessors.Text.Uppercase

/-!
# The namespace tree

Keys with dots make a tree of namespaces, which is an arena whose numbers grow on the way down. So
the path of a namespace is found by going up through its parents, and whatever is below a site by
going down through children. Namespaces are never removed: those around a key stay even if the key
itself is refused.
-/

namespace LocalizedAccessors

structure NamespaceTree extends Arena where
  ordered : toArena.Ordered
  deriving DecidableEq, Repr

/-- The name of the Swift structure for a namespace. -/
def structName (identifier : String) : String := Text.capitalized identifier

/-- The last identifier of a path. -/
def Path.identifier (path : Path) : String := path.getLast?.getD ""

def Path.structName (path : Path) : String := LocalizedAccessors.structName path.identifier

namespace NamespaceTree

def empty : NamespaceTree := ⟨{}, Arena.ordered_empty⟩

def isEmpty (tree : NamespaceTree) : Bool :=
  tree.top.entries.isEmpty && tree.top.children.isEmpty

/-- The identifiers from the top level down to a namespace. -/
def path (tree : NamespaceTree) (id : Nat) : Path :=
  match _h : tree.parentOf id with
  | none => [tree.identifierOf id]
  | some parent => tree.path parent ++ [tree.identifierOf id]
termination_by id
decreasing_by exact tree.ordered.parent_lt _h

def sitePath (tree : NamespaceTree) : Site → Path
  | none => []
  | some id => tree.path id

theorem path_eq (tree : NamespaceTree) (id : Nat) :
    tree.path id = tree.sitePath (tree.parentOf id) ++ [tree.identifierOf id] := by
  rw [path]
  split <;> simp_all [sitePath]

/-- A tree seen from one of its sites. -/
structure Cursor where
  tree : NamespaceTree
  site : Site
  here : tree.Has site

namespace Cursor

def atTop (tree : NamespaceTree) : Cursor := ⟨tree, none, Arena.has_none⟩

/-- The path of the site. -/
def path (cursor : Cursor) : Path := cursor.tree.sitePath cursor.site

/-- Goes down into the namespace with an identifier, which is added if it is missing. -/
def enter (cursor : Cursor) (identifier : String) : Cursor where
  tree :=
    ⟨(cursor.tree.resolve cursor.site identifier).1,
      (cursor.tree.ordered.resolve cursor.here identifier).1⟩
  site := some (cursor.tree.resolve cursor.site identifier).2
  here := (cursor.tree.ordered.resolve cursor.here identifier).2

/-- The tree with one more entry at the site. -/
def declare (cursor : Cursor) (entry : Entry) : NamespaceTree :=
  ⟨cursor.tree.toArena.declare cursor.site entry, cursor.tree.ordered.declare cursor.here entry⟩

end Cursor

/-- The tree with all the namespaces along a path, seen from its end. -/
def grow (tree : NamespaceTree) (path : Path) : Cursor := path.foldl Cursor.enter (.atTop tree)

/-- The tree after the insertion of a key, and whether the key was in order. A key that names
nothing changes nothing. -/
def insert (tree : NamespaceTree) (key : String) (arguments : List ArgumentKind) :
    NamespaceTree × Except ArgumentMismatch Unit :=
  match Key.place key with
  | .error _ => (tree, .ok ())
  | .ok placement =>
    let cursor := tree.grow placement.path
    let location := Path.dotted (cursor.path ++ [placement.leaf])
    match Entry.make location key placement.leaf arguments with
    | .error mismatch => (cursor.tree, .error mismatch)
    | .ok entry => (cursor.declare entry, .ok ())

/-- The number of the namespace with a dotted path. -/
def find? (tree : NamespaceTree) (dotted : String) : Option Nat :=
  (tree.locate? none (Text.fields '.' dotted)).join

def nodeCount (tree : NamespaceTree) : Nat := tree.nodes.length

/-- The paths of the namespaces in the order of creation. -/
def namespaces (tree : NamespaceTree) : List Path :=
  (List.range tree.nodeCount).map tree.path

/-- All entries, those of the top level first. -/
def entries (tree : NamespaceTree) : List Entry :=
  tree.top.entries ++ tree.nodes.flatMap (·.contents.entries)

def entryCount (tree : NamespaceTree) : Nat := tree.entries.length

/-- The paths of the namespaces directly within a path. -/
def children (tree : NamespaceTree) (path : Path) : List Path :=
  match tree.locate? none path with
  | some site => (tree.childrenOf site).map tree.path
  | none => []

/-- The entries directly within a path. -/
def entriesAt (tree : NamespaceTree) (path : Path) : List Entry :=
  match tree.locate? none path with
  | some site => tree.entriesOf site
  | none => []

/-- The name of the Swift structure for the namespace with a number. -/
def structNameOf (tree : NamespaceTree) (id : Nat) : String := structName (tree.identifierOf id)

/-- The namespaces at a site with a structure name that stands there more than once. -/
def clashing (tree : NamespaceTree) (site : Site) : List Nat :=
  (tree.childrenOf site).filter fun id ↦
    1 < (tree.childrenOf site).countP fun other ↦ tree.structNameOf other = tree.structNameOf id

/-- The top level and every namespace in the order of creation. -/
def sites (tree : NamespaceTree) : List Site :=
  none :: (List.range tree.nodeCount).map some

/-- The dotted paths of the namespaces that have a sibling with the same structure name, in
ascending order. -/
def collisions (tree : NamespaceTree) : List String :=
  ((tree.sites.flatMap tree.clashing).map fun id ↦ Path.dotted (tree.path id)).mergeSort (· ≤ ·)

/-- How far below a site numbers can be found. -/
def room (tree : NamespaceTree) : Site → Nat
  | none => tree.nodes.length + 1
  | some id => tree.nodes.length - id

/-- There is less room below a namespace than around it. -/
theorem room_lt {tree : NamespaceTree} {site : Site} {child : Nat}
    (h : child ∈ tree.childrenOf site) : tree.room (some child) < tree.room site := by
  have hchild := tree.ordered.child_lt h
  cases site with
  | none => exact Nat.lt_succ_of_le (Nat.sub_le ..)
  | some id =>
    have := tree.ordered.lt_child h
    simp only [room]
    omega

/-- Four spaces for every level. -/
def indent (depth : Nat) : String := String.ofList (List.replicate (4 * depth) ' ')

/-- The lines that list a site, for a reader to check. -/
def outline (tree : NamespaceTree) (depth : Nat) (site : Site) : List String :=
  (tree.entriesOf site).map (indent depth ++ ·.summary) ++
    (tree.childrenOf site).attach.flatMap fun ⟨id, _⟩ ↦
      (indent depth ++ tree.identifierOf id ++ "/") :: tree.outline (depth + 1) (some id)
termination_by tree.room site
decreasing_by exact room_lt ‹_›

/-- The whole tree as indented lines in the order of insertion. -/
def dump (tree : NamespaceTree) : String :=
  String.join ((tree.outline 0 none).map (· ++ "\n"))

end NamespaceTree

end LocalizedAccessors
