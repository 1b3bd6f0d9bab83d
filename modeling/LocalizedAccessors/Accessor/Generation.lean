import LocalizedAccessors.Accessor.Source
import LocalizedAccessors.Catalog.Basic
import LocalizedAccessors.Placeholder.Scan

/-!
# Generation

From a catalog to a Swift file: every value is classified, every key finds its place in the
namespace tree, and the tree is written out after the head of the file. The first key in the order
of the catalog whose labels disagree with its value ends the generation.
-/

namespace LocalizedAccessors

/-- The outcome of a generation. -/
structure Generated where
  /-- The complete file. -/
  contents : String
  /-- The tree that the file declares. -/
  tree : NamespaceTree
  deriving DecidableEq, Repr

namespace NamespaceTree

/-- Inserts a key and reports if it names nothing. -/
def insertReporting (tree : NamespaceTree) (key : String) (arguments : List ArgumentKind) :
    Reported (NamespaceTree × Except ArgumentMismatch Unit) :=
  match Key.place key with
  | .error reason => do
    Reported.report (.namelessKey key reason)
    return tree.insert key arguments
  | .ok _ => return tree.insert key arguments

/-- Inserts keys with their values one after another, up to the first that is refused. -/
def insertAll (tree : NamespaceTree) :
    List (String × String) → Reported (Except ArgumentMismatch NamespaceTree)
  | [] => return .ok tree
  | (key, value) :: rest => do
    match ← tree.insertReporting key (Placeholder.classify value) with
    | (_, .error mismatch) => return .error mismatch
    | (grown, .ok ()) => insertAll grown rest

/-- Reports every namespace that has a sibling with the same structure name. -/
def reportCollisions : List String → Reported Unit
  | [] => return ()
  | path :: rest => do
    Reported.report (.sharedStructName path)
    reportCollisions rest

end NamespaceTree

/-- The file for a catalog. -/
def generate (catalog : Catalog) (options : GenerationOptions) :
    Reported (Except ArgumentMismatch Generated) := do
  match ← NamespaceTree.empty.insertAll catalog.pairs with
  | .error mismatch => return .error mismatch
  | .ok tree =>
    NamespaceTree.reportCollisions tree.collisions
    Reported.report
      (.generated catalog.size tree.entryCount tree.nodeCount)
    return .ok ⟨fileHeader options.message ++ tree.render options.style, tree⟩

end LocalizedAccessors
