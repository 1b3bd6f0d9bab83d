import LocalizedAccessors.Accessor.NamespaceTree
import LocalizedAccessors.Settings.Options
import LocalizedAccessors.Swift.Literal

/-!
# Swift source

The namespace tree as a nested Swift structure. Every level is sorted before it is written: the
entries by identifier and key, then the namespaces by structure name and identifier. So the text
does not show in which order the keys were inserted.
-/

namespace LocalizedAccessors

/-- The call that looks a key up at run time. -/
def SourceStyle.lookup (style : SourceStyle) (key : String) : String :=
  let table := match style.table with
    | some name => ", tableName: " ++ Swift.literal name
    | none => ""
  let bundle := if style.package then ", bundle: .module" else ""
  "NSLocalizedString(" ++ Swift.literal key ++ table ++ bundle ++ ", comment: \"\")"

/-- The order of pairs of strings by the first and then by the second. -/
def lexicographic (a b : String × String) : Bool :=
  a.1 < b.1 || (a.1 == b.1 && a.2 ≤ b.2)

/-- Entries in the order in which they are declared. -/
def Entry.sorted (entries : List Entry) : List Entry :=
  entries.mergeSort fun a b ↦ lexicographic (a.identifier, a.key) (b.identifier, b.key)

namespace NamespaceTree

/-- The namespaces of a site in the order in which they are declared. -/
def sortedChildren (tree : NamespaceTree) (site : Site) : List Nat :=
  (tree.childrenOf site).mergeSort fun a b ↦
    lexicographic (tree.structNameOf a, tree.identifierOf a)
      (tree.structNameOf b, tree.identifierOf b)

/-- The first line of the declaration of a structure. -/
def structHeader (style : SourceStyle) (name : String) : String :=
  style.access.modifier ++ "struct " ++ Swift.escapedName name ++ " \x7b"

/-- The lines that declare an entry: a constant, or a function that formats its arguments. -/
def declaration (style : SourceStyle) (depth : Nat) (entry : Entry) : List String :=
  let head := indent depth ++ style.access.modifier ++ "static "
  if entry.isConstant then
    [head ++ "let " ++ entry.name ++ " = " ++ style.lookup entry.key]
  else
    [head ++ "func " ++ entry.name ++ "(" ++ entry.parameterList ++ ") -> String \x7b",
      indent (depth + 1) ++ "return String(format: " ++ style.lookup entry.key ++ ", "
        ++ entry.formatArguments ++ ")",
      indent depth ++ "\x7d"]

/-- The lines between the braces of the structure that declares a site. -/
def body (tree : NamespaceTree) (style : SourceStyle) (depth : Nat) (site : Site) :
    List String :=
  (Entry.sorted (tree.entriesOf site)).flatMap (declaration style depth) ++
    (tree.sortedChildren site).attach.flatMap fun ⟨id, _⟩ ↦
      "" :: (indent depth ++ structHeader style (tree.structNameOf id))
        :: tree.body style (depth + 1) (some id) ++ [indent depth ++ "\x7d"]
termination_by tree.room site
decreasing_by exact room_lt (List.mem_mergeSort.1 ‹_›)

theorem body_eq (tree : NamespaceTree) (style : SourceStyle) (depth : Nat) (site : Site) :
    tree.body style depth site =
      (Entry.sorted (tree.entriesOf site)).flatMap (declaration style depth) ++
        (tree.sortedChildren site).flatMap fun id ↦
          "" :: (indent depth ++ structHeader style (tree.structNameOf id))
            :: tree.body style (depth + 1) (some id) ++ [indent depth ++ "\x7d"] := by
  rw [body]
  congr 1
  simp only [List.flatMap_def, List.map_attach_eq_pmap, List.pmap_eq_map]

/-- The declaration of the outermost structure with everything in it. -/
def render (tree : NamespaceTree) (style : SourceStyle) : String :=
  String.join <| (structHeader style style.rootName :: tree.body style 1 none ++ ["\x7d"]).map
    (· ++ "\n")

end NamespaceTree

/-- The comment and the import at the head of a generated file. The lines of the message are
comments of their own, after one empty comment line; a blank message is left out. -/
def fileHeader (message : Option String) : String :=
  let shown := message.filter fun text ↦ Text.trim text.toList ≠ []
  let comment (line : String) : String := if line = "" then "//" else "// " ++ line
  let note := match shown with
    | some text => "//" :: (Text.lines text).map comment
    | none => []
  String.join <| (["// This file is automatically generated by stringsgen.",
    "// Do not edit it manually, as your changes will be overwritten."] ++ note ++
    ["", "import Foundation", ""]).map (· ++ "\n")

end LocalizedAccessors
