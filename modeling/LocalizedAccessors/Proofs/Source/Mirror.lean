import LocalizedAccessors.Proofs.Source.Descent
import LocalizedAccessors.Proofs.Source.Layout
import LocalizedAccessors.Proofs.Source.Lines
import LocalizedAccessors.Proofs.Source.Order
import Mathlib.Data.List.Perm.Basic

/-!
# The source mirrors the tree

A reader who scans the generated source line by line, with no knowledge of the tree, finds the
structures nested as the namespaces are and every entry once, in the structures of its namespace.
What the reader should find is told as a walk through the tree, in which the order at each site is
fixed by what it sorts by and not by how it is sorted.
-/

namespace LocalizedAccessors

open Scan
open Text (OneLine)

/-- One thing that is declared in the source of a tree. -/
inductive Visit where
  | struct (path : Path)
  | member (path : Path) (entry : Entry)
  deriving DecidableEq, Repr

namespace Visit

/-- The lines that open the structures around the members of a namespace, the outermost first. -/
def openers (style : SourceStyle) (path : Path) : List String :=
  NamespaceTree.structHeader style style.rootName ::
    path.map fun name ↦ NamespaceTree.structHeader style (structName name)

/-- The text of a declaration with the blocks around it. A structure stands in the blocks of those
around it, and a member in those of all structures of its path. -/
def declaration (style : SourceStyle) : Visit → List String × String
  | struct path => ((openers style path).dropLast, (openers style path).getLastD "")
  | member path entry => (openers style path, memberText style entry)

def entry? : Visit → Option (Path × Entry)
  | struct _ => none
  | member path entry => some (path, entry)

theorem openers_append (style : SourceStyle) (path : Path) (name : String) :
    openers style (path ++ [name]) =
      openers style path ++ [NamespaceTree.structHeader style (structName name)] := by
  simp [openers]

end Visit

namespace NamespaceTree

/-- A walk from a site: its structure, then its entries by identifier and key, then walks from its
namespaces by structure name and identifier. -/
inductive DepthFirst (tree : NamespaceTree) : Site → List Visit → Prop
  | walk {site : Site} {entries : List Entry} {children : List Nat} {below : Nat → List Visit}
      (entries_perm : entries.Perm (tree.entriesOf site))
      (entries_ascending : entries.Pairwise fun a b ↦
        lexicographic (a.identifier, a.key) (b.identifier, b.key))
      (children_perm : children.Perm (tree.childrenOf site))
      (children_ascending : children.Pairwise fun a b ↦
        lexicographic (tree.structNameOf a, tree.identifierOf a)
          (tree.structNameOf b, tree.identifierOf b))
      (walks : ∀ id ∈ children, tree.DepthFirst (some id) (below id)) :
      tree.DepthFirst site (.struct (tree.sitePath site) ::
        (entries.map (.member (tree.sitePath site)) ++ children.flatMap below))

/-- What a scan of the source of a tree finds. -/
structure Mirrors (tree : NamespaceTree) (style : SourceStyle) (scanned : List Line) : Prop where
  indentation_eq : ∀ line ∈ scanned, ¬line.Blank → line.indentation = 4 * line.around.length
  open_before : ∀ line ∈ scanned.dropLast, line.after ≠ []
  closed_at_end : ∀ line ∈ scanned.getLast?, line.after = []
  /-- Blank lines stand before nested structures and nowhere else. -/
  spaced : Spaced style False scanned
  declared : ∃ visits, tree.DepthFirst none visits ∧
    scanned.filterMap (Line.declared? style) = visits.map (Visit.declaration style) ∧
    (visits.filterMap Visit.entry?).Perm
      (tree.sites.flatMap fun site ↦ (tree.entriesOf site).map (tree.sitePath site, ·))

/-! ## The walk that is written -/

def members (tree : NamespaceTree) (site : Site) : List Visit :=
  (Entry.sorted (tree.entriesOf site)).map (.member (tree.sitePath site))

def visits (tree : NamespaceTree) (site : Site) : List Visit :=
  (tree.descent site).flatMap fun reached ↦ .struct (tree.sitePath reached) :: tree.members reached

theorem visits_eq (tree : NamespaceTree) (site : Site) :
    tree.visits site = .struct (tree.sitePath site) ::
      (tree.members site ++ (tree.sortedChildren site).flatMap fun id ↦ tree.visits (some id)) := by
  rw [visits, descent_eq, List.flatMap_cons, List.flatMap_assoc]
  rfl

variable {tree : NamespaceTree} {style : SourceStyle}

theorem depthFirst_visits (tree : NamespaceTree) (site : Site) :
    tree.DepthFirst site (tree.visits site) := by
  induction hroom : tree.room site using Nat.strongRecOn generalizing site with
  | ind room ih =>
    subst hroom
    rw [visits_eq, members]
    exact .walk (List.mergeSort_perm ..)
      (pairwise_mergeSort_lexicographic (fun entry : Entry ↦ (entry.identifier, entry.key)) _)
      (List.mergeSort_perm ..)
      (pairwise_mergeSort_lexicographic (fun id ↦ (tree.structNameOf id, tree.identifierOf id)) _)
      fun id hid ↦ ih _ (room_lt (List.mem_mergeSort.1 hid)) (some id) rfl

theorem filterMap_entry?_visits (coherent : tree.Coherent) :
    ((tree.visits none).filterMap Visit.entry?).Perm
      (tree.sites.flatMap fun site ↦ (tree.entriesOf site).map (tree.sitePath site, ·)) := by
  have hsite (site : Site) :
      (Visit.struct (tree.sitePath site) :: tree.members site).filterMap Visit.entry? =
        (Entry.sorted (tree.entriesOf site)).map (tree.sitePath site, ·) := by
    rw [List.filterMap_cons_none rfl, members, List.filterMap_map]
    exact congrFun List.filterMap_eq_map _
  rw [visits, List.filterMap_flatMap]
  simp only [hsite]
  exact (descent_perm_sites coherent).flatMap fun site _ ↦ (List.mergeSort_perm ..).map _

theorem laid_members (tree : NamespaceTree) (site : Site) :
    Laid style (Visit.openers style (tree.sitePath site)) False
      ((Entry.sorted (tree.entriesOf site)).flatMap
        (NamespaceTree.declaration style (Visit.openers style (tree.sitePath site)).length))
      ((tree.members site).map (Visit.declaration style)) := by
  have hmembers : (tree.members site).map (Visit.declaration style) =
      (Entry.sorted (tree.entriesOf site)).flatMap fun entry ↦
        [(Visit.openers style (tree.sitePath site), memberText style entry)] := by
    rw [members, List.map_map, List.map_eq_flatMap]
    rfl
  rw [hmembers]
  exact .flatMap fun entry _ ↦ laid_declaration entry

/-- The lines of a site are laid out in the structures of its path. -/
theorem laid_body (coherent : tree.Coherent) (site : Site) :
    Laid style (Visit.openers style (tree.sitePath site)) False
      (tree.body style (Visit.openers style (tree.sitePath site)).length site)
      ((tree.visits site).tail.map (Visit.declaration style)) := by
  induction hroom : tree.room site using Nat.strongRecOn generalizing site with
  | ind room ih =>
    subst hroom
    rw [body_eq, visits_eq, List.tail_cons, List.map_append, List.map_flatMap]
    apply (laid_members tree site).append
    apply Laid.flatMap
    intro id hid
    have hchild := List.mem_mergeSort.1 hid
    have hpath := sitePath_child (coherent.mem_childrenOf.1 hchild).2
    have hopeners : Visit.openers style (tree.sitePath (some id)) =
        Visit.openers style (tree.sitePath site) ++ [structHeader style (tree.structNameOf id)] := by
      rw [hpath, Visit.openers_append, structNameOf]
    have hnested : (Line.opening (Visit.openers style (tree.sitePath site))
        (structHeader style (tree.structNameOf id))).OpensNested style :=
      ⟨by simp [Line.opening, Visit.openers], structStart_isPrefix_structHeader⟩
    have hinner := ih _ (room_lt hchild) (some id) rfl
    rw [hopeners, List.length_append, List.length_singleton] at hinner
    have hblock := Laid.block solid_structHeader opens_structHeader (iff_of_true trivial hnested)
      hinner
    rw [Line.declared?_opening_structHeader] at hblock
    have hdeclared : (tree.visits (some id)).map (Visit.declaration style) =
        (Visit.openers style (tree.sitePath site), structHeader style (tree.structNameOf id)) ::
          (tree.visits (some id)).tail.map (Visit.declaration style) := by
      rw [visits_eq, List.map_cons, List.tail_cons, Visit.declaration, hopeners]
      simp
    rw [hdeclared]
    exact hblock.after_blank

/-- The lines of the source of a tree: one block without indentation. -/
def sourceLines (tree : NamespaceTree) (style : SourceStyle) : List String :=
  block [] (structHeader style style.rootName) (tree.body style 1 none)

theorem indent_zero_append (text : String) : indent 0 ++ text = text := String.empty_append

theorem fields_render (lines : tree.OnLines) (root : OneLine style.rootName) :
    Text.fields '\n' (tree.render style) = tree.sourceLines style ++ [""] := by
  have hlines : tree.sourceLines style =
      structHeader style style.rootName :: tree.body style 1 none ++ ["\x7d"] := by
    simp only [sourceLines, block, List.length_nil, indent_zero_append]
  rw [render, ← hlines]
  apply Text.fields_join
  intro line hline
  rw [hlines, List.mem_append, List.mem_cons, List.mem_singleton] at hline
  obtain (rfl | hinner) | rfl := hline
  · exact oneLine_structHeader root
  · exact oneLine_body lines 1 Arena.has_none line hinner
  · decide +kernel

theorem mirrors_of_coherent (coherent : tree.Coherent) (style : SourceStyle) :
    ∃ scanned, scan [] (tree.sourceLines style) = some (scanned, []) ∧
      tree.Mirrors style scanned := by
  have laid : Laid style _ _ _ _ := laid_body coherent none
  obtain ⟨inner, hscan, arranged, hinner⟩ := laid
  have hnested : ¬(Line.opening [] (structHeader style style.rootName)).OpensNested style :=
    fun hnested ↦ hnested.1 rfl
  have whole := arranged_block solid_structHeader ((iff_false_left not_false).2 hnested) arranged
  refine ⟨_, scan_block solid_structHeader opens_structHeader hscan, ?_⟩
  refine ⟨whole.indentation_eq, ?_, ?_, whole.spaced,
    tree.visits none, depthFirst_visits tree none, ?_, filterMap_entry?_visits coherent⟩
  · intro line hline
    rw [List.dropLast_concat] at hline
    rcases List.mem_cons.1 hline with rfl | hline
    · simp [Line.opening]
    · exact fun hnil ↦ absurd (hnil ▸ arranged.within line hline) (by simp [Visit.openers])
  · intro line hline
    rw [List.getLast?_concat] at hline
    obtain rfl := Option.some.inj hline
    rfl
  · rw [List.cons_append, List.filterMap_cons_some (Line.declared?_opening_structHeader ..),
      List.filterMap_append, hinner, visits_eq]
    simp [declared?_closing, Visit.declaration, Visit.openers, sitePath]

/-- Calls whose keys have no line feed leave a tree whose source mirrors it. -/
theorem mirrors_render {calls : List Call} {style : SourceStyle}
    (keys : ∀ call ∈ calls, OneLine call.key) (root : OneLine style.rootName) :
    ∃ lines scanned,
      Text.fields '\n' ((empty.run calls).1.render style) = lines ++ [""] ∧
      scan [] lines = some (scanned, []) ∧ (empty.run calls).1.Mirrors style scanned := by
  obtain ⟨scanned, hscan, mirrors⟩ := mirrors_of_coherent (coherent_run_empty calls) style
  exact ⟨_, scanned, fields_render (onLines_run keys) root, hscan, mirrors⟩

/-- A constant, a function in a nested structure and a structure whose name is escaped. -/
def nestedCalls : List Call := [⟨"title", []⟩, ⟨"a.b.c_count", [.signedInteger]⟩, ⟨"type.x", []⟩]

theorem mirrors_render_nestedCalls :
    (∀ call ∈ nestedCalls, OneLine call.key) ∧ OneLine ({} : SourceStyle).rootName ∧
      ∃ lines scanned,
        Text.fields '\n' ((empty.run nestedCalls).1.render {}) = lines ++ [""] ∧
        scan [] lines = some (scanned, []) ∧ (empty.run nestedCalls).1.Mirrors {} scanned := by
  have hkeys : ∀ call ∈ nestedCalls, OneLine call.key := by decide +kernel
  have hroot : OneLine ({} : SourceStyle).rootName := by decide +kernel
  exact ⟨hkeys, hroot, mirrors_render hkeys hroot⟩

end NamespaceTree

end LocalizedAccessors
