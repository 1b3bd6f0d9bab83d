import LocalizedAccessors.Proofs.Source.Mirror
import LocalizedAccessors.Proofs.Source.Signature
import LocalizedAccessors.Proofs.Tree.Addressing

/-!
# Structures that share a name

What is reported of a tree and what a reader of its source sees. The report compares names before
they are escaped; the source has them behind the escape. Without backticks in the keys both tell the
same names apart, though different identifiers may come to one name: the first character in upper
case may be that of many characters, and more than one character long.
-/

namespace LocalizedAccessors

open Scan

/-- No character but the backtick itself becomes a backtick in upper case. -/
theorem Text.eq_of_backtick_mem_uppercase {c : Char} (h : '`' ∈ uppercase c) : '`' = c := by
  have hlong : ∀ row ∈ longUppercases, '`'.toNat ∉ row.2 := by decide +kernel
  have hruns : ∀ run ∈ caseRuns, '`'.toNat < run.target ∨ run.image run.last < '`'.toNat := by
    decide +kernel
  exact eq_of_mem_uppercase_of_unreached (by decide) hlong hruns h

theorem Text.Lacks.backtick_structName {identifier : String} (h : Text.Lacks '`' identifier) :
    Text.Lacks '`' (LocalizedAccessors.structName identifier) := by
  unfold LocalizedAccessors.structName capitalized
  split
  · exact empty '`'
  · next first rest heq =>
    rw [Lacks, heq, List.mem_cons, not_or] at h
    rw [Lacks, String.toList_ofList, List.mem_append, not_or]
    exact ⟨fun hmem ↦ h.1 (eq_of_backtick_mem_uppercase hmem), h.2⟩

/-- Names without backticks are escaped to different texts. -/
theorem Swift.escapedName_inj {a b : String} (ha : Text.Lacks '`' a) (hb : Text.Lacks '`' b) :
    escapedName a = escapedName b ↔ a = b := by
  have hquoted (name : String) : ¬Text.Lacks '`' ("`" ++ name ++ "`") := by simp [Text.Lacks]
  rw [escapedName_eq_iff]
  constructor
  · rintro (heq | ⟨-, rfl⟩ | ⟨-, rfl⟩)
    · exact heq
    · exact absurd hb (hquoted a)
    · exact absurd ha (hquoted b)
  · exact .inl

namespace NamespaceTree

variable {tree : NamespaceTree} {style : SourceStyle}

/-! ## What the source declares -/

/-- The first line of the structure with a name, which stands in it as it is written. -/
def structLine (style : SourceStyle) (written : String) : String :=
  structStart style ++ (written ++ " \x7b")

/-- Whether some texts are the declarations that a reader finds in the source of a tree, each with
what it declares. The order in which the tree is walked tells which text declares what. -/
structure DeclaredIn (tree : NamespaceTree) (style : SourceStyle)
    (declared : List (Visit × String)) : Prop where
  render_eq : tree.render style = String.join ((tree.sourceLines style).map (· ++ "\n"))
  depthFirst : tree.DepthFirst none (declared.map Prod.fst)
  found : ∃ scanned, scan [] (tree.sourceLines style) = some (scanned, []) ∧
    (scanned.filterMap (Line.declared? style)).map Prod.snd = declared.map Prod.snd

/-- The walk that is written, with the text of each declaration. -/
def declarations (tree : NamespaceTree) (style : SourceStyle) : List (Visit × String) :=
  (tree.visits none).map fun visit ↦ (visit, (visit.declaration style).2)

theorem laid_sourceLines (coherent : tree.Coherent) (style : SourceStyle) :
    Laid style [] False (tree.sourceLines style)
      ((tree.visits none).map (Visit.declaration style)) := by
  have hblank : False ↔ (Line.opening [] (structHeader style style.rootName)).OpensNested style :=
    (iff_false_left not_false).2 fun hnested ↦ hnested.1 rfl
  have hinner : Laid style [structHeader style style.rootName] False (tree.body style 1 none) _ :=
    laid_body coherent none
  have hlaid := Laid.block solid_structHeader opens_structHeader hblank hinner
  rw [Line.declared?_opening_structHeader] at hlaid
  rw [visits_eq] at hlaid ⊢
  exact hlaid

theorem declaredIn_declarations (coherent : tree.Coherent) (style : SourceStyle) :
    tree.DeclaredIn style (tree.declarations style) where
  render_eq := by
    simp only [render, sourceLines, block, List.length_nil, indent_zero_append]
  depthFirst := by
    rw [declarations, List.map_map]
    exact (List.map_id _).symm ▸ depthFirst_visits tree none
  found := by
    obtain ⟨scanned, hscan, -, hdeclared⟩ := laid_sourceLines coherent style
    refine ⟨scanned, hscan, ?_⟩
    rw [hdeclared, declarations, List.map_map, List.map_map]
    rfl

theorem struct_mem_visits (coherent : tree.Coherent) {path : Path} :
    .struct path ∈ tree.visits none ↔ ∃ site, tree.Has site ∧ tree.sitePath site = path := by
  simp only [visits, members, List.mem_flatMap, (descent_perm_sites coherent).mem_iff, mem_sites,
    List.mem_cons, List.mem_map, Visit.struct.injEq, reduceCtorEq, and_false, exists_false,
    or_false, eq_comm]

/-- A namespace is declared by its name behind the escape. -/
theorem struct_mem_declarations (coherent : tree.Coherent) {parent : Path}
    {identifier written : String} :
    (.struct (parent ++ [identifier]), structLine style written) ∈ tree.declarations style ↔
      parent ++ [identifier] ∈ tree.namespaces ∧
        Swift.escapedName (structName identifier) = written := by
  have hline : (Visit.declaration style (.struct (parent ++ [identifier]))).2 =
      structLine style (Swift.escapedName (structName identifier)) := by
    simp [Visit.declaration, Visit.openers_append, structHeader_eq, structLine]
  have hname : structLine style (Swift.escapedName (structName identifier)) =
      structLine style written ↔ Swift.escapedName (structName identifier) = written := by
    simp [structLine]
  have hvisit : .struct (parent ++ [identifier]) ∈ tree.visits none ↔
      parent ++ [identifier] ∈ tree.namespaces := by
    rw [struct_mem_visits coherent, mem_namespaces]
    constructor
    · rintro ⟨- | id, here, hpath⟩
      · simp [sitePath] at hpath
      · exact ⟨id, Arena.has_some.1 here, hpath⟩
    · rintro ⟨id, hid, hpath⟩
      exact ⟨some id, Arena.has_some.2 hid, hpath⟩
  rw [← hvisit, ← hname, ← hline, declarations, List.mem_map]
  constructor
  · rintro ⟨visit, hmem, heq⟩
    obtain ⟨rfl, htext⟩ := Prod.mk.inj heq
    exact ⟨hmem, htext⟩
  · rintro ⟨hmem, htext⟩
    exact ⟨_, hmem, Prod.ext rfl htext⟩

/-! ## What is reported -/

theorem nodup_map_dotted_collidingPaths (coherent : tree.Coherent) :
    (tree.collidingPaths.map Path.dotted).Nodup := by
  apply (nodup_collidingPaths coherent).map_on
  intro path hpath other hother h
  obtain ⟨id, hid, rfl⟩ := mem_namespaces.1 ((mem_collidingPaths coherent).1 hpath).1
  obtain ⟨id', hid', rfl⟩ := mem_namespaces.1 ((mem_collidingPaths coherent).1 hother).1
  rw [dotted_path_eq_iff coherent hid] at h
  rw [h, Path.fields_dotted (path_ne_nil tree id') fun _ ↦ isSegment_of_mem_path coherent hid']

/-- What is reported are the paths of siblings with the same structure name. -/
theorem mem_collisions (coherent : tree.Coherent) {dotted : String} :
    dotted ∈ tree.collisions ↔ ∃ parent identifier sibling,
      Path.dotted (parent ++ [identifier]) = dotted ∧ sibling ≠ identifier ∧
      parent ++ [identifier] ∈ tree.namespaces ∧ parent ++ [sibling] ∈ tree.namespaces ∧
      structName sibling = structName identifier := by
  rw [collisions_eq, List.mem_mergeSort, List.mem_map]
  simp only [mem_collidingPaths coherent]
  constructor
  · rintro ⟨path, ⟨hpath, other, hother, hne, hparent, hname⟩, rfl⟩
    obtain ⟨id, hid, rfl⟩ := mem_namespaces.1 hpath
    obtain ⟨id', hid', rfl⟩ := mem_namespaces.1 hother
    rw [dropLast_path, dropLast_path] at hparent
    rw [structName_path, structName_path] at hname
    rw [path_eq] at hpath
    rw [path_eq, hparent] at hother
    have hidentifier : tree.identifierOf id' ≠ tree.identifierOf id := by
      intro heq
      rw [path_eq tree id', path_eq tree id, hparent, heq] at hne
      exact hne rfl
    exact ⟨_, _, _, by rw [← path_eq], hidentifier, hpath, hother, hname⟩
  · rintro ⟨parent, identifier, sibling, rfl, hne, hpath, hother, hname⟩
    refine ⟨_, ⟨hpath, _, hother, ?_, ?_, ?_⟩, rfl⟩
    · simpa using hne
    · simp
    · simpa [Path.structName, Path.identifier] using hname

theorem lacks_backtick_of_mem_namespaces {calls : List Call}
    (h : ∀ call ∈ calls, Text.Lacks '`' call.key) {parent : Path} {identifier : String}
    (hmem : parent ++ [identifier] ∈ (empty.run calls).1.namespaces) :
    Text.Lacks '`' (structName identifier) := by
  obtain ⟨call, hcall, -, -, hbegins⟩ := (mem_namespaces_run_empty calls _).1 hmem
  have hsegment : identifier ∈ Key.enclosing call.key := hbegins.subset (by simp)
  have hpiece := (List.dropLast_prefix _).subset hsegment
  exact Text.Lacks.backtick_structName ((h call hcall).of_mem_pieces hpiece)

/-- If no key has a backtick in it, then the report lists, in strictly ascending order, the paths of
exactly those namespaces whose structures the source declares with the name of a sibling. -/
theorem collisions_run {calls : List Call} (h : ∀ call ∈ calls, Text.Lacks '`' call.key)
    (style : SourceStyle) :
    ∃ declared, (empty.run calls).1.DeclaredIn style declared ∧
      (empty.run calls).1.collisions.Pairwise (· < ·) ∧
      ∀ dotted, dotted ∈ (empty.run calls).1.collisions ↔
        ∃ parent identifier sibling written,
          Path.dotted (parent ++ [identifier]) = dotted ∧ sibling ≠ identifier ∧
          (.struct (parent ++ [identifier]), structLine style written) ∈ declared ∧
          (.struct (parent ++ [sibling]), structLine style written) ∈ declared := by
  have coherent := coherent_run_empty calls
  refine ⟨_, declaredIn_declarations coherent style, ?_, ?_⟩
  · rw [collisions_eq]
    exact pairwise_lt_mergeSort_strings (nodup_map_dotted_collidingPaths coherent)
  intro dotted
  simp only [mem_collisions coherent, struct_mem_declarations coherent]
  constructor
  · rintro ⟨parent, identifier, sibling, hdotted, hne, hpath, hother, hname⟩
    exact ⟨parent, identifier, sibling, _, hdotted, hne, ⟨hpath, rfl⟩, hother, by rw [hname]⟩
  · rintro ⟨parent, identifier, sibling, written, hdotted, hne, ⟨hpath, hname⟩, hother, hname'⟩
    have hwritten := (Swift.escapedName_inj (lacks_backtick_of_mem_namespaces h hother)
      (lacks_backtick_of_mem_namespaces h hpath)).1 (hname'.trans hname.symm)
    exact ⟨parent, identifier, sibling, hdotted, hne, hpath, hother, hwritten⟩

/-- Structures of one name at two levels: a reserved word, and an upper case of two letters. -/
def homonymousCalls : List Call :=
  [⟨"ß.a", []⟩, ⟨"SS.type.b", []⟩, ⟨"SS.Type.c", []⟩, ⟨"ss.d", []⟩, ⟨"type.e", []⟩]

theorem collisions_run_homonymousCalls :
    (∀ call ∈ homonymousCalls, Text.Lacks '`' call.key) ∧
      (empty.run homonymousCalls).1.collisions = ["SS", "SS.Type", "SS.type", "ß"] ∧
      ∃ declared, (empty.run homonymousCalls).1.DeclaredIn {} declared ∧
        (empty.run homonymousCalls).1.collisions.Pairwise (· < ·) ∧
        ∀ dotted, dotted ∈ (empty.run homonymousCalls).1.collisions ↔
          ∃ parent identifier sibling written,
            Path.dotted (parent ++ [identifier]) = dotted ∧ sibling ≠ identifier ∧
            (.struct (parent ++ [identifier]), structLine {} written) ∈ declared ∧
            (.struct (parent ++ [sibling]), structLine {} written) ∈ declared := by
  have hkeys : ∀ call ∈ homonymousCalls, Text.Lacks '`' call.key := by decide +kernel
  have hreported : (empty.run homonymousCalls).1.collisions = ["SS", "SS.Type", "SS.type", "ß"] := by
    have hpaths : (empty.run homonymousCalls).1.collidingPaths.map Path.dotted =
        ["ß", "SS", "SS.type", "SS.Type"] := by decide +kernel
    have hperm : ["ß", "SS", "SS.type", "SS.Type"].Perm ["SS", "SS.Type", "SS.type", "ß"] := by
      decide
    rw [collisions_eq, hpaths, mergeSort_strings_of_perm hperm]
    exact List.mergeSort_of_pairwise (by decide)
  exact ⟨hkeys, hreported, collisions_run hkeys {}⟩

end NamespaceTree

end LocalizedAccessors
