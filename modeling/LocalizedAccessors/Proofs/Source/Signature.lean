import LocalizedAccessors.Proofs.Generation.Agreement
import LocalizedAccessors.Proofs.Source.Arrangement

/-!
# Signatures

What Swift tells the members of a structure apart by. The signature of an accessor can be read off
its key, but not the other way round: empty segments and empty labels leave no trace, and the two
labels that stand for none are written alike. So distinct keys can declare the same accessor, and a
constant can have the name of a structure beside it. Where neither happens is said of keys alone.
-/

namespace LocalizedAccessors

/-- The name and the argument labels of a member as they are declared. A constant and a structure
have no labels. -/
structure Signature where
  name : String
  labels : List String
  deriving DecidableEq, Repr

def Entry.signature (entry : Entry) : Signature where
  name := entry.name
  labels := entry.bindings.map fun binding ↦ binding.label.getD "_"

/-- The signature of the structure for a namespace. -/
def structSignature (identifier : String) : Signature :=
  ⟨Swift.escapedName (structName identifier), []⟩

/-- The signatures of all that stands directly at a site. -/
def NamespaceTree.signatures (tree : NamespaceTree) (site : Site) : List Signature :=
  (tree.entriesOf site).map Entry.signature ++ (tree.names site).map structSignature

namespace Key

/-- A label of a key as it is declared. -/
def writtenLabel (piece : String) : String :=
  if piece = ":" ∨ piece = "*" then "_" else Swift.escapedLabel piece

/-- The signature of the accessor for a key. -/
def signature (key : String) : Signature where
  name := Swift.escapedName ((Text.pieces '_' (leaf key)).headD "")
  labels := (Text.pieces '_' (leaf key)).tail.map writtenLabel

end Key

theorem Entry.labels_bindingsOf (labels : List String) :
    (bindingsOf labels).map (fun binding ↦ binding.label.getD "_") =
      labels.map Key.writtenLabel := by
  apply List.ext_getElem
  · simp [bindingsOf]
  · intro index _ _
    simp only [bindingsOf, Binding.ofPiece, Key.writtenLabel, List.getElem_map, List.getElem_mapIdx]
    split <;> rfl

theorem Call.signature_of_entry? {call : Call} {entry : Entry} (h : call.entry? = some entry) :
    entry.signature = Key.signature call.key := by
  have hmake := make_eq_ok h
  simp only [make, Entry.make] at hmake
  split at hmake
  · obtain rfl := Except.ok.inj hmake
    rw [Entry.signature, Key.signature, Entry.labels_bindingsOf]
  · simp at hmake

namespace Swift

variable {a b : String}

theorem escapedName_of_mem (h : a ∈ keywords) : escapedName a = "`" ++ a ++ "`" := by
  simp [escapedName, quotedIn, h]

theorem escapedName_of_notMem (h : a ∉ keywords) : escapedName a = a := by
  simp [escapedName, quotedIn, h]

/-- No reserved word begins with a backtick. -/
theorem quoted_notMem_keywords (name : String) : "`" ++ name ++ "`" ∉ keywords := by
  have hhead : ∀ word ∈ keywords, word.toList.head? ≠ "`".toList.head? := by decide +kernel
  intro hquoted
  exact hhead _ hquoted (by simp)

/-- Two names are declared alike only if one of them is the other as a word between backticks. -/
theorem escapedName_eq_iff :
    escapedName a = escapedName b ↔
      a = b ∨ a ∈ keywords ∧ b = "`" ++ a ++ "`" ∨ b ∈ keywords ∧ a = "`" ++ b ++ "`" := by
  by_cases ha : a ∈ keywords
  · have hne : b ∈ keywords → b ≠ "`" ++ a ++ "`" := by
      rintro hb rfl
      exact quoted_notMem_keywords a hb
    by_cases hb : b ∈ keywords
    · have hne' : a ≠ "`" ++ b ++ "`" := by
        rintro rfl
        exact quoted_notMem_keywords b ha
      rw [escapedName_of_mem ha, escapedName_of_mem hb, String.append_left_inj,
        String.append_right_inj]
      simp [hne hb, hne']
    · have hab : a ≠ b := fun heq ↦ hb (heq ▸ ha)
      rw [escapedName_of_mem ha, escapedName_of_notMem hb]
      simp [ha, hb, hab, eq_comm]
  · rw [escapedName_of_notMem ha]
    by_cases hb : b ∈ keywords
    · have hab : a ≠ b := fun heq ↦ ha (heq ▸ hb)
      rw [escapedName_of_mem hb]
      simp [ha, hb, hab]
    · rw [escapedName_of_notMem hb]
      simp [ha, hb]

end Swift

namespace Catalog

/-- The keys that name something. -/
def named (catalog : Catalog) : List String :=
  (catalog.pairs.map Prod.fst).filter fun key ↦ ¬Key.Skipped key

/-- Whether a key stands within a path. -/
def HasNamespace (catalog : Catalog) (path : Path) : Prop :=
  ∃ key ∈ catalog.named, path <+: Key.enclosing key

/-- Whether the keys of a catalog tell apart what they declare directly within a path, once siblings
with the same structure name are ruled out. -/
structure DistinctAt (catalog : Catalog) (path : Path) : Prop where
  accessors : ∀ first ∈ catalog.named, Key.enclosing first = path →
    ∀ second ∈ catalog.named, Key.enclosing second = path →
      Key.signature first = Key.signature second → first = second
  constants : ∀ key ∈ catalog.named, Key.enclosing key = path →
    ∀ name, catalog.HasNamespace (path ++ [name]) → Key.signature key ≠ structSignature name
  /-- No structure name is that of a sibling between backticks. -/
  structures : ∀ first second, catalog.HasNamespace (path ++ [first]) →
    catalog.HasNamespace (path ++ [second]) → structName first ∈ Swift.keywords →
      structName second ≠ "`" ++ structName first ++ "`"

variable {catalog : Catalog}

theorem nodup_named (catalog : Catalog) : catalog.named.Nodup :=
  catalog.nodup_keys.filter _

/-- Where no key stands, there is nothing to tell apart. -/
theorem DistinctAt.of_not_hasNamespace {path : Path} (h : ¬catalog.HasNamespace path) :
    catalog.DistinctAt path where
  accessors _ hfirst hpath := absurd ⟨_, hfirst, hpath ▸ List.prefix_rfl⟩ h
  constants _ hkey hpath := absurd ⟨_, hkey, hpath ▸ List.prefix_rfl⟩ h
  structures _ _ hfirst := absurd (hfirst.imp fun _ ↦ .imp_right (List.prefix_append _ _).trans) h

/-- The calls that succeed are those with a key that names something. -/
theorem map_signature_calls {calls : List Call} (h : ∀ call ∈ calls, call.Agrees) :
    (calls.filterMap Call.entry?).map Entry.signature =
      ((calls.map Call.key).filter fun key ↦ ¬Key.Skipped key).map Key.signature := by
  induction calls with
  | nil => rfl
  | cons call rest ih =>
    obtain ⟨hcall, hrest⟩ := List.forall_mem_cons.1 h
    have hsome := Call.isSome_entry?_of_agrees hcall
    cases hentry : call.entry? with
    | none =>
      have hskipped : Key.Skipped call.key := by simpa [hentry] using hsome
      simpa [hentry, hskipped] using ih hrest
    | some entry =>
      have hnamed : ¬Key.Skipped call.key := hsome.1 (by rw [hentry]; rfl)
      simpa [hentry, hnamed, Call.signature_of_entry? hentry] using ih hrest

end Catalog

namespace NamespaceTree

variable {catalog : Catalog}

theorem map_signature_entriesAt (h : catalog.disagreement? = none) (path : Path) :
    ((empty.run catalog.calls).1.entriesAt path).map Entry.signature =
      (catalog.named.filter fun key ↦ Key.enclosing key = path).map Key.signature := by
  have hagree : ∀ call ∈ catalog.calls, call.Agrees :=
    List.forall_mem_map.2 (Catalog.disagreement?_eq_none.1 h)
  rw [entriesAt_run coherent_empty, entriesAt_empty, List.nil_append,
    Catalog.map_signature_calls fun call hcall ↦ hagree call (List.mem_of_mem_filter hcall)]
  have hkeys : ((catalog.calls.filter fun call ↦ Key.enclosing call.key = path).map Call.key) =
      (catalog.pairs.map Prod.fst).filter fun key ↦ Key.enclosing key = path := by
    rw [Catalog.calls, List.filter_map, List.map_map, List.filter_map]
    rfl
  rw [hkeys, Catalog.named, List.filter_comm]

theorem mem_namespaces_run_calls {path : Path} (hne : path ≠ []) :
    path ∈ (empty.run catalog.calls).1.namespaces ↔ catalog.HasNamespace path := by
  rw [mem_namespaces_run_empty]
  simp [Call.Needs, Catalog.HasNamespace, Catalog.named, Catalog.calls, Call.ofPair, hne, and_assoc]

/-- Without collisions, siblings differ in their structure names. -/
theorem structName_inj_of_collisions {tree : NamespaceTree} (coherent : tree.Coherent)
    (h : tree.collisions = []) {path : Path} {first second : String}
    (hfirst : path ++ [first] ∈ tree.namespaces) (hsecond : path ++ [second] ∈ tree.namespaces)
    (hname : structName first = structName second) : first = second := by
  have hnone : tree.collidingPaths = [] := by
    rw [collisions_eq] at h
    have hlength := congrArg List.length h
    simpa using hlength
  by_contra hne
  have hmem : path ++ [first] ∈ tree.collidingPaths := by
    refine (mem_collidingPaths coherent).2 ⟨hfirst, path ++ [second], hsecond, ?_, ?_, ?_⟩
    · simpa using Ne.symm hne
    · simp
    · simpa [Path.structName, Path.identifier] using hname.symm
  simp [hnone] at hmem

/-- Siblings that differ in their structure names are declared alike only if one of the names is the
other between backticks. -/
theorem inj_structSignature_iff {names : String → Prop}
    (hinj : ∀ first second, names first → names second →
      structName first = structName second → first = second) :
    (∀ first, names first → ∀ second, names second →
      structSignature first = structSignature second → first = second) ↔
    ∀ first second, names first → names second → structName first ∈ Swift.keywords →
      structName second ≠ "`" ++ structName first ++ "`" := by
  have halike : ∀ first second, structSignature first = structSignature second ↔
      Swift.escapedName (structName first) = Swift.escapedName (structName second) := by
    simp [structSignature]
  simp only [halike, Swift.escapedName_eq_iff]
  constructor
  · intro h first second hfirst hsecond hword hquoted
    obtain rfl := h first hfirst second hsecond (.inr (.inl ⟨hword, hquoted⟩))
    exact Swift.quoted_notMem_keywords _ (hquoted ▸ hword)
  · rintro h first hfirst second hsecond (hsame | ⟨hword, hquoted⟩ | ⟨hword, hquoted⟩)
    · exact hinj first second hfirst hsecond hsame
    · exact absurd hquoted (h first second hfirst hsecond hword)
    · exact absurd hquoted (h second first hsecond hfirst hword)

/-- The members of a site differ if the keys and the namespaces within its path do. -/
theorem nodup_signatures_run (h : catalog.disagreement? = none)
    (hcollisions : (empty.run catalog.calls).1.collisions = []) {site : Site}
    (here : (empty.run catalog.calls).1.Has site) :
    ((empty.run catalog.calls).1.signatures site).Nodup ↔
      catalog.DistinctAt ((empty.run catalog.calls).1.sitePath site) := by
  have coherent := coherent_run_empty catalog.calls
  have hentries := map_signature_entriesAt h ((empty.run catalog.calls).1.sitePath site)
  rw [entriesAt_sitePath coherent here] at hentries
  have hnames : ∀ name, name ∈ (empty.run catalog.calls).1.names site ↔
      catalog.HasNamespace ((empty.run catalog.calls).1.sitePath site ++ [name]) := by
    intro name
    rw [mem_names coherent here, mem_namespaces_run_calls (by simp)]
  have hstructures := inj_structSignature_iff fun first second hfirst hsecond ↦
    structName_inj_of_collisions coherent hcollisions ((mem_names coherent here).1 hfirst)
      ((mem_names coherent here).1 hsecond)
  rw [signatures, hentries, List.nodup_append,
    List.nodup_map_iff_inj_on (catalog.nodup_named.filter _),
    List.nodup_map_iff_inj_on (nodup_names coherent site), hstructures]
  simp only [List.mem_filter, List.forall_mem_map, hnames, decide_eq_true_eq, and_imp]
  constructor
  · rintro ⟨haccessors, hquoted, hconstants⟩
    exact ⟨haccessors, hconstants, hquoted⟩
  · rintro ⟨haccessors, hconstants, hquoted⟩
    exact ⟨haccessors, hquoted, hconstants⟩

/-- Where a key stands, there is a site of the tree. -/
theorem exists_site_of_hasNamespace {path : Path} (h : catalog.HasNamespace path) :
    ∃ site, (empty.run catalog.calls).1.Has site ∧
      (empty.run catalog.calls).1.sitePath site = path := by
  by_cases hne : path = []
  · exact ⟨none, Arena.has_none, hne.symm⟩
  · obtain ⟨id, hid, hpath⟩ := mem_namespaces.1 ((mem_namespaces_run_calls hne).2 h)
    exact ⟨some id, Arena.has_some.2 hid, hpath⟩

end NamespaceTree

/-- Where generation succeeds without collisions, the members of every structure can be told apart
if and only if the keys tell them apart at every path. -/
theorem nodup_signatures_iff {catalog : Catalog} {options : GenerationOptions}
    {generated : Generated} (h : (generate catalog options).value = .ok generated)
    (hcollisions : generated.tree.collisions = []) :
    (∀ site, generated.tree.Has site → (generated.tree.signatures site).Nodup) ↔
      ∀ path, catalog.DistinctAt path := by
  obtain ⟨hagree, htree⟩ := of_generate_eq_ok h
  rw [htree] at hcollisions ⊢
  constructor
  · intro hnodup path
    by_cases hpath : catalog.HasNamespace path
    · obtain ⟨site, here, rfl⟩ := NamespaceTree.exists_site_of_hasNamespace hpath
      exact (NamespaceTree.nodup_signatures_run hagree hcollisions here).1 (hnodup site here)
    · exact .of_not_hasNamespace hpath
  · intro hdistinct site here
    exact (NamespaceTree.nodup_signatures_run hagree hcollisions here).2 (hdistinct _)

/-- A constant, two functions and a structure whose names are nearly the same. -/
def telltaleCatalog : Catalog :=
  .ofPairs [("menu", ""), ("menu_count", "%d"), ("menu_:", "%d"), ("menu.in", ""), ("menu.to", "")]

theorem nodup_signatures_telltaleCatalog :
    ∃ generated, (generate telltaleCatalog {}).value = .ok generated ∧
      generated.tree.collisions = [] ∧
      (∀ site, generated.tree.Has site → (generated.tree.signatures site).Nodup) ∧
      ∀ path, telltaleCatalog.DistinctAt path := by
  have hagree : telltaleCatalog.disagreement? = none := by decide +kernel
  have success := value_generate telltaleCatalog {}
  rw [hagree] at success
  have hcollisions : (NamespaceTree.empty.run telltaleCatalog.calls).1.collisions = [] := by
    decide +kernel
  have hsites : ∀ site ∈ (NamespaceTree.empty.run telltaleCatalog.calls).1.sites,
      ((NamespaceTree.empty.run telltaleCatalog.calls).1.signatures site).Nodup := by
    decide +kernel
  have hnodup := fun site here ↦ hsites site (NamespaceTree.mem_sites.2 here)
  exact ⟨_, success, hcollisions, hnodup, (nodup_signatures_iff success hcollisions).1 hnodup⟩

/-- Two keys that differ in an underscore, and a constant beside a structure. -/
def clashingCatalog : Catalog :=
  .ofPairs [("Menu", "a"), ("menu.open", "b"), ("title", "c"), ("title_", "d")]

/-- Keys that declare the same are accepted, without a collision being found. -/
theorem not_nodup_signatures_clashingCatalog :
    ∃ generated, (generate clashingCatalog {}).value = .ok generated ∧
      generated.tree.collisions = [] ∧
      generated.tree.signatures none = [⟨"Menu", []⟩, ⟨"title", []⟩, ⟨"title", []⟩, ⟨"Menu", []⟩] ∧
      ¬(generated.tree.signatures none).Nodup ∧
      (generated.tree.entriesOf none).flatMap (NamespaceTree.declaration {} 1) =
        ["    public static let Menu = NSLocalizedString(\"Menu\", comment: \"\")",
          "    public static let title = NSLocalizedString(\"title\", comment: \"\")",
          "    public static let title = NSLocalizedString(\"title_\", comment: \"\")"] := by
  have hagree : clashingCatalog.disagreement? = none := by decide +kernel
  have success := value_generate clashingCatalog {}
  rw [hagree] at success
  refine ⟨_, success, ?_⟩
  decide +kernel

end LocalizedAccessors
