import LocalizedAccessors.Proofs.Source.Order
import LocalizedAccessors.Proofs.Tree.Collision
import LocalizedAccessors.Proofs.Tree.Trie

/-!
# The source does not show the order of insertion

Two trees are alike if they have the same namespaces and, at each path, the same entries up to
order. Numbers, the order of children and the order of entries may differ, but since every level is
sorted by what tells its members apart, alike trees are written as the same text. The same calls in
any order leave alike trees.
-/

namespace LocalizedAccessors

/-- Lists that show the same are mapped to the same, as far as the result depends on what shows. -/
theorem flatMap_eq_of_map_eq {α β γ δ : Type} {xs : List α} {ys : List β} {show₁ : α → γ}
    {show₂ : β → γ} {f : α → List δ} {g : β → List δ} (hmap : xs.map show₁ = ys.map show₂)
    (h : ∀ x ∈ xs, ∀ y ∈ ys, show₁ x = show₂ y → f x = g y) : xs.flatMap f = ys.flatMap g := by
  induction xs generalizing ys with
  | nil => simp_all
  | cons x xs ih =>
    cases ys with
    | nil => simp at hmap
    | cons y ys =>
      simp only [List.map_cons, List.cons.injEq] at hmap
      rw [List.flatMap_cons, List.flatMap_cons,
        h x (List.mem_cons_self ..) y (List.mem_cons_self ..) hmap.1,
        ih hmap.2 fun x' hx y' hy ↦
          h x' (List.mem_cons_of_mem _ hx) y' (List.mem_cons_of_mem _ hy)]

namespace NamespaceTree

/-- Two trees hold the same at the same paths, and keys tell their entries apart. -/
structure Alike (tree other : NamespaceTree) : Prop where
  coherent : tree.Coherent
  coherent' : other.Coherent
  namespaces : ∀ path, path ∈ tree.namespaces ↔ path ∈ other.namespaces
  entries : ∀ path, (tree.entriesAt path).Perm (other.entriesAt path)
  distinct : ∀ path, ((tree.entriesAt path).map Entry.key).Nodup

/-- The identifiers of the namespaces at a site. -/
def names (tree : NamespaceTree) (site : Site) : List String :=
  (tree.childrenOf site).map tree.identifierOf

variable {tree other : NamespaceTree} {site site' : Site}

theorem mem_names (coherent : tree.Coherent) (here : tree.Has site) {name : String} :
    name ∈ tree.names site ↔ tree.sitePath site ++ [name] ∈ tree.namespaces := by
  simp only [names, List.mem_map, coherent.mem_childrenOf, mem_namespaces]
  constructor
  · rintro ⟨id, ⟨hid, hparent⟩, hname⟩
    exact ⟨id, hid, by rw [path_eq, hparent, hname]⟩
  · rintro ⟨id, hid, hpath⟩
    rw [path_eq] at hpath
    obtain ⟨hsite, hname⟩ := List.append_inj' hpath rfl
    exact ⟨id, ⟨hid, sitePath_injective coherent (has_parentOf hid) here hsite⟩,
      List.singleton_inj.1 hname⟩

theorem nodup_names (coherent : tree.Coherent) (site : Site) : (tree.names site).Nodup := by
  apply (coherent.nodup_childrenOf site).map_on
  intro i hi j hj h
  have hi := coherent.mem_childrenOf.1 hi
  have hj := coherent.mem_childrenOf.1 hj
  exact coherent.siblings hi.1 hj.1 (hi.2.trans hj.2.symm) h

/-- Siblings are declared by structure name, and by identifier where the structure name is shared. -/
theorem map_identifierOf_sortedChildren (tree : NamespaceTree) (site : Site) :
    (tree.sortedChildren site).map tree.identifierOf =
      (tree.names site).mergeSort fun a b ↦ lexicographic (structName a, a) (structName b, b) :=
  List.map_mergeSort fun _ _ _ _ ↦ rfl

namespace Alike

theorem names_perm (alike : tree.Alike other) (here : tree.Has site) (here' : other.Has site')
    (h : tree.sitePath site = other.sitePath site') :
    (tree.names site).Perm (other.names site') := by
  apply (List.perm_ext_iff_of_nodup (nodup_names alike.coherent site)
    (nodup_names alike.coherent' site')).2
  intro name
  rw [mem_names alike.coherent here, mem_names alike.coherent' here', h, alike.namespaces]

theorem entriesOf_perm (alike : tree.Alike other) (here : tree.Has site) (here' : other.Has site')
    (h : tree.sitePath site = other.sitePath site') :
    (tree.entriesOf site).Perm (other.entriesOf site') := by
  rw [← entriesAt_sitePath alike.coherent here, ← entriesAt_sitePath alike.coherent' here', h]
  exact alike.entries _

/-- The induction is on how much room there is below the site in the first tree; the numbers of
the second tree play no part in it. -/
theorem body_eq_body (alike : tree.Alike other) (style : SourceStyle) (depth : Nat)
    (here : tree.Has site) (here' : other.Has site')
    (h : tree.sitePath site = other.sitePath site') :
    tree.body style depth site = other.body style depth site' := by
  induction hroom : tree.room site using Nat.strongRecOn generalizing depth site site' with
  | ind room ih =>
    subst hroom
    have hentries : Entry.sorted (tree.entriesOf site) = Entry.sorted (other.entriesOf site') := by
      apply Entry.sorted_of_perm (alike.entriesOf_perm here here' h)
      rw [← entriesAt_sitePath alike.coherent here]
      exact alike.distinct _
    have hnames : (tree.sortedChildren site).map tree.identifierOf =
        (other.sortedChildren site').map other.identifierOf := by
      rw [map_identifierOf_sortedChildren, map_identifierOf_sortedChildren]
      exact mergeSort_lexicographic_of_perm (fun name ↦ (structName name, name))
        (alike.names_perm here here' h) fun _ _ _ _ heq ↦ (Prod.ext_iff.1 heq).2
    rw [body_eq, body_eq, hentries]
    congr 1
    apply flatMap_eq_of_map_eq hnames
    intro id hid id' hid' hname
    have hchild := List.mem_mergeSort.1 hid
    have hid := alike.coherent.mem_childrenOf.1 hchild
    have hid' := alike.coherent'.mem_childrenOf.1 (List.mem_mergeSort.1 hid')
    have hpath : tree.sitePath (some id) = other.sitePath (some id') := by
      rw [sitePath, sitePath, path_eq, path_eq, hid.2, hid'.2, h, hname]
    rw [structNameOf, structNameOf, hname, ih (tree.room (some id)) (room_lt hchild) (depth + 1)
      (Arena.has_some.2 hid.1) (Arena.has_some.2 hid'.1) hpath rfl]

theorem render_eq (alike : tree.Alike other) (style : SourceStyle) :
    tree.render style = other.render style := by
  rw [render, render,
    alike.body_eq_body style 1 Arena.has_none Arena.has_none (rfl : tree.sitePath none = [])]

theorem collisions_eq (alike : tree.Alike other) : tree.collisions = other.collisions := by
  rw [NamespaceTree.collisions_eq, NamespaceTree.collisions_eq]
  apply mergeSort_strings_of_perm
  apply List.Perm.map
  apply (List.perm_ext_iff_of_nodup (nodup_collidingPaths alike.coherent)
    (nodup_collidingPaths alike.coherent')).2
  intro path
  simp only [mem_collidingPaths alike.coherent, mem_collidingPaths alike.coherent',
    alike.namespaces]

theorem nodeCount_eq (alike : tree.Alike other) : tree.nodeCount = other.nodeCount := by
  rw [← length_namespaces, ← length_namespaces]
  exact ((List.perm_ext_iff_of_nodup (nodup_namespaces alike.coherent)
    (nodup_namespaces alike.coherent')).2 alike.namespaces).length_eq

end Alike

theorem nodup_map_key_filterMap {calls : List Call} (distinct : (calls.map Call.key).Nodup) :
    ((calls.filterMap Call.entry?).map Entry.key).Nodup := by
  have hkeys : ((calls.filterMap Call.entry?).map Entry.key).Sublist (calls.map Call.key) := by
    clear distinct
    induction calls with
    | nil => simp
    | cons call rest ih =>
      cases hentry : call.entry? with
      | none => simpa [hentry] using ih.cons call.key
      | some entry => simpa [hentry, (Call.of_entry?_eq_some hentry).1] using ih
  exact distinct.sublist hkeys

theorem alike_run_of_perm {calls calls' : List Call} (perm : calls.Perm calls')
    (distinct : (calls.map Call.key).Nodup) : (empty.run calls).1.Alike (empty.run calls').1 where
  coherent := coherent_run_empty calls
  coherent' := coherent_run_empty calls'
  namespaces path := by
    simp only [mem_namespaces_run_empty, perm.mem_iff]
  entries path := by
    rw [entriesAt_run coherent_empty, entriesAt_run coherent_empty]
    exact ((perm.filter _).filterMap _).append_left _
  distinct path := by
    rw [entriesAt_run coherent_empty, entriesAt_empty, List.nil_append]
    exact nodup_map_key_filterMap (distinct.sublist (List.filter_sublist.map _))

/-- Whether every call of a run succeeded. -/
def Succeeded (history : List (Call × Except ArgumentMismatch Unit)) : Prop :=
  ∀ call ∈ history, call.2 = .ok ()

/-- Calls with different keys leave trees that cannot be told apart by the order of the calls. -/
theorem run_of_perm {calls calls' : List Call} (perm : calls.Perm calls')
    (distinct : (calls.map Call.key).Nodup) :
    (Succeeded (empty.run calls).2 ↔ Succeeded (empty.run calls').2) ∧
      (∀ style, (empty.run calls).1.render style = (empty.run calls').1.render style) ∧
      (empty.run calls).1.collisions = (empty.run calls').1.collisions ∧
      (empty.run calls).1.entryCount = (empty.run calls').1.entryCount ∧
      (empty.run calls).1.nodeCount = (empty.run calls').1.nodeCount := by
  have alike := alike_run_of_perm perm distinct
  refine ⟨?_, alike.render_eq, alike.collisions_eq, ?_, alike.nodeCount_eq⟩
  · simp [Succeeded, history_run coherent_empty, perm.mem_iff]
  · have hentries : (empty.run calls).1.entries.Perm (empty.run calls').1.entries :=
      calc
        List.Perm _ (empty.entries ++ calls.filterMap Call.entry?) := entries_run coherent_empty calls
        List.Perm _ (empty.entries ++ calls'.filterMap Call.entry?) :=
          (perm.filterMap Call.entry?).append_left _
        List.Perm _ (empty.run calls').1.entries := (entries_run coherent_empty calls').symm
    exact hentries.length_eq

/-- Two keys of one entry path, a namespace with the same structure name as theirs, a key with a
label too many and a key that names nothing. -/
def mixedCalls : List Call :=
  [⟨"a.b", []⟩, ⟨"a..b", []⟩, ⟨"A.c_:", [.object]⟩, ⟨"a.d.e_:", []⟩, ⟨"..", []⟩]

theorem run_mixedCalls_reverse :
    mixedCalls.Perm mixedCalls.reverse ∧ (mixedCalls.map Call.key).Nodup ∧
      (Succeeded (empty.run mixedCalls).2 ↔ Succeeded (empty.run mixedCalls.reverse).2) ∧
      (∀ style, (empty.run mixedCalls).1.render style =
        (empty.run mixedCalls.reverse).1.render style) ∧
      (empty.run mixedCalls).1.collisions = (empty.run mixedCalls.reverse).1.collisions ∧
      (empty.run mixedCalls).1.entryCount = (empty.run mixedCalls.reverse).1.entryCount ∧
      (empty.run mixedCalls).1.nodeCount = (empty.run mixedCalls.reverse).1.nodeCount := by
  have hperm : mixedCalls.Perm mixedCalls.reverse := (List.reverse_perm _).symm
  have hdistinct : (mixedCalls.map Call.key).Nodup := by decide +kernel
  exact ⟨hperm, hdistinct, run_of_perm hperm hdistinct⟩

end NamespaceTree

end LocalizedAccessors
