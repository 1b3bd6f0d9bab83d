import LocalizedAccessors.Proofs.Tree.Path
import Mathlib.Data.List.Nodup

/-!
# Namespaces that share a structure name

A namespace collides if another one in the same place has the same structure name. In a coherent
tree this can be read off the paths of the tree, and no namespace is found to collide twice.
-/

namespace LocalizedAccessors

/-- In a list without repetition, a second member with a property is another one than the first. -/
theorem one_lt_countP_iff {members : List Nat} (nodup : members.Nodup) {p : Nat → Bool} {a : Nat}
    (hmem : a ∈ members) (ha : p a = true) :
    1 < members.countP p ↔ ∃ b ∈ members, b ≠ a ∧ p b = true := by
  have hcount : members.countP p = (members.erase a).countP p + 1 := by
    rw [(List.perm_cons_erase hmem).countP_eq, List.countP_cons_of_pos ha]
  rw [hcount, Nat.lt_add_left_iff_pos, List.countP_pos_iff]
  simp [nodup.mem_erase_iff, and_assoc, and_left_comm]

namespace NamespaceTree

variable {tree : NamespaceTree} {site : Site}

theorem mem_clashing (coherent : tree.Coherent) {id : Nat} :
    id ∈ tree.clashing site ↔ id ∈ tree.childrenOf site ∧
      ∃ other ∈ tree.childrenOf site, other ≠ id ∧
        tree.structNameOf other = tree.structNameOf id := by
  rw [clashing, List.mem_filter]
  apply and_congr_right
  intro hmem
  rw [decide_eq_true_eq, one_lt_countP_iff (coherent.nodup_childrenOf site) hmem (by simp)]
  simp

theorem nodup_clashing (coherent : tree.Coherent) : (tree.sites.flatMap tree.clashing).Nodup := by
  apply List.nodup_flatMap.2
  constructor
  · intro site _
    exact (coherent.nodup_childrenOf site).filter _
  apply (nodup_sites tree).imp
  intro first second hne id hfirst hsecond
  have hfirst := coherent.mem_childrenOf.1 ((mem_clashing coherent).1 hfirst).1
  have hsecond := coherent.mem_childrenOf.1 ((mem_clashing coherent).1 hsecond).1
  exact hne (hfirst.2.symm.trans hsecond.2)

/-- The paths of the namespaces that have a sibling with the same structure name. -/
def collidingPaths (tree : NamespaceTree) : List Path :=
  (tree.sites.flatMap tree.clashing).map tree.path

theorem collisions_eq (tree : NamespaceTree) :
    tree.collisions = (tree.collidingPaths.map Path.dotted).mergeSort (· ≤ ·) := by
  rw [collisions, collidingPaths, List.map_map]
  rfl

theorem nodup_collidingPaths (coherent : tree.Coherent) : tree.collidingPaths.Nodup := by
  apply (nodup_clashing coherent).map_on
  intro i hi j hj h
  obtain ⟨_, _, hi⟩ := List.mem_flatMap.1 hi
  obtain ⟨_, _, hj⟩ := List.mem_flatMap.1 hj
  exact path_injective coherent (tree.ordered.child_lt ((mem_clashing coherent).1 hi).1)
    (tree.ordered.child_lt ((mem_clashing coherent).1 hj).1) h

theorem dropLast_path (tree : NamespaceTree) (id : Nat) :
    (tree.path id).dropLast = tree.sitePath (tree.parentOf id) := by
  rw [path_eq, List.dropLast_concat]

theorem structName_path (tree : NamespaceTree) (id : Nat) :
    (tree.path id).structName = tree.structNameOf id := by
  rw [Path.structName, Path.identifier, path_eq, List.getLast?_concat]
  rfl

theorem mem_collidingPaths (coherent : tree.Coherent) {path : Path} :
    path ∈ tree.collidingPaths ↔ path ∈ tree.namespaces ∧ ∃ other ∈ tree.namespaces,
      other ≠ path ∧ other.dropLast = path.dropLast ∧ other.structName = path.structName := by
  simp only [collidingPaths, List.mem_map, List.mem_flatMap, mem_clashing coherent,
    coherent.mem_childrenOf, mem_namespaces]
  constructor
  · rintro ⟨id, ⟨site, -, ⟨hid, hsite⟩, other, ⟨hother, hsite'⟩, hne, hname⟩, rfl⟩
    refine ⟨⟨id, hid, rfl⟩, tree.path other, ⟨other, hother, rfl⟩,
      fun h ↦ hne (path_injective coherent hother hid h), ?_, ?_⟩
    · rw [dropLast_path, dropLast_path, hsite, hsite']
    · rw [structName_path, structName_path, hname]
  · rintro ⟨⟨id, hid, rfl⟩, _, ⟨other, hother, rfl⟩, hne, hsite, hname⟩
    rw [dropLast_path, dropLast_path] at hsite
    rw [structName_path, structName_path] at hname
    have hsame := sitePath_injective coherent (has_parentOf hother) (has_parentOf hid) hsite
    exact ⟨id, ⟨tree.parentOf id, mem_sites.2 (has_parentOf hid), ⟨hid, rfl⟩, other,
      ⟨hother, hsame⟩, fun h ↦ hne (h ▸ rfl), hname⟩, rfl⟩

end NamespaceTree

end LocalizedAccessors
