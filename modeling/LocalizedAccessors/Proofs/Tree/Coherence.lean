import LocalizedAccessors.Accessor.NamespaceTree
import Mathlib.Order.Nat

/-!
# Coherence of the arena

The arena tells four times where a namespace stands: by its number, by its parent, by the list of
its siblings, and by the path that its identifiers make. An arena is coherent if these agree and if
no two siblings have the same identifier. Then a namespace can be found by its path and by nothing
else. Adding what is missing keeps an arena coherent, and what is there keeps its place.
-/

namespace LocalizedAccessors

/-- Whether a text can stand between the dots of a key. -/
def Key.IsSegment (text : String) : Prop := text ≠ "" ∧ '.' ∉ text.toList

namespace Arena

/-- The numbers, the parents and the lists of children agree, and siblings can be told apart. -/
structure Coherent (arena : Arena) : Prop where
  childrenOf_eq : ∀ site, arena.childrenOf site =
    (List.range arena.nodes.length).filter fun id ↦ arena.parentOf id = site
  siblings : ∀ {i j}, i < arena.nodes.length → j < arena.nodes.length →
    arena.parentOf i = arena.parentOf j → arena.identifierOf i = arena.identifierOf j → i = j
  isSegment : ∀ {id}, id < arena.nodes.length → Key.IsSegment (arena.identifierOf id)

variable {arena : Arena} {site : Site}

theorem entriesOf_eq_nil (h : ¬arena.Has site) : arena.entriesOf site = [] := by
  cases site with
  | none => exact absurd has_none h
  | some id =>
    rw [has_some, Nat.not_lt] at h
    simp [entriesOf, contents, h]

theorem coherent_empty : Coherent {} where
  childrenOf_eq site := by cases site <;> simp [childrenOf, contents]
  siblings h := by simp at h
  isSegment h := by simp at h

namespace Coherent

theorem mem_childrenOf (coherent : arena.Coherent) {id : Nat} :
    id ∈ arena.childrenOf site ↔ id < arena.nodes.length ∧ arena.parentOf id = site := by
  simp [coherent.childrenOf_eq site]

theorem nodup_childrenOf (coherent : arena.Coherent) (site : Site) :
    (arena.childrenOf site).Nodup := by
  rw [coherent.childrenOf_eq site]
  exact List.nodup_range.filter _

theorem child?_eq_some (coherent : arena.Coherent) {identifier : String} {id : Nat} :
    arena.child? site identifier = some id ↔
      id ∈ arena.childrenOf site ∧ arena.identifierOf id = identifier := by
  constructor
  · intro h
    exact ⟨List.mem_of_find?_eq_some h, by simpa using List.find?_some h⟩
  · rintro ⟨hmem, hid⟩
    cases hfound : arena.child? site identifier with
    | none => simpa [hid] using List.find?_eq_none.1 hfound id hmem
    | some other =>
      have hother := coherent.mem_childrenOf.1 (List.mem_of_find?_eq_some hfound)
      have hname : arena.identifierOf other = identifier := by simpa using List.find?_some hfound
      have hself := coherent.mem_childrenOf.1 hmem
      have hparents := hother.2.trans hself.2.symm
      rw [coherent.siblings hother.1 hself.1 hparents (hname.trans hid.symm)]

theorem child?_eq_none (coherent : arena.Coherent) {identifier : String} :
    arena.child? site identifier = none ↔
      ∀ id < arena.nodes.length, arena.parentOf id = site → arena.identifierOf id ≠ identifier := by
  simp [child?, List.find?_eq_none, coherent.mem_childrenOf]

theorem add (coherent : arena.Coherent) (here : arena.Has site) {identifier : String}
    (segment : Key.IsSegment identifier) (fresh : arena.child? site identifier = none) :
    (arena.add site identifier).Coherent where
  childrenOf_eq other := by
    have hold : (List.range arena.nodes.length).filter
        (fun id ↦ (arena.add site identifier).parentOf id = other) = arena.childrenOf other := by
      rw [coherent.childrenOf_eq other]
      apply List.filter_congr
      intro id hid
      rw [parentOf_add, if_neg (Nat.ne_of_lt (List.mem_range.1 hid))]
    rw [childrenOf_add identifier here, length_add, List.range_succ, List.filter_append, hold]
    by_cases heq : other = site
    · simp [parentOf_add, heq]
    · simp [parentOf_add, heq, Ne.symm heq]
  siblings {i j} hi hj hparent hidentifier := by
    have hnone := coherent.child?_eq_none.1 fresh
    rw [length_add] at hi hj
    rw [parentOf_add, parentOf_add] at hparent
    rw [identifierOf_add, identifierOf_add] at hidentifier
    grind [coherent.siblings]
  isSegment {id} hid := by
    rw [identifierOf_add]
    split
    · exact segment
    · rw [length_add] at hid
      exact coherent.isSegment (by omega)

theorem resolve (coherent : arena.Coherent) (here : arena.Has site) {identifier : String}
    (segment : Key.IsSegment identifier) : (arena.resolve site identifier).1.Coherent := by
  unfold Arena.resolve
  split
  · exact coherent
  · next fresh => exact coherent.add here segment fresh

/-- The namespace that is found or added stands at the site and has the identifier. -/
theorem resolved (coherent : arena.Coherent) (site : Site) (identifier : String) :
    (arena.resolve site identifier).1.parentOf (arena.resolve site identifier).2 = site ∧
      (arena.resolve site identifier).1.identifierOf (arena.resolve site identifier).2 =
        identifier := by
  unfold Arena.resolve
  split
  · next id hid =>
    obtain ⟨hmem, hidentifier⟩ := coherent.child?_eq_some.1 hid
    exact ⟨(coherent.mem_childrenOf.1 hmem).2, hidentifier⟩
  · simp [parentOf_add, identifierOf_add]

theorem declare (coherent : arena.Coherent) (here : arena.Has site) (entry : Entry) :
    (arena.declare site entry).Coherent where
  childrenOf_eq other := by simpa [here] using coherent.childrenOf_eq other
  siblings hi hj hparent hidentifier := by
    simp only [length_declare, parentOf_declare, identifierOf_declare] at *
    exact coherent.siblings hi hj hparent hidentifier
  isSegment hid := by
    rw [length_declare] at hid
    rw [identifierOf_declare]
    exact coherent.isSegment hid

end Coherent

/-- What is in the first arena stands at the same place in the second one. -/
structure Grows (before after : Arena) : Prop where
  length_le : before.nodes.length ≤ after.nodes.length
  identifierOf_eq : ∀ {id}, id < before.nodes.length →
    after.identifierOf id = before.identifierOf id
  parentOf_eq : ∀ {id}, id < before.nodes.length → after.parentOf id = before.parentOf id
  childrenOf_isPrefix : ∀ site, before.childrenOf site <+: after.childrenOf site
  entriesOf_isPrefix : ∀ site, before.entriesOf site <+: after.entriesOf site

namespace Grows

theorem refl (arena : Arena) : arena.Grows arena :=
  ⟨le_rfl, fun _ ↦ rfl, fun _ ↦ rfl, fun _ ↦ List.prefix_refl _, fun _ ↦ List.prefix_refl _⟩

theorem trans {first second third : Arena} (h : first.Grows second) (h' : second.Grows third) :
    first.Grows third where
  length_le := h.length_le.trans h'.length_le
  identifierOf_eq hid :=
    (h'.identifierOf_eq (hid.trans_le h.length_le)).trans (h.identifierOf_eq hid)
  parentOf_eq hid := (h'.parentOf_eq (hid.trans_le h.length_le)).trans (h.parentOf_eq hid)
  childrenOf_isPrefix site := (h.childrenOf_isPrefix site).trans (h'.childrenOf_isPrefix site)
  entriesOf_isPrefix site := (h.entriesOf_isPrefix site).trans (h'.entriesOf_isPrefix site)

theorem has {after : Arena} (h : arena.Grows after) (here : arena.Has site) : after.Has site :=
  fun id hid ↦ (here id hid).trans_le h.length_le

end Grows

theorem grows_add (identifier : String) (here : arena.Has site) :
    arena.Grows (arena.add site identifier) where
  length_le := by simp
  identifierOf_eq hid := by rw [identifierOf_add, if_neg hid.ne]
  parentOf_eq hid := by rw [parentOf_add, if_neg hid.ne]
  childrenOf_isPrefix other := by
    rw [childrenOf_add identifier here]
    split
    · next heq => exact heq ▸ List.prefix_append ..
    · exact List.prefix_refl _
  entriesOf_isPrefix other := (entriesOf_add identifier here other).symm ▸ List.prefix_rfl

theorem grows_resolve (identifier : String) (here : arena.Has site) :
    arena.Grows (arena.resolve site identifier).1 := by
  unfold resolve
  split
  · exact .refl arena
  · exact grows_add identifier here

@[simp] theorem entriesOf_resolve (identifier : String) (here : arena.Has site) (other : Site) :
    (arena.resolve site identifier).1.entriesOf other = arena.entriesOf other := by
  unfold resolve
  split
  · rfl
  · exact entriesOf_add identifier here other

theorem grows_declare (entry : Entry) (here : arena.Has site) :
    arena.Grows (arena.declare site entry) where
  length_le := by simp
  identifierOf_eq _ := by simp
  parentOf_eq _ := by simp
  childrenOf_isPrefix other := (childrenOf_declare entry here other).symm ▸ List.prefix_rfl
  entriesOf_isPrefix other := by
    rw [entriesOf_declare entry here]
    split
    · next heq => exact heq ▸ List.prefix_append ..
    · exact List.prefix_refl _

end Arena

end LocalizedAccessors
