import LocalizedAccessors.Accessor.Entry
import LocalizedAccessors.Accessor.Key

/-!
# The arena of namespaces

All namespaces of a tree are kept in one list, and the position of a namespace in it is its number.
A namespace records the site that it stands at and, like the top level, the numbers of the
namespaces and the entries directly within it. Namespaces are only added, always after the one
around them, so numbers grow on the way down. That order is what lets a path be followed upwards
and a level be written out with everything below it.
-/

namespace LocalizedAccessors

/-- The inside of the namespace with a number, or the top level. -/
abbrev Site := Option Nat

/-- What stands directly at a site. -/
structure Contents where
  /-- The numbers of the namespaces in the order of creation. -/
  children : List Nat := []
  /-- The entries in the order of insertion. -/
  entries : List Entry := []
  deriving DecidableEq, Repr

structure Namespace where
  identifier : String
  /-- The site that the namespace stands at. -/
  parent : Site
  contents : Contents := {}
  deriving DecidableEq, Repr

structure Arena where
  nodes : List Namespace := []
  top : Contents := {}
  deriving DecidableEq, Repr

namespace Arena

/-- Whether the arena has a site. -/
def Has (arena : Arena) (site : Site) : Prop := ∀ id ∈ site, id < arena.nodes.length

def contents (arena : Arena) : Site → Contents
  | none => arena.top
  | some id => (arena.nodes[id]?.map Namespace.contents).getD {}

def childrenOf (arena : Arena) (site : Site) : List Nat := (arena.contents site).children

def entriesOf (arena : Arena) (site : Site) : List Entry := (arena.contents site).entries

def identifierOf (arena : Arena) (id : Nat) : String :=
  (arena.nodes[id]?.map Namespace.identifier).getD ""

def parentOf (arena : Arena) (id : Nat) : Site := arena.nodes[id]?.bind Namespace.parent

def push (arena : Arena) (node : Namespace) : Arena :=
  { arena with nodes := arena.nodes ++ [node] }

def alter (arena : Arena) (change : Contents → Contents) : Site → Arena
  | none => { arena with top := change arena.top }
  | some id =>
    { arena with
      nodes := arena.nodes.modify id fun node ↦ { node with contents := change node.contents } }

/-- The arena with one more namespace, which stands at a site. -/
def add (arena : Arena) (site : Site) (identifier : String) : Arena :=
  (arena.push { identifier, parent := site }).alter
    (fun inside ↦ { inside with children := inside.children ++ [arena.nodes.length] }) site

/-- The arena with one more entry at a site. -/
def declare (arena : Arena) (site : Site) (entry : Entry) : Arena :=
  arena.alter (fun inside ↦ { inside with entries := inside.entries ++ [entry] }) site

/-- The namespace with an identifier directly at a site. -/
def child? (arena : Arena) (site : Site) (identifier : String) : Option Nat :=
  (arena.childrenOf site).find? fun id ↦ arena.identifierOf id = identifier

/-- Finds a namespace directly at a site, or adds it if there is none with the identifier. -/
def resolve (arena : Arena) (site : Site) (identifier : String) : Arena × Nat :=
  match arena.child? site identifier with
  | some id => (arena, id)
  | none => (arena.add site identifier, arena.nodes.length)

/-- The site at the end of a path that starts at a site. -/
def locate? (arena : Arena) (site : Site) : Path → Option Site
  | [] => some site
  | identifier :: rest => do arena.locate? (some (← arena.child? site identifier)) rest

/-! ## What each operation changes -/

variable {arena : Arena} {site : Site}

@[simp] theorem has_none : arena.Has none := by simp [Has]

@[simp] theorem has_some {id : Nat} : arena.Has (some id) ↔ id < arena.nodes.length := by
  simp [Has]

@[simp] theorem length_push (node : Namespace) :
    (arena.push node).nodes.length = arena.nodes.length + 1 := by simp [push]

@[simp] theorem length_alter (change : Contents → Contents) :
    (arena.alter change site).nodes.length = arena.nodes.length := by
  cases site <;> simp [alter]

@[simp] theorem identifierOf_alter (change : Contents → Contents) (id : Nat) :
    (arena.alter change site).identifierOf id = arena.identifierOf id := by
  cases site with
  | none => rfl
  | some other =>
    simp only [alter, identifierOf, List.getElem?_modify]
    split <;> simp [Option.map_map, Function.comp_def]

@[simp] theorem parentOf_alter (change : Contents → Contents) (id : Nat) :
    (arena.alter change site).parentOf id = arena.parentOf id := by
  cases site with
  | none => rfl
  | some other =>
    simp only [alter, parentOf, List.getElem?_modify]
    split
    · exact Option.bind_map ..
    · simp

theorem contents_alter (change : Contents → Contents) (h : arena.Has site) (other : Site) :
    (arena.alter change site).contents other =
      if other = site then change (arena.contents site) else arena.contents other := by
  cases site with
  | none => cases other <;> simp [alter, contents]
  | some id =>
    cases other with
    | none => simp [alter, contents]
    | some number =>
      have hnode := List.getElem?_eq_getElem (has_some.1 h)
      by_cases heq : number = id
      · simp [alter, contents, heq, hnode]
      · simp [alter, contents, Ne.symm heq, heq]

theorem getElem?_push (node : Namespace) (id : Nat) :
    (arena.push node).nodes[id]? =
      if id = arena.nodes.length then some node else arena.nodes[id]? := by
  rcases Nat.lt_trichotomy id arena.nodes.length with h | h | h
  · rw [if_neg (Nat.ne_of_lt h), push, List.getElem?_append_left h]
  · simp [push, h]
  · rw [if_neg (Nat.ne_of_gt h), List.getElem?_eq_none (Nat.le_of_lt h)]
    exact List.getElem?_eq_none (by rw [length_push]; exact h)

theorem identifierOf_push (node : Namespace) (id : Nat) :
    (arena.push node).identifierOf id =
      if id = arena.nodes.length then node.identifier else arena.identifierOf id := by
  rw [identifierOf, getElem?_push]
  split <;> rfl

theorem parentOf_push (node : Namespace) (id : Nat) :
    (arena.push node).parentOf id =
      if id = arena.nodes.length then node.parent else arena.parentOf id := by
  rw [parentOf, getElem?_push]
  split <;> rfl

/-- A namespace begins empty, like a site that the arena does not have. -/
theorem contents_push (node : Namespace) (h : node.contents = {}) (site : Site) :
    (arena.push node).contents site = arena.contents site := by
  cases site with
  | none => rfl
  | some id =>
    rw [contents, getElem?_push]
    split
    · next hid => simp [contents, hid, h]
    · rfl

@[simp] theorem length_add (identifier : String) :
    (arena.add site identifier).nodes.length = arena.nodes.length + 1 := by simp [add]

theorem identifierOf_add (identifier : String) (id : Nat) :
    (arena.add site identifier).identifierOf id =
      if id = arena.nodes.length then identifier else arena.identifierOf id := by
  simp [add, identifierOf_push]

theorem parentOf_add (identifier : String) (id : Nat) :
    (arena.add site identifier).parentOf id =
      if id = arena.nodes.length then site else arena.parentOf id := by
  simp [add, parentOf_push]

theorem contents_add (identifier : String) (h : arena.Has site) (other : Site) :
    (arena.add site identifier).contents other =
      if other = site then
        { arena.contents site with children := arena.childrenOf site ++ [arena.nodes.length] }
      else arena.contents other := by
  have hpush : (arena.push { identifier, parent := site }).Has site := fun id hid ↦ by
    simpa using Nat.lt_succ_of_lt (h id hid)
  simp [add, contents_alter _ hpush, contents_push, childrenOf]

theorem childrenOf_add (identifier : String) (h : arena.Has site) (other : Site) :
    (arena.add site identifier).childrenOf other =
      if other = site then arena.childrenOf site ++ [arena.nodes.length]
      else arena.childrenOf other := by
  rw [childrenOf, contents_add identifier h, apply_ite Contents.children]
  rfl

@[simp] theorem entriesOf_add (identifier : String) (h : arena.Has site) (other : Site) :
    (arena.add site identifier).entriesOf other = arena.entriesOf other := by
  rw [entriesOf, contents_add identifier h, apply_ite Contents.entries]
  by_cases heq : other = site <;> simp [heq, entriesOf]

@[simp] theorem length_declare (entry : Entry) :
    (arena.declare site entry).nodes.length = arena.nodes.length := by simp [declare]

@[simp] theorem identifierOf_declare (entry : Entry) (id : Nat) :
    (arena.declare site entry).identifierOf id = arena.identifierOf id := by simp [declare]

@[simp] theorem parentOf_declare (entry : Entry) (id : Nat) :
    (arena.declare site entry).parentOf id = arena.parentOf id := by simp [declare]

@[simp] theorem childrenOf_declare (entry : Entry) (h : arena.Has site) (other : Site) :
    (arena.declare site entry).childrenOf other = arena.childrenOf other := by
  rw [declare, childrenOf, contents_alter _ h, apply_ite Contents.children]
  by_cases heq : other = site <;> simp [heq, childrenOf]

theorem entriesOf_declare (entry : Entry) (h : arena.Has site) (other : Site) :
    (arena.declare site entry).entriesOf other =
      if other = site then arena.entriesOf site ++ [entry] else arena.entriesOf other := by
  rw [declare, entriesOf, contents_alter _ h, apply_ite Contents.entries]
  rfl

/-! ## The order of numbers -/

/-- Numbers grow on the way down, and whatever is listed at a site is there. -/
structure Ordered (arena : Arena) : Prop where
  parent_lt : ∀ {id parent}, arena.parentOf id = some parent → parent < id
  lt_child : ∀ {id child}, child ∈ arena.childrenOf (some id) → id < child
  child_lt : ∀ {site child}, child ∈ arena.childrenOf site → child < arena.nodes.length

theorem ordered_empty : Ordered {} where
  parent_lt h := by simp [parentOf] at h
  lt_child h := by simp [childrenOf, contents] at h
  child_lt {site _} h := by cases site <;> simp [childrenOf, contents] at h

theorem Ordered.add (ordered : arena.Ordered) (h : arena.Has site) (identifier : String) :
    (arena.add site identifier).Ordered where
  parent_lt {id parent} hparent := by
    rw [parentOf_add] at hparent
    split at hparent
    · next hid => exact hid ▸ h parent (Option.mem_def.2 hparent)
    · exact ordered.parent_lt hparent
  lt_child {id child} hchild := by
    rw [childrenOf_add identifier h] at hchild
    split at hchild
    · next hid =>
      subst hid
      rcases List.mem_append.1 hchild with hold | hnew
      · exact ordered.lt_child hold
      · rw [List.mem_singleton.1 hnew]
        exact has_some.1 h
    · exact ordered.lt_child hchild
  child_lt {other child} hchild := by
    rw [childrenOf_add identifier h] at hchild
    rw [length_add]
    split at hchild
    · rcases List.mem_append.1 hchild with hold | hnew
      · exact Nat.lt_succ_of_lt (ordered.child_lt hold)
      · exact Nat.lt_succ_of_le (Nat.le_of_eq (List.mem_singleton.1 hnew))
    · exact Nat.lt_succ_of_lt (ordered.child_lt hchild)

theorem Ordered.declare (ordered : arena.Ordered) (h : arena.Has site) (entry : Entry) :
    (arena.declare site entry).Ordered where
  parent_lt hparent := ordered.parent_lt (by simpa using hparent)
  lt_child hchild := ordered.lt_child (by simpa [h] using hchild)
  child_lt hchild := by
    rw [length_declare]
    exact ordered.child_lt (by simpa [h] using hchild)

theorem Ordered.child?_lt (ordered : arena.Ordered) {identifier : String} {id : Nat}
    (h : arena.child? site identifier = some id) : id < arena.nodes.length :=
  ordered.child_lt (List.mem_of_find?_eq_some h)

theorem Ordered.resolve (ordered : arena.Ordered) (h : arena.Has site) (identifier : String) :
    (arena.resolve site identifier).1.Ordered ∧
      (arena.resolve site identifier).1.Has (some (arena.resolve site identifier).2) := by
  unfold Arena.resolve
  split
  · next id hid => exact ⟨ordered, has_some.2 (ordered.child?_lt hid)⟩
  · exact ⟨ordered.add h identifier, by simp⟩

end Arena

end LocalizedAccessors
