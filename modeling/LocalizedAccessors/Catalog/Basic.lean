import LocalizedAccessors.Report.Notice

/-!
# Catalogs

The merged set of localized strings: one value for every key, in ascending order of the keys.
Sources are added one after another, and the policy of the catalog says what becomes of a key that
is there already. What a catalog says about a key is `get?`, and `get?_insert` tells how an
insertion changes that.
-/

namespace LocalizedAccessors

structure Catalog where
  /-- Keys and values. -/
  pairs : List (String × String)
  policy : DuplicatePolicy
  ascending : pairs.Pairwise fun a b ↦ a.1 < b.1
  deriving DecidableEq, Repr

namespace Catalog

def empty (policy : DuplicatePolicy) : Catalog := ⟨[], policy, .nil⟩

def get? (catalog : Catalog) (key : String) : Option String := catalog.pairs.lookup key

def size (catalog : Catalog) : Nat := catalog.pairs.length

def isEmpty (catalog : Catalog) : Bool := catalog.pairs.isEmpty

/-- Puts a value in the place that its key has among ascending keys. -/
def place (key value : String) : List (String × String) → List (String × String)
  | [] => [(key, value)]
  | other :: rest =>
    if key < other.1 then (key, value) :: other :: rest
    else if key = other.1 then (key, value) :: rest
    else other :: place key value rest

theorem fst_of_mem_place {key value : String} {pairs : List (String × String)}
    {pair : String × String} (h : pair ∈ place key value pairs) :
    pair.1 = key ∨ pair ∈ pairs := by
  induction pairs with
  | nil => simp_all [place]
  | cons other rest ih =>
    rw [place] at h
    split at h
    · rcases List.mem_cons.1 h with rfl | h
      · exact .inl rfl
      · exact .inr h
    · split at h
      · rcases List.mem_cons.1 h with rfl | h
        · exact .inl rfl
        · exact .inr (List.mem_cons_of_mem _ h)
      · rcases List.mem_cons.1 h with rfl | h
        · exact .inr List.mem_cons_self
        · exact (ih h).imp_right (List.mem_cons_of_mem _)

theorem pairwise_place (key value : String) {pairs : List (String × String)}
    (h : pairs.Pairwise fun a b ↦ a.1 < b.1) :
    (place key value pairs).Pairwise fun a b ↦ a.1 < b.1 := by
  induction pairs with
  | nil => simp [place]
  | cons other rest ih =>
    obtain ⟨hother, hrest⟩ := List.pairwise_cons.1 h
    rw [place]
    split
    · next hlt =>
      refine List.pairwise_cons.2 ⟨fun pair hpair ↦ ?_, h⟩
      rcases List.mem_cons.1 hpair with rfl | hpair
      · exact hlt
      · exact String.lt_trans hlt (hother pair hpair)
    · next hlt =>
      split
      · next heq => exact List.pairwise_cons.2 ⟨heq ▸ hother, hrest⟩
      · next hne =>
        refine List.pairwise_cons.2 ⟨fun pair hpair ↦ ?_, ih hrest⟩
        rcases fst_of_mem_place hpair with heq | hpair
        · rw [heq]
          exact Std.lt_of_le_of_ne (String.not_lt.1 hlt) (Ne.symm hne)
        · exact hother pair hpair

theorem lookup_place (key value other : String) (pairs : List (String × String)) :
    (place key value pairs).lookup other =
      if other = key then some value else pairs.lookup other := by
  induction pairs with
  | nil => grind [place]
  | cons first rest ih => grind [place]

/-- The catalog in which the key has this value. -/
def insert (catalog : Catalog) (key value : String) : Catalog where
  pairs := place key value catalog.pairs
  policy := catalog.policy
  ascending := pairwise_place key value catalog.ascending

theorem get?_insert (catalog : Catalog) (key value other : String) :
    (catalog.insert key value).get? other =
      if other = key then some value else catalog.get? other :=
  lookup_place key value other catalog.pairs

@[simp] theorem get?_empty (policy : DuplicatePolicy) (key : String) :
    (empty policy).get? key = none := rfl

@[simp] theorem policy_insert (catalog : Catalog) (key value : String) :
    (catalog.insert key value).policy = catalog.policy := rfl

/-- Adds the pairs of a source after `added` others of it. A key that must not be defined again
ends the addition, and what was added before stays. -/
def addAfter (origin : String) (added : Nat) (catalog : Catalog) :
    List (String × String) → Reported (Catalog × Except DuplicateKey Unit)
  | [] => do
    Reported.report (.mergedSource origin added)
    return (catalog, .ok ())
  | (key, value) :: rest =>
    if (catalog.get? key).isNone then
      addAfter origin (added + 1) (catalog.insert key value) rest
    else
      match catalog.policy with
      | .reject => return (catalog, .error ⟨key, origin⟩)
      | .overwrite => do
        Reported.report (.replacedKey key origin)
        addAfter origin (added + 1) (catalog.insert key value) rest

/-- Adds the pairs of a source, which is called by its origin. -/
def add (catalog : Catalog) (origin : String) (pairs : List (String × String)) :
    Reported (Catalog × Except DuplicateKey Unit) :=
  addAfter origin 0 catalog pairs

/-- The catalog of some pairs, of which the last one for a key counts. -/
def ofPairs (pairs : List (String × String)) : Catalog :=
  pairs.foldl (fun catalog pair ↦ catalog.insert pair.1 pair.2) (empty .overwrite)

end Catalog

end LocalizedAccessors
