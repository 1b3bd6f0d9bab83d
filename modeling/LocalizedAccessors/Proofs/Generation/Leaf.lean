import LocalizedAccessors.Accessor.Entry
import LocalizedAccessors.Proofs.Text.Pieces

/-!
# Leaves of keys

The last segment of a key is a name and labels, set apart by underscores. It can be written with any
number of underscores wherever one may stand, in front and at the end as well. What is declared
depends on the name and the labels alone: the labels bind the arguments one by one, in the order in
which both stand, and there have to be as many of the one as of the other.
-/

namespace LocalizedAccessors

/-- A text between underscores. -/
structure Piece where
  text : String
  ne_empty : text ≠ ""
  plain : '_' ∉ text.toList

/-- The last segment of a key as it is meant. -/
structure Leaf where
  name : Piece
  labels : List Piece

/-- How a leaf is set: the numbers of underscores in front and at the end, and in front of each
label the number of those that could be left out. -/
structure Spacing where
  leading : Nat
  between : Nat → Nat
  trailing : Nat

namespace Leaf

def underscores (count : Nat) : List Char := List.replicate count '_'

def writtenLabels (between : Nat → Nat) : List Piece → List Char
  | [] => []
  | label :: rest =>
    underscores (between 0 + 1) ++ label.text.toList ++
      writtenLabels (fun index ↦ between (index + 1)) rest

def written (leaf : Leaf) (spacing : Spacing) : String :=
  String.ofList (underscores spacing.leading ++ leaf.name.text.toList ++
    writtenLabels spacing.between leaf.labels ++ underscores spacing.trailing)

/-- The parameter label that a piece declares. -/
def label? (piece : Piece) : Option String :=
  if piece.text = ":" ∨ piece.text = "*" then none else some (Swift.escapedLabel piece.text)

/-- The name of an argument within the body of the member. -/
def privateName (index : Nat) : String := "arg" ++ toString index

/-- What the entry of a leaf declares for some arguments. -/
structure Declares (leaf : Leaf) (arguments : List ArgumentKind) (entry : Entry) : Prop where
  arguments_eq : entry.arguments = arguments
  name_eq : entry.name = Swift.escapedName leaf.name.text
  name_ne_empty : entry.name ≠ ""
  length_bindings : entry.bindings.length = leaf.labels.length
  bindings_eq : ∀ index label, leaf.labels[index]? = some label →
    entry.bindings[index]? = some (Binding.mk (label? label) (privateName index))
  /-- Every label is declared with the type of the argument in its place. -/
  parameterList_eq : ∃ parameters : List String,
    entry.parameterList = ", ".intercalate parameters ∧
      parameters.length = leaf.labels.length ∧
      ∀ index label kind, leaf.labels[index]? = some label → arguments[index]? = some kind →
        parameters[index]? = some
          ((label? label).getD "_" ++ " " ++ privateName index ++ ": " ++ kind.swiftType)
  formatArguments_eq : entry.formatArguments =
    ", ".intercalate ((List.range leaf.labels.length).map privateName)

/-! ## The pieces of a leaf -/

theorem isSeparator_of_mem_underscores {count : Nat} :
    ∀ c ∈ underscores count, (c == '_') = true := by
  simp [underscores]

theorem filter_splitOnP_piece (piece : Piece) {rest : List Char}
    (hrest : ∀ c ∈ rest.head?, (c == '_') = true) :
    ((piece.text.toList ++ rest).splitOnP (· == '_')).filter (· ≠ []) =
      piece.text.toList :: (rest.splitOnP (· == '_')).filter (· ≠ []) := by
  have hne : piece.text.toList ≠ [] := by simpa using piece.ne_empty
  have hplain : ∀ c ∈ piece.text.toList, (c == '_') = false := fun c hc ↦
    beq_eq_false_iff_ne.2 fun heq ↦ piece.plain (heq ▸ hc)
  exact Text.filter_splitOnP_part hne hplain hrest

theorem head?_writtenLabels (between : Nat → Nat) (labels : List Piece) (trailing : Nat) :
    ∀ c ∈ (writtenLabels between labels ++ underscores trailing).head?, (c == '_') = true := by
  cases labels with
  | nil => cases trailing <;> simp [writtenLabels, underscores, List.replicate_succ]
  | cons label rest => simp [writtenLabels, underscores, List.replicate_succ]

theorem filter_splitOnP_writtenLabels (between : Nat → Nat) (labels : List Piece)
    (trailing : Nat) :
    ((writtenLabels between labels ++ underscores trailing).splitOnP (· == '_')).filter (· ≠ []) =
      labels.map fun label ↦ label.text.toList := by
  induction labels generalizing between with
  | nil =>
    have hseparators : ∀ c ∈ underscores trailing, (c == '_') = true :=
      isSeparator_of_mem_underscores
    simpa [writtenLabels] using Text.filter_splitOnP_separators hseparators []
  | cons label rest ih =>
    rw [writtenLabels, List.append_assoc, List.append_assoc,
      Text.filter_splitOnP_separators isSeparator_of_mem_underscores,
      filter_splitOnP_piece label (head?_writtenLabels _ rest trailing), ih, List.map_cons]

theorem pieces_written (leaf : Leaf) (spacing : Spacing) :
    Text.pieces '_' (leaf.written spacing) = leaf.name.text :: leaf.labels.map Piece.text := by
  rw [written, Text.pieces_ofList, List.append_assoc, List.append_assoc,
    Text.filter_splitOnP_separators isSeparator_of_mem_underscores,
    filter_splitOnP_piece leaf.name (head?_writtenLabels _ _ _), filter_splitOnP_writtenLabels]
  simp

/-! ## The entry of a leaf -/

theorem make_written (leaf : Leaf) (spacing : Spacing) (path key : String)
    (arguments : List ArgumentKind) :
    Entry.make path key (leaf.written spacing) arguments =
      if leaf.labels.length = arguments.length then
        .ok ⟨key, leaf.written spacing, Swift.escapedName leaf.name.text,
          Entry.bindingsOf (leaf.labels.map Piece.text), arguments⟩
      else .error ⟨path, arguments.length, leaf.labels.length⟩ := by
  simp only [Entry.make, pieces_written, List.tail_cons, List.headD_cons, Entry.bindingsOf,
    List.length_mapIdx, List.length_map]

theorem escapedName_ne_empty (piece : Piece) : Swift.escapedName piece.text ≠ "" := by
  unfold Swift.escapedName Swift.quotedIn
  split
  · simp [← String.toList_inj]
  · exact piece.ne_empty

theorem getElem?_bindingsOf {labels : List Piece} {index : Nat} {label : Piece}
    (h : labels[index]? = some label) :
    (Entry.bindingsOf (labels.map Piece.text))[index]? =
      some ⟨label? label, privateName index⟩ := by
  rw [Entry.bindingsOf, List.getElem?_mapIdx, List.getElem?_map, h]
  rfl

theorem declares_bindingsOf (leaf : Leaf) (key identifier : String) {arguments : List ArgumentKind}
    (h : leaf.labels.length = arguments.length) :
    leaf.Declares arguments ⟨key, identifier, Swift.escapedName leaf.name.text,
      Entry.bindingsOf (leaf.labels.map Piece.text), arguments⟩ where
  arguments_eq := rfl
  name_eq := rfl
  name_ne_empty := escapedName_ne_empty leaf.name
  length_bindings := by simp [Entry.bindingsOf]
  bindings_eq _ _ hlabel := getElem?_bindingsOf hlabel
  parameterList_eq := by
    refine ⟨_, rfl, ?_, fun index label kind hlabel hkind ↦ ?_⟩
    · simp [Entry.bindingsOf, h]
    · simp only [List.getElem?_zipWith, getElem?_bindingsOf hlabel, hkind]
      rfl
  formatArguments_eq := by
    have hnames : (Entry.bindingsOf (leaf.labels.map Piece.text)).map Binding.privateName =
        (List.range leaf.labels.length).map privateName := by
      apply List.ext_getElem
      · simp [Entry.bindingsOf]
      · intro index _ _
        simp [Entry.bindingsOf, Binding.ofPiece, privateName]
    exact congrArg (", ".intercalate ·) hnames

/-- A leaf makes an entry if it has as many labels as there are arguments, and otherwise a mismatch
with both numbers. All that the entry declares is told by the name and the labels; how they are set
only shows in the identifier. -/
theorem make_cases (leaf : Leaf) (spacing : Spacing) (path key : String)
    (arguments : List ArgumentKind) :
    (match Entry.make path key (leaf.written spacing) arguments with
      | .ok entry => arguments.length = leaf.labels.length ∧ entry.key = key ∧
          entry.identifier = leaf.written spacing ∧ leaf.Declares arguments entry
      | .error mismatch => arguments.length ≠ leaf.labels.length ∧
          mismatch = ⟨path, arguments.length, leaf.labels.length⟩) ∧
    ∀ spacing', Entry.make path key (leaf.written spacing') arguments =
      (Entry.make path key (leaf.written spacing) arguments).map
        fun entry ↦ { entry with identifier := leaf.written spacing' } := by
  constructor
  · rw [make_written]
    by_cases h : leaf.labels.length = arguments.length
    · rw [if_pos h]
      exact ⟨h.symm, rfl, rfl, leaf.declares_bindingsOf key _ h⟩
    · rw [if_neg h]
      exact ⟨Ne.symm h, rfl⟩
  · intro spacing'
    rw [make_written, make_written]
    split <;> rfl

end Leaf

end LocalizedAccessors
