import LocalizedAccessors.Proofs.Source.Scan

/-!
# The layout of generated source

Lines are laid out in some blocks if they leave the same blocks open, are indented by four spaces
for every open block, and have blank lines before nested structures only. Lines that are laid out in
the same blocks can follow each other, so the layout of a whole level comes from the layout of its
declarations. On the way it is kept which declarations a reader of the lines finds.
-/

namespace LocalizedAccessors.Scan

/-- How the declaration of a structure begins. -/
def structStart (style : SourceStyle) : String := style.access.modifier ++ "struct "

/-- How the declaration of a member begins. -/
def memberStart (style : SourceStyle) : String := style.access.modifier ++ "static "

namespace Line

/-- Whether the line opens a structure that is not the outermost one. -/
def OpensNested (style : SourceStyle) (line : Line) : Prop :=
  line.around ≠ [] ∧ (structStart style).toList <+: line.text.toList

/-- What the line declares, as its text with the blocks around it. -/
def declared? (style : SourceStyle) (line : Line) : Option (List String × String) :=
  if (structStart style).toList <+: line.text.toList
      ∨ (memberStart style).toList <+: line.text.toList then
    some (line.around, line.text)
  else none

end Line

/-- Whether blank lines stand before nested structures and nowhere else. The flag tells whether the
line before these lines is blank. -/
def Spaced (style : SourceStyle) (blank : Prop) : List Line → Prop
  | [] => ¬blank
  | line :: rest => (blank ↔ line.OpensNested style) ∧ Spaced style line.Blank rest

theorem Spaced.append {style : SourceStyle} {blank : Prop} {s t : List Line}
    (hs : Spaced style blank s) (ht : Spaced style False t) : Spaced style blank (s ++ t) := by
  induction s generalizing blank with
  | nil =>
    have hblank : blank = False := eq_false hs
    rwa [hblank]
  | cons line rest ih => exact ⟨hs.1, ih hs.2⟩

/-- What is asked of scanned lines that stand in some blocks. -/
structure Arranged (style : SourceStyle) (blocks : List String) (blank : Prop)
    (scanned : List Line) : Prop where
  indentation_eq : ∀ line ∈ scanned, ¬line.Blank → line.indentation = 4 * line.around.length
  within : ∀ line ∈ scanned, blocks <+: line.after
  spaced : Spaced style blank scanned

/-- Lines are laid out in some blocks, after a blank line or not, and declare some texts. -/
def Laid (style : SourceStyle) (blocks : List String) (blank : Prop) (lines : List String)
    (declared : List (List String × String)) : Prop :=
  ∃ scanned, scan blocks lines = some (scanned, blocks) ∧ Arranged style blocks blank scanned ∧
    scanned.filterMap (Line.declared? style) = declared

namespace Laid

variable {style : SourceStyle} {blocks : List String} {blank : Prop}

theorem nil : Laid style blocks False [] [] :=
  ⟨[], rfl, ⟨by simp, by simp, not_false⟩, rfl⟩

theorem append {xs ys : List String} {ds es : List (List String × String)}
    (hxs : Laid style blocks blank xs ds) (hys : Laid style blocks False ys es) :
    Laid style blocks blank (xs ++ ys) (ds ++ es) := by
  obtain ⟨s, hs, harranged, rfl⟩ := hxs
  obtain ⟨t, ht, harranged', rfl⟩ := hys
  refine ⟨s ++ t, scan_append hs ht, ⟨?_, ?_, ?_⟩, List.filterMap_append⟩
  · intro line hline
    exact (List.mem_append.1 hline).elim (harranged.indentation_eq line)
      (harranged'.indentation_eq line)
  · intro line hline
    exact (List.mem_append.1 hline).elim (harranged.within line) (harranged'.within line)
  · exact harranged.spaced.append harranged'.spaced

theorem flatMap {α : Type} {members : List α} {f : α → List String}
    {g : α → List (List String × String)}
    (h : ∀ a ∈ members, Laid style blocks False (f a) (g a)) :
    Laid style blocks False (members.flatMap f) (members.flatMap g) := by
  induction members with
  | nil => exact nil
  | cons a rest ih =>
    exact (h a (List.mem_cons_self ..)).append (ih fun b hb ↦ h b (List.mem_cons_of_mem _ hb))

end Laid

/-! ## Lines by how they begin -/

section Start

variable {style : SourceStyle} {name : String}

theorem solid_modifier_append (access : AccessLevel) {word : String} (h : Solid word) :
    Solid (access.modifier ++ word) := by
  cases access with
  | exported => exact Solid.append ⟨'p', by simp [AccessLevel.modifier]⟩ word
  | internal => simpa [AccessLevel.modifier] using h

theorem solid_structStart (style : SourceStyle) : Solid (structStart style) :=
  solid_modifier_append _ ⟨'s', by simp⟩

theorem solid_memberStart (style : SourceStyle) : Solid (memberStart style) :=
  solid_modifier_append _ ⟨'s', by simp⟩

/-- A declaration begins with its access modifier or with the word that tells its kind. -/
theorem head_modifier_append (access : AccessLevel) {word : String} {rest : List Char}
    (h : word.toList = 's' :: rest) :
    ∃ c ∈ ['p', 's'], (access.modifier ++ word).toList.head? = some c := by
  cases access with
  | exported => exact ⟨'p', by simp [AccessLevel.modifier]⟩
  | internal => exact ⟨'s', by simp [AccessLevel.modifier, h]⟩

theorem not_start_of_head {access : AccessLevel} {word text : String} {rest : List Char}
    (hword : word.toList = 's' :: rest) (h : ∀ c ∈ text.toList.head?, c ∉ ['p', 's']) :
    ¬(access.modifier ++ word).toList <+: text.toList := by
  rintro ⟨more, hmore⟩
  obtain ⟨c, hc, hhead⟩ := head_modifier_append access hword
  exact h c (by rw [← hmore, List.head?_append, hhead]; rfl) hc

/-- Lines that begin otherwise than declarations are passed over by a reader. -/
theorem Line.not_opensNested_of_head (line : Line)
    (h : ∀ c ∈ line.text.toList.head?, c ∉ ['p', 's']) :
    ¬line.OpensNested style := fun hopens ↦ not_start_of_head rfl h hopens.2

theorem Line.declared?_of_head (line : Line)
    (h : ∀ c ∈ line.text.toList.head?, c ∉ ['p', 's']) :
    line.declared? style = none :=
  if_neg fun hstart ↦ hstart.elim (not_start_of_head rfl h) (not_start_of_head rfl h)

theorem Line.declared?_struct (line : Line)
    (h : (structStart style).toList <+: line.text.toList) :
    line.declared? style = some (line.around, line.text) := if_pos (.inl h)

theorem Line.declared?_member (line : Line)
    (h : (memberStart style).toList <+: line.text.toList) :
    line.declared? style = some (line.around, line.text) := if_pos (.inr h)

theorem Line.not_opensNested_of_member (line : Line)
    (h : (memberStart style).toList <+: line.text.toList) :
    ¬line.OpensNested style := by
  rintro ⟨-, hstruct⟩
  obtain ⟨more, hmore⟩ := h
  rw [← hmore, structStart, memberStart, String.toList_append, String.toList_append,
    List.append_assoc, List.prefix_append_right_inj] at hstruct
  simp at hstruct

theorem structHeader_eq (style : SourceStyle) (name : String) :
    NamespaceTree.structHeader style name =
      structStart style ++ (Swift.escapedName name ++ " \x7b") := by
  simp [NamespaceTree.structHeader, structStart, String.append_assoc]

theorem structStart_isPrefix_structHeader :
    (structStart style).toList <+: (NamespaceTree.structHeader style name).toList := by
  simp [structHeader_eq]

theorem solid_structHeader : Solid (NamespaceTree.structHeader style name) := by
  rw [structHeader_eq]
  exact (solid_structStart style).append _

theorem opens_structHeader : Opens (NamespaceTree.structHeader style name) :=
  Opens.append (by simp [Opens]) _

end Start

/-! ## Blocks -/

/-- A line that opens a block. -/
def Line.opening (blocks : List String) (text : String) : Line :=
  ⟨blocks, 4 * blocks.length, text, blocks ++ [text]⟩

/-- A line that leaves the blocks as they are. -/
def Line.standing (blocks : List String) (text : String) : Line :=
  ⟨blocks, 4 * blocks.length, text, blocks⟩

/-- A line that closes a block. -/
def Line.closing (blocks : List String) : Line := ⟨blocks, 4 * blocks.length, "\x7d", blocks⟩

theorem Line.declared?_opening_structHeader (style : SourceStyle) (blocks : List String)
    (name : String) :
    (Line.opening blocks (NamespaceTree.structHeader style name)).declared? style =
      some (blocks, NamespaceTree.structHeader style name) :=
  Line.declared?_struct _ structStart_isPrefix_structHeader

section Block

variable {style : SourceStyle} {blocks : List String} {blank : Prop} {opener : String}
  {inner : List String}

/-- The lines of a block whose inner lines are given. -/
def block (blocks : List String) (opener : String) (inner : List String) : List String :=
  (NamespaceTree.indent blocks.length ++ opener) :: inner ++
    [NamespaceTree.indent blocks.length ++ "\x7d"]

theorem scan_block {s : List Line} (solid : Solid opener) (opens : Opens opener)
    (h : scan (blocks ++ [opener]) inner = some (s, blocks ++ [opener])) :
    scan blocks (block blocks opener inner) =
      some (.opening blocks opener :: s ++ [.closing blocks], blocks) := by
  have hopen : scan blocks [NamespaceTree.indent blocks.length ++ opener] =
      some ([.opening blocks opener], blocks ++ [opener]) := by
    simp [scan, scanLine_open _ solid opens, Line.opening]
  have hclose : scan (blocks ++ [opener]) [NamespaceTree.indent blocks.length ++ "\x7d"] =
      some ([.closing blocks], blocks) := by
    simp [scan, scanLine_close, Line.closing]
  have hwhole := scan_append hopen (scan_append h hclose)
  simpa only [block, List.cons_append, List.nil_append] using hwhole

theorem mem_block {s : List Line} {line : Line}
    (h : line ∈ Line.opening blocks opener :: s ++ [.closing blocks]) :
    line = .opening blocks opener ∨ line ∈ s ∨ line = .closing blocks := by
  simpa using h

theorem arranged_block {s : List Line} (solid : Solid opener)
    (hblank : blank ↔ (Line.opening blocks opener).OpensNested style)
    (h : Arranged style (blocks ++ [opener]) False s) :
    Arranged style blocks blank (.opening blocks opener :: s ++ [.closing blocks]) where
  indentation_eq line hline := by
    rcases mem_block hline with rfl | hinner | rfl
    · exact fun _ ↦ rfl
    · exact h.indentation_eq line hinner
    · exact fun _ ↦ rfl
  within line hline := by
    rcases mem_block hline with rfl | hinner | rfl
    · exact List.prefix_append ..
    · exact (List.prefix_append ..).trans (h.within line hinner)
    · exact List.prefix_rfl
  spaced := by
    have hopener : (Line.opening blocks opener).Blank = False :=
      eq_false fun hopener ↦ solid.ne_empty hopener.2
    have hnested : ¬(Line.closing blocks).OpensNested style :=
      Line.not_opensNested_of_head _ (by simp [Line.closing])
    have hclosing : Spaced style False [.closing blocks] :=
      ⟨(iff_false_left not_false).2 hnested, by simp [Spaced, Line.Blank, Line.closing]⟩
    exact ⟨hblank, hopener ▸ h.spaced.append hclosing⟩

theorem declared?_closing : (Line.closing blocks).declared? style = none :=
  Line.declared?_of_head _ (by simp [Line.closing])

theorem Laid.block {declared : List (List String × String)} (solid : Solid opener)
    (opens : Opens opener) (hblank : blank ↔ (Line.opening blocks opener).OpensNested style)
    (h : Laid style (blocks ++ [opener]) False inner declared) :
    Laid style blocks blank (Scan.block blocks opener inner)
      (((Line.opening blocks opener).declared? style).toList ++ declared) := by
  obtain ⟨s, hscan, harranged, rfl⟩ := h
  refine ⟨_, scan_block solid opens hscan, arranged_block solid hblank harranged, ?_⟩
  rw [List.filterMap_append, List.filterMap_cons]
  cases hopener : (Line.opening blocks opener).declared? style <;>
    simp [declared?_closing]

/-- What asks for a blank line can follow one. -/
theorem Laid.after_blank {lines : List String} {declared : List (List String × String)}
    (h : Laid style blocks True lines declared) :
    Laid style blocks False ("" :: lines) declared := by
  obtain ⟨s, hscan, harranged, rfl⟩ := h
  let first : Line := ⟨blocks, 0, "", blocks⟩
  have hblank : first.Blank := ⟨rfl, rfl⟩
  have hhead : ∀ c ∈ first.text.toList.head?, c ∉ ['p', 's'] := by simp [first]
  have hfirst : scan blocks ("" :: lines) = some (first :: s, blocks) := by
    simp [scan, scanLine_blank, hscan, first]
  refine ⟨first :: s, hfirst, ⟨?_, ?_, ?_⟩, ?_⟩
  · intro line hline
    rcases List.mem_cons.1 hline with rfl | hrest
    · exact fun hne ↦ absurd hblank hne
    · exact harranged.indentation_eq line hrest
  · intro line hline
    rcases List.mem_cons.1 hline with rfl | hrest
    · exact List.prefix_rfl
    · exact harranged.within line hrest
  · refine ⟨(iff_false_left not_false).2 (Line.not_opensNested_of_head first hhead), ?_⟩
    rw [eq_true hblank]
    exact harranged.spaced
  · rw [List.filterMap_cons, Line.declared?_of_head first hhead]

theorem Laid.standing {text : String} (solid : Solid text)
    (opens : ¬Opens (NamespaceTree.indent blocks.length ++ text))
    (nested : ¬(Line.standing blocks text).OpensNested style) :
    Laid style blocks False [NamespaceTree.indent blocks.length ++ text]
      ((Line.standing blocks text).declared? style).toList := by
  refine ⟨[.standing blocks text], ?_, ⟨?_, ?_, ?_⟩, ?_⟩
  · simp [scan, scanLine_plain _ solid opens, Line.standing]
  · simp [Line.standing]
  · simp [Line.standing]
  · exact ⟨(iff_false_left not_false).2 nested, fun hblank ↦ solid.ne_empty hblank.2⟩
  · cases hline : (Line.standing blocks text).declared? style <;> simp [hline]

end Block

/-! ## Declarations -/

section Declaration

variable {style : SourceStyle} {blocks : List String}

/-- The line that declares a member, without its indentation. -/
def memberText (style : SourceStyle) (entry : Entry) : String :=
  style.access.modifier ++ "static " ++
    if entry.isConstant then "let " ++ entry.name ++ " = " ++ style.lookup entry.key
    else "func " ++ entry.name ++ "(" ++ entry.parameterList ++ ") -> String \x7b"

theorem memberStart_isPrefix_memberText (entry : Entry) :
    (memberStart style).toList <+: (memberText style entry).toList := by
  simp [memberStart, memberText]

theorem solid_memberText (entry : Entry) : Solid (memberText style entry) :=
  (solid_memberStart style).append _

/-- A string is looked up by a call, so the last character is a parenthesis. -/
theorem getLast?_lookup (style : SourceStyle) (key : String) :
    (style.lookup key).toList.getLast? = some ')' := by
  unfold SourceStyle.lookup
  exact getLast?_toList_append (by simp)

/-- The line within a function, without its indentation. -/
def returnText (style : SourceStyle) (entry : Entry) : String :=
  "return String(format: " ++ style.lookup entry.key ++ ", " ++ entry.formatArguments ++ ")"

theorem head?_returnText (style : SourceStyle) (entry : Entry) :
    (returnText style entry).toList.head? = some 'r' := by
  unfold returnText
  simp

theorem getLast?_returnText (style : SourceStyle) (entry : Entry) :
    (returnText style entry).toList.getLast? = some ')' := by
  unfold returnText
  exact getLast?_toList_append (by simp)

theorem laid_returnText {entry : Entry} :
    Laid style blocks False [NamespaceTree.indent blocks.length ++ returnText style entry] [] := by
  have hfirst := head?_returnText style entry
  have hhead : ∀ c ∈ (returnText style entry).toList.head?, c ∉ ['p', 's'] := by simp [hfirst]
  let line := Line.standing blocks (returnText style entry)
  have hnested : ¬line.OpensNested style := line.not_opensNested_of_head hhead
  have hlaid := Laid.standing ⟨'r', hfirst, by decide, by decide⟩
    (not_opens_of_last (getLast?_toList_append (getLast?_returnText style entry)) (by decide))
    hnested
  rwa [line.declared?_of_head hhead] at hlaid

theorem laid_constant {entry : Entry} (h : entry.isConstant = true) :
    Laid style blocks False [NamespaceTree.indent blocks.length ++ memberText style entry]
      [(blocks, memberText style entry)] := by
  have htext : memberText style entry =
      style.access.modifier ++ "static " ++ ("let " ++ entry.name ++ " = ") ++
        style.lookup entry.key := by
    simp [memberText, h, String.append_assoc]
  have hopens : ¬Opens (NamespaceTree.indent blocks.length ++ memberText style entry) := by
    rw [htext]
    exact not_opens_of_last
      (getLast?_toList_append (getLast?_toList_append (getLast?_lookup ..))) (by decide)
  let line := Line.standing blocks (memberText style entry)
  have hstart : (memberStart style).toList <+: line.text.toList :=
    memberStart_isPrefix_memberText entry
  have hnested : ¬line.OpensNested style := line.not_opensNested_of_member hstart
  have hlaid := Laid.standing (solid_memberText entry) hopens hnested
  rwa [line.declared?_member hstart] at hlaid

theorem laid_function {entry : Entry} (h : entry.isConstant = false) :
    Laid style blocks False
      (block blocks (memberText style entry)
        [NamespaceTree.indent (blocks.length + 1) ++ returnText style entry])
      [(blocks, memberText style entry)] := by
  have htext : memberText style entry =
      style.access.modifier ++ "static " ++
        ("func " ++ entry.name ++ "(" ++ entry.parameterList ++ ") -> String \x7b") := by
    simp [memberText, h]
  have hopens : Opens (memberText style entry) := by
    have hend : Opens ") -> String \x7b" := ⟨") -> String".toList, by simp⟩
    rw [htext]
    exact (hend.append _).append _
  have hinner : Laid style (blocks ++ [memberText style entry]) False
      [NamespaceTree.indent (blocks.length + 1) ++ returnText style entry] [] := by
    have hlength : (blocks ++ [memberText style entry]).length = blocks.length + 1 := by simp
    rw [← hlength]
    exact laid_returnText
  let line := Line.opening blocks (memberText style entry)
  have hstart : (memberStart style).toList <+: line.text.toList :=
    memberStart_isPrefix_memberText entry
  have hnested : ¬line.OpensNested style := line.not_opensNested_of_member hstart
  have hlaid := Laid.block (solid_memberText entry) hopens ((iff_false_left not_false).2 hnested)
    hinner
  rwa [line.declared?_member hstart] at hlaid

theorem laid_declaration (entry : Entry) :
    Laid style blocks False (NamespaceTree.declaration style blocks.length entry)
      [(blocks, memberText style entry)] := by
  unfold NamespaceTree.declaration
  split
  · next h =>
    have hlaid : Laid style blocks False _ _ := laid_constant h
    simpa only [memberText, if_pos h, String.append_assoc] using hlaid
  · next h =>
    have hlaid : Laid style blocks False _ _ := laid_function (Bool.eq_false_iff.2 h)
    unfold block returnText at hlaid
    simpa only [memberText, if_neg h, String.append_assoc, List.cons_append, List.nil_append]
      using hlaid

end Declaration

end LocalizedAccessors.Scan
