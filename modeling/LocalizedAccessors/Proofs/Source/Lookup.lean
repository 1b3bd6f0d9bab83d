import LocalizedAccessors.Proofs.Generation.Agreement
import LocalizedAccessors.Proofs.Source.Characters
import LocalizedAccessors.Proofs.Source.Descent
import Mathlib.Data.List.Perm.Basic

/-!
# Lookups in generated source

A reader of the source who only searches it for calls that look a string up, and decodes the
literal that begins each of them. Fragments of source can be searched one by one if none of them
ends within the beginning of a call. So the reader finds the keys of the entries in the order in
which the entries are declared, and nothing else: every key that is not skipped, once.
-/

namespace LocalizedAccessors

namespace Swift

/-- What a character stands for after a backslash. -/
def unescapedChar : Char → Char
  | 'n' => '\n'
  | 'r' => '\r'
  | 't' => '\t'
  | c => c

/-- The text of a literal, read from behind its opening quote up to the first quote that is not
escaped. -/
def decodeLiteral? : List Char → Option (List Char)
  | [] => none
  | '\"' :: _ => some []
  | '\\' :: c :: rest => (decodeLiteral? rest).map (unescapedChar c :: ·)
  | c :: rest => (decodeLiteral? rest).map (c :: ·)

theorem decodeLiteral?_escapedChar (c : Char) (rest : List Char) :
    decodeLiteral? (escapedChar c ++ rest) = (decodeLiteral? rest).map (c :: ·) := by
  unfold escapedChar
  split
  · rfl
  · rfl
  · rfl
  · rfl
  · rfl
  · next hquote hbackslash _ _ _ =>
    rw [List.singleton_append, decodeLiteral?]
    · exact hquote
    · exact fun _ _ heq ↦ absurd heq hbackslash

/-- A literal ends at its own quote, whatever follows. -/
theorem decodeLiteral?_literalBody (cs rest : List Char) :
    decodeLiteral? (literalBody cs ++ rest) = some cs := by
  induction cs with
  | nil => rfl
  | cons c cs ih =>
    rw [literalBody, List.append_assoc] at ih ⊢
    rw [List.flatMap_cons, List.append_assoc, decodeLiteral?_escapedChar, ih]
    rfl

theorem mem_literalBody {c : Char} {cs : List Char} (h : c ∈ literalBody cs) :
    c ∈ cs ∨ c ∈ ['\"', '\\', 'n', 'r', 't'] := by
  rw [literalBody, List.mem_append, List.mem_flatMap] at h
  rcases h with ⟨d, hd, hmem⟩ | hquote
  · unfold escapedChar at hmem
    split at hmem <;> simp_all <;> grind
  · exact .inr (by simp_all)

end Swift

namespace Lookup

/-- How a call that looks a string up begins. -/
def opening : List Char := "NSLocalizedString(\"".toList

/-- The text that is decoded at each place where a call begins. -/
def lookups : List Char → List (Option (List Char))
  | [] => []
  | c :: rest =>
    if opening <+: c :: rest then
      Swift.decodeLiteral? ((c :: rest).drop opening.length) :: lookups rest
    else lookups rest

theorem not_isPrefix_cut {fragment rest : List Char} {missing cut : Char}
    (hmissing : missing ∈ opening) (h : missing ∉ fragment) (hcut : cut ∉ opening) :
    ¬opening <+: fragment ++ cut :: rest := by
  intro hbegins
  have hfragment : fragment ++ [cut] <+: fragment ++ cut :: rest := ⟨rest, by simp⟩
  rcases List.prefix_or_prefix_of_prefix hbegins hfragment with hinside | hcovers
  · rcases List.prefix_concat_iff.1 hinside with heq | hbefore
    · exact hcut (by simp [heq])
    · exact h (hbefore.subset hmissing)
  · exact hcut (hcovers.subset (by simp))

/-- The lookups that are found in a fragment, whatever follows it. -/
def Finds (fragment : List Char) (keys : List String) : Prop :=
  ∀ rest, lookups (fragment ++ rest) = keys.map (some ·.toList) ++ lookups rest

namespace Finds

theorem nil : Finds [] [] := fun _ ↦ rfl

theorem append {first second : List Char} {keys others : List String} (hfirst : Finds first keys)
    (hsecond : Finds second others) : Finds (first ++ second) (keys ++ others) := by
  intro rest
  rw [List.append_assoc, hfirst, hsecond, List.map_append, List.append_assoc]

theorem flatMap {α : Type} {members : List α} {f : α → List Char} {g : α → List String}
    (h : ∀ a ∈ members, Finds (f a) (g a)) : Finds (members.flatMap f) (members.flatMap g) := by
  induction members with
  | nil => exact nil
  | cons a rest ih =>
    exact (h a (List.mem_cons_self ..)).append (ih fun b hb ↦ h b (List.mem_cons_of_mem _ hb))

/-- A call begins neither within characters of which one is missing, nor at their end if they are
cut off by a character that is in no beginning of a call. -/
theorem of_notMem {fragment : List Char} {missing cut : Char} (hmissing : missing ∈ opening)
    (h : missing ∉ fragment) (hcut : cut ∉ opening) : Finds (fragment ++ [cut]) [] := by
  intro rest
  induction fragment with
  | nil =>
    have hopening : ¬opening <+: cut :: rest := fun hbegins ↦
      not_isPrefix_cut hmissing List.not_mem_nil hcut hbegins
    simp [lookups, hopening]
  | cons c fragment ih =>
    have hopening := @not_isPrefix_cut _ rest _ _ hmissing h hcut
    have hrest := ih fun hmem ↦ h (List.mem_cons_of_mem _ hmem)
    simp only [List.cons_append, List.append_assoc, List.nil_append] at hopening hrest ⊢
    rw [lookups, if_neg hopening, hrest]

/-- Fragments without quotes that end with a blank or a line feed. -/
theorem of_lacks {text : String} (h : Text.Lacks '\"' text) {cut : Char}
    (hcut : cut = ' ' ∨ cut = '\n') : Finds (text.toList ++ [cut]) [] :=
  of_notMem (by decide) h (by rcases hcut with rfl | rfl <;> decide)

end Finds

/-! ## Declarations -/

section Declaration

variable {style : SourceStyle}

theorem lookups_append_of_notMem {cs rest : List Char} (h : 'N' ∉ cs) :
    lookups (cs ++ rest) = lookups rest := by
  induction cs with
  | nil => rfl
  | cons c cs ih =>
    obtain ⟨hc, hcs⟩ := not_or.1 (mt List.mem_cons.2 h)
    have hopening : ¬opening <+: c :: (cs ++ rest) := fun hbegins ↦
      hc (List.cons_prefix_cons.1 hbegins).1
    rw [List.cons_append, lookups, if_neg hopening, ih hcs]

/-- What stands in a call after the literal of the key. -/
def callEnd (style : SourceStyle) : String :=
  (match style.table with
    | some name => ", tableName: " ++ Swift.literal name
    | none => "") ++
  (if style.package then ", bundle: .module" else "") ++ ", comment: \"\""

theorem lookup_eq (style : SourceStyle) (key : String) :
    style.lookup key = "NSLocalizedString(" ++ Swift.literal key ++ callEnd style ++ ")" := by
  have hend : ", comment: \"\")" = ", comment: \"\"" ++ ")" := rfl
  unfold SourceStyle.lookup callEnd
  cases style.table with
  | none => simp only [hend, String.append_assoc]
  | some name => simp only [hend, String.append_assoc]

theorem toList_lookup (style : SourceStyle) (key : String) :
    (style.lookup key).toList =
      opening ++ (Swift.literalBody key.toList ++ ((callEnd style).toList ++ [')'])) := by
  have hopening : opening = "NSLocalizedString(".toList ++ ['\"'] := by decide +kernel
  have hclose : ")".toList = [')'] := by decide +kernel
  rw [lookup_eq, hopening]
  simp only [String.toList_append, Swift.literal, String.toList_ofList, hclose, List.append_assoc]
  rfl

theorem notMem_literalBody {text : String} (h : Text.Lacks '(' text) :
    '(' ∉ Swift.literalBody text.toList := by
  intro hmem
  exact (Swift.mem_literalBody hmem).elim h (by decide)

theorem lacks_callEnd (table : ∀ name ∈ style.table, Text.Lacks '(' name) :
    Text.Lacks '(' (callEnd style) := by
  unfold callEnd
  simp only [Text.Lacks.append_iff]
  refine ⟨⟨?_, ?_⟩, by decide +kernel⟩
  · split
    · next name hname =>
      have hliteral : Text.Lacks '(' (Swift.literal name) := by
        simpa [Text.Lacks, Swift.literal] using notMem_literalBody (table name hname)
      exact Text.Lacks.append_iff.2 ⟨by decide +kernel, hliteral⟩
    · exact .empty _
  · split <;> decide +kernel

theorem lookups_opening (rest : List Char) :
    lookups (opening ++ rest) = Swift.decodeLiteral? rest :: lookups (opening.tail ++ rest) := by
  have hcons : opening ++ rest = 'N' :: (opening.tail ++ rest) := rfl
  have hbegins : opening <+: 'N' :: (opening.tail ++ rest) := hcons ▸ List.prefix_append ..
  have hdrop : ('N' :: (opening.tail ++ rest)).drop opening.length = rest := by
    rw [← hcons, List.drop_left]
  rw [hcons, lookups, if_pos hbegins, hdrop]

/-- A call has one lookup in it, that of its key. -/
theorem finds_lookup {key : String} (hkey : Text.Lacks '(' key)
    (table : ∀ name ∈ style.table, Text.Lacks '(' name) :
    Finds (style.lookup key).toList [key] := by
  intro rest
  let behind := Swift.literalBody key.toList ++ ((callEnd style).toList ++ [')'])
  have hbehind : Finds behind [] := by
    have hmem : '(' ∉ Swift.literalBody key.toList ++ (callEnd style).toList := by
      rw [List.mem_append, not_or]
      exact ⟨notMem_literalBody hkey, lacks_callEnd table⟩
    simpa only [behind, List.append_assoc] using Finds.of_notMem (by decide) hmem (by decide)
  have hdecoded : Swift.decodeLiteral? (behind ++ rest) = some key.toList := by
    simp only [behind, List.append_assoc, Swift.decodeLiteral?_literalBody]
  calc
    lookups ((style.lookup key).toList ++ rest)
      = lookups (opening ++ (behind ++ rest)) := by
        rw [toList_lookup, List.append_assoc]
    _ = Swift.decodeLiteral? (behind ++ rest) :: lookups (opening.tail ++ (behind ++ rest)) :=
        lookups_opening _
    _ = some key.toList :: lookups rest := by
        rw [lookups_append_of_notMem (by decide), hdecoded, hbehind, List.map_nil, List.nil_append]

theorem foreign_quote : Text.Foreign '\"' := by simp [Text.Foreign, Text.foreigners]

/-- Lines as they are written. -/
def written (lines : List String) : List Char := lines.flatMap fun line ↦ line.toList ++ ['\n']

theorem written_append (lines others : List String) :
    written (lines ++ others) = written lines ++ written others := List.flatMap_append

theorem written_flatMap {α : Type} (members : List α) (f : α → List String) :
    written (members.flatMap f) = members.flatMap fun a ↦ written (f a) := List.flatMap_assoc ..

theorem finds_line {line : String} (h : Text.Lacks '\"' line) : Finds (written [line]) [] := by
  rw [written, List.flatMap_singleton]
  exact .of_lacks h (.inr rfl)

/-- A line with one call in it. -/
theorem finds_line_lookup {front back key : String} (hfront : Text.Lacks '\"' front)
    (hkey : Text.Lacks '(' key) (table : ∀ name ∈ style.table, Text.Lacks '(' name)
    (hback : Text.Lacks '\"' back) :
    Finds (written [front ++ " " ++ style.lookup key ++ back]) [key] := by
  have hspace : " ".toList = [' '] := by decide +kernel
  have hline := ((Finds.of_lacks hfront (.inl rfl)).append (finds_lookup hkey table)).append
    (Finds.of_lacks hback (.inr rfl))
  rw [written, List.flatMap_singleton]
  simpa only [String.toList_append, hspace, List.append_assoc, List.nil_append,
    List.append_nil] using hline

theorem finds_declaration (depth : Nat) {entry : Entry} (lacks : entry.Lacks '\"')
    (hkey : Text.Lacks '(' entry.key) (table : ∀ name ∈ style.table, Text.Lacks '(' name) :
    Finds (written (NamespaceTree.declaration style depth entry)) [entry.key] := by
  have hindent (depth : Nat) := Text.Lacks.indent foreign_quote depth
  have hmodifier := Text.Lacks.modifier foreign_quote style.access
  unfold NamespaceTree.declaration
  split
  · have hfront : Text.Lacks '\"' (NamespaceTree.indent depth ++ style.access.modifier ++
        "static " ++ ("let " ++ entry.name ++ " =")) := by
      simp only [Text.Lacks.append_iff, hindent, hmodifier, lacks.name, true_and, and_true]
      decide +kernel
    have hequals : " = " = " =" ++ " " := rfl
    have hline := finds_line_lookup hfront hkey table (.empty _)
    simpa only [hequals, String.append_assoc, String.append_empty] using hline
  · have hheader : Text.Lacks '\"' (NamespaceTree.indent depth ++ style.access.modifier ++
        "static " ++ "func " ++ entry.name ++ "(" ++ entry.parameterList ++
        ") -> String \x7b") := by
      simp only [Text.Lacks.append_iff, hindent, hmodifier, lacks.name, lacks.parameterList,
        true_and, and_true]
      decide +kernel
    have hfront : Text.Lacks '\"' (NamespaceTree.indent (depth + 1) ++
        "return String(format:") :=
      Text.Lacks.append_iff.2 ⟨hindent _, by decide +kernel⟩
    have hback : Text.Lacks '\"' (", " ++ entry.formatArguments ++ ")") := by
      simp only [Text.Lacks.append_iff, lacks.formatArguments, and_true]
      decide +kernel
    have hclose : Text.Lacks '\"' (NamespaceTree.indent depth ++ "\x7d") :=
      Text.Lacks.append_iff.2 ⟨hindent _, by decide +kernel⟩
    have hformat : "return String(format: " = "return String(format:" ++ " " := rfl
    have hlines := ((finds_line hheader).append (finds_line_lookup hfront hkey table hback)).append
      (finds_line hclose)
    rw [← written_append, ← written_append] at hlines
    simpa only [hformat, String.append_assoc, List.cons_append, List.nil_append,
      List.append_nil] using hlines

end Declaration

/-! ## The tree -/

section Tree

variable {tree : NamespaceTree} {style : SourceStyle}

/-- The keys of the entries below a site in the order of declaration. -/
def declaredKeys (tree : NamespaceTree) (site : Site) : List String :=
  (tree.descent site).flatMap fun reached ↦ (Entry.sorted (tree.entriesOf reached)).map Entry.key

theorem declaredKeys_eq (tree : NamespaceTree) (site : Site) :
    declaredKeys tree site = (Entry.sorted (tree.entriesOf site)).map Entry.key ++
      (tree.sortedChildren site).flatMap fun id ↦ declaredKeys tree (some id) := by
  rw [declaredKeys, NamespaceTree.descent_eq, List.flatMap_cons, List.flatMap_assoc]
  rfl

theorem declaredKeys_perm (coherent : tree.Coherent) :
    (declaredKeys tree none).Perm (tree.entries.map Entry.key) := by
  rw [NamespaceTree.entries_eq_flatMap_sites, List.map_flatMap]
  exact (NamespaceTree.descent_perm_sites coherent).flatMap fun site _ ↦
    (List.mergeSort_perm ..).map _

theorem finds_structure {opener close : String} {inner : List String} {keys : List String}
    (hopener : Text.Lacks '\"' opener) (hclose : Text.Lacks '\"' close)
    (h : Finds (written inner) keys) :
    Finds (written (opener :: inner ++ [close])) keys := by
  have hlines := ((finds_line hopener).append h).append (finds_line hclose)
  rw [← written_append, ← written_append, List.nil_append, List.append_nil] at hlines
  exact hlines

theorem lacks_structHeader (style : SourceStyle) {name : String} (h : Text.Lacks '\"' name) :
    Text.Lacks '\"' (NamespaceTree.structHeader style name) := by
  have hmodifier := Text.Lacks.modifier foreign_quote style.access
  have hname : Text.Lacks '\"' (Swift.escapedName name) := h.quotedIn foreign_quote
  unfold NamespaceTree.structHeader
  simp only [Text.Lacks.append_iff, hmodifier, hname, true_and, and_true]
  decide +kernel

/-- The induction is on how much room there is below the site. -/
theorem finds_body (lacks : tree.Lacks '\"')
    (keys : ∀ {site}, ∀ entry ∈ tree.entriesOf site, Text.Lacks '(' entry.key)
    (table : ∀ name ∈ style.table, Text.Lacks '(' name) (depth : Nat) (site : Site) :
    Finds (written (tree.body style depth site)) (declaredKeys tree site) := by
  induction hroom : tree.room site using Nat.strongRecOn generalizing depth site with
  | ind room ih =>
    subst hroom
    rw [NamespaceTree.body_eq, declaredKeys_eq, written_append, written_flatMap, written_flatMap,
      List.map_eq_flatMap]
    apply Finds.append
    · apply Finds.flatMap
      intro entry hentry
      have hentry := List.mem_mergeSort.1 hentry
      exact finds_declaration depth (lacks.entriesOf entry hentry) (keys entry hentry) table
    · apply Finds.flatMap
      intro id hid
      have hchild := List.mem_mergeSort.1 hid
      have hid := tree.ordered.child_lt hchild
      have hindent := Text.Lacks.indent foreign_quote depth
      have hname := (lacks.identifierOf hid).structName foreign_quote
      have hinner := ih _ (NamespaceTree.room_lt hchild) (depth + 1) (some id) rfl
      have hblock := finds_structure
        (Text.Lacks.append_iff.2 ⟨hindent, lacks_structHeader style hname⟩)
        (Text.Lacks.append_iff.2 ⟨hindent, (by decide +kernel : Text.Lacks '\"' "\x7d")⟩) hinner
      exact (finds_line (.empty _)).append hblock

theorem finds_render (lacks : tree.Lacks '\"')
    (keys : ∀ {site}, ∀ entry ∈ tree.entriesOf site, Text.Lacks '(' entry.key)
    (table : ∀ name ∈ style.table, Text.Lacks '(' name) (root : Text.Lacks '\"' style.rootName) :
    Finds (tree.render style).toList (declaredKeys tree none) := by
  have hbody := finds_body lacks keys table 1 none
  have hclose : Text.Lacks '\"' "\x7d" := by decide +kernel
  have hlines := finds_structure (lacks_structHeader style root) hclose hbody
  have hlinefeed : "\n".toList = ['\n'] := by decide +kernel
  rw [NamespaceTree.render, String.toList_join, List.flatMap_map]
  simpa only [written, String.toList_append, hlinefeed] using hlines

end Tree

end Lookup

/-- Whether a text has neither a double quote nor an opening parenthesis. -/
def Text.Unquoted (text : String) : Prop := Lacks '\"' text ∧ Lacks '(' text

instance (text : String) : Decidable (Text.Unquoted text) :=
  inferInstanceAs (Decidable (Text.Lacks '\"' text ∧ Text.Lacks '(' text))

open Lookup (lookups)

/-- In the source for a catalog without quotes and opening parentheses every key that is not skipped
is looked up once, character for character. -/
theorem lookups_render {catalog : Catalog} {options : GenerationOptions} {generated : Generated}
    (success : (generate catalog options).value = .ok generated)
    (keys : ∀ pair ∈ catalog.pairs, Text.Unquoted pair.1) {style : SourceStyle}
    (root : Text.Unquoted style.rootName) (table : ∀ name ∈ style.table, Text.Unquoted name) :
    (lookups (generated.tree.render style).toList).Perm
        ((catalog.pairs.filter fun pair ↦ ¬Key.Skipped pair.1).map fun pair ↦ some pair.1.toList) ∧
      (lookups (generated.tree.render style).toList).Nodup := by
  obtain ⟨hagree, htree⟩ := of_generate_eq_ok success
  have hcalls : ∀ call ∈ catalog.calls, Text.Unquoted call.key := List.forall_mem_map.2 keys
  have lacks := NamespaceTree.lacks_run Lookup.foreign_quote fun call hcall ↦ (hcalls call hcall).1
  have hkeys {site : Site} : ∀ entry ∈ (NamespaceTree.empty.run catalog.calls).1.entriesOf site,
      Text.Lacks '(' entry.key := by
    intro entry hentry
    obtain ⟨call, hcall, hmade⟩ := NamespaceTree.exists_call_of_mem_entriesOf hentry
    rw [(Call.of_entry?_eq_some hmade).1]
    exact (hcalls call hcall).2
  have hfound := Lookup.finds_render lacks hkeys (fun name hname ↦ (table name hname).2) root.1 []
  rw [List.append_nil, Lookup.lookups, List.append_nil] at hfound
  have hperm := (Lookup.declaredKeys_perm (NamespaceTree.coherent_run_empty catalog.calls)).trans
    (NamespaceTree.keys_run_calls hagree)
  rw [htree, hfound]
  have hmap : ((catalog.pairs.filter fun pair ↦ ¬Key.Skipped pair.1).map Prod.fst).map
        (some ·.toList) =
      (catalog.pairs.filter fun pair ↦ ¬Key.Skipped pair.1).map fun pair ↦ some pair.1.toList :=
    List.map_map
  have hnodup : ((catalog.pairs.filter fun pair ↦ ¬Key.Skipped pair.1).map Prod.fst).Nodup :=
    catalog.nodup_keys.sublist (List.filter_sublist.map _)
  constructor
  · rw [← hmap]
    exact hperm.map _
  · exact (hperm.nodup_iff.2 hnodup).map fun a b h ↦ String.toList_inj.1 (Option.some.inj h)

/-- Keys with a backslash, a tab and a line break, a keyword and a key that is skipped. -/
def obliqueCatalog : Catalog :=
  .ofPairs [("menu.class_name", "%@"), ("path\\to\tfile", "x"), ("line\nbreak", ""), ("..", "%d")]

theorem lookups_render_obliqueCatalog :
    ∃ generated, (generate obliqueCatalog {}).value = .ok generated ∧
      (∀ pair ∈ obliqueCatalog.pairs, Text.Unquoted pair.1) ∧
      Text.Unquoted ({} : SourceStyle).rootName ∧
      (lookups (generated.tree.render {}).toList).Perm
        ((obliqueCatalog.pairs.filter fun pair ↦ ¬Key.Skipped pair.1).map
          fun pair ↦ some pair.1.toList) ∧
      (lookups (generated.tree.render {}).toList).Nodup := by
  have hagree : obliqueCatalog.disagreement? = none := by decide +kernel
  have hkeys : ∀ pair ∈ obliqueCatalog.pairs, Text.Unquoted pair.1 := by decide +kernel
  have hroot : Text.Unquoted ({} : SourceStyle).rootName := by decide +kernel
  have success := value_generate obliqueCatalog {}
  rw [hagree] at success
  exact ⟨_, success, hkeys, hroot, lookups_render success hkeys hroot (by simp)⟩

end LocalizedAccessors
