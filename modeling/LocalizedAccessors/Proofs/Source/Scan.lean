import LocalizedAccessors.Accessor.Source
import Mathlib.Data.List.Infix

/-!
# Scanning source by its lines

A reader of the generated source who knows nothing of the tree. Lines are read one after another
with a stack of the lines that have opened a block: a line that ends in a space and an opening brace
opens one, and a line of a closing brace closes the innermost one. What is laid out well between
two lines of the same block can be put together from well laid out parts.
-/

namespace LocalizedAccessors.Scan

/-- A line together with the blocks that are open around it and after it. Blocks are told by the
lines that open them, without indentation and with the outermost first. -/
structure Line where
  around : List String
  indentation : Nat
  /-- The line without its indentation. -/
  text : String
  after : List String
  deriving DecidableEq, Repr

def Line.Blank (line : Line) : Prop := line.indentation = 0 ∧ line.text = ""

def indentation (line : String) : Nat := (line.toList.takeWhile (· == ' ')).length

def unindented (line : String) : String := String.ofList (line.toList.dropWhile (· == ' '))

/-- Whether a line opens a block. -/
def Opens (line : String) : Prop := [' ', '\x7b'] <:+ line.toList

instance (line : String) : Decidable (Opens line) :=
  inferInstanceAs (Decidable ([' ', '\x7b'] <:+ line.toList))

/-- Reads a line inside some blocks. There has to be a block for a line that closes one. -/
def scanLine (blocks : List String) (line : String) : Option Line :=
  let text := unindented line
  if text = "\x7d" then
    if blocks = [] then none
    else some ⟨blocks.dropLast, indentation line, text, blocks.dropLast⟩
  else if Opens line then some ⟨blocks, indentation line, text, blocks ++ [text]⟩
  else some ⟨blocks, indentation line, text, blocks⟩

/-- Reads lines, and tells what is open after them. -/
def scan (blocks : List String) : List String → Option (List Line × List String)
  | [] => some ([], blocks)
  | line :: rest => do
    let first ← scanLine blocks line
    let (others, left) ← scan first.after rest
    return (first :: others, left)

theorem scan_append {blocks middle left : List String} {xs ys : List String} {s t : List Line}
    (hxs : scan blocks xs = some (s, middle)) (hys : scan middle ys = some (t, left)) :
    scan blocks (xs ++ ys) = some (s ++ t, left) := by
  induction xs generalizing blocks s with
  | nil =>
    obtain ⟨rfl, rfl⟩ : [] = s ∧ blocks = middle := by simpa [scan] using hxs
    exact hys
  | cons line rest ih =>
    obtain ⟨first, hfirst, hrest⟩ := Option.bind_eq_some_iff.1 hxs
    obtain ⟨⟨others, end_⟩, hothers, heq⟩ := Option.bind_eq_some_iff.1 hrest
    obtain ⟨rfl, rfl⟩ : first :: others = s ∧ end_ = middle := by simpa using heq
    simp [scan, hfirst, ih hothers]

/-! ## The kinds of lines -/

variable {blocks : List String} {text : String}

/-- A text that begins neither with a space nor with a closing brace. -/
def Solid (text : String) : Prop := ∃ c, text.toList.head? = some c ∧ c ≠ ' ' ∧ c ≠ '\x7d'

theorem Solid.append (h : Solid text) (more : String) : Solid (text ++ more) := by
  obtain ⟨c, hhead, hc⟩ := h
  exact ⟨c, by simp [hhead], hc⟩

theorem Solid.ne_brace (h : Solid text) : text ≠ "\x7d" := by
  rintro rfl
  obtain ⟨c, hhead, -, hc⟩ := h
  exact hc (Option.some.inj (hhead.symm.trans (by simp)))

theorem Solid.ne_empty (h : Solid text) : text ≠ "" := by
  rintro rfl
  obtain ⟨c, hhead, -⟩ := h
  simp at hhead

theorem toList_indent (depth : Nat) (text : String) :
    (NamespaceTree.indent depth ++ text).toList =
      List.replicate (4 * depth) ' ' ++ text.toList := by
  simp [NamespaceTree.indent]

theorem indentation_indent {depth : Nat} (h : ∀ c ∈ text.toList.head?, c ≠ ' ') :
    indentation (NamespaceTree.indent depth ++ text) = 4 * depth := by
  have htext : text.toList.takeWhile (· == ' ') = [] := by
    cases hcs : text.toList with
    | nil => rfl
    | cons c rest => simp [h c (by simp [hcs])]
  rw [indentation, toList_indent, List.takeWhile_append_of_pos (by simp), htext]
  simp

theorem unindented_indent {depth : Nat} (h : ∀ c ∈ text.toList.head?, c ≠ ' ') :
    unindented (NamespaceTree.indent depth ++ text) = text := by
  have htext : text.toList.dropWhile (· == ' ') = text.toList := by
    cases hcs : text.toList with
    | nil => rfl
    | cons c rest => simp [h c (by simp [hcs])]
  rw [unindented, toList_indent, List.dropWhile_append_of_pos (by simp), htext,
    String.ofList_toList]

theorem Solid.head (h : Solid text) : ∀ c ∈ text.toList.head?, c ≠ ' ' := by
  obtain ⟨c, hhead, hc, -⟩ := h
  simp [hhead, hc]

theorem Opens.append (h : Opens text) (front : String) : Opens (front ++ text) := by
  rw [Opens, String.toList_append]
  exact List.IsSuffix.trans h (List.suffix_append ..)

theorem getLast?_toList_append {front back : String} {c : Char}
    (h : back.toList.getLast? = some c) : (front ++ back).toList.getLast? = some c := by
  simp [h]

theorem not_opens_of_last {c : Char} (h : text.toList.getLast? = some c) (hc : c ≠ '\x7b') :
    ¬Opens text := by
  rintro ⟨cs, hcs⟩
  have hbrace : text.toList.getLast? = some '\x7b' := by simp [← hcs]
  exact hc (Option.some.inj (h.symm.trans hbrace))

theorem scanLine_open (depth : Nat) (solid : Solid text) (opens : Opens text) :
    scanLine blocks (NamespaceTree.indent depth ++ text) =
      some ⟨blocks, 4 * depth, text, blocks ++ [text]⟩ := by
  simp only [scanLine, unindented_indent solid.head, indentation_indent solid.head]
  rw [if_neg solid.ne_brace, if_pos (opens.append _)]

theorem scanLine_plain (depth : Nat) (solid : Solid text)
    (h : ¬Opens (NamespaceTree.indent depth ++ text)) :
    scanLine blocks (NamespaceTree.indent depth ++ text) =
      some ⟨blocks, 4 * depth, text, blocks⟩ := by
  simp only [scanLine, unindented_indent solid.head, indentation_indent solid.head]
  rw [if_neg solid.ne_brace, if_neg h]

theorem scanLine_close (depth : Nat) (block : String) :
    scanLine (blocks ++ [block]) (NamespaceTree.indent depth ++ "\x7d") =
      some ⟨blocks, 4 * depth, "\x7d", blocks⟩ := by
  have hhead : ∀ c ∈ "\x7d".toList.head?, c ≠ ' ' := by simp
  simp [scanLine, unindented_indent hhead, indentation_indent hhead]

theorem scanLine_blank : scanLine blocks "" = some ⟨blocks, 0, "", blocks⟩ := by
  have hopens : ¬Opens "" := by simp [Opens]
  simp [scanLine, unindented, indentation, hopens]

end LocalizedAccessors.Scan
