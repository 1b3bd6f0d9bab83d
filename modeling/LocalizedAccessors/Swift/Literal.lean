/-!
# Swift string literals

A text between double quotes, in which quotes, backslashes, line breaks and tabs are escaped and
every other character stands for itself.
-/

namespace LocalizedAccessors.Swift

/-- A character as it is written inside a literal. -/
def escapedChar : Char → List Char
  | '\"' => ['\\', '\"']
  | '\\' => ['\\', '\\']
  | '\n' => ['\\', 'n']
  | '\r' => ['\\', 'r']
  | '\t' => ['\\', 't']
  | c => [c]

/-- What follows the opening quote of a literal, the closing quote included. -/
def literalBody (cs : List Char) : List Char := cs.flatMap escapedChar ++ ['\"']

def literal (text : String) : String := String.ofList ('\"' :: literalBody text.toList)

theorem toList_literal (text : String) : (literal text).toList = '\"' :: literalBody text.toList :=
  String.toList_ofList

/-- Line breaks and tabs are always escaped. -/
theorem notMem_escapedChar {c : Char} (h : c ∈ ['\n', '\r', '\t']) (d : Char) :
    c ∉ escapedChar d := by
  simp only [List.mem_cons, List.not_mem_nil, or_false] at h
  unfold escapedChar
  rcases h with rfl | rfl | rfl <;> split <;> simp_all [eq_comm]

theorem notMem_literal {c : Char} (h : c ∈ ['\n', '\r', '\t']) (text : String) :
    c ∉ (literal text).toList := by
  have hquote : c ≠ '\"' := by
    rintro rfl
    exact absurd h (by decide)
  simp [toList_literal, literalBody, notMem_escapedChar h, hquote]

end LocalizedAccessors.Swift
