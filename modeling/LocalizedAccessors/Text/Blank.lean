/-!
# Blank characters

The characters of the Unicode property `White_Space`, and trimming them off both ends of a text.
The class is a fixed list of twenty-five characters, so membership is decidable by inspection.
-/

namespace LocalizedAccessors.Text

/-- Every character with the property `White_Space`. -/
def blanks : List Char :=
  ['\t', '\n', '\x0b', '\x0c', '\r', ' ', '\u0085', '\u00a0', '\u1680', '\u2000', '\u2001',
    '\u2002', '\u2003', '\u2004', '\u2005', '\u2006', '\u2007', '\u2008', '\u2009', '\u200a',
    '\u2028', '\u2029', '\u202f', '\u205f', '\u3000']

def isBlank (c : Char) : Bool := blanks.contains c

/-- Characters without the blanks at their two ends. -/
def trim (cs : List Char) : List Char :=
  ((cs.dropWhile isBlank).reverse.dropWhile isBlank).reverse

/-- A text without the blanks around it and with its ASCII letters in lower case, the form in
which names of choices are compared. -/
def folded (text : String) : String := String.ofList ((trim text.toList).map Char.toLower)

end LocalizedAccessors.Text
