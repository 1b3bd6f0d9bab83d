/-!
# Swift names

Names that Swift reserves can still be declared when they are written between backticks. Most
reserved words are free to serve as argument labels; only three are not.
-/

namespace LocalizedAccessors.Swift

/-- The words that cannot stand as bare names. -/
def keywords : List String :=
  ["associatedtype", "class", "deinit", "enum", "extension", "fileprivate", "func", "import",
    "init", "inout", "internal", "let", "open", "operator", "private", "protocol", "public",
    "static", "struct", "subscript", "typealias", "var", "break", "case", "continue", "default",
    "defer", "do", "else", "fallthrough", "for", "guard", "if", "in", "repeat", "return", "switch",
    "where", "while", "as", "Any", "catch", "false", "is", "nil", "rethrows", "super", "self",
    "Self", "throw", "throws", "true", "try", "associativity", "convenience", "dynamic", "didSet",
    "final", "get", "infix", "indirect", "lazy", "left", "mutating", "none", "nonmutating",
    "optional", "override", "postfix", "precedence", "prefix", "Protocol", "required", "right",
    "set", "Type", "unowned", "weak", "willSet"]

/-- The words that cannot stand as bare argument labels. -/
def reservedLabels : List String := ["inout", "var", "let"]

def quotedIn (reserved : List String) (name : String) : String :=
  if reserved.contains name then "`" ++ name ++ "`" else name

/-- A name as it is declared. -/
def escapedName (name : String) : String := quotedIn keywords name

/-- An argument label as it is declared. -/
def escapedLabel (label : String) : String := quotedIn reservedLabels label

end LocalizedAccessors.Swift
