/-!
# The vocabulary of the code that is searched

Words with a meaning of their own in Java code bases: the reserved words of the language, names of
frameworks, and the keys under which routing facts are noted.
-/

namespace CodeSearch.Vocabulary

/-- The reserved words of Java, in alphabetical order. -/
def reservedWords : List String := [
  "abstract", "assert", "boolean", "break", "byte", "case", "catch", "char", "class", "const",
  "continue", "default", "do", "double", "else", "enum", "extends", "false", "final", "finally",
  "float", "for", "goto", "if", "implements", "import", "instanceof", "int", "interface", "long",
  "native", "new", "null", "package", "private", "protected", "public", "record", "return", "short",
  "static", "strictfp", "super", "switch", "synchronized", "this", "throw", "throws", "transient",
  "true", "try", "var", "void", "volatile", "while"]

/-- Names of frameworks that tell where a fragment comes from. -/
def frameworks : List String := ["struts", "spring", "hibernate", "jsp"]

/-- A key of a structural mapping that contains one of these leads to another part of the program. -/
def routingMarkers : List String :=
  ["action", "form", "jsp", "include", "forward", "path", "template"]

end CodeSearch.Vocabulary
