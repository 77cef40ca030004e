import CodeSearch.Chunk.Record
import CodeSearch.Query.Basic
import CodeSearch.Text.Pieces
import CodeSearch.Token.Tokenizer
import CodeSearch.Vocabulary
/-!
# Hints

What a query or a fragment of code tells about the structure around the code that is wanted. A query
gives hints by its tokens, a fragment by the names in it.
-/

namespace CodeSearch

/-- Hints of a query by what they are compared with. -/
structure QueryHints where
  package : List String := []
  api : List String := []
  imports : List String := []
  mapping : List String := []
deriving DecidableEq, Repr

namespace QueryHints

def isEmpty (h : QueryHints) : Bool :=
  h.package.isEmpty && h.api.isEmpty && h.imports.isEmpty && h.mapping.isEmpty

/-- The hints of either. -/
def merge (a b : QueryHints) : QueryHints where
  package := firsts (a.package ++ b.package)
  api := firsts (a.api ++ b.api)
  imports := firsts (a.imports ++ b.imports)
  mapping := firsts (a.mapping ++ b.mapping)

/-- What each word of a query hints at. -/
def rules : List (String × QueryHints) := [
  ("service", { api := ["service"], package := ["service"] }),
  ("dao", { api := ["dao"], package := ["dao"] }),
  ("repository", { api := ["repository"], package := ["repository"] }),
  ("controller", { api := ["controller"], package := ["controller"] }),
  ("action", { api := ["action"], mapping := ["action"] }),
  ("util", { package := ["util"] }),
  ("web", { package := ["web"] }),
  ("login", { mapping := ["login"] }),
  ("user", { mapping := ["user"] }),
  ("form", { mapping := ["form"] }),
  ("jsp", { mapping := ["jsp"] }),
  ("struts", { imports := ["struts"] }),
  ("spring", { imports := ["springframework"] }),
  ("hibernate", { imports := ["hibernate"] }),
  ("jdbc", { imports := ["sql"] }),
  ("servlet", { imports := ["servlet"] })]

/-- Hints as a record, each list in order. -/
def record (h : QueryHints) : Json.Fields :=
  let listing (hints : List String) : Json := Chunk.textsJson (hints.mergeSort Text.atMost)
  [("package_hints", listing h.package),
    ("api_hints", listing h.api),
    ("import_hints", listing h.imports),
    ("mapping_hints", listing h.mapping)]

/-- The hints of the words that are tokens of a query. -/
def ofQuery (query : String) : QueryHints :=
  let tokens := Token.tokens query
  (rules.filter fun rule => tokens.contains rule.1).foldl (fun h rule => h.merge rule.2) {}

end QueryHints

/-- Hints of a fragment of code. -/
structure PatternHints where
  preferredKind : Option ChunkKind := none
  /-- Names that are called. -/
  apiPatterns : List String := []
  /-- Names that begin with a capital. -/
  signatures : List String := []
  frameworks : List String := []
deriving DecidableEq, Repr

namespace PatternHints

/-- The names that are called: words that an opening bracket follows, with or without blanks between. -/
def calledNames (text : List Char) : List (List Char) :=
  ((Text.pieces '(' text).dropLast.map fun before =>
    Text.ending Text.isWordChar (before.reverse.dropWhile Text.isBlank).reverse).filter (!·.isEmpty)

/-- A name of letters and digits that begins with a capital. -/
def isCapitalized : List Char → Bool
  | [] => false
  | c :: rest =>
    Text.isAsciiUpper c && rest.all fun d => Text.isAsciiLetter d || Text.isAsciiDigit d

/-- The words of a text that are capitalized names. -/
def capitalizedNames (text : List Char) : List (List Char) :=
  (Text.runsOf Text.isWordChar text).filter isCapitalized

/-- Names of three characters or more, each once. -/
def notShort (names : List (List Char)) : List String :=
  (firsts (names.map String.ofList)).filter fun name => 2 < name.length

/-- The hints of a fragment. -/
def ofSource (source : String) (preferredKind : Option ChunkKind) : PatternHints where
  preferredKind := preferredKind
  apiPatterns := (notShort (calledNames source.toList)).filter fun name =>
    !Vocabulary.reservedWords.contains name
  signatures := notShort (capitalizedNames source.toList)
  frameworks :=
    let lowered := (Text.lower source).toList
    Vocabulary.frameworks.filter fun name => containsRun name.toList lowered

/-- Hints as a record. -/
def record (h : PatternHints) : Json.Fields :=
  [("preferred_kind", Chunk.textOrNullJson (h.preferredKind.map ChunkKind.name)),
    ("api_patterns", Chunk.textsJson h.apiPatterns),
    ("signature_hints", Chunk.textsJson h.signatures),
    ("framework_hints", Chunk.textsJson h.frameworks)]

end PatternHints

end CodeSearch
