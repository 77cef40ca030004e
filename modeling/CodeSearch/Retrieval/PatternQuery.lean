import CodeSearch.Query.Basic
import CodeSearch.Scalar
import CodeSearch.Text.WordChar
import CodeSearch.Text.Blank
import CodeSearch.Text.Lowercase
import CodeSearch.Vocabulary
import CodeSearch.Chunk.Basic
/-!
# Queries from code

The query that looks for the equivalent of a fragment of code: the identifiers of the fragment that tell
something, and those of a hint.
-/

namespace CodeSearch.Retrieval

/-- A name that begins with a letter and goes on with letters, digits and underscores. -/
def isIdentifier : List Char → Bool
  | [] => false
  | c :: rest => Text.isAsciiLetter c && rest.all Text.isIdentifierChar

/-- The words of a text that are identifiers. -/
def identifiers (text : String) : List String :=
  ((Text.runsOf Text.isWordChar text.toList).filter isIdentifier).map String.ofList

/-- Three characters or more, and no reserved word in any case. -/
def isTelling (name : String) : Bool :=
  3 ≤ name.length && !Vocabulary.reservedWords.contains (Text.lower name)

/-- The telling identifiers of a fragment, each once, up to a number. -/
def tellingIdentifiers (source : String) (maxIdentifiers : Int) : List String :=
  upTo maxIdentifiers ((firsts (identifiers source)).filter isTelling)

/-- The query for a fragment and a hint. -/
def patternQuery (source : String) (hint : Option String) (maxIdentifiers : Int) : String :=
  let hinted := match Chunk.nonEmpty? hint with
    | some hint => identifiers hint
    | none => []
  " ".intercalate (tellingIdentifiers source maxIdentifiers ++ hinted)

end CodeSearch.Retrieval
