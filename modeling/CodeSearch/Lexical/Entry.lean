import CodeSearch.Chunk.Unchecked
import CodeSearch.Token.Tokenizer
import CodeSearch.Scalar
/-!
# Entries of the lexical index

A chunk with the tokens of the three texts by which it can be searched, and what a search gives back.
-/

namespace CodeSearch.Lexical

/-- A chunk and its tokens. -/
structure Entry where
  chunk : Chunk
  /-- Tokens of the searchable text. -/
  tokens : List String
  nameTokens : List String
  pathTokens : List String

namespace Entry

def ofChunk (chunk : Chunk) : Entry where
  chunk := chunk
  tokens := Token.tokens chunk.searchableText
  nameTokens := Token.tokens (chunk.qualifiedName.getD "")
  pathTokens := Token.tokens chunk.filePath

/-- The entry of a chunk that is to be indexed, whose id and content must not be empty or blank. -/
def prepare (chunk : Chunk) : Except Fault Entry := do
  chunk.checkFilled
  chunk.checkTokens
  return ofChunk chunk

end Entry

/-- Which text of a chunk is searched. -/
inductive Field where
  | content
  | name
  | path
deriving DecidableEq, Repr

/-- The tokens of a field. -/
def Field.tokens : Field → Entry → List String
  | .content, e => e.tokens
  | .name, e => e.nameTokens
  | .path, e => e.pathTokens

/-- The text of a field that a pattern with wildcards is matched against. -/
def Field.text : Field → Entry → String
  | .content, e => e.chunk.content
  | .name, e => e.chunk.qualifiedName.getD ""
  | .path, e => e.chunk.filePath

/-- A chunk that a search has found, with its score. -/
structure Hit (α : Type) where
  chunk : Chunk
  score : α

/-- A hit that can be told: the fields of its chunk are of their kinds. -/
def Hit.checked {α : Type} (hit : Hit α) : Except Fault (Hit α) :=
  (Chunk.noIssues hit.chunk.hitIssues).map fun _ => hit

end CodeSearch.Lexical
