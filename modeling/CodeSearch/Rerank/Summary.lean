import CodeSearch.Chunk.Record
import CodeSearch.Rerank.Candidate
/-!
# Summaries of candidates

What a reranker is shown of a candidate, with the content cut to a length.
-/

namespace CodeSearch.Rerank

structure Summary (α : Type) where
  chunkId : String
  kind : ChunkKind
  qualifiedName : Option String
  filePath : String
  content : String
  similarity : α
  structuralMapping : List (String × String)
  imports : List String
  apiCalls : List String

namespace Summary

/-- A text that is longer than allowed is cut, and gets three dots. -/
def cut (maxChars : Int) (content : String) : String :=
  if maxChars < Text.size content then textUpTo maxChars content ++ "..." else content

/-- The summary of a candidate with a content of bounded length. -/
def ofCandidate {α : Type} (maxChars : Int) (c : RankedCandidate α) : Summary α where
  chunkId := c.chunk.id
  kind := c.chunk.kind?.getD c.chunk.kind
  qualifiedName := c.chunk.qualifiedName
  filePath := c.chunk.filePath
  content := cut maxChars c.chunk.content
  similarity := c.vectorSimilarity
  structuralMapping := c.chunk.structuralMapping
  imports := c.chunk.imports
  apiCalls := c.chunk.apiCalls

open Record

/-- Read a summary from its record. -/
def read (record : Json.Fields) : Checked (Summary Float) :=
  let textList := items .notList text
  Summary.mk
    <$> required "chunk_id" text record
    <*> required "kind" Chunk.readKind record
    <*> optional "qualified_name" none textOrNull record
    <*> optional "file_path" "" text record
    <*> required "content" text record
    <*> optional "vector_similarity" 0 double record
    <*> optional "structural_mapping" [] textMapping record
    <*> optional "imports" [] textList record
    <*> optional "api_calls" [] textList record

/-- The record of a summary, with all fields. -/
def record (s : Summary Float) : Json.Fields :=
  [("chunk_id", .str s.chunkId),
    ("kind", .str s.kind.name),
    ("qualified_name", Chunk.textOrNullJson s.qualifiedName),
    ("file_path", .str s.filePath),
    ("content", .str s.content),
    ("vector_similarity", .float s.similarity),
    ("structural_mapping", .obj (s.structuralMapping.map fun (name, value) => (name, .str value))),
    ("imports", Chunk.textsJson s.imports),
    ("api_calls", Chunk.textsJson s.apiCalls)]

end Summary

end CodeSearch.Rerank
