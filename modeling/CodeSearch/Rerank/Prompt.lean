import CodeSearch.Decimal.Shortest
import CodeSearch.Rerank.Fusion
/-!
# Prompts

The text by which a chat model is asked for opinions: what is wanted, and a numbered block for each
candidate.
-/

namespace CodeSearch.Rerank.Prompt

/-- What the model is told about its task. -/
def system : String :=
"You are a code search relevance judge for a large enterprise codebase.

You receive a search request and a numbered list of candidate code chunks.
Score how relevant each candidate is to the request:
- 10: exactly what was asked for
- 7-9: directly relevant, implements or closely supports the request
- 4-6: related code in the same area
- 1-3: weakly related
- 0: unrelated

Rules:
- Use the chunk_id values exactly as given.
- You may omit candidates you cannot judge.
- Keep each reasoning to one short sentence.

Respond with JSON only, in this exact shape:
\x7b\"rankings\": [\x7b\"chunk_id\": \"<id>\", \"score\": <0-10>, \"reasoning\": \"<why>\"\x7d]\x7d
"

/-- A line, unless there is nothing to say in it. -/
def lineOf (label : String) (texts : List String) : List String :=
  if texts.isEmpty then [] else [s!"- {label}: " ++ ", ".intercalate texts]

/-- The block of a candidate. -/
def block (number : Nat) (s : Summary Float) : String :=
  let name := (Chunk.nonEmpty? s.qualifiedName).getD "(unnamed)"
  let similarity := Decimal.fixed 3 s.similarity
  "\n".intercalate (
    [s!"## {number}. chunk_id: {s.chunkId}",
      s!"- kind: {s.kind.name}",
      s!"- name: {name}",
      s!"- file: {s.filePath}",
      s!"- vector similarity: {similarity}"]
    ++ lineOf "mapping" (s.structuralMapping.map fun (key, value) => s!"{key}={value}")
    ++ lineOf "imports" s.imports
    ++ lineOf "calls" s.apiCalls
    ++ ["```", s.content, "```"])

/-- The blocks of all candidates, numbered from one. -/
def blocks (shown : List (Summary Float)) : String :=
  "\n\n".intercalate (shown.zipIdx.map fun (s, n) => block (n + 1) s)

/-- The prompt for a query. -/
def forQuery (query : String) (shown : List (Summary Float)) : String :=
  let candidates := blocks shown
  s!"# Query\n{query}\n\n# Candidates\n{candidates}\n"

/-- The prompt for a fragment of code. The hint and the kind, which is any name here, have a line each
if they are given. -/
def forPattern (source : String) (hint kind : Option String) (shown : List (Summary Float)) : String :=
  let hintLine := ((Chunk.nonEmpty? hint).map fun hint => s!"Hint: {hint}\n").getD ""
  let kindLine := ((Chunk.nonEmpty? kind).map fun kind => s!"Preferred kind: {kind}\n").getD ""
  let candidates := blocks shown
  "# Task\nFind the code in this codebase that is equivalent to the source fragment below\n" ++
    "(same responsibility, possibly different names or framework).\n" ++
    s!"{hintLine}{kindLine}\n# Source fragment\n```\n{source}\n```\n\n# Candidates\n{candidates}\n"

/-- The prompt for a request. -/
def forRequest (request : Request) (shown : List (Summary Float)) : String :=
  match request with
  | .query text => forQuery text shown
  | .pattern source hint kind => forPattern source hint (kind.map ChunkKind.name) shown

end CodeSearch.Rerank.Prompt
