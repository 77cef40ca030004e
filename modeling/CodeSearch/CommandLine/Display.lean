import CodeSearch.Indexing.Report
import CodeSearch.Rerank.Candidate
import CodeSearch.Engine
/-!
# What is printed

The lines that tell of results, of indexing and of the sizes of the indexes.
-/

namespace CodeSearch.CommandLine

/-- A piece of the output: a text, or the seconds that the work has taken, which only a clock can tell. -/
inductive Output where
  | text (text : String)
  | elapsed
deriving DecidableEq, Repr

/-- A line of text. -/
def Output.line (text : String) : Output := .text (text ++ "\n")

/-- Outputs one after the other, with a text for the seconds. -/
def Output.render (elapsed : String) (outputs : List Output) : String :=
  String.join (outputs.map fun
    | .text piece => piece
    | .elapsed => elapsed)

/-- The rule above and below results. -/
def rule : String := String.ofList (List.replicate 70 '=')

/-- A number with two digits at least, or a blank in place of the first. -/
def twoWide (n : Nat) : String := if n < 10 then s!" {n}" else toString n

/-- A result of a rank. -/
def resultLines (rank : Nat) (c : RankedCandidate Float) : List String :=
  let score := Decimal.fixed 3 c.combinedScore
  [s!"{twoWide rank}. [{score}] {c.chunk.citation} ({c.chunk.kind.name}, {c.method.name})"]
    ++ ((Chunk.nonEmpty? c.chunk.qualifiedName).toList.map fun name => s!"    {name}")
    ++ [s!"    {c.preview}"]
    ++ (if c.reasoning = "" then [] else [s!"    reason: {c.reasoning}"])

/-- Results as one value in the data format. -/
def resultsJson (results : List (RankedCandidate Float)) : String :=
  Json.render { asciiOnly := true, indent := some 2 } (.arr (results.map fun c => .obj c.metadata))

/-- The lines for results. -/
def showResults (asJson : Bool) (results : List (RankedCandidate Float)) : List String :=
  if asJson then [resultsJson results]
  else if results.isEmpty then ["\n[i] No results."]
  else
    ["\n" ++ rule] ++ (results.zipIdx.flatMap fun (c, n) => resultLines (n + 1) c) ++ [rule]

/-- At most so many complaints are shown. -/
def shownComplaints : Nat := 10

/-- The output for a report. -/
def showReport (r : Indexing.Report) : List Output :=
  [.line s!"[+] Files scanned:  {r.filesScanned}",
    .line s!"    Chunks indexed: {r.indexed}/{r.received}",
    .line s!"    Skipped:        {r.skipped}",
    .line s!"    Lexical/vector: {r.lexicalCount}/{r.vectorCount}",
    .text "    Elapsed:        ", .elapsed, .line "s"]
    ++ ((r.complaints.take shownComplaints).map fun c => .line s!"    [!] {c.text}")
    ++ (if r.persisted then []
      else [.line "[X] Indices were updated in memory but could not be saved"])

/-- The lines for the sizes of the indexes. -/
def showStatus (e : Engine) : List String :=
  let counts := e.graph.relations.stats.map fun (name, n) => s!"{name}={n}"
  [s!"[*] Chunks:         {e.store.size}",
    s!"    Lexical index:  {e.lexical.count}",
    s!"    Vector index:   {e.vectors.size} (dimension={e.vectors.dimension.display})",
    "    Graph:          " ++ ", ".intercalate counts]

end CodeSearch.CommandLine
