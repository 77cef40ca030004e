import CodeSearch.Chunk.Record
import CodeSearch.Disk.Basic
import CodeSearch.Json.Number
/-!
# Chunk files

Files that hold the chunks of a code base: a list of chunk records, or an object with such a list.
Records that are no chunks are passed over, and chunks without an id get one from their place and
content.
-/

namespace CodeSearch.Indexing

/-- The ending of the names of chunk files. -/
def chunkFileSuffix : String := ".chunks.json"

/-- The id that a record without one gets. -/
def recordId (record : Json.Fields) : Except Fault String :=
  let field (name : String) (default : Json) : Json := (record.get? name).getD default
  Chunk.idFor (field "file_path" (.str "")) (field "content" .null) (field "qualified_name" .null)
    (field "start_line" (.int 0))

/-- A record, with an id if it has content. -/
def withId (record : Json.Fields) : Except Fault Json.Fields := do
  let has (name : String) : Bool := ((record.get? name).getD .null).isTruthy
  if !has "id" && has "content" then return record.set "id" (.str (← recordId record))
  else return record

/-- The chunk of a record in a chunk file, if it is one. -/
def chunkOf? : Json → Except Fault (Option Chunk)
  | .obj record => do
    match Chunk.ofRecord (← withId record) with
    | .ok chunk => return some chunk
    | .error (.invalidChunk _ _) => return none
    | .error fault => throw fault
  | _ => .ok none

/-- The records of a chunk file. -/
def recordsOf : Json → Except Fault (List Json)
  | .obj fields => ((Json.Fields.get? fields "chunks").getD (.arr [])).elements
  | value => value.elements

/-- The chunks of a chunk file. -/
def readChunkFile (d : Disk) (path : Path) : Except Fault (List Chunk) := do
  let value ← d.readStored .readChunkFile path
  return (← (← recordsOf value).mapM chunkOf?).filterMap id

/-- A way to get the chunks of some files, told by their names. Of several that take a file, the one of
the highest priority is used. Suffix and priority are values of any kind. -/
structure Producer where
  name : String
  priority : Json
  suffix : Json
  parse : Disk → Path → Except Fault (List Chunk)

namespace Producer

/-- The producer of chunk files. -/
def chunkFiles : Producer := ⟨"chunk files", .int 10, .str chunkFileSuffix, readChunkFile⟩

/-- The producer takes a file. -/
def takes (p : Producer) (path : Path) : Except Fault Bool := do
  return Text.endsWith path.name (← p.suffix.toText)

mutual

/-- One priority is higher than another: a larger number, a text further on in order, or a list that is
higher at the first place where the two differ. -/
def isHigher : Json → Json → Except Fault Bool
  | .str s, .str t => .ok (!Text.atMost s t)
  | .arr xs, .arr ys => isHigherList xs ys
  | a, b => b.isLess a

/-- A list is higher than another one, which it may also be by going on after it. -/
def isHigherList : List Json → List Json → Except Fault Bool
  | x :: xs, y :: ys => if x.same y then isHigherList xs ys else isHigher x y
  | xs, ys => .ok (ys.length < xs.length)

end

/-- The first of some producers that none of the others has a higher priority than. -/
def highest (best : Producer) : List Producer → Except Fault Producer
  | [] => .ok best
  | p :: rest => do if ← isHigher p.priority best.priority then highest p rest else highest best rest

/-- The first of the producers of the highest priority that take a file. -/
def select (producers : List Producer) (path : Path) : Except Fault (Option Producer) := do
  match ← producers.filterM (·.takes path) with
  | [] => return none
  | p :: rest => return some (← highest p rest)

end Producer

end CodeSearch.Indexing
