import CodeSearch.Chunk.Basic
import CodeSearch.Fault
import CodeSearch.Disk.Path
/-!
# Reports of indexing

What became of the chunks of a batch or of the files of a directory, and what there is to complain
about.
-/

namespace CodeSearch.Indexing

inductive Complaint where
  /-- A chunk has the id of another one with other content. -/
  | collision (chunk : Chunk)
  /-- A chunk is not taken, or an index cannot be stored. -/
  | failed (fault : Fault)
  /-- A file cannot be read. -/
  | unread (path : Path) (fault : Fault)

def Complaint.text : Complaint → String
  | .collision c =>
    let id := c.idValue.display
    s!"Chunk id collision: {id} ({c.citation})"
  | .failed fault => fault.message
  | .unread path fault => s!"{path.text}: {fault.message}"

structure Report where
  filesScanned : Nat := 0
  /-- The number of chunks that came in. -/
  received : Nat
  /-- The number of chunks that were written to the indexes. -/
  indexed : Nat
  complaints : List Complaint
  lexicalCount : Nat
  vectorCount : Nat
  /-- The indexes are on the disk as they are in memory. -/
  persisted : Bool

/-- The number of chunks that came in and were not written. -/
def Report.skipped (r : Report) : Int := r.received - r.indexed

/-- A report as a record. -/
def Report.record (r : Report) : Json.Fields :=
  [("files_scanned", .int r.filesScanned),
    ("chunks_received", .int r.received),
    ("chunks_indexed", .int r.indexed),
    ("chunks_skipped", .int r.skipped),
    ("errors", .arr (r.complaints.map fun c => .str c.text)),
    ("lexical_count", .int r.lexicalCount),
    ("vector_count", .int r.vectorCount),
    ("persisted", .bool r.persisted)]

end CodeSearch.Indexing
