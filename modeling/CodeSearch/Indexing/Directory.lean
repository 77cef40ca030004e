import CodeSearch.Indexing.Batch
/-!
# Indexing directories

All files below a directory that are not excluded are read by the producers that take them. Files that
cannot be read are reported, and the chunks of all others are indexed in the order of the files,
whatever the order in which they were read.
-/

namespace CodeSearch.Indexing

/-- The files below a directory that are not excluded, in order. -/
def filesBelow (d : Disk) (root : Path) (patterns : Json) : Except Fault (List Path) :=
  ((d.below root).filterMap fun (path, node) =>
    match node with
    | .file _ => some path
    | .directory => none).filterM fun path => do return !(← isExcludedBy root patterns path)

/-- What came of reading a file, and the place of the file among the others. -/
structure Outcome where
  position : Nat
  path : Path
  result : Except Fault (List Chunk)

/-- A file that gives this fault is passed over. -/
def isPassedOver (fault : Fault) : Bool := fault.isStorage || fault.isSystem || fault.isBadValue

def Outcome.chunks (o : Outcome) : List Chunk :=
  match o.result with
  | .ok chunks => chunks
  | .error _ => []

/-- What there is to complain about; other faults are not for a report. -/
def Outcome.complaints (o : Outcome) : Except Fault (List Complaint) :=
  match o.result with
  | .ok _ => .ok []
  | .error fault => if isPassedOver fault then .ok [.unread o.path fault] else .error fault

/-- Gather outcomes in the order in which they came in: the chunks by the places of their files, the
complaints as they came. -/
def gather (outcomes : List Outcome) : Except Fault (List Chunk × List Complaint) := do
  let complaints ← outcomes.mapM Outcome.complaints
  let ordered := outcomes.mergeSort fun a b => a.position ≤ b.position
  return (ordered.flatMap Outcome.chunks, complaints.flatten)

/-- Read the files that a producer takes. -/
def readFiles (d : Disk) (producers : List Producer) (files : List Path) :
    Except Fault (List Outcome) := do
  let selected ← files.mapM (Producer.select producers)
  let jobs := (files.zip selected).filterMap fun (path, p) => p.map fun p => (path, p)
  return jobs.zipIdx.map fun ((path, producer), n) => ⟨n, path, producer.parse d path⟩

/-- What the files of a directory give. -/
structure Harvest where
  files : Nat
  chunks : List Chunk
  complaints : List Complaint

/-- A report on the chunks of a directory, with what there is to say of its files. -/
def Harvest.extend (h : Harvest) (r : Report) : Report :=
  { r with filesScanned := h.files, complaints := h.complaints ++ r.complaints }

end CodeSearch.Indexing

namespace CodeSearch.Indexer

open CodeSearch.Action CodeSearch.Indexing

/-- Read the files of a directory. -/
def readDirectory (ix : Indexer) (root : Path) (d : Disk) : Except Fault Harvest := do
  if !(← d.isDirectory root) then throw (.noDirectory root.text)
  let files ← filesBelow d root ix.excludePatterns
  let (chunks, complaints) ← gather (← readFiles d ix.producers files)
  return ⟨files.length, chunks, complaints⟩

/-- Index the files of a directory. -/
def indexDirectory (now : Float) (root : Path) : Action Indexer Report := do
  let harvest ← ofExcept ((← memory).readDirectory root (← disk))
  return harvest.extend (← indexChunks now harvest.chunks)

end CodeSearch.Indexer
