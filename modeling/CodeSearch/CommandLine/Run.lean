import CodeSearch.CommandLine.Command
import CodeSearch.CommandLine.Display
/-!
# Running commands

A run opens the engine, carries a command out, tells of the faults that are the user's or the system's,
and stores what is not on the disk yet. The outcome is the exit code, or a fault that nothing has
caught: one of opening, of closing, or of the program itself.
-/

namespace CodeSearch.CommandLine

/-- What a run works with from outside. -/
structure Setting where
  settings : Settings
  embedder : Embedder Float
  /-- The chat model, or why there is none. -/
  model : Except Fault Chat.Model
  /-- The time that goes with new vectors. -/
  now : Float

/-- What can be seen of a run. -/
structure Transcript where
  output : List Output
  exit : Except Fault Int

/-- The engine, and what has been printed, the latest last. -/
structure Session where
  engine : Engine
  printed : List Output := []

/-- The exit codes of a run. -/
def exitSuccess : Int := 0

def exitFailure : Int := 1

def exitMisuse : Int := 2

namespace Session

open CodeSearch.Action

def engineDo {α : Type} (work : Action Engine α) : Action Session α :=
  onPart Session.engine (fun s engine => { s with engine }) work

def print (outputs : List Output) : Action Session Unit :=
  modifyMemory fun s => { s with printed := s.printed ++ outputs }

def printLines (lines : List String) : Action Session Unit := print (lines.map .line)

/-- Print what a search has found. -/
def printOutcome (asJson : Bool) (outcome : Retrieval.Outcome Float) : Action Session Int := do
  printLines (showResults asJson (← ofExcept outcome.results))
  return exitSuccess

/-- Carry a command out. The answer is the exit code. -/
def execute (now : Float) : Command → Action Session Int
  | .index directory => do
    printLines [s!"[*] Indexing {directory}..."]
    let report ← engineDo (onPart Engine.indexer Engine.withIndexer
      (Indexer.indexDirectory now (Path.parse directory)))
    print (showReport report)
    return if report.persisted then exitSuccess else exitFailure
  | .search query maxResults asJson => do
    printOutcome asJson ((← memory).engine.retriever.find query (maxResults.map .whole))
  | .pattern sourceFile hint kind maxResults asJson => do
    let source ← ofExcept ((← disk).readText (Path.parse sourceFile))
    let kind ← ofExcept ((Chunk.nonEmpty? kind).mapM fun text => Chunk.kindOf (.str text))
    printOutcome asJson ((← memory).engine.retriever.findPattern source hint kind
      (maxResults.map .whole))
  | .status => do
    printLines (showStatus (← memory).engine)
    return exitSuccess

/-- Tell of a fault, if it is one to tell of. -/
def tell (fault : Fault) : Action Session Int :=
  match fault with
  | .badQuery e => do
    printLines ["\n[X] Invalid query: " ++ e.message]
    return exitMisuse
  | .dimensionMismatch _ _ => do
    printLines ["\n[X] Embedding model does not match the index: " ++ fault.message]
    return exitMisuse
  | fault =>
    if fault.isRetrieval || fault.isSystem || fault.isBadValue then do
      printLines ["\n[X] Error: " ++ fault.message]
      return exitFailure
    else throw fault

/-- Do work, and close the engine whatever comes of it. After a power loss there is nothing to close,
and a fault of closing hides the one before it. -/
def closing (work : Action Session Int) : Action Session Int := do
  let exit : Except Fault Int ← tryCatch (do return .ok (← work)) fun fault => return .error fault
  match exit with
  | .error .powerLoss => throw .powerLoss
  | exit =>
    engineDo Engine.close
    ofExcept exit

end Session

/-- Run a command on a disk. -/
def run (outside : Setting) (command : Command) (d : Disk) : Transcript × Disk :=
  match Engine.makeDirectories outside.settings d with
  | .error fault => (⟨[], .error fault⟩, d)
  | .ok d =>
    match Engine.openAt outside.settings outside.embedder outside.model d with
    | .error fault => (⟨[], .error fault⟩, d)
    | .ok engine =>
      let work := tryCatch (Session.execute outside.now command) Session.tell
      let (exit, s, d) := (Session.closing work).runOn ⟨engine, []⟩ d
      (⟨s.printed, exit⟩, d)

/-- What arguments lead to: a request for help succeeds, and arguments that do not fit are misuse. -/
def runArguments (outside : Setting) (args : List String) (d : Disk) : Transcript × Disk :=
  match Command.ofArguments args with
  | .ok command => run outside command d
  | .error .help => (⟨[], .ok exitSuccess⟩, d)
  | .error .misuse => (⟨[], .ok exitMisuse⟩, d)

end CodeSearch.CommandLine
