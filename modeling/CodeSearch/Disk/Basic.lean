import CodeSearch.Disk.Path
import CodeSearch.Keyed
import CodeSearch.Fault
import CodeSearch.Text.Half
import CodeSearch.Json.Written
/-!
# The disk

The disk is a value: a keyed list of files and directories by path. An effect makes a directory,
writes a file, moves a file over another or removes one, each at once. What becomes of an effect is
data too: the disk carries the fates of the effects to come, and when these are used up every effect
that the files allow is done.

`Action σ` is work on a state in memory and on the disk. It may fail, and what it has done to either
by then stays done.
-/

namespace CodeSearch

/-- What a file holds: text, or a value in a form that is no text. -/
inductive Content where
  | text (text : String)
  | binary (value : Json)

inductive Node where
  | file (content : Content)
  | directory

/-- What becomes of an effect. -/
inductive Fate where
  | done
  /-- The disk refuses, and nothing is changed. -/
  | refused
  /-- The power goes off before the effect. -/
  | cut
deriving DecidableEq, Repr

structure Disk where
  nodes : Keyed Path Node
  /-- The fates of the effects to come. -/
  fates : List Fate := []

namespace Disk

/-- A disk without files. -/
def blank : Disk := ⟨.empty, []⟩

/-! ## Places

A path names a place by steps, and each step needs a directory to start from. A place is a path without
double dots. -/

/-- What stands at a place. -/
def nodeAt? (d : Disk) (place : Path) : Option Node :=
  if place.parts.isEmpty then some .directory else d.nodes.get? place

/-- The longest name, in bytes. -/
def nameLimit : Nat := 255

/-- The longest path, in bytes. -/
def pathLimit : Nat := 4095

/-- The place one step further on; a double dot leads back. -/
def stepFrom (d : Disk) (place : Path) (part : String) : Except DiskReason Path :=
  match d.nodeAt? place with
  | none => .error .noSuchFile
  | some (.file _) => .error .notADirectory
  | some .directory =>
    if part = ".." then .ok place.parent
    else if Text.byteCount part > nameLimit then .error .nameTooLong
    else .ok ⟨place.anchor, place.parts ++ [Text.throughBytes part]⟩

/-- The disk takes a path at all. -/
def checkPath (path : Path) : Except Fault Unit :=
  if !path.hasBytes then .error (.badValue (.noBytes path.text))
  else if path.hasNul then .error (.badValue .nulInPath)
  else if Text.byteCount path.text > pathLimit then .error (.disk .nameTooLong path.text)
  else .ok ()

/-- The place that a path names. Something need not stand there. -/
def locate (d : Disk) (path : Path) : Except Fault Path := do
  checkPath path
  (path.parts.foldlM d.stepFrom ⟨path.anchor, []⟩).mapError fun reason => .disk reason path.text

/-- What stands at the place of a path. A path that leads nowhere has nothing, but names that are too long
are a fault. -/
def findNode (d : Disk) (path : Path) : Except Fault (Option Node) :=
  match d.locate path with
  | .ok place => .ok (d.nodeAt? place)
  | .error (.disk .nameTooLong text) => .error (.disk .nameTooLong text)
  | .error _ => .ok none

/-- What stands at the place of a path, if anything does. -/
def node? (d : Disk) (path : Path) : Option Node := (d.findNode path).toOption.join

def holds (d : Disk) (path : Path) : Except Fault Bool := (d.findNode path).map Option.isSome

def isDirectory (d : Disk) (path : Path) : Except Fault Bool :=
  (d.findNode path).map fun
    | some .directory => true
    | _ => false

def putAt (d : Disk) (place : Path) (node : Node) : Disk := { d with nodes := d.nodes.put place node }

def eraseAt (d : Disk) (place : Path) : Disk := { d with nodes := d.nodes.erase place }

/-- What a file holds. -/
def read (d : Disk) (path : Path) : Except Fault Content := do
  match d.nodeAt? (← d.locate path) with
  | some (.file content) => return content
  | some .directory => throw (.disk .isADirectory path.text)
  | none => throw (.disk .noSuchFile path.text)

/-- A text with the line ends of all systems written as line feeds. -/
def lineFeeds : List Char → List Char
  | [] => []
  | '\r' :: '\n' :: rest => '\n' :: lineFeeds rest
  | '\r' :: rest => '\n' :: lineFeeds rest
  | c :: rest => c :: lineFeeds rest

/-- The text of a file. -/
def readText (d : Disk) (path : Path) : Except Fault String := do
  match ← d.read path with
  | .text text => .ok (String.ofList (lineFeeds text.toList))
  | .binary _ => .error (.badValue .undecodable)

/-- The value that a file holds in the data format. -/
def readJson (d : Disk) (path : Path) : Except Fault Json := do
  (Json.parse (← d.readText path)).mapError .badJson

/-- The places below a place, in order, with what stands there. -/
def under (d : Disk) (place : Path) : List (Path × Node) :=
  (d.nodes.items.filter fun item =>
    match place.relativeTo? item.1 with
    | some (_ :: _) => true
    | _ => false).mergeSort fun a b => a.1.precedes b.1

/-- All paths below a directory, in order, with what stands there. -/
def below (d : Disk) (directory : Path) : List (Path × Node) :=
  match d.locate directory with
  | .error _ => []
  | .ok place =>
    (d.under place).map fun (path, node) =>
      (⟨directory.anchor, directory.parts ++ path.parts.drop place.parts.length⟩, node)

/-- Take out a path, if it leads anywhere, and everything below it. -/
def eraseTree (path : Path) (d : Disk) : Except Fault Disk := do
  checkPath path
  match d.locate path with
  | .error _ => return d
  | .ok place =>
    return { d with nodes := d.nodes.filter fun item => (place.relativeTo? item.1).isNone }

/-! ## Effects -/

/-- The paths from the anchor down to a path. -/
def ancestry (path : Path) : List Path :=
  (List.range path.parts.length).map fun n => ⟨path.anchor, path.parts.take (n + 1)⟩

/-- Make the directory `step`, unless it is there, on the way to the directory at a path. -/
def makeStep (path step : Path) (d : Disk) : Except Fault Disk := do
  checkPath path
  let place ← d.locate step
  match d.nodeAt? place with
  | some .directory => return d
  | some (.file _) => throw (.disk (if step = path then .fileExists else .notADirectory) path.text)
  | none => return d.putAt place .directory

/-- Make a directory, and those it lies in, unless they are there. -/
def makeDirectory (path : Path) (d : Disk) : Except Fault Disk :=
  (ancestry path).foldlM (fun d step => makeStep path step d) d

/-- The content can be that of a file. -/
def checkContent : Content → Except Fault Unit
  | .text text => if Text.isWhole text then .ok () else .error (.badValue (.unencodable text))
  | .binary _ => .ok ()

/-- What there is of a content that is written as a whole: of a text that holds a half, nothing. -/
def wholeOrNothing : Content → Content
  | .text text => .text (if Text.isWhole text then text else "")
  | .binary value => .binary value

/-- What can be written of a content: a text ends before the first piece that holds a half. -/
def writable : Content → Content
  | .text text => .text (Json.writtenPart text)
  | .binary value => .binary value

/-- Write a file, new or over an old one. -/
def writeFile (path : Path) (content : Content) (d : Disk) : Except Fault Disk := do
  let place ← d.locate path
  match d.nodeAt? place with
  | some .directory => throw (.disk .isADirectory path.text)
  | _ => return d.putAt place (.file content)

/-- Move a file to a path, over a file that is there. -/
def moveFile (source target : Path) (d : Disk) : Except Fault Disk := do
  let old ← d.locate source
  let new ← d.locate target
  match d.nodeAt? old, d.nodeAt? new with
  | some (.file _), some .directory => throw (.disk .isADirectory target.text)
  | some (.file content), _ => return (d.eraseAt old).putAt new (.file content)
  | _, _ => throw (.disk .noSuchFile source.text)

/-- Remove a file, if it is there. -/
def removeFile (path : Path) (d : Disk) : Except Fault Disk :=
  match d.locate path with
  | .error (.disk .noSuchFile _) => .ok d
  | .error fault => .error fault
  | .ok place =>
    match d.nodeAt? place with
    | some .directory => .error (.disk .isADirectory path.text)
    | some (.file _) => .ok (d.eraseAt place)
    | none => .ok d

end Disk

/-- Work on a state in memory and on the disk that may fail. -/
abbrev Action (σ α : Type) := ExceptT Fault (StateM (σ × Disk)) α

namespace Action

variable {σ τ α : Type}

/-- The state in memory. -/
def memory : Action σ σ := do return (← get).1

def setMemory (s : σ) : Action σ Unit := modify fun (_, d) => (s, d)

def modifyMemory (f : σ → σ) : Action σ Unit := modify fun (s, d) => (f s, d)

def disk : Action σ Disk := do return (← get).2

def setDisk (d : Disk) : Action σ Unit := modify fun (s, _) => (s, d)

/-- One effect on the disk, unless its fate is another. -/
def effect (path : Path) (apply : Disk → Except Fault Disk) : Action σ Unit := do
  let d ← disk
  match d.fates with
  | [] => setDisk (← ofExcept (apply d))
  | fate :: fates =>
    let d := { d with fates }
    setDisk d
    match fate with
    | .done => setDisk (← ofExcept (apply d))
    | .refused => throw (.disk .refused path.text)
    | .cut => throw .powerLoss

/-- Make a directory, and those it lies in, the outermost first. -/
def makeDirectory (path : Path) : Action σ Unit :=
  (Disk.ancestry path).forM fun step => effect step (Disk.makeStep path step)

/-- Write a file as a whole, with the directories that it lies in. Content that cannot be written leaves the file
empty. -/
def plant (path : Path) (content : Content) : Action σ Unit := do
  makeDirectory path.parent
  effect path (Disk.writeFile path (Disk.wholeOrNothing content))
  ofExcept (Disk.checkContent content)

/-- Bring new content to a path at once: it is written beside, and then moved into its place. Content that
cannot be written to its end stays beside. Nothing can be beside a path without a name. -/
def replaceFile (path : Path) (content : Content) : Action σ Unit := do
  if path.name = "" then throw (.badValue .other)
  makeDirectory path.parent
  effect path.temporary (Disk.writeFile path.temporary (Disk.writable content))
  ofExcept (Disk.checkContent content)
  effect path (Disk.moveFile path.temporary path)

/-- Give the faults of the disk the name of the task that they keep from being done. -/
def forTask (task : StorageTask) (path : Path) (work : Action σ α) : Action σ α :=
  tryCatch work fun fault =>
    match fault with
    | .disk _ _ => throw (.storage task path.text fault)
    | other => throw other

/-- Store content at a path, as a part of a task. -/
def store (task : StorageTask) (path : Path) (content : Content) : Action σ Unit :=
  forTask task path (replaceFile path content)

/-- Remove a file; that it cannot be removed does no harm. -/
def discard (path : Path) : Action σ Unit :=
  tryCatch (effect path (Disk.removeFile path)) fun fault =>
    match fault with
    | .disk _ _ => pure ()
    | other => throw other

/-- The outcome of work on a state and a disk, and what it leaves of both. -/
def runOn (work : Action σ α) (s : σ) (d : Disk) : Except Fault α × σ × Disk :=
  (work.run.run (s, d) : Except Fault α × (σ × Disk))

/-- Work on a part of a state. -/
def onPart (part : σ → τ) (replace : σ → τ → σ) (work : Action τ α) : Action σ α := do
  let (s, d) ← get
  let (answer, t, d) := work.runOn (part s) d
  set (replace s t, d)
  ofExcept answer

end Action

/-- The value of a file in the data format, read as a part of a task. Faults of the disk and texts
that do not read are faults of the task. -/
def Disk.readStored (d : Disk) (task : StorageTask) (path : Path) : Except Fault Json :=
  (d.readJson path).mapError fun fault =>
    match fault with
    | .disk _ _ => .storage task path.text fault
    | other => if other.isJsonSyntax then .storage task path.text other else other

end CodeSearch
