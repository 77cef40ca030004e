import CodeSearch.CommandLine.Run
import CodeSearch.Settings.Environment
/-!
# The program

The outer layer: it copies what a command may look at from the disk of the machine into a disk value,
runs the command on this, prints what the run has printed, and copies the changes of the data directory
back. The vector snapshot is kept on the machine as text in the data format.
-/

namespace CodeSearch.Program

/-- The width of the vectors. -/
def vectorWidth : Nat := 64

/-- The name of a path on the machine. -/
def nameOutside (path : Path) : String := Text.plain path.text

/-- What the file of the machine at a path holds. -/
def readContent (path : Path) : IO Content := do
  let bytes ← IO.FS.readBinFile (nameOutside path)
  match String.fromUTF8? bytes with
  | some text => return .text (Text.kept text)
  | none => return .binary .null

/-- The disk with what the machine has at a path, and below it. -/
partial def copyTree (path : Path) (d : Disk) : IO Disk := do
  let place := (← IO.currentDir) / nameOutside path
  if ← place.isDir then
    let mut d := d.putAt path .directory
    for entry in ← place.readDir do
      d ← copyTree (path.child (Text.kept entry.fileName)) d
    return d
  else if ← place.pathExists then return d.putAt path (.file (← readContent path))
  else return d

/-- The disk with what the machine has at a path, below it, and above it. -/
def copyIn (path : Path) (d : Disk) : IO Disk := do
  let mut d := d
  for step in Disk.ancestry path.parent do
    let place := (← IO.currentDir) / nameOutside step
    if ← place.isDir then d := d.putAt step .directory
    else if ← place.pathExists then d := d.putAt step (.file (← readContent step))
  copyTree path d

/-- The disk with the value of the snapshot in place of its text. -/
def snapshotIn (s : Settings) (d : Disk) : Disk :=
  match d.readText s.snapshotFile with
  | .ok text =>
    match Json.parse text with
    | .ok value => d.putAt s.snapshotFile (.file (.binary value))
    | .error _ => d
  | .error _ => d

/-- The text that a file of the machine gets. -/
def fileText : Content → String
  | .text text => Text.plain text
  | .binary value => Text.plain (Json.render {} value)

/-- Bring the machine from one disk to another below a directory. -/
def copyOut (directory : Path) (before after : Disk) : IO Unit := do
  for (path, node) in after.below directory do
    match node, before.node? path with
    | .directory, _ => IO.FS.createDirAll (nameOutside path)
    | .file content, old =>
      let unchanged := match old with
        | some (.file earlier) => fileText earlier = fileText content
        | _ => false
      if !unchanged then
        IO.FS.writeFile (nameOutside path.temporary) (fileText content)
        IO.FS.rename (nameOutside path.temporary) (nameOutside path)
  for (path, node) in before.below directory do
    match node, after.node? path with
    | .file _, none => IO.FS.removeFile (nameOutside path)
    | _, _ => pure ()

/-- The variables of the environment that settings are read from. -/
def readEnvironment (names : List String) : IO Environment := do
  names.filterMapM fun name => do
    return (← IO.getEnv name).map fun value => (name, Text.kept value)

/-- The path that a command looks at besides the data directory. -/
def lookedAt : CommandLine.Command → Option Path
  | .index directory => some (Path.parse directory)
  | .pattern sourceFile _ _ _ _ => some (Path.parse sourceFile)
  | _ => none

/-- Seconds with two places. -/
def secondsText (milliseconds : Nat) : String :=
  Decimal.fixed 2 (Float.ofNat milliseconds / 1000)

/-- Run arguments on the machine. The answer is the exit code. -/
def runOnMachine (s : Settings) (args : List String) : IO UInt32 := do
  let mut d ← copyIn s.dataDir .blank
  match CommandLine.Command.ofArguments args with
  | .ok command =>
    if let some path := lookedAt command then d ← copyIn path d
  | .error _ => pure ()
  let before := snapshotIn s d
  let started ← IO.monoMsNow
  let outside : CommandLine.Setting := {
    settings := s
    embedder := (Embedder.hashed vectorWidth).batched
    model := .error (.oracleUnavailable "No chat model can be reached" none)
    now := Float.ofNat started / 1000 }
  let (transcript, after) := CommandLine.runArguments outside args before
  copyOut s.dataDir before after
  let elapsed := secondsText ((← IO.monoMsNow) - started)
  IO.print (Text.plain (CommandLine.Output.render elapsed transcript.output))
  match transcript.exit with
  | .ok code => return code.toNat.toUInt32
  | .error fault =>
    IO.eprintln (Text.plain fault.message)
    return 1

end CodeSearch.Program

open CodeSearch Program in
/-- The entry point. -/
def main (args : List String) : IO UInt32 := do
  let root := Path.parse (Text.kept (← IO.currentDir).toString)
  match Settings.load root [] with
  | .error fault =>
    IO.eprintln (Text.plain fault.message)
    return 1
  | .ok usual =>
    match Settings.load root (← readEnvironment (usual.listing.map Prod.fst)) with
    | .ok s => runOnMachine s (args.map Text.kept)
    | .error fault =>
      IO.eprintln (Text.plain fault.message)
      return 1
