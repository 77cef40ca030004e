import CodeSearch.Proofs.Faults
import CodeSearch.Proofs.Lexical.Outcome
/-!
# The faults of a commit

If the power stays on, and all that is to be written has a form in a file, a commit fails by a fault of the storage or
not at all, and leaves the entries as they are (`runOn_commit_writable`). So does an insertion, when the entries are in
(`runOn_insert_writable`).
-/

namespace CodeSearch.Lexical

/-- A change that can be written to a file and read from it. -/
def Change.IsClear (change : Change) : Prop := change.IsStorable ∧ change.json.isWhole = true

theorem Change.IsClear.hasForm {change : Change} (clear : change.IsClear) : change.json.HasForm :=
  ⟨(isData_change clear.1).textsKept, clear.2⟩

theorem checkContent_segment {changes : List Change} (forms : ∀ change ∈ changes, change.json.HasForm) :
    Disk.checkContent (segmentContent changes) = .ok () := by
  refine Disk.checkContent_render (Json.hasForm_obj.2 (List.forall_mem_singleton.2 ⟨?_, ?_⟩))
  · exact (.of_ascii (by decide) : Text.IsClear "ops".toList)
  · exact Json.hasForm_arr.2 (List.forall_mem_map.2 forms)

theorem checkContent_manifest {names : List String} (clear : ∀ name ∈ names, Text.IsClear name.toList) (next : Int) :
    Disk.checkContent (manifestContent names next) = .ok () := by
  have fields : (manifestJson names next).HasForm := by
    rw [manifestJson, Json.hasForm_obj]
    simp only [List.forall_mem_cons]
    refine ⟨⟨.of_ascii (by decide), Json.hasForm_int 1⟩, ⟨.of_ascii (by decide), ?_⟩,
      ⟨.of_ascii (by decide), Json.hasForm_int next⟩, List.forall_mem_nil _⟩
    exact Json.hasForm_arr.2 (List.forall_mem_map.2 fun name hn => Json.hasForm_str.2 (clear name hn))
  exact Disk.checkContent_render fields

theorem isClear_segmentName (n : Int) : Text.IsClear (segmentName n).toList :=
  .of_ascii (isPlainName_segmentName n).ascii

theorem Log.clear_names (log : Log) : ∀ name ∈ log.names, Text.IsClear name.toList := by
  intro name hn
  obtain ⟨segment, _, rfl⟩ := List.mem_map.1 hn
  exact isClear_segmentName segment.1

end CodeSearch.Lexical

namespace CodeSearch.LexicalIndex

open Lexical CodeSearch.Action

variable {α : Type}

/-- An index all of whose changes and entries have a form in a file. -/
structure IsWritable (dir : Path) (ix : LexicalIndex α) : Prop where
  directory : ix.directory = some dir
  limit : ∃ most, ix.maxSegments = .ok most
  segments : ∃ log : Log, ix.segments = log.names
  number : ∃ n : Nat, ix.nextSegment = n ∧ Record.HasDigits n
  pending : ∀ change ∈ ix.pending, change.IsClear
  entries : ∀ e ∈ ix.entries.values, (Change.add e.chunk).IsClear

section Writable
variable {dir : Path} {ix : LexicalIndex α} {d : Disk}

/-- A file with a plain name is stored, or a fault of the storage keeps it from being so. -/
theorem runOn_store_child {σ : Type} {name : String} (plain : IsPlainName name) (sound : dir.Sound) {content : Content}
    (kept : content.IsKept) (whole : Disk.checkContent content = .ok ()) (uncut : .cut ∉ d.fates) (task : StorageTask)
    (s : σ) :
    ∃ answer d', (store task (dir.child name) content : Action σ Unit).runOn s d = (answer, s, d') ∧ .cut ∉ d'.fates ∧
      OnlyStorage answer ∧ (answer = .ok () → d'.FileAt (dir.child name) content) := by
  rcases runOn_store task (dir.child name) kept s d with
    ⟨d', done, change, there⟩ | ⟨fault, d', failed, change, storage⟩
  · exact ⟨.ok (), d', done, change.no_cut uncut, .ok (), fun _ => there⟩
  · refine ⟨.error fault, d', failed, change.no_cut uncut, ?_, nofun⟩
    rintro _ ⟨⟩
    refine storage ?_ (Path.sound_child plain sound) ?_ uncut whole
    · rw [Path.name_child plain]
      exact plain.ne_empty
    · rw [Path.temporary_child plain]
      exact Path.sound_child plain.temporary sound

theorem runOn_writeManifest_writable (sound : dir.Sound) (h : ix.IsWritable dir) (uncut : .cut ∉ d.fates) :
    ∃ answer d', (writeManifest dir).runOn ix d = (answer, ix, d') ∧ .cut ∉ d'.fates ∧ OnlyStorage answer := by
  obtain ⟨log, segments⟩ := h.segments
  obtain ⟨n, number, digits⟩ := h.number
  obtain ⟨answer, d', run, uncut', faults, _⟩ := runOn_store_child isPlainName_manifestName sound
    (isKept_manifest log digits)
    (checkContent_manifest log.clear_names n) uncut .writeLexical ix
  refine ⟨answer, d', ?_, uncut', faults⟩
  rw [writeManifest, runOn_bind_ok (runOn_memory _ _), segments, number]
  exact run

theorem runOn_writeSegment_writable (sound : dir.Sound) (h : ix.IsWritable dir) (uncut : .cut ∉ d.fates)
    {changes : List Change} (clear : ∀ change ∈ changes, change.IsClear) :
    ∃ answer next d', (writeSegment dir changes).runOn ix d = (answer, { ix with nextSegment := next }, d') ∧
      ({ ix with nextSegment := next } : LexicalIndex α).IsWritable dir ∧ .cut ∉ d'.fates ∧ OnlyStorage answer ∧
      ∀ name, answer = .ok name → ∃ n : Nat, name = segmentName n := by
  obtain ⟨n, number, digits⟩ := h.number
  obtain ⟨answer, d', run, uncut', faults, there⟩ := runOn_store_child (isPlainName_segmentName n) sound
    (isKept_segment fun change hc => (clear change hc).1)
    (checkContent_segment fun change hc => (clear change hc).hasForm) uncut .writeLexical ix
  have written : (writeSegment dir changes).runOn ix d = match answer with
      | .ok _ => (.ok (segmentName n), { ix with nextSegment := (n + 1 : Nat) }, d')
      | .error fault => (.error fault, ix, d') := by
    rw [writeSegment, runOn_bind_ok (runOn_memory _ _), number]
    cases answer with
    | ok _ =>
      rw [runOn_bind_ok run, runOn_bind_ok (runOn_modifyMemory _ _ _), number]
      rfl
    | error fault => rw [runOn_bind_error run]
  rw [written]
  cases answer with
  | ok _ =>
    refine ⟨.ok (segmentName n), _, d', rfl, ?_, uncut', .ok _, fun name same => ⟨n, by cases same; rfl⟩⟩
    exact { h with number := ⟨n + 1, rfl, hasDigits_succ (there rfl).1⟩ }
  | error fault =>
    refine ⟨.error fault, ix.nextSegment, d', rfl, { h with }, uncut', ?_, fun _ named => by cases named⟩
    rintro _ ⟨⟩
    exact faults fault rfl

theorem runOn_discardSegments_sound (sound : dir.Sound) (log : Log) (uncut : .cut ∉ d.fates) (ix : LexicalIndex α) :
    ∃ d', (discardSegments dir log.names).runOn ix d = (.ok (), ix, d') ∧ .cut ∉ d'.fates := by
  induction log generalizing d with
  | nil => exact ⟨d, rfl, uncut⟩
  | cons segment log ih =>
    obtain ⟨answer, d₁, first, change, done, _⟩ := runOn_discard
      (dir.child (segmentName segment.1)) (segmentContent segment.2) ix d
    obtain ⟨rfl⟩ := done (Path.sound_child (isPlainName_segmentName segment.1) sound) uncut
    obtain ⟨d₂, rest, uncut₂⟩ := ih (change.no_cut uncut)
    have unfolded : (discardSegments dir (Log.names (segment :: log)) : Action (LexicalIndex α) Unit)
        = discard (dir.child (segmentName segment.1)) >>= fun _ => discardSegments dir (Log.names log) := rfl
    exact ⟨d₂, by rw [unfolded, runOn_bind_ok first, rest], uncut₂⟩

theorem mapM_stored_writable (h : ix.IsWritable dir) :
    ∃ records, (ix.entries.values.mapM fun e => e.chunk.stored) = .ok records := by
  refine ⟨ix.entries.values.map fun e => e.chunk.json, mapM_ok fun e he => ?_⟩
  obtain ⟨read, shallow⟩ := (h.entries e he).1
  exact Chunk.stored_of_shallow read.checked shallow

theorem runOn_compact_writable (sound : dir.Sound) (h : ix.IsWritable dir) (uncut : .cut ∉ d.fates) :
    ∃ answer segments next d', (compact dir).runOn ix d
        = (answer, { ix with segments := segments, nextSegment := next }, d') ∧
      ({ ix with segments := segments, nextSegment := next } : LexicalIndex α).IsWritable dir ∧ .cut ∉ d'.fates ∧
      OnlyStorage answer := by
  obtain ⟨log, segments⟩ := h.segments
  obtain ⟨records, stored⟩ := mapM_stored_writable h
  have clear : ∀ change ∈ ix.asChanges, change.IsClear := by
    intro change hc
    obtain ⟨e, he, rfl⟩ := List.mem_map.1 hc
    exact h.entries e he
  rw [compact, runOn_bind_ok (runOn_memory _ _), stored, runOn_bind_ok (runOn_ofExcept _ _ _)]
  obtain ⟨answer, next, d₁, written, h₁, uncut₁, faults, named⟩ := runOn_writeSegment_writable sound h uncut clear
  replace written : (writeSegment dir (ix.entries.values.map fun e => .add e.chunk)).runOn ix d
      = (answer, { ix with nextSegment := next }, d₁) := written
  cases answer with
  | error fault =>
    refine ⟨.error fault, ix.segments, next, d₁, runOn_bind_error written _, h₁, uncut₁, ?_⟩
    rintro _ ⟨⟩
    exact faults fault rfl
  | ok name =>
    obtain ⟨n, rfl⟩ := named name rfl
    have h₂ : ({ ix with segments := [segmentName n], nextSegment := next } : LexicalIndex α).IsWritable dir :=
      { h₁ with segments := ⟨[(n, [])], rfl⟩ }
    obtain ⟨answer, d₂, manifest, uncut₂, faults⟩ := runOn_writeManifest_writable sound h₂ uncut₁
    rw [runOn_bind_ok written, runOn_bind_ok (runOn_modifyMemory _ _ _)]
    cases answer with
    | error fault => exact ⟨.error fault, _, next, d₂, runOn_bind_error manifest _, h₂, uncut₂, faults⟩
    | ok _ =>
      obtain ⟨d₃, discarded, uncut₃⟩ := runOn_discardSegments_sound sound log uncut₂
        ({ ix with segments := [segmentName n], nextSegment := next } : LexicalIndex α)
      rw [runOn_bind_ok manifest, segments]
      exact ⟨.ok (), _, next, d₃, discarded, h₂, uncut₃, .ok ()⟩

theorem runOn_commitPending_writable (sound : dir.Sound) (h : ix.IsWritable dir) (uncut : .cut ∉ d.fates) :
    ∃ answer segments next pending d', (commitPending dir ix.pending).runOn ix d
        = (answer, { ix with segments := segments, nextSegment := next, pending := pending }, d') ∧
      ({ ix with segments := segments, nextSegment := next, pending := pending } : LexicalIndex α).IsWritable dir ∧
      .cut ∉ d'.fates ∧ OnlyStorage answer := by
  obtain ⟨log, segments⟩ := h.segments
  obtain ⟨most, limit⟩ := h.limit
  obtain ⟨answer, next, d₁, written, h₁, uncut₁, faults, named⟩ := runOn_writeSegment_writable sound h uncut h.pending
  rw [commitPending]
  cases answer with
  | error fault =>
    refine ⟨.error fault, ix.segments, next, ix.pending, d₁, runOn_bind_error written _, h₁, uncut₁, ?_⟩
    rintro _ ⟨⟩
    exact faults fault rfl
  | ok name =>
    obtain ⟨n, rfl⟩ := named name rfl
    have h₂ : ({ ix with segments := ix.segments ++ [segmentName n], nextSegment := next } : LexicalIndex α).IsWritable
        dir := { h₁ with segments := ⟨log ++ [(n, [])], by rw [Log.names_append, ← segments]; rfl⟩ }
    obtain ⟨answer, d₂, manifest, uncut₂, faults⟩ := runOn_writeManifest_writable sound h₂ uncut₁
    rw [runOn_bind_ok written, runOn_bind_ok (runOn_modifyMemory _ _ _)]
    cases answer with
    | error fault => exact ⟨.error fault, _, next, ix.pending, d₂, runOn_bind_error manifest _, h₂, uncut₂, faults⟩
    | ok _ =>
      have h₃ : ({ ix with segments := ix.segments ++ [segmentName n], nextSegment := next, pending := [] } :
          LexicalIndex α).IsWritable dir := { h₂ with pending := List.forall_mem_nil _ }
      have limit' : (ofExcept ix.maxSegments : Action (LexicalIndex α) Int).runOn { ix with
          segments := ix.segments ++ [segmentName n], nextSegment := next, pending := [] } d₂ = (.ok most, { ix with
          segments := ix.segments ++ [segmentName n], nextSegment := next, pending := [] }, d₂) := by
        rw [runOn_ofExcept, limit]
      rw [runOn_bind_ok manifest, runOn_bind_ok (runOn_modifyMemory _ _ _), runOn_bind_ok (runOn_memory _ _),
        runOn_bind_ok limit']
      split
      next =>
        obtain ⟨answer, segments', next', d₃, compacted, h₄, uncut₃, faults⟩ := runOn_compact_writable sound h₃ uncut₂
        exact ⟨answer, segments', next', [], d₃, compacted, h₄, uncut₃, faults⟩
      next => exact ⟨.ok (), _, next, [], d₂, rfl, h₃, uncut₂, .ok ()⟩

/-- A commit fails by a fault of the storage or not at all, and what it leaves can be written as well. -/
theorem runOn_commit_writable (sound : dir.Sound) (h : ix.IsWritable dir) (uncut : .cut ∉ d.fates) :
    ∃ answer segments next pending d', commit.runOn ix d
        = (answer, { ix.refreshed with segments := segments, nextSegment := next, pending := pending }, d') ∧
      ({ ix.refreshed with segments := segments, nextSegment := next, pending := pending } :
        LexicalIndex α).IsWritable dir ∧ .cut ∉ d'.fates ∧ OnlyStorage answer := by
  have h' : ix.refreshed.IsWritable dir := { h with }
  rw [runOn_commit_eq h.directory]
  split
  next => exact ⟨.ok (), ix.segments, ix.nextSegment, ix.pending, d, rfl, h', uncut, .ok ()⟩
  next => exact runOn_commitPending_writable sound h' uncut

end Writable

/-- Without a directory a commit only forgets what is pending. -/
theorem runOn_commit_none {ix : LexicalIndex α} (directory : ix.directory = none) {d : Disk} :
    commit.runOn ix d = (.ok (), { ix.refreshed with pending := [] }, d) := by
  have nowhere : ix.refreshed.directory = none := directory
  rw [commit, runOn_bind_ok (runOn_modifyMemory _ _ _), runOn_bind_ok (runOn_memory _ _)]
  split
  next => rfl
  next there => cases nowhere.symm.trans there

/-- Entries are added and committed; what keeps them from the disk is a fault of the storage. -/
theorem runOn_insert_writable {ix : LexicalIndex α} {d : Disk} (current : ix.IsCurrent)
    (writable : ∀ dir ∈ ix.directory, dir.Sound ∧ ix.IsWritable dir) {chunks : List Chunk}
    (good : ∀ c ∈ chunks, c.WellRead ∧ c.IsShallow)
    (clear : ix.directory.isSome = true → ∀ c ∈ chunks, (Change.add c).IsClear) (uncut : .cut ∉ d.fates) :
    ∃ answer ix' d', (do let _ ← insertPrepared (chunks.map Entry.ofChunk) : Action (LexicalIndex α) Unit).runOn ix d
        = (answer, ix', d') ∧ ix'.entries = ix.entries.putAll (chunks.map fun c => (c.id, .ofChunk c)) ∧
      ix'.directory = ix.directory ∧ ix'.IsCurrent ∧ (∀ dir ∈ ix'.directory, dir.Sound ∧ ix'.IsWritable dir) ∧
      .cut ∉ d'.fates ∧ OnlyStorage answer := by
  have current₁ := (current.advanced (ix.entries.putAll (chunks.map fun c => (c.id, Entry.ofChunk c)))
    (chunks.map Change.add)).refreshed
  rw [runOn_insertPrepared, addAll_of_shallow fun c hc => ⟨(good c hc).1.checked, (good c hc).2⟩]
  cases directory : ix.directory with
  | none =>
    have here : (ix.changed (ix.entries.putAll (chunks.map fun c => (c.id, Entry.ofChunk c)))
        (chunks.map Change.add)).advanced.directory = none := directory
    exact ⟨.ok (), _, d, runOn_commit_none here, rfl, directory, current₁,
      fun dir hd => absurd (directory.symm.trans hd) nofun, uncut, .ok _⟩
  | some dir =>
    obtain ⟨sound, h⟩ := writable dir directory
    have clear := clear (by rw [directory]; rfl)
    have h₁ : (ix.changed (ix.entries.putAll (chunks.map fun c => (c.id, Entry.ofChunk c)))
        (chunks.map Change.add)).advanced.IsWritable dir := by
      refine { h with pending := List.forall_mem_append.2 ⟨h.pending, ?_⟩, entries := ?_ }
      · intro change hc
        obtain ⟨c, hw, rfl⟩ := List.mem_map.1 hc
        exact clear c hw
      · intro e he
        obtain ⟨item, hi, rfl⟩ := List.mem_map.1 he
        rcases Keyed.mem_items_putAll hi with old | new
        · exact h.entries _ (List.mem_map_of_mem old)
        · obtain ⟨c, hw, rfl⟩ := List.mem_map.1 new
          exact clear c hw
    obtain ⟨answer, segments, next, pending, d', run, h₂, uncut', faults⟩ := runOn_commit_writable sound h₁ uncut
    refine ⟨answer, _, d', run, rfl, directory, current₁, fun dir' hd => ?_, uncut', faults⟩
    obtain rfl : dir = dir' := Option.some.inj (directory.symm.trans hd)
    exact ⟨sound, h₂⟩

end CodeSearch.LexicalIndex
