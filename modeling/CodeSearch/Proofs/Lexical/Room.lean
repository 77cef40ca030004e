import CodeSearch.Proofs.Disk.Room
import CodeSearch.Proofs.Lexical.Faults
/-!
# Room for an index

A directory holds the files of an index if their names fit (`Holds`). When there is room for them, and what is to be
written has a form in a file (`IsReady`), the writes that are granted are done, and if no effect is refused, every
operation is (`Operation.answers`). It takes no more than two numbers of segments.
-/

namespace CodeSearch.Lexical

/-- The files of an index can be stored in a directory, as far as the names are concerned, while the numbers of its
segments are below a bound. -/
structure Holds (dir : Path) (bound : ℕ) : Prop where
  sound : dir.Sound
  down : ".." ∉ dir.parts
  manifest : (dir.child manifestName).Storable
  segment : ∀ n < bound, (dir.child (segmentName n)).Storable

/-- The files of an index are on the way to none of them. -/
theorem Holds.apart {dir : Path} {bound : ℕ} (holds : Holds dir bound) :
    ∀ place, IndexPlace dir place → ¬ dir.Way place := by
  rintro _ ⟨name, index, rfl⟩
  exact Path.not_way_child holds.down index.plain

/-- The files of an index do not stand where paths begin. -/
theorem IndexPlace.inside {dir place : Path} (h : IndexPlace dir place) : place.parts ≠ [] := by
  obtain ⟨name, index, rfl⟩ := h
  rw [Path.place_child index.plain]
  exact List.append_ne_nil_of_right_ne_nil _ (List.cons_ne_nil _ _)

/-- A chunk that can be written and whose lines are in order is one that is read from its record. -/
theorem Change.IsClear.fromData {c : Chunk} (h : (Change.add c).IsClear) (order : c.InOrder) : c.FromData :=
  ⟨c.json, Chunk.isData_json h.1.1, Chunk.ofJson_json h.1.1 order⟩

theorem Change.IsClear.form {c : Chunk} (h : (Change.add c).IsClear) : c.json.HasForm :=
  (Json.hasForm_obj.1 h.hasForm ("chunk", c.json) (by simp)).2

/-- A change that deletes what another one adds can be written as well. -/
theorem Change.IsClear.delete {c : Chunk} (h : (Change.add c).IsClear) : (Change.delete c.idValue).IsClear := by
  have record : ("id", Json.str c.id) ∈ c.record := by
    rw [Chunk.record, h.1.1.checked]
    exact List.mem_cons_self
  have named := (Json.hasForm_obj.1 h.form _ record).2
  have fields : (Change.delete (.str c.id)).json.HasForm := by
    rw [Change.json, Json.hasForm_obj]
    simp only [List.forall_mem_cons]
    exact ⟨⟨.of_ascii (by decide), Json.hasForm_str.2 (.of_ascii (by decide))⟩, ⟨.of_ascii (by decide), named⟩,
      List.forall_mem_nil _⟩
  rw [Chunk.idValue_of_checked h.1.1.checked]
  exact ⟨⟨c.id, rfl, h.1.1.id⟩, fields.whole⟩

end CodeSearch.Lexical

namespace CodeSearch.LexicalIndex

open Lexical CodeSearch.Action

variable {α : Type}

/-- An index that nothing but the fates of the effects keeps from writing a segment of some number. -/
structure IsReady (dir : Path) (ix : LexicalIndex α) (d : Disk) (n : ℕ) : Prop where
  writable : ix.IsWritable dir
  room : d.Room (IndexPlace dir) dir.Way
  number : ix.nextSegment = n

section Room
variable {dir : Path} {bound n : ℕ} {ix : LexicalIndex α} {d : Disk} (holds : Holds dir bound)
include holds

/-! ## Single writes

The directories on the way, the file beside and the move are effects. -/

theorem runOn_storeIndex_room {name : String} (h : IsIndexName name) (h' : IsIndexName (name ++ ".tmp"))
    (storable : (dir.child name).Storable) (room : d.Room (IndexPlace dir) dir.Way)
    (granted : d.Grants (dir.parts.length + 2)) {content : Content} (whole : Disk.checkContent content = .ok ())
    (s : LexicalIndex α) :
    ∃ d', (store .writeLexical (dir.child name) content : Action (LexicalIndex α) Unit).runOn s d = (.ok (), s, d') ∧
      d'.locate (dir.child name) = .ok (dir.child name).place ∧ d'.Room (IndexPlace dir) dir.Way ∧
      Disk.Changed (IndexPlace dir) dir.Way d d' ∧ d'.fates = d.fates.drop (dir.parts.length + 2) := by
  have parent : (dir.child name).parent = dir := Path.parent_child h.plain
  obtain ⟨d', run, change, there, fates⟩ := runOn_store_room storable
    (room.mono (fun _ => indexPlace_written h h') fun _ hp => parent ▸ hp) (by rwa [parent]) whole .writeLexical s
  rw [parent] at change fates
  replace change := change.mono (fun _ => indexPlace_written h h') fun _ => id
  exact ⟨d', run, there.1, room.changed holds.apart change, change, fates⟩

theorem runOn_writeManifest_room (h : ix.IsReady dir d n) (granted : d.Grants (dir.parts.length + 2)) :
    ∃ d', (writeManifest dir).runOn ix d = (.ok (), ix, d') ∧ ix.IsReady dir d' n ∧
      Disk.Changed (IndexPlace dir) dir.Way d d' ∧ d'.fates = d.fates.drop (dir.parts.length + 2) := by
  obtain ⟨log, segments⟩ := h.writable.segments
  obtain ⟨d', run, _, room, change⟩ := runOn_storeIndex_room holds .manifest .besideManifest holds.manifest h.room
    granted (checkContent_manifest log.clear_names n) ix
  refine ⟨d', ?_, ⟨h.writable, room, h.number⟩, change⟩
  rw [writeManifest, runOn_bind_ok (runOn_memory _ _), segments, h.number]
  exact run

theorem runOn_writeSegment_room (h : ix.IsReady dir d n) (granted : d.Grants (dir.parts.length + 2)) (below : n < bound)
    {changes : List Change} (clear : ∀ change ∈ changes, change.IsClear) :
    ∃ d', (writeSegment dir changes).runOn ix d = (.ok (segmentName n), { ix with nextSegment := (n + 1 : ℕ) }, d') ∧
      ({ ix with nextSegment := (n + 1 : ℕ) } : LexicalIndex α).IsReady dir d' (n + 1) ∧
      Disk.Changed (IndexPlace dir) dir.Way d d' ∧ d'.fates = d.fates.drop (dir.parts.length + 2) := by
  obtain ⟨d', run, there, room, change⟩ := runOn_storeIndex_room holds (.segment n) (.besideSegment n)
    (holds.segment n below) h.room granted (checkContent_segment fun change hc => (clear change hc).hasForm) ix
  refine ⟨d', ?_, ⟨{ h.writable with number := ⟨n + 1, rfl, hasDigits_succ there⟩ }, room, rfl⟩, change⟩
  rw [writeSegment, runOn_bind_ok (runOn_memory _ _), h.number, runOn_bind_ok run,
    runOn_bind_ok (runOn_modifyMemory _ _ _), h.number]
  rfl

/-! ## Compactions and commits -/

/-- A compaction writes a segment, and then it has a manifest to write and files to remove. -/
theorem runOn_compact_segment (h : ix.IsReady dir d n) (granted : d.Grants (dir.parts.length + 2)) (below : n < bound) :
    ∃ d', (compact dir).runOn ix d
        = (do writeManifest dir; discardSegments dir ix.segments : Action (LexicalIndex α) Unit).runOn
          { ix with segments := [segmentName n], nextSegment := (n + 1 : ℕ) } d' ∧
      ({ ix with segments := [segmentName n], nextSegment := (n + 1 : ℕ) } : LexicalIndex α).IsReady dir d' (n + 1) ∧
      Disk.Changed (IndexPlace dir) dir.Way d d' ∧ d'.fates = d.fates.drop (dir.parts.length + 2) := by
  obtain ⟨records, stored⟩ := mapM_stored_writable h.writable
  have clear : ∀ change ∈ ix.entries.values.map fun e => Change.add e.chunk, change.IsClear :=
    List.forall_mem_map.2 h.writable.entries
  obtain ⟨d', written, ready, change⟩ := runOn_writeSegment_room holds h granted below clear
  refine ⟨d', ?_, ⟨{ ready.writable with segments := ⟨[(n, [])], rfl⟩ }, ready.room, rfl⟩, change⟩
  rw [compact, runOn_bind_ok (runOn_memory _ _), stored, runOn_bind_ok (runOn_ofExcept _ _ _), runOn_bind_ok written,
    runOn_bind_ok (runOn_modifyMemory _ _ _)]

/-- The manifest is written anew, and the files that it does not name any more are removed. -/
theorem runOn_replaceSegments_room (h : ix.IsReady dir d n) (used : d.fates = []) (log : Log) :
    ∃ d', (do writeManifest dir; discardSegments dir log.names : Action (LexicalIndex α) Unit).runOn ix d
        = (.ok (), ix, d') ∧ ix.IsReady dir d' n ∧ Disk.Changed (IndexPlace dir) dir.Way d d' := by
  obtain ⟨d₁, manifest, _, change₁, _⟩ := runOn_writeManifest_room holds h (Disk.grants_of_used used _)
  have used₁ := change₁.no_fates used
  obtain ⟨answer, d₂, discarded, change₂, _⟩ := runOn_discardSegments dir log ix d₁
  obtain ⟨_, answered, _⟩ := runOn_discardSegments_sound (d := d₁) holds.sound log (by simp [used₁]) ix
  obtain rfl : answer = .ok () := congrArg Prod.fst (discarded.symm.trans answered)
  have change : Disk.Changed (IndexPlace dir) dir.Way d d₂ := by
    refine change₁.trans (change₂.mono ?_ fun _ => False.elim)
    rintro _ ⟨m, _, rfl⟩
    exact ⟨_, .segment m, rfl⟩
  refine ⟨d₂, ?_, ⟨h.writable, h.room.changed holds.apart change, h.number⟩, change⟩
  rw [runOn_bind_ok manifest, discarded]

theorem runOn_compact_room (h : ix.IsReady dir d n) (used : d.fates = []) (below : n < bound) :
    ∃ d', (compact dir).runOn ix d = (.ok (), { ix with segments := [segmentName n], nextSegment := (n + 1 : ℕ) }, d') ∧
      ({ ix with segments := [segmentName n], nextSegment := (n + 1 : ℕ) } : LexicalIndex α).IsReady dir d' (n + 1) ∧
      Disk.Changed (IndexPlace dir) dir.Way d d' := by
  obtain ⟨log, segments⟩ := h.writable.segments
  obtain ⟨d₁, run, ready₁, change₁, _⟩ := runOn_compact_segment holds h (Disk.grants_of_used used _) below
  obtain ⟨d₂, replaced, ready₂, change₂⟩ := runOn_replaceSegments_room holds ready₁ (change₁.no_fates used) log
  exact ⟨d₂, by rw [run, segments, replaced], ready₂, change₁.trans change₂⟩

/-- The index once what is pending has been written under a number. -/
def listed (ix : LexicalIndex α) (n : ℕ) : LexicalIndex α :=
  { ix with segments := ix.segments ++ [segmentName n], nextSegment := (n + 1 : ℕ), pending := [] }

/-- A commit of what is pending writes a segment and a manifest, and compacts if there are many segments then. -/
theorem runOn_commitPending_listed {most : Int} (h : ix.IsReady dir d n)
    (granted : d.Grants (dir.parts.length + 2 + (dir.parts.length + 2))) (below : n < bound)
    (limit : ix.maxSegments = .ok most) :
    ∃ d', (commitPending dir ix.pending).runOn ix d
        = (if most < (ix.listed n).segments.length then compact dir else pure () : Action (LexicalIndex α) Unit).runOn
          (ix.listed n) d' ∧
      (ix.listed n).IsReady dir d' (n + 1) ∧ Disk.Changed (IndexPlace dir) dir.Way d d' ∧
      d'.fates = d.fates.drop (dir.parts.length + 2 + (dir.parts.length + 2)) := by
  obtain ⟨log, segments⟩ := h.writable.segments
  obtain ⟨d₁, written, ready₁, change₁, fates₁⟩ := runOn_writeSegment_room holds h (granted.mono (Nat.le_add_right _ _))
    below h.writable.pending
  have ready : ({ ix with segments := ix.segments ++ [segmentName n], nextSegment := (n + 1 : ℕ) } :
      LexicalIndex α).IsReady dir d₁ (n + 1) := by
    refine ⟨{ ready₁.writable with segments := ⟨log ++ [(n, [])], ?_⟩ }, ready₁.room, rfl⟩
    rw [Log.names_append, ← segments]
    rfl
  obtain ⟨d₂, manifest, ready₂, change₂, fates₂⟩ := runOn_writeManifest_room holds ready (granted.after fates₁)
  refine ⟨d₂, ?_, ⟨{ ready₂.writable with pending := List.forall_mem_nil _ }, ready₂.room, rfl⟩, change₁.trans change₂,
    by rw [fates₂, fates₁, List.drop_drop]⟩
  have limited : (ofExcept ix.maxSegments : Action (LexicalIndex α) Int).runOn (ix.listed n) d₂
      = (.ok most, ix.listed n, d₂) := by
    rw [runOn_ofExcept, limit]
  rw [commitPending, runOn_bind_ok written, runOn_bind_ok (runOn_modifyMemory _ _ _), runOn_bind_ok manifest,
    runOn_bind_ok (runOn_modifyMemory _ _ _), runOn_bind_ok (runOn_memory _ _)]
  exact runOn_bind_ok limited _

/-- A commit is done. -/
theorem runOn_commit_ready (h : ix.IsReady dir d n) (used : d.fates = []) (below : n + 1 < bound) :
    ∃ segments next d', commit.runOn ix d
        = (.ok (), { ix.refreshed with segments := segments, nextSegment := (next : ℕ), pending := [] }, d') ∧
      next ≤ n + 2 ∧ (ix.pending ≠ [] → n < next) ∧
      ({ ix.refreshed with segments := segments, nextSegment := (next : ℕ), pending := [] } :
        LexicalIndex α).IsReady dir d' next ∧
      Disk.Changed (IndexPlace dir) dir.Way d d' := by
  have ready : ix.refreshed.IsReady dir d n := ⟨{ h.writable with }, h.room, h.number⟩
  obtain ⟨most, limit⟩ := h.writable.limit
  rw [runOn_commit_eq h.writable.directory]
  by_cases none : ix.pending = []
  · have asIs : ({ ix.refreshed with segments := ix.segments, nextSegment := (n : ℕ), pending := [] } : LexicalIndex α)
        = ix.refreshed := by
      rw [← h.number, ← none]
      rfl
    rw [if_pos (List.isEmpty_iff.2 none)]
    exact ⟨ix.segments, n, d, by rw [asIs], Nat.le_add_right _ _, fun some => absurd none some, asIs ▸ ready, .refl⟩
  · rw [if_neg (by simpa using none)]
    obtain ⟨d₁, run, ready₁, change₁, _⟩ := runOn_commitPending_listed holds ready (Disk.grants_of_used used _)
      (Nat.lt_of_succ_lt below) limit
    rw [show ix.pending = ix.refreshed.pending from rfl, run]
    split
    · obtain ⟨d₂, compacted, ready₂, change₂⟩ := runOn_compact_room holds ready₁ (change₁.no_fates used) below
      exact ⟨_, n + 2, d₂, compacted, le_rfl, fun _ => Nat.lt_add_of_pos_right two_pos, ready₂, change₁.trans change₂⟩
    · exact ⟨_, n + 1, d₁, rfl, Nat.le_succ _, fun _ => Nat.lt_succ_self n, ready₁, change₁⟩

/-! ## Operations -/

/-- The index with more entries, which are pending. -/
def filled (ix : LexicalIndex α) (chunks : List Chunk) : LexicalIndex α :=
  (ix.changed (ix.entries.putAll (chunks.map fun c => (c.id, .ofChunk c))) (chunks.map .add)).advanced

omit holds in
theorem IsReady.filled (h : ix.IsReady dir d n) {chunks : List Chunk} (clear : ∀ c ∈ chunks, (Change.add c).IsClear) :
    (ix.filled chunks).IsReady dir d n := by
  refine ⟨{ h.writable with pending := List.forall_mem_append.2 ⟨h.writable.pending, ?_⟩, entries := ?_ }, h.room,
    h.number⟩
  · exact List.forall_mem_map.2 clear
  · intro e he
    obtain ⟨item, hi, rfl⟩ := List.mem_map.1 he
    rcases Keyed.mem_items_putAll hi with old | new
    · exact h.writable.entries _ (List.mem_map_of_mem old)
    · obtain ⟨c, hw, rfl⟩ := List.mem_map.1 new
      exact clear c hw

omit holds in
theorem runOn_insertPrepared_filled {chunks : List Chunk} (clear : ∀ c ∈ chunks, (Change.add c).IsClear)
    (ix : LexicalIndex α) (d : Disk) :
    (do let _ ← insertPrepared (chunks.map Entry.ofChunk) : Action (LexicalIndex α) Unit).runOn ix d
      = commit.runOn (ix.filled chunks) d := by
  rw [runOn_insertPrepared, addAll_of_shallow fun c hc => ⟨(clear c hc).1.1.checked, (clear c hc).1.2⟩]
  rfl

/-- Chunks are added and committed. -/
theorem runOn_insertPrepared_ready (h : ix.IsReady dir d n) (used : d.fates = []) (below : n + 1 < bound)
    {chunks : List Chunk} (clear : ∀ c ∈ chunks, (Change.add c).IsClear) :
    ∃ ix' next d', (do let _ ← insertPrepared (chunks.map Entry.ofChunk) : Action (LexicalIndex α) Unit).runOn ix d
        = (.ok (), ix', d') ∧
      next ≤ n + 2 ∧ (chunks ≠ [] → n < next) ∧ ix'.IsReady dir d' next ∧
      Disk.Changed (IndexPlace dir) dir.Way d d' := by
  obtain ⟨segments, next, d', run, le, lt, ready, change⟩ := runOn_commit_ready holds (h.filled clear) used below
  rw [runOn_insertPrepared_filled clear]
  refine ⟨_, next, d', run, le, fun some => lt fun none => some ?_, ready, change⟩
  exact List.map_eq_nil_iff.1 (List.append_eq_nil_iff.1 none).2

/-- An insertion comes to where it may have to compact. -/
theorem runOn_insertBatch_listed {most : Int} (h : ix.IsReady dir d n)
    (granted : d.Grants (dir.parts.length + 2 + (dir.parts.length + 2))) (below : n < bound)
    (limit : ix.maxSegments = .ok most) {chunks : List Chunk} (some : chunks ≠ [])
    (clear : ∀ c ∈ chunks, (Change.add c).IsClear) :
    ∃ ix' d', (Operation.insertBatch chunks).run.runOn ix d
        = (if most < ix'.segments.length then compact dir else pure () : Action (LexicalIndex α) Unit).runOn ix' d' ∧
      ix'.segments = ix.segments ++ [segmentName n] ∧ ix'.maxSegments = .ok most ∧ ix'.IsReady dir d' (n + 1) ∧
      d'.fates = d.fates.drop (dir.parts.length + 2 + (dir.parts.length + 2)) := by
  have filled := h.filled clear
  have ready : (ix.filled chunks).refreshed.IsReady dir d n := ⟨{ filled.writable with }, filled.room, filled.number⟩
  obtain ⟨d', run, ready', _, fates⟩ := runOn_commitPending_listed holds ready granted below limit
  refine ⟨(ix.filled chunks).refreshed.listed n, d', ?_, rfl, limit, ready', fates⟩
  have pending : (ix.filled chunks).pending.isEmpty = false := by
    rw [List.isEmpty_eq_false_iff]
    exact List.append_ne_nil_of_right_ne_nil _ (by simpa using some)
  rw [runOn_insertBatch fun c hc => (clear c hc).1.1, ← runOn_insertPrepared, runOn_insertPrepared_filled clear,
    runOn_commit_eq filled.writable.directory, pending]
  exact run

/-- The power goes off in a compaction, between the segment and the manifest. -/
theorem runOn_compact_cut (h : ix.IsReady dir d n) (granted : d.Grants (dir.parts.length + 2)) (below : n < bound)
    (inside : dir.parts ≠ []) (cut : (d.fates.drop (dir.parts.length + 2)).head? = some .cut) :
    ((compact dir).runOn ix d).1 = .error .powerLoss := by
  obtain ⟨d', run, _, _, fates⟩ := runOn_compact_segment holds h granted below
  have off (s : LexicalIndex α) : (writeManifest dir).runOn s d' = (.error .powerLoss, s, d'.fated) := by
    rw [writeManifest, runOn_bind_ok (runOn_memory _ _)]
    refine runOn_store_cut holds.manifest.name ?_ (by rw [fates, cut]) _ _ _
    rwa [Path.parent_child isPlainName_manifestName]
  rw [run, runOn_bind_error (off _)]

omit holds in
/-- Without some of its entries an index can be written as well. -/
theorem IsReady.foldl_deleted (h : ix.IsReady dir d n) (ids : List String) :
    (ids.foldl deleted ix).IsReady dir d n := by
  induction ids generalizing ix with
  | nil => exact h
  | cons id ids ih =>
    refine ih ?_
    rw [deleted]
    cases found : ix.entries.get? id with
    | none => exact h
    | some e =>
      have there : e ∈ ix.entries.values := List.mem_map_of_mem (Keyed.get?_eq_some.1 found)
      refine ⟨{ h.writable with pending := ?_, entries := ?_ }, h.room, h.number⟩
      · exact List.forall_mem_append.2
          ⟨h.writable.pending, List.forall_mem_singleton.2 (h.writable.entries e there).delete⟩
      · intro other ho
        obtain ⟨item, hi, rfl⟩ := List.mem_map.1 ho
        exact h.writable.entries _ (List.mem_map_of_mem (Keyed.mem_items_erase hi))

theorem runOn_delete_ready (h : ix.IsReady dir d n) (used : d.fates = []) (below : n + 1 < bound) (q : Query) :
    ∃ ix' next d', (do let _ ← deleteSelected q : Action (LexicalIndex α) Unit).runOn ix d = (.ok (), ix', d') ∧
      next ≤ n + 2 ∧ ix'.IsReady dir d' next ∧ d'.fates = [] := by
  have ready : ix.refreshed.IsReady dir d n := ⟨{ h.writable with }, h.room, h.number⟩
  rw [runOn_delete]
  generalize (ix.refreshed.view.entries.filter fun e => q.selects e.tokens).map (fun e => e.chunk.id) = doomed
  simp only []
  split
  · exact ⟨ix, n, d, rfl, Nat.le_add_right _ _, h, used⟩
  · split
    · exact ⟨ix.refreshed, n, d, rfl, Nat.le_add_right _ _, ready, used⟩
    · have left := ready.foldl_deleted doomed
      have ready' : (doomed.foldl deleted ix.refreshed).advanced.IsReady dir d n :=
        ⟨{ left.writable with }, left.room, left.number⟩
      obtain ⟨_, next, d', run, le, _, ready', change⟩ := runOn_commit_ready holds ready' used below
      exact ⟨_, next, d', run, le, ready', change.no_fates used⟩

theorem runOn_clear_ready (h : ix.IsReady dir d n) (used : d.fates = []) :
    ∃ d', (clear : Action (LexicalIndex α) Unit).runOn ix d = (.ok (), ix.cleared, d') ∧
      ix.cleared.IsReady dir d' n ∧ d'.fates = [] := by
  obtain ⟨log, segments⟩ := h.writable.segments
  have ready : ix.cleared.IsReady dir d n := by
    refine ⟨{ h.writable with segments := ⟨[], rfl⟩, pending := ?_, entries := ?_ }, h.room, h.number⟩
    · exact List.forall_mem_nil _
    · exact List.forall_mem_nil _
  obtain ⟨d', replaced, ready', change⟩ := runOn_replaceSegments_room holds ready used log
  rw [runOn_clear h.writable.directory, segments]
  exact ⟨d', replaced, ready', change.no_fates used⟩

end Room

end CodeSearch.LexicalIndex

namespace CodeSearch.Lexical

open LexicalIndex CodeSearch.Action

/-- Where there is room and no effect is refused, an operation is done, unless its query does not parse. An insertion of
chunks takes a number for a segment, and no operation takes more than two. -/
theorem Operation.answers {α : Type} {dir : Path} {bound n : ℕ} {ix : LexicalIndex α} {d : Disk}
    (holds : Holds dir bound) (h : ix.IsReady dir d n) (used : d.fates = []) (below : n + 1 < bound) (op : Operation)
    (unrefused : op.isRefused = false) (clear : ∀ c ∈ op.chunks, (Change.add c).IsClear) :
    ∃ ix' next d', op.run.runOn ix d = (.ok (), ix', d') ∧ next ≤ n + 2 ∧ (op.chunks ≠ [] → n < next) ∧
      ix'.IsReady dir d' next ∧ d'.fates = [] := by
  have inserted : ∀ chunks : List Chunk, (∀ c ∈ chunks, (Change.add c).IsClear) →
      ∃ ix' next d', (Operation.insertBatch chunks).run.runOn ix d = (.ok (), ix', d') ∧ next ≤ n + 2 ∧
        (chunks ≠ [] → n < next) ∧ ix'.IsReady dir d' next ∧ d'.fates = [] := by
    intro chunks clear
    obtain ⟨ix', next, d', run, le, lt, ready, change⟩ := runOn_insertPrepared_ready holds h used below clear
    refine ⟨ix', next, d', ?_, le, lt, ready, change.no_fates used⟩
    rw [runOn_insertBatch fun c hc => (clear c hc).1.1, ← runOn_insertPrepared, run]
  have committed : ∃ ix' next d', (LexicalIndex.commit : Action (LexicalIndex α) Unit).runOn ix d = (.ok (), ix', d') ∧
      next ≤ n + 2 ∧ ix'.IsReady dir d' next ∧ d'.fates = [] := by
    obtain ⟨_, next, d', run, le, _, ready, change⟩ := runOn_commit_ready holds h used below
    exact ⟨_, next, d', run, le, ready, change.no_fates used⟩
  cases op with
  | insert chunk => exact inserted [chunk] clear
  | insertBatch chunks => exact inserted chunks clear
  | deleteByQuery text =>
    cases parsed : Query.parse text with
    | error e => simp [isRefused, parsed] at unrefused
    | ok q =>
      obtain ⟨ix', next, d', run, le, ready⟩ := runOn_delete_ready holds h used below q
      exact ⟨ix', next, d', (runOn_deletion parsed ix d).trans run, le, fun some => absurd rfl some, ready⟩
  | clear =>
    obtain ⟨d', run, ready⟩ := runOn_clear_ready holds h used
    exact ⟨ix.cleared, n, d', run, Nat.le_add_right _ _, fun some => absurd rfl some, ready⟩
  | commit =>
    obtain ⟨ix', next, d', run, le, ready⟩ := committed
    exact ⟨ix', next, d', run, le, fun some => absurd rfl some, ready⟩
  | close =>
    rw [runOn_closing]
    split
    · exact ⟨ix, n, d, rfl, Nat.le_add_right _ _, fun some => absurd rfl some, h, used⟩
    · obtain ⟨ix', next, d', run, le, ready⟩ := committed
      exact ⟨ix', next, d', run, le, fun some => absurd rfl some, ready⟩

end CodeSearch.Lexical
