import CodeSearch.Proofs.Lexical.Log
/-!
# How an index and its directory move on together

`IsKept` relates an index to its directory: the manifest names the segments of one log, the index those of another
one, and the segments of both stand as a whole, under numbers that are used up. Every write keeps it, done or not. A
commit takes the two logs through the stages of `Stage`, and stops at one of them (`runOn_commit`).
-/

namespace CodeSearch.Lexical

/-! ## Logs in a directory -/

/-- A directory in which an index can be kept: the disk takes the manifest, and the way to the directory does not
lead through it. -/
structure DirectoryFits (dir : Path) : Prop where
  manifest : (dir.child manifestName).Fits
  apart : ¬ dir.Way (dir.child manifestName).place

/-- No path that only leads down leads through what lies in the directory at its end. -/
theorem DirectoryFits.of_down {dir : Path} (fits : (dir.child manifestName).Fits) (down : ".." ∉ dir.parts) :
    DirectoryFits dir := ⟨fits, Path.not_way_child down isPlainName_manifestName⟩

/-- The segments of a log stand in a directory, can be read, and have numbers below a bound, each its own. -/
structure Log.IsKept (dir : Path) (d : Disk) (log : Log) (bound : Nat) : Prop where
  stands : log.StandsIn dir d
  storable : log.IsStorable
  below : ∀ n ∈ log.numbers, n < bound
  once : log.numbers.Nodup

/-- A file stands under the name of a segment. -/
def SegmentFile (dir : Path) (d : Disk) (n : Nat) : Prop :=
  ∃ content, d.nodeAt? (dir.child (segmentName n)).place = some (.file content)

variable {dir : Path} {d d' : Disk} {log more : Log} {bound next : Nat} {files ways : Path → Prop}

theorem segment_place_inj {m n : Nat} :
    (dir.child (segmentName m)).place = (dir.child (segmentName n)).place ↔ m = n := by
  rw [Path.place_child_inj (isPlainName_segmentName m) (isPlainName_segmentName n), segmentName_inj]

theorem segment_place_ne_manifest (n : Nat) :
    (dir.child (segmentName n)).place ≠ (dir.child manifestName).place := by
  rw [Ne, Path.place_child_inj (isPlainName_segmentName n) isPlainName_manifestName]
  exact segmentName_ne_manifestName n

theorem segment_place_ne_temporary (n : Nat) {name : String} (plain : IsPlainName name) :
    (dir.child (segmentName n)).place ≠ (dir.child name).temporary.place := by
  rw [Path.temporary_child plain, Ne, Path.place_child_inj (isPlainName_segmentName n) plain.temporary]
  exact segmentName_ne_temporary n name

theorem manifest_place_ne_temporary {name : String} (plain : IsPlainName name) :
    (dir.child manifestName).place ≠ (dir.child name).temporary.place := by
  rw [Path.temporary_child plain, Ne, Path.place_child_inj isPlainName_manifestName plain.temporary]
  exact manifestName_ne_temporary name

/-- A segment that is written leaves the place of the manifest and those of the other segments alone. -/
theorem manifest_not_written (n : Nat) :
    ¬ (dir.child (segmentName n)).Written (dir.child manifestName).place := by
  rintro (beside | there)
  · exact manifest_place_ne_temporary (isPlainName_segmentName n) beside
  · exact segment_place_ne_manifest n there.symm

theorem segment_not_written {m n : Nat} (other : n ≠ m) :
    ¬ (dir.child (segmentName m)).Written (dir.child (segmentName n)).place := by
  rintro (beside | there)
  · exact segment_place_ne_temporary n (isPlainName_segmentName m) beside
  · exact other (segment_place_inj.1 there)

/-- And so does a manifest with the places of segments. -/
theorem segment_not_written_manifest (n : Nat) :
    ¬ (dir.child manifestName).Written (dir.child (segmentName n)).place := by
  rintro (beside | there)
  · exact segment_place_ne_temporary n isPlainName_manifestName beside
  · exact segment_place_ne_manifest n there

theorem indexPlace_written {name : String} (h : IsIndexName name) (h' : IsIndexName (name ++ ".tmp")) {q : Path}
    (written : (dir.child name).Written q) : IndexPlace dir q := by
  rcases written with rfl | rfl
  · exact ⟨_, h', by rw [Path.temporary_child h.plain]⟩
  · exact ⟨_, h, rfl⟩

theorem Log.IsKept.changed (h : log.IsKept dir d bound) (change : Disk.Changed files ways d d')
    (apart : ∀ n ∈ log.numbers, ¬ files (dir.child (segmentName n)).place) : log.IsKept dir d' bound :=
  ⟨fun segment hs => (h.stands segment hs).changed change (apart _ (List.mem_map_of_mem hs)), h.storable, h.below,
    h.once⟩

theorem Log.IsKept.mono (h : log.IsKept dir d bound) (le : bound ≤ next) : log.IsKept dir d next :=
  ⟨h.stands, h.storable, fun n hn => Nat.lt_of_lt_of_le (h.below n hn) le, h.once⟩

theorem Log.IsKept.nil : Log.IsKept dir d [] bound :=
  ⟨List.forall_mem_nil _, List.forall_mem_nil _, List.forall_mem_nil _, List.nodup_nil⟩

/-- A segment under a number that is not used up joins a log. -/
theorem Log.IsKept.append {changes : List Change} (h : log.IsKept dir d bound)
    (there : d.FileAt (dir.child (segmentName bound)) (segmentContent changes))
    (storable : ∀ change ∈ changes, change.IsStorable) :
    Log.IsKept dir d (log ++ [(bound, changes)]) (bound + 1) := by
  refine ⟨?_, ?_, ?_, ?_⟩
  · exact List.forall_mem_append.2 ⟨h.stands, List.forall_mem_singleton.2 there⟩
  · exact List.forall_mem_append.2 ⟨h.storable, List.forall_mem_singleton.2 storable⟩
  · rw [Log.numbers_append]
    refine List.forall_mem_append.2 ⟨fun n hn => Nat.lt_succ_of_lt (h.below n hn), ?_⟩
    exact List.forall_mem_singleton.2 (Nat.lt_succ_self bound)
  · rw [Log.numbers_append, List.nodup_append]
    refine ⟨h.once, List.nodup_singleton _, fun m hm n hn same => ?_⟩
    have := h.below m hm
    rw [same, List.mem_singleton.1 hn] at this
    exact Nat.lt_irrefl _ this

theorem Listed.changed (h : Listed dir d log next) (change : Disk.Changed files ways d d')
    (apart : ¬ files (dir.child manifestName).place) (clear : ¬ ways (dir.child manifestName).place) :
    Listed dir d' log next := by
  rcases h with ⟨nothing, rest⟩ | there
  · exact .inl ⟨change.none apart clear nothing, rest⟩
  · exact .inr (there.changed change apart)

theorem segmentFile_changed (change : Disk.Changed files ways d d') {n : Nat}
    (apart : ¬ files (dir.child (segmentName n)).place) : SegmentFile dir d' n ↔ SegmentFile dir d n := by
  constructor
  · rintro ⟨content, there⟩
    exact ⟨content, (change.file apart).1 there⟩
  · rintro ⟨content, there⟩
    exact ⟨content, (change.file apart).2 there⟩

end CodeSearch.Lexical

namespace CodeSearch.LexicalIndex

open Lexical CodeSearch.Action

variable {α : Type}

/-! ## An index and its directory -/

/-- What an index and its directory know of each other: the directory has the manifest of one log, `disk`, and the
index works on another one, `own`. -/
structure IsKept (dir : Path) (ix : LexicalIndex α) (d : Disk) (disk own : Log) (next count : Nat) : Prop where
  directory : ix.directory = some dir
  segments : ix.segments = own.names
  nextSegment : ix.nextSegment = count
  pending : ∀ change ∈ ix.pending, change.IsStorable
  listed : Listed dir d disk next
  diskKept : disk.IsKept dir d next
  ownKept : own.IsKept dir d count
  next_le : next ≤ count
  digits : Record.HasDigits next
  ownDigits : Record.HasDigits count

section Kept
variable {dir : Path} {ix : LexicalIndex α} {d d' : Disk} {disk own : Log} {next count : Nat}
variable {files ways : Path → Prop} {log : Log}

/-- Work elsewhere on the disk does no harm. -/
theorem IsKept.changed (h : ix.IsKept dir d disk own next count) (change : Disk.Changed files ways d d')
    (apart : ¬ files (dir.child manifestName).place) (clear : ¬ ways (dir.child manifestName).place)
    (segments : ∀ n ∈ disk.numbers ++ own.numbers, ¬ files (dir.child (segmentName n)).place) :
    ix.IsKept dir d' disk own next count :=
  { h with
    listed := h.listed.changed change apart clear
    diskKept := h.diskKept.changed change fun n hn => segments n (List.mem_append_left _ hn)
    ownKept := h.ownKept.changed change fun n hn => segments n (List.mem_append_right _ hn) }

/-- An index that has been opened is kept with the log of its directory. -/
theorem IsOpened.isKept (h : ix.IsOpened dir log next) (listed : Listed dir d log next)
    (kept : log.IsKept dir d next) (digits : Record.HasDigits next) : ix.IsKept dir d log log next next :=
  ⟨h.directory, h.segments, h.nextSegment, by simp [h.pending], listed, kept, kept, Nat.le_refl _, digits, digits⟩

/-- A directory that is kept can be opened. -/
theorem IsKept.openAt (h : ix.IsKept dir d disk own next count) (fits : DirectoryFits dir) (k1 b : Parameter α)
    (maxSegments : Except Fault Int) (unfit : Unfit) :
    ∃ ix', openAt (some dir) k1 b maxSegments unfit d = .ok ix' ∧ ix'.IsOpened dir disk next ∧
      ix'.maxSegments = maxSegments ∧ ix'.IsKept dir d disk disk next next := by
  obtain ⟨ix', opened, isOpened, same⟩ := openAt_of_listed fits.manifest h.listed h.digits h.diskKept.stands
    h.diskKept.storable k1 b maxSegments unfit
  exact ⟨ix', opened, isOpened, same, isOpened.isKept h.listed h.diskKept h.digits⟩

/-! ## Single writes -/

theorem way_child {name : String} (plain : IsPlainName name) : (dir.child name).parent.Way = dir.Way := by
  rw [Path.parent_child plain]

/-- A manifest is written as a whole or not at all. -/
theorem runOn_writeManifest (fits : DirectoryFits dir) (h : ix.IsKept dir d disk own next count) :
    (∃ d', (writeManifest dir).runOn ix d = (.ok (), ix, d') ∧
      Disk.Changed (dir.child manifestName).Written dir.Way d d' ∧ ix.IsKept dir d' own own count count) ∨
    ∃ fault d', (writeManifest dir).runOn ix d = (.error fault, ix, d') ∧
      Disk.Changed (dir.child manifestName).Written dir.Way d d' ∧ ix.IsKept dir d' disk own next count := by
  have plain := isPlainName_manifestName
  have kept := isKept_manifest own h.ownDigits
  have run : (writeManifest dir).runOn ix d = (store .writeLexical (dir.child manifestName)
      (manifestContent own.names count)).runOn ix d := by
    rw [writeManifest, runOn_bind_ok (runOn_memory _ _), h.segments, h.nextSegment]
  rw [run]
  rcases runOn_store .writeLexical (dir.child manifestName) kept ix d with
    ⟨d', done, change, there⟩ | ⟨fault, d', failed, change, _⟩
  · rw [way_child plain] at change
    have ownKept := h.ownKept.changed change fun n _ => segment_not_written_manifest n
    exact .inl ⟨d', done, change, { h with
      listed := .inr there, diskKept := ownKept, ownKept, next_le := Nat.le_refl _, digits := h.ownDigits }⟩
  · rw [way_child plain] at change
    refine .inr ⟨fault, d', failed, change.mono (fun _ => Or.inl) fun _ => id, ?_⟩
    exact h.changed change (manifest_place_ne_temporary plain) fits.apart fun n _ => segment_place_ne_temporary n plain

/-- A segment is written as a whole under the next number, which no log has used, or not at all. -/
theorem runOn_writeSegment (fits : DirectoryFits dir) (h : ix.IsKept dir d disk own next count) {changes : List Change}
    (storable : ∀ change ∈ changes, change.IsStorable) :
    (∃ d', (writeSegment dir changes).runOn ix d
        = (.ok (segmentName count), { ix with nextSegment := (count + 1 : Nat) }, d') ∧
      Disk.Changed (dir.child (segmentName count)).Written dir.Way d d' ∧
      d'.FileAt (dir.child (segmentName count)) (segmentContent changes) ∧
      ({ ix with nextSegment := (count + 1 : Nat) } : LexicalIndex α).IsKept dir d' disk own next (count + 1)) ∨
    ∃ fault d', (writeSegment dir changes).runOn ix d = (.error fault, ix, d') ∧
      Disk.Changed (dir.child (segmentName count)).Written dir.Way d d' ∧ ix.IsKept dir d' disk own next count := by
  have plain := isPlainName_segmentName count
  have kept := isKept_segment storable
  -- both logs have only numbers below the one to be used
  have segments : ∀ n ∈ disk.numbers ++ own.numbers,
      ¬ (dir.child (segmentName count)).Written (dir.child (segmentName n)).place := by
    intro n hn
    rcases List.mem_append.1 hn with hn | hn
    · exact segment_not_written (Nat.lt_of_lt_of_le (h.diskKept.below n hn) h.next_le).ne
    · exact segment_not_written (h.ownKept.below n hn).ne
  rw [writeSegment, runOn_bind_ok (runOn_memory _ _), h.nextSegment]
  rcases runOn_store .writeLexical (dir.child (segmentName count)) kept ix d with
    ⟨d', done, change, there⟩ | ⟨fault, d', failed, change, _⟩
  · rw [way_child plain] at change
    refine .inl ⟨d', ?_, change, there, ?_⟩
    · rw [runOn_bind_ok done, runOn_bind_ok (runOn_modifyMemory _ _ _), h.nextSegment]
      rfl
    · have moved := h.changed change (manifest_not_written count) fits.apart segments
      exact { moved with
        nextSegment := rfl
        ownKept := moved.ownKept.mono (Nat.le_succ _)
        next_le := Nat.le_succ_of_le h.next_le
        ownDigits := hasDigits_succ there.1 }
  · rw [way_child plain] at change
    have change : Disk.Changed (dir.child (segmentName count)).Written dir.Way d d' :=
      change.mono (fun _ => Or.inl) fun _ => id
    exact .inr ⟨fault, d', runOn_bind_error failed _, change,
      h.changed change (manifest_not_written count) fits.apart segments⟩

/-- Files of a log that nothing names any more are removed, if all effects are done. -/
theorem runOn_discardSegments (dir : Path) (log : Log) (ix : LexicalIndex α) (d : Disk) :
    ∃ answer d', (discardSegments dir log.names).runOn ix d = (answer, ix, d') ∧
      Disk.Changed (fun q => ∃ n ∈ log.numbers, (dir.child (segmentName n)).place = q) (fun _ => False) d d' ∧
      (d.fates = [] → log.StandsIn dir d → log.numbers.Nodup →
        answer = .ok () ∧ ∀ n ∈ log.numbers, d'.nodeAt? (dir.child (segmentName n)).place = none) := by
  induction log generalizing d with
  | nil => exact ⟨.ok (), d, rfl, .refl, fun _ _ _ => ⟨rfl, List.forall_mem_nil _⟩⟩
  | cons segment log ih =>
    obtain ⟨answer, d₁, first, change, _, gone⟩ := runOn_discard
      (dir.child (segmentName segment.1)) (segmentContent segment.2) ix d
    have change₁ : Disk.Changed (fun q => ∃ n ∈ Log.numbers (segment :: log), (dir.child (segmentName n)).place = q)
        (fun _ => False) d d₁ :=
      change.mono (fun q hq => ⟨segment.1, List.mem_cons_self, hq.symm⟩) fun _ => id
    have unfolded : (discardSegments dir (Log.names (segment :: log)) : Action (LexicalIndex α) Unit)
        = discard (dir.child (segmentName segment.1)) >>= fun _ => discardSegments dir (Log.names log) := rfl
    rw [unfolded]
    cases answer with
    | error fault =>
      refine ⟨.error fault, d₁, runOn_bind_error first _, change₁, fun used stands _ => ?_⟩
      cases (gone used (stands segment List.mem_cons_self)).1
    | ok _ =>
      obtain ⟨answer, d₂, rest, change', allGone⟩ := ih d₁
      have change₂ : Disk.Changed (fun q => ∃ n ∈ Log.numbers (segment :: log), (dir.child (segmentName n)).place = q)
          (fun _ => False) d₁ d₂ :=
        change'.mono (fun q ⟨n, hn, eq⟩ => ⟨n, List.mem_cons_of_mem _ hn, eq⟩) fun _ => id
      refine ⟨answer, d₂, by rw [runOn_bind_ok first, rest], change₁.trans change₂, fun used stands once => ?_⟩
      obtain ⟨apart, once⟩ : segment.1 ∉ Log.numbers log ∧ (Log.numbers log).Nodup := List.nodup_cons.1 once
      have stands₁ : Log.StandsIn dir d₁ log := by
        intro other ho
        refine (stands other (List.mem_cons_of_mem _ ho)).changed change fun same => apart ?_
        exact segment_place_inj.1 same ▸ List.mem_map_of_mem ho
      obtain ⟨done, rest⟩ := allGone (change₁.no_fates used) stands₁ once
      refine ⟨done, fun n hn => ?_⟩
      rcases List.mem_cons.1 hn with rfl | hn
      · refine change'.none ?_ id (gone used (stands segment List.mem_cons_self)).2
        rintro ⟨m, hm, same⟩
        exact apart (segment_place_inj.1 same ▸ hm)
      · exact rest n hn

/-! ## Compaction -/

/-- The changes that make the entries anew. -/
def asChanges (ix : LexicalIndex α) : List Change := ix.entries.values.map fun e => .add e.chunk

/-- The index with one segment that is written in the place of all others, or beside them. -/
theorem IsKept.replaced (h : ix.IsKept dir d disk own next (count + 1)) {changes : List Change}
    (there : d.FileAt (dir.child (segmentName count)) (segmentContent changes))
    (storable : ∀ change ∈ changes, change.IsStorable) :
    ({ ix with segments := [segmentName count] } : LexicalIndex α).IsKept dir d disk [(count, changes)] next
      (count + 1) :=
  { h with segments := rfl, ownKept := Log.IsKept.nil.append there storable }

theorem IsKept.appended (h : ix.IsKept dir d disk own next (count + 1)) {changes : List Change}
    (unused : ∀ n ∈ own.numbers, n < count)
    (there : d.FileAt (dir.child (segmentName count)) (segmentContent changes))
    (storable : ∀ change ∈ changes, change.IsStorable) :
    ({ ix with segments := ix.segments ++ [segmentName count] } : LexicalIndex α).IsKept dir d disk
      (own ++ [(count, changes)]) next (count + 1) :=
  { h with
    segments := by rw [Log.names_append, h.segments]; rfl
    ownKept := Log.IsKept.append ⟨h.ownKept.stands, h.ownKept.storable, unused, h.ownKept.once⟩ there storable }

/-- The files of numbers that no log has any more can go. -/
theorem IsKept.discarded {old : Log} (h : ix.IsKept dir d disk own next count)
    (unused : ∀ n ∈ disk.numbers ++ own.numbers, n ∉ old.numbers)
    (change : Disk.Changed (fun q => ∃ n ∈ old.numbers, (dir.child (segmentName n)).place = q) (fun _ => False) d d') :
    ix.IsKept dir d' disk own next count := by
  refine h.changed change (fun ⟨m, _, same⟩ => segment_place_ne_manifest m same) id ?_
  rintro n hn ⟨m, hm, same⟩
  exact unused n hn (segment_place_inj.1 same ▸ hm)

/-- The segment files of a directory are those of a log. -/
def Exactly (dir : Path) (d : Disk) (log : Log) : Prop := ∀ n, SegmentFile dir d n ↔ n ∈ log.numbers

theorem exactly_written (h : Exactly dir d log) (change : Disk.Changed (dir.child (segmentName count)).Written ways d d')
    {changes : List Change} (there : d'.FileAt (dir.child (segmentName count)) (segmentContent changes)) :
    Exactly dir d' (log ++ [(count, changes)]) := by
  intro n
  rw [Log.numbers_append, List.mem_append]
  by_cases same : n = count
  · subst same
    exact ⟨fun _ => .inr List.mem_cons_self, fun _ => ⟨_, there.2⟩⟩
  · rw [segmentFile_changed change (segment_not_written same), h n]
    simp [Log.numbers, same]

theorem exactly_manifest (h : Exactly dir d log) (change : Disk.Changed (dir.child manifestName).Written ways d d') :
    Exactly dir d' log := by
  intro n
  rw [segmentFile_changed change (segment_not_written_manifest n), h n]

/-- Once the files of the first part of a log are gone, those of the rest are left. -/
theorem exactly_discarded {more : Log} (h : Exactly dir d (log ++ more))
    (change : Disk.Changed (fun q => ∃ n ∈ log.numbers, (dir.child (segmentName n)).place = q) ways d d')
    (gone : ∀ n ∈ log.numbers, d'.nodeAt? (dir.child (segmentName n)).place = none)
    (apart : ∀ n ∈ more.numbers, n ∉ log.numbers) : Exactly dir d' more := by
  intro n
  by_cases old : n ∈ log.numbers
  · have noFile : ¬ SegmentFile dir d' n := by
      rintro ⟨content, there⟩
      rw [gone n old] at there
      cases there
    exact ⟨fun there => absurd there noFile, fun new => absurd old (apart n new)⟩
  · have elsewhere : ¬ ∃ m ∈ log.numbers, (dir.child (segmentName m)).place = (dir.child (segmentName n)).place := by
      rintro ⟨m, hm, same⟩
      exact old (segment_place_inj.1 same ▸ hm)
    rw [segmentFile_changed change elsewhere, h n, Log.numbers_append, List.mem_append]
    simp [old]

theorem indexPlace_segment (n : Nat) {q : Path} (h : (dir.child (segmentName n)).Written q) : IndexPlace dir q :=
  indexPlace_written (.segment n) (.besideSegment n) h

theorem indexPlace_manifest {q : Path} (h : (dir.child manifestName).Written q) : IndexPlace dir q :=
  indexPlace_written .manifest .besideManifest h

/-- A compaction leaves everything as it was, or writes all entries beside what the manifest names, or in its
place. -/
theorem runOn_compact (fits : DirectoryFits dir) (h : ix.IsKept dir d disk own next count)
    (read : ∀ e ∈ ix.entries.values, e.chunk.WellRead) :
    ∃ answer d' disk' own' next' count',
      (compact dir).runOn ix d = (answer, { ix with segments := own'.names, nextSegment := (count' : Nat) }, d') ∧
      Disk.Changed (IndexPlace dir) dir.Way d d' ∧
      ({ ix with segments := own'.names, nextSegment := (count' : Nat) } : LexicalIndex α).IsKept dir d' disk' own'
        next' count' ∧
      (answer ≠ .ok () ∧ disk' = disk ∧ own' = own ∨
        answer ≠ .ok () ∧ disk' = disk ∧ own' = [(count, ix.asChanges)] ∨
        disk' = [(count, ix.asChanges)] ∧ own' = [(count, ix.asChanges)] ∧
          (d.fates = [] → Exactly dir d own → Exactly dir d' own')) := by
  have asIs : ({ ix with segments := own.names, nextSegment := (count : Nat) } : LexicalIndex α) = ix := by
    rw [← h.segments, ← h.nextSegment]
  rw [compact, runOn_bind_ok (runOn_memory _ _)]
  cases check : ix.entries.values.mapM fun e => e.chunk.stored with
  | error fault =>
    -- an entry of which no record can be made stops it before anything is written
    refine ⟨.error fault, d, disk, own, next, count, ?_, .refl, asIs.symm ▸ h, .inl ⟨nofun, rfl, rfl⟩⟩
    rw [runOn_bind_error (runOn_ofExcept _ _ _), asIs]
  | ok records =>
    have storable : ∀ change ∈ ix.asChanges, change.IsStorable := by
      intro change hc
      obtain ⟨e, he, rfl⟩ := List.mem_map.1 hc
      obtain ⟨record, stored⟩ := ok_of_mapM_ok check e he
      exact ⟨read e he, Chunk.shallow_of_stored (read e he).checked stored⟩
    rw [runOn_bind_ok (runOn_ofExcept _ _ _)]
    change ∃ answer d' disk' own' next' count', ((writeSegment dir ix.asChanges >>= _).runOn ix d) = _ ∧ _
    rcases runOn_writeSegment fits h storable with ⟨d₁, written, change₁, there, kept₁⟩ | ⟨fault, d₁, failed, change₁, kept₁⟩
    · have kept₂ := kept₁.replaced there storable
      have change₁' : Disk.Changed (IndexPlace dir) dir.Way d d₁ :=
        change₁.mono (fun _ => indexPlace_segment count) fun _ => id
      rw [runOn_bind_ok written, runOn_bind_ok (runOn_modifyMemory _ _ _)]
      rcases runOn_writeManifest fits kept₂ with ⟨d₂, written, change₂, kept₃⟩ | ⟨fault, d₂, failed, change₂, kept₃⟩
      · -- the manifest names the new segment alone, and the old ones go
        have change₂' : Disk.Changed (IndexPlace dir) dir.Way d d₂ :=
          change₁'.trans (change₂.mono (fun _ => indexPlace_manifest) fun _ => id)
        have fresh : ∀ n ∈ Log.numbers [(count, ix.asChanges)], n ∉ own.numbers :=
          fun n hn old => (h.ownKept.below n old).ne (List.mem_singleton.1 hn)
        rw [runOn_bind_ok written, h.segments]
        obtain ⟨answer, d₃, discarded, change₃, gone⟩ := runOn_discardSegments dir own
          ({ ix with segments := [segmentName count], nextSegment := (count + 1 : Nat) } : LexicalIndex α) d₂
        refine ⟨answer, d₃, [(count, ix.asChanges)], [(count, ix.asChanges)], count + 1, count + 1, discarded,
          change₂'.trans (change₃.mono (fun q ⟨m, _, same⟩ => ⟨_, .segment m, same⟩) fun _ => False.elim),
          kept₃.discarded (List.forall_mem_append.2 ⟨fresh, fresh⟩) change₃, .inr (.inr ⟨rfl, rfl, fun used exact => ?_⟩)⟩
        have kept : own.IsKept dir d₂ count :=
          (h.ownKept.changed change₁ fun n hn => segment_not_written (h.ownKept.below n hn).ne).changed change₂
            fun n _ => segment_not_written_manifest n
        have all := exactly_manifest (exactly_written exact change₁ there) change₂
        exact exactly_discarded all change₃ (gone (change₂'.no_fates used) kept.stands kept.once).2 fresh
      · -- the index works on the new segment, but the manifest is still the old one
        refine ⟨.error fault, d₂, disk, [(count, ix.asChanges)], next, count + 1, runOn_bind_error failed _,
          change₁'.trans (change₂.mono (fun _ => indexPlace_manifest) fun _ => id), kept₃, .inr (.inl ⟨nofun, rfl, rfl⟩)⟩
    · refine ⟨.error fault, d₁, disk, own, next, count, ?_, change₁.mono (fun _ => indexPlace_segment count) fun _ => id,
        asIs.symm ▸ kept₁, .inl ⟨nofun, rfl, rfl⟩⟩
      rw [runOn_bind_error failed, asIs]

/-! ## Commits -/

/-- How far a commit has come: what is still pending, the log of the manifest, and that of the index. -/
inductive Stage (disk own : Log) (count : Nat) (pending all : List Change) : List Change → Log → Log → Prop where
  | idle : Stage disk own count pending all pending disk own
  | written : Stage disk own count pending all pending disk (own ++ [(count, pending)])
  | listed : Stage disk own count pending all [] (own ++ [(count, pending)]) (own ++ [(count, pending)])
  | compacted : Stage disk own count pending all [] (own ++ [(count, pending)]) [(count + 1, all)]
  | replaced : Stage disk own count pending all [] [(count + 1, all)] [(count + 1, all)]

/-- The index after a commit, which leaves the entries as they are. -/
def committed (ix : LexicalIndex α) (own : Log) (count : Nat) (pending : List Change) : LexicalIndex α :=
  { ix.refreshed with segments := own.names, nextSegment := count, pending := pending }

/-- What a commit does with changes that are pending. -/
def commitPending (dir : Path) (changes : List Change) : Action (LexicalIndex α) Unit := do
  let name ← writeSegment dir changes
  modifyMemory fun ix => { ix with segments := ix.segments ++ [name] }
  writeManifest dir
  modifyMemory fun ix => { ix with pending := [] }
  let ix ← memory
  if (← ofExcept ix.maxSegments) < ix.segments.length then compact dir

theorem runOn_commit_eq (directory : ix.directory = some dir) (d : Disk) :
    commit.runOn ix d
      = if ix.pending.isEmpty then (.ok (), ix.refreshed, d) else (commitPending dir ix.pending).runOn ix.refreshed d := by
  have same : ix.refreshed.directory = some dir := directory
  have pending : ix.refreshed.pending = ix.pending := rfl
  rw [commit, runOn_bind_ok (runOn_modifyMemory _ _ _), runOn_bind_ok (runOn_memory _ _), same, pending]
  cases empty : ix.pending.isEmpty <;> rfl

/-- A commit that has come to write its manifest has no more than a compaction before it. -/
theorem runOn_commitPending {most : Int} (fits : DirectoryFits dir)
    (h : (ix.committed own count ix.pending).IsKept dir d disk own next count)
    (limit : ix.maxSegments = .ok most) (read : ∀ e ∈ ix.entries.values, e.chunk.WellRead) :
    ∃ answer d' disk' own' next' count' pending',
      (commitPending dir ix.pending).runOn (ix.committed own count ix.pending) d
        = (answer, ix.committed own' count' pending', d') ∧
      Disk.Changed (IndexPlace dir) dir.Way d d' ∧
      (ix.committed own' count' pending').IsKept dir d' disk' own' next' count' ∧
      Stage disk own count ix.pending ix.asChanges pending' disk' own' ∧
      (answer = .ok () → pending' = [] ∧ disk' = own' ∧ (own'.length : Int) ≤ max 1 most ∧
        (d.fates = [] → Exactly dir d own → Exactly dir d' own')) := by
  have storable : ∀ change ∈ ix.pending, change.IsStorable := h.pending
  rw [commitPending]
  rcases runOn_writeSegment fits h storable with ⟨d₁, written, change₁, there, kept₁⟩ | ⟨fault, d₁, failed, change₁, kept₁⟩
  · have change₁' : Disk.Changed (IndexPlace dir) dir.Way d d₁ :=
      change₁.mono (fun _ => indexPlace_segment count) fun _ => id
    have appended : ({ ix.committed own (count + 1) ix.pending with segments := own.names ++ [segmentName count] } :
        LexicalIndex α) = ix.committed (own ++ [(count, ix.pending)]) (count + 1) ix.pending := by
      rw [committed, committed, Log.names_append]
      rfl
    have kept₂ : (ix.committed (own ++ [(count, ix.pending)]) (count + 1) ix.pending).IsKept dir d₁ disk
        (own ++ [(count, ix.pending)]) next (count + 1) := appended ▸ kept₁.appended h.ownKept.below there storable
    have memory₂ : (modifyMemory fun ix => { ix with segments := ix.segments ++ [segmentName count] } :
        Action (LexicalIndex α) Unit).runOn (ix.committed own (count + 1) ix.pending) d₁
          = (.ok (), ix.committed (own ++ [(count, ix.pending)]) (count + 1) ix.pending, d₁) := by
      rw [runOn_modifyMemory, ← appended]
      rfl
    replace written : (writeSegment dir ix.pending).runOn (ix.committed own count ix.pending) d
        = (.ok (segmentName count), ix.committed own (count + 1) ix.pending, d₁) := written
    rw [runOn_bind_ok written, runOn_bind_ok memory₂]
    -- the segment stands, and no manifest names it yet
    rcases runOn_writeManifest fits kept₂ with ⟨d₂, written, change₂, kept₃⟩ | ⟨fault, d₂, failed, change₂, kept₃⟩
    · have change₂' : Disk.Changed (IndexPlace dir) dir.Way d d₂ :=
        change₁'.trans (change₂.mono (fun _ => indexPlace_manifest) fun _ => id)
      have kept₄ : (ix.committed (own ++ [(count, ix.pending)]) (count + 1) []).IsKept dir d₂
          (own ++ [(count, ix.pending)]) (own ++ [(count, ix.pending)]) (count + 1) (count + 1) :=
        { kept₃ with pending := List.forall_mem_nil _ }
      have exactly₂ : Exactly dir d own → Exactly dir d₂ (own ++ [(count, ix.pending)]) := fun exact =>
        exactly_manifest (exactly_written exact change₁ there) change₂
      have length : (ix.committed (own ++ [(count, ix.pending)]) (count + 1) []).segments.length
          = (own ++ [(count, ix.pending)]).length := Log.length_names _
      have limit' : (ofExcept (ix.committed (own ++ [(count, ix.pending)]) (count + 1) []).maxSegments :
          Action (LexicalIndex α) Int).runOn (ix.committed (own ++ [(count, ix.pending)]) (count + 1) []) d₂
            = (.ok most, ix.committed (own ++ [(count, ix.pending)]) (count + 1) [], d₂) := by
        rw [runOn_ofExcept]
        exact congrArg (fun answer => (answer, _, d₂)) limit
      have memory₃ : (modifyMemory fun ix => { ix with pending := [] } : Action (LexicalIndex α) Unit).runOn
          (ix.committed (own ++ [(count, ix.pending)]) (count + 1) ix.pending) d₂
            = (.ok (), ix.committed (own ++ [(count, ix.pending)]) (count + 1) [], d₂) := rfl
      rw [runOn_bind_ok written, runOn_bind_ok memory₃, runOn_bind_ok (runOn_memory _ _), runOn_bind_ok limit', length]
      -- all is written; whatever a compaction comes to, nothing is pending any more
      by_cases many : most < ((own ++ [(count, ix.pending)]).length : Int)
      · rw [if_pos many]
        obtain ⟨answer, d₃, disk', own', next', count', run, change₃, kept₅, stage⟩ := runOn_compact fits kept₄ read
        refine ⟨answer, d₃, disk', own', next', count', [], run, change₂'.trans change₃, kept₅, ?_, fun done => ?_⟩
        · rcases stage with ⟨_, rfl, rfl⟩ | ⟨_, rfl, rfl⟩ | ⟨rfl, rfl, _⟩
          · exact .listed
          · exact .compacted
          · exact .replaced
        · rcases stage with ⟨failed, _⟩ | ⟨failed, _⟩ | ⟨rfl, rfl, exactly⟩
          · exact absurd done failed
          · exact absurd done failed
          · refine ⟨rfl, rfl, by simp, fun used exact => ?_⟩
            exact exactly (change₂'.no_fates used) (exactly₂ exact)
      · rw [if_neg many]
        refine ⟨.ok (), d₂, _, _, count + 1, count + 1, [], rfl, change₂', kept₄, .listed, fun _ => ?_⟩
        exact ⟨rfl, rfl, by omega, fun _ => exactly₂⟩
    · refine ⟨.error fault, d₂, disk, own ++ [(count, ix.pending)], next, count + 1, ix.pending,
        runOn_bind_error failed _, ?_, kept₃, .written, nofun⟩
      exact change₁'.trans (change₂.mono (fun _ => indexPlace_manifest) fun _ => id)
  · exact ⟨.error fault, d₁, disk, own, next, count, ix.pending, runOn_bind_error failed _,
      change₁.mono (fun _ => indexPlace_segment count) fun _ => id, kept₁, .idle, nofun⟩

/-- A commit stops at one of its stages. If it answers, nothing is pending, and if there was something, the manifest
names the segments of the index, and these are few. -/
theorem runOn_commit {most : Int} (fits : DirectoryFits dir) (h : ix.IsKept dir d disk own next count)
    (limit : ix.maxSegments = .ok most) (read : ∀ e ∈ ix.entries.values, e.chunk.WellRead) :
    ∃ answer d' disk' own' next' count' pending',
      commit.runOn ix d = (answer, ix.committed own' count' pending', d') ∧
      Disk.Changed (IndexPlace dir) dir.Way d d' ∧
      (ix.committed own' count' pending').IsKept dir d' disk' own' next' count' ∧
      Stage disk own count ix.pending ix.asChanges pending' disk' own' ∧
      (answer = .ok () → pending' = [] ∧
        (ix.pending = [] ∧ d' = d ∧ disk' = disk ∧ own' = own ∧ count' = count ∨
        ix.pending ≠ [] ∧ disk' = own' ∧ (own'.length : Int) ≤ max 1 most ∧
          (d.fates = [] → Exactly dir d own → Exactly dir d' own'))) := by
  have asIs : ix.committed own count ix.pending = ix.refreshed := by
    rw [committed, ← h.segments, ← h.nextSegment]
    rfl
  have kept : (ix.committed own count ix.pending).IsKept dir d disk own next count := by
    rw [asIs]
    exact { h with }
  rw [runOn_commit_eq h.directory]
  by_cases empty : ix.pending = []
  · rw [if_pos (by simp [empty])]
    refine ⟨.ok (), d, disk, own, next, count, ix.pending, by rw [asIs], .refl, kept, .idle, fun _ => ?_⟩
    exact ⟨empty, .inl ⟨empty, rfl, rfl, rfl, rfl⟩⟩
  · rw [if_neg (by simp [empty]), ← asIs]
    obtain ⟨answer, d', disk', own', next', count', pending', run, change, kept', stage, done⟩ :=
      runOn_commitPending fits kept limit read
    refine ⟨answer, d', disk', own', next', count', pending', run, change, kept', stage, fun ok => ?_⟩
    obtain ⟨none, rest⟩ := done ok
    exact ⟨none, .inr ⟨empty, rest⟩⟩

end Kept

end CodeSearch.LexicalIndex
