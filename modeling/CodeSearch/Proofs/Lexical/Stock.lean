import CodeSearch.Proofs.Invariant
import CodeSearch.Proofs.Lexical.Operations
/-!
# What the lexical index holds

A commit reads the entries and moves the snapshot up to them, and beyond that it only keeps account of segments. So a
condition on the index that this leaves alone (`Steady`) is kept by all work on the disk. The other operations put
entries and take entries out. So an index whose entries satisfy a condition, those of the snapshot included, stays one
under all operations with such entries, whatever becomes of its writes (`Stocked`).
-/

namespace CodeSearch

namespace Lexical

/-! ## Entries that satisfy a condition -/

/-- Each entry stands under the id of its chunk and satisfies a condition. -/
def FiledBy (p : Entry → Prop) (entries : Keyed String Entry) : Prop :=
  ∀ item ∈ entries.items, item.1 = item.2.chunk.id ∧ p item.2

namespace FiledBy

variable {p : Entry → Prop} {entries entries' : Keyed String Entry}

theorem empty : FiledBy p .empty := List.forall_mem_nil _

theorem put (h : FiledBy p entries) {e : Entry} (fits : p e) : FiledBy p (entries.put e.chunk.id e) := by
  intro item hi
  rcases Keyed.mem_items_put hi with old | rfl
  · exact h item old
  · exact ⟨rfl, fits⟩

theorem erase (h : FiledBy p entries) (id : String) : FiledBy p (entries.erase id) :=
  fun item hi => h item (Keyed.mem_items_erase hi)

theorem eraseAll (h : FiledBy p entries) (ids : List String) : FiledBy p (ids.foldl Keyed.erase entries) := by
  induction ids generalizing entries with
  | nil => exact h
  | cons id ids ih => exact ih (h.erase id)

theorem values (h : FiledBy p entries) : ∀ e ∈ entries.values, p e := by
  intro e he
  obtain ⟨item, hi, rfl⟩ := List.mem_map.1 he
  exact (h item hi).2

theorem items_eq (h : FiledBy p entries) : entries.values.map (fun e => (e.chunk.id, e)) = entries.items := by
  rw [Keyed.values, List.map_map]
  conv_rhs => rw [← List.map_id entries.items]
  exact List.map_congr_left fun item hi => Prod.ext (h item hi).1.symm rfl

theorem nodup_ids (h : FiledBy p entries) : (entries.values.map fun e => e.chunk.id).Nodup := by
  have keys : entries.values.map (fun e => e.chunk.id) = entries.items.map Prod.fst := by
    rw [← h.items_eq, List.map_map]
    rfl
  rw [keys]
  exact entries.nodup_keys

theorem deleteNamed (h : FiledBy p entries) {name : Json} (deleted : deleteNamed entries name = .ok entries') :
    FiledBy p entries' := by
  unfold Lexical.deleteNamed at deleted
  split at deleted
  · injection deleted with deleted
    exact deleted ▸ h.erase _
  · split at deleted
    · injection deleted with deleted
      exact deleted ▸ h
    · cases deleted

end FiledBy

/-! ## Entries that are read -/

namespace FiledBy

variable {p : Entry → Prop} (read : ∀ value c, Chunk.ofJson value = .ok c → p (.ofChunk c))
variable {entries entries' : Keyed String Entry}
include read

theorem applyStored (h : FiledBy p entries) {stored : Json} (applied : applyStored entries stored = .ok entries') :
    FiledBy p entries' := by
  obtain ⟨name, _, applied⟩ := exists_of_bind_ok applied
  simp only [] at applied
  split at applied
  · obtain ⟨value, _, applied⟩ := exists_of_bind_ok applied
    split at applied
    next chunk made =>
      injection applied with applied
      exact applied ▸ h.put (e := .ofChunk chunk) (read _ chunk made)
    next =>
      injection applied with applied
      exact applied ▸ h
    next => cases applied
  · split at applied
    · obtain ⟨id, _, applied⟩ := exists_of_bind_ok applied
      exact h.deleteNamed applied
    · injection applied with applied
      exact applied ▸ h

theorem applyAll (h : FiledBy p entries) {changes : List Json}
    (applied : changes.foldlM Lexical.applyStored entries = .ok entries') : FiledBy p entries' := by
  induction changes generalizing entries with
  | nil =>
    injection applied with applied
    exact applied ▸ h
  | cons change changes ih =>
    rw [List.foldlM_cons] at applied
    obtain ⟨next, first, rest⟩ := exists_of_bind_ok applied
    exact ih (h.applyStored read first) rest

theorem applySegment (h : FiledBy p entries) {segment : Json} (applied : applySegment entries segment = .ok entries') :
    FiledBy p entries' := by
  obtain ⟨_, _, applied⟩ := exists_of_bind_ok applied
  obtain ⟨changes, _, applied⟩ := exists_of_bind_ok applied
  exact h.applyAll read applied

theorem applySegments (h : FiledBy p entries) {d : Disk} {directory : Path} {listed : List Json} {names : List String}
    (applied : applySegments d directory entries listed = .ok (entries', names)) : FiledBy p entries' := by
  induction listed generalizing entries names with
  | nil =>
    injection applied with applied
    exact (Prod.mk.inj applied).1 ▸ h
  | cons name listed ih =>
    cases name with
    | str name =>
      obtain ⟨segment, _, applied⟩ := exists_of_bind_ok applied
      obtain ⟨next, first, applied⟩ := exists_of_bind_ok applied
      obtain ⟨⟨last, more⟩, rest, applied⟩ := exists_of_bind_ok applied
      injection applied with applied
      obtain ⟨rfl, _⟩ := Prod.mk.inj applied
      exact ih (h.applySegment read first) rest
    | _ => cases applied

end FiledBy

end Lexical

namespace LexicalIndex

open Lexical CodeSearch.Action

variable {α : Type}

/-! ## Work on the disk -/

section
variable {C : LexicalIndex α → Prop}

theorem keeps_writeManifest (directory : Path) : Keeps C (writeManifest directory : Action (LexicalIndex α) Unit) :=
  keeps_memory fun _ _ => keeps_store _ _ _

theorem keeps_discardSegments (directory : Path) (names : List String) :
    Keeps C (discardSegments directory names : Action (LexicalIndex α) Unit) :=
  Keeps.forM fun _ => keeps_discard _

end

/-- A condition on an index that a newer snapshot leaves alone, and so does what is pending and what is known of the
segments on the disk. -/
structure Steady (C : LexicalIndex α → Prop) : Prop where
  refreshed {ix : LexicalIndex α} : C ix → C ix.refreshed
  stored {ix : LexicalIndex α} (pending : List Change) (segments : List String) (nextSegment : Int) :
    C ix → C { ix with pending, segments, nextSegment }

namespace Steady

theorem entries (m : Keyed String Entry) : Steady (α := α) fun ix => ix.entries = m := ⟨id, fun _ _ _ => id⟩

theorem and {C D : LexicalIndex α → Prop} (c : Steady C) (d : Steady D) : Steady fun ix => C ix ∧ D ix :=
  ⟨fun h => ⟨c.refreshed h.1, d.refreshed h.2⟩, fun _ _ _ h => ⟨c.stored _ _ _ h.1, d.stored _ _ _ h.2⟩⟩

variable {C : LexicalIndex α → Prop} (steady : Steady C)
include steady

theorem keeps_writeSegment (directory : Path) (changes : List Change) :
    Keeps C (writeSegment directory changes : Action (LexicalIndex α) String) := by
  refine keeps_memory fun _ _ => (keeps_store _ _ _).bind fun _ => ?_
  exact (keeps_modifyMemory fun _ h => steady.stored _ _ _ h).bind fun _ => keeps_pure _

theorem keeps_compact (directory : Path) : Keeps C (compact directory : Action (LexicalIndex α) Unit) := by
  refine keeps_memory fun ix _ => (keeps_ofExcept _).bind fun _ => ?_
  refine (steady.keeps_writeSegment _ _).bind fun name => ?_
  refine (keeps_modifyMemory fun _ h => steady.stored _ _ _ h).bind fun _ => ?_
  exact (keeps_writeManifest _).bind fun _ => keeps_discardSegments _ _

theorem keeps_commit : Keeps C (commit : Action (LexicalIndex α) Unit) := by
  refine (keeps_modifyMemory fun _ h => steady.refreshed h).bind fun _ => keeps_memory fun ix h => ?_
  split
  · exact keeps_setMemory (steady.stored _ _ _ h)
  next directory _ =>
    split
    · refine (steady.keeps_writeSegment _ _).bind fun name => ?_
      refine (keeps_modifyMemory fun _ h => steady.stored _ _ _ h).bind fun _ => ?_
      refine (keeps_writeManifest _).bind fun _ => ?_
      refine (keeps_modifyMemory fun _ h => steady.stored _ _ _ h).bind fun _ => keeps_memory fun ix _ => ?_
      refine (keeps_ofExcept _).bind fun most => ?_
      split
      · exact steady.keeps_compact _
      · exact keeps_pure _
    · exact keeps_pure _

theorem keeps_close : Keeps C (close : Action (LexicalIndex α) Unit) := by
  refine keeps_memory fun ix _ => ?_
  split
  · exact steady.keeps_commit
  · exact keeps_pure _

end Steady

/-! ## Operations -/

/-- A condition on an index that a commit leaves alone, and that stays when entries of a kind come and others go. -/
structure Closed (p : Entry → Prop) (C : LexicalIndex α → Prop) : Prop where
  steady : Steady C
  changed {ix : LexicalIndex α} {entries : Keyed String Entry} (pending : List Change) (generation : Nat) :
    (FiledBy p ix.entries → FiledBy p entries) → C ix → C { ix with entries, pending, generation }

namespace Closed

variable {p : Entry → Prop} {C : LexicalIndex α → Prop} {ix : LexicalIndex α}

theorem filedBy : Closed (α := α) p fun ix => FiledBy p ix.entries := ⟨⟨id, fun _ _ _ => id⟩, fun _ _ => id⟩

variable (closed : Closed p C)
include closed

theorem advanced (h : C ix) : C ix.advanced := closed.changed _ _ id h

/-- Also if the last of the entries makes no record, and stands there all the same. -/
theorem addAll {entries : List Entry} (fits : ∀ e ∈ entries, p e) (h : C ix) : C (addAll entries ix).2 := by
  induction entries generalizing ix with
  | nil => exact h
  | cons e entries ih =>
    have put (filed : FiledBy p ix.entries) := filed.put (fits e List.mem_cons_self)
    rw [LexicalIndex.addAll]
    split
    · exact ih (fun other ho => fits other (List.mem_cons_of_mem _ ho)) (closed.changed _ _ put h)
    · exact closed.changed _ _ put h
    · exact h

theorem deleted (h : C ix) (ids : List String) : C (ids.foldl LexicalIndex.deleted ix) := by
  obtain ⟨changes, eq, _⟩ := foldl_deleted ids ix
  rw [eq]
  exact closed.changed _ _ (fun filed => filed.eraseAll ids) h

theorem keeps_insertPrepared {entries : List Entry} (fits : ∀ e ∈ entries, p e) :
    Keeps C (insertPrepared entries : Action (LexicalIndex α) Nat) := by
  refine keeps_memory fun ix h => (keeps_setMemory (closed.addAll fits h)).bind fun _ => ?_
  refine (keeps_ofExcept _).bind fun _ => (keeps_modifyMemory fun _ h => closed.advanced h).bind fun _ => ?_
  exact closed.steady.keeps_commit.bind fun _ => keeps_pure _

theorem keeps_insertBatch {chunks : List Chunk} (fits : ∀ c ∈ chunks, ∀ e, Entry.prepare c = .ok e → p e) :
    Keeps C (insertBatch chunks : Action (LexicalIndex α) Nat) := by
  refine keeps_answer fun entries prepared => closed.keeps_insertPrepared fun e he => ?_
  obtain ⟨c, hc, made⟩ := mem_of_mapM_ok prepared e he
  exact fits c hc e made

theorem keeps_deleteSelected (q : Query) : Keeps C (deleteSelected q : Action (LexicalIndex α) Nat) := by
  unfold deleteSelected
  split
  · exact keeps_pure _
  · refine (keeps_modifyMemory fun _ h => closed.steady.refreshed h).bind fun _ => keeps_memory fun ix h => ?_
    simp only []
    split
    · exact (keeps_setMemory (closed.advanced (closed.deleted h _))).bind fun _ =>
        closed.steady.keeps_commit.bind fun _ => keeps_pure _
    · exact keeps_pure _

theorem keeps_clear : Keeps C (clear : Action (LexicalIndex α) Unit) := by
  refine keeps_memory fun old h => ?_
  refine (keeps_setMemory (closed.changed _ _ (fun _ => .empty) h)).bind fun _ => ?_
  split
  · exact keeps_pure _
  · refine (keeps_modifyMemory fun _ h => closed.steady.stored _ _ _ h).bind fun _ => ?_
    exact (keeps_writeManifest _).bind fun _ => keeps_discardSegments _ _

/-- Every operation keeps the condition, whatever becomes of its writes. -/
theorem keeps_operation (op : Operation) (fits : ∀ c ∈ op.chunks, ∀ e, Entry.prepare c = .ok e → p e) :
    Keeps C (op.run : Action (LexicalIndex α) Unit) := by
  cases op with
  | insert chunk => exact (closed.keeps_insertBatch fits).bind fun _ => keeps_pure _
  | insertBatch chunks => exact (closed.keeps_insertBatch fits).bind fun _ => keeps_pure _
  | deleteByQuery text =>
    exact (keeps_answer fun q _ => closed.keeps_deleteSelected q).bind fun _ => keeps_pure _
  | clear => exact closed.keeps_clear
  | commit => exact closed.steady.keeps_commit
  | close => exact closed.steady.keeps_close

end Closed

/-! ## Indexes that are opened -/

/-- An index that is opened is a blank one, with what the segments of its directory make of the entries if it has been
read. -/
theorem openAt_cases {directory : Option Path} {k1 b : Parameter α} {maxSegments : Except Fault Int} {unfit : Unfit}
    {d : Disk} {ix : LexicalIndex α} (opened : openAt directory k1 b maxSegments unfit d = .ok ix) :
    ix = { blank directory k1 b maxSegments with unfit } ∨
      ∃ dir listed entries segments nextSegment, applySegments d dir .empty listed = .ok (entries, segments) ∧
        ix = { blank directory k1 b maxSegments with unfit, entries, segments, nextSegment, generation := 1 } := by
  unfold openAt at opened
  split at opened
  · injection opened with opened
    exact .inl opened.symm
  next dir =>
    obtain ⟨there, _, opened⟩ := exists_of_bind_ok opened
    split at opened
    · obtain ⟨manifest, _, opened⟩ := exists_of_bind_ok opened
      obtain ⟨_, _, opened⟩ := exists_of_bind_ok opened
      obtain ⟨listed, _, opened⟩ := exists_of_bind_ok opened
      obtain ⟨_, _, opened⟩ := exists_of_bind_ok opened
      obtain ⟨next, _, opened⟩ := exists_of_bind_ok opened
      obtain ⟨⟨entries, segments⟩, applied, opened⟩ := exists_of_bind_ok opened
      injection opened with opened
      exact .inr ⟨dir, listed, entries, segments, next, applied, opened.symm⟩
    · injection opened with opened
      exact .inl opened.symm

/-- The entries of an index as it is opened come of chunks that were read, whatever its directory holds. -/
theorem filedBy_of_openAt {p : Entry → Prop} (read : ∀ value c, Chunk.ofJson value = .ok c → p (.ofChunk c))
    {directory : Option Path} {k1 b : Parameter α} {maxSegments : Except Fault Int} {unfit : Unfit} {d : Disk}
    {ix : LexicalIndex α} (opened : openAt directory k1 b maxSegments unfit d = .ok ix) :
    FiledBy p ix.entries ∧ ix.snapshot = ⟨0, []⟩ ∧ ix.unfit = unfit := by
  rcases openAt_cases opened with rfl | ⟨_, _, _, _, _, applied, rfl⟩
  · exact ⟨.empty, rfl, rfl⟩
  · exact ⟨FiledBy.empty.applySegments read applied, rfl, rfl⟩

/-- The entries of an index and of its snapshot satisfy a condition, and the parameters can be computed with. -/
structure Stocked (p : Entry → Prop) (ix : LexicalIndex α) : Prop where
  entries : FiledBy p ix.entries
  snapshot : ∀ e ∈ ix.snapshot.entries, p e
  ids : (ix.snapshot.entries.map fun e => e.chunk.id).Nodup
  fit : ix.unfit = []

namespace Stocked

variable {p : Entry → Prop} {ix : LexicalIndex α}

theorem view (h : ix.Stocked p) :
    (∀ e ∈ ix.view.entries, p e) ∧ (ix.view.entries.map fun e => e.chunk.id).Nodup := by
  rw [LexicalIndex.view]
  split
  · exact ⟨h.snapshot, h.ids⟩
  · exact ⟨h.entries.values, h.entries.nodup_ids⟩

theorem refreshed (h : ix.Stocked p) : ix.refreshed.Stocked p := ⟨h.entries, h.view.1, h.view.2, h.fit⟩

theorem closed : Closed (α := α) p (Stocked p) :=
  ⟨⟨refreshed, fun _ _ _ h => { h with }⟩, fun _ _ kept h => { h with entries := kept h.entries }⟩

theorem keeps_insertPrepared {entries : List Entry} (fits : ∀ e ∈ entries, p e) :
    Keeps (Stocked p) (insertPrepared entries : Action (LexicalIndex α) Nat) := closed.keeps_insertPrepared fits

/-- Every operation keeps an index stocked, whatever becomes of its writes. -/
theorem keeps_operation (op : Operation) (fits : ∀ c ∈ op.chunks, p (.ofChunk c)) :
    Keeps (Stocked p) (op.run : Action (LexicalIndex α) Unit) :=
  closed.keeps_operation op fun c hc _ prepared => Chunk.eq_ofChunk_of_prepare prepared ▸ fits c hc

/-- An index is stocked as it is opened, whatever its directory holds. -/
theorem of_openAt (read : ∀ c : Chunk, c.unchecked = [] → p (.ofChunk c)) {directory : Option Path}
    {k1 b : Parameter α} {maxSegments : Except Fault Int} {d : Disk}
    (opened : openAt directory k1 b maxSegments [] d = .ok ix) : ix.Stocked p := by
  obtain ⟨entries, snapshot, fit⟩ := filedBy_of_openAt (fun _ c made => read c (Chunk.checked_of_ofJson made)) opened
  exact ⟨entries, by simp [snapshot], by simp [snapshot], fit⟩

end Stocked

end LexicalIndex

end CodeSearch
