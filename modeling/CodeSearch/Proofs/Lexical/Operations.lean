import CodeSearch.Proofs.Chunk.Checks
import CodeSearch.Proofs.Lexical.Commit
/-!
# The operations of a lexical index

`Operation.result` says what an operation makes of the entries. Each operation changes the entries and what is
pending alike, and then commits. `Operation.outcome` says what becomes of the index and its directory when an
operation runs, to its end or not.
-/

namespace CodeSearch.Lexical

/-! ## Operations -/

/-- What can be done to a lexical index. -/
inductive Operation where
  | insert (chunk : Chunk)
  | insertBatch (chunks : List Chunk)
  | deleteByQuery (text : String)
  | clear
  | commit
  | close

namespace Operation

/-- Do it. -/
def run {α : Type} : Operation → Action (LexicalIndex α) Unit
  | .insert chunk => LexicalIndex.insert chunk
  | .insertBatch chunks => do let _ ← LexicalIndex.insertBatch chunks
  | .deleteByQuery text => do let _ ← LexicalIndex.deleteByQuery text
  | .clear => LexicalIndex.clear
  | .commit => LexicalIndex.commit
  | .close => LexicalIndex.close

/-- The entries after it. -/
def result : Operation → Keyed String Entry → Keyed String Entry
  | .insert chunk, entries => entries.put chunk.id (.ofChunk chunk)
  | .insertBatch chunks, entries => entries.putAll (chunks.map fun c => (c.id, .ofChunk c))
  | .deleteByQuery text, entries =>
    match Query.parse text with
    | .ok q => if q.isEmpty then entries else entries.filter fun item => !q.selects item.2.tokens
    | .error _ => entries
  | .clear, _ => .empty
  | .commit, entries => entries
  | .close, entries => entries

/-- The chunks that it inserts. -/
def chunks : Operation → List Chunk
  | .insert chunk => [chunk]
  | .insertBatch chunks => chunks
  | _ => []

end Operation

/-! ## Entries -/

/-- The entries are those of chunks that were read from data, each under the id of its chunk. -/
def AllRead (entries : Keyed String Entry) : Prop :=
  ∀ item ∈ entries.items, item = (item.2.chunk.id, Entry.ofChunk item.2.chunk) ∧ item.2.chunk.WellRead

/-- The lines of all chunks are in order. -/
def AllInOrder (entries : Keyed String Entry) : Prop := ∀ item ∈ entries.items, item.2.chunk.InOrder

variable {entries : Keyed String Entry} {changes : List Change} {dir : Path} {d : Disk} {log : Log} {bound : Nat}

theorem AllRead.empty : AllRead .empty := List.forall_mem_nil _

theorem AllRead.wellRead (h : AllRead entries) : ∀ e ∈ entries.values, e.chunk.WellRead := by
  intro e he
  obtain ⟨item, hi, rfl⟩ := List.mem_map.1 he
  exact (h item hi).2

theorem AllRead.filed (h : AllRead entries) : ∀ item ∈ entries.items, item.1 = item.2.chunk.id :=
  fun item hi => congrArg Prod.fst (h item hi).1

theorem AllRead.put (h : AllRead entries) {c : Chunk} (read : c.WellRead) : AllRead (entries.put c.id (.ofChunk c)) := by
  intro item hi
  rcases Keyed.mem_items_put hi with old | rfl
  · exact h item old
  · exact ⟨rfl, read⟩

theorem AllRead.putAll (h : AllRead entries) {chunks : List Chunk} (read : ∀ c ∈ chunks, c.WellRead) :
    AllRead (entries.putAll (chunks.map fun c => (c.id, .ofChunk c))) := by
  induction chunks generalizing entries with
  | nil => exact h
  | cons c chunks ih =>
    exact ih (h.put (read c List.mem_cons_self)) fun other ho => read other (List.mem_cons_of_mem _ ho)

theorem AllRead.erase (h : AllRead entries) (id : String) : AllRead (entries.erase id) :=
  fun item hi => h item (Keyed.mem_items_erase hi)

theorem AllRead.apply (h : AllRead entries) {change : Change} (storable : change.IsStorable) :
    AllRead (change.apply entries) := by
  cases change with
  | add c =>
    rw [Change.apply]
    split
    · exact h.put storable.1
    · exact h
  | delete id =>
    obtain ⟨s, rfl, _⟩ := storable
    exact h.erase s

theorem AllRead.replay (h : AllRead entries) (storable : ∀ change ∈ changes, change.IsStorable) :
    AllRead (replay changes entries) := by
  induction changes generalizing entries with
  | nil => exact h
  | cons change changes ih =>
    exact ih (h.apply (storable change List.mem_cons_self)) fun o ho => storable o (List.mem_cons_of_mem _ ho)

theorem AllInOrder.apply (h : AllInOrder entries) (change : Change) : AllInOrder (change.apply entries) := by
  cases change with
  | add c =>
    rw [Change.apply]
    split
    next order =>
      intro item hi
      rcases Keyed.mem_items_put hi with old | rfl
      · exact h item old
      · exact order
    next => exact h
  | delete id =>
    cases id with
    | str s => exact fun item hi => h item (Keyed.mem_items_erase hi)
    | _ => exact h

theorem AllInOrder.replay (h : AllInOrder entries) (changes : List Change) : AllInOrder (replay changes entries) := by
  induction changes generalizing entries with
  | nil => exact h
  | cons change changes ih => exact ih (h.apply change)

/-- What a log that can be read makes. -/
theorem Log.allRead (storable : log.IsStorable) : AllRead log.entries := by
  have all : ∀ {entries : Keyed String Entry}, AllRead entries → AllRead (log.replayed entries) := by
    induction log with
    | nil => exact id
    | cons segment log ih =>
      intro entries h
      exact ih (fun other ho => storable other (List.mem_cons_of_mem _ ho))
        (h.replay (storable segment List.mem_cons_self))
  exact all AllRead.empty

theorem Log.allInOrder (log : Log) : AllInOrder log.entries := by
  have all : ∀ {entries : Keyed String Entry}, AllInOrder entries → AllInOrder (log.replayed entries) := by
    induction log with
    | nil => exact id
    | cons segment log ih => exact fun h => ih (h.replay segment.2)
  exact all (List.forall_mem_nil _)

theorem Log.entries_append (log : Log) (number : Nat) (changes : List Change) :
    Log.entries (log ++ [(number, changes)]) = replay changes log.entries := Log.replayed_append log _ _

/-- Adding chunks that are in order is putting their entries. -/
theorem replay_adds {chunks : List Chunk} (order : ∀ c ∈ chunks, c.InOrder) (entries : Keyed String Entry) :
    replay (chunks.map Change.add) entries = entries.putAll (chunks.map fun c => (c.id, .ofChunk c)) := by
  induction chunks generalizing entries with
  | nil => rfl
  | cons c chunks ih =>
    have first : (Change.add c).apply entries = entries.put c.id (.ofChunk c) := if_pos (order c List.mem_cons_self)
    rw [List.map_cons, replay, List.foldl_cons, first]
    exact ih (fun other ho => order other (List.mem_cons_of_mem _ ho)) _

end CodeSearch.Lexical

namespace CodeSearch.LexicalIndex

open Lexical CodeSearch.Action

variable {α : Type} {ix : LexicalIndex α}

/-- The changes that a compaction writes make the entries anew. -/
theorem replay_asChanges (read : AllRead ix.entries) (order : AllInOrder ix.entries) :
    replay ix.asChanges .empty = ix.entries := by
  have changes : ix.asChanges = (ix.entries.values.map Entry.chunk).map Change.add := by
    rw [asChanges, List.map_map]
    rfl
  have pairs : (ix.entries.values.map Entry.chunk).map (fun c => (c.id, Entry.ofChunk c)) = ix.entries.items := by
    rw [Keyed.values, List.map_map, List.map_map]
    conv_rhs => rw [← List.map_id ix.entries.items]
    exact List.map_congr_left fun item hi => (read item hi).1.symm
  rw [changes, replay_adds, pairs]
  · exact Keyed.ofList_items ix.entries
  · intro c hc
    obtain ⟨e, he, rfl⟩ := List.mem_map.1 hc
    obtain ⟨item, hi, rfl⟩ := List.mem_map.1 he
    exact order item hi

/-! ## Changes in memory -/

/-- The index with other entries, and more changes pending. -/
def changed (ix : LexicalIndex α) (entries : Keyed String Entry) (changes : List Change) : LexicalIndex α :=
  { ix with entries, pending := ix.pending ++ changes }

/-- Entries are added with their changes up to the first that makes no record, which is added without one. -/
theorem addAll_eq {chunks : List Chunk} (checked : ∀ c ∈ chunks, c.unchecked = []) (ix : LexicalIndex α) :
    ∃ answer added written,
      addAll (chunks.map Entry.ofChunk) ix
        = (answer, ix.changed (ix.entries.putAll (added.map fun c => (c.id, .ofChunk c))) (written.map .add)) ∧
      (∀ c ∈ added, c ∈ chunks) ∧ (∀ c ∈ written, c ∈ chunks ∧ c.IsShallow) ∧
      (answer = .ok () ↔ ∀ c ∈ chunks, c.IsShallow) ∧ (answer = .ok () → added = chunks ∧ written = chunks) := by
  induction chunks generalizing ix with
  | nil =>
    refine ⟨.ok (), [], [], ?_, by simp, by simp, by simp, fun _ => ⟨rfl, rfl⟩⟩
    rw [List.map_nil, addAll, changed]
    simp
  | cons c chunks ih =>
    have first := checked c List.mem_cons_self
    have chunk : (Entry.ofChunk c).chunk = c := rfl
    rw [List.map_cons, addAll, chunk, Chunk.checkId_of_checked first, Chunk.stored_of_checked first]
    by_cases shallow : c.IsShallow
    · rw [if_pos shallow]
      obtain ⟨answer, added, written, eq, mem, mem', iff, all⟩ :=
        ih (fun other ho => checked other (List.mem_cons_of_mem _ ho)) (ix.added (.ofChunk c))
      refine ⟨answer, c :: added, c :: written, eq.trans ?_, ?_, ?_, ?_, ?_⟩
      · simp only [changed, LexicalIndex.added, chunk, List.map_cons, Keyed.putAll_cons, List.append_assoc,
          List.singleton_append]
      · exact List.forall_mem_cons.2 ⟨List.mem_cons_self, fun o ho => List.mem_cons_of_mem _ (mem o ho)⟩
      · refine List.forall_mem_cons.2 ⟨⟨List.mem_cons_self, shallow⟩, fun o ho => ?_⟩
        exact ⟨List.mem_cons_of_mem _ (mem' o ho).1, (mem' o ho).2⟩
      · rw [iff, List.forall_mem_cons]
        exact ⟨fun rest => ⟨shallow, rest⟩, And.right⟩
      · intro done
        obtain ⟨rfl, rfl⟩ := all done
        exact ⟨rfl, rfl⟩
    · rw [if_neg shallow]
      refine ⟨.error (.badValue .other), [c], [], ?_, by simp, by simp, ?_, nofun⟩
      · simp [changed, Keyed.putAll]
      · simp [shallow]

/-- Entries whose chunks can stand in the index are all added, with a change for each. -/
theorem addAll_of_enters {entries : List Entry} (good : ∀ e ∈ entries, e.chunk.Enters) (ix : LexicalIndex α) :
    addAll entries ix = (.ok (), ix.changed (ix.entries.putAll (entries.map fun e => (e.chunk.id, e)))
      (entries.map fun e => .add e.chunk)) := by
  induction entries generalizing ix with
  | nil => simp [addAll, changed]
  | cons e entries ih =>
    obtain ⟨named, record, recorded⟩ := good e List.mem_cons_self
    rw [addAll, named, recorded]
    refine (ih (fun other ho => good other (List.mem_cons_of_mem _ ho)) (ix.added e)).trans ?_
    simp only [changed, added, List.map_cons, Keyed.putAll_cons, List.append_assoc, List.singleton_append]

/-- Chunks whose ids are texts and of which records can be made are all added. -/
theorem addAll_of_shallow {chunks : List Chunk} (good : ∀ c ∈ chunks, c.unchecked = [] ∧ c.IsShallow)
    (ix : LexicalIndex α) :
    addAll (chunks.map Entry.ofChunk) ix
      = (.ok (), ix.changed (ix.entries.putAll (chunks.map fun c => (c.id, .ofChunk c))) (chunks.map .add)) := by
  have enters : ∀ e ∈ chunks.map Entry.ofChunk, e.chunk.Enters :=
    List.forall_mem_map.2 fun c hc => Chunk.enters_of_shallow (good c hc).1 (good c hc).2
  rw [addAll_of_enters enters, List.map_map, List.map_map]
  rfl

theorem prepareAll_of_wellRead {chunks : List Chunk} (read : ∀ c ∈ chunks, c.WellRead) :
    chunks.mapM Entry.prepare = .ok (chunks.map Entry.ofChunk) :=
  mapM_ok fun c hc => Chunk.prepare_of_made (read c hc).made

/-- Deleting ids takes their entries out, with a change for each that was there, and leaves the rest of the index alone. -/
theorem foldl_deleted (ids : List String) (ix : LexicalIndex α) :
    ∃ changes, ids.foldl deleted ix = ix.changed (ids.foldl Keyed.erase ix.entries) changes ∧
      (AllRead ix.entries → (∀ change ∈ changes, change.IsStorable) ∧
        replay changes ix.entries = ids.foldl Keyed.erase ix.entries) := by
  induction ids generalizing ix with
  | nil => exact ⟨[], by rw [changed, List.append_nil]; rfl, fun _ => ⟨List.forall_mem_nil _, rfl⟩⟩
  | cons id ids ih =>
    rw [List.foldl_cons, List.foldl_cons, deleted]
    cases found : ix.entries.get? id with
    | none =>
      rw [Keyed.erase_of_get?_eq_none found]
      exact ih ix
    | some e =>
      obtain ⟨changes, eq, replayed⟩ :=
        ih { ix with entries := ix.entries.erase id, pending := ix.pending ++ [.delete e.chunk.idValue] }
      refine ⟨.delete e.chunk.idValue :: changes, ?_, fun read => ?_⟩
      · simp only [eq, changed, List.append_assoc, List.singleton_append]
      · obtain ⟨name, wellRead⟩ := read (id, e) (Keyed.get?_eq_some.1 found)
        have idName : e.chunk.id = id := (congrArg Prod.fst name).symm
        have value : e.chunk.idValue = .str id := by rw [Chunk.idValue_of_checked wellRead.checked, idName]
        obtain ⟨storable, erased⟩ := replayed (read.erase id)
        rw [value]
        exact ⟨List.forall_mem_cons.2 ⟨⟨id, rfl, idName ▸ wellRead.id⟩, storable⟩, erased⟩

/-- If the entries come back from their records, so do the entries without those that are deleted. -/
theorem foldl_deleted_of_allRead (ids : List String) (ix : LexicalIndex α) (read : AllRead ix.entries) :
    ∃ changes, ids.foldl deleted ix = ix.changed (replay changes ix.entries) changes ∧
      (∀ change ∈ changes, change.IsStorable) ∧ replay changes ix.entries = ids.foldl Keyed.erase ix.entries := by
  obtain ⟨changes, eq, replayed⟩ := foldl_deleted ids ix
  obtain ⟨storable, erased⟩ := replayed read
  exact ⟨changes, erased ▸ eq, storable, erased⟩

/-- Deleting the ids of the entries that satisfy a condition leaves the others. -/
theorem foldl_erase {entries : Keyed String Entry} (filed : ∀ item ∈ entries.items, item.1 = item.2.chunk.id)
    (p : Entry → Bool) :
    ((entries.values.filter p).map fun e => e.chunk.id).foldl Keyed.erase entries
      = entries.filter fun item => !p item.2 := by
  rw [Keyed.foldl_erase]
  apply Keyed.ext_items
  refine List.filter_congr fun item hi => ?_
  have iff : item.1 ∈ (entries.values.filter p).map (fun e => e.chunk.id) ↔ p item.2 = true := by
    constructor
    · intro there
      obtain ⟨e, he, same⟩ := List.mem_map.1 there
      obtain ⟨he, selected⟩ := List.mem_filter.1 he
      obtain ⟨other, ho, rfl⟩ := List.mem_map.1 he
      -- an entry of the same id is the same, for entries are filed under their ids
      obtain rfl : other = item := List.inj_on_of_nodup_map entries.nodup_keys ho hi ((filed other ho).trans same)
      exact selected
    · intro selected
      exact List.mem_map.2 ⟨item.2, List.mem_filter.2 ⟨List.mem_map_of_mem hi, selected⟩, (filed item hi).symm⟩
  simp only [iff]
  cases p item.2 <;> rfl

end CodeSearch.LexicalIndex
