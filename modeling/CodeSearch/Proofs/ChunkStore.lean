import CodeSearch.ChunkStore
import CodeSearch.Proofs.Chunk.Reread
import CodeSearch.Proofs.Disk.Effects
/-!
# The chunk store and its file

A store takes a chunk whose id and content are texts and not blank, unless the id is taken by another content (`put_ok`).
A store is saved as a whole or not at all (`runOn_save`), and then its file holds the records of its chunks
(`SavedAt.readStored`).
-/

namespace CodeSearch.Chunk

/-! ## Chunks under their ids -/

/-- Every chunk stands under its id, and satisfies a condition. -/
def Filed (p : Chunk → Prop) (chunks : Keyed String Chunk) : Prop :=
  ∀ item ∈ chunks.items, item.1 = item.2.id ∧ p item.2

section Filed
variable {p q : Chunk → Prop} {chunks : Keyed String Chunk}

theorem Filed.empty : Filed p .empty := List.forall_mem_nil _

theorem Filed.put (h : Filed p chunks) {c : Chunk} (hc : p c) : Filed p (chunks.put c.id c) := by
  intro item hi
  rcases Keyed.mem_items_put hi with old | rfl
  · exact h item old
  · exact ⟨rfl, hc⟩

theorem Filed.putAll (h : Filed p chunks) {more : List Chunk} (hm : ∀ c ∈ more, p c) :
    Filed p (chunks.putAll (more.map fun c => (c.id, c))) := by
  induction more generalizing chunks with
  | nil => exact h
  | cons c more ih => exact ih (h.put (hm c List.mem_cons_self)) fun o ho => hm o (List.mem_cons_of_mem _ ho)

theorem Filed.mono (h : Filed p chunks) (le : ∀ c, p c → q c) : Filed q chunks :=
  fun item hi => ⟨(h item hi).1, le _ (h item hi).2⟩

theorem Filed.values (h : Filed p chunks) : ∀ c ∈ chunks.values, p c := by
  intro c hc
  obtain ⟨item, hi, rfl⟩ := List.mem_map.1 hc
  exact (h item hi).2

/-- The chunks alone tell under which ids they stand. -/
theorem Filed.items_eq (h : Filed p chunks) : chunks.values.map (fun c => (c.id, c)) = chunks.items := by
  rw [Keyed.values, List.map_map]
  conv_rhs => rw [← List.map_id chunks.items]
  exact List.map_congr_left fun item hi => Prod.ext (h item hi).1.symm rfl

/-- Each chunk stands there once. -/
theorem Filed.nodup_ids (h : Filed p chunks) : (chunks.values.map id).Nodup := by
  have same : chunks.values.map id = chunks.keys := by
    rw [Keyed.keys, ← h.items_eq, List.map_map]
    rfl
  exact same ▸ chunks.nodup_keys

end Filed

/-! ## Many records -/

theorem mapM_stored_of_shallow {chunks : List Chunk} (checked : ∀ c ∈ chunks, c.unchecked = [])
    (shallow : ∀ c ∈ chunks, c.IsShallow) : chunks.mapM stored = .ok (chunks.map json) :=
  mapM_ok fun c hc => stored_of_shallow (checked c hc) (shallow c hc)

theorem mapM_stored_ok {chunks : List Chunk} (checked : ∀ c ∈ chunks, c.unchecked = []) {records : List Json}
    (h : chunks.mapM stored = .ok records) : (∀ c ∈ chunks, c.IsShallow) ∧ records = chunks.map json := by
  have shallow : ∀ c ∈ chunks, c.IsShallow := by
    intro c hc
    obtain ⟨record, one⟩ := ok_of_mapM_ok h c hc
    exact shallow_of_stored (checked c hc) one
  refine ⟨shallow, ?_⟩
  rw [mapM_stored_of_shallow checked shallow] at h
  injection h with h
  exact h.symm

end CodeSearch.Chunk

namespace CodeSearch.ChunkStore

open CodeSearch.Action

variable {s : ChunkStore} {path : Path} {d : Disk}

/-! ## Registering -/

theorem put_of_free {c : Chunk} (storable : c.IsStorable) (free : s.conflicts c = false) :
    s.put c = .ok ⟨s.chunks.put c.id c⟩ := by
  rw [put, Chunk.checkStorable_ok.2 storable]
  cases found : s.get? c.id with
  | none => rfl
  | some old =>
    have same : old.content = c.content := by
      rw [conflicts, found] at free
      simpa using free
    simp only [bind, Except.bind, same, if_true]
    rfl

/-- A chunk whose id is taken by another content is turned away. -/
theorem put_of_conflict {c : Chunk} (storable : c.IsStorable) (taken : s.conflicts c = true) :
    ∃ reason id, s.put c = .error (.invalidChunk reason id) := by
  rw [put, Chunk.checkStorable_ok.2 storable]
  cases found : s.get? c.id with
  | none =>
    rw [conflicts, found] at taken
    cases taken
  | some old =>
    have differ : old.content ≠ c.content := by
      rw [conflicts, found] at taken
      simpa using taken
    simp only [bind, Except.bind, if_neg differ]
    exact ⟨_, _, rfl⟩

/-- A chunk is registered if nothing is wrong with its id and content, and its id is not taken. -/
theorem put_ok {c : Chunk} {t : ChunkStore} :
    s.put c = .ok t ↔ c.IsStorable ∧ s.conflicts c = false ∧ t = ⟨s.chunks.put c.id c⟩ := by
  constructor
  · intro h
    have storable : c.IsStorable := by
      obtain ⟨_, checked, _⟩ := exists_of_bind_ok h
      exact Chunk.checkStorable_ok.1 checked
    cases free : s.conflicts c with
    | true =>
      obtain ⟨reason, id, failed⟩ := put_of_conflict storable free
      rw [failed] at h
      cases h
    | false =>
      rw [put_of_free storable free] at h
      injection h with h
      exact ⟨storable, rfl, h.symm⟩
  · rintro ⟨storable, free, rfl⟩
    exact put_of_free storable free

/-- A chunk that was made of a record is registered, unless its id is taken. -/
theorem put_of_made {c : Chunk} (made : c.Made) (free : s.conflicts c = false) :
    s.put c = .ok ⟨s.chunks.put c.id c⟩ := put_of_free (Chunk.isStorable_of_made made) free

/-! ## The file -/

/-- The file of a store all of whose chunks make records. -/
def fileContent (s : ChunkStore) : Content := .text (Json.render {} (.arr (s.toList.map Chunk.json)))

/-- The records of a store can be written and read: they are values that texts can hold. -/
def HasRecords (s : ChunkStore) : Prop := ∀ c ∈ s.toList, c.json.IsData

/-- The file of a store stands at a path. -/
def SavedAt (s : ChunkStore) (path : Path) (d : Disk) : Prop := ∃ content, s.content = .ok content ∧ d.FileAt path content

theorem hasRecords_of_filed (filed : Chunk.Filed Chunk.WellRead s.chunks) : s.HasRecords :=
  fun c hc => Chunk.isData_json (filed.values c hc)

theorem isData_records (records : s.HasRecords) : (Json.arr (s.toList.map Chunk.json)).IsData := by
  rw [Json.isData_arr]
  intro record hr
  obtain ⟨c, hc, rfl⟩ := List.mem_map.1 hr
  exact records c hc

/-- If there is a file of a store, all its chunks have made records, and these are not nested too deeply. -/
theorem content_ok {content : Content} (h : s.content = .ok content) :
    content = s.fileContent ∧ ∀ c ∈ s.toList, c.json.depth ≤ Chunk.metadataDepth + 2 := by
  obtain ⟨records, made, done⟩ := exists_of_bind_ok h
  have each : ∀ c ∈ s.toList, ∀ record, c.stored = .ok record → record = c.json :=
    fun c _ record stored => (Chunk.depth_stored stored).1
  rw [eq_map_of_mapM_ok each made] at done
  injection done with done
  refine ⟨done.symm, fun c hc => ?_⟩
  obtain ⟨record, stored⟩ := ok_of_mapM_ok made c hc
  exact (Chunk.depth_stored stored).2

theorem content_of_shallow (checked : ∀ c ∈ s.toList, c.unchecked = []) (shallow : ∀ c ∈ s.toList, c.IsShallow) :
    s.content = .ok s.fileContent := by
  rw [content, Chunk.mapM_stored_of_shallow checked shallow]
  rfl

theorem SavedAt.fileAt (h : s.SavedAt path d) : d.FileAt path s.fileContent := by
  obtain ⟨content, made, there⟩ := h
  obtain ⟨rfl, _⟩ := content_ok made
  exact there

theorem SavedAt.readStored (h : s.SavedAt path d) (records : s.HasRecords) :
    d.readStored .loadChunks path = .ok (.arr (s.toList.map Chunk.json)) := by
  obtain ⟨content, made, there⟩ := h
  obtain ⟨rfl, shallow⟩ := content_ok made
  refine Disk.readStored_render _ (isData_records records) ?_ there
  have items : Json.itemsDepth (s.toList.map Chunk.json) ≤ Chunk.metadataDepth + 2 := by
    refine Json.itemsDepth_le fun record hr => ?_
    obtain ⟨c, hc, rfl⟩ := List.mem_map.1 hr
    exact shallow c hc
  rw [Chunk.metadataDepth] at items
  rw [Json.depth, Json.nestingLimit]
  omega

/-- A store is saved as a whole, or its file stays as it was. A fault that keeps it from being saved is one of the
storage, if there are records of all chunks that can be written. -/
theorem runOn_save (records : s.HasRecords) (path : Path) (d : Disk) :
    ∃ answer d', (save path).runOn s d = (answer, s, d') ∧ Disk.Changed path.Written path.parent.Way d d' ∧
      (answer = .ok () → s.SavedAt path d') ∧
      (path.IsFile → .cut ∉ d.fates → s.content = .ok s.fileContent → Disk.checkContent s.fileContent = .ok () →
        OnlyStorage answer) := by
  rw [save, runOn_bind_ok (runOn_memory _ _)]
  cases made : s.content with
  | error fault =>
    refine ⟨.error fault, d, runOn_bind_error (runOn_ofExcept _ s d) _, .refl, nofun, fun _ _ whole => ?_⟩
    cases whole
  | ok content =>
    have same := (content_ok made).1
    have kept : content.IsKept := same ▸ isKept_render (isData_records records)
    rw [runOn_bind_ok (runOn_ofExcept _ s d)]
    rcases runOn_store .saveChunks path kept s d with ⟨d', done, change, there⟩ | ⟨fault, d', failed, change, storage⟩
    · exact ⟨.ok (), d', done, change, fun _ => ⟨content, made, there⟩, fun _ _ _ _ => nofun⟩
    · refine ⟨.error fault, d', failed, change.mono (fun _ => Or.inl) fun _ => id, nofun, ?_⟩
      rintro ⟨name, sound, sound'⟩ uncut _ written _ ⟨⟩
      exact storage name sound sound' uncut (same ▸ written)

end CodeSearch.ChunkStore
