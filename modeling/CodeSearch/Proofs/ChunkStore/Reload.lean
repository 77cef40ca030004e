import CodeSearch.Proofs.ChunkStore.Runs
/-!
# A saved store, loaded into another one

A load makes a chunk of every record again, and registers those whose ids are not taken by other contents. `Reloads` says
what becomes of a store into which a saved one is loaded, and `runOn_load` that this is so. Chunks in which nothing was set
without a check are all made again, so a store of such chunks is loaded into an empty one as it was.
-/

namespace CodeSearch.ChunkStore

open CodeSearch.Action

variable {s t : ChunkStore} {path : Path} {d d' : Disk}

/-! ## Registering saved chunks -/

/-- The chunk that is registered for a saved one: what its record makes, if its id is not taken by another content. -/
def takes (t : ChunkStore) (c : Chunk) : Option Chunk := if t.conflicts c then none else c.reread?

/-- The chunks that are registered for saved ones, under their ids. -/
def taken (t : ChunkStore) (chunks : List Chunk) : List (String × Chunk) :=
  chunks.filterMap fun c => (t.takes c).map fun again => (c.id, again)

theorem runOn_loadRecord {c : Chunk} (storable : c.IsStorable) (t : ChunkStore) (d : Disk) :
    (loadRecord c.json).runOn t d = match t.takes c with
      | some again => (.ok 1, ⟨t.chunks.put c.id again⟩, d)
      | none => (.ok 0, t, d) := by
  rw [loadRecord, runOn_bind_ok (runOn_memory _ _), takes]
  rcases Chunk.ofJson_json_cases c with ⟨again, made⟩ | ⟨reason, id, refused⟩
  · have back := Chunk.reread?_eq_some.2 made
    obtain ⟨sameId, sameContent, storable'⟩ := Chunk.reread?_storable storable back
    have conflict : t.conflicts again = t.conflicts c := by rw [conflicts, conflicts, sameId, sameContent]
    rw [made, back, ok_bind]
    cases taken : t.conflicts c with
    | true =>
      obtain ⟨reason, id, failed⟩ := put_of_conflict storable' (conflict.trans taken)
      rw [failed]
      rfl
    | false =>
      rw [put_of_free storable' (conflict.trans taken), sameId]
      rfl
  · have none : c.reread? = none := by
      rw [Chunk.reread?, refused]
      rfl
    rw [refused, none, ite_self]
    rfl

/-- Saved chunks are registered one after the other. -/
theorem runOn_rereadRecords {chunks : List Chunk} (storable : ∀ c ∈ chunks, c.IsStorable)
    (once : (chunks.map Chunk.id).Nodup) (t : ChunkStore) (d : Disk) :
    ∃ counts : List Nat, counts.sum = (t.taken chunks).length ∧
      ((chunks.map Chunk.json).mapM loadRecord).runOn t d = (.ok counts, ⟨t.chunks.putAll (t.taken chunks)⟩, d) := by
  induction chunks generalizing t with
  | nil => exact ⟨[], rfl, rfl⟩
  | cons c chunks ih =>
    rw [List.map_cons, List.nodup_cons] at once
    have first := runOn_loadRecord (storable c List.mem_cons_self) t d
    have others := ih (fun other ho => storable other (List.mem_cons_of_mem c ho)) once.2
    rw [List.map_cons, List.mapM_cons, taken, List.filterMap_cons]
    cases takes : t.takes c with
    | none =>
      obtain ⟨counts, sum, rest⟩ := others t
      rw [takes] at first
      refine ⟨0 :: counts, by rw [List.sum_cons, Nat.zero_add, sum]; rfl, ?_⟩
      rw [runOn_bind_ok first, runOn_bind_ok rest]
      rfl
    | some again =>
      obtain ⟨counts, sum, rest⟩ := others ⟨t.chunks.put c.id again⟩
      rw [takes] at first
      have same : taken ⟨t.chunks.put c.id again⟩ chunks = t.taken chunks := by
        refine List.filterMap_congr fun other ho => ?_
        have apart : other.id ≠ c.id := fun same => once.1 (same ▸ List.mem_map_of_mem ho)
        have conflict : conflicts ⟨t.chunks.put c.id again⟩ other = t.conflicts other := by
          rw [conflicts, get?, Keyed.get?_put, if_neg apart]
          rfl
        rw [ChunkStore.takes, conflict]
        rfl
      rw [same] at sum rest
      refine ⟨1 :: counts, by rw [List.sum_cons, sum, Nat.add_comm]; rfl, ?_⟩
      rw [runOn_bind_ok first, runOn_bind_ok rest]
      rfl

/-! ## The loaded store -/

/-- What becomes of a store into which a saved one is loaded: those of the saved chunks are registered that are made
again and whose ids are not taken by other contents, the new ones behind the old, and the answer is their number. -/
structure Reloads (saved before : ChunkStore) (count : Nat) (after : ChunkStore) : Prop where
  count : count = (before.taken saved.toList).length
  order : after.chunks.keys = before.chunks.keys ++
    ((before.taken saved.toList).map Prod.fst).filter fun id => id ∉ before.chunks.keys
  registered : ∀ id again, (id, again) ∈ before.taken saved.toList → after.get? id = some again
  others : ∀ id, id ∉ (before.taken saved.toList).map Prod.fst → after.get? id = before.get? id

theorem map_fst_taken_sublist (t : ChunkStore) (chunks : List Chunk) :
    ((t.taken chunks).map Prod.fst).Sublist (chunks.map Chunk.id) := by
  induction chunks with
  | nil => exact .slnil
  | cons c chunks ih =>
    rw [taken, List.filterMap_cons, List.map_cons]
    cases t.takes c with
    | none => exact ih.cons _
    | some again => exact ih.cons_cons _

theorem taken_reloads (sound : s.Sound) (t : ChunkStore) :
    s.Reloads t (t.taken s.toList).length ⟨t.chunks.putAll (t.taken s.toList)⟩ := by
  have once : ((t.taken s.toList).map Prod.fst).Nodup :=
    (Chunk.Filed.nodup_ids sound).sublist (map_fst_taken_sublist t s.toList)
  exact ⟨rfl, Keyed.keys_putAll once _, fun id again => Keyed.get?_putAll_of_mem once _,
    fun id gone => Keyed.get?_putAll_of_not_mem gone _⟩

/-- A load of a saved store registers these, and reports how many they are. -/
theorem runOn_load (sound : s.Sound) (records : s.HasRecords) (there : s.SavedAt path d) (t : ChunkStore) :
    (load path).runOn t d = (.ok (t.taken s.toList).length, ⟨t.chunks.putAll (t.taken s.toList)⟩, d) := by
  have elements : (Json.arr (s.toList.map Chunk.json)).elements = .ok (s.toList.map Chunk.json) := rfl
  have storable : ∀ c ∈ s.toList, c.IsStorable := Chunk.Filed.values sound
  obtain ⟨counts, sum, registered⟩ := runOn_rereadRecords storable (Chunk.Filed.nodup_ids sound) t d
  rw [load, runOn_bind_ok (runOn_disk _ _), there.readStored records, runOn_bind_ok (runOn_ofExcept _ _ _), elements,
    runOn_bind_ok (runOn_ofExcept _ _ _), runOn_bind_ok registered, runOn_pure, sum]

/-- Where nothing was set without a check and the lines are in order, an empty store takes all chunks. -/
theorem taken_empty {chunks : List Chunk} (good : ∀ c ∈ chunks, c.finite.WellRead ∧ c.InOrder) :
    empty.taken chunks = chunks.map fun c => (c.id, c.finite) := by
  rw [taken, ← List.filterMap_eq_map]
  refine List.filterMap_congr fun c hc => ?_
  obtain ⟨read, order⟩ := good c hc
  rw [takes, if_neg (by simp [conflicts, get?, empty]), Chunk.reread?_of_finite read order]
  rfl

/-- So an empty store becomes the saved one, with null in the place of numbers that are not finite. -/
theorem runOn_load_empty (sound : s.Sound) (there : s.SavedAt path d)
    (good : ∀ c ∈ s.toList, c.finite.WellRead ∧ c.InOrder) :
    (load path).runOn empty d = (.ok s.size, ⟨s.chunks.mapValues Chunk.finite⟩, d) := by
  have records : s.HasRecords := fun c hc => by
    rw [← Chunk.json_finite]
    exact Chunk.isData_json (good c hc).1
  have pairs : s.toList.map (fun c => (c.id, c.finite)) = s.chunks.items.map fun item => (item.1, item.2.finite) := by
    rw [toList, ← Chunk.Filed.items_eq sound, List.map_map]
    rfl
  have again : empty.chunks.putAll (s.toList.map fun c => (c.id, c.finite)) = s.chunks.mapValues Chunk.finite := by
    rw [pairs]
    exact (Keyed.mapValues_putAll Chunk.finite .empty s.chunks.items).symm.trans
      (congrArg _ (Keyed.ofList_items s.chunks))
  have size : (s.toList.map fun c => (c.id, c.finite)).length = s.size := by
    rw [pairs, List.length_map]
    rfl
  rw [runOn_load sound records there, taken_empty good, again, size]

/-- The file of a store is opened as the store. -/
theorem openAt_of_saved (filed : Chunk.Filed (fun c => c.WellRead ∧ c.InOrder) s.chunks) (there : s.SavedAt path d) :
    openAt (some path) d = .ok s := by
  have sound : s.Sound := filed.mono fun _ good => Chunk.isStorable_of_made good.1.made
  have same : ∀ c ∈ s.toList, c.finite = c := fun c hc => Chunk.finite_of_wellRead (filed.values c hc).1
  have good : ∀ c ∈ s.toList, c.finite.WellRead ∧ c.InOrder := fun c hc => by
    rw [same c hc]
    exact filed.values c hc
  have loaded := runOn_load_empty sound there good
  rw [Keyed.mapValues_eq_self same] at loaded
  simp only [openAt, there.fileAt.holds, bind, Except.bind, loaded]
  rfl

/-- What a run of operations leaves of a store that was empty: every chunk stands under its id, and neither its id nor
its content is blank; what stands under an id keeps its content until the id is taken out; a chunk that is turned away
changes nothing; and a load of what a save has written registers those of the saved chunks that are made again from their
records and whose ids are not taken by other contents, which are all of them where the store is empty and nothing was set
without a check. -/
theorem Run.integrity {os : List Operation} (run : Run os empty s) :
    s.Sound ∧
    (∀ {more t id content}, Run more s t → (∀ o ∈ more, ¬ o.Removes id) → s.Holds id content → t.Holds id content) ∧
    (∀ {c d fault t d'}, (Operation.put c).run.runOn s d = (.error fault, t, d') → t = s ∧ d' = d) ∧
    (s.HasRecords → ∀ path,
      (∀ d answer t d', (save path).runOn s d = (answer, t, d') → t = s ∧ (answer = .ok () → s.SavedAt path d')) ∧
      ∀ d, s.SavedAt path d →
        (∀ t, ∃ count t', (load path).runOn t d = (.ok count, t', d) ∧ s.Reloads t count t') ∧
        ((∀ c ∈ s.toList, c.finite.WellRead ∧ c.InOrder) →
          (load path).runOn empty d = (.ok s.size, ⟨s.chunks.mapValues Chunk.finite⟩, d))) ∧
    (∀ c : Chunk, c.WellRead → c.finite = c ∧ (c.InOrder → c.reread? = some c)) := by
  have sound : s.Sound := run.sound Chunk.Filed.empty
  refine ⟨sound, fun more stays held => more.content stays held, runOn_put_error, fun records path => ⟨?_, ?_⟩, ?_⟩
  · intro d answer t d' saved
    obtain ⟨_, _, saved', _, there, _⟩ := runOn_save records path d
    rw [saved'] at saved
    cases saved
    exact ⟨rfl, there⟩
  · intro d there
    exact ⟨fun t => ⟨_, _, runOn_load sound records there t, taken_reloads sound t⟩, runOn_load_empty sound there⟩
  · intro c read
    have same := Chunk.finite_of_wellRead read
    refine ⟨same, fun order => ?_⟩
    have again := Chunk.reread?_of_finite (same.symm ▸ read) order
    rwa [same] at again

/-! ## A chunk that is not made again -/

section Sample

/-- A chunk whose name was set to a number without a check. -/
def numbered : Chunk := (Chunk.plain "b" "beta").setField "qualified_name" (.int 5)

/-- Two chunks, and between them one that is not made again. -/
def sampleChunks : List Chunk := [.plain "a" "alpha", numbered, .plain "c" "gamma"]

def sample : ChunkStore := ⟨.ofList (sampleChunks.map fun c => (c.id, c))⟩

/-- A store of that one alone. -/
def misfit : ChunkStore := ⟨.put .empty "b" numbered⟩

/-- A disk with the file of a store. -/
def diskOf (s : ChunkStore) : Disk := { nodes := .ofList [(⟨"", ["chunks.json"]⟩, .file s.fileContent)] }

theorem isData_plain {id content : String} (idAscii : ∀ c ∈ id.toList, c.toNat < 128)
    (contentAscii : ∀ c ∈ content.toList, c.toNat < 128) (idFilled : Text.allBlank id = false)
    (contentFilled : Text.allBlank content = false) : (Chunk.plain id content).json.IsData :=
  Chunk.isData_json (Chunk.wellRead_plain (.of_ascii idAscii) idFilled (.of_ascii contentAscii) contentFilled)

theorem isData_numbered : numbered.json.IsData := by
  have plain : (Chunk.plain "b" "beta").json.IsData :=
    isData_plain (by decide) (by decide) (by decide +kernel) (by decide +kernel)
  rw [Chunk.json, Chunk.record_of_checked rfl] at plain
  have number : (Json.int 5).IsData := Chunk.isData_nat (Record.hasDigits_of_lt (k := 1) (by decide) (by decide) (by decide))
  exact plain.set (.of_ascii (by decide) : Text.IsKept "qualified_name".toList) number

theorem toList_sample : sample.toList = sampleChunks := rfl

theorem sound_sample : sample.Sound := by
  refine Chunk.Filed.putAll .empty fun c hc => Chunk.checkStorable_ok.1 (eq_ok_of_toBool ?_)
  have all : ∀ c ∈ sampleChunks, c.checkStorable.toBool = true := by decide +kernel
  exact all c hc

theorem hasRecords_sample : sample.HasRecords := by
  rw [HasRecords, toList_sample]
  refine List.forall_mem_cons.2 ⟨?_, List.forall_mem_cons.2 ⟨isData_numbered, List.forall_mem_singleton.2 ?_⟩⟩
  · exact isData_plain (by decide) (by decide) (by decide +kernel) (by decide +kernel)
  · exact isData_plain (by decide) (by decide) (by decide +kernel) (by decide +kernel)

theorem savedAt_diskOf (made : s.content.toBool = true) : s.SavedAt ⟨"", ["chunks.json"]⟩ (diskOf s) := by
  have place : Path.place ⟨"", ["chunks.json"]⟩ = ⟨"", ["chunks.json"]⟩ := by decide +kernel
  cases content : s.content with
  | error fault =>
    rw [content] at made
    cases made
  | ok content' =>
    obtain ⟨rfl, _⟩ := content_ok content
    -- Only the root is asked for, and that is there on every disk.
    have root : Disk.DirectoriesStay .blank (diskOf s) := by
      intro q there
      rw [Disk.nodeAt?] at there ⊢
      split at there
      next top => rw [if_pos top]
      next => cases there
    have found : (diskOf s).locate ⟨"", ["chunks.json"]⟩ = .ok ⟨"", ["chunks.json"]⟩ :=
      Disk.locate_of_directories root (eq_ok_of_toOption (by decide +kernel))
    exact ⟨_, content, place.symm ▸ found, by rw [place]; rfl⟩

/-- Of the two chunks that are made again, only the first has an id that is not taken. -/
theorem Run.integrity_sample : (∃ os, Run os empty sample) ∧
    ∃ t', (load ⟨"", ["chunks.json"]⟩).runOn ⟨.put .empty "c" (.plain "c" "delta")⟩ (diskOf sample)
        = (.ok 1, t', diskOf sample) ∧ t'.chunks.keys = ["c", "a"] := by
  obtain ⟨os, run⟩ := sound_sample.reached
  obtain ⟨_, _, _, reload, _⟩ := Run.integrity run
  have there : sample.SavedAt ⟨"", ["chunks.json"]⟩ (diskOf sample) := savedAt_diskOf (by decide +kernel)
  obtain ⟨_, loads⟩ := reload hasRecords_sample ⟨"", ["chunks.json"]⟩
  obtain ⟨count, t', loaded, reloads⟩ := (loads (diskOf sample) there).1 ⟨.put .empty "c" (.plain "c" "delta")⟩
  have one : count = 1 := reloads.count.trans (by decide +kernel)
  subst one
  exact ⟨⟨os, run⟩, t', loaded, reloads.order.trans (by decide +kernel)⟩

/-- A store takes the chunk, its lines are in order, and it is in the file, but an empty store does not get it back. -/
theorem load_misfit : Run [.put numbered] empty misfit ∧ (∀ c ∈ misfit.toList, c.InOrder) ∧
    misfit.SavedAt ⟨"", ["chunks.json"]⟩ (diskOf misfit) ∧
    (load ⟨"", ["chunks.json"]⟩).runOn empty (diskOf misfit) = (.ok 0, empty, diskOf misfit) ∧ misfit.size = 1 := by
  have storable : numbered.IsStorable := Chunk.checkStorable_ok.1 (eq_ok_of_toBool (by decide +kernel))
  have run : Run [.put numbered] empty misfit := .cons (runOn_put_ok (put_of_free storable rfl) .blank) (.nil _)
  have sound : misfit.Sound := run.sound .empty
  have records : misfit.HasRecords := List.forall_mem_singleton.2 isData_numbered
  have there : misfit.SavedAt ⟨"", ["chunks.json"]⟩ (diskOf misfit) := savedAt_diskOf (by decide +kernel)
  have gone : empty.taken misfit.toList = [] := List.length_eq_zero_iff.1 (by decide +kernel)
  have loaded := runOn_load sound records there empty
  rw [gone] at loaded
  have order : numbered.startLine ≤ numbered.endLine := by decide +kernel
  exact ⟨run, List.forall_mem_singleton.2 order, there, loaded, rfl⟩

end Sample

end CodeSearch.ChunkStore
