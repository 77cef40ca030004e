import CodeSearch.Lexical.Request
import CodeSearch.Proofs.Indexing.Endings
import CodeSearch.Proofs.Indexing.Memory
import CodeSearch.Proofs.Vector.Widths
/-!
# Vectors that do not fit a batch

The vectors of a batch are the first that is written, and all of them are checked before the first is put. So if an
embedding function raises, gives too many or too few vectors, or vectors of different widths, the batch leaves no trace
(`Indexer.turnsAway_misfits`). That a fault tells as much from the outside is because no later stage of a commit can
end by such a fault (`Indexer.ends_afterVectors`): what else can go wrong goes by other names (`Fault.IsOther`).
-/

namespace CodeSearch

open CodeSearch.Action

/-- The vectors of a batch are too many or too few, or they are not of one width. -/
def Fault.isMisfit : Fault → Bool
  | .dimensionMismatch _ _ | .badValue (.countMismatch _ _) | .missingItem => true
  | _ => false

/-- Something else is wrong. -/
def Fault.IsOther (fault : Fault) : Prop := fault.isMisfit = false

/-! ## What else can be wrong -/

theorem FailsBy.other {α : Type} {fault : Fault} (h : fault.isMisfit = false) :
    FailsBy Fault.IsOther (.error fault : Except Fault α) := .error h

theorem Disk.failsBy_checkPath (path : Path) : FailsBy Fault.IsOther (checkPath path) := by
  rw [checkPath]
  split
  · exact .other rfl
  · split
    · exact .other rfl
    · split
      · exact .other rfl
      · exact .ok _

theorem Path.passes_other (path : Path) : path.Passes Fault.IsOther :=
  fun fault refused => .inr (Disk.failsBy_checkPath path fault refused)

theorem Path.takes_other (path : Path) : path.Takes Fault.IsOther :=
  ⟨fun _ => rfl, fun step _ => step.passes_other, path.parent.passes_other, path.passes_other,
    path.temporary.passes_other⟩

theorem Disk.failsBy_checkContent (content : Content) : FailsBy Fault.IsOther (checkContent content) := by
  cases content with
  | text text =>
    rw [checkContent]
    split
    · exact .ok _
    · exact .other rfl
  | binary value => exact .ok _

theorem Json.failsBy_entryName (value : Json) : FailsBy Fault.IsOther value.entryName := by
  cases value <;> first | exact .ok _ | exact .other rfl

theorem Json.failsBy_fields (value : Json) : FailsBy Fault.IsOther value.fields := by
  cases value <;> first | exact .ok _ | exact .other rfl

namespace Chunk

theorem failsBy_refuseTruthy {fault : Fault} (h : fault.isMisfit = false) (value : Json) :
    FailsBy Fault.IsOther (refuseTruthy fault value) := by
  rw [refuseTruthy]
  split
  · exact .other h
  · exact .ok _

variable (c : Chunk)

theorem failsBy_stored : FailsBy Fault.IsOther c.stored := by
  rw [stored]
  split
  · exact .other rfl
  · split
    · exact .ok _
    · exact .other rfl

theorem failsBy_checkId : FailsBy Fault.IsOther c.checkId :=
  failsBy_checkBeside (fun value => value.failsBy_entryName.map _) c _

theorem failsBy_checkStorable : FailsBy Fault.IsOther c.checkStorable := by
  refine (failsBy_checkBeside (fun value => ?_) c "id").bind fun _ _ => ?_
  · split <;> exact .other rfl
  · simp only []
    split
    · exact .other rfl
    · refine (failsBy_checkBeside (fun value => ?_) c "content").bind fun _ _ => ?_
      · split <;> exact .other rfl
      · split
        · exact .other rfl
        · exact .ok _

theorem failsBy_checkSet (value : Json) : FailsBy Fault.IsOther (checkSet value) := by
  rw [checkSet]
  split
  · exact (value.failsBy_elements (rfl : Fault.IsOther .wrongType)).bind fun _ _ =>
      .forM fun element _ => element.failsBy_entryName.map _
  · exact .ok _

theorem failsBy_checkRelations (isRoute : String → Bool) : FailsBy Fault.IsOther (checkRelations isRoute c) := by
  refine c.failsBy_checkId.bind fun _ _ => ?_
  refine (failsBy_checkBeside (failsBy_refuseTruthy rfl) c _).bind fun _ _ => ?_
  refine (failsBy_checkBeside failsBy_checkSet c _).bind fun _ _ => ?_
  refine (failsBy_checkBeside (failsBy_refuseTruthy rfl) c _).bind fun _ _ => ?_
  refine (failsBy_checkBeside failsBy_checkSet c _).bind fun _ _ => ?_
  refine (failsBy_checkBeside (fun value => ?_) c _).bind fun _ _ => failsBy_checkBeside (fun value => ?_) c _
  · refine value.failsBy_fields.bind fun _ _ => .forM fun field _ => ?_
    rw [checkRoute]
    split
    · exact field.2.failsBy_entryName.map _
    · exact .ok _
  · split
    · exact value.failsBy_entryName.map _
    · exact .ok _

end Chunk

theorem ChunkStore.failsBy_put (s : ChunkStore) (c : Chunk) : FailsBy Fault.IsOther (s.put c) := by
  refine c.failsBy_checkStorable.bind fun _ _ => ?_
  split
  · split
    · exact .ok _
    · exact .other rfl
  · exact .ok _

theorem CodeGraph.failsBy_rebuild {α : Type} (g : CodeGraph α) (chunks : List Chunk) :
    FailsBy Fault.IsOther (g.rebuild chunks).1 := by
  rw [rebuild]
  split
  next fault failed =>
    exact .error ((FailsBy.forM fun c _ => c.failsBy_checkRelations Relations.isRoutingKey) fault failed)
  next =>
    simp only []
    split
    · exact .ok _
    · exact .other rfl

/-! ## A commit that turns vectors away -/

namespace VectorIndex

open CodeSearch.Vector

variable {α : Type} {ix : VectorIndex α} {chunks : List Chunk}

theorem failsBy_putAll (now : Float) (pairs : List (Chunk × List α)) (ix : VectorIndex α) :
    FailsBy Fault.IsOther (putAll now ix (pairs.map fun pair => (pair.1, .ofList pair.2))).1 := by
  induction pairs generalizing ix with
  | nil => exact .ok _
  | cons pair pairs ih =>
    rw [List.map_cons, putAll, Tensor.flatten_ofList]
    cases named : pair.1.checkId with
    | ok _ => exact ih _
    | error fault => exact .error (pair.1.failsBy_checkId fault named)

/-- Vectors that do not fit are turned away before anything is put. -/
theorem eq_of_misfit {now : Float} {vectors : List (List α)} {fault : Fault} {ix' : VectorIndex α}
    (inserted : ix.insertEmbedded now chunks (vectors.map Tensor.ofList) = (.error fault, ix'))
    (misfit : fault.isMisfit = true) : ix' = ix := by
  rw [insertEmbedded] at inserted
  split at inserted
  · exact (Prod.mk.inj inserted).2.symm
  · split at inserted
    · exact (Prod.mk.inj inserted).2.symm
    · have others := failsBy_putAll now (chunks.zip vectors) ix
      rw [List.zip_map_right] at inserted
      split at inserted
      next fault' _ put =>
        have same : fault' = fault := Except.error.inj (Prod.mk.inj inserted).1
        have other : fault'.isMisfit = false := others fault' (congrArg Prod.fst put)
        rw [same, misfit] at other
        cases other
      next => cases inserted

end VectorIndex

/-! ## What else comes of a commit -/

namespace LexicalIndex

open Lexical

variable {α : Type}

/-- An index of a directory, whose limit to the number of segments is not unfit like vectors. -/
def Limited (directory : Option Path) (ix : LexicalIndex α) : Prop :=
  ix.directory = directory ∧ FailsBy Fault.IsOther ix.maxSegments

/-- The limit that a record sets is not unfit in this way. -/
theorem failsBy_segmentLimit (record : Json.Fields) :
    FailsBy Fault.IsOther (record.given "max_segments" usualSegments segmentLimit) := by
  rw [Json.Fields.given]
  split
  next value _ =>
    have number : FailsBy Fault.IsOther (Number.ofJson value) := by
      cases value <;> first | exact .ok _ | exact .other rfl
    refine number.bind fun n _ => ?_
    split
    · exact .ok _
    · split
      · exact .ok _
      · exact .ok _
  next => exact .ok _

theorem writes_limited (directory : Option Path) : Writes Fault.IsOther directory (Limited (α := α) directory) where
  placed h := h.1
  refreshed h := h
  written h := h
  numbered h := h
  listed _ _ h := h
  forms _ h := ⟨h.2, fun e _ => e.chunk.failsBy_stored, Disk.failsBy_checkContent _, Disk.failsBy_checkContent _,
    Disk.failsBy_checkContent _, fun _ _ => Path.passes_other _⟩
  files _ _ := Path.takes_other _
  storage _ _ := rfl

theorem failsBy_addAll (entries : List Entry) (ix : LexicalIndex α) : FailsBy Fault.IsOther (addAll entries ix).1 := by
  induction entries generalizing ix with
  | nil => exact .ok _
  | cons e entries ih =>
    rw [addAll]
    split
    · exact ih _
    next failed => exact .error (e.chunk.failsBy_stored _ failed)
    next failed => exact .error (e.chunk.failsBy_checkId _ failed)

theorem closed_limited (directory : Option Path) : Closed (fun _ => True) (Limited (α := α) directory) :=
  ⟨⟨id, fun _ _ _ => id⟩, fun _ _ _ => id⟩

theorem ends_insertPrepared_other (directory : Option Path) (entries : List Entry) :
    Ends (Limited (α := α) directory) Fault.IsOther (insertPrepared entries) :=
  (writes_limited directory).ends_insertPrepared
    (fun ix h => ⟨failsBy_addAll entries ix, (closed_limited directory).addAll (fun _ _ => trivial) h⟩) fun _ => id

end LexicalIndex

/-- An entry that is prepared is that of one of the chunks, which is filled. -/
theorem Indexing.mem_prepareAll {chunks : List Chunk} {entries : List Lexical.Entry} {complaints : List Complaint}
    (prepared : prepareAll chunks = .ok (entries, complaints)) :
    ∀ e ∈ entries, e.chunk ∈ chunks ∧ e.chunk.checkFilled = .ok () := by
  induction chunks generalizing entries complaints with
  | nil =>
    injection prepared with prepared
    exact (Prod.mk.inj prepared).1 ▸ List.forall_mem_nil _
  | cons c chunks ih =>
    rw [prepareAll] at prepared
    rcases rest : prepareAll chunks with fault | ⟨others, more⟩
    · rw [rest] at prepared
      split at prepared <;> cases prepared
    · have later : ∀ e ∈ others, e.chunk ∈ c :: chunks ∧ e.chunk.checkFilled = .ok () :=
        fun e he => ⟨List.mem_cons_of_mem _ (ih rest e he).1, (ih rest e he).2⟩
      rw [rest] at prepared
      split at prepared
      next e made =>
        injection prepared with prepared
        obtain ⟨rfl, _⟩ := Prod.mk.inj prepared
        obtain rfl := Chunk.eq_ofChunk_of_prepare made
        obtain ⟨_, filled, _⟩ := exists_of_bind_ok made
        exact List.forall_mem_cons.2 ⟨⟨List.mem_cons_self, filled⟩, later⟩
      next =>
        injection prepared with prepared
        exact (Prod.mk.inj prepared).1 ▸ later
      next => cases prepared

namespace Indexer

open Lexical Indexing

variable {ix ix' : Indexer} {batch : Batch} {now : Float} {d d' : Disk} {fault : Fault}

/-- What a commit does once the vectors are in. -/
def afterVectors (batch : Batch) : Action Indexer Report := do
  let lexicalFault ← storageFault? (insertEntries batch)
  batch.chunks.forM register
  let storeFault ← storageFault? persist
  rebuildGraph
  let ix ← memory
  let faults := lexicalFault.toList ++ storeFault.toList
  return {
    received := batch.received
    indexed := batch.entries.length
    complaints := batch.complaints ++ faults.map .failed
    lexicalCount := ix.lexical.count
    vectorCount := (ix.vectors.map VectorIndex.size).getD 0
    persisted := faults.isEmpty }

theorem commit_eq (now : Float) (prepared : Batch) : commit now prepared = (do
    let batch ← ofExcept (prepared.dropCollisions (← memory).store)
    onVectors (insertVectors now batch)
    afterVectors batch) := rfl

/-- The lexical index is one of a directory, with such a limit. -/
abbrev Limited (directory : Option Path) (ix : Indexer) : Prop := ix.lexical.Limited directory

theorem ends_afterVectors (directory : Option Path) (batch : Batch) :
    Ends (Limited directory) Fault.IsOther (afterVectors batch) := by
  have caught {work : Action Indexer Unit} (ends : Ends (Limited directory) Fault.IsOther work) :
      Ends (Limited directory) Fault.IsOther (storageFault? work) :=
    ends_storageFault? (ends.mono (fun _ => .inr) fun _ => rfl)
  have entries : Ends (Limited directory) Fault.IsOther (insertEntries batch) :=
    ends_insertEntries (LexicalIndex.ends_insertPrepared_other directory batch.entries) (fun _ => id) fun _ _ _ => id
  have registered : Ends (Limited directory) Fault.IsOther (batch.chunks.forM register) :=
    Ends.forM fun c _ => ends_register (fun ix _ => ix.store.failsBy_put c) fun _ _ h _ => h
  have saved : Ends (fun _ => True) Fault.IsOther (VectorIndex.save none) :=
    VectorIndex.ends_save (fun _ _ => rfl) rfl
      (fun v _ path _ => ⟨path.takes_other, VectorIndex.failsBy_payload fun c _ => c.failsBy_stored⟩) fun _ => id
  have stored (path : Path) : Ends (fun _ => True) Fault.IsOther (ChunkStore.save path) :=
    ChunkStore.ends_save (fun _ _ => rfl) path.takes_other (fun _ _ c _ => c.failsBy_stored)
      fun _ content _ _ => Disk.failsBy_checkContent content
  have persisted : Ends (Limited directory) Fault.IsOther persist :=
    ends_persist (ends_onVectors saved (fun _ _ _ _ => trivial) fun _ _ h _ => h) fun _ _ path _ =>
      (stored path).onPart (fun _ _ => trivial) fun _ _ h _ => h
  refine (caught entries).bind fun _ => registered.bind fun _ => (caught persisted).bind fun _ => ?_
  refine (ends_rebuildGraph (fun ix _ g _ => g.failsBy_rebuild _) fun _ _ h => h).bind fun _ => ?_
  exact ends_memory fun _ _ => ends_pure _

/-- Once the vectors are in, nothing ends a commit that leaves no trace. -/
theorem eq_of_commit_misfit (limit : FailsBy Fault.IsOther ix.lexical.maxSegments)
    (run : (commit now batch).runOn ix d = (.error fault, ix', d')) (misfit : fault.isMisfit = true) :
    ix' = ix ∧ d' = d := by
  rw [commit_eq, runOn_bind_ok (runOn_memory _ _)] at run
  cases dropped : batch.dropCollisions ix.store with
  | error other =>
    rw [dropped, runOn_bind_error (runOn_ofExcept _ _ _)] at run
    obtain ⟨_, rfl, rfl⟩ := by simpa using run
    exact ⟨rfl, rfl⟩
  | ok b =>
    rw [dropped, runOn_bind_ok (runOn_ofExcept _ _ _), runOn_bind] at run
    -- a stage after the vectors would have to end by a fault that none of them ends by
    have late (ix₁ : Indexer) (there : ix₁.lexical = ix.lexical)
        (failed : (afterVectors b).runOn ix₁ d = (.error fault, ix', d')) : False := by
      have limited : ix₁.Limited ix.lexical.directory := by
        rw [Limited, there]
        exact ⟨rfl, limit⟩
      obtain ⟨_, _, others⟩ := ends_afterVectors ix.lexical.directory b ix₁ d limited fun _ => rfl
      have other : fault.isMisfit = false := others fault (congrArg Prod.fst failed)
      rw [misfit] at other
      cases other
    cases there : ix.vectors with
    | none =>
      rw [runOn_insertVectors_none there] at run
      exact (late _ rfl run).elim
    | some v =>
      rw [runOn_insertVectors_some there] at run
      rcases inserted : v.insertEmbedded now b.chunks (b.vectors.map Tensor.ofList) with ⟨answer, v'⟩
      rw [inserted] at run
      cases answer with
      | ok _ =>
        exact (late { ix with vectors := some v' } rfl run).elim
      | error other =>
        obtain ⟨same, rfl, rfl⟩ := by simpa [Except.map] using run
        rw [same] at inserted
        have unchanged := VectorIndex.eq_of_misfit inserted misfit
        subst unchanged
        rw [← there]
        exact ⟨rfl, rfl⟩

/-! ## A call that turns vectors away -/

/-- What is drafted can be indexed, and collides with nothing in the store. -/
theorem draft_ok {chunks : List Chunk} {entries : List Entry} {complaints : List Complaint}
    (drafted : ix.draft chunks = .ok (entries, complaints)) :
    ∀ e ∈ entries, ix.store.conflicts e.chunk = false ∧ e.chunk.checkFilled = .ok () := by
  obtain ⟨_, _, drafted⟩ := exists_of_bind_ok drafted
  obtain ⟨⟨entries', refused⟩, prepared, drafted⟩ := exists_of_bind_ok drafted
  injection drafted with drafted
  obtain ⟨rfl, _⟩ := Prod.mk.inj drafted
  intro e he
  obtain ⟨there, filled⟩ := mem_prepareAll prepared e he
  exact ⟨(free_distinct chunks).values e.chunk there, filled⟩

/-- A batch without collisions whose vectors are turned away is not committed. -/
theorem runOn_commit_refused {v : VectorIndex Float} (there : ix.vectors = some v)
    (free : ∀ e ∈ batch.entries, ix.store.conflicts e.chunk = false)
    (refused : v.insertEmbedded now batch.chunks (batch.vectors.map Tensor.ofList) = (.error fault, v)) :
    (commit now batch).runOn ix d = (.error fault, ix, d) := by
  rw [commit_eq, runOn_bind_ok (runOn_memory _ _), dropCollisions_of_free free, runOn_bind_ok (runOn_ofExcept _ _ _),
    runOn_bind, runOn_insertVectors_some there, refused, ← there]
  rfl

/-- What comes of a batch whose texts get no vectors, or vectors that do not fit: the fault is told, and neither the
indexes nor the disk are changed. -/
structure TurnsAway (ix : Indexer) (now : Float) (d : Disk) : Prop where
  /-- The embedding function raises. -/
  embedding {v : VectorIndex Float} {chunks : List Chunk} {entries : List Entry} {complaints : List Complaint}
    {fault : Fault} : ix.vectors = some v → ix.draft chunks = .ok (entries, complaints) →
    v.embedChunks (entries.map Entry.chunk) = .error fault → (indexChunks now chunks).runOn ix d = (.error fault, ix, d)
  /-- There is not one vector for each text. -/
  count {v : VectorIndex Float} {chunks : List Chunk} {entries : List Entry} {complaints : List Complaint}
    {vectors : List (List Float)} : ix.vectors = some v → ix.draft chunks = .ok (entries, complaints) →
    v.embedChunks (entries.map Entry.chunk) = .ok vectors → entries.length ≠ vectors.length →
    (indexChunks now chunks).runOn ix d = (.error (.badValue (.countMismatch entries.length vectors.length)), ix, d)
  /-- A vector anywhere in the batch has not the width of the index or, as long as there is none, of the first vector. -/
  width {v : VectorIndex Float} {chunks : List Chunk} {entries : List Entry} {complaints : List Complaint}
    {vectors : List (List Float)} : ix.vectors = some v → ix.draft chunks = .ok (entries, complaints) →
    v.embedChunks (entries.map Entry.chunk) = .ok vectors → entries.length = vectors.length →
    ∀ misfit ∈ vectors, ¬ VectorIndex.HasWidth (VectorIndex.expectedWidth v.dimension vectors) misfit →
    ∃ vector ∈ vectors, ¬ VectorIndex.HasWidth (VectorIndex.expectedWidth v.dimension vectors) vector ∧
      (indexChunks now chunks).runOn ix d
        = (.error (.dimensionMismatch (VectorIndex.expectedWidth v.dimension vectors) (.int vector.length)), ix, d)
  /-- However a call has come to find that vectors do not fit. -/
  call {chunks : List Chunk} {fault : Fault} {ix' : Indexer} {d' : Disk} :
    (indexChunks now chunks).runOn ix d = (.error fault, ix', d') → fault.isMisfit = true → ix' = ix ∧ d' = d
  /-- A batch that was prepared on other indexes, so that some of its chunks may collide by now. -/
  commit {batch : Batch} {fault : Fault} {ix' : Indexer} {d' : Disk} :
    (Indexer.commit now batch).runOn ix d = (.error fault, ix', d') → fault.isMisfit = true → ix' = ix ∧ d' = d

/-- Batches that are aborted because of their vectors leave no trace. -/
theorem turnsAway_misfits (ix : Indexer) (limit : FailsBy Fault.IsOther ix.lexical.maxSegments) (now : Float)
    (d : Disk) : ix.TurnsAway now d where
  embedding there drafted failed := runOn_indexChunks_error (prepare_error there drafted failed)
  count {v chunks entries complaints vectors} there drafted embedded count := by
    have lengths : (entries.map Entry.chunk).length ≠ (vectors.map Tensor.ofList).length := by simpa using count
    rw [runOn_indexChunks_ok (prepare_ok there drafted embedded)]
    refine runOn_commit_refused there (fun e he => (draft_ok drafted e he).1) ?_
    rw [VectorIndex.insertEmbedded, Batch.chunks, if_pos lengths, List.length_map, List.length_map]
  width {v chunks entries complaints vectors} there drafted embedded count misfit inside other := by
    have filled : ∀ c ∈ entries.map Entry.chunk, c.checkFilled = .ok () :=
      List.forall_mem_map.2 fun e he => (draft_ok drafted e he).2
    have counts : (entries.map Entry.chunk).length = vectors.length := by rw [List.length_map, count]
    obtain ⟨vector, hv, narrow, refused⟩ := VectorIndex.checkWidths_error filled counts inside other
    refine ⟨vector, hv, narrow, ?_⟩
    rw [runOn_indexChunks_ok (prepare_ok there drafted embedded)]
    refine runOn_commit_refused there (fun e he => (draft_ok drafted e he).1) ?_
    rw [VectorIndex.insertEmbedded, Batch.chunks, if_neg (by simpa using count), refused]
  call {chunks fault ix' d'} run misfit := by
    cases prepared : ix.prepare chunks with
    | ok batch => exact eq_of_commit_misfit limit (runOn_indexChunks_ok prepared ▸ run) misfit
    | error other =>
      rw [runOn_indexChunks_error prepared] at run
      obtain ⟨_, rfl, rfl⟩ := by simpa using run
      exact ⟨rfl, rfl⟩
  commit run misfit := eq_of_commit_misfit limit run misfit

/-- Two texts whose vectors differ in width come to an index that holds none and knows no width. -/
theorem turnsAway_misfits_narrow :
    let v : VectorIndex Float :=
      .blank { embed := fun text => .ok (.ofList (List.replicate text.length 0)) } none .null (.ok 1) (.ok (.whole 50000))
    let ix : Indexer := { lexical := .blank none (.whole 1) (.whole 1) (.ok 2), vectors := some v }
    (indexChunks 0 [.plain "x" "a", .plain "y" "bb"]).runOn ix .blank
      = (.error (.dimensionMismatch (.int 1) (.int 2)), ix, .blank) := by
  intro v ix
  have drafted : ix.draft [.plain "x" "a", .plain "y" "bb"]
      = .ok ([.ofChunk (.plain "x" "a"), .ofChunk (.plain "y" "bb")], []) := by
    have named : [Chunk.plain "x" "a", .plain "y" "bb"].forM Chunk.checkId = .ok () := rfl
    have apart : (distinct ix.store [.plain "x" "a", .plain "y" "bb"]).1.values = [.plain "x" "a", .plain "y" "bb"] :=
      rfl
    have clean : (distinct ix.store [.plain "x" "a", .plain "y" "bb"]).2 = [] := rfl
    have filled : prepareAll [.plain "x" "a", .plain "y" "bb"]
        = .ok ([.ofChunk (.plain "x" "a"), .ofChunk (.plain "y" "bb")], []) := by
      rw [prepareAll, prepareAll, prepareAll, Chunk.prepare_of_checked rfl, Chunk.prepare_of_checked rfl]
      rfl
    rw [draft, named, ok_bind]
    simp only []
    rw [apart, clean, filled]
    rfl
  have embedded : v.embedChunks [.plain "x" "a", .plain "y" "bb"] = .ok [[0], [0, 0]] := by
    have vector (text : String) : v.embedder.vector text = .ok (List.replicate text.length 0) := Tensor.flatten_ofList _
    have checked : [Chunk.plain "x" "a", .plain "y" "bb"].forM Chunk.checkText = .ok () := rfl
    rw [VectorIndex.embedChunks, checked, ok_bind]
    exact mapM_ok fun text _ => vector text
  obtain ⟨vector, inside, narrow, run⟩ := (turnsAway_misfits ix (.ok 2) 0 .blank).width rfl drafted embedded rfl [0, 0]
    (by simp) (by decide)
  rcases List.mem_cons.1 inside with rfl | inside
  · exact absurd (Json.same_int_self 1) narrow
  · obtain rfl := List.mem_singleton.1 inside
    exact run

end Indexer

end CodeSearch
