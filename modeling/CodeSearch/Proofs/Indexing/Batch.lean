import CodeSearch.Indexing.Batch
import CodeSearch.Proofs.Lexical.Outcome
import CodeSearch.Proofs.Vector.Snapshot
/-!
# Batches

What is ready to be committed holds each id once (`Ready`), however old the stores are that it was compared with. A
commit leaves out the chunks that have come to collide with the store (`dropCollisions_ok`), and nothing that is left
can be refused by the store (`runOn_register`).
-/

namespace CodeSearch

/-! ## Parts that there may be -/

section Parts
variable {α β γ : Type} {r : α → β → Prop} {before : Option α} {after : Option β}

theorem exists_of_rel (rel : Option.Rel r before after) : ∀ b ∈ after, ∃ a ∈ before, r a b := by
  rintro b rfl
  cases rel with
  | some related => exact ⟨_, rfl, related⟩

theorem rel_refl {r : α → α → Prop} (refl : ∀ a, r a a) : Option.Rel r before before := by
  cases before with
  | none => exact .none
  | some a => exact .some (refl a)

theorem rel_mono {q : α → β → Prop} (rel : Option.Rel r before after) (imp : ∀ a b, r a b → q a b) :
    Option.Rel q before after := by
  cases rel with
  | none => exact .none
  | some related => exact .some (imp _ _ related)

theorem rel_flip (rel : Option.Rel r before after) : Option.Rel (fun b a => r a b) after before := by
  cases rel with
  | none => exact .none
  | some related => exact .some related

theorem rel_trans {later : Option γ} {q : β → γ → Prop} {t : α → γ → Prop} (first : Option.Rel r before after)
    (second : Option.Rel q after later) (imp : ∀ a b c, r a b → q b c → t a c) : Option.Rel t before later := by
  cases first with
  | none =>
    cases second with
    | none => exact .none
  | some related =>
    cases second with
    | some next => exact .some (imp _ _ _ related next)

end Parts

end CodeSearch

namespace CodeSearch.Indexing

open Lexical

/-! ## Repeated ids -/

/-- A chunk joins those that are accepted, or is left out. -/
def accept (s : ChunkStore) (so : Keyed String Chunk × List Complaint) (c : Chunk) :
    Keyed String Chunk × List Complaint :=
  match (so.1.get? c.id).or (s.get? c.id) with
  | some old =>
    if old.content ≠ c.content then (so.1, so.2 ++ [.collision c])
    else if so.1.has c.id then (so.1, so.2)
    else (so.1.put c.id c, so.2)
  | none => (so.1.put c.id c, so.2)

/-- Chunks are compared with a store one after the other. -/
theorem distinct_eq (s : ChunkStore) (chunks : List Chunk) : distinct s chunks = chunks.foldl (accept s) (.empty, []) :=
  rfl

section Batch
variable {p : Chunk → Prop} {s : ChunkStore} {accepted : Keyed String Chunk × List Complaint}

/-- What is known under the id of a chunk, from the batch or else from the store, has another content. -/
def clashes (s : ChunkStore) (accepted : Keyed String Chunk) (c : Chunk) : Bool :=
  ((accepted.get? c.id).or (s.get? c.id)).any fun old => old.content ≠ c.content

theorem accept_eq (c : Chunk) : accept s accepted c
    = if clashes s accepted.1 c then (accepted.1, accepted.2 ++ [.collision c])
      else if accepted.1.has c.id then accepted else (accepted.1.put c.id c, accepted.2) := by
  unfold accept clashes
  cases found : (accepted.1.get? c.id).or (s.get? c.id) with
  | none => simp [Keyed.has_eq, (Option.or_eq_none_iff.1 found).1]
  | some old => by_cases same : old.content = c.content <;> simp [same]

/-- What a comparison does with a chunk. -/
inductive Compared (s : ChunkStore) (so : Keyed String Chunk × List Complaint) (c : Chunk) :
    Keyed String Chunk × List Complaint → Prop where
  | collides (clash : clashes s so.1 c = true) : Compared s so c (so.1, so.2 ++ [.collision c])
  | repeats {old : Chunk} (found : so.1.get? c.id = some old) (same : old.content = c.content) : Compared s so c so
  | enters (new : so.1.get? c.id = none) (free : s.conflicts c = false) : Compared s so c (so.1.put c.id c, so.2)

theorem compared_accept (s : ChunkStore) (accepted : Keyed String Chunk × List Complaint) (c : Chunk) :
    Compared s accepted c (accept s accepted c) := by
  rw [accept_eq]
  split
  next clash => exact .collides clash
  next agrees =>
    rw [Keyed.has_eq]
    cases found : accepted.1.get? c.id with
    | none =>
      rw [clashes, found, Option.none_or] at agrees
      exact .enters found (Bool.eq_false_iff.2 agrees)
    | some old =>
      rw [clashes, found, Option.some_or, Option.any_some, decide_eq_true_eq, not_not] at agrees
      exact .repeats found agrees

/-- What a comparison keeps holds of what comes of a batch. -/
theorem keeps_distinct {q : Keyed String Chunk × List Complaint → Prop} {chunks : List Chunk} (start : q (.empty, []))
    (step : ∀ c ∈ chunks, ∀ so next, q so → Compared s so c next → q next) : q (distinct s chunks) := by
  have all : ∀ {so : Keyed String Chunk × List Complaint}, q so → q (chunks.foldl (accept s) so) := by
    clear start
    induction chunks with
    | nil => exact id
    | cons c chunks ih =>
      intro so h
      have next := step c List.mem_cons_self _ _ h (compared_accept s _ c)
      exact ih (fun o ho => step o (List.mem_cons_of_mem _ ho)) next
  exact all start

/-- Whatever store a chunk is compared with, the accepted ones stand under their ids. -/
theorem Compared.filed {next : Keyed String Chunk × List Complaint} {c : Chunk} (step : Compared s accepted c next)
    (h : Chunk.Filed p accepted.1) (hc : p c) : Chunk.Filed p next.1 := by
  cases step with
  | collides => exact h
  | repeats => exact h
  | enters => exact h.put hc

theorem filed_distinct {chunks : List Chunk} (hc : ∀ c ∈ chunks, p c) : Chunk.Filed p (distinct s chunks).1 :=
  keeps_distinct (q := fun so => Chunk.Filed p so.1) .empty fun c inside _ _ h step => step.filed h (hc c inside)

theorem Compared.free {next : Keyed String Chunk × List Complaint} {c : Chunk} (step : Compared s accepted c next)
    (h : Chunk.Filed (fun c => s.conflicts c = false) accepted.1) :
    Chunk.Filed (fun c => s.conflicts c = false) next.1 := by
  cases step with
  | collides => exact h
  | repeats => exact h
  | enters _ free => exact h.put free

/-- What has been compared with a store does not collide with it. -/
theorem free_distinct (chunks : List Chunk) : Chunk.Filed (fun c => s.conflicts c = false) (distinct s chunks).1 :=
  keeps_distinct (q := fun so => Chunk.Filed (fun c => s.conflicts c = false) so.1) .empty
    fun _ _ _ _ h step => step.free h

/-! ## What is ready -/

/-- The entries of a batch are those of chunks that satisfy a condition, each id once. -/
structure Ready (p : Chunk → Prop) (b : Batch) : Prop where
  entries : b.entries = b.chunks.map Entry.ofChunk
  once : (b.chunks.map Chunk.id).Nodup
  chunks : ∀ c ∈ b.chunks, p c

theorem Ready.of_entries {b : Batch} {chunks : List Chunk} (entries : b.entries = chunks.map Entry.ofChunk)
    (once : (chunks.map Chunk.id).Nodup) (hc : ∀ c ∈ chunks, p c) : Ready p b := by
  have same : b.chunks = chunks := by
    rw [Batch.chunks, entries, List.map_map]
    exact List.map_id chunks
  exact ⟨same.symm ▸ entries, same.symm ▸ once, same.symm ▸ hc⟩

/-- What is said of a chunk that is not taken because its id or its content is missing. -/
def refusal (c : Chunk) : Complaint := .failed (.invalidChunk .blankIdOrContent (.str c.id))

/-- Chunks without id or content are not taken, and all others are. -/
theorem prepareAll_eq {chunks : List Chunk} (decided : ∀ c ∈ chunks, Entry.prepare c
      = if c.isFilled then .ok (.ofChunk c) else .error (.invalidChunk .blankIdOrContent (.str c.id))) :
    prepareAll chunks = .ok ((chunks.filter Chunk.isFilled).map Entry.ofChunk,
      (chunks.filter fun c => !c.isFilled).map refusal) := by
  induction chunks with
  | nil => rfl
  | cons c chunks ih =>
    rw [prepareAll, decided c List.mem_cons_self, ih fun other ho => decided other (List.mem_cons_of_mem _ ho)]
    cases filled : c.isFilled with
    | true =>
      rw [List.filter_cons_of_pos filled, List.filter_cons_of_neg (by simp [filled])]
      rfl
    | false =>
      rw [List.filter_cons_of_neg (by simp [filled]), List.filter_cons_of_pos (by simp [filled])]
      rfl

/-- A chunk of which only the content may be blank. -/
structure Typed (c : Chunk) : Prop where
  checked : c.unchecked = []
  id_filled : Text.allBlank c.id = false

/-- Chunks with a blank content are not taken. -/
theorem prepareAll_of_typed {chunks : List Chunk} (typed : ∀ c ∈ chunks, Typed c) :
    ∃ complaints, prepareAll chunks
      = .ok ((chunks.filter fun c => !Text.allBlank c.content).map Entry.ofChunk, complaints) := by
  have same : chunks.filter Chunk.isFilled = chunks.filter fun c => !Text.allBlank c.content := by
    refine List.filter_congr fun c hc => ?_
    have there : c.id ≠ "" := by
      intro empty
      have filled := (typed c hc).id_filled
      rw [empty] at filled
      cases filled
    simp [Chunk.isFilled, there]
  rw [prepareAll_eq fun c hc => Chunk.prepare_of_checked (typed c hc).checked, same]
  exact ⟨_, rfl⟩

/-! ## Collisions -/

theorem map_fst_filter_zipIdx {β : Type} (items : List β) (keep : β → Bool) :
    (items.zipIdx.filter fun item => keep item.1).map Prod.fst = items.filter keep := by
  have placed : items.zipIdx.map Prod.fst = items := List.zipIdx_map_fst 0 items
  conv_rhs => rw [← placed, List.filter_map]
  rfl

/-- What a batch keeps of its entries is what does not collide with the store. -/
theorem entries_dropCollisions {b b' : Batch} (h : b.dropCollisions s = .ok b') :
    b'.entries = b.entries.filter fun e => !s.conflicts e.chunk := by
  have kept := map_fst_filter_zipIdx b.entries fun e => !s.conflicts e.chunk
  rw [Batch.dropCollisions] at h
  simp only [bind, Except.bind] at h
  split at h
  next all =>
    injection h with h
    subst h
    have lengths := congrArg List.length kept
    rw [List.length_map] at lengths
    exact (List.filter_eq_self.2 (List.length_filter_eq_length_iff.1 (lengths.symm.trans all))).symm
  next =>
    split at h
    next =>
      injection h with h
      rw [← h]
      exact kept
    next =>
      split at h
      next => cases h
      next =>
        injection h with h
        rw [← h]
        exact kept

/-- A batch without the chunks that collide with the store is ready, and nothing in it collides. -/
theorem dropCollisions_ok {b b' : Batch} (ready : Ready p b) (h : b.dropCollisions s = .ok b') :
    Ready p b' ∧ ∀ c ∈ b'.chunks, s.conflicts c = false := by
  have entries := entries_dropCollisions h
  rw [ready.entries, List.filter_map] at entries
  have ready' : Ready p b' := by
    refine .of_entries entries ?_ fun c hc => ready.chunks c (List.mem_filter.1 hc).1
    exact ready.once.sublist (List.filter_sublist.map _)
  refine ⟨ready', fun c hc => ?_⟩
  rw [Batch.chunks, entries, List.map_map] at hc
  obtain ⟨c', hc', rfl⟩ := List.mem_map.1 hc
  simpa using (List.mem_filter.1 hc').2

end Batch

end CodeSearch.Indexing

namespace CodeSearch.Indexer

open Lexical Indexing CodeSearch.Action

/-! ## Preparing -/

/-- What is left of a preparation when all chunks have been compared with the store. -/
def finish (ix : Indexer) (received : Nat) (accepted : Keyed String Chunk) (collisions : List Complaint) :
    Except Fault Batch := do
  let (entries, refused) ← prepareAll accepted.values
  let vectors ← match ix.vectors with
    | some v => v.embedChunks (entries.map Entry.chunk)
    | none => pure []
  return ⟨received, entries, vectors, collisions ++ refused⟩

theorem prepare_eq (ix : Indexer) {chunks : List Chunk} (checked : ∀ c ∈ chunks, c.unchecked = []) :
    ix.prepare chunks = ix.finish chunks.length (distinct ix.store chunks).1 (distinct ix.store chunks).2 := by
  rw [prepare, draft, forM_ok fun c hc => Chunk.checkId_of_checked (checked c hc), finish]
  simp only [bind, Except.bind]
  cases prepareAll (distinct ix.store chunks).1.values <;> rfl

section Stages
variable {p : Chunk → Prop} {ix : Indexer} {batch : Batch} {now : Float} {d : Disk}

theorem finish_ready {received : Nat} {accepted : Keyed String Chunk} {collisions : List Complaint}
    (filed : Chunk.Filed p accepted) (typed : ∀ c, p c → Typed c)
    (h : ix.finish received accepted collisions = .ok batch) :
    Ready (fun c => p c ∧ Text.allBlank c.content = false) batch := by
  obtain ⟨complaints, entries⟩ := prepareAll_of_typed fun c hc => typed c (filed.values c hc)
  have taken : batch.entries = (accepted.values.filter fun c => !Text.allBlank c.content).map Entry.ofChunk := by
    rw [finish, entries] at h
    simp only [bind, Except.bind] at h
    split at h
    next =>
      split at h
      next => cases h
      next =>
        injection h with h
        rw [← h]
    next =>
      injection h with h
      rw [← h]
  refine .of_entries taken (filed.nodup_ids.sublist (List.filter_sublist.map _)) fun c hc => ?_
  obtain ⟨hc, filled⟩ := List.mem_filter.1 hc
  exact ⟨filed.values c hc, by simpa using filled⟩

section Draft
variable {chunks : List Chunk} {entries : List Entry} {complaints : List Complaint} {fault : Fault}

/-- Without an index of vectors nothing is embedded. -/
theorem prepare_none (there : ix.vectors = none) (drafted : ix.draft chunks = .ok (entries, complaints)) :
    ix.prepare chunks = .ok ⟨chunks.length, entries, [], complaints⟩ := by
  rw [Indexer.prepare, drafted, ok_bind, there]
  rfl

theorem prepare_ok {v : VectorIndex Float} (there : ix.vectors = some v)
    (drafted : ix.draft chunks = .ok (entries, complaints)) {vectors : List (List Float)}
    (embedded : v.embedChunks (entries.map Entry.chunk) = .ok vectors) :
    ix.prepare chunks = .ok ⟨chunks.length, entries, vectors, complaints⟩ := by
  rw [Indexer.prepare, drafted, ok_bind, there]
  simp only [embedded]
  rfl

theorem prepare_error {v : VectorIndex Float} (there : ix.vectors = some v)
    (drafted : ix.draft chunks = .ok (entries, complaints))
    (failed : v.embedChunks (entries.map Entry.chunk) = .error fault) : ix.prepare chunks = .error fault := by
  rw [Indexer.prepare, drafted, ok_bind, there]
  simp only [failed]
  rfl

theorem runOn_indexChunks_ok (prepared : ix.prepare chunks = .ok batch) :
    (indexChunks now chunks).runOn ix d = (commit now batch).runOn ix d := by
  rw [indexChunks, runOn_bind_ok (runOn_memory _ _), prepared, runOn_bind_ok (runOn_ofExcept _ _ _)]

theorem runOn_indexChunks_error (failed : ix.prepare chunks = .error fault) :
    (indexChunks now chunks).runOn ix d = (.error fault, ix, d) := by
  rw [indexChunks, runOn_bind_ok (runOn_memory _ _), failed, runOn_bind_error (runOn_ofExcept _ _ _)]

end Draft

/-! ## The stages of a commit -/

/-- Work on the vectors of an indexer that has some. -/
theorem runOn_onVectors {work : Action (VectorIndex Float) Unit} {v v' : VectorIndex Float} {answer : Except Fault Unit}
    {d' : Disk} (there : ix.vectors = some v) (run : work.runOn v d = (answer, v', d')) :
    (onVectors work).runOn ix d = (answer, { ix with vectors := some v' }, d') := by
  rw [onVectors, runOn_bind_ok (runOn_memory _ _), there]
  simp only []
  rw [runOn_onPart, run]

/-- The store of an indexer is stored, and stays as it is. -/
theorem runOn_onStore {path : Path} {answer : Except Fault Unit} {d' : Disk}
    (run : (ChunkStore.save path).runOn ix.store d = (answer, ix.store, d')) :
    (onPart Indexer.store (fun ix store => { ix with store }) (ChunkStore.save path) : Action Indexer Unit).runOn ix d
      = (answer, ix, d') := by
  rw [runOn_onPart, run]

/-- The snapshot comes before the file of the store, where both have a place. -/
theorem runOn_persist_placed {v : VectorIndex Float} {snapshot storeFile : Path} (there : ix.vectors = some v)
    (target : v.snapshotPath = some snapshot) (file : ix.storeFile = some storeFile) :
    persist.runOn ix d = (do
      onVectors (VectorIndex.save none)
      onPart Indexer.store (fun ix store => { ix with store }) (ChunkStore.save storeFile)).runOn ix d := by
  have placed : (ix.vectors.any fun v => v.snapshotPath.isSome) = true := by rw [there, Option.any_some, target]; rfl
  rw [persist, runOn_bind_ok (runOn_memory _ _), placed, if_pos rfl, file]

/-- An index of vectors into which chunks have been put. -/
structure VectorsPut (chunks : List Chunk) (v v' : VectorIndex Float) : Prop where
  snapshotPath : v'.snapshotPath = v.snapshotPath
  entries : ∃ pairs : List (String × Vector.Entry Float),
    v'.entries = v.entries.putAll pairs ∧ pairs.map Prod.fst = chunks.map Chunk.id
  chunks : v'.chunks = v.chunks.putAll (chunks.map fun c => (c.id, c))

/-- Without an index of vectors there is nothing to insert them into. -/
theorem runOn_insertVectors_none (there : ix.vectors = none) :
    (onVectors (insertVectors now batch)).runOn ix d = (.ok (), ix, d) := by
  rw [onVectors, runOn_bind_ok (runOn_memory _ _), there]
  rfl

theorem runOn_insertVectors_some {v : VectorIndex Float} (there : ix.vectors = some v) :
    (onVectors (insertVectors now batch)).runOn ix d
      = ((v.insertEmbedded now batch.chunks (batch.vectors.map Tensor.ofList)).1.map fun _ => (),
        { ix with vectors := some (v.insertEmbedded now batch.chunks (batch.vectors.map Tensor.ofList)).2 }, d) := by
  have run : (insertVectors now batch).runOn v d
      = ((v.insertEmbedded now batch.chunks (batch.vectors.map Tensor.ofList)).1.map fun _ => (),
        (v.insertEmbedded now batch.chunks (batch.vectors.map Tensor.ofList)).2, d) := by
    rw [insertVectors, runOn_bind_ok (runOn_memory _ _)]
    cases v.insertEmbedded now batch.chunks (batch.vectors.map Tensor.ofList) with
    | mk answer v' => cases answer <;> rfl
  exact runOn_onVectors there run

/-- The vectors of a batch are inserted, or nothing is changed. -/
theorem runOn_insertVectors (now : Float) (checked : ∀ c ∈ batch.chunks, c.unchecked = []) (ix : Indexer) (d : Disk) :
    (∃ fault, (onVectors (insertVectors now batch)).runOn ix d = (.error fault, ix, d)) ∨
    ∃ vectors, (onVectors (insertVectors now batch)).runOn ix d = (.ok (), { ix with vectors }, d) ∧
      Option.Rel (VectorsPut batch.chunks) ix.vectors vectors := by
  cases there : ix.vectors with
  | none =>
    have same : { ix with vectors := none } = ix := by rw [← there]
    exact .inr ⟨none, by rw [same]; exact runOn_insertVectors_none there, .none⟩
  | some v =>
    rw [runOn_insertVectors_some there]
    have named : ∀ c ∈ batch.chunks, c.checkId = .ok () := fun c hc => Chunk.checkId_of_checked (checked c hc)
    rcases VectorIndex.insertEmbedded_cases named now batch.vectors v with ⟨fault, failed⟩ | ⟨v', inserted, put⟩
    · rw [failed]
      refine .inl ⟨fault, ?_⟩
      rw [← there]
      rfl
    · rw [inserted]
      refine .inr ⟨some v', rfl, .some ⟨put.snapshotPath, ⟨_, put.entries, ?_⟩, put.chunks⟩⟩
      rw [List.map_map]
      conv_rhs => rw [← List.map_fst_zip (Nat.le_of_eq put.count), List.map_map]
      rfl

theorem runOn_insertEntries (batch : Batch) (ix : Indexer) (d : Disk) {answer : Except Fault Unit}
    {lexical : LexicalIndex Float} {d' : Disk}
    (run : (do let _ ← LexicalIndex.insertPrepared batch.entries : Action (LexicalIndex Float) Unit).runOn ix.lexical d
      = (answer, lexical, d')) : (insertEntries batch).runOn ix d = (answer, { ix with lexical }, d') := by
  rw [insertEntries, runOn_onPart, run]

/-- Work with a fault of the storage has an answer, and any other fault ends it. -/
theorem runOn_storageFault? {work : Action Indexer Unit} {answer : Except Fault Unit} {ix' : Indexer} {d' : Disk}
    (run : work.runOn ix d = (answer, ix', d')) :
    ∃ answer', (storageFault? work).runOn ix d = (answer', ix', d') ∧ (answer' = .ok none → answer = .ok ()) ∧
      ((∀ fault, answer = .error fault → fault.isStorage = true) → ∃ fault, answer' = .ok fault) := by
  rw [storageFault?, runOn_tryCatch, runOn_bind, run]
  cases answer with
  | ok _ => exact ⟨_, rfl, fun _ => rfl, fun _ => ⟨none, rfl⟩⟩
  | error fault =>
    cases storage : fault.isStorage with
    | true =>
      refine ⟨.ok (some fault), ?_, nofun, fun _ => ⟨some fault, rfl⟩⟩
      simp only [storage, if_true]
      rfl
    | false =>
      refine ⟨.error fault, ?_, nofun, fun all => ?_⟩
      · simp only [storage, Bool.false_eq_true, if_false]
        rfl
      · have := all fault rfl
        rw [storage] at this
        cases this

/-- Chunks of different ids that do not collide with the store are all registered. -/
theorem runOn_register {chunks : List Chunk} (made : ∀ c ∈ chunks, c.Made) (once : (chunks.map Chunk.id).Nodup)
    (ix : Indexer) (free : ∀ c ∈ chunks, ix.store.conflicts c = false) (d : Disk) :
    (chunks.forM register).runOn ix d
      = (.ok (), { ix with store := ⟨ix.store.chunks.putAll (chunks.map fun c => (c.id, c))⟩ }, d) := by
  induction chunks generalizing ix with
  | nil => rfl
  | cons c chunks ih =>
    obtain ⟨apart, once⟩ := List.nodup_cons.1 once
    have first : (register c).runOn ix d = (.ok (), { ix with store := ⟨ix.store.chunks.put c.id c⟩ }, d) := by
      rw [register, runOn_bind_ok (runOn_memory _ _),
        ChunkStore.put_of_made (made c List.mem_cons_self) (free c List.mem_cons_self)]
      rfl
    have rest : ∀ o ∈ chunks, o.Made := fun o ho => made o (List.mem_cons_of_mem _ ho)
    rw [List.forM_eq_forM, List.forM_cons, runOn_bind_ok first, ← List.forM_eq_forM, ih rest once]
    · rfl
    · intro other ho
      have differ : other.id ≠ c.id := fun same => apart (same ▸ List.mem_map_of_mem ho)
      rw [ChunkStore.conflicts, ChunkStore.get?, Keyed.get?_put, if_neg differ]
      exact free other (List.mem_cons_of_mem _ ho)

theorem runOn_rebuildGraph (ix : Indexer) (d : Disk) :
    ∃ answer graph, rebuildGraph.runOn ix d = (answer, { ix with graph }, d) ∧
      ∀ g ∈ graph, ∃ old ∈ ix.graph, (answer, g) = old.rebuild ix.store.toList := by
  rw [rebuildGraph, runOn_bind_ok (runOn_memory _ _)]
  cases there : ix.graph with
  | none =>
    have same : { ix with graph := none } = ix := by rw [← there]
    exact ⟨.ok (), none, by rw [same]; rfl, by simp⟩
  | some old =>
    refine ⟨(old.rebuild ix.store.toList).1, some (old.rebuild ix.store.toList).2, ?_, ?_⟩
    · simp only []
      rw [runOn_bind_ok (runOn_setMemory _ _ _), runOn_ofExcept]
    · rintro g ⟨⟩
      exact ⟨old, rfl, rfl⟩

/-- What is reported of a batch, by what has become of the files. -/
def told (batch : Batch) (faults : List Fault) (ix : Indexer) : Report where
  received := batch.received
  indexed := batch.entries.length
  complaints := batch.complaints ++ faults.map .failed
  lexicalCount := ix.lexical.count
  vectorCount := (ix.vectors.map VectorIndex.size).getD 0
  persisted := faults.isEmpty

/-- A batch of which nothing collides with the store is committed stage by stage. -/
theorem runOn_commit_stages {ix₁ ix₂ ix₃ ix₄ ix₅ : Indexer} {d₁ d₂ d₃ d₄ d₅ : Disk}
    {lexicalFault storeFault : Option Fault} (same : batch.dropCollisions ix.store = .ok batch)
    (vectors : (onVectors (insertVectors now batch)).runOn ix d = (.ok (), ix₁, d₁))
    (entries : (storageFault? (insertEntries batch)).runOn ix₁ d₁ = (.ok lexicalFault, ix₂, d₂))
    (chunks : (batch.chunks.forM register).runOn ix₂ d₂ = (.ok (), ix₃, d₃))
    (files : (storageFault? persist).runOn ix₃ d₃ = (.ok storeFault, ix₄, d₄))
    (graph : rebuildGraph.runOn ix₄ d₄ = (.ok (), ix₅, d₅)) :
    (commit now batch).runOn ix d
      = (.ok (told batch (lexicalFault.toList ++ storeFault.toList) ix₅), ix₅, d₅) := by
  rw [Indexer.commit, runOn_bind_ok (runOn_memory _ _), same, runOn_bind_ok (runOn_ofExcept _ _ _),
    runOn_bind_ok vectors, runOn_bind_ok entries, runOn_bind_ok chunks, runOn_bind_ok files, runOn_bind_ok graph]
  rfl

end Stages

end CodeSearch.Indexer
