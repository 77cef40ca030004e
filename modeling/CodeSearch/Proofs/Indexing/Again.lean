import CodeSearch.Proofs.Indexing.Healthy
/-!
# The same batch again

A batch that is indexed a second time changes nothing (`Healthy.indexChunks_again`). The first time the chunks that are
taken are put beside older ones of their ids and contents, or as new ones; the second time they are compared with
themselves, and are all taken again (`distinct_withTaken`). So the same pairs are put once more, with the same vectors, and
the graph is built of the same chunks.
-/

namespace CodeSearch.Indexing

/-- It is said of a chunk that it is not taken, and not of the indexes that they cannot be stored. -/
def Complaint.isOfChunk : Complaint → Bool
  | .collision _ => true
  | .failed fault => !fault.isStorage
  | .unread _ _ => false

end CodeSearch.Indexing

namespace CodeSearch.Indexer

open Lexical Indexing CodeSearch.Action

/-- All indexes hold the same chunks under the same ids in the same order, and the same vectors. -/
structure Unchanged (ix ix' : Indexer) : Prop where
  lexical : ix'.lexical.entries = ix.lexical.entries
  /-- So it is for searches. -/
  searched : ix'.lexical.view.entries = ix.lexical.view.entries
  vectors : Option.Rel (fun v v' : VectorIndex Float => v'.chunks = v.chunks ∧
    v'.entries.mapValues Vector.Entry.vector = v.entries.mapValues Vector.Entry.vector) ix.vectors ix'.vectors
  store : ix'.store = ix.store
  graph : ix'.graph = ix.graph

section Indexed
variable {ix ix₁ ix₂ : Indexer} {chunks : List Chunk} {report report₁ report₂ : Report} {now now₁ now₂ : Float}

theorem Indexed.store_eq (h : ix.Indexed chunks report ix₁) : ix₁.store = withTaken ix.store chunks :=
  congrArg ChunkStore.mk h.store

/-- What is said of chunks are the collisions and the refusals. -/
theorem Indexed.ofChunks (h : ix.Indexed chunks report ix₁) : report.complaints.filter Complaint.isOfChunk
    = (distinct ix.store chunks).2 ++ ((distinct ix.store chunks).1.values.filter fun c => !c.isFilled).map refusal := by
  obtain ⟨faults, storage, complaints⟩ := h.complaints
  have said : ∀ complaint ∈ (distinct ix.store chunks).2
      ++ ((distinct ix.store chunks).1.values.filter fun c => !c.isFilled).map refusal, complaint.isOfChunk = true := by
    refine List.forall_mem_append.2 ⟨fun complaint told => ?_, List.forall_mem_map.2 fun c _ => rfl⟩
    have collision := isCollision_distinct complaint told
    cases complaint with
    | collision c => rfl
    | failed fault => cases collision
    | unread path fault => cases collision
  have unsaid : (faults.map Complaint.failed).filter Complaint.isOfChunk = [] := by
    refine List.filter_eq_nil_iff.2 (List.forall_mem_map.2 fun fault hf => ?_)
    simp [Complaint.isOfChunk, storage fault hf]
  rw [complaints, List.filter_append, unsaid, List.append_nil]
  exact List.filter_eq_self.2 said

/-- Vectors that are put under the ids of chunks, without their times. -/
theorem mapValues_putWith {vectors : List (List Float)} {v v' : VectorIndex Float}
    (put : v.PutWith now chunks vectors v') : v'.entries.mapValues Vector.Entry.vector
      = (v.entries.mapValues Vector.Entry.vector).putAll ((chunks.zip vectors).map fun pair => (pair.1.id, pair.2)) := by
  rw [put.entries, Keyed.mapValues_putAll, List.map_map]
  rfl

/-- Chunks and vectors that are put a second time are there already. -/
theorem rel_again {before middle after : Option (VectorIndex Float)} {vectors₁ vectors₂ : List (List Float)}
    (embedded₁ : ∀ v ∈ before, v.embedChunks chunks = .ok vectors₁)
    (vectors : Option.Rel (VectorIndex.PutWith now₁ chunks vectors₁) before middle)
    (put : Option.Rel (VectorsPut chunks) before middle)
    (embedded₂ : ∀ v ∈ middle, v.embedChunks chunks = .ok vectors₂)
    (vectors' : Option.Rel (VectorIndex.PutWith now₂ chunks vectors₂) middle after)
    (put' : Option.Rel (VectorsPut chunks) middle after) :
    Option.Rel (fun v v' : VectorIndex Float => v'.chunks = v.chunks ∧
      v'.entries.mapValues Vector.Entry.vector = v.entries.mapValues Vector.Entry.vector) middle after := by
  cases vectors with
  | none =>
    cases vectors' with
    | none => exact .none
  | @some v v₁ first =>
    cases vectors' with
    | @some _ v₂ second =>
      cases put with
      | some put =>
        cases put' with
        | some put' =>
          -- the embedder has not changed, so the texts get the same vectors
          have same := embedded₂ v₁ rfl
          rw [first.embedChunks, embedded₁ v rfl] at same
          obtain rfl := Except.ok.inj same
          refine .some ⟨?_, ?_⟩
          · rw [put'.chunks, put.chunks, Keyed.putAll_putAll]
          · rw [mapValues_putWith second, mapValues_putWith first, Keyed.putAll_putAll]

/-- A batch that has been indexed before changes nothing. -/
theorem Indexed.unchanged (first : ix.Indexed chunks report₁ ix₁) (derived₁ : ix.Derived now₁ chunks ix₁)
    (second : ix₁.Indexed chunks report₂ ix₂) (derived₂ : ix₁.Derived now₂ chunks ix₂) : ix₁.Unchanged ix₂ := by
  have same : taken ix₁.store chunks = taken ix.store chunks := by rw [first.store_eq, taken_withTaken]
  have store : ix₂.store = ix₁.store := by
    rw [second.store_eq, first.store_eq, withTaken, taken_withTaken, withTaken, Keyed.putAll_putAll]
  have lexical : ix₂.lexical.entries = ix₁.lexical.entries := by
    rw [second.entries, same, first.entries, Keyed.putAll_putAll]
  refine ⟨lexical, ?_, ?_, store, ?_⟩
  · rw [second.current.view, first.current.view, lexical]
  · obtain ⟨vectors₁, embedded₁, put₁⟩ := derived₁.vectors
    obtain ⟨vectors₂, embedded₂, put₂⟩ := derived₂.vectors
    have stand₂ := second.vectors
    rw [same] at embedded₂ put₂ stand₂
    exact rel_again embedded₁ put₁ first.vectors embedded₂ put₂ stand₂
  · rw [derived₂.graph, derived₁.graph, store, Option.map_map]
    rfl

/-- Its report counts the same chunks and says the same of them. -/
theorem Indexed.again (first : ix.Indexed chunks report₁ ix₁) (second : ix₁.Indexed chunks report₂ ix₂) :
    report₂.indexed = report₁.indexed ∧ report₂.skipped = report₁.skipped ∧
      report₂.complaints.filter Complaint.isOfChunk = report₁.complaints.filter Complaint.isOfChunk := by
  have indexed : report₂.indexed = report₁.indexed := by
    rw [second.indexed, first.indexed, first.store_eq, taken_withTaken]
  refine ⟨indexed, ?_, ?_⟩
  · rw [Report.skipped, Report.skipped, second.received, first.received, indexed]
  · rw [second.ofChunks, first.ofChunks, first.store_eq, distinct_withTaken]

end Indexed

/-- When a batch of chunks, some of which may be refused, is indexed a second time, nothing changes in any index but the
times of its vectors, and the report counts the same chunks and says the same of them. The times of the two calls and what
the disk does short of losing its power make no difference. -/
theorem Healthy.indexChunks_again {ix : Indexer} {p : Chunk → Prop} {width : Nat} (h : ix.Healthy p width)
    {chunks : List Chunk} (kinds : ∀ c ∈ chunks, c.Refused ∨ (p c ∧ c.Fit ix.writesText)) (now₁ now₂ : Float) {d : Disk}
    (uncut : .cut ∉ d.fates) :
    ∃ report₁ ix₁ d₁, (indexChunks now₁ chunks).runOn ix d = (.ok report₁, ix₁, d₁) ∧ .cut ∉ d₁.fates ∧
      ∀ d', .cut ∉ d'.fates → ∃ report₂ ix₂ d₂, (indexChunks now₂ chunks).runOn ix₁ d' = (.ok report₂, ix₂, d₂) ∧
        ix₁.Unchanged ix₂ ∧ report₂.indexed = report₁.indexed ∧ report₂.skipped = report₁.skipped ∧
        report₂.complaints.filter Complaint.isOfChunk = report₁.complaints.filter Complaint.isOfChunk := by
  obtain ⟨report₁, ix₁, d₁, run₁, first, derived₁, h₁, text, uncut₁⟩ := h.runOn_indexChunks kinds now₁ uncut
  refine ⟨report₁, ix₁, d₁, run₁, uncut₁, fun d' uncut' => ?_⟩
  obtain ⟨report₂, ix₂, d₂, run₂, second, derived₂, -⟩ := h₁.runOn_indexChunks (text ▸ kinds) now₂ uncut'
  exact ⟨report₂, ix₂, d₂, run₂, first.unchanged derived₁ second derived₂, first.again second⟩

/-- A chunk, another one of its id, the first again, and one without content. -/
theorem indexChunks_again_sample :
    let batch : List Chunk := [.plain "x" "text", .plain "x" "other", .plain "x" "text", .plain "y" ""]
    ∃ report₁ ix₁ d₁ report₂ ix₂ d₂, (indexChunks 0 batch).runOn sample .blank = (.ok report₁, ix₁, d₁) ∧
      (indexChunks 1 batch).runOn ix₁ d₁ = (.ok report₂, ix₂, d₂) ∧ ix₁.Unchanged ix₂ ∧
      report₂.indexed = report₁.indexed ∧ report₂.skipped = report₁.skipped ∧
      report₂.complaints.filter Complaint.isOfChunk = report₁.complaints.filter Complaint.isOfChunk := by
  have fit {content : String} (ascii : ∀ c ∈ content.toList, c.toNat < 128) (filled : Text.allBlank content = false)
      (whole : (Chunk.plain "x" content).json.isWhole = true) :
      (Chunk.plain "x" content).Made ∧ (Chunk.plain "x" content).Fit sample.writesText := by
    have read : (Chunk.plain "x" content).WellRead := Chunk.wellRead_plain (.of_ascii (by decide)) (by decide)
      (.of_ascii ascii) filled
    exact ⟨read.made, Chunk.fit_plain read whole _⟩
  have text := fit (by decide) (by decide) (by decide +kernel : (Chunk.plain "x" "text").json.isWhole = true)
  have other := fit (by decide) (by decide) (by decide +kernel : (Chunk.plain "x" "other").json.isWhole = true)
  have kinds : ∀ c ∈ [Chunk.plain "x" "text", .plain "x" "other", .plain "x" "text", .plain "y" ""],
      c.Refused ∨ (c.Made ∧ c.Fit sample.writesText) := by
    intro c hc
    simp only [List.mem_cons, List.not_mem_nil, or_false] at hc
    rcases hc with rfl | rfl | rfl | rfl
    · exact .inr text
    · exact .inr other
    · exact .inr text
    · exact .inl ⟨rfl, rfl, by decide⟩
  have uncut : Fate.cut ∉ Disk.blank.fates := List.not_mem_nil
  obtain ⟨report₁, ix₁, d₁, run₁, uncut₁, again⟩ := healthy_sample.indexChunks_again kinds 0 1 uncut
  obtain ⟨report₂, ix₂, d₂, run₂, same⟩ := again d₁ uncut₁
  exact ⟨report₁, ix₁, d₁, report₂, ix₂, d₂, run₁, run₂, same⟩

end CodeSearch.Indexer
