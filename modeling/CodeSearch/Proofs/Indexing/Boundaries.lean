import CodeSearch.Proofs.Indexing.Healthy
/-!
# The boundaries of batches

Where a list of chunks is cut into batches makes no difference to what the indexes hold and to the collisions that are
told of (`Healthy.indexChunks_append` for two batches, `Healthy.indexBatches` for any number). It may make one to which
of several chunks of one id and one content stands in the indexes: within a batch the first does, but a later batch puts
its own in the place of one that is there.
-/

namespace CodeSearch.Indexer

open Lexical Indexing CodeSearch.Action

/-- All indexes have the same ids in the same order, and the same content under each. -/
structure SameContents (ix ix' : Indexer) : Prop where
  lexical : ix.lexical.entries.mapValues (fun e => e.chunk.content)
    = ix'.lexical.entries.mapValues fun e => e.chunk.content
  /-- So it is for searches. -/
  searched : ix.lexical.view.entries.map (fun e => e.chunk.content)
    = ix'.lexical.view.entries.map fun e => e.chunk.content
  vectors : Option.Rel (fun v v' : VectorIndex Float => v.entries.keys = v'.entries.keys ∧
    v.chunks.mapValues Chunk.content = v'.chunks.mapValues Chunk.content) ix.vectors ix'.vectors
  store : ix.store.chunks.mapValues Chunk.content = ix'.store.chunks.mapValues Chunk.content

section Indexed
variable {ix ix' : Indexer} {chunks : List Chunk} {report : Report}

/-- The collisions that are reported are those that the comparison with the store has found. -/
theorem Indexed.collisions (h : ix.Indexed chunks report ix') :
    report.complaints.filter Complaint.isCollision = (distinct ix.store chunks).2 := by
  obtain ⟨faults, _, complaints⟩ := h.complaints
  have others {β : Type} (items : List β) (complain : β → Complaint) (other : ∀ b, (complain b).isCollision = false) :
      (items.map complain).filter Complaint.isCollision = [] := by
    refine List.filter_eq_nil_iff.2 fun complaint hc => ?_
    obtain ⟨b, _, rfl⟩ := List.mem_map.1 hc
    simp [other b]
  rw [complaints, List.filter_append, List.filter_append, others _ _ fun _ => rfl, others _ _ fun _ => rfl,
    List.append_nil, List.append_nil]
  exact List.filter_eq_self.2 isCollision_distinct

/-- The ids of the vectors depend on the ids that are there and those that are put. -/
theorem VectorsPut.ids {v v' : VectorIndex Float} (put : VectorsPut chunks v v') {ids : Keyed String String}
    (same : v.entries.keys = ids.keys) : v'.entries.keys = (ids.putAll (contents chunks)).keys := by
  obtain ⟨pairs, entries, keys⟩ := put.entries
  rw [entries]
  refine Keyed.keys_putAll_congr same (keys.trans ?_)
  rw [contents, List.map_map]
  rfl

/-- The contents of chunks have come under their ids into an index of vectors. -/
structure VectorsFilled (puts : List (String × String)) (v v' : VectorIndex Float) : Prop where
  ids : ∀ ids : Keyed String String, v.entries.keys = ids.keys → v'.entries.keys = (ids.putAll puts).keys
  contents : v'.chunks.mapValues Chunk.content = (v.chunks.mapValues Chunk.content).putAll puts

/-- The contents of what is taken of some chunks have come under their ids into all indexes. -/
structure Filled (ix : Indexer) (chunks : List Chunk) (ix' : Indexer) : Prop where
  lexical : ix'.lexical.entries.mapValues (fun e => e.chunk.content)
    = (ix.lexical.entries.mapValues fun e => e.chunk.content).putAll (contents (taken ix.store chunks))
  vectors : Option.Rel (VectorsFilled (contents (taken ix.store chunks))) ix.vectors ix'.vectors
  store : ix'.store.chunks.mapValues Chunk.content
    = (ix.store.chunks.mapValues Chunk.content).putAll (contents (taken ix.store chunks))

theorem Indexed.filled (h : ix.Indexed chunks report ix') : ix.Filled chunks ix' := by
  refine ⟨?_, rel_mono h.vectors fun v v' put => ⟨fun _ => put.ids, ?_⟩, ?_⟩
  · rw [h.entries, Keyed.mapValues_putAll, List.map_map]
    rfl
  · rw [put.chunks, Keyed.mapValues_putAll, List.map_map]
    rfl
  · rw [h.store, Keyed.mapValues_putAll, List.map_map]
    rfl

theorem filled_nil (ix : Indexer) : ix.Filled [] ix := ⟨rfl, rel_refl fun _ => ⟨fun _ => id, rfl⟩, rfl⟩

end Indexed

section Filled
variable {ix ix₁ ix₂ : Indexer} {xs ys : List Chunk}

/-- Chunks that come in one after the other fill the indexes as they do together. -/
theorem Filled.append (first : ix.Filled xs ix₁) (second : ix₁.Filled ys ix₂) (filled₁ : ∀ c ∈ xs, c.isFilled = true)
    (filled₂ : ∀ c ∈ ys, c.isFilled = true) : ix.Filled (xs ++ ys) ix₂ := by
  have together := putAll_contents_taken filled₁ first.store filled₂
  refine ⟨?_, rel_trans first.vectors second.vectors fun v v₁ v₂ put₁ put₂ => ⟨fun ids same => ?_, ?_⟩, ?_⟩
  · rw [second.lexical, first.lexical, together]
  · rw [put₂.ids _ (put₁.ids _ same), together]
  · rw [put₂.contents, put₁.contents, together]
  · rw [second.store, first.store, together]

/-- Indexes that were alike and are filled with the same chunks are alike. -/
theorem Filled.sameContents (first : ix.Filled xs ix₁) (second : ix.Filled xs ix₂) (current₁ : ix₁.lexical.IsCurrent)
    (current₂ : ix₂.lexical.IsCurrent) : SameContents ix₁ ix₂ := by
  have lexical := first.lexical.trans second.lexical.symm
  refine ⟨lexical, ?_, rel_trans (rel_flip first.vectors) second.vectors fun v₁ v v₂ put₁ put₂ => ⟨?_, ?_⟩, ?_⟩
  · rw [current₁.view, current₂.view, ← Keyed.values_mapValues, ← Keyed.values_mapValues, lexical]
  · have same : v.entries.keys = (v.entries.mapValues fun _ => "").keys := (Keyed.keys_mapValues _ _).symm
    rw [put₁.ids _ same, put₂.ids _ same]
  · rw [put₁.contents, put₂.contents]
  · rw [first.store, second.store]

end Filled

section Batches
variable {ix : Indexer} {p : Chunk → Prop} {width : Nat}

/-- A batch of fit chunks fills the indexes with them. -/
theorem Healthy.runOn_indexChunks_fit (h : ix.Healthy p width) {chunks : List Chunk}
    (fit : ∀ c ∈ chunks, p c ∧ c.Fit ix.writesText) (now : Float) {d : Disk} (uncut : .cut ∉ d.fates) :
    ∃ report ix' d', (indexChunks now chunks).runOn ix d = (.ok report, ix', d') ∧ ix.Filled chunks ix' ∧
      report.complaints.filter Complaint.isCollision = (distinct ix.store chunks).2 ∧ ix'.lexical.IsCurrent ∧
      ix'.Healthy p width ∧ ix'.writesText = ix.writesText ∧ .cut ∉ d'.fates := by
  obtain ⟨report, ix', d', run, indexed, _, rest⟩ := h.runOn_indexChunks (fun c hc => .inr (fit c hc)) now uncut
  exact ⟨report, ix', d', run, indexed.filled, indexed.collisions, indexed.current, rest⟩

theorem isFilled_of_fit {text : Bool} {chunks : List Chunk} (fit : ∀ c ∈ chunks, p c ∧ c.Fit text) :
    ∀ c ∈ chunks, c.isFilled = true := fun c hc => Chunk.isFilled_of_made (fit c hc).2.made

/-- A list of chunks may be cut into two batches anywhere. -/
theorem Healthy.indexChunks_append (h : ix.Healthy p width) {xs ys : List Chunk}
    (first : ∀ c ∈ xs, p c ∧ c.Fit ix.writesText) (second : ∀ c ∈ ys, p c ∧ c.Fit ix.writesText)
    (now now₁ now₂ : Float) {d d₁ : Disk} (uncut : .cut ∉ d.fates) (uncut₁ : .cut ∉ d₁.fates) :
    ∃ report ix' d' report₁ report₂ ix₂ d₂,
      (indexChunks now (xs ++ ys)).runOn ix d = (.ok report, ix', d') ∧
      (do
        let report₁ ← indexChunks now₁ xs
        let report₂ ← indexChunks now₂ ys
        return (report₁, report₂)).runOn ix d₁ = (.ok (report₁, report₂), ix₂, d₂) ∧
      SameContents ix' ix₂ ∧ report.complaints.filter Complaint.isCollision
        = report₁.complaints.filter Complaint.isCollision ++ report₂.complaints.filter Complaint.isCollision := by
  obtain ⟨report, ix', d', run, filled, told, current, -⟩ :=
    h.runOn_indexChunks_fit (List.forall_mem_append.2 ⟨first, second⟩) now uncut
  obtain ⟨report₁, ix₁, d₁', run₁, filled₁, told₁, -, h₁, text, uncut₁'⟩ := h.runOn_indexChunks_fit first now₁ uncut₁
  obtain ⟨report₂, ix₂, d₂, run₂, filled₂, told₂, current₂, -⟩ :=
    h₁.runOn_indexChunks_fit (text.symm ▸ second) now₂ uncut₁'
  have both := filled₁.append filled₂ (isFilled_of_fit first) (isFilled_of_fit second)
  refine ⟨report, ix', d', report₁, report₂, ix₂, d₂, run, ?_, filled.sameContents both current current₂, ?_⟩
  · rw [runOn_bind_ok run₁, runOn_bind_ok run₂]
    rfl
  · rw [told, told₁, told₂, told_append (isFilled_of_fit first) filled₁.store]

/-- Nor does it matter into how many batches it is cut: one after the other they fill the indexes with all chunks, and
their reports tell of the collisions of the whole. -/
theorem Healthy.indexBatches (h : ix.Healthy p width) {batches : List (List Chunk)}
    (fit : ∀ chunks ∈ batches, ∀ c ∈ chunks, p c ∧ c.Fit ix.writesText) (now : Float) {d : Disk}
    (uncut : .cut ∉ d.fates) :
    ∃ reports ix' d', (batches.mapM (indexChunks now)).runOn ix d = (.ok reports, ix', d') ∧
      ix.Filled batches.flatten ix' ∧ (reports.flatMap fun report => report.complaints.filter Complaint.isCollision)
        = (distinct ix.store batches.flatten).2 ∧
      ix'.Healthy p width ∧ ix'.writesText = ix.writesText ∧ .cut ∉ d'.fates := by
  induction batches generalizing ix d with
  | nil => exact ⟨[], ix, d, rfl, filled_nil ix, rfl, h, rfl, uncut⟩
  | cons chunks batches ih =>
    obtain ⟨first, others⟩ := List.forall_mem_cons.1 fit
    obtain ⟨report, ix₁, d₁, run₁, filled₁, told₁, -, h₁, text₁, uncut₁⟩ := h.runOn_indexChunks_fit first now uncut
    obtain ⟨reports, ix', d', run', filled', told', h', text', uncut'⟩ := ih h₁ (text₁.symm ▸ others) uncut₁
    have rest : ∀ c ∈ batches.flatten, p c ∧ c.Fit ix.writesText := by
      intro c hc
      obtain ⟨chunks, inside, hc⟩ := List.mem_flatten.1 hc
      exact others chunks inside c hc
    refine ⟨report :: reports, ix', d', ?_, ?_, ?_, h', text'.trans text₁, uncut'⟩
    · rw [List.mapM_cons, runOn_bind_ok run₁, runOn_bind_ok run']
      rfl
    · exact filled₁.append filled' (isFilled_of_fit first) (isFilled_of_fit rest)
    · rw [List.flatMap_cons, List.flatten_cons, told₁, told', told_append (isFilled_of_fit first) filled₁.store]

end Batches

/-- An id comes again in the second batch, with another content and then with its own. -/
theorem indexChunks_append_sample :
    ∃ report ix' d' report₁ report₂ ix₂ d₂,
      (indexChunks 0 [.plain "x" "text", .plain "x" "other", .plain "x" "text", .plain "y" "text"]).runOn sample .blank
        = (.ok report, ix', d') ∧
      (do
        let report₁ ← indexChunks 1 [.plain "x" "text"]
        let report₂ ← indexChunks 2 [.plain "x" "other", .plain "x" "text", .plain "y" "text"]
        return (report₁, report₂)).runOn sample .blank = (.ok (report₁, report₂), ix₂, d₂) ∧
      SameContents ix' ix₂ ∧ report.complaints.filter Complaint.isCollision
        = report₁.complaints.filter Complaint.isCollision ++ report₂.complaints.filter Complaint.isCollision := by
  have ids : ∀ id ∈ ["x", "y"], Text.allBlank id = false ∧ ∀ c ∈ id.toList, c.toNat < 128 := by decide
  have contents : ∀ content ∈ ["text", "other"],
      Text.allBlank content = false ∧ ∀ c ∈ content.toList, c.toNat < 128 := by decide
  have whole : ∀ id ∈ ["x", "y"], ∀ content ∈ ["text", "other"], (Chunk.plain id content).json.isWhole = true := by
    decide +kernel
  have fit {id content : String} (hi : id ∈ ["x", "y"]) (hc : content ∈ ["text", "other"]) :
      (Chunk.plain id content).Made ∧ (Chunk.plain id content).Fit sample.writesText := by
    have read : (Chunk.plain id content).WellRead := Chunk.wellRead_plain (.of_ascii (ids id hi).2) (ids id hi).1
      (.of_ascii (contents content hc).2) (contents content hc).1
    exact ⟨read.made, Chunk.fit_plain read (whole id hi content hc) _⟩
  have first : ∀ c ∈ [Chunk.plain "x" "text"], c.Made ∧ c.Fit sample.writesText :=
    List.forall_mem_singleton.2 (fit (by decide) (by decide))
  have second : ∀ c ∈ [Chunk.plain "x" "other", .plain "x" "text", .plain "y" "text"],
      c.Made ∧ c.Fit sample.writesText := by
    intro c hc
    simp only [List.mem_cons, List.not_mem_nil, or_false] at hc
    rcases hc with rfl | rfl | rfl <;> exact fit (by decide) (by decide)
  have uncut : Fate.cut ∉ Disk.blank.fates := List.not_mem_nil
  exact healthy_sample.indexChunks_append first second 0 1 2 uncut uncut

end CodeSearch.Indexer
