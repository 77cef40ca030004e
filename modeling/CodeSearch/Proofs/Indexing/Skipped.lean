import CodeSearch.Proofs.Indexing.Healthy
/-!
# Blank chunks in a batch

Chunks whose id or content is blank do not keep a batch from being indexed (`Healthy.indexChunks_skips`): they are told
of and counted as skipped, nothing of them comes into an index, and every other chunk whose id is new comes into all of
them. The stages of indexing ask for a filled chunk in different words, so a blank chunk has to be one that the first of
them refuses (`Chunk.Refused`). An id of nothing but spaces passes there, and is refused by the store alone.
-/

namespace CodeSearch

/-- The id or the content is blank. -/
def Chunk.isBlank (c : Chunk) : Bool := Text.allBlank c.id || Text.allBlank c.content

namespace Indexer

open Lexical Indexing

/-- The chunk is in all indexes: searches read its entry, it has a vector, and it stands in the store. -/
structure Holds (ix : Indexer) (c : Chunk) : Prop where
  lexical : ix.lexical.entries.get? c.id = some (.ofChunk c)
  searched : .ofChunk c ∈ ix.lexical.view.entries
  vectors : ∀ v ∈ ix.vectors, v.chunks.get? c.id = some c ∧ c.id ∈ v.entries.keys
  store : ix.store.get? c.id = some c

/-- All indexes have under an id what they had before. -/
structure Keeps (id : String) (ix ix' : Indexer) : Prop where
  lexical : ix'.lexical.entries.get? id = ix.lexical.entries.get? id
  vectors : Option.Rel (fun v v' : VectorIndex Float => v'.entries.get? id = v.entries.get? id ∧
    v'.chunks.get? id = v.chunks.get? id) ix.vectors ix'.vectors
  store : ix'.store.get? id = ix.store.get? id

section Indexed
variable {ix ix' : Indexer} {chunks : List Chunk} {report : Report} {c : Chunk} {id : String}

theorem map_fst_pairs {β : Type} (f : Chunk → β) (chunks : List Chunk) :
    (chunks.map fun c => (c.id, f c)).map Prod.fst = chunks.map Chunk.id := by
  rw [List.map_map]
  rfl

theorem Indexed.holds (h : ix.Indexed chunks report ix') (hc : c ∈ taken ix.store chunks) : ix'.Holds c := by
  have once {β : Type} (f : Chunk → β) : (((taken ix.store chunks).map fun c => (c.id, f c)).map Prod.fst).Nodup :=
    map_fst_pairs f _ ▸ nodup_taken
  have lexical : ix'.lexical.entries.get? c.id = some (.ofChunk c) := by
    rw [h.entries]
    exact Keyed.get?_putAll_of_mem (once _) _ (List.mem_map_of_mem hc)
  refine ⟨lexical, ?_, ?_, ?_⟩
  · rw [h.current.view]
    exact Keyed.mem_values_of_get? lexical
  · intro v' hv
    obtain ⟨v, _, put⟩ := exists_of_rel h.vectors v' hv
    obtain ⟨pairs, entries, ids⟩ := put.entries
    refine ⟨?_, ?_⟩
    · rw [put.chunks]
      exact Keyed.get?_putAll_of_mem (once _) _ (List.mem_map_of_mem hc)
    · rw [entries]
      exact Keyed.mem_keys_putAll.2 (.inr (ids ▸ List.mem_map_of_mem hc))
  · rw [ChunkStore.get?, h.store]
    exact Keyed.get?_putAll_of_mem (once _) _ (List.mem_map_of_mem hc)

theorem Indexed.keeps (h : ix.Indexed chunks report ix') (absent : id ∉ (taken ix.store chunks).map Chunk.id) :
    Keeps id ix ix' := by
  have fresh {β : Type} (f : Chunk → β) : id ∉ ((taken ix.store chunks).map fun c => (c.id, f c)).map Prod.fst :=
    map_fst_pairs f _ ▸ absent
  refine ⟨?_, ?_, ?_⟩
  · rw [h.entries]
    exact Keyed.get?_putAll_of_not_mem (fresh _) _
  · refine rel_mono h.vectors fun v v' put => ?_
    obtain ⟨pairs, entries, ids⟩ := put.entries
    rw [entries, put.chunks]
    exact ⟨Keyed.get?_putAll_of_not_mem (ids ▸ absent) _, Keyed.get?_putAll_of_not_mem (fresh _) _⟩
  · rw [ChunkStore.get?, h.store]
    exact Keyed.get?_putAll_of_not_mem (fresh _) _

/-- A chunk that is refused is told of, as a collision or for what is missing. -/
theorem Indexed.told (h : ix.Indexed chunks report ix') (hc : c ∈ chunks) (empty : c.isFilled = false) :
    .collision c ∈ report.complaints ∨ refusal c ∈ report.complaints := by
  obtain ⟨faults, _, complaints⟩ := h.complaints
  rw [complaints]
  rcases collides_or_accepted (s := ix.store) hc with told | ⟨old, accepted, id, content⟩
  · exact .inl (List.mem_append_left _ (List.mem_append_left _ told))
  · -- what is accepted in its place has its id and content, so it is refused in the same words
    have same : old.isFilled = c.isFilled := by rw [Chunk.isFilled, Chunk.isFilled, id, content]
    have refused : refusal old = refusal c := by rw [refusal, refusal, id]
    refine .inr (List.mem_append_left _ (List.mem_append_right _ (refused ▸ List.mem_map_of_mem ?_)))
    exact List.mem_filter.2 ⟨accepted, by rw [same, empty]; rfl⟩

/-- The chunks that are blank are among those that are counted as skipped. -/
theorem Indexed.skips (h : ix.Indexed chunks report ix') (blank : ∀ c ∈ taken ix.store chunks, c.isBlank = false) :
    (chunks.countP Chunk.isBlank : Int) ≤ report.skipped := by
  have filled : (taken ix.store chunks).length ≤ chunks.countP fun c => !c.isBlank := by
    have all : (taken ix.store chunks).countP (fun c => !c.isBlank) = (taken ix.store chunks).length :=
      List.countP_eq_length.2 fun c hc => by rw [blank c hc]; rfl
    exact all ▸ (sublist_taken ix.store chunks).countP_le
  have parts := List.length_eq_countP_add_countP Chunk.isBlank (l := chunks)
  have others : (chunks.countP fun c => decide ¬c.isBlank = true) = chunks.countP fun c => !c.isBlank :=
    List.countP_congr fun c _ => by simp
  rw [Report.skipped, h.received, h.indexed]
  omega

end Indexed

/-- What comes of a batch with blank chunks in it. -/
structure SkipsBlank (ix : Indexer) (chunks : List Chunk) (report : Report) (ix' : Indexer) : Prop where
  /-- A blank chunk is told of. -/
  told : ∀ c ∈ chunks, c.isBlank = true → .collision c ∈ report.complaints ∨ refusal c ∈ report.complaints
  /-- All blank chunks are counted as skipped. -/
  counted : (chunks.countP Chunk.isBlank : Int) ≤ report.skipped
  /-- Under ids that only blank chunks have, or none, nothing changes. -/
  kept : ∀ id, (∀ c ∈ chunks, c.isBlank = false → c.id ≠ id) → Keeps id ix ix'
  /-- Every other chunk is in all indexes, if its id is neither in the store nor that of an earlier chunk. -/
  indexed : ∀ before c after, chunks = before ++ c :: after → c.isBlank = false → ix.store.get? c.id = none →
    c.id ∉ before.map Chunk.id → ix'.Holds c

/-- Blank chunks do not keep the others from being indexed. -/
theorem Healthy.indexChunks_skips {ix : Indexer} {p : Chunk → Prop} {width : Nat} (h : ix.Healthy p width)
    {chunks : List Chunk}
    (kinds : ∀ c ∈ chunks, if c.isBlank then c.Refused else p c ∧ c.Fit ix.writesText) (now : Float) {d : Disk}
    (uncut : .cut ∉ d.fates) :
    ∃ report ix' d', (indexChunks now chunks).runOn ix d = (.ok report, ix', d') ∧
      ix.SkipsBlank chunks report ix' := by
  have refused : ∀ c ∈ chunks, c.isBlank = true → c.Refused := fun c hc blank => by simpa [blank] using kinds c hc
  have fit : ∀ c ∈ chunks, c.isBlank = false → p c ∧ c.Fit ix.writesText :=
    fun c hc filled => by simpa [filled] using kinds c hc
  have either : ∀ c ∈ chunks, c.Refused ∨ (p c ∧ c.Fit ix.writesText) := by
    intro c hc
    cases blank : c.isBlank with
    | true => exact .inl (refused c hc blank)
    | false => exact .inr (fit c hc blank)
  obtain ⟨report, ix', d', run, indexed, -⟩ := h.runOn_indexChunks either now uncut
  have filled : ∀ c ∈ taken ix.store chunks, c.isBlank = false := by
    intro c hc
    obtain ⟨accepted, filled⟩ := List.mem_filter.1 hc
    refine Bool.eq_false_iff.2 fun blank => ?_
    rw [(refused c ((filed_members _ _).values c accepted) blank).empty] at filled
    cases filled
  have told : ∀ c ∈ chunks, c.isBlank = true → .collision c ∈ report.complaints ∨ refusal c ∈ report.complaints :=
    fun c hc blank => indexed.told hc (refused c hc blank).empty
  refine ⟨report, ix', d', run, told, indexed.skips filled, ?_, ?_⟩
  · intro id others
    refine indexed.keeps fun there => ?_
    obtain ⟨c, hc, rfl⟩ := List.mem_map.1 there
    exact others c ((sublist_taken _ _).subset hc) (filled c hc) rfl
  · rintro before c after rfl blank new first
    refine indexed.holds (List.mem_filter.2 ⟨accepted_of_first new first, ?_⟩)
    exact Chunk.isFilled_of_made (fit c (by simp) blank).2.made

/-- Blank chunks come beside one that is not. -/
theorem indexChunks_skips_sample :
    let chunks : List Chunk := [.plain "" "text", .plain "x" "text", .plain "y" " "]
    ∃ report ix' d', (indexChunks 0 chunks).runOn sample .blank = (.ok report, ix', d') ∧
      sample.SkipsBlank chunks report ix' ∧ ix'.Holds (.plain "x" "text") := by
  intro chunks
  have fit : (Chunk.plain "x" "text").Fit sample.writesText := Chunk.fit_plain
    (Chunk.wellRead_plain (.of_ascii (by decide)) (by decide) (.of_ascii (by decide)) (by decide)) (by decide +kernel) _
  have kinds : ∀ c ∈ chunks, if c.isBlank then c.Refused else c.Made ∧ c.Fit sample.writesText :=
    List.forall_mem_cons.2 ⟨⟨rfl, rfl, rfl⟩, List.forall_mem_cons.2 ⟨⟨fit.made, fit⟩, List.forall_mem_singleton.2
      ⟨rfl, rfl, by decide⟩⟩⟩
  have uncut : Fate.cut ∉ Disk.blank.fates := List.not_mem_nil
  obtain ⟨report, ix', d', run, skips⟩ := healthy_sample.indexChunks_skips kinds 0 uncut
  refine ⟨report, ix', d', run, skips, ?_⟩
  exact skips.indexed [.plain "" "text"] _ [.plain "y" " "] rfl (by decide) rfl (by decide)

end Indexer

end CodeSearch
