import CodeSearch.Proofs.Graph.Neighbors
import CodeSearch.Proofs.Vector.Nearest
import CodeSearch.Retrieval.Retriever
/-!
# Related chunks

The chunks related to one are those of near vectors, and then its neighbours in the graph that an index knows. Both
lists are cut to the number asked for before they are put together (`related_eq`). So a larger number extends the answer
(`extended_isPrefix`), and the answer to a smaller one falls short of the first of the larger one only where the graph
knows chunks that no index does (`related_extends`).
-/

namespace CodeSearch

/-! ## A list that is extended by another one -/

section Extended
variable (near : List Chunk) (others : List String) (resolve : String → Option Chunk)

/-- The chunks of those names that are not of some chunks. -/
def freshChunks (count : ℕ) : List Chunk :=
  ((others.take count).filter fun other => !(near.map Chunk.id).contains other).filterMap resolve

/-- Some chunks and then those of further names, up to a number. -/
def extended (count : ℕ) : List Chunk := (near ++ freshChunks near others resolve count).take count

variable {near others resolve}

theorem take_prefix_take {β : Type} {few many : List β} (h : few <+: many) {m n : ℕ} (le : m ≤ n) :
    few.take m <+: many.take n :=
  (h.take m).trans (List.take_prefix_take_left le)

theorem freshChunks_isPrefix {m n : ℕ} (le : m ≤ n) :
    freshChunks near others resolve m <+: freshChunks near others resolve n :=
  ((List.take_prefix_take_left le).filter _).filterMap _

theorem extended_isPrefix {m n : ℕ} (le : m ≤ n) : extended near others resolve m <+: extended near others resolve n :=
  take_prefix_take ((List.prefix_append_right_inj _).2 (freshChunks_isPrefix le)) le

variable (named : ∀ other c, resolve other = some c → c.id = other)
include named

theorem extended_nodup (once : (near.map Chunk.id).Nodup) (distinct : others.Nodup) (count : ℕ) :
    ((extended near others resolve count).map Chunk.id).Nodup := by
  have fresh := filterMap_sublist named ((others.take count).filter fun other => !(near.map Chunk.id).contains other)
  rw [List.map_id'] at fresh
  rw [extended, List.map_take, List.map_append]
  refine List.Nodup.sublist (List.take_sublist _ _) (List.nodup_append.2 ⟨once, ?_, ?_⟩)
  · exact ((distinct.sublist (List.take_sublist _ _)).filter _).sublist fresh
  · rintro a known _ new rfl
    have apart := (List.mem_filter.1 (fresh.subset new)).2
    simp [known] at apart

theorem mem_extended {count : ℕ} {c : Chunk} (h : c ∈ extended near others resolve count) :
    c ∈ near ∨ c.id ∈ others := by
  refine (List.mem_append.1 (List.mem_of_mem_take h)).imp_right fun fresh => ?_
  obtain ⟨other, ho, found⟩ := List.mem_filterMap.1 fresh
  rw [named other c found]
  exact List.mem_of_mem_take (List.mem_of_mem_filter ho)

omit named

/-- Names of which all are known give enough chunks to fill up with. -/
theorem length_freshChunks (distinct : others.Nodup) {m : ℕ} (enough : m ≤ others.length)
    (known : ∀ other ∈ others.take m, (resolve other).isSome) :
    m ≤ near.length + (freshChunks near others resolve m).length := by
  have resolved {names : List String} (known : ∀ name ∈ names, (resolve name).isSome) :
      (names.filterMap resolve).length = names.length := by
    induction names with
    | nil => rfl
    | cons name names ih =>
      obtain ⟨c, found⟩ := Option.isSome_iff_exists.1 (known name List.mem_cons_self)
      rw [List.filterMap_cons_some found, List.length_cons, List.length_cons,
        ih fun other ho => known other (List.mem_cons_of_mem _ ho)]
  have dropped : ((others.take m).filter (near.map Chunk.id).contains).length ≤ near.length := by
    have sub : (others.take m).filter (near.map Chunk.id).contains ⊆ near.map Chunk.id := fun name hn => by
      simpa using (List.mem_filter.1 hn).2
    have fewer := (List.subperm_of_subset ((distinct.sublist (List.take_sublist m _)).filter _) sub).length_le
    rwa [List.length_map] at fewer
  have split := List.length_eq_length_filter_add (l := others.take m) (near.map Chunk.id).contains
  rw [List.length_take, Nat.min_eq_left enough] at split
  rw [freshChunks, resolved fun name hn => known name (List.mem_of_mem_filter hn)]
  omega

/-- Where all names are known, a smaller number gives the first of what a larger one does. -/
theorem extended_eq_take (distinct : others.Nodup) {m n : ℕ} (le : m ≤ n)
    (known : ∀ other ∈ others.take m, (resolve other).isSome) :
    extended near others resolve m = (extended near others resolve n).take m := by
  rw [extended, extended, List.take_take, Nat.min_eq_left le]
  rcases Nat.le_total others.length m with few | enough
  · rw [freshChunks, freshChunks, List.take_of_length_le few, List.take_of_length_le (few.trans le)]
  · have whole : m ≤ (near ++ freshChunks near others resolve m).length := by
      rw [List.length_append]
      exact length_freshChunks distinct enough known
    obtain ⟨rest, more⟩ : freshChunks near others resolve m <+: freshChunks near others resolve n :=
      freshChunks_isPrefix le
    rw [← more, ← List.append_assoc, List.take_append_of_le_length whole]

end Extended

/-- No id comes twice among the likenesses of an index. -/
theorem VectorIndex.likenesses_nodup (ix : VectorIndex ℝ) (query : List ℝ) :
    ((ix.likenesses query).map Vector.Similar.chunkId).Nodup := by
  refine List.Nodup.sublist ?_ ix.entries.nodup_keys
  refine filterMap_sublist (fun item s made => ?_) ix.entries.items
  obtain ⟨chunk, _, rfl⟩ := Option.map_eq_some_iff.1 made
  rfl

namespace Retriever

/-! ## The two sources -/

/-- Chunks are looked up without a fault, those that are found have the id that was asked for, and the vector index
compares with all its vectors. -/
structure IsOrderly (r : Retriever ℝ) : Prop where
  lookup : ∀ lookup ∈ r.lookup, ∀ id, lookup id = .ok none ∨ ∃ c, lookup id = .ok (some c) ∧ c.id = id
  vectors : ∀ v ∈ r.vectors, v.Lived ∧ (∃ width, v.IsPlain width) ∧ ∀ item ∈ v.chunks.items, item.1 = item.2.id

variable {r : Retriever ℝ}

/-- Every id can be looked up, and what is found has that id. -/
theorem IsOrderly.resolves (h : r.IsOrderly) :
    ∃ resolve : String → Option Chunk, (∀ id, r.chunk? id = .ok (resolve id)) ∧
      ∀ id c, resolve id = some c → c.id = id := by
  have stored (id : String) : ∀ c ∈ (r.lexical.chunk? id).or (r.vectors.bind fun v => v.chunk? id), c.id = id := by
    intro c hc
    rcases Option.or_eq_some_iff.1 hc with indexed | ⟨_, embedded⟩
    · obtain ⟨e, found, rfl⟩ := Option.map_eq_some_iff.1 indexed
      simpa using List.find?_some found
    · obtain ⟨v, hv, found⟩ := Option.bind_eq_some_iff.1 embedded
      exact ((h.vectors v hv).2.2 _ (Keyed.get?_eq_some.1 found)).symm
  have found (id : String) : ∃ found : Option Chunk, r.chunk? id = .ok found ∧ ∀ c ∈ found, c.id = id := by
    rw [chunk?]
    cases given : r.lookup with
    | none => exact ⟨_, rfl, stored id⟩
    | some lookup =>
      rcases h.lookup lookup given id with none | ⟨c, found, named⟩
      · simp only [none]
        exact ⟨_, rfl, stored id⟩
      · simp only [found]
        exact ⟨_, rfl, by simpa using named⟩
  choose resolve found named using found
  exact ⟨resolve, found, fun id c hc => named id c hc⟩

/-- The chunks whose vectors are similar to that of a chunk. -/
noncomputable def similar (r : Retriever ℝ) (id : String) (maxResults : ℤ) : Except Fault (List (Vector.Similar ℝ)) :=
  match r.vectors with
  | some v => v.findChunk id maxResults r.tunables.similarityThreshold
  | none => .ok []

/-- Similar chunks come in one order, however many are asked for, and the chunk itself is not among them. -/
theorem IsOrderly.similar_eq (h : r.IsOrderly) (id : String) :
    ∃ all : List (Vector.Similar ℝ), (∀ s ∈ all, s.chunkId ≠ id ∧ s.chunk.id = s.chunkId) ∧
      (all.map Vector.Similar.chunkId).Nodup ∧
      ∀ maxResults, r.similar id maxResults = .ok (all.take maxResults.toNat) := by
  unfold similar
  cases given : r.vectors with
  | none => exact ⟨[], by simp⟩
  | some v =>
    obtain ⟨lived, ⟨width, plain⟩, filed⟩ := h.vectors v given
    cases stored : v.entries.get? id with
    | none => exact ⟨[], by simp [VectorIndex.findChunk, stored]⟩
    | some e =>
      have fits := plain.wide e (Keyed.mem_values_of_get? stored)
      obtain ⟨all, ranking, apart, answers⟩ := plain.isNearest_findVector lived.isCurrent
        (Tensor.flatten_ofList e.vector) fits r.tunables.similarityThreshold (some id)
      refine ⟨all, fun s hs => ⟨by simpa using (apart s hs).1, ?_⟩, ?_, fun maxResults => ?_⟩
      · obtain ⟨_, chunk, _, registered, same, _⟩ := VectorIndex.entry_of_mem_likenesses
          (List.mem_of_mem_filter (ranking.mem_iff.1 hs))
        rw [same]
        exact (filed _ (Keyed.get?_eq_some.1 registered)).symm
      · refine ((ranking.perm.map _).nodup_iff).2 ?_
        exact (v.likenesses_nodup e.vector).sublist (List.filter_sublist.map _)
      · simp only [VectorIndex.findChunk, stored]
        exact answers maxResults

/-- The neighbours of a chunk in the graph, as far as there is one. -/
def others (r : Retriever ℝ) (id : String) : List String := (r.graph.map fun g => g.relations.related id).getD []

theorem others_nodup (r : Retriever ℝ) (id : String) : (r.others id).Nodup ∧ id ∉ r.others id := by
  unfold others
  cases r.graph with
  | none => exact ⟨List.nodup_nil, List.not_mem_nil⟩
  | some g => exact ⟨g.relations.related_nodup id, fun own => by simpa using (List.mem_filter.1 own).2⟩

/-- The neighbours that are not among some results, as far as an index knows them, are put behind these. -/
theorem graphNeighbors_eq {resolve : String → Option Chunk} (resolves : ∀ id, r.chunk? id = .ok (resolve id))
    {g : CodeGraph ℝ} (given : r.graph = some g) {count : ℕ} {before : List Chunk} (room : before.length < count)
    (id : String) (seen : List String) :
    r.graphNeighbors id count before seen = .ok (before ++
      (((g.relations.related id).take count).filter fun other => !seen.contains other).filterMap resolve) := by
  have looked (names : List String) : names.mapM r.chunk? = .ok (names.map resolve) :=
    mapM_ok fun name _ => resolves name
  simp only [graphNeighbors, given]
  rw [if_neg (by omega), looked, ok_bind, List.filterMap_map, Relations.neighbors, upTo_natCast]
  rfl

theorem map_id_similar {id : String} {all : List (Vector.Similar ℝ)}
    (apart : ∀ s ∈ all, s.chunkId ≠ id ∧ s.chunk.id = s.chunkId) :
    (all.map Vector.Similar.chunk).map Chunk.id = all.map Vector.Similar.chunkId := by
  rw [List.map_map]
  exact List.map_congr_left fun s hs => (apart s hs).2

/-- Related chunks are the similar ones, and then those of the other neighbours. -/
theorem related_eq {id : String} {all : List (Vector.Similar ℝ)}
    (apart : ∀ s ∈ all, s.chunkId ≠ id ∧ s.chunk.id = s.chunkId)
    (answers : ∀ maxResults, r.similar id maxResults = .ok (all.take maxResults.toNat))
    {resolve : String → Option Chunk} (resolves : ∀ id, r.chunk? id = .ok (resolve id)) (count : ℕ) :
    r.related id count = .ok (extended (all.map Vector.Similar.chunk) (r.others id) resolve count) := by
  have near : (all.take count).filter (fun s => s.chunkId ≠ id) = all.take count :=
    List.filter_eq_self.2 fun s hs => by simpa using (apart s (List.mem_of_mem_take hs)).1
  have answer := answers count
  rw [Int.toNat_natCast] at answer
  have related : r.related id count = (r.similar id count).bind fun similar =>
      (r.graphNeighbors id count ((similar.filter fun s => s.chunkId ≠ id).map Vector.Similar.chunk)
        (id :: (similar.filter fun s => s.chunkId ≠ id).map Vector.Similar.chunkId)).map (upTo count) := by
    unfold Retriever.related similar
    cases r.vectors <;> rfl
  rw [related, answer, Except.bind]
  simp only [near]
  cases given : r.graph with
  | none =>
    have nothing : r.others id = [] := by rw [others, given]; rfl
    rw [graphNeighbors, given]
    simp [Except.map, extended, freshChunks, nothing, upTo_natCast, List.map_take]
  | some g =>
    have neighbours : r.others id = g.relations.related id := by rw [others, given]; rfl
    rcases Nat.lt_or_ge all.length count with room | full
    · have whole : all.take count = all := List.take_of_length_le room.le
      -- the graph is asked for neighbours of the chunk, which is none of them itself
      have fresh : ((g.relations.related id).take count).filter
            (fun other => !(id :: all.map Vector.Similar.chunkId).contains other)
          = ((g.relations.related id).take count).filter
            fun other => !(all.map Vector.Similar.chunkId).contains other := by
        refine List.filter_congr fun other ho => ?_
        have differs : other ≠ id := by
          simpa using (List.mem_filter.1 (List.mem_of_mem_take ho)).2
        simp [differs]
      rw [whole, graphNeighbors_eq resolves given (by simpa using room), fresh, extended, freshChunks, neighbours,
        map_id_similar apart]
      simp [Except.map, upTo_natCast]
    · rw [graphNeighbors, given]
      simp [Except.map, extended, upTo_natCast, List.map_take, List.take_append_of_le_length, full]

/-- A larger number of related chunks extends the answer, in which no id comes twice and the chunk itself not at all.
The answer to the smaller number falls short of the first of the larger one only if no index knows one of the
neighbours that the graph was asked for. -/
theorem related_extends (orderly : r.IsOrderly) (id : String) {m n : ℤ} (positive : 0 ≤ m) (le : m ≤ n) :
    ∃ few more, r.related id m = .ok few ∧ r.related id n = .ok more ∧ few <+: more ∧ few.length ≤ m ∧
      (more.map Chunk.id).Nodup ∧ (∀ c ∈ more, c.id ≠ id) ∧
      (few = more.take m.toNat ∨
        ∃ g ∈ r.graph, ∃ other ∈ g.relations.neighbors id m, r.chunk? other = .ok none) := by
  obtain ⟨resolve, resolves, named⟩ := orderly.resolves
  obtain ⟨all, apart, once, answers⟩ := orderly.similar_eq id
  obtain ⟨m, rfl⟩ := Int.eq_ofNat_of_zero_le positive
  obtain ⟨n, rfl⟩ := Int.eq_ofNat_of_zero_le (positive.trans le)
  have le : m ≤ n := by omega
  have run := related_eq apart answers resolves
  obtain ⟨distinct, absent⟩ := r.others_nodup id
  refine ⟨_, _, run m, run n, extended_isPrefix le, ?_,
    extended_nodup named (map_id_similar apart ▸ once) distinct n, ?_, ?_⟩
  · rw [extended, List.length_take]
    omega
  · rintro c hc rfl
    rcases mem_extended named hc with near | other
    · obtain ⟨s, hs, rfl⟩ := List.mem_map.1 near
      exact (apart s hs).1 (apart s hs).2.symm
    · exact absent other
  · by_cases known : ∀ other ∈ (r.others id).take m, (resolve other).isSome
    · exact .inl (extended_eq_take distinct le known)
    · refine .inr ?_
      simp only [not_forall, Bool.not_eq_true, Option.isSome_eq_false_iff, Option.isNone_iff_eq_none] at known
      obtain ⟨other, ho, unknown⟩ := known
      cases given : r.graph with
      | none => simp [others, given] at ho
      | some g =>
        refine ⟨g, rfl, other, ?_, by rw [resolves, unknown]⟩
        rw [Relations.neighbors, upTo_natCast]
        simpa [others, given] using ho

/-- A chunk that calls what two others are named by. -/
def caller : List Chunk :=
  [{ Chunk.plain "a" "alpha" with apiCalls := ["run"] },
    { Chunk.plain "ghost" "gone" with qualifiedName := some "Ghost.run" },
    { Chunk.plain "b" "beta" with qualifiedName := some "Helper.run" }]

/-- A retriever with the graph of the caller, in which one of the others can be looked up. -/
noncomputable def drifted : Retriever ℝ where
  lexical := LexicalIndex.blank none (.whole 1) (.whole 1) (.ok 10)
  graph := some (({ weights := .standard } : CodeGraph ℝ).build caller)
  lookup := some fun id => .ok (if id = "b" then some (.plain "b" "beta") else none)
  tunables := .standard

theorem related_caller : (Relations.ofChunks caller).related "a" = ["ghost", "b"] := by
  have calls : ((Relations.ofChunks caller).calls.get? "a").getD [] = ["run"] := by decide +kernel
  have supers : ((Relations.ofChunks caller).supertypes.get? "a").getD [] = [] := by decide +kernel
  have package : (Relations.ofChunks caller).packageOf.get? "a" = none := by decide +kernel
  simp only [Relations.related, Relations.namedBy, Relations.sorted, calls, supers, package, List.mergeSort_singleton,
    List.mergeSort_nil]
  decide +kernel

/-- Asked for one chunk it gives none, though asked for two it gives one. -/
theorem related_extends_drifted :
    ∃ few more, drifted.related "a" 1 = .ok few ∧ drifted.related "a" 2 = .ok more ∧ few <+: more ∧
      few = [] ∧ more = [.plain "b" "beta"] := by
  have looked (id : String) : (if id = "b" then some (Chunk.plain "b" "beta") else none) = none ∨
      ∃ c, (if id = "b" then some (Chunk.plain "b" "beta") else none) = some c ∧ c.id = id := by
    by_cases known : id = "b"
    · exact .inr ⟨_, if_pos known, known.symm⟩
    · exact .inl (if_neg known)
  have orderly : drifted.IsOrderly := by
    refine ⟨fun lookup given id => ?_, nofun⟩
    obtain rfl := Option.some.inj given
    exact (looked id).imp (congrArg Except.ok) fun ⟨c, found, same⟩ => ⟨c, congrArg Except.ok found, same⟩
  have resolves (id : String) : drifted.chunk? id = .ok (if id = "b" then some (.plain "b" "beta") else none) :=
    congrArg Except.ok (Option.or_none (o := _))
  have others : drifted.others "a" = ["ghost", "b"] := related_caller
  have run (count : ℕ) := @related_eq drifted "a" [] (List.forall_mem_nil _) (fun _ => by simp [similar, drifted]) _
    resolves count
  simp only [others] at run
  obtain ⟨few, more, one, two, longer, _⟩ :=
    related_extends orderly "a" (by decide : (0 : ℤ) ≤ 1) (by decide : (1 : ℤ) ≤ 2)
  exact ⟨few, more, one, two, longer, Except.ok.inj (one.symm.trans (run 1)), Except.ok.inj (two.symm.trans (run 2))⟩

end Retriever

end CodeSearch
