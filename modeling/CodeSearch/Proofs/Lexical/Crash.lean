import CodeSearch.Proofs.Lexical.History
/-!
# Crashes

`Reached` are the indexes and disks that a run reaches in which effects may be refused, and the power may go off
before any of them. `Reached.crash_safe`: wherever an operation stops, each segment that the manifest names stands as a
whole and the directory can be opened, and unless a write has failed before, it holds the entries from before or
those from after the operation.
-/

namespace CodeSearch.LexicalIndex

open Lexical

variable {α : Type}

/-- An operation is done, and nothing that it has written is passed over when it is read. -/
def isDone (op : Operation) (answer : Except Fault Unit) : Bool :=
  (answer.toBool || op.isRefused) && op.chunks.all fun c => c.startLine ≤ c.endLine

/-- What is reached from a directory without a manifest by operations on chunks that were made of data, each effect of
which has any fate. When the power goes off the index is opened again; it may be so at any other time. The truth
value tells whether all operations since the index was opened have been done. -/
inductive Reached (dir : Path) : LexicalIndex α → Disk → Bool → Prop where
  | opened {d : Disk} {ix : LexicalIndex α} {k1 b : Parameter α} {most : Int} {unfit : Unfit}
      (nothing : d.nodeAt? (dir.child manifestName).place = none)
      (opened : openAt (some dir) k1 b (.ok most) unfit d = .ok ix) : Reached dir ix d true
  | operation {d d' : Disk} {ix ix' : LexicalIndex α} {clean : Bool} {answer : Except Fault Unit}
      (h : Reached dir ix d clean) (op : Operation) (chunks : ∀ c ∈ op.chunks, c.FromData)
      (run : op.run.runOn ix d = (answer, ix', d')) (powered : answer ≠ .error .powerLoss) :
      Reached dir ix' d' (clean && isDone op answer)
  | crashed {d d' : Disk} {ix ix' ix'' : LexicalIndex α} {clean : Bool} {k1 b : Parameter α} {most : Int}
      {unfit : Unfit} (h : Reached dir ix d clean) (op : Operation) (chunks : ∀ c ∈ op.chunks, c.FromData)
      (run : op.run.runOn ix d = (.error .powerLoss, ix', d'))
      (opened : openAt (some dir) k1 b (.ok most) unfit d' = .ok ix'') : Reached dir ix'' d' true
  | reopened {d : Disk} {ix ix' : LexicalIndex α} {clean : Bool} {k1 b : Parameter α} {most : Int} {unfit : Unfit}
      (h : Reached dir ix d clean) (opened : openAt (some dir) k1 b (.ok most) unfit d = .ok ix') :
      Reached dir ix' d true

/-- Every segment that the manifest names stands as a whole. -/
def SegmentsStand (dir : Path) (d : Disk) : Prop :=
  ∃ names next, ManifestLists dir d names next ∧
    ∀ name ∈ names, ∃ changes, d.FileAt (dir.child name) (segmentContent changes)

section Run
variable {dir : Path} {ix ix' : LexicalIndex α} {d d' : Disk} {clean : Bool}

/-- What holds at every point of a run. -/
def IsSafe (dir : Path) (ix : LexicalIndex α) (d : Disk) (clean : Bool) : Prop :=
  ∃ most disk own next count, ix.IsSound dir most d disk own next count ∧ (clean = true → ix.InStep disk own)

theorem IsSound.segmentsStand {most : Int} {disk own : Log} {next count : Nat}
    (h : ix.IsSound dir most d disk own next count) : SegmentsStand dir d := by
  refine ⟨disk.names, next, manifestLists_of_listed h.kept.listed, fun name hn => ?_⟩
  obtain ⟨segment, hs, rfl⟩ := List.mem_map.1 hn
  exact ⟨segment.2, h.kept.diskKept.stands segment hs⟩

/-- A directory that is kept is safe however it is opened. -/
theorem IsSound.isSafe {most most' : Int} {disk own : Log} {next count : Nat} {k1 b : Parameter α} {unfit : Unfit}
    (fits : DirectoryFits dir) (h : ix.IsSound dir most d disk own next count)
    (opened : openAt (some dir) k1 b (.ok most') unfit d = .ok ix') : ix'.IsSafe dir d true := by
  obtain ⟨sound, inStep⟩ := h.of_opened fits opened
  exact ⟨most', disk, disk, next, next, sound, fun _ => inStep⟩

theorem isDone_iff {op : Operation} {answer : Except Fault Unit} :
    isDone op answer = true ↔ (answer = .ok () ∨ op.isRefused = true) ∧ ∀ c ∈ op.chunks, c.InOrder := by
  have ok : answer.toBool = true ↔ answer = .ok () := by
    cases answer <;> simp [Except.toBool]
  simp [isDone, ok, Chunk.InOrder]

theorem Reached.isSafe (fits : DirectoryFits dir) (h : Reached dir ix d clean) : ix.IsSafe dir d clean := by
  induction h with
  | opened nothing opened =>
    obtain ⟨sound, inStep⟩ := opened_fresh fits nothing opened
    exact ⟨_, [], [], 1, 1, sound, fun _ => inStep⟩
  | operation _ op chunks run _ ih =>
    obtain ⟨most, disk, own, next, count, sound, inStep⟩ := ih
    obtain ⟨disk', own', next', count', outcome⟩ :=
      Operation.outcome_of_run fits sound (fun c hc => (chunks c hc).wellRead) run
    refine ⟨most, disk', own', next', count', outcome.sound, fun clean => ?_⟩
    rw [Bool.and_eq_true, isDone_iff] at clean
    exact (outcome.done (inStep clean.1) clean.2.2 clean.2.1).1
  | crashed _ op chunks run opened ih =>
    obtain ⟨most, disk, own, next, count, sound, _⟩ := ih
    obtain ⟨disk', own', next', count', outcome⟩ :=
      Operation.outcome_of_run fits sound (fun c hc => (chunks c hc).wellRead) run
    exact outcome.sound.isSafe fits opened
  | reopened _ opened ih =>
    obtain ⟨most, disk, own, next, count, sound, _⟩ := ih
    exact sound.isSafe fits opened

/-- Wherever an operation stops, the segments that the manifest names stand as a whole, and the directory can be
opened. If nothing has failed since the index was opened, and the lines of the chunks are in order, it has the
entries from before the operation or those from after it. -/
theorem Reached.crash_safe (fits : DirectoryFits dir) (h : Reached dir ix d clean) (op : Operation)
    (chunks : ∀ c ∈ op.chunks, c.FromData) :
    SegmentsStand dir (op.run.runOn ix d).2.2 ∧
    ∀ (k1 b : Parameter α) (most : Int) (unfit : Unfit), ∃ reopened,
      openAt (some dir) k1 b (.ok most) unfit (op.run.runOn ix d).2.2 = .ok reopened ∧
      (clean = true → (∀ c ∈ op.chunks, c.InOrder) →
        reopened.entries = ix.entries ∨ reopened.entries = op.result ix.entries) := by
  obtain ⟨most, disk, own, next, count, sound, inStep⟩ := h.isSafe fits
  obtain ⟨answer, ix', d', disk', own', next', count', run, outcome⟩ :=
    op.outcome fits sound fun c hc => (chunks c hc).wellRead
  rw [run]
  refine ⟨outcome.sound.segmentsStand, fun k1 b most' unfit => ?_⟩
  obtain ⟨reopened, opened, _, same⟩ := outcome.sound.reopened fits k1 b most' unfit
  refine ⟨reopened, opened, fun clean order => ?_⟩
  rw [same.entries]
  exact outcome.atomic (inStep clean) order

end Run

theorem fromData_alpha : (Chunk.plain "x" "alpha").FromData :=
  Chunk.fromData_plain (Chunk.wellRead_plain (Chunk.isKept_ascii (by decide)) (by decide)
    (Chunk.isKept_ascii (by decide)) (by decide))

/-- An index is opened on a blank disk. -/
theorem reached_blank (most : Int) (fates : List Fate) :
    Reached ⟨"", ["lex"]⟩ (blank (some ⟨"", ["lex"]⟩) (.whole 1) (.whole 1) (.ok most) : LexicalIndex Unit)
      ⟨.empty, fates⟩ true := by
  have nothing := (isFresh_blank fates).manifest
  exact .opened nothing (openAt_of_nothing fits_lex.manifest nothing _ _ (.ok most) [])

/-- Two chunks are in a segment that the manifest names. A third one makes a second segment, and the power goes off in the
compaction that follows, when the new segment stands beside the old ones and the manifest does not name it. -/
theorem crash_safe_compaction :
    ∃ (filled : LexicalIndex Unit) (d : Disk),
      (Operation.insertBatch (words.take 2)).run.runOn (blank (some ⟨"", ["lex"]⟩) (.whole 1) (.whole 1) (.ok 1))
        ⟨.empty, List.replicate 15 .done ++ [.cut]⟩ = (.ok (), filled, d) ∧
      ((Operation.insertBatch (words.drop 2)).run.runOn filled d).1 = .error .powerLoss ∧
      SegmentsStand ⟨"", ["lex"]⟩ ((Operation.insertBatch (words.drop 2)).run.runOn filled d).2.2 ∧
      ∃ reopened : LexicalIndex Unit, openAt (some ⟨"", ["lex"]⟩) (.whole 1) (.whole 1) (.ok 1) []
        ((Operation.insertBatch (words.drop 2)).run.runOn filled d).2.2 = .ok reopened ∧
        (reopened.entries = filled.entries ∨
          reopened.entries = (Operation.insertBatch (words.drop 2)).result filled.entries) := by
  have clear : ∀ c ∈ words, (Change.add c).IsClear := fun c hc => (clear_words c hc).1
  have data : ∀ c ∈ words, c.FromData := fun c hc => (clear c hc).fromData (clear_words c hc).2
  have blankReady : (blank (some ⟨"", ["lex"]⟩) (.whole 1) (.whole 1) (.ok 1) : LexicalIndex Unit).IsReady ⟨"", ["lex"]⟩
      ⟨.empty, List.replicate 15 .done ++ [.cut]⟩ 1 := isReady_blank _ _ _ _
  -- the first insertion makes one segment, and does not compact
  have granted₁ : Disk.Grants ⟨.empty, List.replicate 15 .done ++ [.cut]⟩ 6 := by
    rw [Disk.Grants]
    decide
  obtain ⟨filled, d, run₁, segments₁, limit₁, ready₁, fates₁⟩ := runOn_insertBatch_listed holds_lex blankReady granted₁
    (by decide) rfl (show words.take 2 ≠ [] by decide) fun c hc => clear c (List.mem_of_mem_take hc)
  rw [segments₁] at run₁
  -- the second one compacts, and there the power goes off
  have granted₂ : d.Grants 6 := by
    rw [Disk.Grants, fates₁]
    decide
  obtain ⟨full, d₂, run₂, segments₂, _, ready₂, fates₂⟩ := runOn_insertBatch_listed holds_lex ready₁ granted₂ (by decide)
    limit₁ (show words.drop 2 ≠ [] by decide) fun c hc => clear c (List.mem_of_mem_drop hc)
  have granted₃ : d₂.Grants 3 := by
    rw [Disk.Grants, fates₂, fates₁]
    decide
  have cut : (d₂.fates.drop 3).head? = some .cut := by
    rw [fates₂, fates₁]
    rfl
  have off := runOn_compact_cut holds_lex ready₂ granted₃ (by decide) (by decide) cut
  rw [segments₂, segments₁] at run₂
  have powered : (.ok () : Except Fault Unit) ≠ .error .powerLoss := by
    rintro ⟨⟩
  have reached := (reached_blank 1 _).operation (.insertBatch (words.take 2))
    (fun c hc => data c (List.mem_of_mem_take hc)) run₁ powered
  obtain ⟨stand, reopen⟩ := Reached.crash_safe fits_lex reached (.insertBatch (words.drop 2))
    fun c hc => data c (List.mem_of_mem_drop hc)
  obtain ⟨reopened, opened, either⟩ := reopen (.whole 1) (.whole 1) 1 []
  refine ⟨filled, d, run₁, ?_, stand, reopened, opened, either (by decide) ?_⟩
  · rw [run₂]
    exact off
  · exact fun c hc => (clear_words c (List.mem_of_mem_drop hc)).2

end CodeSearch.LexicalIndex
