import CodeSearch.Proofs.Lexical.Room
import CodeSearch.Proofs.Query.Words
/-!
# Runs without a failure

`Faultless` are the indexes and disks that a run reaches in which every effect and every operation is done. Where there
is room it goes on (`Faultless.advances`). `Faultless.directory_exact`: at every point of such a run, opening the
directory again gives the entries at hand, in their order, and the manifest lists the segment files of the directory,
each once.
-/

namespace CodeSearch.LexicalIndex

open Lexical

variable {α : Type}

/-- A directory without a manifest and without segments. -/
structure IsFresh (dir : Path) (d : Disk) : Prop where
  manifest : d.nodeAt? (dir.child manifestName).place = none
  segments : ∀ n, ¬ SegmentFile dir d n

/-- What is reached from a fresh directory by operations on chunks that were made of data with their lines in order,
when nothing fails. A query that does not parse does nothing. The index may be closed and opened again at any
point, with any number of segments. -/
inductive Faultless (dir : Path) : LexicalIndex α → Disk → Prop where
  | opened {d : Disk} {ix : LexicalIndex α} {k1 b : Parameter α} {most : Int} {unfit : Unfit} (fresh : IsFresh dir d)
      (used : d.fates = []) (opened : openAt (some dir) k1 b (.ok most) unfit d = .ok ix) : Faultless dir ix d
  | operation {d d' : Disk} {ix ix' : LexicalIndex α} {answer : Except Fault Unit} (h : Faultless dir ix d)
      (op : Operation) (chunks : ∀ c ∈ op.chunks, c.FromData ∧ c.InOrder)
      (run : op.run.runOn ix d = (answer, ix', d')) (done : answer = .ok () ∨ op.isRefused = true) :
      Faultless dir ix' d'
  | reopened {d : Disk} {ix ix' : LexicalIndex α} {k1 b : Parameter α} {most : Int} {unfit : Unfit}
      (h : Faultless dir ix d) (opened : openAt (some dir) k1 b (.ok most) unfit d = .ok ix') : Faultless dir ix' d

/-- The manifest of a directory, with the names of the segments and the next number. Before the first is written
there are no segments. -/
def ManifestLists (dir : Path) (d : Disk) (names : List String) (next : Nat) : Prop :=
  (d.nodeAt? (dir.child manifestName).place = none ∧ names = []) ∨
    d.FileAt (dir.child manifestName) (manifestContent names next)

/-- What holds at every point of a run without a failure. -/
structure IsExact (dir : Path) (most : Int) (ix : LexicalIndex α) (d : Disk) (log : Log) (next count : Nat) :
    Prop where
  sound : ix.IsSound dir most d log log next count
  inStep : ix.InStep log log
  exactly : Exactly dir d log
  used : d.fates = []

section Run
variable {dir : Path} {most : Int} {ix ix' : LexicalIndex α} {d d' : Disk} {log : Log} {next count : Nat}

theorem manifestLists_of_listed (h : Listed dir d log next) : ManifestLists dir d log.names next := by
  rcases h with ⟨nothing, rfl, _⟩ | there
  · exact .inl ⟨nothing, rfl⟩
  · exact .inr there

/-- One operation keeps it, and leaves few segments if it writes one. -/
theorem IsExact.operation (fits : DirectoryFits dir) (h : ix.IsExact dir most d log next count) {op : Operation}
    (chunks : ∀ c ∈ op.chunks, c.FromData ∧ c.InOrder) {answer : Except Fault Unit}
    (run : op.run.runOn ix d = (answer, ix', d')) (done : answer = .ok () ∨ op.isRefused = true) :
    ∃ log' next' count', ix'.IsExact dir most d' log' next' count' ∧
      (answer = .ok () → ix'.nextSegment ≠ ix.nextSegment → (log'.length : Int) ≤ max 1 most) := by
  obtain ⟨disk', own', next', count', outcome⟩ :=
    Operation.outcome_of_run fits h.sound (fun c hc => (chunks c hc).1.wellRead) run
  obtain ⟨inStep, _⟩ := outcome.done h.inStep (fun c hc => (chunks c hc).2) done
  have logs := inStep.logs
  subst logs
  refine ⟨own', next', count', ⟨outcome.sound, inStep, outcome.exactly done h.used h.exactly,
    outcome.changed.no_fates h.used⟩, fun answered wrote => outcome.few answered fun same => wrote ?_⟩
  rw [outcome.sound.kept.nextSegment, h.sound.kept.nextSegment, same]

theorem IsExact.of_fresh (fits : DirectoryFits dir) (fresh : IsFresh dir d) (used : d.fates = []) {k1 b : Parameter α}
    {unfit : Unfit} (opened : openAt (some dir) k1 b (.ok most) unfit d = .ok ix) :
    ix.IsExact dir most d [] 1 1 := by
  obtain ⟨sound, inStep⟩ := opened_fresh fits fresh.manifest opened
  exact ⟨sound, inStep, fun n => ⟨fun there => absurd there (fresh.segments n), nofun⟩, used⟩

theorem IsExact.reopened (fits : DirectoryFits dir) (h : ix.IsExact dir most d log next count) {k1 b : Parameter α}
    {most' : Int} {unfit : Unfit} (opened : openAt (some dir) k1 b (.ok most') unfit d = .ok ix') :
    ix'.IsExact dir most' d log next next := by
  obtain ⟨sound, inStep⟩ := h.sound.of_opened fits opened
  exact ⟨sound, inStep, h.exactly, h.used⟩

/-- It holds all along a run without a failure. -/
theorem Faultless.isExact (fits : DirectoryFits dir) (h : Faultless dir ix d) :
    ∃ most log next count, ix.IsExact dir most d log next count := by
  induction h with
  | opened fresh used opened => exact ⟨_, [], 1, 1, IsExact.of_fresh fits fresh used opened⟩
  | operation _ op chunks run done ih =>
    obtain ⟨most, log, next, count, exact⟩ := ih
    obtain ⟨log', next', count', exact', _⟩ := exact.operation fits chunks run done
    exact ⟨most, log', next', count', exact'⟩
  | reopened _ opened ih =>
    obtain ⟨most, log, next, count, exact⟩ := ih
    exact ⟨_, log, next, next, exact.reopened fits opened⟩

/-- At every point of a run without a failure, opening the directory again gives the entries at hand, and the manifest
lists the segment files of the directory, each once and with a number below the next one. An operation that writes a
segment leaves no more of them than are allowed, or one. -/
theorem Faultless.directory_exact (fits : DirectoryFits dir) (h : Faultless dir ix d) :
    (∀ (k1 b : Parameter α) (most : Int) (unfit : Unfit), ∃ reopened,
      openAt (some dir) k1 b (.ok most) unfit d = .ok reopened ∧ reopened.entries = ix.entries) ∧
    (∃ names next, ManifestLists dir d names next ∧ names.Nodup ∧
      (∀ n : Nat, SegmentFile dir d n ↔ segmentName n ∈ names) ∧
      ∀ name ∈ names, ∃ n : Nat, name = segmentName n ∧ n < next) ∧
    ∀ (op : Operation) (most : Int) (ix' : LexicalIndex α) (d' : Disk), (∀ c ∈ op.chunks, c.FromData ∧ c.InOrder) →
      ix.maxSegments = .ok most → op.run.runOn ix d = (.ok (), ix', d') → ix'.nextSegment ≠ ix.nextSegment →
      ∃ names next, ManifestLists dir d' names next ∧ (names.length : Int) ≤ max 1 most := by
  obtain ⟨most, log, next, count, exact⟩ := h.isExact fits
  refine ⟨?_, ?_, ?_⟩
  · intro k1 b most' unfit
    obtain ⟨reopened, opened, _, inStep⟩ := exact.sound.reopened fits k1 b most' unfit
    exact ⟨reopened, opened, inStep.entries.trans exact.inStep.entries.symm⟩
  · have kept := exact.sound.kept.diskKept
    refine ⟨log.names, next, manifestLists_of_listed exact.sound.kept.listed, Log.nodup_names kept.once, ?_, ?_⟩
    · intro n
      rw [exact.exactly n, Log.names_eq, List.mem_map]
      exact ⟨fun there => ⟨n, there, rfl⟩, fun ⟨m, hm, same⟩ => segmentName_inj.1 same ▸ hm⟩
    · intro name hn
      obtain ⟨segment, hs, rfl⟩ := List.mem_map.1 hn
      exact ⟨segment.1, rfl, kept.below _ (List.mem_map_of_mem hs)⟩
  · intro op most' ix' d' chunks limit run wrote
    rw [exact.sound.limit] at limit
    injection limit with limit
    subst limit
    obtain ⟨log', next', count', exact', few⟩ := exact.operation fits chunks run (.inl rfl)
    refine ⟨log'.names, next', manifestLists_of_listed exact'.sound.kept.listed, ?_⟩
    rw [Log.length_names]
    exact few rfl wrote

/-- Where there is room, a run goes on by any operation that is not refused, and the operation makes of the entries what
it should. -/
theorem Faultless.advances {bound n : ℕ} (holds : Holds dir bound) (h : Faultless dir ix d) (ready : ix.IsReady dir d n)
    (below : n + 1 < bound) (op : Operation) (unrefused : op.isRefused = false)
    (good : ∀ c ∈ op.chunks, (Change.add c).IsClear ∧ c.InOrder) :
    ∃ ix' next d', op.run.runOn ix d = (.ok (), ix', d') ∧ Faultless dir ix' d' ∧ ix'.IsReady dir d' next ∧
      next ≤ n + 2 ∧ (op.chunks ≠ [] → ix'.nextSegment ≠ ix.nextSegment) ∧ ix'.entries = op.result ix.entries ∧
      ix'.maxSegments = ix.maxSegments := by
  have fits : DirectoryFits dir := .of_down holds.manifest.own holds.down
  have data : ∀ c ∈ op.chunks, c.FromData ∧ c.InOrder := by
    intro c hc
    obtain ⟨clear, order⟩ := good c hc
    exact ⟨clear.fromData order, order⟩
  obtain ⟨most, log, next, count, exact⟩ := h.isExact fits
  obtain ⟨ix', next', d', run, le, lt, ready', _⟩ :=
    op.answers holds ready exact.used below unrefused fun c hc => (good c hc).1
  obtain ⟨_, _, _, _, outcome⟩ := Operation.outcome_of_run fits exact.sound (fun c hc => (data c hc).1.wellRead) run
  obtain ⟨_, entries⟩ := outcome.done exact.inStep (fun c hc => (data c hc).2) (.inl rfl)
  refine ⟨ix', next', d', run, h.operation op data run (.inl rfl), ready', le, fun some => ?_, entries,
    outcome.sound.limit.trans exact.sound.limit.symm⟩
  rw [ready'.number, ready.number]
  exact_mod_cast (lt some).ne'

end Run

/-! ## A run -/

/-- A directory that holds an index. -/
theorem holds_lex : Holds ⟨"", ["lex"]⟩ 8 := by
  have fits : ∀ name ∈ manifestName :: (List.range 8).map fun n : ℕ => segmentName n,
      (Path.child ⟨"", ["lex"]⟩ name).Fits ∧ (Path.child ⟨"", ["lex"]⟩ (name ++ ".tmp")).Fits := by decide +kernel
  have storable {name : String} (plain : IsPlainName name)
      (inside : name ∈ manifestName :: (List.range 8).map fun n : ℕ => segmentName n) :
      (Path.child ⟨"", ["lex"]⟩ name).Storable :=
    Path.storable_child plain (by decide) (fits name inside).1 (fits name inside).2 (by decide +kernel)
      (by decide +kernel)
  refine ⟨⟨by decide +kernel, by decide +kernel⟩, by decide, storable isPlainName_manifestName List.mem_cons_self, ?_⟩
  exact fun n hn => storable (isPlainName_segmentName n)
    (List.mem_cons_of_mem _ (List.mem_map_of_mem (List.mem_range.2 hn)))

theorem way_lex {place : Path} (h : Path.Way ⟨"", ["lex"]⟩ place) : place = ⟨"", ["lex"]⟩ := by
  obtain ⟨step, there, rfl⟩ := h
  obtain rfl := List.mem_singleton.1 there
  decide +kernel

theorem fits_lex : DirectoryFits ⟨"", ["lex"]⟩ := .of_down holds_lex.manifest.own holds_lex.down

theorem isFresh_blank (fates : List Fate) : IsFresh ⟨"", ["lex"]⟩ ⟨.empty, fates⟩ := by
  refine ⟨?_, fun n ⟨content, there⟩ => ?_⟩
  · rw [Path.place_child isPlainName_manifestName]
    rfl
  · rw [Path.place_child (isPlainName_segmentName n)] at there
    cases there

/-- On a blank disk there is room for an index. -/
theorem isReady_blank (k1 b : Parameter α) (most : Int) (fates : List Fate) :
    (blank (some ⟨"", ["lex"]⟩) k1 b (.ok most)).IsReady ⟨"", ["lex"]⟩ ⟨.empty, fates⟩ 1 := by
  refine ⟨⟨rfl, ⟨most, rfl⟩, ⟨[], rfl⟩, ⟨1, rfl, ?_⟩, List.forall_mem_nil _, List.forall_mem_nil _⟩, ?_, rfl⟩
  · exact Record.hasDigits_of_lt (k := 1) (by decide) (by decide) (by decide)
  · refine Disk.room_of_empty (fun place there => there.elim IndexPlace.inside fun way => ?_) fates
    rw [way_lex way]
    exact List.cons_ne_nil _ _

/-- Chunks of a word each, under ids of a letter. -/
def words : List Chunk := [.plain "x" "alpha", .plain "y" "beta", .plain "z" "gamma"]

theorem clear_words : ∀ c ∈ words, (Change.add c).IsClear ∧ c.InOrder := by
  have good {id content : String} (texts : ([id, content].all fun text =>
      (text.toList.all fun c => c.toNat < 128) && !Text.allBlank text) = true)
      (whole : (Change.add (.plain id content)).json.isWhole = true) :
      (Change.add (.plain id content)).IsClear ∧ (Chunk.plain id content).InOrder := by
    simp only [List.all_cons, List.all_nil, Bool.and_true, Bool.and_eq_true, Bool.not_eq_true'] at texts
    have read := Chunk.wellRead_plain (Chunk.isKept_ascii texts.1.1) texts.1.2 (Chunk.isKept_ascii texts.2.1) texts.2.2
    exact ⟨⟨⟨read, Nat.zero_le _⟩, whole⟩, Nat.le_refl 0⟩
  simp only [words, List.forall_mem_cons]
  exact ⟨good (by decide) (by decide +kernel), good (by decide) (by decide +kernel),
    good (by decide) (by decide +kernel), List.forall_mem_nil _⟩

/-- Two chunks are inserted, and then a third one, which makes a second segment and with it a compaction. One of the
first two is deleted, and the index is opened again. -/
theorem faultless_directory_exact_compacted :
    ∃ (filled compacted left reopened : LexicalIndex Unit) (d₁ d₂ d₃ : Disk),
      ((Operation.insertBatch (words.take 2)).run.runOn
          (blank (some ⟨"", ["lex"]⟩) (.whole 1) (.whole 1) (.ok 1)) .blank = (.ok (), filled, d₁) ∧
        (Operation.insertBatch (words.drop 2)).run.runOn filled d₁ = (.ok (), compacted, d₂) ∧
        (Operation.deleteByQuery "beta").run.runOn compacted d₂ = (.ok (), left, d₃) ∧
        openAt (some ⟨"", ["lex"]⟩) (.whole 1) (.whole 1) (.ok 3) [] d₃ = .ok reopened) ∧
      reopened.entries.values.map (fun e => e.chunk.id) = ["x", "z"] ∧
      (∃ names next, ManifestLists ⟨"", ["lex"]⟩ d₂ names next ∧ (names.length : Int) ≤ 1) ∧
      ∃ names next, ManifestLists ⟨"", ["lex"]⟩ d₃ names next ∧ names.Nodup ∧
        ∀ n : ℕ, SegmentFile ⟨"", ["lex"]⟩ d₃ n ↔ segmentName n ∈ names := by
  have parsed : Query.parse "beta" = .ok ⟨firsts (Token.tokens "beta"), [], [], []⟩ := Query.parse_words (by decide)
  have unrefused : (Operation.deleteByQuery "beta").isRefused = false := by rw [Operation.isRefused, parsed]
  have opened : openAt (some ⟨"", ["lex"]⟩) (.whole 1) (.whole 1) (.ok 1) [] Disk.blank
      = .ok (blank (some ⟨"", ["lex"]⟩) (.whole 1) (.whole 1) (.ok 1) : LexicalIndex Unit) :=
    openAt_of_nothing fits_lex.manifest (isFresh_blank []).manifest _ _ _ _
  have start := Faultless.opened (isFresh_blank []) rfl opened
  -- each operation goes on from where the one before has come to
  obtain ⟨filled, n₁, d₁, run₁, first, ready₁, le₁, _, entries₁, most₁⟩ := start.advances holds_lex
    (isReady_blank _ _ 1 []) (by decide) (.insertBatch (words.take 2)) rfl
    fun c hc => clear_words c (List.mem_of_mem_take hc)
  obtain ⟨compacted, n₂, d₂, run₂, second, ready₂, le₂, wrote, entries₂, _⟩ := first.advances holds_lex ready₁
    (by omega) (.insertBatch (words.drop 2)) rfl fun c hc => clear_words c (List.mem_of_mem_drop hc)
  obtain ⟨left, _, d₃, run₃, third, _, _, _, entries₃, _⟩ := second.advances holds_lex ready₂ (by omega)
    (.deleteByQuery "beta") unrefused (List.forall_mem_nil _)
  obtain ⟨reopened, again, same⟩ := (Faultless.directory_exact fits_lex third).1 (.whole 1) (.whole 1) 3 []
  obtain ⟨names, next, lists, once, files, _⟩ := (Faultless.directory_exact fits_lex (third.reopened again)).2.1
  have data : ∀ c ∈ words.drop 2, c.FromData ∧ c.InOrder := by
    intro c hc
    obtain ⟨clear, order⟩ := clear_words c (List.mem_of_mem_drop hc)
    exact ⟨clear.fromData order, order⟩
  have few := (Faultless.directory_exact fits_lex first).2.2 (.insertBatch (words.drop 2)) 1 compacted d₂ data most₁
    run₂ (wrote (by decide))
  refine ⟨filled, compacted, left, reopened, d₁, d₂, d₃, ⟨run₁, run₂, run₃, again⟩, ?_, few,
    names, next, lists, once, files⟩
  rw [same, entries₃, entries₂, entries₁]
  simp only [Operation.result, parsed]
  decide +kernel

end CodeSearch.LexicalIndex
