import CodeSearch.Proofs.Disk.Child
import CodeSearch.Proofs.Vector.Snapshot
/-!
# Closing a vector index

As long as nothing has changed since the index was stored, its snapshot holds it (`Synced`), unless it was stored
elsewhere: then the changes count as stored all the same, and closing does not write them. In all other cases an index
that has been closed is opened again with the same vectors, chunks and width (`Session.close_reopens`).
-/

namespace CodeSearch

/-- Work on a file at a path leaves the place of another path alone. -/
def Path.Apart (path other : Path) : Prop := ¬ path.Written other.place ∧ ¬ path.parent.Way other.place

/-- A path under which a snapshot can be kept: the disk takes it, and the directories on the way to it are not in its own
place. -/
structure Path.Keeps (path : Path) : Prop where
  fits : path.Fits
  way : ¬ path.parent.Way path.place

namespace VectorIndex

open CodeSearch.Vector CodeSearch.Action

/-! ## The width of an index -/

/-- The value of the width that an index is opened with, if it is opened with one. -/
def asked (width : Option Int) : Json := width.elim .null .int

/-- A width of an index that was opened with one, or with none: no other than it was opened with. -/
def IsWidth (width : Option Int) (dimension : Json) : Prop :=
  width = none ∨ dimension.isNull = false ∧ dimension.same (asked width) = true

theorem isWidth_asked (width : Option Int) : IsWidth width (asked width) := by
  cases width with
  | none => exact .inl rfl
  | some n => exact .inr ⟨rfl, by simp [asked, Json.same, Json.sameLeaf, Json.whole]⟩

/-- A width that is known stays. -/
theorem checkWidths_of_known {α : Type} {pairs : List (Chunk × Tensor α)} {dimension dimension' : Json}
    (known : dimension.isNull = false) (checked : checkWidths dimension pairs = .ok dimension') :
    dimension' = dimension := by
  induction pairs with
  | nil =>
    injection checked with checked
    exact checked.symm
  | cons pair pairs ih =>
    rw [checkWidths] at checked
    obtain ⟨_, _, checked⟩ := exists_of_bind_ok checked
    obtain ⟨length, _, checked⟩ := exists_of_bind_ok checked
    split at checked
    next => cases known
    next =>
      split at checked
      · exact ih checked
      · cases checked

theorem IsWidth.checked {α : Type} {width : Option Int} {pairs : List (Chunk × Tensor α)} {dimension dimension' : Json}
    (h : IsWidth width dimension) (checked : checkWidths dimension pairs = .ok dimension') : IsWidth width dimension' := by
  rcases h with none | ⟨known, same⟩
  · exact .inl none
  · rw [checkWidths_of_known known checked]
    exact .inr ⟨known, same⟩

/-! ## The snapshot of an index -/

/-- The vectors, the chunks and the width of two indexes are the same. -/
def Same (ix ix' : VectorIndex Float) : Prop :=
  ix'.entries = ix.entries ∧ ix'.chunks = ix.chunks ∧ ix'.dimension = ix.dimension

/-- What is known of an index at all times: it has a path, and its chunks come back from their records. -/
structure Kept (snapshot : Path) (width : Option Int) (ix : VectorIndex Float) : Prop where
  path : ix.snapshotPath = some snapshot
  read : ∀ item ∈ ix.chunks.items, item.2.WellRead ∧ item.2.InOrder
  table : checkTable (asked width) = .ok ()
  width : IsWidth width ix.dimension

/-- The index is what is read at its path. Where nothing is, that is an index without vectors. -/
inductive Stands (snapshot : Path) (width : Option Int) (ix : VectorIndex Float) (d : Disk) : Prop where
  | blank (nothing : d.nodeAt? snapshot.place = none) (entries : ix.entries = .empty) (chunks : ix.chunks = .empty)
      (dimension : ix.dimension = asked width)
  | stored (stored : VectorIndex Float) (there : d.FileAt snapshot (.binary stored.snapshotJson))
      (entries : ix.entries = stored.entries) (chunks : ix.chunks = stored.chunks)
      (dimension : ix.dimension = if stored.dimension.isNull then asked width else stored.dimension)

section
variable {snapshot : Path} {width : Option Int} {ix ix' : VectorIndex Float} {d d' : Disk}

theorem Stands.same (h : ix.Stands snapshot width d) (same : ix.Same ix') : ix'.Stands snapshot width d := by
  obtain ⟨entries', chunks', dimension'⟩ := same
  cases h with
  | blank nothing entries chunks dimension =>
    exact .blank nothing (entries'.trans entries) (chunks'.trans chunks) (dimension'.trans dimension)
  | stored stored there entries chunks dimension =>
    exact .stored stored there (entries'.trans entries) (chunks'.trans chunks) (dimension'.trans dimension)

/-- Work elsewhere leaves a snapshot as it is. -/
theorem Stands.changed {files ways : Path → Prop} (h : ix.Stands snapshot width d) (change : Disk.Changed files ways d d')
    (apart : ¬ files snapshot.place) (clear : ¬ ways snapshot.place) : ix.Stands snapshot width d' := by
  cases h with
  | blank nothing entries chunks dimension => exact .blank (change.none apart clear nothing) entries chunks dimension
  | stored stored there entries chunks dimension => exact .stored stored (there.changed change apart) entries chunks dimension

theorem openAt_of_nothing (fits : snapshot.Fits) (nothing : d.nodeAt? snapshot.place = none) (embedder : Embedder Float)
    (dimension : Json) (workers : Except Fault Int) (preselection : Except Fault Number) :
    openAt embedder (some snapshot) dimension workers preselection d = do
      checkTable dimension
      return VectorIndex.blank embedder (some snapshot) dimension workers preselection := by
  rw [openAt]
  simp only [Disk.holds_of_nothing fits nothing, bind, Except.bind, Bool.false_eq_true, if_false]

/-- An index is opened as it stands. -/
theorem Stands.opens (fits : snapshot.Fits) (kept : ix.Kept snapshot width) (h : ix.Stands snapshot width d)
    (embedder : Embedder Float) (workers : Except Fault Int) (preselection : Except Fault Number) :
    ∃ opened, openAt embedder (some snapshot) (asked width) workers preselection d = .ok opened ∧ ix.Same opened := by
  cases h with
  | blank nothing entries chunks dimension =>
    rw [openAt_of_nothing fits nothing, kept.table]
    exact ⟨_, rfl, entries.symm, chunks.symm, dimension.symm⟩
  | stored stored there entries chunks dimension =>
    have agrees : (!(asked width).isNull && !stored.dimension.isNull && !stored.dimension.same (asked width)) = false := by
      cases null : stored.dimension.isNull with
      | true => simp
      | false =>
        rw [null, if_neg (by decide)] at dimension
        rcases kept.width with rfl | ⟨_, same⟩
        · rfl
        · simp [← dimension, same]
    rw [openAt_snapshot there (chunks ▸ kept.read), kept.table]
    simp only [agrees]
    exact ⟨_, rfl, entries.symm, chunks.symm, dimension.symm⟩

/-- An index that has been opened, where nothing is or the snapshot of an index whose chunks come back. -/
theorem stands_of_openAt (fits : snapshot.Fits) (start : d.nodeAt? snapshot.place = none ∨
      ∃ stored : VectorIndex Float, d.FileAt snapshot (.binary stored.snapshotJson) ∧
        ∀ item ∈ stored.chunks.items, item.2.WellRead ∧ item.2.InOrder)
    {embedder : Embedder Float} {workers : Except Fault Int} {preselection : Except Fault Number}
    (opened : openAt embedder (some snapshot) (asked width) workers preselection d = .ok ix) :
    ix.Kept snapshot width ∧ ix.dirty = false ∧ ix.Stands snapshot width d := by
  rcases start with nothing | ⟨stored, there, read⟩
  · rw [openAt_of_nothing fits nothing] at opened
    obtain ⟨_, table, opened⟩ := exists_of_bind_ok opened
    injection opened with opened
    subst opened
    exact ⟨⟨rfl, List.forall_mem_nil _, table, isWidth_asked width⟩, rfl, .blank nothing rfl rfl rfl⟩
  · rw [openAt_snapshot there read] at opened
    obtain ⟨_, table, opened⟩ := exists_of_bind_ok opened
    split at opened
    next => cases opened
    next agrees =>
      injection opened with opened
      subst opened
      refine ⟨⟨rfl, read, table, ?_⟩, rfl, .stored stored there rfl rfl rfl⟩
      change IsWidth width (if stored.dimension.isNull then asked width else stored.dimension)
      cases null : stored.dimension.isNull with
      | true => exact isWidth_asked width
      | false =>
        cases width with
        | none => exact .inl rfl
        | some n =>
          have given : (asked (some n)).isNull = false := rfl
          exact .inr ⟨null, by simpa [null, given] using agrees⟩

/-! ## Changes in memory -/

/-- Whatever has changed counts as something to store. -/
def Noted (ix ix' : VectorIndex Float) : Prop := ix'.dirty = true ∨ ix'.dirty = ix.dirty ∧ ix.Same ix'

theorem Noted.refl (ix : VectorIndex Float) : ix.Noted ix := .inr ⟨rfl, rfl, rfl, rfl⟩

theorem Kept.insertEmbedded (h : ix.Kept snapshot width) {chunks : List Chunk}
    (good : ∀ c ∈ chunks, c.WellRead ∧ c.InOrder) (now : Float) (vectors : List (List Float)) :
    (ix.insertEmbedded now chunks (vectors.map Tensor.ofList)).2.Kept snapshot width ∧
      ix.Noted (ix.insertEmbedded now chunks (vectors.map Tensor.ofList)).2 := by
  have named : ∀ c ∈ chunks, c.checkId = .ok () := fun c hc => Chunk.checkId_of_checked (good c hc).1.checked
  rcases insertEmbedded_cases named now vectors ix with ⟨fault, failed⟩ | ⟨ix', done, put⟩
  · rw [failed]
    exact ⟨h, .refl ix⟩
  · rw [done]
    refine ⟨⟨put.snapshotPath.trans h.path, fun item hi => ?_, h.table, h.width.checked put.dimension⟩, ?_⟩
    · replace hi : item ∈ ix'.chunks.items := hi
      rw [put.chunks] at hi
      rcases Keyed.mem_items_putAll hi with old | new
      · exact h.read item old
      · obtain ⟨c, hc, rfl⟩ := List.mem_map.1 new
        exact good c hc
    · cases chunks with
      | nil =>
        have width : ix'.dimension = ix.dimension := (Except.ok.inj put.dimension).symm
        exact .inr ⟨put.dirty.trans (Bool.or_false _), put.entries, put.chunks, width⟩
      | cons c chunks => exact .inl (put.dirty.trans (Bool.or_true _))

theorem Kept.insert (h : ix.Kept snapshot width) {c : Chunk} (good : c.WellRead ∧ c.InOrder) (now : Float) :
    (ix.insert now c).2.Kept snapshot width ∧ ix.Noted (ix.insert now c).2 := by
  rw [VectorIndex.insert]
  split
  next vector _ =>
    have all : ∀ other ∈ [c], other.WellRead ∧ other.InOrder := List.forall_mem_singleton.2 good
    exact h.insertEmbedded all now [vector]
  next => exact ⟨h, .refl ix⟩

theorem Kept.remove (h : ix.Kept snapshot width) (id : String) :
    (ix.remove id).2.Kept snapshot width ∧ ix.Noted (ix.remove id).2 := by
  rw [VectorIndex.remove]
  split
  · exact ⟨{ h with read := fun item hi => h.read item (Keyed.mem_items_erase hi) }, .inl rfl⟩
  · exact ⟨h, .refl ix⟩

theorem Kept.clear (h : ix.Kept snapshot width) : ix.clear.Kept snapshot width ∧ ix.Noted ix.clear :=
  ⟨{ h with read := List.forall_mem_nil _ }, .inl rfl⟩

/-! ## Saves -/

theorem Kept.checked (h : ix.Kept snapshot width) : ∀ c ∈ ix.chunks.values, c.unchecked = [] := by
  intro c hc
  obtain ⟨item, hi, rfl⟩ := List.mem_map.1 hc
  exact (h.read item hi).1.checked

/-- An index that is stored at its own path stands there. If that fails, what stands there stays. -/
theorem Kept.save_own (h : ix.Kept snapshot width) (place : snapshot.Keeps) (target : Option Path)
    (own : target.or ix.snapshotPath = some snapshot) (d : Disk) :
    (∃ d', (save target).runOn ix d = (.ok (), { ix with dirty := false }, d') ∧ ix.Stands snapshot width d') ∨
    ∃ fault d', (save target).runOn ix d = (.error fault, ix, d') ∧
      (ix.Stands snapshot width d → ix.Stands snapshot width d') := by
  rcases runOn_save_cases target own h.checked d with ⟨d', done, _, _, there⟩ | ⟨fault, d', failed, change, _⟩
  · refine .inl ⟨d', done, .stored ix there rfl rfl ?_⟩
    rcases h.width with rfl | ⟨known, _⟩
    · cases ix.dimension <;> rfl
    · rw [known, if_neg (by decide)]
  · exact .inr ⟨fault, d', failed, fun stands => stands.changed change (Ne.symm snapshot.place_temporary_ne) place.way⟩

/-- Whatever becomes of a save elsewhere, the index is as it was, but for what there is to store. If it fails, what stands
at a path apart stays. -/
theorem Kept.save_elsewhere (h : ix.Kept snapshot width) (path : Path) (d : Disk) :
    (∃ d', (save (some path)).runOn ix d = (.ok (), { ix with dirty := false }, d')) ∨
    ∃ fault d', (save (some path)).runOn ix d = (.error fault, ix, d') ∧
      (path.Apart snapshot → ix.Stands snapshot width d → ix.Stands snapshot width d') := by
  rcases runOn_save_cases (some path) rfl h.checked d with ⟨d', done, _⟩ | ⟨fault, d', failed, change, _⟩
  · exact .inl ⟨d', done⟩
  · refine .inr ⟨fault, d', failed, fun apart stands => stands.changed change (fun there => ?_) apart.2⟩
    exact apart.1 (.inl there)

end

/-! ## Sessions -/

/-- What can be done to an index and its snapshot. Vectors that are given are flat. -/
inductive Operation where
  | insert (now : Float) (chunk : Chunk)
  | insertBatch (now : Float) (chunks : List Chunk)
  | insertEmbedded (now : Float) (chunks : List Chunk) (vectors : List (List Float))
  | remove (id : String)
  | clear
  | save (target : Option Path)

namespace Operation

/-- Change the index in memory, and tell if that fails. -/
def change (f : VectorIndex Float → Except Fault Nat × VectorIndex Float) : Action (VectorIndex Float) Unit := do
  let after := f (← memory)
  setMemory after.2
  let _ ← ofExcept after.1

/-- Do it. -/
def run : Operation → Action (VectorIndex Float) Unit
  | .insert now chunk => change (VectorIndex.insert now chunk)
  | .insertBatch now chunks => do let _ ← VectorIndex.insertBatch now chunks
  | .insertEmbedded now chunks vectors =>
    change fun ix => ix.insertEmbedded now chunks (vectors.map Tensor.ofList)
  | .remove id => modifyMemory fun ix => (ix.remove id).2
  | .clear => modifyMemory VectorIndex.clear
  | .save target => VectorIndex.save target

/-- The chunks that it inserts. -/
def chunks : Operation → List Chunk
  | .insert _ chunk => [chunk]
  | .insertBatch _ chunks => chunks
  | .insertEmbedded _ chunks _ => chunks
  | _ => []

/-- What counts as stored may not stand in the snapshot any more: the last save that was done went to another path, or a
save came in the way of the snapshot. A save to the own path makes up for it. -/
def strays (snapshot : Path) (stray : Prop) (answer : Except Fault Unit) : Operation → Prop
  | .insertBatch _ _ => stray ∧ answer ≠ .ok ()
  | .save none => stray ∧ answer ≠ .ok ()
  | .save (some path) =>
    if path = snapshot then stray ∧ answer ≠ .ok () else stray ∨ answer = .ok () ∨ ¬ path.Apart snapshot
  | _ => stray

end Operation

/-- An index that was opened at a path, with a width or with none, and what operations make of it and of the disk, with
any fates of their effects. At first there was nothing at the path, or a snapshot of chunks that come back from their
records, as the chunks that go in do. -/
inductive Session (snapshot : Path) (width : Option Int) : VectorIndex Float → Disk → Prop → Prop where
  | opened {ix : VectorIndex Float} {d : Disk}
      (start : d.nodeAt? snapshot.place = none ∨ ∃ stored : VectorIndex Float,
        d.FileAt snapshot (.binary stored.snapshotJson) ∧ ∀ item ∈ stored.chunks.items, item.2.WellRead ∧ item.2.InOrder)
      (embedder : Embedder Float) (workers : Except Fault Int) (preselection : Except Fault Number)
      (opened : openAt embedder (some snapshot) (asked width) workers preselection d = .ok ix) :
      Session snapshot width ix d False
  | did {ix ix' : VectorIndex Float} {d d' : Disk} {stray : Prop} (h : Session snapshot width ix d stray)
      (op : Operation) (good : ∀ c ∈ op.chunks, c.FromData ∧ c.InOrder) {answer : Except Fault Unit}
      (run : op.run.runOn ix d = (answer, ix', d')) : Session snapshot width ix' d' (op.strays snapshot stray answer)

/-- If there is nothing to store, the index stands in its snapshot, unless that strays. -/
structure Synced (snapshot : Path) (width : Option Int) (ix : VectorIndex Float) (d : Disk) (stray : Prop) : Prop where
  kept : ix.Kept snapshot width
  clean : ix.dirty = false → ¬ stray → ix.Stands snapshot width d

section
variable {snapshot : Path} {width : Option Int} {ix ix' : VectorIndex Float} {d d' : Disk} {stray : Prop}

theorem Synced.noted (h : ix.Synced snapshot width d stray) (after : ix'.Kept snapshot width ∧ ix.Noted ix') :
    ix'.Synced snapshot width d stray := by
  refine ⟨after.1, fun clean own => ?_⟩
  rcases after.2 with dirty | ⟨same, stays⟩
  · rw [dirty] at clean
    cases clean
  · exact (h.clean (same.symm.trans clean) own).same stays

theorem Synced.save_own (h : ix.Synced snapshot width d stray) (place : snapshot.Keeps) (target : Option Path)
    (own : target.or ix.snapshotPath = some snapshot) :
    ∃ answer ix' d', (save target).runOn ix d = (answer, ix', d') ∧
      ix'.Synced snapshot width d' (stray ∧ answer ≠ .ok ()) := by
  rcases h.kept.save_own place target own d with ⟨d', done, stands⟩ | ⟨fault, d', failed, stays⟩
  · exact ⟨_, _, d', done, { h.kept with }, fun _ _ => stands.same ⟨rfl, rfl, rfl⟩⟩
  · exact ⟨_, _, d', failed, h.kept, fun clean own =>
      stays (h.clean clean fun strayed => own ⟨strayed, fun done => by cases done⟩)⟩

theorem Synced.insertBatch (h : ix.Synced snapshot width d stray) (place : snapshot.Keeps) {chunks : List Chunk}
    (good : ∀ c ∈ chunks, c.WellRead ∧ c.InOrder) (now : Float) :
    ∃ answer ix' d', (do let _ ← VectorIndex.insertBatch now chunks : Action (VectorIndex Float) Unit).runOn ix d
        = (answer, ix', d') ∧ ix'.Synced snapshot width d' (stray ∧ answer ≠ .ok ()) := by
  have failed (fault : Fault) {ix' : VectorIndex Float} (synced : ix'.Synced snapshot width d stray) :
      ix'.Synced snapshot width d (stray ∧ (.error fault : Except Fault Unit) ≠ .ok ()) :=
    ⟨synced.kept, fun clean own => synced.clean clean fun strayed => own ⟨strayed, fun done => by cases done⟩⟩
  rw [runOn_bind_pure, VectorIndex.insertBatch, runOn_bind_ok (runOn_memory _ _)]
  cases embedded : ix.embedChunks chunks with
  | error fault =>
    rw [runOn_bind_error (runOn_ofExcept _ _ _)]
    exact ⟨_, ix, d, rfl, failed fault h⟩
  | ok vectors =>
    have inserted := h.noted (h.kept.insertEmbedded good now vectors)
    rw [runOn_bind_ok (runOn_ofExcept _ _ _)]
    generalize ix.insertEmbedded now chunks (vectors.map Tensor.ofList) = after at inserted
    obtain ⟨answer, ix₁⟩ := after
    simp only [] at inserted ⊢
    rw [runOn_bind_ok (runOn_setMemory _ _ _)]
    cases answer with
    | error fault =>
      rw [runOn_bind_error (runOn_ofExcept _ _ _)]
      exact ⟨_, ix₁, d, rfl, failed fault inserted⟩
    | ok count =>
      rw [runOn_bind_ok (runOn_ofExcept _ _ _)]
      have placed : ix₁.snapshotPath.isSome = true := by rw [inserted.kept.path]; rfl
      obtain ⟨answer, ix', d', saved, synced⟩ := inserted.save_own place none inserted.kept.path
      rw [if_pos placed, runOn_bind_pure, saved]
      cases answer with
      | ok _ => exact ⟨_, ix', d', rfl, synced⟩
      | error fault => exact ⟨_, ix', d', rfl, synced⟩

theorem runOn_change (f : VectorIndex Float → Except Fault Nat × VectorIndex Float) (ix : VectorIndex Float) (d : Disk) :
    (Operation.change f).runOn ix d = ((f ix).1.map fun _ => (), (f ix).2, d) := by
  rw [Operation.change, runOn_bind_ok (runOn_memory _ _), runOn_bind_ok (runOn_setMemory _ _ _), runOn_bind_pure,
    runOn_ofExcept]

/-- An operation keeps an index in step with its snapshot, unless it strays. -/
theorem Synced.did (h : ix.Synced snapshot width d stray) (place : snapshot.Keeps) (op : Operation)
    (good : ∀ c ∈ op.chunks, c.WellRead ∧ c.InOrder) :
    ∃ answer ix' d', op.run.runOn ix d = (answer, ix', d') ∧
      ix'.Synced snapshot width d' (op.strays snapshot stray answer) := by
  cases op with
  | insert now c =>
    exact ⟨_, _, d, runOn_change _ ix d, h.noted (h.kept.insert (good c List.mem_cons_self) now)⟩
  | insertBatch now chunks => exact h.insertBatch place good now
  | insertEmbedded now chunks vectors =>
    exact ⟨_, _, d, runOn_change _ ix d, h.noted (h.kept.insertEmbedded good now vectors)⟩
  | remove id => exact ⟨_, _, d, rfl, h.noted (h.kept.remove id)⟩
  | clear => exact ⟨_, _, d, rfl, h.noted h.kept.clear⟩
  | save target =>
    cases target with
    | none => exact h.save_own place none h.kept.path
    | some path =>
      by_cases same : path = snapshot
      · subst same
        obtain ⟨answer, ix', d', run, synced⟩ := h.save_own place (some path) rfl
        refine ⟨answer, ix', d', run, ?_⟩
        rw [Operation.strays, if_pos rfl]
        exact synced
      · rcases h.kept.save_elsewhere path d with ⟨d', done⟩ | ⟨fault, d', failed, stays⟩
        · refine ⟨_, _, d', done, { h.kept with }, fun _ own => ?_⟩
          rw [Operation.strays, if_neg same] at own
          exact absurd (.inr (.inl rfl)) own
        · refine ⟨_, _, d', failed, h.kept, fun clean own => ?_⟩
          rw [Operation.strays, if_neg same, not_or, not_or, not_not] at own
          exact stays own.2.2 (h.clean clean own.1)

theorem Session.synced (place : snapshot.Keeps) (h : Session snapshot width ix d stray) :
    ix.Synced snapshot width d stray := by
  induction h with
  | opened start embedder workers preselection opened =>
    obtain ⟨kept, _, stands⟩ := stands_of_openAt place.fits start opened
    exact ⟨kept, fun _ _ => stands⟩
  | did h op good run ih =>
    obtain ⟨answer, ix', d', run', synced⟩ := ih.did place op fun c hc => ⟨(good c hc).1.wellRead, (good c hc).2⟩
    rw [run] at run'
    obtain ⟨rfl, rfl, rfl⟩ := by simpa using run'
    exact synced

/-- If an index is closed without a fault it is opened again, with its width or with none as before, with the same vectors
in the same order, the same chunks and the same width. The last save since the last change must not have strayed. -/
theorem Session.close_reopens (place : snapshot.Keeps) (h : Session snapshot width ix d stray)
    (stored : ix.dirty = true ∨ ¬ stray) (run : close.runOn ix d = (.ok (), ix', d')) (embedder : Embedder Float)
    (workers : Except Fault Int) (preselection : Except Fault Number) :
    ∃ reopened, openAt embedder (some snapshot) (asked width) workers preselection d' = .ok reopened ∧
      reopened.entries = ix'.entries ∧ reopened.chunks = ix'.chunks ∧ reopened.dimension = ix'.dimension := by
  obtain ⟨kept, clean⟩ := h.synced place
  have placed : ix.snapshotPath.isSome = true := by rw [kept.path]; rfl
  rw [close, runOn_bind_ok (runOn_memory _ _), placed, Bool.true_and] at run
  cases dirty : ix.dirty with
  | true =>
    rw [dirty, if_pos rfl] at run
    rcases kept.save_own place none kept.path d with ⟨d₁, done, stands⟩ | ⟨fault, d₁, failed, _⟩
    · rw [done] at run
      obtain ⟨rfl, rfl⟩ := Prod.mk.inj (Prod.mk.inj run).2
      exact stands.opens place.fits kept embedder workers preselection
    · rw [failed] at run
      cases run
  | false =>
    rw [dirty, if_neg (by decide)] at run
    obtain ⟨rfl, rfl⟩ := Prod.mk.inj (Prod.mk.inj run).2
    have own : ¬ stray := by simpa [dirty] using stored
    exact (clean dirty own).opens place.fits kept embedder workers preselection

/-- A save that is done elsewhere leaves nothing to store. So closing writes nothing, and where nothing was at the own path
an index without vectors is opened. -/
theorem Kept.lost_elsewhere (h : ix.Kept snapshot width) (fits : snapshot.Fits)
    (nothing : d.nodeAt? snapshot.place = none) {path : Path} (apart : path.Apart snapshot)
    (saved : (save (some path)).runOn ix d = (.ok (), ix', d')) (embedder : Embedder Float) (workers : Except Fault Int)
    (preselection : Except Fault Number) :
    close.runOn ix' d' = (.ok (), ix', d') ∧
      ∃ reopened, openAt embedder (some snapshot) (asked width) workers preselection d' = .ok reopened ∧
        reopened.entries = .empty := by
  rcases runOn_save_cases (some path) rfl h.checked d with ⟨d₁, done, _, change, _⟩ | ⟨fault, d₁, failed, _⟩
  · rw [done] at saved
    obtain ⟨rfl, rfl⟩ := Prod.mk.inj (Prod.mk.inj saved).2
    have still := change.none apart.1 apart.2 nothing
    refine ⟨?_, .blank embedder (some snapshot) (asked width) workers preselection, ?_, rfl⟩
    · rw [close, runOn_bind_ok (runOn_memory _ _), Bool.and_false]
      rfl
    · rw [openAt_of_nothing fits still, h.table]
      rfl
  · rw [failed] at saved
    cases saved

end

/-! ## An index of one vector -/

theorem keeps_vec : Path.Keeps ⟨"", ["vec.pkl"]⟩ where
  fits := by
    refine ⟨rfl, fun part hp => .inr ?_⟩
    obtain rfl := List.mem_singleton.1 hp
    decide +kernel
  way := by
    rintro ⟨step, there, _⟩
    cases there

/-- An index with a vector that is not stored yet. -/
def sample : VectorIndex Float :=
  ((Operation.insertEmbedded 0 [.plain "x" "text"] [[1, 0]]).run.runOn
    (blank { embed := fun _ => .ok (.ofList []) } (some ⟨"", ["vec.pkl"]⟩) .null (.ok 1) (.ok (.whole 50000)))
    Disk.blank).2.1

theorem session_sample : Session ⟨"", ["vec.pkl"]⟩ none sample Disk.blank False := by
  have nothing : Disk.blank.nodeAt? (Path.place ⟨"", ["vec.pkl"]⟩) = none := by decide +kernel
  have opened := openAt_of_nothing keeps_vec.fits nothing { embed := fun _ => .ok (.ofList []) } (asked none) (.ok 1)
    (.ok (.whole 50000))
  refine (Session.opened (.inl nothing) _ _ _ opened).did (.insertEmbedded 0 [.plain "x" "text"] [[1, 0]]) (fun c hc => ?_)
    rfl
  obtain rfl := List.mem_singleton.1 hc
  have read : (Chunk.plain "x" "text").WellRead := Chunk.wellRead_plain (.of_ascii (by decide)) (by decide +kernel)
    (.of_ascii (by decide)) (by decide +kernel)
  exact ⟨Chunk.fromData_plain read, Nat.le_refl 0⟩

theorem Session.close_reopens_sample :
    ∃ reopened, openAt sample.embedder (some ⟨"", ["vec.pkl"]⟩) .null (.ok 1) (.ok (.whole 50000))
        (close.runOn sample Disk.blank).2.2 = .ok reopened ∧
      reopened.entries.keys = ["x"] ∧ reopened.chunks = (close.runOn sample Disk.blank).2.1.chunks := by
  have closed : (close.runOn sample Disk.blank).1.toBool = true := by decide +kernel
  have dirty : sample.dirty = true := by decide +kernel
  obtain ⟨reopened, opened, entries, chunks, _⟩ := Session.close_reopens keeps_vec session_sample (.inl dirty)
    (Prod.ext (eq_ok_of_toBool closed) rfl) sample.embedder (.ok 1) (.ok (.whole 50000))
  refine ⟨reopened, opened, ?_, chunks⟩
  rw [entries]
  decide +kernel

end VectorIndex

end CodeSearch
