import CodeSearch.Proofs.Indexing.Agreement
import Mathlib.Logic.Relation
/-!
# Calls at the same time

Many calls of `indexChunks` run at once on one indexer. Until a call commits it only looks at the indexes, and other
calls may commit between any two of its looks; the commits themselves come one after the other. `System` is an indexer
with its calls, `Step` what can happen next.

`System.indexes_agree`: between commits all indexes hold the same chunks, and no content that has been committed
changes, in whatever order the calls take their steps and whatever becomes of their writes. `Step.alone`: a call that
no other one comes between does what `indexChunks` does.
-/

namespace CodeSearch.Indexing

open Lexical CodeSearch.Action

/-- How far a call has come. -/
inductive Call where
  /-- So many chunks have come in, and some are left to compare with the store. -/
  | comparing (received : Nat) (left : List Chunk) (accepted : Keyed String Chunk × List Complaint)
  /-- A batch is ready to be committed. -/
  | ready (batch : Batch)

/-- An indexer, the disk, and the calls that are on their way. -/
structure System where
  indexer : Indexer
  disk : Disk
  calls : List Call

/-- What is asked of a chunk: its id is not blank, and if its content is not blank either, a record of it can be
made and written. -/
structure Admitted (text : Bool) (c : Chunk) : Prop where
  typed : Typed c
  storable : Text.allBlank c.content = false → Indexer.Storable text c

/-- What can happen next. -/
inductive Step : System → System → Prop
  /-- A call comes in. -/
  | arrive {ix : Indexer} {d : Disk} {calls : List Call} {chunks : List Chunk}
      (admitted : ∀ c ∈ chunks, Admitted ix.writesText c) :
      Step ⟨ix, d, calls⟩ ⟨ix, d, .comparing chunks.length chunks (.empty, []) :: calls⟩
  /-- A call compares a chunk with the store that it sees, while another call may have got half way through its
  commit. -/
  | compare {ix : Indexer} {d : Disk} (before : List Call) {after : List Call} {received : Nat} {c : Chunk}
      {left : List Chunk} {accepted : Keyed String Chunk × List Complaint} (seen : ChunkStore) :
      Step ⟨ix, d, before ++ .comparing received (c :: left) accepted :: after⟩
        ⟨ix, d, before ++ .comparing received left (accept seen accepted c) :: after⟩
  /-- All chunks have been compared, and a batch is made of those that are accepted. -/
  | prepare {ix : Indexer} {d : Disk} (before : List Call) {after : List Call} {received : Nat}
      {accepted : Keyed String Chunk × List Complaint} {batch : Batch}
      (prepared : ix.finish received accepted.1 accepted.2 = .ok batch) :
      Step ⟨ix, d, before ++ .comparing received [] accepted :: after⟩ ⟨ix, d, before ++ .ready batch :: after⟩
  /-- No batch can be made, and the call ends. -/
  | fail {ix : Indexer} {d : Disk} (before : List Call) {after : List Call} {received : Nat}
      {accepted : Keyed String Chunk × List Complaint} {fault : Fault}
      (failed : ix.finish received accepted.1 accepted.2 = .error fault) :
      Step ⟨ix, d, before ++ .comparing received [] accepted :: after⟩ ⟨ix, d, before ++ after⟩
  /-- A batch is committed. Its effects on the disk may fail, but the power stays on. -/
  | commit {ix ix' : Indexer} {d d' : Disk} (before : List Call) {after : List Call} {batch : Batch} {now : Float}
      {fates : List Fate} {answer : Except Fault Report} (uncut : .cut ∉ fates)
      (run : (Indexer.commit now batch).runOn ix { d with fates } = (answer, ix', d')) :
      Step ⟨ix, d, before ++ .ready batch :: after⟩ ⟨ix', d', before ++ after⟩

/-! ## The invariant -/

/-- Whatever store a call has seen, its chunks are admitted, and each id is there once. -/
def Call.Fits (text : Bool) : Call → Prop
  | .comparing _ left accepted => (∀ c ∈ left, Admitted text c) ∧ Chunk.Filed (Admitted text) accepted.1
  | .ready batch => Ready (Indexer.Storable text) batch

/-- The indexes agree and can be written, and so can what the calls bring. -/
structure System.Sound (sys : System) : Prop where
  agrees : sys.indexer.Agrees
  built : sys.indexer.GraphBuilt
  writable : sys.indexer.Writable
  calls : ∀ call ∈ sys.calls, call.Fits sys.indexer.writesText

section Steps
variable {sys sys' start : System}

theorem finish_fits {ix : Indexer} {text : Bool} {received : Nat} {accepted : Keyed String Chunk × List Complaint}
    {batch : Batch} (filed : Chunk.Filed (Admitted text) accepted.1)
    (prepared : ix.finish received accepted.1 accepted.2 = .ok batch) : (Call.ready batch).Fits text := by
  have ready := Indexer.finish_ready filed (fun _ => Admitted.typed) prepared
  exact ⟨ready.entries, ready.once, fun c hc => (ready.chunks c hc).1.storable (ready.chunks c hc).2⟩

/-- One of the calls has come further. -/
theorem fits_moved {text : Bool} {before after : List Call} {call call' : Call}
    (h : ∀ other ∈ before ++ call :: after, other.Fits text) (moved : call.Fits text → call'.Fits text) :
    ∀ other ∈ before ++ call' :: after, other.Fits text := by
  obtain ⟨first, rest⟩ := List.forall_mem_append.1 h
  obtain ⟨here, last⟩ := List.forall_mem_cons.1 rest
  exact List.forall_mem_append.2 ⟨first, List.forall_mem_cons.2 ⟨moved here, last⟩⟩

/-- One of the calls has come to its end. -/
theorem fits_ended {text : Bool} {before after : List Call} {call : Call}
    (h : ∀ other ∈ before ++ call :: after, other.Fits text) : ∀ other ∈ before ++ after, other.Fits text := by
  obtain ⟨first, rest⟩ := List.forall_mem_append.1 h
  exact List.forall_mem_append.2 ⟨first, (List.forall_mem_cons.1 rest).2⟩

/-- A step keeps the indexes in agreement, and every content that has been committed. -/
theorem System.Sound.step (h : sys.Sound) (step : Step sys sys') :
    sys'.Sound ∧ sys.indexer.store.KeepsContents sys'.indexer.store := by
  cases step with
  | arrive admitted =>
    exact ⟨{ h with calls := List.forall_mem_cons.2 ⟨⟨admitted, .empty⟩, h.calls⟩ }, .refl _⟩
  | compare _ seen =>
    refine ⟨{ h with calls := fits_moved h.calls fun here => ?_ }, .refl _⟩
    obtain ⟨first, left⟩ := List.forall_mem_cons.1 here.1
    exact ⟨left, (compared_accept _ _ _).filed here.2 first⟩
  | prepare _ prepared =>
    exact ⟨{ h with calls := fits_moved h.calls fun here => finish_fits here.2 prepared }, .refl _⟩
  | fail _ failed => exact ⟨{ h with calls := fits_ended h.calls }, .refl _⟩
  | @commit ix _ d _ before after batch now fates _ uncut run =>
    have ready : (Call.ready batch).Fits ix.writesText :=
      h.calls (.ready batch) (List.mem_append_right before List.mem_cons_self)
    obtain ⟨answer, ix', d', run', agrees, built, writable, text, _, keeps⟩ :=
      h.agrees.commit (d := { d with fates }) h.built h.writable ready now uncut
    rw [run] at run'
    obtain ⟨_, rfl, rfl⟩ := by simpa using run'
    exact ⟨⟨agrees, built, writable, text.symm ▸ fits_ended h.calls⟩, keeps⟩

theorem System.Sound.steps (h : sys.Sound) (steps : Relation.ReflTransGen Step sys sys') :
    sys'.Sound ∧ sys.indexer.store.KeepsContents sys'.indexer.store := by
  induction steps with
  | refl => exact ⟨h, .refl _⟩
  | tail _ step ih =>
    obtain ⟨sound, keeps⟩ := ih.1.step step
    exact ⟨sound, ih.2.trans keeps⟩

end Steps

/-! ## A call alone -/

section Alone
variable {ix ix' : Indexer} {d d' : Disk} {chunks : List Chunk} {now : Float} {answer : Except Fault Report}

theorem compare_all (received : Nat) (left : List Chunk) (accepted : Keyed String Chunk × List Complaint)
    (others : List Call) :
    Relation.ReflTransGen Step ⟨ix, d, .comparing received left accepted :: others⟩
      ⟨ix, d, .comparing received [] (left.foldl (accept ix.store) accepted) :: others⟩ := by
  induction left generalizing accepted with
  | nil => exact .refl
  | cons c left ih => exact .head (.compare [] ix.store) (ih _)

/-- A call does what `indexChunks` does, if the other calls wait for it. -/
theorem Step.alone (admitted : ∀ c ∈ chunks, Admitted ix.writesText c) (uncut : .cut ∉ d.fates)
    (run : (Indexer.indexChunks now chunks).runOn ix d = (answer, ix', d')) (others : List Call) :
    Relation.ReflTransGen Step ⟨ix, d, others⟩ ⟨ix', d', others⟩ := by
  have came : Relation.ReflTransGen Step ⟨ix, d, others⟩
      ⟨ix, d, .comparing chunks.length [] (distinct ix.store chunks) :: others⟩ := by
    rw [distinct_eq]
    exact .head (.arrive admitted) (compare_all _ _ _ _)
  refine came.trans ?_
  have prepared := Indexer.prepare_eq ix fun c hc => (admitted c hc).typed.checked
  rw [Indexer.indexChunks, runOn_bind_ok (runOn_memory _ _), prepared] at run
  cases made : ix.finish chunks.length (distinct ix.store chunks).1 (distinct ix.store chunks).2 with
  | error fault =>
    rw [made, runOn_bind_error (runOn_ofExcept _ _ _)] at run
    obtain ⟨_, rfl, rfl⟩ := by simpa using run
    exact .single (.fail [] made)
  | ok batch =>
    rw [made, runOn_bind_ok (runOn_ofExcept _ _ _)] at run
    exact .head (.prepare [] made) (.single (.commit [] uncut run))

end Alone

/-! ## From empty indexes -/

section Start
variable {sys start : System}

/-- No call has come in yet, the indexes hold no chunks, and what they are stored in has names that a system can keep. -/
structure System.IsBlank (sys : System) : Prop where
  lexical : ∃ directory k1 b most unfit,
    sys.indexer.lexical = { LexicalIndex.blank directory k1 b (.ok most) with unfit }
  directory : ∀ dir ∈ sys.indexer.lexical.directory, dir.Sound
  vectors : ∀ v ∈ sys.indexer.vectors, ∃ path dimension workers preselection,
    v = .blank v.embedder path dimension workers preselection ∧ ∀ file ∈ path, file.IsFile
  graph : ∀ g ∈ sys.indexer.graph, g = g.build []
  store : sys.indexer.store = .empty
  storeFile : ∀ path ∈ sys.indexer.storeFile, path.IsFile
  calls : sys.calls = []

theorem System.IsBlank.sound (h : sys.IsBlank) : sys.Sound := by
  obtain ⟨directory, k1, b, most, unfit, lexical⟩ := h.lexical
  have one : Record.HasDigits 1 := Record.hasDigits_of_lt (k := 1) (by decide) (by decide) (by decide)
  refine ⟨⟨?_, ?_, fun v hv => ?_⟩, ?_, ⟨?_, fun dir hd => ⟨h.directory dir hd, ?_⟩, fun v hv path hp => ?_, h.storeFile⟩, ?_⟩
  · rw [lexical, h.store]
    rfl
  · rw [lexical]
    exact ⟨Nat.le_refl 0, fun _ => rfl⟩
  · obtain ⟨path, dimension, workers, preselection, blank, _⟩ := h.vectors v hv
    rw [blank, h.store]
    exact ⟨rfl, rfl⟩
  · rw [Indexer.GraphBuilt, h.store]
    exact h.graph
  · rw [h.store]
    exact .empty
  · rw [lexical] at hd ⊢
    exact ⟨hd, ⟨most, rfl⟩, ⟨[], rfl⟩, ⟨1, rfl, one⟩, List.forall_mem_nil _, List.forall_mem_nil _⟩
  · obtain ⟨path', dimension, workers, preselection, blank, files⟩ := h.vectors v hv
    rw [blank] at hp
    exact files path hp
  · rw [h.calls]
    exact List.forall_mem_nil _

/-- Between commits the lexical index, the vector index and the store hold the same chunks under the same ids in the
same order, the graph is that of the store, and a content that has been committed never changes. -/
theorem System.indexes_agree (blank : start.IsBlank) (steps : Relation.ReflTransGen Step start sys) :
    sys.indexer.lexical.entries = sys.indexer.store.chunks.mapValues Entry.ofChunk ∧
    sys.indexer.lexical.view.entries.map Entry.chunk = sys.indexer.store.toList ∧
    (∀ v ∈ sys.indexer.vectors,
      v.entries.keys = sys.indexer.store.chunks.keys ∧ v.chunks = sys.indexer.store.chunks) ∧
    (∀ g ∈ sys.indexer.graph, g = g.build sys.indexer.store.toList) ∧
    ∀ later, Relation.ReflTransGen Step sys later → sys.indexer.store.KeepsContents later.indexer.store := by
  have sound := (blank.sound.steps steps).1
  refine ⟨sound.agrees.lexical, ?_, sound.agrees.vectors, sound.built, fun later more => (sound.steps more).2⟩
  have seen : sys.indexer.lexical.view.entries = sys.indexer.lexical.entries.values := by
    rw [LexicalIndex.view]
    split
    next same => exact sound.agrees.current.2 same
    next => rfl
  rw [seen, sound.agrees.lexical, Keyed.values_mapValues, List.map_map]
  exact List.map_id _

end Start

theorem admitted_plain {text : Bool} {id content : String} (read : (Chunk.plain id content).WellRead)
    (whole : text = true → (Chunk.plain id content).json.isWhole = true) : Admitted text (.plain id content) :=
  ⟨⟨read.checked, read.id_filled⟩, fun _ => ⟨read, Nat.zero_le _, whole⟩⟩

/-- A call is prepared before another one commits another content under its id. When it commits, that content stays. -/
theorem indexes_agree_race :
    ∃ start middle last : System, start.IsBlank ∧ Relation.ReflTransGen Step start middle ∧
      Relation.ReflTransGen Step middle last ∧ middle.calls.length = 1 ∧ last.calls = [] ∧
      middle.indexer.store.toList.map Chunk.content = ["beta"] ∧
      last.indexer.lexical.entries = last.indexer.store.chunks.mapValues Entry.ofChunk ∧
      middle.indexer.store.KeepsContents last.indexer.store := by
  let ix : Indexer := {
    lexical := .blank none (.whole 1) (.whole 1) (.ok 2)
    vectors := some (.blank { embed := fun _ => .ok (.ofList []) } none .null (.ok 1) (.ok (.whole 50000))) }
  have alpha : Admitted ix.writesText (.plain "x" "alpha") := admitted_plain
    (Chunk.wellRead_plain (Chunk.isKept_ascii (by decide)) (by decide) (Chunk.isKept_ascii (by decide)) (by decide)) nofun
  have beta : Admitted ix.writesText (.plain "x" "beta") := admitted_plain
    (Chunk.wellRead_plain (Chunk.isKept_ascii (by decide)) (by decide) (Chunk.isKept_ascii (by decide)) (by decide)) nofun
  have blank : System.IsBlank ⟨ix, .blank, []⟩ :=
    ⟨⟨none, .whole 1, .whole 1, 2, [], rfl⟩, nofun,
      fun v hv => ⟨none, .null, .ok 1, .ok (.whole 50000), by cases hv; rfl, nofun⟩, nofun, rfl, nofun, rfl⟩
  have taken : (ix.finish 1 (distinct ix.store [.plain "x" "alpha"]).1
      (distinct ix.store [.plain "x" "alpha"]).2).toBool = true := by decide +kernel
  cases made : ix.finish 1 (distinct ix.store [.plain "x" "alpha"]).1 (distinct ix.store [.plain "x" "alpha"]).2 with
  | error fault =>
    rw [made] at taken
    cases taken
  | ok batch =>
    have prepared : Relation.ReflTransGen Step ⟨ix, .blank, []⟩ ⟨ix, .blank, [.ready batch]⟩ :=
      .head (.arrive (List.forall_mem_singleton.2 alpha))
        ((compare_all 1 _ _ _).tail (.prepare [] made))
    have beside : ((Indexer.indexChunks 0 [.plain "x" "beta"]).runOn ix .blank).2.1.store.toList.map Chunk.content
        = ["beta"] := by decide +kernel
    rcases run₁ : (Indexer.indexChunks 0 [.plain "x" "beta"]).runOn ix .blank with ⟨answer, ix₁, d₁⟩
    rcases run₂ : (Indexer.commit 0 batch).runOn ix₁ { d₁ with fates := [] } with ⟨answer', ix₂, d₂⟩
    rw [run₁] at beside
    have first := prepared.trans (Step.alone (List.forall_mem_singleton.2 beta) List.not_mem_nil run₁ [.ready batch])
    have second : Step ⟨ix₁, d₁, [.ready batch]⟩ ⟨ix₂, d₂, []⟩ :=
      .commit [] List.not_mem_nil run₂
    have keep := (System.indexes_agree blank first).2.2.2.2 _ (.single second)
    exact ⟨_, _, _, blank, first, .single second, rfl, rfl, beside,
      (System.indexes_agree blank (first.tail second)).1, keep⟩

end CodeSearch.Indexing
