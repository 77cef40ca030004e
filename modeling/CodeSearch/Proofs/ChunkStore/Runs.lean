import CodeSearch.Proofs.Chunk.Reread
import CodeSearch.Proofs.ChunkStore
import CodeSearch.Proofs.Invariant
import CodeSearch.Proofs.Keyed
/-!
# Runs of a chunk store

What each of the operations on a store keeps, a run of them keeps, whatever files are read in between (`Run.keeps`): every
chunk stands under its id, and is one that a store takes (`Run.sound`), and the content under an id stays what it is until
the id is taken out (`Run.content`).
-/

namespace CodeSearch.ChunkStore

open CodeSearch.Action

variable {s t : ChunkStore} {c : Chunk} {p : ChunkStore → Prop}

/-! ## Operations -/

/-- What can be done with a store. -/
inductive Operation where
  | put (chunk : Chunk)
  | remove (id : String)
  | clear
  | load (path : Path)
  | save (path : Path)

namespace Operation

/-- Do it. -/
def run : Operation → Action ChunkStore Unit
  | .put chunk => do setMemory (← ofExcept ((← memory).put chunk))
  | .remove id => modifyMemory fun s => (s.remove id).2
  | .clear => setMemory .empty
  | .load path => do let _ ← ChunkStore.load path
  | .save path => ChunkStore.save path

/-- It takes out an id. -/
def Removes (id : String) : Operation → Prop
  | .remove other => other = id
  | .clear => True
  | _ => False

end Operation

/-- What a run of operations makes of a store, operations that fail included. Before each of them the disk may be any. -/
inductive Run : List Operation → ChunkStore → ChunkStore → Prop where
  | nil (s : ChunkStore) : Run [] s s
  | cons {o : Operation} {os : List Operation} {s s' t : ChunkStore} {d d' : Disk} {answer : Except Fault Unit}
      (step : o.run.runOn s d = (answer, s', d')) (rest : Run os s' t) : Run (o :: os) s t

/-! ## What runs keep -/

theorem keeps_mapM {β γ : Type} {items : List β} {work : β → Action ChunkStore γ} (each : ∀ b, Keeps p (work b)) :
    Keeps p (items.mapM work) := by
  induction items with
  | nil => exact keeps_pure _
  | cons b items ih =>
    rw [List.mapM_cons]
    exact (each b).bind fun _ => ih.bind fun _ => keeps_pure _

/-- What each chunk that is registered keeps, a load keeps. -/
theorem keeps_load (puts : ∀ {s t c}, p s → s.put c = .ok t → p t) (path : Path) : Keeps p (load path) := by
  have record (value : Json) : Keeps p (loadRecord value) := by
    refine keeps_memory fun s hs => ?_
    split
    next t registered =>
      obtain ⟨c, _, registered⟩ := exists_of_bind_ok registered
      exact (keeps_setMemory (puts hs registered)).bind fun _ => keeps_pure _
    next => exact keeps_pure _
    next => exact keeps_throw _
  have disk : Keeps p disk := fun _ _ h => h
  refine disk.bind fun _ => (keeps_ofExcept _).bind fun _ => (keeps_ofExcept _).bind fun _ => ?_
  exact (keeps_mapM record).bind fun _ => keeps_pure _

theorem keeps_save (path : Path) : Keeps p (save path) :=
  keeps_memory fun _ _ => (keeps_ofExcept _).bind fun _ => keeps_store _ _ _

/-- An operation keeps what every chunk that is registered keeps, if that stays true of what it takes out. -/
theorem Operation.keeps {o : Operation} (puts : ∀ {s t c}, p s → s.put c = .ok t → p t)
    (removes : ∀ {s id}, o = .remove id → p s → p (s.remove id).2) (clears : o = .clear → p .empty) :
    Keeps p o.run := by
  cases o with
  | put c => exact keeps_memory fun s hs => keeps_answer fun t registered => keeps_setMemory (puts hs registered)
  | remove id => exact keeps_modifyMemory fun s hs => removes rfl hs
  | clear => exact keeps_setMemory (clears rfl)
  | load path => exact (keeps_load puts path).bind fun _ => keeps_pure _
  | save path => exact keeps_save path

theorem Run.keeps {os : List Operation} (run : Run os s t) (each : ∀ o ∈ os, Keeps p o.run) (h : p s) : p t := by
  induction run with
  | nil => exact h
  | @cons o os s s' t d d' answer step rest ih =>
    have after := each o List.mem_cons_self s d h
    rw [step] at after
    exact ih (fun other ho => each other (List.mem_cons_of_mem o ho)) after

/-- Every chunk stands under its id, and is one that a store takes. -/
def Sound (s : ChunkStore) : Prop := Chunk.Filed Chunk.IsStorable s.chunks

/-- Under an id stands a content. -/
def Holds (id content : String) (s : ChunkStore) : Prop := ∃ c, s.get? id = some c ∧ c.content = content

theorem Sound.put (h : s.Sound) (registered : s.put c = .ok t) : t.Sound := by
  obtain ⟨storable, _, rfl⟩ := put_ok.1 registered
  exact Chunk.Filed.put h storable

theorem Holds.put {id content : String} (h : s.Holds id content) (registered : s.put c = .ok t) : t.Holds id content := by
  obtain ⟨_, free, rfl⟩ := put_ok.1 registered
  obtain ⟨old, found, same⟩ := h
  by_cases own : id = c.id
  · subst own
    rw [conflicts, found] at free
    have kept : old.content = c.content := by simpa using free
    exact ⟨c, Keyed.get?_put_self _ _ _, kept.symm.trans same⟩
  · exact ⟨old, by rw [get?, Keyed.get?_put, if_neg own]; exact found, same⟩

theorem Run.sound {os : List Operation} (run : Run os s t) (h : s.Sound) : t.Sound := by
  refine run.keeps (fun o _ => Operation.keeps (fun hs => hs.put) (fun _ hs => ?_) fun _ => Chunk.Filed.empty) h
  exact fun item hi => hs item (Keyed.mem_items_erase hi)

/-- The content under an id stays as long as the id is not taken out. -/
theorem Run.content {os : List Operation} (run : Run os s t) {id content : String} (stays : ∀ o ∈ os, ¬ o.Removes id)
    (h : s.Holds id content) : t.Holds id content := by
  refine run.keeps (fun o ho => Operation.keeps (fun hs => hs.put) (fun {s other} same hs => ?_) fun same => ?_) h
  · have apart : id ≠ other := by
      rintro rfl
      exact stays o ho (same ▸ rfl)
    obtain ⟨old, found, same⟩ := hs
    exact ⟨old, by rw [get?, remove, Keyed.get?_erase, if_neg apart]; exact found, same⟩
  · exact absurd (same ▸ trivial) (stays o ho)

theorem runOn_put_ok (registered : s.put c = .ok t) (d : Disk) : (Operation.put c).run.runOn s d = (.ok (), t, d) := by
  rw [Operation.run, runOn_bind_ok (runOn_memory s d), registered]
  rfl

/-- A chunk that is turned away changes nothing. -/
theorem runOn_put_error {d d' : Disk} {fault : Fault}
    (failed : (Operation.put c).run.runOn s d = (.error fault, t, d')) : t = s ∧ d' = d := by
  cases answer : s.put c with
  | error other =>
    rw [Operation.run, runOn_bind_ok (runOn_memory s d), answer, runOn_bind_error (runOn_ofExcept _ s d)] at failed
    cases failed
    exact ⟨rfl, rfl⟩
  | ok t =>
    rw [runOn_put_ok answer] at failed
    cases failed

/-- Every store that keeps what runs keep comes of a run. -/
theorem Sound.reached (h : s.Sound) : ∃ os, Run os empty s := by
  have puts : ∀ {chunks : List Chunk} {t : ChunkStore}, (∀ c ∈ chunks, c.IsStorable) →
      (t.chunks.keys ++ chunks.map Chunk.id).Nodup →
      Run (chunks.map .put) t ⟨t.chunks.putAll (chunks.map fun c => (c.id, c))⟩ := by
    intro chunks
    induction chunks with
    | nil => exact fun _ _ => .nil _
    | cons c chunks ih =>
      intro t storable once
      have new : c.id ∉ t.chunks.keys := fun there => (List.nodup_append.1 once).2.2 _ there _ List.mem_cons_self rfl
      have free : t.conflicts c = false := by
        rw [conflicts, get?, Keyed.get?_eq_none.2 new]
        rfl
      have first := put_of_free (storable c List.mem_cons_self) free
      refine .cons (runOn_put_ok first Disk.blank) (ih (fun other ho => storable other (List.mem_cons_of_mem c ho)) ?_)
      rw [Keyed.keys_put, if_neg new, List.append_assoc]
      exact once
  have run := @puts s.toList empty (Chunk.Filed.values h) (Chunk.Filed.nodup_ids h)
  have again : empty.chunks.putAll s.chunks.items = s.chunks := Keyed.ofList_items s.chunks
  rw [toList, Chunk.Filed.items_eq h, again] at run
  exact ⟨_, run⟩

end CodeSearch.ChunkStore
