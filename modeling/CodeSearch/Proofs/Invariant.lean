import CodeSearch.Proofs.Action
/-!
# What work keeps

Work keeps a condition on the memory if the condition holds after it whenever it held before, done or failed, and
whatever becomes of the disk. All ways to build work build work that keeps a condition from such work.

Work leaves a condition behind if the condition holds after it whenever it has an answer (`Leaves`). Nothing is said of
work that fails.
-/

namespace CodeSearch.Action

variable {σ α β : Type}

/-- A condition on the memory holds after the work, to its end or not, if it held before. -/
def Keeps (p : σ → Prop) (work : Action σ α) : Prop := ∀ s d, p s → p (work.runOn s d).2.1

section Keeps
variable {p : σ → Prop}

theorem keeps_pure (a : α) : Keeps p (pure a) := fun _ _ h => h

theorem keeps_throw (fault : Fault) : Keeps p (throw fault : Action σ α) := fun _ _ h => h

theorem keeps_ofExcept (answer : Except Fault α) : Keeps p (ofExcept answer) := by
  intro s d h
  rw [runOn_ofExcept]
  exact h

theorem keeps_setMemory {t : σ} (h : p t) : Keeps p (setMemory t) := fun _ _ _ => h

theorem keeps_modifyMemory {f : σ → σ} (h : ∀ s, p s → p (f s)) : Keeps p (modifyMemory f) := fun s _ hs => h s hs

theorem Keeps.bind {work : Action σ α} {next : α → Action σ β} (first : Keeps p work) (rest : ∀ a, Keeps p (next a)) :
    Keeps p (work >>= next) := by
  intro s d h
  have after := first s d h
  rw [runOn_bind]
  generalize work.runOn s d = left at after
  obtain ⟨fault | a, s', d'⟩ := left
  · exact after
  · exact rest a s' d' after

/-- What is done with the memory may use what is known of it. -/
theorem keeps_memory {next : σ → Action σ β} (rest : ∀ s, p s → Keeps p (next s)) : Keeps p (memory >>= next) := by
  intro s d h
  rw [runOn_bind_ok (runOn_memory s d)]
  exact rest s h s d h

/-- What is done with an answer may use that it was one. -/
theorem keeps_answer {answer : Except Fault α} {next : α → Action σ β} (rest : ∀ a, answer = .ok a → Keeps p (next a)) :
    Keeps p (ofExcept answer >>= next) := by
  intro s d h
  cases answer with
  | error fault =>
    rw [runOn_bind_error (runOn_ofExcept _ s d)]
    exact h
  | ok a =>
    rw [runOn_bind_ok (runOn_ofExcept _ s d)]
    exact rest a rfl s d h

theorem Keeps.tryCatch {work : Action σ α} {next : Fault → Action σ α} (first : Keeps p work)
    (rest : ∀ fault, Keeps p (next fault)) : Keeps p (tryCatch work next) := by
  intro s d h
  have after := first s d h
  rw [runOn_tryCatch]
  generalize work.runOn s d = left at after
  obtain ⟨fault | a, s', d'⟩ := left
  · exact rest fault s' d' after
  · exact after

theorem Keeps.forM {items : List β} {work : β → Action σ PUnit} (each : ∀ b, Keeps p (work b)) :
    Keeps p (items.forM work) := by
  induction items with
  | nil => exact keeps_pure _
  | cons b items ih => exact (each b).bind fun _ => ih

/-- Work on a part of the memory. -/
theorem Keeps.onPart {τ : Type} {inside : τ → Prop} {part : σ → τ} {replace : σ → τ → σ} {work : Action τ α}
    (h : Keeps inside work) (before : ∀ s, p s → inside (part s)) (after : ∀ s t, p s → inside t → p (replace s t)) :
    Keeps p (onPart part replace work) := by
  intro s d hs
  rw [runOn_onPart]
  exact after s _ hs (h _ d (before s hs))

/-! ## Work on the disk leaves the memory alone -/

theorem keeps_effect (path : Path) (apply : Disk → Except Fault Disk) : Keeps p (effect path apply) := by
  intro s d h
  rw [runOn_effect]
  split
  · split <;> exact h
  · split <;> exact h
  · exact h
  · exact h

theorem keeps_replaceFile (path : Path) (content : Content) : Keeps p (replaceFile path content) := by
  unfold replaceFile
  have written : Keeps p (do
      makeDirectory path.parent
      effect path.temporary (Disk.writeFile path.temporary (Disk.writable content))
      ofExcept (Disk.checkContent content)
      effect path (Disk.moveFile path.temporary path)) := by
    refine (Keeps.forM fun step => keeps_effect step _).bind fun _ => ?_
    refine (keeps_effect _ _).bind fun _ => ?_
    exact (keeps_ofExcept _).bind fun _ => keeps_effect _ _
  split
  · exact (keeps_throw _).bind fun _ => written
  · exact written

theorem keeps_store (task : StorageTask) (path : Path) (content : Content) : Keeps p (store task path content) := by
  refine (keeps_replaceFile path content).tryCatch fun fault => ?_
  split
  · exact keeps_throw _
  · exact keeps_throw _

theorem keeps_discard (path : Path) : Keeps p (discard path) := by
  refine (keeps_effect path _).tryCatch fun fault => ?_
  split
  · exact keeps_pure _
  · exact keeps_throw _

end Keeps

/-! ## What an answer tells -/

/-- Begun where `p` holds, work that has an answer leaves what `q` says of the answer and the memory. -/
def Leaves (p : σ → Prop) (q : α → σ → Prop) (work : Action σ α) : Prop :=
  ∀ s d a s' d', p s → work.runOn s d = (.ok a, s', d') → q a s'

section Leaves
variable {τ : Type} {p : σ → Prop} {q : α → σ → Prop} {r : β → σ → Prop}

theorem leaves_nothing (work : Action σ α) : Leaves p (fun _ _ => True) work := fun _ _ _ _ _ _ _ => trivial

theorem Leaves.mono {p' : σ → Prop} {q' : α → σ → Prop} {work : Action σ α} (h : Leaves p q work)
    (before : ∀ s, p' s → p s) (after : ∀ a s, q a s → q' a s) : Leaves p' q' work :=
  fun s d a s' d' hs run => after a s' (h s d a s' d' (before s hs) run)

theorem Keeps.leaves {work : Action σ α} (h : Keeps p work) : Leaves p (fun _ => p) work := by
  intro s d a s' d' hs run
  have after := h s d hs
  rwa [run] at after

theorem leaves_pure {a : α} (h : ∀ s, p s → q a s) : Leaves p q (pure a) := by
  rintro s d _ _ _ hs ⟨⟩
  exact h s hs

theorem leaves_throw (fault : Fault) : Leaves p q (throw fault) := fun _ _ _ _ _ _ run => by cases run

theorem leaves_setMemory {q : Unit → σ → Prop} {t : σ} (h : q () t) : Leaves p q (setMemory t) := by
  rintro s d _ _ _ - ⟨⟩
  exact h

theorem leaves_modifyMemory {q : Unit → σ → Prop} {f : σ → σ} (h : ∀ s, p s → q () (f s)) :
    Leaves p q (modifyMemory f) := by
  rintro s d _ _ _ hs ⟨⟩
  exact h s hs

theorem Leaves.bind {work : Action σ α} {next : α → Action σ β} (first : Leaves p q work)
    (rest : ∀ a, Leaves (q a) r (next a)) : Leaves p r (work >>= next) := by
  intro s d b s' d' hs run
  rw [runOn_bind] at run
  generalize left : work.runOn s d = after at run
  obtain ⟨fault | a, s₁, d₁⟩ := after
  · cases run
  · exact rest a s₁ d₁ b s' d' (first s d a s₁ d₁ hs left) run

/-- What is done with the memory may use what is known of it. -/
theorem leaves_memory {next : σ → Action σ β} (rest : ∀ s, p s → Leaves (fun t => t = s) r (next s)) :
    Leaves p r (memory >>= next) := by
  intro s d b s' d' hs run
  rw [runOn_bind_ok (runOn_memory s d)] at run
  exact rest s hs s d b s' d' rfl run

/-- What is done with the memory need not use it. -/
theorem leaves_anyMemory {next : σ → Action σ β} (rest : ∀ s, Leaves p r (next s)) : Leaves p r (memory >>= next) :=
  leaves_memory fun s hs => (rest s).mono (fun _ same => same ▸ hs) fun _ _ => id

theorem leaves_answer {answer : Except Fault α} {next : α → Action σ β} (rest : ∀ a, Leaves p r (next a)) :
    Leaves p r (ofExcept answer >>= next) := (keeps_ofExcept answer).leaves.bind rest

/-- Work on a part of the memory. -/
theorem Leaves.onPart {inside : τ → Prop} {left : α → τ → Prop} {part : σ → τ} {replace : σ → τ → σ}
    {work : Action τ α} (h : Leaves inside left work) (before : ∀ s, p s → inside (part s))
    (after : ∀ s a t, p s → left a t → q a (replace s t)) : Leaves p q (onPart part replace work) := by
  intro s d a s' d' hs run
  rw [runOn_onPart] at run
  obtain ⟨answer, rfl, rfl⟩ : (work.runOn (part s) d).1 = .ok a ∧ replace s (work.runOn (part s) d).2.1 = s' ∧
      (work.runOn (part s) d).2.2 = d' := by simpa using run
  exact after s a _ hs (h _ d a _ _ (before s hs) (by rw [← answer]))

end Leaves

end CodeSearch.Action
