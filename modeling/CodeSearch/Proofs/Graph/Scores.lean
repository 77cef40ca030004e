import CodeSearch.Proofs.Graph.Terms
import CodeSearch.Proofs.Scalar
/-!
# Scores of a batch

The score of a candidate depends on its batch only by how many of the others are in its package. That number does not
change with the order of the batch (`othersInPackage_of_perm`) and does not fall when others join it
(`othersInPackage_mono`), and neither does the bonus for it (`packageBonus_mono`). So the scores of a batch are from 0
to 1, are the same in any order, and only rise as the batch grows (`queryScores_stable`).
-/

namespace CodeSearch

namespace Scalar

/-! ## Clamping -/

theorem clamp_real {low high x : ℝ} : clamp low high x = max low (min high x) := by
  rw [clamp, larger, smaller]
  simp only [less_iff]
  split <;> split <;> grind

theorem clamp_mono {low high x y : ℝ} (h : x ≤ y) : clamp low high x ≤ clamp low high y := by
  rw [clamp_real, clamp_real]
  gcongr

theorem clamp_mem {low high : ℝ} (h : low ≤ high) (x : ℝ) : low ≤ clamp low high x ∧ clamp low high x ≤ high := by
  rw [clamp_real]
  exact ⟨le_max_left _ _, max_le h (min_le_left _ _)⟩

end Scalar

namespace CodeGraph

variable {g : CodeGraph ℝ} {batch larger : List String} {hints : QueryHints} {id : String}

/-! ## Others of a package -/

theorem othersInPackage_mono (sub : batch.Subperm larger) (id : String) :
    g.othersInPackage batch id ≤ g.othersInPackage larger id := by
  unfold othersInPackage
  split
  next package _ =>
    have fewer := (sub.filter fun other => decide (g.relations.packageOf.get? other = some package)).length_le
    omega
  next => exact le_rfl

theorem othersInPackage_of_perm (perm : batch.Perm larger) (id : String) :
    g.othersInPackage batch id = g.othersInPackage larger id :=
  le_antisymm (othersInPackage_mono perm.subperm id) (othersInPackage_mono perm.symm.subperm id)

/-- What the others of its package add to the score of a candidate. -/
noncomputable def packageBonus (g : CodeGraph ℝ) (others : ℤ) : ℝ :=
  if 2 ≤ others then g.weights.cooccurrence * Real.log others else 0

theorem packageBonus_mono (weighs : 0 ≤ g.weights.cooccurrence) {few many : ℤ} (h : few ≤ many) :
    g.packageBonus few ≤ g.packageBonus many := by
  have log_nonneg (h : 2 ≤ many) : 0 ≤ Real.log many := Real.log_nonneg (by exact_mod_cast (by omega : 1 ≤ many))
  unfold packageBonus
  by_cases several : 2 ≤ few
  · have below : (few : ℝ) ≤ many := by exact_mod_cast h
    have positive : (0 : ℝ) < few := by exact_mod_cast (by omega : 0 < few)
    rw [if_pos several, if_pos (several.trans h)]
    gcongr
  · rw [if_neg several]
    split
    next manyOthers => exact mul_nonneg weighs (log_nonneg manyOthers)
    next => exact le_rfl

/-! ## Scores -/

/-- What a candidate scores without the others of its batch. -/
noncomputable def ownScore (g : CodeGraph ℝ) (hints : QueryHints) (id : String) : ℝ :=
  let r := g.compared
  (if g.hintsAtPackage hints id then g.weights.package else 0)
    + g.weights.call * overlap hints.api ((r.calls.get? id).getD [])
    + g.weights.imports * overlap hints.imports ((r.imports.get? id).getD [])
    + g.weights.mapping * overlap hints.mapping ((r.routes.get? id).getD [])

theorem queryScore_eq (batch : List String) (hints : QueryHints) (id : String) :
    g.queryScore batch hints id
      = Scalar.clamp 0 1 (g.ownScore hints id + g.packageBonus (g.othersInPackage batch id)) := by
  simp only [queryScore, ownScore, packageBonus, Scalar.zero_real, Scalar.one_real, zero_add]
  split
  next => rfl
  next => rw [add_zero]

theorem queryScore_mem (batch : List String) (hints : QueryHints) (id : String) :
    0 ≤ g.queryScore batch hints id ∧ g.queryScore batch hints id ≤ 1 := by
  rw [queryScore_eq]
  exact Scalar.clamp_mem zero_le_one _

theorem queryScore_mono (weighs : 0 ≤ g.weights.cooccurrence) (sub : batch.Subperm larger) (id : String) :
    g.queryScore batch hints id ≤ g.queryScore larger hints id := by
  rw [queryScore_eq, queryScore_eq]
  refine Scalar.clamp_mono ?_
  have bonus := packageBonus_mono weighs (othersInPackage_mono (g := g) sub id)
  gcongr

theorem queryScore_of_perm (perm : batch.Perm larger) (id : String) :
    g.queryScore batch hints id = g.queryScore larger hints id := by
  rw [queryScore_eq, queryScore_eq, othersInPackage_of_perm perm]

/-- Weights that can all be counted with, and with which company does no harm, give each candidate of a batch a score
from 0 to 1. In another order the batch has the same scores, and in a larger batch no candidate has a lower one. -/
theorem queryScores_stable (fit : g.weights.unfit = []) (weighs : 0 ≤ g.weights.cooccurrence) (hints : QueryHints)
    (once : batch.Nodup) :
    ∃ scores, g.queryScores batch hints = .ok scores ∧ scores.map Prod.fst = batch ∧
      (∀ pair ∈ scores, 0 ≤ pair.2 ∧ pair.2 ≤ 1) ∧
      (∀ other, other.Perm batch → ∃ others, g.queryScores other hints = .ok others ∧ others.Perm scores) ∧
      ∀ larger, batch ⊆ larger → ∃ more, g.queryScores larger hints = .ok more ∧ more.map Prod.fst = larger ∧
        ∀ id score higher, (id, score) ∈ scores → (id, higher) ∈ more → score ≤ higher := by
  have named (batch : List String) (score : String → ℝ) :
      (batch.map fun id => (id, score id)).map Prod.fst = batch := by
    rw [List.map_map]
    exact List.map_id batch
  have scored {batch : List String} {score : String → ℝ} {id : String} {value : ℝ}
      (h : (id, value) ∈ batch.map fun id => (id, score id)) : value = score id := by
    obtain ⟨_, _, same⟩ := List.mem_map.1 h
    cases same
    rfl
  refine ⟨_, queryScores_ok fit batch hints, named _ _, ?_, fun other perm => ?_, fun larger sub => ?_⟩
  · rintro ⟨id, score⟩ hp
    rw [scored hp]
    exact queryScore_mem batch hints id
  · refine ⟨_, queryScores_ok fit other hints, ?_⟩
    simp only [queryScore_of_perm perm]
    exact perm.map _
  · refine ⟨_, queryScores_ok fit larger hints, named _ _, fun id score higher few many => ?_⟩
    rw [scored few, scored many]
    exact queryScore_mono weighs (List.subperm_of_subset once sub) id

/-- A controller with two helpers in its package. -/
noncomputable def trio : CodeGraph ℝ :=
  { weights := .standard : CodeGraph ℝ }.build
    (["a", "b", "c"].map fun id => { Chunk.plain id "" with package := some "shop" })

/-- The second helper does not lower the scores of the others. -/
theorem queryScores_stable_trio :
    ∃ few more, trio.queryScores ["a", "b"] {} = .ok few ∧ trio.queryScores ["a", "b", "c"] {} = .ok more ∧
      ∀ id score higher, (id, score) ∈ few → (id, higher) ∈ more → score ≤ higher := by
  have weighs : 0 ≤ trio.weights.cooccurrence := by
    change 0 ≤ ((1 : ℤ) : ℝ) / ((10 : ℤ) : ℝ)
    positivity
  obtain ⟨few, ran, _, _, _, larger⟩ := @queryScores_stable trio ["a", "b"] rfl weighs {} (by decide)
  obtain ⟨more, again, _, above⟩ := larger ["a", "b", "c"] (by decide)
  exact ⟨few, more, ran, again, above⟩

end CodeGraph

end CodeSearch
