import CodeSearch.Lexical.Bm25
import CodeSearch.Proofs.Scalar
/-!
# The relevance of what holds a term

With a positive saturation and a weight of the length between none and all, every term that occurs weighs something,
and its frequency in a list of tokens counts something exactly if it is there (`frequencyScore_pos`). So a list of tokens
gets a positive score as soon as it holds one of the terms (`score_pos`).
-/

namespace CodeSearch.Lexical

attribute [local instance] divReal

namespace Parameter

theorem value_succ (p : Parameter ℝ) : p.succ.value = p.value + 1 := by
  cases p with
  | whole n => simp [succ, value, Scalar.ofInt]
  | real x => simp [succ, value]

theorem value_complement (p : Parameter ℝ) : p.complement.value = 1 - p.value := by
  cases p with
  | whole n => simp [complement, value, Scalar.ofInt]
  | real x => simp [complement, value]

/-- The products with counts up to some number are what they should be: they fit into a word, if it comes to that. -/
def IsExact (p : Parameter ℝ) (most : ℕ) : Prop := ∀ count ≤ most, p.timesCount count = p.value * count

theorem isExact_real (x : ℝ) (most : ℕ) : (real x).IsExact most := by
  intro count _
  simp [timesCount, value, Scalar.ofInt]

theorem isExact_whole {n : ℤ} {most : ℕ} (fits : n.natAbs * most < 2 ^ 63) : (whole n : Parameter ℝ).IsExact most := by
  intro count le
  have small : (n * count).natAbs < 2 ^ 63 := by
    rw [Int.natAbs_mul, Int.natAbs_natCast]
    exact (Nat.mul_le_mul_left _ le).trans_lt fits
  have word : Int.bmod (n * count) wordSize = n * count := by
    generalize n * (count : ℤ) = product at small
    rw [wordSize, Int.bmod_eq_of_le] <;> omega
  simp [timesCount, value, Scalar.ofInt, word]

end Parameter

namespace Bm25

/-- Parameters with which the relevance is what its formula says, for the lists at hand. -/
structure IsTuned (m : Bm25 ℝ) : Prop where
  k1_pos : 0 < m.k1.value
  b_nonneg : 0 ≤ m.b.value
  b_le : m.b.value ≤ 1
  exact : ∀ tokens ∈ m.corpus, m.k1.succ.IsExact tokens.length ∧ m.b.IsExact tokens.length

variable {m : Bm25 ℝ} {tokens : List String} {term : String}

/-! ## Weights of terms -/

theorem documentFrequency_le (m : Bm25 ℝ) (term : String) : m.documentFrequency term ≤ m.size := List.length_filter_le _ _

theorem documentFrequency_pos (there : tokens ∈ m.corpus) (holds : term ∈ tokens) : 0 < m.documentFrequency term := by
  rw [documentFrequency, List.length_pos_iff_exists_mem]
  exact ⟨tokens, List.mem_filter.2 ⟨there, by simpa using holds⟩⟩

theorem weight_eq (m : Bm25 ℝ) (term : String) (occurs : 0 < m.documentFrequency term) :
    m.weight term = Real.log ((m.size + 1) / m.documentFrequency term) := by
  rw [weight]
  simp only [if_neg occurs.ne', Scalar.ratio]
  exact congrArg Real.log (by simp [Scalar.ofInt])

theorem weight_pos (occurs : 0 < m.documentFrequency term) : 0 < m.weight term := by
  rw [weight_eq m term occurs]
  have bound : (m.documentFrequency term : ℝ) ≤ m.size := Nat.cast_le.2 (m.documentFrequency_le term)
  have pos : (0 : ℝ) < m.documentFrequency term := Nat.cast_pos.2 occurs
  refine Real.log_pos ((one_lt_div pos).2 ?_)
  linarith

theorem weight_nonneg (m : Bm25 ℝ) (term : String) : 0 ≤ m.weight term := by
  rcases Nat.eq_zero_or_pos (m.documentFrequency term) with none | occurs
  · rw [weight]
    simp [none]
  · exact (weight_pos occurs).le

/-! ## Frequencies of terms -/

theorem meanLength_nonneg (m : Bm25 ℝ) : 0 ≤ m.meanLength := by
  have total : (0 : ℝ) ≤ (m.totalLength : ℤ) := by positivity
  have size : (0 : ℝ) ≤ (m.size : ℤ) := by positivity
  exact div_nonneg total size

/-- What a frequency counts, as a formula over the reals. -/
theorem IsTuned.frequencyScore_eq (tuned : m.IsTuned) (there : tokens ∈ m.corpus) (mean : ℝ) (term : String) :
    m.frequencyScore mean tokens term = (m.k1.value + 1) * tokens.count term
      / (m.k1.value * (1 - m.b.value + m.b.value * tokens.length / mean) + tokens.count term) := by
  obtain ⟨saturation, length⟩ := tuned.exact tokens there
  rw [frequencyScore, saturation _ List.count_le_length, length _ le_rfl, Parameter.value_succ,
    Parameter.value_complement]
  simp [Scalar.ofInt]

theorem IsTuned.frequencyScore_pos (tuned : m.IsTuned) (there : tokens ∈ m.corpus) (holds : term ∈ tokens) :
    0 < m.frequencyScore m.meanLength tokens term := by
  have k1 := tuned.k1_pos
  have frequency : (0 : ℝ) < tokens.count term := Nat.cast_pos.2 (List.count_pos_iff.2 holds)
  have length : 0 ≤ m.b.value * tokens.length / m.meanLength :=
    div_nonneg (mul_nonneg tuned.b_nonneg (Nat.cast_nonneg _)) m.meanLength_nonneg
  have norm : 0 ≤ m.k1.value * (1 - m.b.value + m.b.value * tokens.length / m.meanLength) := by
    refine mul_nonneg k1.le ?_
    linarith [tuned.b_le]
  rw [tuned.frequencyScore_eq there]
  exact div_pos (mul_pos (by linarith) frequency) (by linarith)

theorem IsTuned.frequencyScore_nonneg (tuned : m.IsTuned) (there : tokens ∈ m.corpus) (term : String) :
    0 ≤ m.frequencyScore m.meanLength tokens term := by
  by_cases holds : term ∈ tokens
  · exact (tuned.frequencyScore_pos there holds).le
  · rw [tuned.frequencyScore_eq there, List.count_eq_zero_of_not_mem holds]
    simp

/-! ## Scores -/

/-- A score is a sum over the terms. -/
theorem score_eq (m : Bm25 ℝ) (mean : ℝ) (terms tokens : List String) :
    m.score mean (m.weights terms) tokens
      = (terms.map fun term => m.weight term * m.frequencyScore mean tokens term).sum := by
  have fold (total : ℝ) : (m.weights terms).foldl (fun total weighted =>
      total + weighted.2 * (Scalar.zero + m.frequencyScore mean tokens weighted.1)) total
      = total + (terms.map fun term => m.weight term * m.frequencyScore mean tokens term).sum := by
    induction terms generalizing total with
    | nil => simp [weights]
    | cons term terms ih =>
      rw [weights, List.map_cons, List.foldl_cons, ← weights, ih]
      simp only [Scalar.zero_real, zero_add, List.map_cons, List.sum_cons, add_assoc]
  exact (fold Scalar.zero).trans (by simp)

/-- A list of tokens that holds one of the terms gets a positive score. -/
theorem IsTuned.score_pos (tuned : m.IsTuned) (there : tokens ∈ m.corpus) {terms : List String} (asked : term ∈ terms)
    (holds : term ∈ tokens) : 0 < m.score m.meanLength (m.weights terms) tokens := by
  have share (other : String) : 0 ≤ m.weight other * m.frequencyScore m.meanLength tokens other :=
    mul_nonneg (m.weight_nonneg other) (tuned.frequencyScore_nonneg there other)
  have own : 0 < m.weight term * m.frequencyScore m.meanLength tokens term :=
    mul_pos (weight_pos (documentFrequency_pos there holds)) (tuned.frequencyScore_pos there holds)
  rw [score_eq]
  refine own.trans_le (List.single_le_sum ?_ _ (List.mem_map_of_mem asked))
  exact List.forall_mem_map.2 fun other _ => share other

end Bm25

end CodeSearch.Lexical
