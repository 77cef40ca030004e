import CodeSearch.Vector.Tensor
/-!
# Cosine similarity

The cosine of the angle between two vectors: their inner product over the product of their lengths,
and zero if either has length zero.
-/

namespace CodeSearch.Vector

variable {α : Type} [Scalar α]

/-- The inner product. -/
def dot (a b : List α) : α := Scalar.sum (List.zipWith (· * ·) a b)

/-- The length of a vector. -/
def norm (a : List α) : α := Scalar.sqrt (dot a a)

/-- The similarity of two vectors of one width. -/
def cosine (a b : List α) : α :=
  let na := norm a
  let nb := norm b
  if Scalar.same na Scalar.zero || Scalar.same nb Scalar.zero then Scalar.zero
  else Scalar.clip (-Scalar.one) Scalar.one (dot a b / (na * nb))

/-- The similarity of two vectors, which must have one width. -/
def cosineSimilarity (a b : List α) : Except Fault α :=
  if a.length = b.length then .ok (cosine a b)
  else .error (.widths a.length b.length)

/-- The similarity of a stored row to a query vector, when the lengths of both are known. -/
def rowSimilarity (row : List α) (rowNorm : α) (query : List α) (queryNorm : α) : α :=
  let lengths := rowNorm * queryNorm
  Scalar.clip (-Scalar.one) Scalar.one
    (if Scalar.less Scalar.zero lengths then dot row query / lengths else Scalar.zero)

end CodeSearch.Vector
