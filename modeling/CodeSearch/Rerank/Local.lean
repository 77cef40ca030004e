import CodeSearch.Decimal.Binary
import CodeSearch.Rerank.Fusion
import CodeSearch.Token.Tokenizer
/-!
# The local oracle

An oracle that needs nothing from outside: a candidate gets points by the share of the terms of the
request that occur in its name and content.
-/

namespace CodeSearch.Rerank.Local

/-- The points for a share of ten: a half goes to the even neighbour. -/
def points (matched terms : Nat) : Int := Decimal.roundDiv (10 * matched) terms

/-- The opinion on a candidate for the terms of a request. -/
def opinion {α : Type} (terms : List String) (s : Summary α) : Opinion :=
  let name := s.qualifiedName.getD ""
  let found := Token.tokens s!"{name}\n{s.content}"
  let matched := (terms.filter found.contains).length
  ⟨s.chunkId, points matched terms.length, s!"matched {matched}/{terms.length} query terms"⟩

/-- Opinions on all candidates, or none if the request has no terms. -/
def oracle {α : Type} : Oracle α := fun request shown =>
  let terms := firsts (Token.tokens request.text)
  .ok (if terms.isEmpty then {} else ⟨shown.map (opinion terms)⟩)

end CodeSearch.Rerank.Local
