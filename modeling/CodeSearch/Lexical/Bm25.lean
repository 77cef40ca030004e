import CodeSearch.Instances
import CodeSearch.Scalar
/-!
# BM25

The relevance of a list of tokens to query terms. A term weighs more the fewer lists it occurs in, and
its frequency in a list counts with saturation and relative to the length of the list. A term's weight
is the logarithm of `(N + 1) / n`, so it is positive for every term that occurs at all.
-/

namespace CodeSearch.Lexical

attribute [local instance] powNat zeroNat

/-- A parameter of the relevance. One that is an integer stays an integer until it meets a number that is
none. -/
inductive Parameter (α : Type) where
  | whole (n : Int)
  | real (x : α)

namespace Parameter

variable {α : Type} [Scalar α]

def value : Parameter α → α
  | .whole n => Scalar.ofInt n
  | .real x => x

/-- One more than a parameter. -/
def succ : Parameter α → Parameter α
  | .whole n => .whole (n + 1)
  | .real x => .real (x + Scalar.one)

/-- What a parameter lacks to one. -/
def complement : Parameter α → Parameter α
  | .whole n => .whole (1 - n)
  | .real x => .real (Scalar.one - x)

/-- The number of values of a word: counts are kept in signed words of 64 bits. -/
def wordSize : Nat := 2 ^ (64 : Nat)

/-- The product with a count. Of an integer and a count only what fits into a word is left. -/
def timesCount (p : Parameter α) (count : Nat) : α :=
  match p with
  | .whole n => Scalar.ofInt (Int.bmod (n * count) wordSize)
  | .real x => x * Scalar.ofInt count

end Parameter

/-- The token lists that frequencies are counted over, and the parameters. -/
structure Bm25 (α : Type) where
  corpus : List (List String)
  /-- Saturation of the frequency of a term. -/
  k1 : Parameter α
  /-- Weight of the length of a list. -/
  b : Parameter α

namespace Bm25

variable {α : Type} [Scalar α]

/-- The number of lists. -/
def size (m : Bm25 α) : Nat := m.corpus.length

/-- The number of tokens in all lists. -/
def totalLength (m : Bm25 α) : Nat := (m.corpus.map List.length).sum

/-- The mean length of a list. -/
def meanLength (m : Bm25 α) : α := Scalar.ratio m.totalLength m.size

/-- The number of lists that hold a term. -/
def documentFrequency (m : Bm25 α) (term : String) : Nat :=
  (m.corpus.filter (·.contains term)).length

/-- The weight of a term, zero if it does not occur. -/
def weight (m : Bm25 α) (term : String) : α :=
  let n := m.documentFrequency term
  if n = 0 then Scalar.zero else Scalar.log (Scalar.ratio (m.size + 1) n)

/-- Terms with their weights. -/
def weights (m : Bm25 α) (terms : List String) : List (String × α) :=
  terms.map fun term => (term, m.weight term)

/-- What the frequency of a term in a list of tokens counts, where `mean` is the mean length. -/
def frequencyScore (m : Bm25 α) (mean : α) (tokens : List String) (term : String) : α :=
  let f := tokens.count term
  let length := m.b.complement.value + m.b.timesCount tokens.length / mean
  m.k1.succ.timesCount f / (m.k1.value * length + Scalar.ofInt f)

/-- The score of a list of tokens for weighted terms. -/
def score (m : Bm25 α) (mean : α) (weighted : List (String × α)) (tokens : List String) : α :=
  weighted.foldl (fun total (term, weight) =>
    total + weight * (Scalar.zero + m.frequencyScore mean tokens term)) Scalar.zero

/-- The scores of all lists for query terms, in order. -/
def scores (m : Bm25 α) (terms : List String) : List α :=
  m.corpus.map (m.score m.meanLength (m.weights terms))

end Bm25

end CodeSearch.Lexical
