import CodeSearch.Vector.Tensor
import CodeSearch.Token.Tokenizer
import CodeSearch.Digest.Md5
import CodeSearch.Query.Basic
/-!
# Embeddings

An embedder turns a text into a vector. It may take many texts at once. Besides embedders that are
given from outside there is a simple one, which counts tokens in buckets by their digests.
-/

namespace CodeSearch

structure Embedder (α : Type) where
  embed : String → Except Fault (Tensor α)
  /-- Many texts at once: one row per text. -/
  embedBatch : Option (List String → Except Fault (Tensor α)) := none
  /-- What becomes of a value that is no text. -/
  embedOther : Json → Except Fault (Tensor α) := fun _ => .error .wrongType

namespace Embedder

variable {α : Type}

/-- The flat vector of a text. -/
def vector (e : Embedder α) (text : String) : Except Fault (List α) := do
  (← e.embed text).flatten

/-- The flat vector of a value, which should be a text. -/
def vectorFor (e : Embedder α) : Json → Except Fault (List α)
  | .str text => e.vector text
  | value => do (← e.embedOther value).flatten

/-- The flat vectors of many texts. Without a way to take them at once they are embedded by workers,
of which there must be one at least. -/
def vectors (e : Embedder α) (workers : Except Fault Int) (texts : List String) :
    Except Fault (List (List α)) :=
  if texts.isEmpty then .ok []
  else match e.embedBatch with
    | some batch => do (← batch texts).flatRows
    | none => do if (← workers) ≤ 0 then throw (.badValue .other) else texts.mapM e.vector

/-- The embedder that takes many texts one by one. -/
def batched (e : Embedder α) : Embedder α :=
  { e with embedBatch := some fun texts => do return .array (← texts.mapM e.embed) }

variable [Scalar α]

/-- Count the tokens of a text at the positions that a rule gives. -/
def counts (width : Nat) (position : String → Nat) (text : String) : Tensor α :=
  let positions := (Token.tokens text).map position
  .ofList ((List.range width).map fun n => Scalar.ofInt (positions.count n))

/-- Tokens counted in buckets, by their digests. -/
def hashed (width : Nat) : Embedder α where
  embed text :=
    if width = 0 && !(Token.tokens text).isEmpty then .error .divisionByZero
    else .ok (counts width (fun token => Digest.toNat (Digest.md5Text token) % width) text)

end Embedder

end CodeSearch
