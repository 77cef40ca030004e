import CodeSearch.Graph.Basic
/-!
# Scores by structure

How well a candidate fits the hints of a query or of a fragment of code, as a number from 0 to 1. A
query also favours candidates of whose package there are others in the batch.
-/

namespace CodeSearch.CodeGraph

variable {α : Type} [Scalar α]

/-- The terms by which a relation is compared with hints: its values in lower case, and their tokens. -/
def terms (values : List String) : List String :=
  values.flatMap fun value => Text.lower value :: Token.tokens value

/-- The share of the hints that are among the terms. -/
def overlap (hints : List String) (values : List String) : α :=
  let hints := firsts hints
  let found := terms values
  if hints.isEmpty || found.isEmpty then Scalar.zero
  else Scalar.ratio (hints.filter found.contains).length (max 1 hints.length)

/-- The segments of a package name, in lower case. -/
def segments (package : String) : List String :=
  ((Text.pieces '.' package.toList).filter (!·.isEmpty)).map fun s => Text.lower (String.ofList s)

/-- A package has one of the hints as a segment. -/
def hintsAtPackage (g : CodeGraph α) (hints : QueryHints) (id : String) : Bool :=
  match g.compared.packageOf.get? id with
  | some package => hints.package.any (segments package).contains
  | none => false

/-- The number of other candidates of a batch in the package of a chunk. -/
def othersInPackage (g : CodeGraph α) (batch : List String) (id : String) : Int :=
  match g.relations.packageOf.get? id with
  | some package =>
    (batch.filter fun other => g.relations.packageOf.get? other = some package).length - 1
  | none => 0

/-- The score of a candidate of a batch for the hints of a query. -/
def queryScore (g : CodeGraph α) (batch : List String) (hints : QueryHints) (id : String) : α :=
  let r := g.compared
  let w := g.weights
  let package := if g.hintsAtPackage hints id then Scalar.zero + w.package else Scalar.zero
  let calls := package + w.call * overlap hints.api ((r.calls.get? id).getD [])
  let imports := calls + w.imports * overlap hints.imports ((r.imports.get? id).getD [])
  let mapping := imports + w.mapping * overlap hints.mapping ((r.routes.get? id).getD [])
  let others := g.othersInPackage batch id
  let score := if 2 ≤ others then mapping + w.cooccurrence * Scalar.log (Scalar.ofInt others) else mapping
  Scalar.clamp Scalar.zero Scalar.one score

/-- The scores of a batch for the hints of a query. A weight that counts has to be one. -/
def queryScores (g : CodeGraph α) (batch : List String) (hints : QueryHints) :
    Except Fault (List (String × α)) :=
  batch.mapM fun id => do
    if g.hintsAtPackage hints id then g.weights.unfit.check ["package_weight"]
    g.weights.unfit.check ["call_weight", "import_weight", "mapping_weight"]
    if 2 ≤ g.othersInPackage batch id then g.weights.unfit.check ["cooccurrence_weight"]
    return (id, g.queryScore batch hints id)

/-- What each kind of agreement with a fragment weighs. -/
structure PatternWeights (α : Type) where
  kind : α
  api : α
  signature : α
  framework : α

/-- The weights of a fragment. -/
def patternWeights : PatternWeights α where
  kind := Scalar.ratio 4 10
  api := Scalar.ratio 3 10
  signature := Scalar.ratio 2 10
  framework := Scalar.ratio 1 10

/-- A word occurs within one of some texts. -/
def occursInAny (word : String) (texts : List String) : Bool :=
  texts.any fun text => containsRun (Text.codes word.toList) (Text.codes text.toList)

/-- The score of a candidate for the hints of a fragment. -/
def patternScore (g : CodeGraph α) (hints : PatternHints) (id : String) : α :=
  let r := g.relations
  let w : PatternWeights α := patternWeights
  let calls := ((r.calls.get? id).getD []).map Text.lower
  let imports := ((r.imports.get? id).getD []).map Text.lower
  let name := (r.names.get? id).getD ""
  let kind :=
    if hints.preferredKind.isSome && (r.kinds.get? id).join = hints.preferredKind then Scalar.zero + w.kind
    else Scalar.zero
  let matched := (hints.apiPatterns.filter fun p => occursInAny (Text.lower p) calls).length
  let api :=
    if hints.apiPatterns.isEmpty then kind
    else kind + w.api * Scalar.ofInt matched / Scalar.ofInt hints.apiPatterns.length
  let signature :=
    if name ≠ "" && hints.signatures.any (occursInAny · [name]) then api + w.signature else api
  let framework :=
    if hints.frameworks.any (occursInAny · imports) then signature + w.framework else signature
  Scalar.smaller Scalar.one framework

/-- The scores of a batch for the hints of a fragment. What hints are looked for in has to be a text. -/
def patternScores (g : CodeGraph α) (batch : List String) (hints : PatternHints) :
    Except Fault (List (String × α)) :=
  batch.mapM fun id => do
    let searched := (if hints.apiPatterns.isEmpty then [] else (g.relations.calls.get? id).getD [])
      ++ (if hints.frameworks.isEmpty then [] else (g.relations.imports.get? id).getD [])
    if !searched.all Json.namesText then throw .missingMember
    return (id, g.patternScore hints id)

end CodeSearch.CodeGraph
