import CodeSearch.Vector.Embedder
/-!
# Embedders given as records

The simple embedders, chosen and set up by a record whose values may be of any kind. A value that is of no
use is noticed where a text is embedded.
-/

namespace CodeSearch.Embedder

/-- Tokens counted in buckets, whose number is a value of any kind that gives the shape of an array. A token
finds its bucket only if that is an integer. -/
def hashedFor (buckets : Json) : Embedder Float where
  embed text := do
    let shape ← Tensor.shapeOf buckets
    match buckets with
    | .int n => (hashed n.toNat).embed text
    | _ =>
      if !(Token.tokens text).isEmpty then throw .wrongType
      return .constant Scalar.zero shape
  embedOther _ := do
    let _ ← Tensor.shapeOf buckets
    throw .wrongType

/-- A token stands in a text, or among the names of an object. -/
def standsIn (token : String) : Json → Option (Except Fault Nat)
  | .arr items =>
    let place := items.findIdx fun
      | .str word => word = token
      | _ => false
    if place < items.length then some (.ok place) else none
  | .str words =>
    let codes := Text.codes words.toList
    (List.range (codes.length + 1)).find? (fun n =>
      (Text.codes token.toList).isPrefixOf (codes.drop n)) |>.map .ok
  | .obj fields => if (fields.lookup token).isSome then some (.error .missingMember) else none
  | _ => none

/-- Tokens counted by the places that they have in a value with elements, all others in one further place. -/
def vocabularyFor (words : Json) : Embedder Float where
  embed text := do
    let width := (← words.elements).length
    let places ← (Token.tokens text).mapM fun token => (standsIn token words).getD (.ok width)
    return .ofList ((List.range (width + 1)).map fun n => Scalar.ofInt (places.count n))

/-- A key occurs in a text, among the items of a list, or among the names of an object. -/
def occursIn (key : Json) : Json → Except Fault Bool
  | .str text => do return containsRun (Text.codes (← key.toText).toList) (Text.codes text.toList)
  | .arr items => .ok (items.any key.same)
  | .obj fields => do
    let name ← key.entryName
    return fields.any fun field => field.1 = name
  | _ => .error .wrongType

/-- The vector of the first row, of a key and a vector, whose key occurs in a value. -/
def rowFor (value : Json) : List Json → Except Fault (Option Json)
  | [] => .ok none
  | row :: rest => do
    match ← row.elements with
    | [key, vector] => if ← occursIn key value then return some vector else rowFor value rest
    | _ => throw (.badValue .other)

/-- The vector of the first key that occurs in a value, or else the one for all other values. -/
def lookUp (rows : Json) (default : Option Json) (value : Json) : Except Fault (Tensor Float) := do
  match ← rowFor value (← rows.elements) with
  | some vector => return .ofJson vector
  | none => (default.map fun vector => .ok (.ofJson vector)).getD (.error .missingKey)

/-- Vectors by the keys that occur in texts. -/
def tableFor (rows : Json) (default : Option Json) : Embedder Float where
  embed text := lookUp rows default (.str text)
  embedOther := lookUp rows default

/-- The embedder of a model, which also takes a list of texts for many texts at once. -/
def model : Embedder Float :=
  let counting := hashed 64
  { counting.batched with
    embedOther := fun value => do
      return .array (← (← value.elements).mapM fun text => do counting.embed (← text.toText)) }

/-- The type of embedder that a record names. -/
def typeOf (record : Json.Fields) : Json := (record.get? "type").getD .null

/-- The embedder that a record describes takes many texts at once after a pause. That of a model takes them
without one. -/
def pauses (record : Json.Fields) : Bool :=
  let isModel := match typeOf record with
    | .str name => name = "model"
    | _ => false
  ((record.get? "batch").getD .null).isTruthy && !isModel

/-- The embedder that a record describes. -/
def ofRecord (record : Json.Fields) : Embedder Float :=
  let field (name : String) : Json := (record.get? name).getD .null
  let simple := match typeOf record with
    | .str "vocab" => vocabularyFor (field "words")
    | .str "table" => tableFor ((record.get? "rows").getD (.arr [])) (record.get? "default")
    | .str "model" => model
    | _ => hashedFor ((record.get? "dim").getD (.int 64))
  if (field "batch").isTruthy then simple.batched else simple

end CodeSearch.Embedder
