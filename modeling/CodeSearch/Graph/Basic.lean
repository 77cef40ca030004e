import CodeSearch.Chunk.Unchecked
import CodeSearch.Graph.Hints
import CodeSearch.Json.Number
import CodeSearch.Keyed
import CodeSearch.Record.Unfit
import CodeSearch.Scalar
/-!
# The relationship graph

Relations between chunks: what each one calls, extends, imports and routes to, and which package it
belongs to. All are kept by chunk id, and are made anew from a list of chunks each time.
-/

namespace CodeSearch

/-- The relations between chunks. Lists under a key hold each value once, the lists by simple name
apart. -/
structure Relations where
  /-- The kinds that the chunks are found by. -/
  kinds : Keyed String (Option ChunkKind) := .empty
  /-- The qualified names that are not empty. -/
  names : Keyed String String := .empty
  /-- The ids of the chunks of a simple name, in the order in which they came in. -/
  bySimpleName : Keyed String (List String) := .empty
  calls : Keyed String (List String) := .empty
  supertypes : Keyed String (List String) := .empty
  imports : Keyed String (List String) := .empty
  routes : Keyed String (List String) := .empty
  /-- The ids of the chunks of a package. -/
  packageMembers : Keyed String (List String) := .empty
  packageOf : Keyed String String := .empty

namespace Relations

attribute [local instance] zeroNat

/-- A character of a name with dots in it. -/
def isNameChar (c : Char) : Bool := Text.isWordChar c || c == '.'

/-- A character of a list of names. -/
def isNameListChar (c : Char) : Bool := isNameChar c || c == ',' || Text.isBlank c

/-- The types that a class context says it extends or implements. -/
def supertypesOf (context : String) : List String :=
  let text := context.toList
  let extended := Text.clauses "extends".toList isNameChar text
  let implemented := (Text.clauses "implements".toList isNameListChar text).flatMap fun names =>
    ((Text.pieces ',' names).map Text.trim).filter (!·.isEmpty)
  firsts ((extended ++ implemented).map String.ofList)

/-- A key of a structural mapping that leads to another part of the program. -/
def isRoutingKey (key : String) : Bool :=
  let lowered := (Text.lower key).toList
  Vocabulary.routingMarkers.any fun marker => containsRun marker.toList lowered

/-- Where a chunk routes to. -/
def routesOf (c : Chunk) : List String :=
  firsts ((c.facts.filter fun (key, value) => value ≠ "" && isRoutingKey key).map Prod.snd)

/-- A name without its last segment, if it has several. -/
def qualifier? (name : String) : Option String :=
  if name.toList.contains '.' then
    some (String.ofList (name.toList.reverse.dropWhile (· ≠ '.')).tail.reverse)
  else none

/-- The package of a chunk: the one it names or, failing that, the qualifier of its name. -/
def package? (c : Chunk) : Option String :=
  (Chunk.nonEmpty? c.packageName?).or (Chunk.nonEmpty? (c.qualifiedName.bind qualifier?))

/-- Put values under a key, unless there are none. -/
def note (m : Keyed String (List String)) (key : String) (values : List String) :
    Keyed String (List String) :=
  if values.isEmpty then m else m.put key values

/-- Enter a chunk into the relations. -/
def enter (r : Relations) (c : Chunk) : Relations :=
  let name := Chunk.nonEmpty? c.qualifiedName
  let package := package? c
  { kinds := r.kinds.put c.id c.kind?
    names := match name with
      | some name => r.names.put c.id name
      | none => r.names
    bySimpleName := match name with
      | some _ => r.bySimpleName.put c.simpleName ((r.bySimpleName.get? c.simpleName).getD [] ++ [c.id])
      | none => r.bySimpleName
    calls := note r.calls c.id (firsts (c.elementNames "api_call_sequence" c.apiCalls))
    supertypes := note r.supertypes c.id (supertypesOf (c.enclosingClass.getD ""))
    imports := note r.imports c.id (firsts (c.elementNames "imports" c.imports))
    routes := note r.routes c.id (routesOf c)
    packageMembers := match package with
      | some package =>
        r.packageMembers.put package (firsts ((r.packageMembers.get? package).getD [] ++ [c.id]))
      | none => r.packageMembers
    packageOf := match package with
      | some package => r.packageOf.put c.id package
      | none => r.packageOf }

/-- The relations between some chunks. -/
def ofChunks (chunks : List Chunk) : Relations := chunks.foldl enter {}

/-! ## Sizes -/

/-- The number of chunks. -/
def size (r : Relations) : Nat := r.kinds.size

/-- The number of values under all keys. -/
def total (m : Keyed String (List String)) : Nat := (m.values.map List.length).sum

/-- The sizes of the relations by name. -/
def stats (r : Relations) : List (String × Nat) :=
  [("nodes", r.size), ("calls", total r.calls), ("inherits_from", total r.supertypes),
    ("imports", total r.imports), ("routes_to", total r.routes),
    ("packages", r.packageMembers.size)]

/-- A name stands before another one, or is the same: by code, but the names of numbers by the numbers. -/
def isOrdered (a b : String) : Bool :=
  match Number.ofJson? (Json.ofEntryName a), Number.ofJson? (Json.ofEntryName b) with
  | some x, some y => !y.less x
  | _, _ => Text.atMost a b

/-- Names in order. -/
def sorted (names : List String) : List String := names.mergeSort isOrdered

/-- The values under each key, in order. -/
def listing (m : Keyed String (List String)) : Json :=
  .obj (m.items.map fun (key, values) => (key, Chunk.textsJson (sorted values)))

/-- The relations as a record. -/
def record (r : Relations) : Json.Fields :=
  [("calls", listing r.calls),
    ("inherits_from", listing r.supertypes),
    ("imports", listing r.imports),
    ("routes_to", listing r.routes),
    ("package_members", listing r.packageMembers),
    ("package_of", .obj (r.packageOf.items.map fun (id, package) => (id, .str package)))]

/-! ## Neighbours -/

/-- The chunks whose simple name is the last segment of one of some names. -/
def namedBy (r : Relations) (names : List String) : List String :=
  (sorted names).flatMap fun name => (r.bySimpleName.get? (Chunk.lastSegmentText name)).getD []

/-- The chunks that name a chunk of this simple name as a supertype. -/
def subtypes (r : Relations) (simpleName : String) : List String :=
  if simpleName = "" then []
  else
    (r.supertypes.items.filter fun item =>
      item.2.any fun name => Chunk.lastSegmentText name = simpleName).map Prod.fst

/-- The chunks related to a chunk: those it calls, its supertypes, its subtypes, and the members of its
package, each once. -/
def related (r : Relations) (id : String) : List String :=
  let called := r.namedBy ((r.calls.get? id).getD [])
  let supers := r.namedBy ((r.supertypes.get? id).getD [])
  let subs := r.subtypes (Chunk.lastSegmentText ((r.names.get? id).getD ""))
  let members := match r.packageOf.get? id with
    | some package => sorted ((r.packageMembers.get? package).getD [])
    | none => []
  (firsts (called ++ supers ++ subs ++ members)).filter (· ≠ id)

/-- The chunks related to a chunk, up to a number. -/
def neighbors (r : Relations) (id : String) (maxResults : Int) : List String :=
  upTo maxResults (r.related id)

end Relations

/-- What each relation weighs in a score. -/
structure GraphWeights (α : Type) where
  package : α
  call : α
  imports : α
  mapping : α
  cooccurrence : α
  /-- Those that cannot be counted with. -/
  unfit : Unfit := []

/-- The relations between chunks, and the weights by which they count. -/
structure CodeGraph (α : Type) where
  weights : GraphWeights α
  relations : Relations := {}
  /-- The relations that hints are compared with, if the terms of those at hand could not all be taken. -/
  earlier : Option Relations := none

/-- The weights unless others are asked for. -/
def GraphWeights.standard {α : Type} [Scalar α] : GraphWeights α where
  package := Scalar.ratio 3 10
  call := Scalar.ratio 4 10
  imports := Scalar.ratio 2 10
  mapping := Scalar.ratio 3 10
  cooccurrence := Scalar.ratio 1 10

open Lenient in
/-- The weights that a record gives, and the usual ones for those it leaves out. -/
def GraphWeights.read (record : Json.Fields) : GraphWeights Float :=
  let usual : GraphWeights Float := .standard
  run (do
    return {
      package := ← setting record "package_weight" usual.package Json.toWeight
      call := ← setting record "call_weight" usual.call Json.toWeight
      imports := ← setting record "import_weight" usual.imports Json.toWeight
      mapping := ← setting record "mapping_weight" usual.mapping Json.toWeight
      cooccurrence := ← setting record "cooccurrence_weight" usual.cooccurrence Json.toWeight })
    fun (weights : GraphWeights Float) unfit => { weights with unfit }

/-- The weights that may be given. -/
def GraphWeights.names : List String :=
  ["package_weight", "call_weight", "import_weight", "mapping_weight", "cooccurrence_weight"]

/-- The weights that a record gives, which may give nothing else. -/
def GraphWeights.ofRecord (record : Json.Fields) : Except Fault (GraphWeights Float) := do
  record.only names
  return read record

/-- The relations that hints are compared with. -/
def CodeGraph.compared {α : Type} (g : CodeGraph α) : Relations := g.earlier.getD g.relations

/-- The graph of some chunks, with the weights of another one. -/
def CodeGraph.build {α : Type} (g : CodeGraph α) (chunks : List Chunk) : CodeGraph α :=
  { g with relations := .ofChunks chunks, earlier := none }

namespace Relations

/-- All values are texts, which can be cut into terms. -/
def areTexts (m : Keyed String (List String)) : Bool :=
  m.values.all fun values => values.all Json.namesText

/-- Hints can be compared with all relations. -/
def haveTerms (r : Relations) : Bool :=
  areTexts r.calls && areTexts r.imports && areTexts r.routes && r.packageOf.values.all Json.namesText

/-- The relations that hints are compared with once the terms of new ones have been taken as far as they can
be: first those of calls, then those of imports, of routes, and of packages. -/
def updated (old new : Relations) : Relations :=
  if !areTexts new.calls then old
  else if !areTexts new.imports then { old with calls := new.calls }
  else if !areTexts new.routes then { old with calls := new.calls, imports := new.imports }
  else { old with calls := new.calls, imports := new.imports, routes := new.routes }

end Relations

/-- As `build`, for chunks whose fields may not be of their kinds. Relations that cannot be entered leave the
graph as it is; relations whose terms cannot be taken are kept all the same. -/
def CodeGraph.rebuild {α : Type} (g : CodeGraph α) (chunks : List Chunk) :
    Except Fault Unit × CodeGraph α :=
  match chunks.forM (Chunk.checkRelations Relations.isRoutingKey) with
  | .error fault => (.error fault, g)
  | .ok _ =>
    let built := g.build chunks
    if built.relations.haveTerms then (.ok (), built)
    else (.error .missingMember, { built with earlier := some (g.compared.updated built.relations) })

end CodeSearch
