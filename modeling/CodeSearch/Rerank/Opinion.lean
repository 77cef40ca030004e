import CodeSearch.Json.Access
import CodeSearch.Record.Checked
/-!
# Opinions on candidates

An opinion gives a candidate whole points from 0 to 10 and a reason. A reply is a list of opinions. Both
are read from objects, and a reader is generous with the points: any number will do, which is rounded
and moved into the range.
-/

namespace CodeSearch.Rerank

open Record

structure Opinion where
  chunkId : String
  /-- From 0, unrelated, to 10, exactly what was asked for. -/
  points : Int
  reasoning : String := ""
deriving DecidableEq, Repr

/-- What there is to say about some candidates. -/
structure Reply where
  opinions : List Opinion := []
deriving DecidableEq, Repr

/-- A number of points in the range. -/
def clampPoints (n : Int) : Int := max 0 (min 10 n)

/-- Points from a value: the integer next to the number that it stands for. A number beyond all bounds
is a fault and no issue. -/
def readPoints (value : Json) : Except Fault (Checked Int) :=
  match value.toDouble >>= fun x => (Decimal.round x).mapError Fault.ofNotFinite with
  | .ok n => .ok (.good (clampPoints n))
  | .error .wrongType => .ok (.fail (.refused s!"score must be a number, got {value.typeName}"))
  | .error (.badValue reason) => .ok (.fail (.refused reason.message))
  | .error fault => .error fault

namespace Opinion

/-- Read an opinion from its fields. -/
def readRecord (record : Json.Fields) : Except Fault (Checked Opinion) := do
  let points ← match record.get? "score" with
    | some value => readPoints value
    | none => pure (.fail .missing)
  return Opinion.mk
    <$> required "chunk_id" text record
    <*> points.under (.field "score")
    <*> optional "reasoning" "" text record

/-- Read an opinion. -/
def read : Json → Except Fault (Checked Opinion)
  | .obj record => readRecord record
  | _ => .ok (.fail (.notModel "RerankScore"))

def json (o : Opinion) : Json :=
  .obj [("chunk_id", .str o.chunkId), ("score", .int o.points), ("reasoning", .str o.reasoning)]

end Opinion

namespace Reply

/-- Read the opinions of a list, each in its place. -/
def readOpinions (values : List Json) : Except Fault (Checked (List Opinion)) := do
  let opinions ← values.zipIdx.mapM fun (value, n) => do
    return (← Opinion.read value).under (.index n)
  return collect opinions

/-- Read a reply; without a list it holds no opinions. -/
def read : Json → Except Fault (Checked Reply)
  | .obj record => do
    let opinions : Checked (List Opinion) ← match Json.Fields.get? record "rankings" with
      | none => pure (.good [])
      | some (.arr values) => readOpinions values
      | some _ => pure (.fail .notList)
    return (opinions.under (.field "rankings")).map Reply.mk
  | _ => .ok (.fail (.notModel "RerankResponse"))

def json (r : Reply) : Json := .obj [("rankings", .arr (r.opinions.map Opinion.json))]

/-- The first opinion on a chunk. -/
def opinion? (r : Reply) (id : String) : Option Opinion := r.opinions.find? fun o => o.chunkId = id

end Reply

end CodeSearch.Rerank
