import CodeSearch.Chat.Reply
import CodeSearch.Json.Access
import CodeSearch.Settings.Basic
/-!
# Clients for chat models

How a chat model is reached: its name and the sampling settings, which must lie in the ranges that the
service allows. There is no client without a key.
-/

namespace CodeSearch.Chat

structure Client where
  model : String
  temperature : Option Float
  topP : Option Float
  topK : Option Int
  maxTokens : Option Int
  maxRetries : Int
  /-- Seconds that a request may take. -/
  timeout : Option Float

namespace Client

open Record

/-- What may be said about a client. -/
def arguments : List String :=
  ["model", "temperature", "max_tokens", "top_p", "top_k", "timeout", "max_retries"]

/-- The field of a client that an argument gives. -/
def fieldOf (argument : String) : String :=
  if argument = "max_tokens" then "max_output_tokens" else argument

/-- An integer, or null. -/
def integerOrNull : Json → Checked (Option Int)
  | .null => .good none
  | value => (integer value).map some

/-- The key must be a text. -/
def checkKey (s : Settings) : Checked String := (text s.apiKey).under (.field "google_api_key")

/-- A client as its fields describe it; the settings stand in for what they leave out. -/
def readFields (s : Settings) (record : Json.Fields) : Checked Client :=
  Client.mk
    <$> (required "model" text record <* checkKey s)
    <*> optional "temperature" (some s.llmTemperature) doubleOrNull record
    <*> optional "top_p" (some s.llmTopP) doubleOrNull record
    <*> optional "top_k" (some s.llmTopK) integerOrNull record
    <*> optional "max_output_tokens" s.llmMaxTokens integerOrNull record
    <*> optional "max_retries" s.llmMaxRetries integer record
    <*> optional "timeout" (some (Decimal.ofInt s.llmTimeout)) doubleOrNull record

/-- The ranges that the service allows. -/
def checkRanges (c : Client) : Checked Client :=
  if c.temperature.any fun t => !(0 ≤ t && t ≤ 2) then
    .fail (.refused "temperature must be in the range [0.0, 2.0]")
  else if c.topP.any fun p => !(0 ≤ p && p ≤ 1) then
    .fail (.refused "top_p must be in the range [0.0, 1.0]")
  else if c.topK.any fun k => k ≤ 0 then
    .fail (.refused "top_k must be positive")
  else .good c

/-- Build a client from arguments, of which the model must be one. -/
def build (s : Settings) (given : Json.Fields) : Except Fault Client :=
  match given.get? "model" with
  | none => .error .wrongType
  | some model => do
    given.only arguments
    if !s.hasKey then throw (.chat .noApiKey none)
    match (readFields s (given.map fun (name, value) => (fieldOf name, value))).andThen checkRanges with
    | .good c => return c
    | .bad issues => throw (.chat (.build model.display) (some (.invalidRecord issues)))

/-- A client as a record. -/
def record (c : Client) : Json.Fields :=
  [("model", .str c.model),
    ("temperature", (c.temperature.map Json.float).getD .null),
    ("max_output_tokens", (c.maxTokens.map Json.int).getD .null),
    ("top_p", (c.topP.map Json.float).getD .null),
    ("top_k", (c.topK.map Json.int).getD .null),
    ("max_retries", .int c.maxRetries)]

/-- The client of a model, with the settings for all else. Clients are shared by their models, so the
model must be able to name one. -/
def ofModel (s : Settings) (model : Json) : Except Fault Client :=
  if model.isName then build s [("model", model)] else .error .wrongType

/-- The client that a judge gets for a model. A value that is given in the place of a client is none. -/
def forJudge (s : Settings) (client model : Json) : Except Fault Client :=
  if !client.isNull then .error .missingMember
  else if !s.hasKey then .error (.oracleUnavailable "No API key configured for the reranking model" none)
  else (ofModel s model).mapError fun fault =>
    match fault with
    | .chat _ _ => .oracleUnavailable fault.message (some fault)
    | other => other

end Client

/-- How a judge is set up. -/
structure JudgeSettings where
  model : String
  temperature : Float
  wantsObject : Bool := true
  maxCandidates : Int
  maxContentChars : Int
  vectorWeight : Float
  llmWeight : Float
  timeout : Float

/-- How a judge is set up, as a record. -/
def JudgeSettings.record (j : JudgeSettings) : Json.Fields :=
  [("model", .str j.model),
    ("temperature", .float j.temperature),
    ("structured_output", .bool j.wantsObject),
    ("max_candidates", .int j.maxCandidates),
    ("max_content_chars", .int j.maxContentChars),
    ("vector_weight", .float j.vectorWeight),
    ("llm_weight", .float j.llmWeight),
    ("timeout", .float j.timeout)]

/-- What may be said about a judge: its settings, or a model to use. -/
def JudgeSettings.arguments : List String :=
  ["llm", "model", "temperature", "structured_output", "max_candidates", "max_content_chars",
    "vector_weight", "llm_weight", "timeout"]

/-- The judge that reranks, unless reranking is off or there is no key for its model. -/
def JudgeSettings.standard? (s : Settings) : Option JudgeSettings :=
  if s.rerankEnabled && s.hasKey then
    some {
      model := s.rerankModel
      temperature := s.rerankTemperature
      maxCandidates := s.rerankMaxCandidates
      maxContentChars := s.rerankMaxContentChars
      vectorWeight := s.rerankVectorWeight
      llmWeight := s.rerankLlmWeight
      timeout := s.rerankTimeout }
  else none

end CodeSearch.Chat
