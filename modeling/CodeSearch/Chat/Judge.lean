import CodeSearch.Chat.Reply
import CodeSearch.Rerank.Prompt
/-!
# Chat models as oracles

A judge asks a chat model for opinions on candidates. A reply that does not read is told apart from a
model that cannot be reached.
-/

namespace CodeSearch.Chat

open Rerank

def opinionSchema : Schema Opinion := ⟨"RerankScore", Opinion.read⟩

def replySchema : Schema Rerank.Reply := ⟨"RerankResponse", Rerank.Reply.read⟩

structure Judge where
  /-- The model, or why there is none. -/
  model : Except Fault Model
  temperature : Option Json
  /-- The model is asked for an object, and not for prose with an object in it. -/
  wantsObject : Bool

namespace Judge

/-- What a fault of the chat means for the request. -/
def oracleFault : Fault → Fault
  | .chat step cause =>
    let fault := Fault.chat step cause
    if cause.any Fault.isBadValue then .oracleMalformed fault.message (some fault)
    else .oracleUnavailable fault.message (some fault)
  | fault => if fault.isDepth then .oracleUnavailable fault.message (some fault) else fault

/-- The prompt that a judge gives its model. -/
def prompt (request : Request) (shown : List (Summary Float)) : Prompt :=
  ⟨Rerank.Prompt.system, Rerank.Prompt.forRequest request shown⟩

def sampling (j : Judge) : Sampling := { temperature := j.temperature }

/-- The opinions of a judge. -/
def oracle (j : Judge) : Oracle Float := fun request shown => do
  let model ← j.model
  let ask := if j.wantsObject then askForObject else askInProse
  (ask model replySchema j.sampling (prompt request shown)).mapError oracleFault

end Judge

end CodeSearch.Chat
