import CodeSearch.Chat.Extract
import CodeSearch.Json.Printer
import CodeSearch.Record.Checked
/-!
# Calls of chat models

A chat model is asked for a value of some schema, either as an object in prose or as an object of its
own. What goes wrong is a fault of the chat, whose cause tells whether a reply has arrived: it is a bad
value if one has.
-/

namespace CodeSearch.Chat

open Record

/-- A kind of values that replies are read as. -/
structure Schema (β : Type) where
  name : String
  read : Json → Except Fault (Checked β)

/-- Read a value; its issues are the fault. -/
def Schema.check {β : Type} (schema : Schema β) (value : Json) : Except Fault β := do
  match ← schema.read value with
  | .good value => return value
  | .bad issues => throw (.invalidRecord issues)

/-- Settings of a single call. They are passed on as they were given, whatever they are. -/
structure Sampling where
  temperature : Option Json := none
  maxTokens : Option Json := none

/-- The settings that a call gives, by name. -/
def Sampling.overrides (s : Sampling) : Json.Fields :=
  (s.temperature.toList.map fun t => ("temperature", t)) ++
    s.maxTokens.toList.map fun n => ("max_output_tokens", n)

/-- What a model answers to. -/
structure Prompt where
  system : String
  user : String

/-- The answer of a model that is asked for an object: the object, or something of another kind. -/
inductive ObjectReply where
  | object (value : Json)
  | other (typeName : String)

/-- A chat model, given from outside. In prose it answers with a text, or with a list of parts. -/
structure Model where
  complete : Sampling → Prompt → Except Fault Json
  completeObject : Sampling → Prompt → Except Fault ObjectReply

/-- The text of an answer in prose. -/
def replyText : Json → String
  | .str text => text
  | parts => parts.display

/-- The value of a schema in the object that a text holds. -/
def readReply {β : Type} (schema : Schema β) (text : String) : Except Fault β := do
  schema.check (.obj (← extractObject text))

/-- The value in an answer in prose, or the fault of the call. -/
def valueInProse {β : Type} (schema : Schema β) (answer : Except Fault Json) : Except Fault β :=
  match answer with
  | .error fault => .error (.chat .call (some fault))
  | .ok reply =>
    (readReply schema (replyText reply)).mapError fun fault =>
      if fault.isBadValue then .chat (.readReply schema.name) (some fault) else fault

/-- The value in an answer that is an object. -/
def valueInObject {β : Type} (schema : Schema β) (answer : Except Fault ObjectReply) : Except Fault β :=
  (do
    match ← answer with
    | .object value => schema.check value
    | .other typeName => throw (.badValue (.unexpectedReply schema.name typeName))
  : Except Fault β).mapError fun fault => .chat (.structuredCall schema.name) (some fault)

/-- Ask a model in prose. -/
def askInProse {β : Type} (model : Model) (schema : Schema β) (sampling : Sampling) (prompt : Prompt) :
    Except Fault β :=
  valueInProse schema (model.complete sampling prompt)

/-- Ask a model for an object. -/
def askForObject {β : Type} (model : Model) (schema : Schema β) (sampling : Sampling)
    (prompt : Prompt) : Except Fault β :=
  valueInObject schema (model.completeObject sampling prompt)

end CodeSearch.Chat
