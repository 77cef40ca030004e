import CodeSearch.Fault
/-!
# Objects in prose

A chat model that is asked for an object often writes prose around it. The object is looked for between
the first opening brace and the last closing one.
-/

namespace CodeSearch.Chat

/-- The part of a text from its first opening brace to its last closing one. -/
def braced? (text : List Char) : Option (List Char) :=
  let opened := text.dropWhile (· ≠ '\x7b')
  let closed := (opened.reverse.dropWhile (· ≠ '\x7d')).reverse
  if closed.isEmpty then none else some closed

/-- The object in a text. -/
def extractObject (text : String) : Except Fault Json.Fields :=
  match braced? text.toList with
  | none => .error (.badValue .noObjectInReply)
  | some part =>
    match Json.parse (String.ofList part) with
    | .ok (.obj fields) => .ok fields
    | .ok other => .error (.badValue (.noObjectButOther other.typeName))
    | .error e =>
      if (Fault.badJson e).isJsonSyntax then .error (.badValue (.badJsonInReply e))
      else .error (.badJson e)

end CodeSearch.Chat
