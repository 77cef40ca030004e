import CodeSearch.Query.Basic
import CodeSearch.Text.Half
/-!
# Reading queries

`Query.parse` cuts a query text into clauses and names the first place where that fails: an operator
with nothing to apply to, a quote without partner, or a phrase without tokens. An operator that stands
alone between blanks is plain text, except at the very start of the query.
-/

namespace CodeSearch.Query

/-- What is wrong with a query text. -/
inductive Issue where
  | dangling (operator : Char)
  | unbalanced
  | emptyPhrase
deriving DecidableEq, Repr

/-- An issue, the query it shows in, and the number of characters before it. -/
structure SyntaxError where
  issue : Issue
  query : String
  position : Nat
deriving DecidableEq, Repr

/-- The place of an issue as it is told. -/
def SyntaxError.place (e : SyntaxError) : Nat := (Text.codes (e.query.toList.take e.position)).length

def SyntaxError.message (e : SyntaxError) : String :=
  match e.issue with
  | .dangling operator => s!"Dangling '{operator}' operator at position {e.place}"
  | .unbalanced => s!"Unbalanced quote at position {e.place}"
  | .emptyPhrase => s!"Empty phrase at position {e.place}"

/-- What a clause does with its tokens. -/
inductive Operator where
  | none
  | plus
  | minus
deriving DecidableEq, Repr

/-- The clause of a word. -/
def Operator.wordClause (operator : Operator) (tokens : List String) : Clause :=
  match operator with
  | .none => .optional tokens
  | .plus => .required tokens
  | .minus => .excluded tokens

/-- The clause of a text in quotes. -/
def Operator.phraseClause (operator : Operator) (tokens : List String) : Clause :=
  match operator with
  | .minus => .excluded tokens
  | _ => .phrase tokens

/-- A character that goes on with a word. -/
def inWord (c : Char) : Bool := !Text.isBlank c && c != '"'

/-- The tokens of a stretch of query text. -/
def termTokens (text : List Char) : List String := Token.tokenize {} text

/-- A text cut at its first quote, which belongs to neither part. -/
def cutAtQuote : List Char → Option (List Char × List Char)
  | [] => none
  | c :: rest =>
    if c = '"' then some ([], rest)
    else match cutAtQuote rest with
      | some (body, after) => some (c :: body, after)
      | none => none

theorem length_of_cutAtQuote {text body after : List Char}
    (h : cutAtQuote text = some (body, after)) : body.length + 1 + after.length = text.length := by
  induction text generalizing body with
  | nil => simp [cutAtQuote] at h
  | cons c rest ih =>
    unfold cutAtQuote at h
    split at h
    · cases h
      simp
      omega
    · split at h
      · rename_i inner _ found
        cases h
        have := ih found
        simp
        omega
      · cases h

mutual

/-- The clauses of the rest of a query text. `position` is the number of characters before the rest,
and an issue comes with the number before it. -/
def scan (position : Nat) (text : List Char) : Except (Issue × Nat) (List Clause) :=
  match text with
  | [] => .ok []
  | c :: rest =>
    if Text.isBlank c then scan (position + 1) rest
    else if c = '+' ∨ c = '-' then
      let operator : Operator := if c = '+' then .plus else .minus
      match rest with
      | [] => .error (.dangling c, position)
      | d :: more =>
        if Text.isBlank d then
          if 0 < position then scan (position + 1) (d :: more)
          else .error (.dangling c, position)
        else scanTerm operator (position + 1) d more
    else scanTerm .none position c rest
termination_by (text.length, 0)

/-- The clauses of the rest of a query text that starts with a term, whose first character is `c`. -/
def scanTerm (operator : Operator) (position : Nat) (c : Char) (rest : List Char) :
    Except (Issue × Nat) (List Clause) :=
  if c = '"' then
    match h : cutAtQuote rest with
    | none => .error (.unbalanced, position)
    | some (body, after) =>
      let tokens := termTokens body
      if tokens.isEmpty then .error (.emptyPhrase, position)
      else
        (scan (position + body.length + 2) after).map (operator.phraseClause tokens :: ·)
  else
    let word := rest.takeWhile inWord
    (scan (position + word.length + 1) (rest.dropWhile inWord)).map
      (operator.wordClause (termTokens (c :: word)) :: ·)
termination_by (rest.length, 1)
decreasing_by
  · have := length_of_cutAtQuote h
    omega
  · have := (List.dropWhile_sublist (l := rest) inWord).length_le
    omega

end

/-- Read a query text. -/
def parse (text : String) : Except SyntaxError Query :=
  match scan 0 text.toList with
  | .ok clauses => .ok (ofClauses clauses)
  | .error (issue, position) => .error ⟨issue, text, position⟩

end CodeSearch.Query
