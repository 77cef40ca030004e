import CodeSearch.Token.Tokenizer
/-!
# Search queries

A query is a list of clauses: words that may occur, words that must (`+word`), words that must not
(`-word`), and phrases in quotes, whose tokens must stand next to each other. `Query.selects` says
which token lists a query selects.
-/

namespace CodeSearch

/-- The clauses of a query as tokens. Optional, required and excluded tokens stand once each. -/
structure Query where
  optional : List String
  required : List String
  excluded : List String
  phrases : List (List String)
deriving DecidableEq, Repr, Inhabited

/-- One clause of a query text. -/
inductive Clause where
  | optional (tokens : List String)
  | required (tokens : List String)
  | excluded (tokens : List String)
  | phrase (tokens : List String)
deriving DecidableEq, Repr

namespace Clause

def optionalTokens : Clause → List String
  | .optional tokens => tokens
  | _ => []

def requiredTokens : Clause → List String
  | .required tokens => tokens
  | _ => []

def excludedTokens : Clause → List String
  | .excluded tokens => tokens
  | _ => []

def phrase? : Clause → Option (List String)
  | .phrase tokens => some tokens
  | _ => none

end Clause

/-- The items of a list without repetitions, each at its first place. -/
def firsts {α : Type} [BEq α] : List α → List α
  | [] => []
  | a :: rest => a :: (firsts rest).filter (fun b => !(b == a))

/-- A list that occurs in another as a contiguous run. -/
def containsRun {α : Type} [BEq α] (run : List α) : List α → Bool
  | [] => run.isEmpty
  | a :: rest => run.isPrefixOf (a :: rest) || containsRun run rest

namespace Query

/-- The query of a list of clauses. -/
def ofClauses (clauses : List Clause) : Query where
  optional := firsts (clauses.flatMap Clause.optionalTokens)
  required := firsts (clauses.flatMap Clause.requiredTokens)
  excluded := firsts (clauses.flatMap Clause.excludedTokens)
  phrases := clauses.filterMap Clause.phrase?

/-- The tokens that a text gains by, each once: optional and required ones and those of phrases. -/
def positiveTerms (q : Query) : List String :=
  firsts (q.optional ++ q.required ++ q.phrases.flatten)

/-- A query without positive terms selects nothing. -/
def isEmpty (q : Query) : Bool := q.positiveTerms.isEmpty

/-- A token list is selected if it has some positive term, all required and no excluded ones, and
every phrase as a contiguous run. -/
def selects (q : Query) (tokens : List String) : Bool :=
  q.positiveTerms.any tokens.contains && q.required.all tokens.contains &&
    !q.excluded.any tokens.contains && q.phrases.all fun phrase => containsRun phrase tokens

end Query

end CodeSearch
