import CodeSearch.CommandLine.Arguments
/-!
# Commands

What the program can be told to do, and how arguments tell it: the name of a command, and then its
operand and options.
-/

namespace CodeSearch.CommandLine

inductive Command where
  /-- Index the chunk files below a directory. -/
  | index (directory : String)
  /-- Find the chunks that are relevant to a query. -/
  | search (query : String) (maxResults : Option Int) (asJson : Bool)
  /-- Find the equivalent of a source fragment. -/
  | pattern (sourceFile : String) (hint kind : Option String) (maxResults : Option Int) (asJson : Bool)
  /-- Show the sizes of the indexes. -/
  | status
deriving Repr

namespace Command

def maxResultsRule : OptionRule := ⟨"--max-results", .integer⟩

def jsonRule : OptionRule := ⟨"--json", .nothing⟩

def hintRule : OptionRule := ⟨"--hint", .text⟩

def kindRule : OptionRule := ⟨"--kind", .text⟩

/-- The command of a name, as its arguments describe it. -/
def ofNamed (name : String) (args : List String) : Except Refusal Command := do
  match name with
  | "index" =>
    let g ← Given.ofArguments true [] args
    return .index (g.operand.getD "")
  | "search" =>
    let g ← Given.ofArguments true [maxResultsRule, jsonRule] args
    return .search (g.operand.getD "") (g.integer? maxResultsRule.name) (g.has jsonRule.name)
  | "pattern" =>
    let g ← Given.ofArguments true [hintRule, kindRule, maxResultsRule, jsonRule] args
    return .pattern (g.operand.getD "") (g.text? hintRule.name) (g.text? kindRule.name)
      (g.integer? maxResultsRule.name) (g.has jsonRule.name)
  | "status" =>
    let _ ← Given.ofArguments false [] args
    return .status
  | _ => throw .misuse

/-- The command that all arguments describe. The first value is its name. Before it only a request for
help has a meaning; other options are left over, which is found out when the rest has been read. -/
def ofArguments : List String → Except Refusal Command
  | [] => .error .misuse
  | arg :: rest =>
    if arg = "--" then .error .misuse
    else
      match classify helpRules arg with
      | .error refusal => .error refusal
      | .ok (.value name) => ofNamed name rest
      | .ok (.known rule given) => .error (Given.onHelp rule given)
      | .ok _ => do
        let _ ← ofArguments rest
        throw .misuse

end Command

end CodeSearch.CommandLine
