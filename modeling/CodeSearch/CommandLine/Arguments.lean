import CodeSearch.Text.Pieces
import CodeSearch.Json.Access
/-!
# Arguments of a command

A command takes one operand or none, and options. `classify` tells what an argument is, `pieces` does so
for all arguments, and `Given.take` gives out the pieces: options take their values from them, the first
other value is the operand, and nothing may be left over.

The name of a long option may be cut short as long as only one option starts with it, and its value may
follow behind an equals sign. Everything behind two dashes is a value.
-/

namespace CodeSearch.CommandLine

/-- Why arguments are not carried out. -/
inductive Refusal where
  /-- Help is asked for. -/
  | help
  /-- The arguments do not fit. -/
  | misuse
deriving DecidableEq, Repr

/-- What an option takes. -/
inductive Taking where
  | help
  | nothing
  | text
  | integer
deriving DecidableEq, Repr

structure OptionRule where
  /-- The name with its dashes: one before a letter, two before a word. -/
  name : String
  taking : Taking
deriving DecidableEq, Repr

/-- The options that ask for help. -/
def helpRules : List OptionRule := [⟨"-h", .help⟩, ⟨"--help", .help⟩]

/-- What an argument is. -/
inductive Piece where
  | value (text : String)
  /-- Two dashes. -/
  | separator
  /-- An option, and the value that the argument itself gives it. -/
  | known (rule : OptionRule) (given : Option String)
  /-- An option that the command does not have. -/
  | unknown

/-- An argument before and behind its first equals sign. -/
def splitGiven (arg : List Char) : String × Option String :=
  (String.ofList (arg.takeWhile (· ≠ '=')),
    match arg.dropWhile (· ≠ '=') with
    | _ :: text => some (String.ofList text)
    | [] => none)

/-- The text behind a dash is a number without exponent. One line feed may follow it. -/
def isNumber (text : List Char) : Bool :=
  let body := if text.getLast? = some '\n' then text.dropLast else text
  match body.dropWhile Text.isDecimalDigit with
  | [] => !body.isEmpty
  | '.' :: fraction => !fraction.isEmpty && fraction.all Text.isDecimalDigit
  | _ => false

/-- An argument that names no option. -/
def withoutOption (arg : List Char) : Piece :=
  if isNumber (arg.drop 1) || arg.contains ' ' then .value (String.ofList arg) else .unknown

/-- What an argument with two dashes before it is: the option of its name, or else the only one whose
name it begins. -/
def classifyLong (rules : List OptionRule) (arg : List Char) : Except Refusal Piece :=
  let (name, given) := splitGiven arg
  match rules.find? fun rule => rule.name = name with
  | some rule => .ok (.known rule given)
  | none =>
    match rules.filter fun rule => rule.name.startsWith name with
    | [] => .ok (withoutOption arg)
    | [rule] => .ok (.known rule given)
    | _ => .error .misuse

/-- What an argument with one dash before a letter is. What stands behind the letter is its value. -/
def classifyShort (rules : List OptionRule) (letter : Char) (rest : List Char) : Piece :=
  match rules.find? fun rule => rule.name = String.ofList ['-', letter] with
  | some rule => .known rule (if rest.isEmpty then none else some (String.ofList rest))
  | none => withoutOption ('-' :: letter :: rest)

/-- What an argument is, two dashes apart. -/
def classify (rules : List OptionRule) (arg : String) : Except Refusal Piece :=
  match arg.toList with
  | '-' :: '-' :: rest => classifyLong rules ('-' :: '-' :: rest)
  | '-' :: letter :: rest => .ok (classifyShort rules letter rest)
  | _ => .ok (.value arg)

/-- What all arguments are. -/
def pieces (rules : List OptionRule) : List String → Except Refusal (List Piece)
  | [] => .ok []
  | arg :: rest =>
    if arg = "--" then .ok (.separator :: rest.map .value)
    else do return (← classify rules arg) :: (← pieces rules rest)

/-! ## Taking the pieces -/

/-- What arguments give a command. -/
structure Given where
  operand : Option String := none
  /-- The options by name, the latest first, with their values. Switches have the empty value. -/
  options : List (String × String) := []
  /-- There are arguments that nothing takes. -/
  leftOver : Bool := false

namespace Given

def setOption (g : Given) (name text : String) : Given :=
  { g with options := (name, text) :: g.options }

/-- Give a value to the operand, if it is wanted and has none. -/
def setOperand (wanted : Bool) (g : Given) (text : String) : Given :=
  if wanted && g.operand.isNone then { g with operand := some text } else { g with leftOver := true }

/-- A text that an option takes. -/
def fits (taking : Taking) (text : String) : Bool :=
  match taking with
  | .integer => (Json.str text).toInteger.isOk
  | _ => true

/-- What it means that the letter for help has this behind it: the same letter again does no harm, and there
is no other. -/
def behindHelp (letters : List Char) : Refusal := if letters.all (· = 'h') then .help else .misuse

/-- What it means that help is asked for by an option. The letters behind its letter may follow an equals
sign. -/
def onHelp (rule : OptionRule) (given : Option String) : Refusal :=
  match given.map String.toList with
  | none => .help
  | some text =>
    if rule.name ≠ "-h" then .misuse
    else
      match text with
      | ['='] => .misuse
      | '=' :: letters => behindHelp letters
      | letters => behindHelp letters

/-- Give out the pieces. Two dashes belong to the operand that stands beside them. -/
def take (wanted : Bool) : Given → List Piece → Except Refusal Given
  | g, [] => .ok g
  | g, .separator :: .value text :: rest => take wanted (g.setOperand wanted text) rest
  | g, .separator :: rest => take wanted { g with leftOver := true } rest
  | g, .value text :: .separator :: rest => take wanted (g.setOperand wanted text) rest
  | g, .value text :: rest => take wanted (g.setOperand wanted text) rest
  | g, .unknown :: rest => take wanted { g with leftOver := true } rest
  | _, .known ⟨name, .help⟩ given :: _ => .error (onHelp ⟨name, .help⟩ given)
  | g, .known ⟨name, .nothing⟩ none :: rest => take wanted (g.setOption name "") rest
  | _, .known ⟨_, .nothing⟩ (some _) :: _ => .error .misuse
  | g, .known ⟨name, taking⟩ (some text) :: rest =>
    if fits taking text then take wanted (g.setOption name text) rest else .error .misuse
  | g, .known ⟨name, taking⟩ none :: .value text :: rest =>
    if fits taking text then take wanted (g.setOption name text) rest else .error .misuse
  | _, .known _ none :: _ => .error .misuse

/-- What the arguments of a command give, if they fit it: no operand but a wanted one, and that one. -/
def ofArguments (wanted : Bool) (rules : List OptionRule) (args : List String) :
    Except Refusal Given := do
  let g ← take wanted {} (← pieces (helpRules ++ rules) args)
  if g.leftOver || g.operand.isSome ≠ wanted then throw .misuse
  return g

/-- An option is given. -/
def has (g : Given) (name : String) : Bool := (g.options.lookup name).isSome

/-- The text of an option. -/
def text? (g : Given) (name : String) : Option String := g.options.lookup name

/-- The integer of an option. -/
def integer? (g : Given) (name : String) : Option Int :=
  (g.text? name).bind fun text => (Json.str text).toInteger.toOption

end Given

end CodeSearch.CommandLine
