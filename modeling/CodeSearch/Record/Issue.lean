/-!
# Issues of records

What a reader of records finds wrong, and where: a problem and the steps that lead to its place.
-/

namespace CodeSearch.Record

/-- A step into a record. -/
inductive Step where
  | field (name : String)
  | index (n : Nat)
deriving DecidableEq, Repr

/-- What is wrong with a value. -/
inductive Problem where
  | missing
  | notText
  /-- A text holds half of a pair, and something else was to be read from it. -/
  | brokenText
  | notInteger
  | fractional
  | unreadableInteger
  | integerTooLarge
  | notFinite
  | negative
  | notNumber
  | unreadableNumber
  | notTuple
  | notList
  | notMapping
  | notModel (name : String)
  | notAmong (values : List String)
  | notLiteral (values : List String)
  | refused (reason : String)
  | frozen
deriving DecidableEq, Repr

/-- Values in quotes, with commas, and an "or" before the last. -/
def alternatives : List String → String
  | [] => ""
  | [a] => s!"'{a}'"
  | [a, b] => s!"'{a}' or '{b}'"
  | a :: rest => s!"'{a}', " ++ alternatives rest

/-- The short name of a problem. -/
def Problem.tag : Problem → String
  | .missing => "missing"
  | .notText => "string_type"
  | .brokenText => "string_unicode"
  | .notInteger => "int_type"
  | .fractional => "int_from_float"
  | .unreadableInteger => "int_parsing"
  | .integerTooLarge => "int_parsing_size"
  | .notFinite => "finite_number"
  | .negative => "greater_than_equal"
  | .notNumber => "float_type"
  | .unreadableNumber => "float_parsing"
  | .notTuple => "tuple_type"
  | .notList => "list_type"
  | .notMapping => "dict_type"
  | .notModel _ => "model_type"
  | .notAmong _ => "enum"
  | .notLiteral _ => "literal_error"
  | .refused _ => "value_error"
  | .frozen => "frozen_instance"

def Problem.message : Problem → String
  | .missing => "Field required"
  | .notText => "Input should be a valid string"
  | .brokenText => "Input should be a valid string, unable to parse raw data as a unicode string"
  | .notInteger => "Input should be a valid integer"
  | .fractional => "Input should be a valid integer, got a number with a fractional part"
  | .unreadableInteger => "Input should be a valid integer, unable to parse string as an integer"
  | .integerTooLarge => "Unable to parse input string as an integer, exceeded maximum size"
  | .notFinite => "Input should be a finite number"
  | .negative => "Input should be greater than or equal to 0"
  | .notNumber => "Input should be a valid number"
  | .unreadableNumber => "Input should be a valid number, unable to parse string as a number"
  | .notTuple => "Input should be a valid tuple"
  | .notList => "Input should be a valid list"
  | .notMapping => "Input should be a valid dictionary"
  | .notModel name => s!"Input should be a valid dictionary or instance of {name}"
  | .notAmong values => s!"Input should be {alternatives values}"
  | .notLiteral values => s!"Input should be {alternatives values}"
  | .refused reason => s!"Value error, {reason}"
  | .frozen => "Instance is frozen"

/-- A problem and its place. -/
structure Issue where
  place : List Step
  problem : Problem
deriving DecidableEq, Repr

/-- The issue one step further out. -/
def Issue.under (step : Step) (issue : Issue) : Issue := { issue with place := step :: issue.place }

end CodeSearch.Record
