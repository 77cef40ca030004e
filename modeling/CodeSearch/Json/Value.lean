import CodeSearch.Decimal.Numeral
/-!
# Data values

A value of the data format: null, a truth value, an integer of any size, a double, a text, a list,
or an object whose fields keep their order. Integers and doubles are told apart by how they are
written.
-/

namespace CodeSearch

inductive Json where
  | null
  | bool (value : Bool)
  | int (value : Int)
  | float (value : Float)
  | str (value : String)
  | arr (items : List Json)
  | obj (fields : List (String × Json))
deriving Inhabited, BEq

namespace Json

/-- The fields of an object, in order. -/
abbrev Fields := List (String × Json)

/-- The field of a name. -/
def Fields.get? (fields : Fields) (name : String) : Option Json := List.lookup name fields

/-- Set a field: in its place if the name is there, else at the end. -/
def Fields.set : Fields → String → Json → Fields
  | [], name, value => [(name, value)]
  | (key, old) :: rest, name, value =>
    if key = name then (name, value) :: rest else (key, old) :: Fields.set rest name value

/-- The name of the kind of a value, as messages give it. -/
def typeName : Json → String
  | .null => "NoneType"
  | .bool _ => "bool"
  | .int _ => "int"
  | .float _ => "float"
  | .str _ => "str"
  | .arr _ => "list"
  | .obj _ => "dict"

def isNull : Json → Bool
  | .null => true
  | _ => false

/-- Neither null, nor false, nor zero, nor empty. -/
def isTruthy : Json → Bool
  | .null => false
  | .bool b => b
  | .int n => n ≠ 0
  | .float x => !(x == 0.0)
  | .str s => s ≠ ""
  | .arr items => !items.isEmpty
  | .obj fields => !fields.isEmpty

/-- A value as an integer, if it stands for one. -/
def whole : Json → Json
  | .bool b => .int (if b then 1 else 0)
  | .float x =>
    match Decimal.integral? x with
    | some n => .int n
    | none => .float x
  | value => value

/-- Equality of values that hold no others. -/
def sameLeaf (a b : Json) : Bool :=
  match a.whole, b.whole with
  | .null, .null => true
  | .int m, .int n => m = n
  | .float x, .float y => x == y
  | .str s, .str t => s = t
  | _, _ => false

mutual

/-- Equality of values. Numbers are compared by what they stand for, truth values as one and zero, and
objects by their fields in any order; something that is no number does not equal itself. -/
def same : Json → Json → Bool
  | .arr xs, .arr ys => sameItems xs ys
  | .obj xs, .obj ys => xs.length = ys.length && sameFields xs ys
  | a, b => sameLeaf a b

def sameItems : List Json → List Json → Bool
  | [], [] => true
  | x :: xs, y :: ys => same x y && sameItems xs ys
  | _, _ => false

def sameFields : List (String × Json) → List (String × Json) → Bool
  | [], _ => true
  | (name, x) :: xs, ys =>
    (match ys.lookup name with
      | some y => same x y
      | none => false) && sameFields xs ys

end

mutual

/-- How deeply values are nested: one for a value that holds no others. -/
def depth : Json → Nat
  | .arr items => itemsDepth items + 1
  | .obj fields => fieldsDepth fields + 1
  | _ => 1

def itemsDepth : List Json → Nat
  | [] => 0
  | item :: items => max (depth item) (itemsDepth items)

def fieldsDepth : List (String × Json) → Nat
  | [] => 0
  | (_, value) :: fields => max (depth value) (fieldsDepth fields)

end

/-- A double that stands for a number. -/
def isFinite (x : Float) : Bool :=
  match Decimal.decode x with
  | .finite _ => true
  | _ => false

mutual

/-- A value with null in the place of every double that is not finite. -/
def finite : Json → Json
  | .float x => if isFinite x then .float x else .null
  | .arr items => .arr (finiteItems items)
  | .obj fields => .obj (finiteFields fields)
  | value => value

def finiteItems : List Json → List Json
  | [] => []
  | item :: items => finite item :: finiteItems items

def finiteFields : List (String × Json) → List (String × Json)
  | [] => []
  | (name, value) :: fields => (name, finite value) :: finiteFields fields

end

end Json

end CodeSearch
