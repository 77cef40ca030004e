import CodeSearch.Json.Access
import CodeSearch.Scalar
/-!
# Arrays of numbers

A vector may be given as a nested array. Nested arrays have a shape if all rows of each level have the
same one; such an array is flattened into the list of its numbers. Whether there is a shape is asked
before any value that is not given as a number is read as one.
-/

namespace CodeSearch

inductive Tensor (α : Type) where
  | scalar (x : α)
  /-- A value that is not given as a number: its length, if it has one, and the number it reads as. -/
  | value (length : Option Nat) (number : Except Fault α)
  | array (rows : List (Tensor α))

namespace Tensor

attribute [local instance] powNat

variable {α : Type}

mutual

/-- The lengths of an array level by level, if all rows agree. -/
def shape? : Tensor α → Option (List Nat)
  | .scalar _ | .value _ _ => some []
  | .array rows => (rowShape? rows).map fun inner => rows.length :: inner

/-- The shape that all rows have; no rows have the shape of a number. -/
def rowShape? : List (Tensor α) → Option (List Nat)
  | [] => some []
  | [row] => shape? row
  | row :: next :: rows =>
    match shape? row, rowShape? (next :: rows) with
    | some a, some b => if a = b then some a else none
    | _, _ => none

end

mutual

/-- All numbers in order. -/
def numbers : Tensor α → Except Fault (List α)
  | .scalar x => .ok [x]
  | .value _ number => number.map fun x => [x]
  | .array rows => rowNumbers rows

def rowNumbers : List (Tensor α) → Except Fault (List α)
  | [] => .ok []
  | row :: rows => do
    let first ← numbers row
    let others ← rowNumbers rows
    return first ++ others

end

/-- An array has no more levels than this. -/
def levelLimit : Nat := 64

/-- An array that has a shape. -/
def isRegular (t : Tensor α) : Bool :=
  match t.shape? with
  | some shape => shape.length ≤ levelLimit
  | none => false

/-- The numbers of an array that has a shape. -/
def flatten (t : Tensor α) : Except Fault (List α) :=
  if t.isRegular then t.numbers else .error (.badValue .other)

/-- The number of rows, or the length of a value that has one. -/
def length : Tensor α → Except Fault Nat
  | .array rows => .ok rows.length
  | .value (some n) _ => .ok n
  | _ => .error .wrongType

/-- The array of a shape that holds one number everywhere. -/
def constant (x : α) : List Nat → Tensor α
  | [] => .scalar x
  | length :: shape => .array (List.replicate length (constant x shape))

/-- A list as an array of numbers. -/
def ofList (xs : List α) : Tensor α := .array (xs.map .scalar)

/-- The rows of an array that has a shape, each flattened. -/
def flatRows (t : Tensor α) : Except Fault (List (List α)) :=
  if !t.isRegular then .error (.badValue .other)
  else
    match t with
    | .array rows => rows.mapM numbers
    | other => do
      let _ ← other.numbers
      throw .wrongType

/-- A length is an integer that fits into a word of 64 bits. -/
def lengthOf : Json → Except Fault Int
  | .int n => if Int.bmod n (2 ^ (64 : Nat)) = n then .ok n else .error (.badValue .other)
  | _ => .error .wrongType

/-- A number takes so many bytes. -/
def numberSize : Nat := 8

/-- The bytes of an array have to be counted in a word of 64 bits. -/
def byteLimit : Nat := 2 ^ (63 : Nat)

/-- There is no memory for arrays of so many bytes. -/
def memoryLimit : Nat := 2 ^ (30 : Nat)

/-- The shape that a value gives: an integer is the length of a list, and a list holds the lengths of all
levels. Levels without length do not count for the size of an array. -/
def shapeOf (value : Json) : Except Fault (List Nat) := do
  let lengths ← match value with
    | .arr _ | .str _ => do
      let items ← value.elements
      if items.length > levelLimit then throw (.badValue .other)
      items.mapM lengthOf
    | other => do pure [← lengthOf other]
  if lengths.any (· < 0) then throw (.badValue .other)
  let shape := lengths.map Int.toNat
  let size := (shape.filter (· ≠ 0)).foldl (· * ·) numberSize
  if size ≥ byteLimit then throw (.badValue .other)
  if size ≥ memoryLimit && !shape.contains 0 then throw .outOfMemory
  return shape

mutual

/-- The array that a value gives; null stands for no number. -/
def ofJson : Json → Tensor Float
  | .arr items => .array (rowsOfJson items)
  | .null => .value none (.ok (0.0 / 0.0))
  | .float x => .scalar x
  | .str s => .value (some (Text.size s)) (Json.str s).toDouble
  | .obj fields => .value (some fields.length) (.error .wrongType)
  | other => .value none other.toDouble

def rowsOfJson : List Json → List (Tensor Float)
  | [] => []
  | item :: items => ofJson item :: rowsOfJson items

end

end Tensor

end CodeSearch
