import CodeSearch.Instances
/-!
# Halves of pairs

The data format can write a character as a pair of code units, and so a text may name one unit of a pair
without the other. Such a half is no character. A text keeps it as a private character that stands for
it, and keeps a private character that could be taken for a half, or for the mark itself, behind a mark.
`codes` says what a text is made of: code points, and the code units of halves. A half has no form in a
file.
-/

namespace CodeSearch.Text

attribute [local instance] leCodes

/-- A code unit that makes a character only together with another one. -/
def isHalf (code : Nat) : Bool := 0xd800 ≤ code && code ≤ 0xdfff

/-- How far the characters that stand for halves lie beyond them. -/
def halfShift : Nat := 0xe8000

/-- The character that stands for a half. -/
def halfChar (unit : Nat) : Char := Char.ofNat (unit + halfShift)

/-- The half that a character stands for, if no mark is before it and it does. -/
def half? (c : Char) : Option Nat :=
  let unit := c.toNat - halfShift
  if isHalf unit then some unit else none

/-- The character after this one is meant itself. -/
def mark : Char := Char.ofNat 0xf57ff

/-- A character as a text keeps it. -/
def keepChar (c : Char) : List Char := if c = mark || (half? c).isSome then [mark, c] else [c]

/-- A text from outside, in which every character is meant itself, as it is kept. -/
def kept (text : String) : String := String.ofList (text.toList.flatMap keepChar)

/-- The code points of a kept text, and the units of its halves. -/
def codes : List Char → List Nat
  | [] => []
  | [c] => if c = mark then [] else [(half? c).getD c.toNat]
  | c :: d :: rest =>
    if c = mark then d.toNat :: codes rest else (half? c).getD c.toNat :: codes (d :: rest)

/-- The kept form of a code. -/
def ofCode (code : Nat) : List Char :=
  if isHalf code then [halfChar code] else keepChar (Char.ofNat code)

def ofCodes (codes : List Nat) : String := String.ofList (codes.flatMap ofCode)

/-- The number of characters and halves of a text. -/
def size (text : String) : Nat := (codes text.toList).length

/-- The characters of a text without marks, one for each character or half. -/
def singles (text : List Char) : List Char :=
  (codes text).map fun code => if isHalf code then halfChar code else Char.ofNat code

/-- A text as it goes outside. -/
def plain (text : String) : String := String.ofList (singles text.toList)

/-- A text ends with another one. -/
def endsWith (text ending : String) : Bool := (codes ending.toList).isSuffixOf (codes text.toList)

/-- A text that holds no half, and so can be a file. -/
def isWhole (text : String) : Bool := (codes text.toList).all fun code => !isHalf code

/-- A text stands before another one, or is the same: code by code, where a half counts by its unit. -/
def atMost (a b : String) : Bool := decide (codes a.toList ≤ codes b.toList)

end CodeSearch.Text
