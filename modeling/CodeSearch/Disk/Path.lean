import CodeSearch.Text.Bytes
import CodeSearch.Text.Pieces
/-!
# Paths

A path is an anchor and named parts. Reading a path drops empty parts and single dots; double dots
stay, and only the disk resolves them.
-/

namespace CodeSearch

/-- A path in normal form. The anchor is empty, one slash, or exactly two. -/
structure Path where
  anchor : String := ""
  parts : List String
deriving DecidableEq, Repr, Inhabited

namespace Path

attribute [local instance] ltCodes leTexts

/-- The anchor of a text: two slashes count as such only if no third follows. -/
def anchorOf : List Char → String
  | '/' :: '/' :: '/' :: _ => "/"
  | '/' :: '/' :: _ => "//"
  | '/' :: _ => "/"
  | _ => ""

/-- Read a path. -/
def parse (text : String) : Path where
  anchor := anchorOf text.toList
  parts := ((Text.pieces '/' text.toList).map String.ofList).filter fun part => part ≠ "" && part ≠ "."

/-- The parts with slashes between them. -/
def joinParts (parts : List String) : String := "/".intercalate parts

/-- The text of a path; the path without parts is a dot. -/
def text (path : Path) : String :=
  if path.anchor = "" && path.parts.isEmpty then "." else path.anchor ++ joinParts path.parts

instance : ToString Path := ⟨text⟩

/-- A path below another. A path with an anchor stands for itself. -/
def append (base other : Path) : Path :=
  if other.anchor ≠ "" then other else ⟨base.anchor, base.parts ++ other.parts⟩

instance : Append Path := ⟨append⟩

/-- A path below another, given as text. -/
def child (base : Path) (text : String) : Path := base ++ parse text

/-- The last part, empty if there is none. -/
def name (path : Path) : String := path.parts.getLast?.getD ""

/-- The path without its last part. -/
def parent (path : Path) : Path := ⟨path.anchor, path.parts.dropLast⟩

/-- The path beside this one at which new content is written before it takes its place. -/
def temporary (path : Path) : Path :=
  ⟨path.anchor, path.parts.dropLast ++ [path.name ++ ".tmp"]⟩

/-- The parts of a path below a root, if it lies there. -/
def relativeTo? (root path : Path) : Option (List String) :=
  if path.anchor = root.anchor && root.parts.isPrefixOf path.parts then
    some (path.parts.drop root.parts.length)
  else none

/-- The order of paths: part by part, and each part code by code. -/
def precedes (a b : Path) : Bool :=
  let codes (path : Path) := (path.anchor :: path.parts).map fun part => Text.codes part.toList
  decide (codes a ≤ codes b)

/-- The disk keeps names as bytes, and the parts have them. -/
def hasBytes (path : Path) : Bool := path.parts.all Text.hasBytes

/-- A part holds a NUL, which no name can. -/
def hasNul (path : Path) : Bool := path.parts.any fun part => part.toList.contains '\x00'

end Path

end CodeSearch
