import CodeSearch.Chunk.Kind
import CodeSearch.Digest.Md5
import CodeSearch.Json.Access
/-!
# Chunks

A chunk is a piece of a code base that is indexed and found as a whole: a method, a class, a fragment
of a template. It carries its text, its place, and what was observed around it.

Fields may be set without a check. A value that is not of the kind of its field is kept beside the fields,
and the field holds what comes nearest to it.
-/

namespace CodeSearch

structure Chunk where
  id : String
  content : String
  kind : ChunkKind
  filePath : String := ""
  qualifiedName : Option String := none
  startLine : Nat := 0
  endLine : Nat := 0
  /-- Symbols the chunk refers to, each once. -/
  imports : List String := []
  annotations : List String := []
  enclosingClass : Option String := none
  package : Option String := none
  /-- Call targets in the order of the text. -/
  apiCalls : List String := []
  /-- Routing facts, such as the path of an action. -/
  structuralMapping : List (String × String) := []
  extraMetadata : Json.Fields := []
  /-- Values that are not of the kind of their fields, by the names of the fields in records. -/
  unchecked : Json.Fields := []
deriving Inhabited

namespace Chunk

/-- What follows the last dot of a name. -/
def lastSegment (name : List Char) : List Char := (name.reverse.takeWhile (· ≠ '.')).reverse

def lastSegmentText (name : String) : String := String.ofList (lastSegment name.toList)

/-- The last segment of the qualified name, empty if there is none. -/
def simpleName (c : Chunk) : String := lastSegmentText (c.qualifiedName.getD "")

/-- A text that is there and not empty. -/
def nonEmpty? (text : Option String) : Option String := text.filter (· ≠ "")

/-- The text that the indexes read: package, imports and a blank line, the enclosing class,
annotations, and the content. -/
def searchableText (c : Chunk) : String :=
  let package := (nonEmpty? c.package).toList.map fun p => s!"package {p};\n"
  let imports :=
    if c.imports.isEmpty then []
    else c.imports.map (fun i => s!"import {i};\n") ++ ["\n"]
  let enclosing := (nonEmpty? c.enclosingClass).toList.map fun e => s!"// Class context: {e}\n"
  let annotations := c.annotations.map fun a => s!"{a}\n"
  String.join (package ++ imports ++ enclosing ++ annotations ++ [c.content])

/-- A field as it was set: with the value that is kept beside it, if one is. -/
def valueOf (c : Chunk) (name : String) (value : Json) : Json := (c.unchecked.get? name).getD value

/-- The id as it was set. -/
def idValue (c : Chunk) : Json := c.valueOf "id" (.str c.id)

/-- File and lines. -/
def citation (c : Chunk) : String :=
  let first := (c.valueOf "start_line" (.int c.startLine)).display
  let last := (c.valueOf "end_line" (.int c.endLine)).display
  s!"{c.filePath}:{first}-{last}"

/-- The kind that a chunk is found by, which is none if its kind was set to something else. -/
def kind? (c : Chunk) : Option ChunkKind :=
  match c.unchecked.get? "kind" with
  | none => some c.kind
  | some (.str name) => ChunkKind.ofName? name
  | some _ => none

/-- Two chunks are the same chunk if they have one id. -/
instance : BEq Chunk := ⟨fun a b => a.id == b.id⟩

/-! ## Ids -/

/-- The key that an id is the digest of: path, name, line and content with a separator between. -/
def idKey (filePath name line content : String) : String :=
  "\x1f".intercalate [filePath, name, line, content]

/-- The id of a chunk at a place with a content. -/
def makeId (filePath content : String) (name : Option String) (line : String) : String :=
  Digest.hex (Digest.md5Text (idKey filePath (name.getD "") line content))

end Chunk

end CodeSearch
