import CodeSearch.Disk.Path
import CodeSearch.Json.Access
import CodeSearch.Text.Glob
/-!
# Excluded files

Which files of a directory are passed over when it is indexed. A pattern that ends in a slash and a star
names a directory, all others are matched against the path below the root and against the file name.
-/

namespace CodeSearch.Indexing

/-- The patterns that exclude files unless others are asked for: what versioning, tools and builds
leave in a code base. -/
def standardPatterns : List String := [
  ".git/*", ".idea/*", ".svn/*", "target/*", "build/*", "out/*", "node_modules/*", "__pycache__/*",
  "*.class", "*.jar", "*.pyc"]

/-- The directory that a pattern names, if it ends in a slash and a star. -/
def directoryOf? (pattern : String) : Option String :=
  match pattern.toList.reverse with
  | '*' :: '/' :: rest => some (String.ofList rest.reverse)
  | _ => none

/-- A pattern excludes the file of a path below the root. -/
def excludes (pattern : String) (relative : Path) : Bool :=
  match directoryOf? pattern with
  | some directory => relative.parts.dropLast.contains directory
  | none => Text.glob pattern relative.text || Text.glob pattern relative.name

/-- A file is excluded by some patterns, or because it does not lie below the root. -/
def isExcluded (root : Path) (patterns : List String) (file : Path) : Bool :=
  match root.relativeTo? file with
  | none => true
  | some parts => patterns.any fun pattern => excludes pattern ⟨"", parts⟩

/-- The first of some values that excludes the file of a path decides; one that is no text and is come to is a
fault. -/
def anyExcludes (relative : Path) : List Json → Except Fault Bool
  | [] => .ok false
  | .str pattern :: rest => if excludes pattern relative then .ok true else anyExcludes relative rest
  | _ :: _ => .error .missingMember

/-- As `isExcluded`, for patterns that are the elements of a value of any kind. They are not looked at for a
file that does not lie below the root. -/
def isExcludedBy (root : Path) (patterns : Json) (file : Path) : Except Fault Bool :=
  match root.relativeTo? file with
  | none => .ok true
  | some parts => do anyExcludes ⟨"", parts⟩ (← patterns.elements)

end CodeSearch.Indexing
