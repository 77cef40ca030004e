import CodeSearch.Text.WordChar
import CodeSearch.Text.Lowercase
/-!
# Kinds of chunks

Each chunk is of one of six kinds. A kind may be spelled freely: only the letters count, in either case.
-/

namespace CodeSearch

inductive ChunkKind where
  | method
  | classDecl
  | templateFragment
  | configSection
  | importBlock
  | field
deriving DecidableEq, Repr, Inhabited

namespace ChunkKind

def all : List ChunkKind := [.method, .classDecl, .templateFragment, .configSection, .importBlock, .field]

/-- The name of a kind in records and answers. -/
def name : ChunkKind → String
  | .method => "METHOD"
  | .classDecl => "CLASS"
  | .templateFragment => "TEMPLATE_FRAGMENT"
  | .configSection => "CONFIG_SECTION"
  | .importBlock => "IMPORT_BLOCK"
  | .field => "FIELD"

/-- The letters A to Z of a text, in upper case. -/
def capitals (text : String) : List Char :=
  (text.toList.filter Text.isAsciiLetter).map Text.asciiUpperChar

/-- The kind of exactly this name. -/
def ofName? (text : String) : Option ChunkKind := all.find? fun kind => kind.name = text

/-- The kind whose name has the same letters as the text. -/
def parse? (text : String) : Option ChunkKind :=
  all.find? fun kind => capitals kind.name = capitals text

end ChunkKind

end CodeSearch
