import CodeSearch.Text.Blank
import CodeSearch.Text.WordChar
/-!
# Pieces of texts

Ways of cutting a text up: at every occurrence of a character, or where a keyword opens a clause.
-/

namespace CodeSearch.Text

/-- The pieces of a text between the occurrences of a character. -/
def pieces (separator : Char) : List Char → List (List Char)
  | [] => [[]]
  | c :: rest =>
    if c = separator then [] :: pieces separator rest
    else match pieces separator rest with
      | piece :: more => (c :: piece) :: more
      | [] => [[c]]

/-- The last characters of a text, as far back as they satisfy a condition. -/
def ending (keep : Char → Bool) (text : List Char) : List Char := (text.reverse.takeWhile keep).reverse

/-- The clause that a keyword opens at the start of a text: the run of characters of a class that
follows the keyword and at least one blank, with the length of the text up to the end of the run. -/
def clauseAt (keyword : List Char) (keep : Char → Bool) (text : List Char) :
    Option (List Char × Nat) :=
  if keyword.isPrefixOf text then
    let after := text.drop keyword.length
    let gap := after.takeWhile isBlank
    let run := (after.drop gap.length).takeWhile keep
    if gap.isEmpty || run.isEmpty then none
    else some (run, keyword.length + gap.length + run.length)
  else none

/-- The clauses that a keyword opens from a place on, where `skip` characters are to be passed over
first, and `inWord` tells whether the character before the place belongs to a word. -/
def clausesFrom (keyword : List Char) (keep : Char → Bool) : Nat → Bool → List Char → List (List Char)
  | _, _, [] => []
  | skip + 1, _, c :: rest => clausesFrom keyword keep skip (isWordChar c) rest
  | 0, true, c :: rest => clausesFrom keyword keep 0 (isWordChar c) rest
  | 0, false, c :: rest =>
    match clauseAt keyword keep (c :: rest) with
    | some (run, length) => run :: clausesFrom keyword keep (length - 1) (isWordChar c) rest
    | none => clausesFrom keyword keep 0 (isWordChar c) rest

/-- The clauses that a keyword opens in a text. The keyword counts only at the beginning of a word, and
not within a clause. -/
def clauses (keyword : List Char) (keep : Char → Bool) (text : List Char) : List (List Char) :=
  clausesFrom keyword keep 0 false text

end CodeSearch.Text
