import CodeSearch.Text.Half
/-!
# Patterns with wildcards

In a pattern a star stands for any text, a question mark for any character, and a set in brackets for
one character of it, or with `!` for one outside. Every other character stands for itself, as does a
bracket that is never closed. Patterns describe whole texts; slashes and line ends are nothing special.
Texts are taken by their codes, so that a half of a pair counts as a character, and a range holds what
lies between its ends by code.
-/

namespace CodeSearch.Text

/-! ## The characters that mean something, by their codes -/

/-- The star, `*`. -/
@[match_pattern] abbrev star : Nat := 0x2a

/-- The question mark, `?`. -/
@[match_pattern] abbrev questionMark : Nat := 0x3f

/-- The bracket that opens a set, `[`. -/
@[match_pattern] abbrev openBracket : Nat := 0x5b

/-- The bracket that closes a set, `]`. -/
@[match_pattern] abbrev closeBracket : Nat := 0x5d

/-- The exclamation mark that negates a set, `!`. -/
@[match_pattern] abbrev negation : Nat := 0x21

/-- The hyphen of a range, `-`. -/
@[match_pattern] abbrev hyphen : Nat := 0x2d

/-! ## Pieces of patterns -/

/-- An element of a set: a character or a range. -/
inductive SetItem where
  | code (c : Nat)
  | range (low high : Nat)
deriving DecidableEq, Repr

def SetItem.has (c : Nat) : SetItem → Bool
  | .code d => c = d
  | .range low high => low ≤ c && c ≤ high

/-- A piece of a pattern. -/
inductive GlobPiece where
  | anyText
  | anyChar
  | code (c : Nat)
  | set (negated : Bool) (items : List SetItem)
deriving DecidableEq, Repr

/-- One character satisfies a piece. -/
def GlobPiece.accepts (c : Nat) : GlobPiece → Bool
  | .anyText | .anyChar => true
  | .code d => c = d
  | .set negated items => items.any (SetItem.has c) != negated

/-- The start of a set where a closing bracket is not yet looked for: a `!`, and a bracket directly
after it or at the very start. -/
def setOpening : List Nat → List Nat × List Nat
  | negation :: closeBracket :: rest => ([negation, closeBracket], rest)
  | negation :: rest => ([negation], rest)
  | closeBracket :: rest => ([closeBracket], rest)
  | rest => ([], rest)

/-- The text of a set up to its closing bracket, and what follows. -/
def setText (text : List Nat) : Option (List Nat × List Nat) :=
  let (opening, body) := setOpening text
  match body.dropWhile (· ≠ closeBracket) with
  | [] => none
  | _ :: rest => some (opening ++ body.takeWhile (· ≠ closeBracket), rest)

theorem length_setOpening_le (text : List Nat) : (setOpening text).2.length ≤ text.length := by
  unfold setOpening
  split <;> simp
  omega

theorem length_of_setText {text inner rest : List Nat} (h : setText text = some (inner, rest)) :
    rest.length < text.length := by
  unfold setText at h
  simp only at h
  split at h
  · cases h
  · rename_i found
    cases h
    have shorter := (List.dropWhile_sublist (l := (setOpening text).2) (· ≠ closeBracket)).length_le
    rw [found] at shorter
    have := length_setOpening_le text
    simp at shorter
    omega

/-- A text cut at the hyphens that stand between two characters of a range. `skip` is how many
characters have to pass before the next hyphen may count. -/
def cutRanges (skip : Nat) : List Nat → List (List Nat)
  | [] => [[]]
  | c :: rest =>
    if skip = 0 ∧ c = hyphen then [] :: cutRanges 2 rest
    else match cutRanges (skip - 1) rest with
      | chunk :: chunks => (c :: chunk) :: chunks
      | [] => [[c]]

/-- A hyphen at the end of a set is a plain character. -/
def closeRanges : List (List Nat) → List (List Nat)
  | [] => []
  | [chunk] => [chunk]
  | [chunk, []] => [chunk ++ [hyphen]]
  | chunk :: rest => chunk :: closeRanges rest

/-- Take out the ranges that are empty because their ends are in the wrong order, from the right. -/
def dropEmptyRanges : List (List Nat) → List (List Nat)
  | [] => []
  | chunk :: rest =>
    match dropEmptyRanges rest with
    | next :: more =>
      match chunk.getLast?, next.head? with
      | some low, some high =>
        if high < low then (chunk.dropLast ++ next.drop 1) :: more else chunk :: next :: more
      | _, _ => chunk :: next :: more
    | [] => [chunk]

/-- The elements of a set whose text is cut into chunks: between two chunks there is a range. -/
def setItems (chunk : List Nat) : List (List Nat) → List SetItem
  | [] => chunk.map .code
  | next :: more =>
    match chunk.getLast?, next with
    | some low, high :: tail =>
      chunk.dropLast.map .code ++ .range low high :: setItems tail more
    | some _, [] => chunk.map .code ++ .code hyphen :: setItems [] more
    | none, _ => .code hyphen :: setItems next more

/-- The piece of a set. -/
def setPiece (text : List Nat) : GlobPiece :=
  let chunks :=
    if text.contains hyphen then
      dropEmptyRanges (closeRanges (cutRanges (if text.head? = some negation then 2 else 1) text))
    else [text]
  match chunks with
  | (negation :: chunk) :: rest => .set true (setItems chunk rest)
  | chunk :: rest => .set false (setItems chunk rest)
  | [] => .set false []

/-- Read a pattern. -/
def globPieces (text : List Nat) : List GlobPiece :=
  match text with
  | [] => []
  | star :: rest => .anyText :: globPieces rest
  | questionMark :: rest => .anyChar :: globPieces rest
  | c :: rest =>
    if c = openBracket then
      match _found : setText rest with
      | some (inner, after) => setPiece inner :: globPieces after
      | none => .code openBracket :: globPieces rest
    else .code c :: globPieces rest
termination_by text.length
decreasing_by
  all_goals simp_wf
  have := length_of_setText _found
  omega

/-- Whether the pieces, from each of them on, describe the empty text; at the end, no pieces do. -/
def emptyRow : List GlobPiece → List Bool
  | [] => [true]
  | piece :: pieces =>
    let row := emptyRow pieces
    (piece = .anyText && row.headD false) :: row

/-- Whether the pieces, from each of them on, describe a text of one more character in front, from whether
they describe the text without it. -/
def nextRow (c : Nat) : List GlobPiece → List Bool → List Bool
  | [], _ => [false]
  | piece :: pieces, old =>
    let row := nextRow c pieces old.tail
    let here := match piece with
      | .anyText => row.headD false || old.headD false
      | other => other.accepts c && old.tail.headD false
    here :: row

/-- A text is described by pieces. -/
def globMatches (pieces : List GlobPiece) (text : List Nat) : Bool :=
  (text.foldr (fun c row => nextRow c pieces row) (emptyRow pieces)).headD false

/-- A text is described by a pattern. -/
def glob (pattern text : String) : Bool :=
  globMatches (globPieces (codes pattern.toList)) (codes text.toList)

/-- A pattern that holds one of the characters that wildcards begin with. -/
def hasWildcard (pattern : String) : Bool :=
  pattern.toList.any fun c => c = '*' || c = '?' || c = '['

end CodeSearch.Text
