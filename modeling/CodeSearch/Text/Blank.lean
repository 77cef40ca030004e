/-!
# White space

Which characters are blank, the words of a text (its maximal runs of other characters), and the text
without its outer blanks.
-/

namespace CodeSearch.Text

/-- White space: the separators of all scripts, and the control characters that separate lines,
fields and records. The zero-width space is not among them. -/
def isBlank (c : Char) : Bool :=
  let n := c.toNat
  (9 ≤ n && n ≤ 13) || (28 ≤ n && n ≤ 32) || n == 0x85 || n == 0xa0 || n == 0x1680 ||
    (0x2000 ≤ n && n ≤ 0x200a) || n == 0x2028 || n == 0x2029 || n == 0x202f || n == 0x205f ||
    n == 0x3000

/-- The maximal runs of characters that satisfy `keep`, in order. -/
def runsOf (keep : Char → Bool) : List Char → List (List Char)
  | [] => []
  | c :: rest =>
    if keep c then
      match rest with
      | [] => [[c]]
      | d :: _ =>
        if keep d then
          match runsOf keep rest with
          | run :: runs => (c :: run) :: runs
          | [] => [[c]]
        else [c] :: runsOf keep rest
    else runsOf keep rest

/-- The words of a text: its maximal runs of characters that are not blank. -/
def words (text : List Char) : List (List Char) :=
  runsOf (fun c => !isBlank c) text

/-- The text without the blanks at its two ends. -/
def trim (text : List Char) : List Char :=
  ((text.dropWhile isBlank).reverse.dropWhile isBlank).reverse

/-- A text with no character that is not blank. -/
def allBlank (text : String) : Bool :=
  text.toList.all isBlank

end CodeSearch.Text
