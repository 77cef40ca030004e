/-!
# Ranges of code points

A character class that no short rule describes is a list of closed ranges.
-/

namespace CodeSearch.Text

/-- Closed ranges of code points. -/
abbrev Ranges := List (Nat × Nat)

/-- A character is in the class if some range holds its code point. -/
def Ranges.has (ranges : Ranges) (c : Char) : Bool :=
  ranges.any fun range => range.1 ≤ c.toNat && c.toNat ≤ range.2

end CodeSearch.Text
