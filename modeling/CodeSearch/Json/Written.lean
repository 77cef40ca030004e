import CodeSearch.Text.Half
/-!
# What is written of a text in the data format

A value is written in pieces. A text in quotes is a piece, together with the bracket or the comma before it
where it stands in a list; all else is written as it comes. A piece that holds a half cannot be written, and
nothing after it is.
-/

namespace CodeSearch.Json

/-- Where the writer stands. -/
structure WriterState where
  /-- For each bracket that is open, the innermost first: it is that of a list. -/
  inList : List Bool := []
  /-- What goes into one piece with a text in quotes, if one follows. -/
  held : List Nat := []
  /-- The text in quotes that has been begun, the last code first. -/
  quoted : Option (List Nat) := none
  /-- The next code is behind a backslash. -/
  escaped : Bool := false

/-- The codes that are written before the first piece that holds a half. -/
def writtenCodes : WriterState → List Nat → List Nat
  | s, [] => s.held ++ (s.quoted.getD []).reverse
  | s, c :: rest =>
    match s.quoted with
    | some text =>
      if Text.isHalf c then []
      else if s.escaped then writtenCodes { s with quoted := some (c :: text), escaped := false } rest
      else if c = '\\'.toNat then writtenCodes { s with quoted := some (c :: text), escaped := true } rest
      else if c = '"'.toNat then
        s.held ++ (c :: text).reverse ++ writtenCodes { inList := s.inList } rest
      else writtenCodes { s with quoted := some (c :: text) } rest
    | none =>
      if c = '"'.toNat then writtenCodes { s with quoted := some [c] } rest
      else if c = '['.toNat then s.held ++ writtenCodes { inList := true :: s.inList, held := [c] } rest
      else if c = '\x7b'.toNat then s.held ++ c :: writtenCodes { inList := false :: s.inList } rest
      else if c = ']'.toNat || c = '\x7d'.toNat then
        s.held ++ c :: writtenCodes { inList := s.inList.tail } rest
      else if c = ','.toNat && s.inList.head? = some true then
        s.held ++ writtenCodes { s with held := [c] } rest
      else if c = ' '.toNat && !s.held.isEmpty then writtenCodes { s with held := s.held ++ [c] } rest
      else s.held ++ c :: writtenCodes { inList := s.inList } rest

/-- What is written of a text in the data format before the first piece that holds a half. -/
def writtenPart (text : String) : String := Text.ofCodes (writtenCodes {} (Text.codes text.toList))

end CodeSearch.Json
