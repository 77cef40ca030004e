import CodeSearch.Text.Half
/-!
# Texts that are kept as bytes

The system keeps names of files and variables as bytes, and shows them as texts. Bytes that are the form of no
text are shown as halves, one for each byte, and such a half stands for its byte wherever a text is given. So
some texts have the same bytes, and of these `throughBytes` gives the one that is shown. All other halves have
no bytes.
-/

namespace CodeSearch.Text

attribute [local instance] zeroNat

/-- The byte that a half stands for. Bytes of ASCII are always the form of a text. -/
def byteOf? (code : Nat) : Option UInt8 :=
  if 0xdc80 ≤ code && code ≤ 0xdcff then some (UInt8.ofNat (code - 0xdc00)) else none

/-- A code that is no half, or a half that stands for a byte. -/
def hasForm (code : Nat) : Bool := !isHalf code || (byteOf? code).isSome

/-- A text that can be kept as bytes. -/
def hasBytes (text : String) : Bool := (codes text.toList).all hasForm

/-- The number of bytes of a code. -/
def codeBytes (code : Nat) : Nat := if isHalf code then 1 else (Char.ofNat code).utf8Size

/-- The number of bytes of a text. -/
def byteCount (text : String) : Nat := ((codes text.toList).map codeBytes).sum

/-- The character that some halves are the bytes of. -/
def charOf? (halves : List Nat) : Option Char := do
  let text ← String.fromUTF8? ⟨(← halves.mapM byteOf?).toArray⟩
  match text.toList with
  | [c] => some c
  | _ => none

/-- The codes of a text, with characters in the place of the halves that are their bytes. A character that is
not in ASCII has two to four bytes. -/
def joinHalves : List Nat → List Nat
  | [] => []
  | code :: rest =>
    match [2, 3, 4].findSome? fun n => (charOf? ((code :: rest).take n)).map fun c => (c.toNat, n) with
    | some (char, n) => char :: joinHalves (rest.drop (n - 1))
    | none => code :: joinHalves rest
termination_by codes => codes.length
decreasing_by
  · exact Nat.lt_succ_of_le (List.drop_sublist _ _).length_le
  · exact Nat.lt_succ_self _

/-- The text that is shown for the bytes of a text. -/
def throughBytes (text : String) : String := ofCodes (joinHalves (codes text.toList))

end CodeSearch.Text
