import CodeSearch.Json.Printer
/-!
# MD5

The 128-bit digest that names chunks: the padded message is taken in blocks of sixteen words, and
each block is mixed into four words of state in sixty-four steps.
-/

namespace CodeSearch.Digest

/-- The constant of each step: the leading bits of the sine of its number. -/
def stepConstants : List UInt32 := [
  0xd76aa478, 0xe8c7b756, 0x242070db, 0xc1bdceee, 0xf57c0faf, 0x4787c62a, 0xa8304613, 0xfd469501,
  0x698098d8, 0x8b44f7af, 0xffff5bb1, 0x895cd7be, 0x6b901122, 0xfd987193, 0xa679438e, 0x49b40821,
  0xf61e2562, 0xc040b340, 0x265e5a51, 0xe9b6c7aa, 0xd62f105d, 0x02441453, 0xd8a1e681, 0xe7d3fbc8,
  0x21e1cde6, 0xc33707d6, 0xf4d50d87, 0x455a14ed, 0xa9e3e905, 0xfcefa3f8, 0x676f02d9, 0x8d2a4c8a,
  0xfffa3942, 0x8771f681, 0x6d9d6122, 0xfde5380c, 0xa4beea44, 0x4bdecfa9, 0xf6bb4b60, 0xbebfbc70,
  0x289b7ec6, 0xeaa127fa, 0xd4ef3085, 0x04881d05, 0xd9d4d039, 0xe6db99e5, 0x1fa27cf8, 0xc4ac5665,
  0xf4292244, 0x432aff97, 0xab9423a7, 0xfc93a039, 0x655b59c3, 0x8f0ccc92, 0xffeff47d, 0x85845dd1,
  0x6fa87e4f, 0xfe2ce6e0, 0xa3014314, 0x4e0811a1, 0xf7537e82, 0xbd3af235, 0x2ad7d2bb, 0xeb86d391]

/-- The rotations of the four steps of each round. -/
def rotations : List (List UInt32) :=
  [[7, 12, 17, 22], [5, 9, 14, 20], [4, 11, 16, 23], [6, 10, 15, 21]]

/-- The rotation of a step. -/
def rotation (step : Nat) : UInt32 :=
  ((rotations[step / 16]?).bind fun round => round[step % 4]?).getD 0

/-- The word of the block that a step takes in. -/
def wordIndex (step : Nat) : Nat :=
  match step / 16 with
  | 0 => step
  | 1 => (5 * step + 1) % 16
  | 2 => (3 * step + 5) % 16
  | _ => 7 * step % 16

/-- The four words of state. -/
structure State where
  a : UInt32
  b : UInt32
  c : UInt32
  d : UInt32
deriving DecidableEq, Repr

def State.initial : State := ⟨0x67452301, 0xefcdab89, 0x98badcfe, 0x10325476⟩

/-- The function of three words of a round. -/
def blend (round : Nat) (b c d : UInt32) : UInt32 :=
  match round with
  | 0 => (b &&& c) ||| (~~~b &&& d)
  | 1 => (d &&& b) ||| (~~~d &&& c)
  | 2 => b ^^^ c ^^^ d
  | _ => c ^^^ (b ||| ~~~d)

def rotateLeft (x amount : UInt32) : UInt32 := (x <<< amount) ||| (x >>> (32 - amount))

/-- One step on the state. -/
def State.step (block : List UInt32) (s : State) (entry : UInt32 × Nat) : State :=
  let mixed := s.a + blend (entry.2 / 16) s.b s.c s.d + entry.1
    + (block[wordIndex entry.2]?).getD 0
  ⟨s.d, s.b + rotateLeft mixed (rotation entry.2), s.b, s.c⟩

/-- A block mixed into the state. -/
def State.absorb (s : State) (block : List UInt32) : State :=
  let t := stepConstants.zipIdx.foldl (State.step block) s
  ⟨s.a + t.a, s.b + t.b, s.c + t.c, s.d + t.d⟩

/-- A number as bytes, least significant first. -/
def littleEndian : Nat → Nat → List UInt8
  | 0, _ => []
  | count + 1, n => UInt8.ofNat (n % 256) :: littleEndian count (n / 256)

/-- The message with a one bit, zeros, and its length in bits, a multiple of 64 bytes. -/
def pad (message : List UInt8) : List UInt8 :=
  let zeros := (119 - message.length % 64) % 64
  message ++ 0x80 :: List.replicate zeros 0 ++ littleEndian 8 (8 * message.length)

/-- Groups of a fixed size; what does not fill a group is left out. -/
def groupsOf {α : Type} (size : Nat) : Nat → List α → List (List α)
  | 0, _ => []
  | count + 1, items => items.take size :: groupsOf size count (items.drop size)

/-- Four bytes as a word, least significant first. -/
def wordOf (bytes : List UInt8) : UInt32 :=
  bytes.foldr (fun byte word => word * 256 + byte.toUInt32) 0

/-- The sixteen bytes of the digest. -/
def md5 (message : List UInt8) : List UInt8 :=
  let padded := pad message
  let words := (groupsOf 4 (padded.length / 4) padded).map wordOf
  let s := (groupsOf 16 (words.length / 16) words).foldl State.absorb .initial
  [s.a, s.b, s.c, s.d].flatMap fun word => littleEndian 4 word.toNat

/-- The digest of a text in UTF-8. -/
def md5Text (text : String) : List UInt8 := md5 (Text.plain text).toUTF8.toList

/-- The digest as thirty-two hexadecimal digits. -/
def hex (digest : List UInt8) : String :=
  String.ofList (digest.flatMap fun byte => Json.hexText 2 byte.toNat)

/-- The digest as a number, most significant byte first. -/
def toNat (digest : List UInt8) : Nat := digest.foldl (fun n byte => n * 256 + byte.toNat) 0

end CodeSearch.Digest
