import CodeSearch.Proofs.Indexing.Directory
import CodeSearch.Proofs.Text.Runs
/-!
# What an id tells of a chunk

The key that an id is the digest of has path, name, line and content one behind the other, with a separator between them
that may also stand in a path, in a name or in a content. So a key tells what it was made of only where it is known how
many separators the path has and how many the name has (`Source.key_eq_iff`), and that is also all that an id tells where
no other key has its digest (`Source.id_identifies`).
-/

namespace CodeSearch

/-! ## Digits -/

namespace Json

open Decimal

/-- The integer of a text that is the text of one. -/
def intOf (text : List Char) : Int :=
  if text.head? = some '-' then -digitsValue text.tail else digitsValue text

theorem intOf_toString (n : Int) : intOf (toString n).toList = n := by
  rw [toString_int]
  by_cases negative : n < 0
  · have magnitude : (n.natAbs : Int) = -n := Int.ofNat_natAbs_of_nonpos (Int.le_of_lt negative)
    rw [decide_eq_true negative, signText, if_pos rfl, intOf, List.singleton_append, List.head?_cons, if_pos rfl,
      List.tail_cons, digitsValue_digitText, magnitude, Int.neg_neg]
  · have magnitude : (n.natAbs : Int) = n := Int.natAbs_of_nonneg (Int.not_lt.1 negative)
    have noSign : (digitText n.natAbs).head? ≠ some '-' := fun sign => by
      have digit := isDigit_of_mem_digitText (List.mem_of_head? sign)
      exact absurd digit (by decide)
    rw [decide_eq_false negative, signText, if_neg Bool.false_ne_true, List.nil_append, intOf, if_neg noSign,
      digitsValue_digitText, magnitude]

theorem toString_int_injective {m n : Int} (same : toString m = toString n) : m = n := by
  rw [← intOf_toString m, same, intOf_toString]

theorem hexText_inj {width m n : Nat} (hm : m < 16 ^ width) (hn : n < 16 ^ width)
    (same : hexText width m = hexText width n) : m = n := by
  induction width generalizing m n with
  | zero => omega
  | succ width ih =>
    have digit (k : Nat) : hexValue? (hexDigit (k % 16)) = some (k % 16) := hexValue?_hexDigit (Nat.mod_lt _ (by decide))
    rw [hexText, hexText] at same
    obtain ⟨before, last⟩ := List.append_inj' same rfl
    have low : m % 16 = n % 16 := by
      rw [List.singleton_inj] at last
      rw [← Option.some_inj, ← digit, last, digit]
    have high := ih (by rw [pow_succ] at hm; omega) (by rw [pow_succ] at hn; omega) before
    omega

end Json

/-- Two digits for each byte tell the bytes. -/
theorem Digest.hex_injective {a b : List UInt8} (same : Digest.hex a = Digest.hex b) : a = b := by
  have two (byte : UInt8) : (Json.hexText 2 byte.toNat).length = 2 := rfl
  have digits := String.ofList_injective same
  clear same
  induction a generalizing b with
  | nil =>
    cases b with
    | nil => rfl
    | cons y b => simp [Json.hexText] at digits
  | cons x a ih =>
    cases b with
    | nil => simp [Json.hexText] at digits
    | cons y b =>
      rw [List.flatMap_cons, List.flatMap_cons] at digits
      obtain ⟨first, others⟩ := List.append_inj digits ((two x).trans (two y).symm)
      have byte := Json.hexText_inj x.toNat_lt y.toNat_lt first
      rw [UInt8.toNat_inj.1 byte, ih others]

namespace Chunk

/-! ## Sources -/

/-- What the id of a chunk is made of. -/
structure Source where
  filePath : String
  name : Option String := none
  line : Int := 0
  content : String

/-- What stands between the parts of a key. -/
def separator : Char := '\x1f'

namespace Source

/-- The name, which is empty if there is none. -/
def nameText (s : Source) : String := s.name.getD ""

def key (s : Source) : String := idKey s.filePath s.nameText (toString s.line) s.content

/-- The id, unless its key has no form in bytes. -/
def id? (s : Source) : Except Fault String :=
  idFor (.str s.filePath) (.str s.content) (textOrNullJson s.name) (.int s.line)

/-- How many separators the path has, and how many the name. -/
def separators (s : Source) : Nat × Nat :=
  (s.filePath.toList.count separator, s.nameText.toList.count separator)

/-- Two sources differ at most in that one has an empty name and the other none. -/
structure Same (a b : Source) : Prop where
  filePath : a.filePath = b.filePath
  name : a.nameText = b.nameText
  line : a.line = b.line
  content : a.content = b.content

variable {a b : Source}

theorem key_toList (s : Source) : s.key.toList = s.filePath.toList ++ separator :: (s.nameText.toList ++
    separator :: ((toString s.line).toList ++ separator :: s.content.toList)) := by
  simp [key, idKey, separator]

/-- No integer has a separator in its text. -/
theorem count_separator_line (n : Int) : (toString n).toList.count separator = 0 := by
  rw [List.count_eq_zero]
  intro there
  have range := ((Json.isNumber_int n).ascii there).1
  exact absurd range (by decide)

/-- A key tells what it was made of, and where it was put together only if the separators in it are known. -/
theorem key_eq_iff : a.key = b.key ∧ a.separators = b.separators ↔ a.Same b := by
  constructor
  · rintro ⟨keys, counts⟩
    rw [separators, separators, Prod.mk.injEq] at counts
    rw [← String.toList_inj, key_toList, key_toList] at keys
    obtain ⟨filePath, behindPath⟩ := Text.append_separator_inj keys counts.1
    obtain ⟨name, behindName⟩ := Text.append_separator_inj behindPath counts.2
    obtain ⟨line, content⟩ := Text.append_separator_inj behindName (by rw [count_separator_line, count_separator_line])
    exact ⟨String.toList_inj.1 filePath, String.toList_inj.1 name, Json.toString_int_injective (String.toList_inj.1 line),
      String.toList_inj.1 content⟩
  · rintro ⟨filePath, name, line, content⟩
    rw [key, key, separators, separators, filePath, name, line, content]
    exact ⟨rfl, rfl⟩

theorem id?_eq (s : Source) : s.id? =
    if Text.isWhole s.key then .ok (Digest.hex (Digest.md5Text s.key)) else .error (.badValue (.unencodable s.key)) := by
  have given : (if (textOrNullJson s.name).isTruthy then textOrNullJson s.name else .str "") = .str s.nameText := by
    cases name : s.name with
    | none => simp [nameText, name, textOrNullJson, Json.isTruthy]
    | some text =>
      by_cases empty : text = "" <;> simp [nameText, name, textOrNullJson, Json.isTruthy, empty]
  have line : (Json.int s.line).display = toString s.line := by simp [Json.display, Json.showChars]
  simp only [id?, idFor, given, line]
  rfl

/-- A record without an id gets that of its source. -/
theorem recordId_eq {s : Source} {record : Json.Fields} (filePath : record.get? "file_path" = some (.str s.filePath))
    (content : record.get? "content" = some (.str s.content))
    (name : record.get? "qualified_name" = some (textOrNullJson s.name))
    (line : record.get? "start_line" = some (.int s.line)) : Indexing.recordId record = s.id? := by
  simp only [Indexing.recordId, filePath, content, name, line, Option.getD_some]
  rfl

theorem key_eq_of_id? {id : String} (noCollision : Digest.md5Text a.key = Digest.md5Text b.key → a.key = b.key)
    (ha : a.id? = .ok id) (hb : b.id? = .ok id) : a.key = b.key := by
  rw [id?_eq] at ha hb
  split at ha
  next =>
    split at hb
    next =>
      cases ha
      injection hb with digest
      exact noCollision (Digest.hex_injective digest.symm)
    next => cases hb
  next => cases ha

/-- Where no other key has its digest, an id tells as much as its key: sources have one id and as many separators in
their paths, and in their names, only if they are the same. -/
theorem id_identifies (noCollision : Digest.md5Text a.key = Digest.md5Text b.key → a.key = b.key) :
    (a.key = b.key ∧ a.separators = b.separators ↔ a.Same b) ∧
      ∀ id, a.id? = .ok id → (b.id? = .ok id ∧ a.separators = b.separators ↔ a.Same b) := by
  refine ⟨key_eq_iff, fun id made => ?_⟩
  constructor
  · rintro ⟨other, counts⟩
    exact key_eq_iff.1 ⟨key_eq_of_id? noCollision made other, counts⟩
  · intro same
    obtain ⟨keys, counts⟩ := key_eq_iff.2 same
    refine ⟨?_, counts⟩
    rw [id?_eq, ← keys, ← id?_eq, made]

/-- Two windows of one method. -/
theorem id_identifies_windows :
    let a : Source := ⟨"src/A.java", some "A.run", 3, "run();"⟩
    let b : Source := ⟨"src/A.java", some "A.run", 4, "run();"⟩
    (Digest.md5Text a.key = Digest.md5Text b.key → a.key = b.key) ∧ ∃ id, a.id? = .ok id ∧ b.id? ≠ .ok id := by
  intro a b
  have noCollision : Digest.md5Text a.key = Digest.md5Text b.key → a.key = b.key := fun same =>
    absurd same (by decide +kernel)
  obtain ⟨id, made⟩ : ∃ id, a.id? = .ok id := by
    rw [id?_eq, if_pos (by decide +kernel)]
    exact ⟨_, rfl⟩
  refine ⟨noCollision, id, made, fun other => ?_⟩
  have same := ((id_identifies noCollision).2 id made).1 ⟨other, rfl⟩
  exact absurd same.line (by decide)

/-- What stands behind a separator in a name may as well be a line, and what stands before it the name. -/
example : (⟨"A.java", some "run\x1f0", 7, "run();"⟩ : Source).key
    = (⟨"A.java", some "run", 0, "7\x1frun();"⟩ : Source).key := by
  decide

end Source

end Chunk

end CodeSearch
