import CodeSearch.Lexical.Segment
import CodeSearch.Proofs.Decimal.Digits
import CodeSearch.Proofs.Disk.Child
import CodeSearch.Proofs.Record.Checked
/-!
# The names of the files of a lexical index

Segments of different numbers have different names (`segmentName_inj`), and none of them is the name of the manifest
or of what is written beside a file.
-/

namespace CodeSearch.Lexical

open Decimal

theorem sixPlaces_natCast (n : Nat) : sixPlaces n = padZeros 6 (digitText n) := by
  rw [sixPlaces, if_neg (by omega), Int.toNat_natCast]

theorem toList_segmentName_places (n : Int) :
    (segmentName n).toList = "segment_".toList ++ (sixPlaces n ++ ".json".toList) := by
  have places : (String.ofList (sixPlaces n)).toList = sixPlaces n := String.toList_ofList
  rw [segmentName, String.toList_append, String.toList_append, places, List.append_assoc]

theorem toList_segmentName (n : Nat) :
    (segmentName n).toList = "segment_".toList ++ (padZeros 6 (digitText n) ++ ".json".toList) := by
  rw [toList_segmentName_places, sixPlaces_natCast]

theorem digitsValue_padZeros (width n : Nat) : Json.digitsValue (padZeros width (digitText n)) = n := by
  rw [padZeros, digitsValue_zeros_append, digitsValue_digitText]

theorem segmentName_inj {m n : Nat} : segmentName m = segmentName n ↔ m = n := by
  constructor
  · intro h
    have texts := congrArg String.toList h
    rw [toList_segmentName, toList_segmentName] at texts
    have digits := List.append_cancel_right (List.append_cancel_left texts)
    rw [← digitsValue_padZeros 6 m, digits, digitsValue_padZeros]
  · rintro rfl
    rfl

theorem mem_sixPlaces {n : Int} {c : Char} (h : c ∈ sixPlaces n) : c = '-' ∨ c.isDigit = true := by
  have padded (width m : Nat) (hc : c ∈ padZeros width (digitText m)) : c.isDigit = true := by
    rw [padZeros, List.mem_append] at hc
    rcases hc with zero | digit
    · rw [List.eq_of_mem_replicate zero]
      rfl
    · exact (isDigit_iff c).1 (isDigit_of_mem_digitText digit)
  rw [sixPlaces] at h
  split at h
  · exact (List.mem_cons.1 h).imp_right (padded 5 _)
  · exact .inr (padded 6 _ h)

theorem isPlainName_segmentName (n : Int) : IsPlainName (segmentName n) := by
  rw [IsPlainName, toList_segmentName_places]
  constructor
  · have ends : ∀ c ∈ "segment_".toList ++ ".json".toList, 32 < c.toNat ∧ c.toNat < 128 ∧ c ≠ '/' := by decide
    intro c hc
    rw [List.mem_append, List.mem_append] at hc
    rcases hc with first | place | last
    · exact ends c (List.mem_append_left _ first)
    · rcases mem_sixPlaces place with rfl | digit
      · decide
      · rw [Char.isDigit, Bool.and_eq_true, decide_eq_true_eq, decide_eq_true_eq] at digit
        have low : 48 ≤ c.toNat := digit.1
        have high : c.toNat ≤ 57 := digit.2
        refine ⟨by omega, by omega, ?_⟩
        rintro rfl
        exact absurd low (by decide)
    · exact ends c (List.mem_append_right _ last)
  · simp only [List.length_append]
    have : "segment_".toList.length = 8 := by decide
    omega

theorem isPlainName_manifestName : IsPlainName manifestName := by
  rw [IsPlainName]
  decide

theorem head?_segmentName (n : Nat) (rest : String) : (segmentName n ++ rest).toList.head? = some 's' := by
  rw [String.toList_append, toList_segmentName]
  rfl

theorem getLast?_segmentName (n : Nat) : (segmentName n).toList.getLast? = some 'n' := by
  rw [toList_segmentName, ← List.append_assoc, List.getLast?_append]
  rfl

theorem getLast?_temporary (name : String) : (name ++ ".tmp").toList.getLast? = some 'p' := by
  rw [String.toList_append, List.getLast?_append]
  rfl

theorem segmentName_ne_manifestName (n : Nat) : segmentName n ≠ manifestName := by
  intro h
  have head := head?_segmentName n ""
  rw [String.append_empty, h] at head
  exact absurd head (by decide)

theorem segmentName_ne_temporary (n : Nat) (name : String) : segmentName n ≠ name ++ ".tmp" := by
  intro h
  have last := getLast?_segmentName n
  rw [h, getLast?_temporary] at last
  cases last

theorem manifestName_ne_temporary (name : String) : manifestName ≠ name ++ ".tmp" := by
  intro h
  have last := getLast?_temporary name
  rw [← h] at last
  exact absurd last (by decide)

/-- The files that are written to the directory of an index. -/
inductive IsIndexName : String → Prop where
  | manifest : IsIndexName manifestName
  | segment (n : Nat) : IsIndexName (segmentName n)
  | besideManifest : IsIndexName (manifestName ++ ".tmp")
  | besideSegment (n : Nat) : IsIndexName (segmentName n ++ ".tmp")

theorem IsIndexName.plain {name : String} (h : IsIndexName name) : IsPlainName name := by
  cases h with
  | manifest => exact isPlainName_manifestName
  | segment n => exact isPlainName_segmentName n
  | besideManifest => exact isPlainName_manifestName.temporary
  | besideSegment n => exact (isPlainName_segmentName n).temporary

/-- The place of a file of an index in a directory. -/
def IndexPlace (dir place : Path) : Prop := ∃ name, IsIndexName name ∧ (dir.child name).place = place

/-- The number of a segment that a disk holds, and the next one, can be written and read. -/
theorem hasDigits_succ {d : Disk} {dir place : Path} {n : Nat} (h : d.locate (dir.child (segmentName n)) = .ok place) :
    Record.HasDigits (n + 1) := by
  have plain := isPlainName_segmentName n
  have short : Text.byteCount (segmentName n) ≤ Disk.nameLimit :=
    (Disk.short_of_locate h (segmentName n) (by rw [Path.child_eq plain]; simp)).resolve_left plain.ne_up
  have long := Text.length_le_byteCount plain.ascii
  have digits : (digitText n).length ≤ 255 := by
    rw [toList_segmentName, List.length_append, List.length_append, padZeros, List.length_append] at long
    rw [Disk.nameLimit] at short
    omega
  refine Nat.le_trans ?_ (show 256 ≤ integerDigitLimit by decide)
  rw [length_digitText_le (by decide)]
  have below : n < 10 ^ 255 := (length_digitText_le (by decide)).1 digits
  have grow : 10 ^ 255 * 10 = 10 ^ 256 := (Nat.pow_succ 10 255).symm
  generalize 10 ^ 255 = bound at below grow
  rw [← grow]
  omega

end CodeSearch.Lexical
