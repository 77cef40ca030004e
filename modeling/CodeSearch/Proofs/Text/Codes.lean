import CodeSearch.Json.Written
import Mathlib.Tactic
/-!
# Kept texts and their codes

A kept text is made of codes, and `codes` gives them back: the two ways cancel (`codes_flatMap`,
`IsKept.ofCodes_codes`). A kept text that holds no half is written to its end (`writtenPart_of_whole`).
-/

namespace CodeSearch.Text

/-- Whether all characters of a text satisfy a condition is found out by going through the text, and not through all
characters that there are. -/
instance (priority := 2000) decidableForallMem {p : Char → Prop} [DecidablePred p] (text : List Char) :
    Decidable (∀ c ∈ text, p c) :=
  List.decidableBAll p text

/-! ## Codes of characters -/

theorem codes_cons {c : Char} (h : c ≠ mark) (rest : List Char) :
    codes (c :: rest) = (half? c).getD c.toNat :: codes rest := by
  cases rest with
  | nil => simp [codes, h]
  | cons d rest => simp [codes, h]

theorem codes_mark (c : Char) (rest : List Char) : codes (mark :: c :: rest) = c.toNat :: codes rest := by
  simp [codes]

/-- A code of a character, or of a half. -/
def IsCode (code : Nat) : Prop := isHalf code = true ∨ code.isValidChar

theorem isHalf_iff (code : Nat) : isHalf code = true ↔ 0xd800 ≤ code ∧ code ≤ 0xdfff := by
  simp [isHalf]

theorem isCode_toNat (c : Char) : IsCode c.toNat := .inr c.valid

theorem not_isHalf_toNat (c : Char) : isHalf c.toNat = false := by
  have valid : c.toNat.isValidChar := c.valid
  rw [← Bool.not_eq_true, isHalf_iff]
  rcases valid with low | high <;> omega

theorem toNat_ofNat {code : Nat} (valid : code.isValidChar) : (Char.ofNat code).toNat = code := by
  rw [Char.ofNat, dif_pos valid]
  rfl

theorem toNat_halfChar {unit : Nat} (h : isHalf unit = true) : (halfChar unit).toNat = unit + halfShift := by
  have range := (isHalf_iff unit).1 h
  have valid : (unit + halfShift).isValidChar := by
    right
    simp only [halfShift]
    omega
  rw [halfChar, toNat_ofNat valid]

theorem half?_halfChar {unit : Nat} (h : isHalf unit = true) : half? (halfChar unit) = some unit := by
  rw [half?, toNat_halfChar h, Nat.add_sub_cancel]
  simp [h]

theorem toNat_mark : mark.toNat = 0xf57ff := by decide

theorem halfChar_ne_mark {unit : Nat} (h : isHalf unit = true) : halfChar unit ≠ mark := by
  intro eq
  have toNat := congrArg Char.toNat eq
  have range := (isHalf_iff unit).1 h
  rw [toNat_halfChar h, toNat_mark] at toNat
  simp only [halfShift] at toNat
  omega

theorem codes_ofCode {code : Nat} (h : IsCode code) (rest : List Char) :
    codes (ofCode code ++ rest) = code :: codes rest := by
  unfold ofCode
  by_cases half : isHalf code = true
  · rw [if_pos half, List.singleton_append, codes_cons (halfChar_ne_mark half), half?_halfChar half]
    rfl
  · rw [if_neg half]
    have valid := h.resolve_left half
    have toNat := toNat_ofNat valid
    unfold keepChar
    split
    next => rw [List.cons_append, List.cons_append, List.nil_append, codes_mark, toNat]
    next plain =>
      simp only [Bool.or_eq_true, decide_eq_true_eq, not_or, Option.not_isSome_iff_eq_none] at plain
      rw [List.singleton_append, codes_cons plain.1, plain.2, Option.getD_none, toNat]

theorem codes_flatMap {codes' : List Nat} (h : ∀ code ∈ codes', IsCode code) (rest : List Char) :
    codes (codes'.flatMap ofCode ++ rest) = codes' ++ codes rest := by
  induction codes' with
  | nil => rfl
  | cons code more ih =>
    rw [List.flatMap_cons, List.append_assoc, codes_ofCode (h code (by simp)),
      ih fun c hc => h c (List.mem_cons_of_mem _ hc), List.cons_append]

/-- Characters below the private ones are kept as they are. -/
theorem keepChar_of_lt {c : Char} (h : c.toNat < 0xf57ff) : keepChar c = [c] := by
  rw [keepChar, if_neg]
  simp only [Bool.or_eq_true, decide_eq_true_eq]
  rintro (rfl | half)
  · rw [toNat_mark] at h
    omega
  · have none : half? c = none := by
      rw [half?, if_neg]
      rw [isHalf_iff]
      simp only [halfShift]
      omega
    rw [none] at half
    cases half

theorem ofCode_toNat (c : Char) : ofCode c.toNat = keepChar c := by
  rw [ofCode, if_neg (by rw [not_isHalf_toNat]; simp), Char.ofNat_toNat]

/-! ## Kept texts -/

/-- A text as it is kept: the kept form of some codes. -/
def IsKept (text : List Char) : Prop :=
  ∃ codes' : List Nat, (∀ code ∈ codes', IsCode code) ∧ text = codes'.flatMap ofCode

namespace IsKept

theorem codes_append {a : List Char} (h : IsKept a) (b : List Char) : codes (a ++ b) = codes a ++ codes b := by
  obtain ⟨codes', all, rfl⟩ := h
  have whole := codes_flatMap all []
  rw [List.append_nil] at whole
  rw [codes_flatMap all, whole, codes, List.append_nil]

theorem ofCodes_codes {text : List Char} (h : IsKept text) : (codes text).flatMap ofCode = text := by
  obtain ⟨codes', all, rfl⟩ := h
  have whole := codes_flatMap all []
  rw [List.append_nil] at whole
  rw [whole, codes, List.append_nil]

theorem isCode_codes {text : List Char} (h : IsKept text) : ∀ code ∈ codes text, IsCode code := by
  obtain ⟨codes', all, rfl⟩ := h
  have whole := codes_flatMap all []
  rw [List.append_nil, codes, List.append_nil] at whole
  exact whole.symm ▸ all

theorem nil : IsKept [] := ⟨[], by simp, rfl⟩

theorem append {a b : List Char} (ha : IsKept a) (hb : IsKept b) : IsKept (a ++ b) := by
  obtain ⟨as, allA, rfl⟩ := ha
  obtain ⟨bs, allB, rfl⟩ := hb
  refine ⟨as ++ bs, fun code h => ?_, by rw [List.flatMap_append]⟩
  rcases List.mem_append.1 h with h | h
  · exact allA code h
  · exact allB code h

theorem keepChar (c : Char) : IsKept (keepChar c) := by
  refine ⟨[c.toNat], fun code h => ?_, ?_⟩
  · rw [List.mem_singleton.1 h]
    exact isCode_toNat c
  · rw [List.flatMap_singleton, ofCode_toNat]

theorem single {c : Char} (h : c.toNat < 0xf57ff) : IsKept [c] := by
  rw [← keepChar_of_lt h]
  exact keepChar c

theorem cons {c : Char} (h : c.toNat < 0xf57ff) {text : List Char} (ht : IsKept text) : IsKept (c :: text) :=
  (single h).append ht

theorem of_ascii {text : List Char} (h : ∀ c ∈ text, c.toNat < 128) : IsKept text := by
  induction text with
  | nil => exact nil
  | cons c rest ih =>
    have := h c (by simp)
    exact cons (by omega) (ih fun d hd => h d (List.mem_cons_of_mem _ hd))

theorem flatten {texts : List (List Char)} (h : ∀ text ∈ texts, IsKept text) : IsKept texts.flatten := by
  induction texts with
  | nil => exact nil
  | cons text rest ih =>
    exact (h text (by simp)).append (ih fun t ht => h t (List.mem_cons_of_mem _ ht))

end IsKept

/-! ## Whole texts -/

theorem isWhole_append {a : List Char} (h : IsKept a) (b : List Char) :
    isWhole (String.ofList (a ++ b)) = (isWhole (String.ofList a) && isWhole (String.ofList b)) := by
  simp only [isWhole, String.toList_ofList, h.codes_append, List.all_append]

end CodeSearch.Text

namespace CodeSearch.Json

open CodeSearch.Text

/-- Codes without halves are written to their end. -/
theorem writtenCodes_of_whole {codes : List Nat} (h : ∀ code ∈ codes, isHalf code = false) (s : WriterState) :
    writtenCodes s codes = s.held ++ (s.quoted.getD []).reverse ++ codes := by
  induction codes generalizing s with
  | nil => simp [writtenCodes]
  | cons c rest ih =>
    have ih := ih fun d hd => h d (List.mem_cons_of_mem _ hd)
    have hc := h c (by simp)
    unfold writtenCodes
    cases hq : s.quoted with
    | some text =>
      simp only [hc, Bool.false_eq_true, if_false]
      split_ifs <;> simp [ih]
    | none =>
      simp only
      split_ifs <;> simp [ih]

theorem writtenPart_of_whole {text : String} (kept : IsKept text.toList) (h : isWhole text = true) :
    writtenPart text = text := by
  have all : ∀ code ∈ codes text.toList, isHalf code = false := by
    intro code hc
    simpa using List.all_eq_true.1 h code hc
  rw [writtenPart, writtenCodes_of_whole all]
  simp only [Option.getD_none, List.reverse_nil, List.append_nil, List.nil_append, ofCodes, kept.ofCodes_codes,
    String.ofList_toList]

end CodeSearch.Json
