import CodeSearch.Proofs.Json.Data
import CodeSearch.Proofs.Decimal.Digits
import CodeSearch.Record.Checked
import CodeSearch.Record.Unfit
/-!
# What reading a record tells

For each reader of values: what was read, if it was read, says what the value is (`text_good`, `texts_good`,
`textMapping_good`), and values of that form are read (`texts_arr`, `textMapping_obj`). An integer read from a
value that texts can hold has no more digits than are read (`natural_digits`).
-/

/-- Where every setting can be used, those of some names can. -/
theorem CodeSearch.Unfit.check_nil (names : List String) : check [] names = .ok () := by
  induction names with
  | nil => rfl
  | cons name names ih => exact ih

namespace CodeSearch.Record

open CodeSearch.Decimal

namespace Checked

variable {α β : Type}

theorem seq_good {f : Checked (α → β)} {a : Checked α} {b : β} (h : f <*> a = .good b) :
    ∃ g x, f = .good g ∧ a = .good x ∧ g x = b := by
  cases f with
  | good g =>
    cases a with
    | good x => exact ⟨g, x, rfl, rfl, by injection h⟩
    | bad issues => cases h
  | bad issues => cases h

theorem map_good {f : α → β} {a : Checked α} {b : β} (h : f <$> a = .good b) : ∃ x, a = .good x ∧ f x = b := by
  cases a with
  | good x => exact ⟨x, rfl, by injection h⟩
  | bad issues => cases h

theorem under_good {step : Step} {a : Checked α} {x : α} (h : a.under step = .good x) : a = .good x := by
  cases a with
  | good y => exact h
  | bad issues => cases h

theorem andThen_good {a : Checked α} {check : α → Checked β} {b : β} (h : a.andThen check = .good b) :
    ∃ x, a = .good x ∧ check x = .good b := by
  cases a with
  | good x => exact ⟨x, rfl, h⟩
  | bad issues => cases h

end Checked

open Checked

/-! ## Lists -/

theorem collect_good {α : Type} {checked : List (Checked α)} {values : List α} (h : collect checked = .good values) :
    checked = values.map .good := by
  induction checked generalizing values with
  | nil =>
    injection h with h
    rw [← h]
    rfl
  | cons a rest ih =>
    cases a with
    | bad issues => cases h
    | good x =>
      cases hr : collect rest with
      | bad issues =>
        rw [collect, hr] at h
        cases h
      | good xs =>
        rw [collect, hr] at h
        injection h with h
        rw [← h, List.map_cons, ih hr]

theorem collect_map_good {α : Type} (values : List α) : collect (values.map Checked.good) = .good values := by
  induction values with
  | nil => rfl
  | cons x xs ih =>
    rw [List.map_cons, collect, ih]
    rfl

/-! ## Values -/

theorem text_good {value : Json} {s : String} (h : text value = .good s) : value = .str s := by
  cases value with
  | str t =>
    injection h with h
    rw [h]
  | _ => cases h

theorem textOrNull_good {value : Json} {s : Option String} (h : textOrNull value = .good s) :
    value = .null ∧ s = none ∨ ∃ t, value = .str t ∧ s = some t := by
  cases value with
  | null =>
    injection h with h
    exact .inl ⟨rfl, h.symm⟩
  | str t =>
    injection h with h
    exact .inr ⟨t, rfl, h.symm⟩
  | _ => cases h

theorem mapping_good {value : Json} {fields : Json.Fields} (h : mapping value = .good fields) :
    value = .obj fields := by
  cases value with
  | obj others =>
    injection h with h
    rw [h]
  | _ => cases h

theorem texts_good {value : Json} {read : List String} (h : texts value = .good read) :
    value = .arr (read.map .str) := by
  cases value with
  | arr items =>
    have all := collect_good h
    have length : items.length = read.length := by
      simpa using congrArg List.length all
    congr 1
    refine List.ext_getElem (by simpa using length) fun n h1 h2 => ?_
    have at_n := List.getElem_of_eq all (i := n) (by simpa using h1)
    rw [List.getElem_map, List.getElem_map, List.getElem_zipIdx] at at_n
    rw [List.getElem_map]
    exact text_good (under_good at_n)
  | _ => cases h

theorem texts_arr (read : List String) : texts (.arr (read.map .str)) = .good read := by
  have each : ((read.map Json.str).zipIdx.map fun item => (text item.1).under (.index item.2))
      = read.map Checked.good := by
    refine List.ext_getElem (by simp) fun n h1 h2 => ?_
    rw [List.getElem_map, List.getElem_map, List.getElem_zipIdx, List.getElem_map]
    rfl
  rw [texts, items]
  exact (congrArg collect each).trans (collect_map_good _)

/-- The object of a mapping of texts. -/
def mappingJson (pairs : List (String × String)) : Json := .obj (pairs.map fun (name, value) => (name, .str value))

theorem textMapping_good {value : Json} {pairs : List (String × String)} (h : textMapping value = .good pairs) :
    value = mappingJson pairs := by
  cases value with
  | obj fields =>
    have all := collect_good h
    have length : fields.length = pairs.length := by
      simpa using congrArg List.length all
    rw [mappingJson]
    congr 1
    refine List.ext_getElem (by simpa using length) fun n h1 h2 => ?_
    have at_n := List.getElem_of_eq all (i := n) (by simpa using h1)
    rw [List.getElem_map, List.getElem_map] at at_n
    rw [List.getElem_map]
    obtain ⟨s, read, eq⟩ := map_good (under_good at_n)
    rw [← eq]
    exact Prod.ext rfl (text_good read)
  | _ => cases h

theorem textMapping_obj (pairs : List (String × String)) : textMapping (mappingJson pairs) = .good pairs := by
  have each : ((pairs.map fun pair => (pair.1, Json.str pair.2)).map fun field =>
      ((text field.2).map (field.1, ·)).under (.field field.1)) = pairs.map Checked.good := by
    rw [List.map_map]
    rfl
  rw [mappingJson, textMapping]
  exact (congrArg collect each).trans (collect_map_good _)

/-! ## Integers -/

/-- An integer has no more digits than are read. -/
def HasDigits (n : Nat) : Prop := (digitText n).length ≤ integerDigitLimit

theorem hasDigits_of_lt {n k : Nat} (h : n < 10 ^ k) (pos : 0 < k) (le : k ≤ integerDigitLimit) : HasDigits n :=
  ((length_digitText_le pos).2 h).trans le

theorem readWhole?_some {text digits rest : List Char} (h : Json.readWhole? text = some (digits, rest)) :
    text = digits ++ rest ∧ (∀ c ∈ digits, Json.isDigit c = true) ∧ digits ≠ [] := by
  unfold Json.readWhole? at h
  split at h
  next rest' =>
    obtain ⟨rfl, rfl⟩ := Prod.mk.inj (Option.some.inj h)
    exact ⟨rfl, by simp [Json.isDigit], by simp⟩
  next c rest' _ =>
    split at h
    next digit =>
      obtain ⟨rfl, rfl⟩ := Prod.mk.inj (Option.some.inj h)
      refine ⟨by rw [List.cons_append, List.takeWhile_append_dropWhile], ?_, by simp⟩
      intro d hd
      rcases List.mem_cons.1 hd with rfl | more
      · exact digit
      · exact List.all_eq_true.1 List.all_takeWhile d more
    next => cases h
  next => cases h

theorem plainInteger_digits {text : List Char} {n : Int} (h : plainInteger text = .ok n) : HasDigits n.natAbs := by
  unfold plainInteger at h
  simp only at h
  split at h
  next => cases h
  next digits rest found =>
    obtain ⟨split, all, ne⟩ := readWhole?_some found
    split at h
    next => cases h
    next short =>
      split at h
      next =>
        injection h with h
        have length : digits.length ≤ text.length - rest.length := by
          have le : digits.length + rest.length ≤ text.length := by
            rw [← List.length_append, ← split]
            split <;> simp
          omega
        have value : n.natAbs = Json.digitsValue digits := by
          rw [← h, signed]
          split <;> simp
        rw [value]
        exact hasDigits_of_lt (digitsValue_lt all) (List.length_pos_iff.2 ne) (by omega)
      next => cases h

theorem integerText_digits {s : String} {n : Int} (h : integerText s = .ok n) : HasDigits n.natAbs := by
  unfold integerText at h
  split at h
  next => exact plainInteger_digits h
  next => exact plainInteger_digits h

/-- An integer read from a value that texts can hold could stand in a text itself. -/
theorem integer_digits {value : Json} (data : value.IsData) {n : Int} (h : integer value = .good n) :
    HasDigits n.natAbs := by
  have few {m : Int} (low : -integerLimit < m) (high : m < integerLimit) : HasDigits m.natAbs := by
    simp only [integerLimit] at low high
    exact hasDigits_of_lt (k := 19) (by omega) (by omega) (by decide)
  cases value with
  | int m =>
    -- an integer is taken as it is, whatever its size; all others are bounded by how they are read
    injection h with h
    rw [Json.IsData] at data
    rw [← h]
    exact data
  | bool b =>
    injection h with h
    rw [← h]
    cases b <;> exact few (by decide) (by decide)
  | float x =>
    simp only [integer] at h
    split at h
    next =>
      split at h
      next m =>
        split at h
        next bounds =>
          injection h with h
          rw [← h]
          simp only [Bool.and_eq_true, decide_eq_true_eq] at bounds
          exact few bounds.1 bounds.2
        next => cases h
      next => cases h
    next => cases h
  | str s =>
    simp only [integer, fromText] at h
    split at h
    next =>
      split at h
      next m read =>
        injection h with h
        rw [← h]
        exact integerText_digits read
      next => cases h
    next => cases h
  | _ => cases h

theorem natural_digits {value : Json} (data : value.IsData) {n : Nat} (h : natural value = .good n) :
    HasDigits n := by
  obtain ⟨m, read, check⟩ := andThen_good h
  split at check
  next pos =>
    injection check with check
    have digits := integer_digits data read
    rw [← check]
    rwa [show m.natAbs = m.toNat by omega] at digits
  next => cases check

theorem natural_int {n : Nat} : natural (.int n) = .good n := by
  simp [natural, integer, andThen]

/-! ## Fields -/

theorem required_good {α : Type} {name : String} {read : Json → Checked α} {record : Json.Fields} {x : α}
    (h : required name read record = .good x) : ∃ value, record.get? name = some value ∧ read value = .good x := by
  unfold required at h
  split at h
  next value found => exact ⟨value, found, under_good h⟩
  next => cases h

theorem optional_good {α : Type} {name : String} {default : α} {read : Json → Checked α} {record : Json.Fields} {x : α}
    (h : optional name default read record = .good x) :
    x = default ∨ ∃ value, record.get? name = some value ∧ read value = .good x := by
  unfold optional at h
  split at h
  next value found => exact .inr ⟨value, found, under_good h⟩
  next =>
    injection h with h
    exact .inl h.symm

theorem required_eq {α : Type} {name : String} {read : Json → Checked α} {record : Json.Fields} {value : Json} {x : α}
    (found : record.get? name = some value) (h : read value = .good x) : required name read record = .good x := by
  rw [required, found]
  simp only [h]
  rfl

theorem optional_eq {α : Type} {name : String} {default : α} {read : Json → Checked α} {record : Json.Fields}
    {value : Json} {x : α} (found : record.get? name = some value) (h : read value = .good x) :
    optional name default read record = .good x := by
  rw [optional, found]
  simp only [h]
  rfl

end CodeSearch.Record
