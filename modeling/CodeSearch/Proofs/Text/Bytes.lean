import CodeSearch.Proofs.Text.Codes
import CodeSearch.Text.Bytes
/-!
# Texts through bytes

What stands for no byte is never joined with other codes, and so ASCII that is added to a text is kept as it is,
whatever the text (`throughBytes_append`).
-/

namespace CodeSearch.Text

/-! ## Codes of small characters -/

theorem codes_of_small {text : List Char} (h : ∀ c ∈ text, c.toNat < 0xf57ff) : codes text = text.map Char.toNat := by
  induction text with
  | nil => rfl
  | cons c text ih =>
    have code := codes_ofCode (isCode_toNat c) text
    rw [ofCode_toNat, keepChar_of_lt (h c List.mem_cons_self), List.singleton_append] at code
    rw [code, ih fun d hd => h d (List.mem_cons_of_mem _ hd), List.map_cons]

/-- Small characters have their own codes, whatever text they are added to. -/
theorem codes_append_small {ending : List Char} (small : ∀ c ∈ ending, c.toNat < 0xf57ff) (text : List Char) :
    codes (text ++ ending) = codes text ++ ending.map Char.toNat := by
  induction text using codes.induct with
  | case1 => exact codes_of_small small
  | case2 =>
    -- a mark at the end of a text is taken to be that of the next character, which has no need of one
    cases ending with
    | nil => rfl
    | cons e ending =>
      rw [List.singleton_append, codes_mark, codes_of_small fun d hd => small d (List.mem_cons_of_mem _ hd)]
      rfl
  | case3 c plain =>
    rw [List.singleton_append, codes_cons plain, codes_of_small small, codes_cons plain]
    rfl
  | case4 d rest ih =>
    rw [List.cons_append, List.cons_append, codes_mark, ih, codes_mark]
    rfl
  | case5 c d rest plain ih =>
    rw [List.cons_append, codes_cons plain, ih, codes_cons plain]
    rfl

/-- A text has a byte for each character at least. -/
theorem length_le_byteCount {text : String} (h : ∀ c ∈ text.toList, c.toNat < 128) :
    text.toList.length ≤ byteCount text := by
  have small : ∀ c ∈ text.toList, c.toNat < 0xf57ff := fun c hc => Nat.lt_trans (h c hc) (by decide)
  rw [byteCount, codes_of_small small]
  induction text.toList with
  | nil => exact Nat.zero_le _
  | cons c rest ih =>
    have one : 0 < codeBytes c.toNat := by
      rw [codeBytes]
      split
      · exact Nat.one_pos
      · exact Char.utf8Size_pos _
    simp only [List.map_cons, List.sum_cons, List.length_cons]
    omega

/-! ## Halves that are the bytes of a character -/

theorem byteOf?_of_ascii {code : Nat} (h : code < 128) : byteOf? code = none := by
  rw [byteOf?, if_neg]
  simp
  omega

theorem charOf?_eq_none {code : Nat} (h : byteOf? code = none) (rest : List Nat) : charOf? (code :: rest) = none := by
  simp [charOf?, List.mapM_cons, h]

/-- A byte of a half by itself is the form of no character. -/
theorem charOf?_single (code : Nat) : charOf? [code] = none := by
  by_cases range : 0xdc80 ≤ code ∧ code ≤ 0xdcff
  · have each : ∀ n < 128, charOf? [0xdc80 + n] = none := by decide +kernel
    obtain ⟨n, rfl⟩ := Nat.exists_eq_add_of_le range.1
    exact each n (by omega)
  · exact charOf?_eq_none (by simpa [byteOf?] using range) []

/-- Halves do not join with what stands for no byte. -/
theorem charOf?_append {code : Nat} (h : byteOf? code = none) (halves others : List Nat) :
    charOf? (halves ++ code :: others) = none := by
  have all : (halves ++ code :: others).mapM byteOf? = none := by
    induction halves with
    | nil => simp [List.mapM_cons, h]
    | cons half halves ih => simp [List.mapM_cons, ih]
  simp [charOf?, all]

/-- The character that codes begin with as halves, and the number of these halves. -/
def joined? (codes : List Nat) : Option (Nat × Nat) :=
  [2, 3, 4].findSome? fun n => (charOf? (codes.take n)).map fun c => (c.toNat, n)

/-- Whether codes begin with the halves of a character does not depend on what stands for no byte behind them. -/
theorem joined?_append {other : Nat} (h : byteOf? other = none) (code : Nat) (rest others : List Nat) :
    joined? (code :: (rest ++ other :: others)) = joined? (code :: rest) ∧
      ∀ found ∈ joined? (code :: rest), found.2 ≤ rest.length + 1 := by
  have beyond := charOf?_append h
  have one := charOf?_single code
  rcases rest with _ | ⟨a, _ | ⟨b, _ | ⟨c, rest⟩⟩⟩
  · have two (more : List Nat) : charOf? (code :: other :: more) = none := beyond [code] more
    simp [joined?, one, two]
  · have three (more : List Nat) : charOf? (code :: a :: other :: more) = none := beyond [code, a] more
    cases whole : charOf? [code, a] <;> simp [joined?, whole, three]
  · have four (more : List Nat) : charOf? (code :: a :: b :: other :: more) = none := beyond [code, a, b] more
    cases pair : charOf? [code, a] <;> cases whole : charOf? [code, a, b] <;> simp [joined?, pair, whole, four]
  · cases pair : charOf? [code, a] <;> cases triple : charOf? [code, a, b] <;> cases all : charOf? [code, a, b, c] <;>
      simp [joined?, pair, triple, all]

theorem joinHalves_of_joined {code char n : Nat} {rest : List Nat} (found : joined? (code :: rest) = some (char, n)) :
    joinHalves (code :: rest) = char :: joinHalves (rest.drop (n - 1)) := by
  rw [joined?] at found
  rw [joinHalves, found]

theorem joinHalves_of_single {code : Nat} {rest : List Nat} (none : joined? (code :: rest) = none) :
    joinHalves (code :: rest) = code :: joinHalves rest := by
  rw [joined?] at none
  rw [joinHalves, none]

theorem joinHalves_append {other : Nat} (h : byteOf? other = none) (codes others : List Nat) :
    joinHalves (codes ++ other :: others) = joinHalves codes ++ joinHalves (other :: others) := by
  induction codes using joinHalves.induct with
  | case1 => rw [joinHalves, List.nil_append, List.nil_append]
  | case2 code rest char n found ih =>
    obtain ⟨same, within⟩ := joined?_append h code rest others
    replace found : joined? (code :: rest) = some (char, n) := found
    have few : n - 1 ≤ rest.length := Nat.sub_le_of_le_add (within _ found)
    rw [List.cons_append, joinHalves_of_joined (same.trans found), joinHalves_of_joined found,
      List.drop_append_of_le_length few, ih, List.cons_append]
  | case3 code rest none ih =>
    obtain ⟨same, _⟩ := joined?_append h code rest others
    replace none : joined? (code :: rest) = Option.none := none
    rw [List.cons_append, joinHalves_of_single (same.trans none), joinHalves_of_single none, ih, List.cons_append]

theorem joinHalves_of_no_bytes {codes : List Nat} (h : ∀ code ∈ codes, byteOf? code = none) : joinHalves codes = codes := by
  induction codes with
  | nil => rw [joinHalves]
  | cons code codes ih =>
    have none : ∀ n, charOf? ((code :: codes).take (n + 1)) = Option.none := fun n =>
      charOf?_eq_none (h code List.mem_cons_self) _
    rw [joinHalves_of_single, ih fun other ho => h other (List.mem_cons_of_mem _ ho)]
    simp only [joined?, List.findSome?_cons, List.findSome?_nil, none, Option.map_none]

/-- What is added in ASCII is kept as it is. -/
theorem throughBytes_append {ending : String} (ascii : ∀ c ∈ ending.toList, c.toNat < 128) (text : String) :
    throughBytes (text ++ ending) = throughBytes text ++ ending := by
  have small : ∀ c ∈ ending.toList, c.toNat < 0xf57ff := fun c hc => Nat.lt_trans (ascii c hc) (by decide)
  have plain : ∀ code ∈ ending.toList.map Char.toNat, byteOf? code = none := by
    intro code hc
    obtain ⟨c, mem, rfl⟩ := List.mem_map.1 hc
    exact byteOf?_of_ascii (ascii c mem)
  have joined : joinHalves (codes text.toList ++ ending.toList.map Char.toNat)
      = joinHalves (codes text.toList) ++ ending.toList.map Char.toNat := by
    cases codes : ending.toList.map Char.toNat with
    | nil => rw [List.append_nil, List.append_nil]
    | cons code more =>
      rw [codes] at plain
      rw [joinHalves_append (plain code List.mem_cons_self), joinHalves_of_no_bytes plain]
  have kept : (ending.toList.map Char.toNat).flatMap ofCode = ending.toList := by
    rw [← codes_of_small small]
    exact (IsKept.of_ascii ascii).ofCodes_codes
  apply String.toList_injective
  rw [throughBytes, throughBytes, String.toList_append, codes_append_small small, joined, ofCodes, ofCodes,
    List.flatMap_append, kept, String.toList_append, String.toList_ofList, String.toList_ofList]

theorem throughBytes_of_ascii {text : String} (h : ∀ c ∈ text.toList, c.toNat < 128) : throughBytes text = text := by
  have added := throughBytes_append h ""
  rwa [String.empty_append, show throughBytes "" = "" by decide +kernel, String.empty_append] at added

end CodeSearch.Text
