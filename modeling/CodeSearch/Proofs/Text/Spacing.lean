import CodeSearch.Proofs.Text.Runs
/-!
# Blanks that a pattern puts into a text

A pattern is looked for in a text from left to right, each time the longest way it can be found, and a blank is put into
whatever it finds (`Spacing.apply`). Where the same places are picked out by a rule on neighbouring characters, it comes
to the same whether the text is searched or gone through (`Spacing.apply_eq_insertBlanks`). The words of pieces with blanks
between them are the words of the pieces (`words_intercalate`).
-/

namespace CodeSearch

namespace Text

/-! ## Patterns that put blanks in -/

/-- A step of a pattern: one character of a class, or a run of them. -/
inductive PatternStep where
  | one (has : Char → Bool)
  | run (has : Char → Bool)

/-- The longest run of characters of a class, of one at least, behind which `next` finds something. -/
def longestRun {β : Type} (has : Char → Bool) (next : List Char → Option β) : List Char → Option (List Char × β)
  | [] => none
  | c :: rest =>
    if has c then
      match longestRun has next rest with
      | some (run, found) => some (c :: run, found)
      | none => (next rest).map fun found => ([c], found)
    else none

/-- What a step takes from the start of a text, and what is found behind that. -/
def PatternStep.take {β : Type} (next : List Char → Option β) : PatternStep → List Char → Option (List Char × β)
  | .one _, [] => none
  | .one has, c :: rest => if has c then (next rest).map fun found => ([c], found) else none
  | .run has, text => longestRun has next text

/-- What some steps take from the start of a text, and the rest of the text. -/
def takeSteps : List PatternStep → List Char → Option (List Char × List Char)
  | [], text => some ([], text)
  | step :: steps, text => (step.take (takeSteps steps) text).map fun (taken, more, rest) => (taken ++ more, rest)

/-- A pattern that puts a blank between what its first step takes and what the others take. -/
structure Spacing where
  first : PatternStep
  others : List PatternStep

/-- What the two parts of a pattern take from the start of a text, and the rest of the text. -/
def Spacing.take (s : Spacing) (text : List Char) : Option (List Char × List Char × List Char) :=
  s.first.take (takeSteps s.others) text

section
variable {β : Type} {next : List Char → Option β} {text taken : List Char} {found : β}

theorem longestRun_some {has : Char → Bool} (h : longestRun has next text = some (taken, found)) :
    taken ≠ [] ∧ ∃ rest, text = taken ++ rest ∧ next rest = some found := by
  induction text generalizing taken with
  | nil => cases h
  | cons c text ih =>
    rw [longestRun] at h
    split at h
    next =>
      split at h
      next run found' longer =>
        injection h with h
        cases h
        obtain ⟨_, rest, rfl, there⟩ := ih longer
        exact ⟨List.cons_ne_nil _ _, rest, rfl, there⟩
      next =>
        obtain ⟨found', there, h⟩ := Option.map_eq_some_iff.1 h
        cases h
        exact ⟨List.cons_ne_nil _ _, text, rfl, there⟩
    next => cases h

theorem PatternStep.take_some {step : PatternStep} (h : step.take next text = some (taken, found)) :
    taken ≠ [] ∧ ∃ rest, text = taken ++ rest ∧ next rest = some found := by
  cases step with
  | run has => exact longestRun_some h
  | one has =>
    cases text with
    | nil => cases h
    | cons c text =>
      rw [PatternStep.take] at h
      split at h
      next =>
        obtain ⟨found', there, h⟩ := Option.map_eq_some_iff.1 h
        cases h
        exact ⟨List.cons_ne_nil _ _, text, rfl, there⟩
      next => cases h

end

theorem takeSteps_some {steps : List PatternStep} {text taken rest : List Char}
    (h : takeSteps steps text = some (taken, rest)) : text = taken ++ rest := by
  induction steps generalizing text taken with
  | nil =>
    injection h with h
    cases h
    rfl
  | cons step steps ih =>
    obtain ⟨⟨one, more, after⟩, first, h⟩ := Option.map_eq_some_iff.1 h
    cases h
    obtain ⟨_, _, rfl, later⟩ := PatternStep.take_some first
    rw [ih later, List.append_assoc]

/-- What is behind a pattern is shorter than the text that it was found in. -/
theorem Spacing.length_rest {s : Spacing} {text front back rest : List Char}
    (h : s.take text = some (front, back, rest)) : rest.length < text.length := by
  obtain ⟨some, after, rfl, there⟩ := PatternStep.take_some h
  have := List.length_pos_iff.2 some
  rw [takeSteps_some there, List.length_append, List.length_append]
  omega

/-- A text with a blank in everything in it that a pattern finds, from left to right. -/
def Spacing.apply (s : Spacing) : List Char → List Char
  | [] => []
  | c :: text =>
    match _found : s.take (c :: text) with
    | some (front, back, rest) => front ++ ' ' :: (back ++ s.apply rest)
    | none => c :: s.apply text
termination_by text => text.length
decreasing_by
  · exact length_rest _found
  · exact Nat.lt_succ_self _

theorem Spacing.apply_of_some {s : Spacing} {text front back rest : List Char}
    (h : s.take text = some (front, back, rest)) : s.apply text = front ++ ' ' :: (back ++ s.apply rest) := by
  cases text with
  | nil => exact absurd (length_rest h) (Nat.not_lt_zero _)
  | cons c text =>
    rw [Spacing.apply]
    split
    next found =>
      rw [h] at found
      injection found with found
      cases found
      rfl
    next found =>
      rw [h] at found
      cases found

theorem Spacing.apply_of_none {s : Spacing} {c : Char} {text : List Char} (h : s.take (c :: text) = none) :
    s.apply (c :: text) = c :: s.apply text := by
  rw [Spacing.apply]
  split
  next found =>
    rw [h] at found
    cases found
  next => rfl

/-- A text with a blank before every character that a rule picks out, by the character before it and the text behind it. -/
def insertBlanks (picks : Char → Char → List Char → Bool) : List Char → List Char
  | c :: d :: rest =>
    if picks c d rest then c :: ' ' :: insertBlanks picks (d :: rest) else c :: insertBlanks picks (d :: rest)
  | text => text

theorem insertBlanks_of_not {picks : Char → Char → List Char → Bool} {c : Char} {text : List Char}
    (h : ∀ d rest, text = d :: rest → picks c d rest = false) :
    insertBlanks picks (c :: text) = c :: insertBlanks picks text := by
  cases text with
  | nil => rfl
  | cons d rest => rw [insertBlanks, if_neg (by simp [h d rest rfl])]

/-- Where a rule picks out whatever a pattern finds and nothing else, a search for the pattern finds all that the rule
picks out. -/
theorem Spacing.apply_eq_insertBlanks {s : Spacing} {picks : Char → Char → List Char → Bool}
    (found : ∀ {text front back rest}, s.take text = some (front, back, rest) →
      insertBlanks picks text = front ++ ' ' :: (back ++ insertBlanks picks rest))
    (notFound : ∀ {c d rest}, s.take (c :: d :: rest) = none → picks c d rest = false) (text : List Char) :
    s.apply text = insertBlanks picks text := by
  induction length : text.length using Nat.strong_induction_on generalizing text with
  | _ n ih =>
    subst length
    cases text with
    | nil =>
      rw [Spacing.apply, insertBlanks]
      simp
    | cons c text =>
      cases outcome : s.take (c :: text) with
      | some parts =>
        obtain ⟨front, back, rest⟩ := parts
        rw [apply_of_some outcome, found outcome, ih _ (length_rest outcome) rest rfl]
      | none =>
        rw [apply_of_none outcome, ih _ (Nat.lt_succ_self _) text rfl, insertBlanks_of_not]
        rintro d rest rfl
        exact notFound outcome

/-! ## Pieces and what is between them -/

theorem words_intercalate (pieces : List (List Char)) : words ([' '].intercalate pieces) = pieces.flatMap words := by
  have blank : (!isBlank ' ') = false := by decide
  induction pieces with
  | nil => rfl
  | cons piece pieces ih =>
    cases pieces with
    | nil => rw [List.intercalate_singleton, List.flatMap_singleton]
    | cons next pieces =>
      have apart : Apart (fun c => !isBlank c) piece (' ' :: [' '].intercalate (next :: pieces)) :=
        .inr fun c first => by
          cases first
          exact blank
      have skip : runsOf (fun c => !isBlank c) (' ' :: [' '].intercalate (next :: pieces)) =
          words ([' '].intercalate (next :: pieces)) := runsOf_cons_of_not blank _
      rw [List.intercalate_cons_cons, List.append_assoc, List.singleton_append, words, runsOf_append apart, skip,
        List.flatMap_cons, ← ih]
      rfl

/-- What separators part are the runs of other characters, and empty pieces. -/
theorem filter_splitOn (separator : Char) (text : List Char) :
    (text.splitOn separator).filter (· ≠ []) = runsOf (· != separator) text := by
  induction text using runs_induction (· != separator) with
  | nil => rfl
  | skip c rest outside ih =>
    have skip : runsOf (· != separator) (c :: rest) = runsOf (· != separator) rest :=
      @runsOf_cons_of_not (· != separator) c outside rest
    rw [skip, ← ih, List.splitOn_cons_eq_if_modifyHead, if_pos (by simpa using outside)]
    rfl
  | run c rest inside ih =>
    have first : runsOf (· != separator) (c :: rest) =
        (c :: rest.takeWhile (· != separator)) :: runsOf (· != separator) (rest.dropWhile (· != separator)) :=
      @runsOf_cons_of (· != separator) c inside rest
    have own : separator ∉ c :: rest.takeWhile (· != separator) := by
      intro there
      rcases List.mem_cons.1 there with rfl | later
      · simp at inside
      · simpa using List.mem_takeWhile_imp later
    have whole : c :: rest = (c :: rest.takeWhile (· != separator)) ++ rest.dropWhile (· != separator) := by simp
    rw [first, ← ih, whole]
    cases behind : rest.dropWhile (· != separator) with
    | nil =>
      rw [List.append_nil, List.splitOn_eq_singleton own]
      rfl
    | cons d after =>
      obtain rfl : d = separator := by
        have stops := List.head?_dropWhile_not (· != separator) rest
        rw [behind] at stops
        simpa using stops
      rw [List.splitOn_append_cons_self_of_not_mem own, List.splitOn_cons_eq_if_modifyHead, if_pos (by simp)]
      rfl

end Text

end CodeSearch
