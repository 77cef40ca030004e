import CodeSearch.Text.Blank
import Mathlib.Data.List.TakeWhile
import Mathlib.Tactic
/-!
# Runs of a text

A text may be cut wherever no run goes across: the runs of its two parts are its runs (`runsOf_append`). So what is
between the runs can be left out, and put in. One behind the other the runs are what the text has of such characters
(`flatten_runsOf`). A text can be cut at a separator in one way only, if it is known how many others stand before that
(`append_separator_inj`).
-/

namespace CodeSearch.Text

variable {keep : Char → Bool}

/-- No run goes on behind a text: if there is a last character, it is in none. -/
def Ends (keep : Char → Bool) (text : List Char) : Prop := ∀ c ∈ text.getLast?, keep c = false

/-- No run comes in from before a text: if there is a first character, it is in none. -/
def Starts (keep : Char → Bool) (text : List Char) : Prop := ∀ c ∈ text.head?, keep c = false

instance (keep : Char → Bool) (text : List Char) : Decidable (Ends keep text) :=
  decidable_of_iff (text.getLast?.all fun c => !keep c) (by cases last : text.getLast? <;> simp [Ends, last])

instance (keep : Char → Bool) (text : List Char) : Decidable (Starts keep text) :=
  decidable_of_iff (text.head?.all fun c => !keep c) (by cases first : text.head? <;> simp [Starts, first])

theorem Ends.append {a b : List Char} (ha : Ends keep a) (hb : Ends keep b) : Ends keep (a ++ b) := by
  intro c hc
  rw [List.getLast?_append, Option.mem_def, Option.or_eq_some_iff] at hc
  rcases hc with last | ⟨_, last⟩
  · exact hb c last
  · exact ha c last

theorem Starts.append {a b : List Char} (ha : Starts keep a) (hb : Starts keep b) : Starts keep (a ++ b) := by
  intro c hc
  rw [List.head?_append, Option.mem_def, Option.or_eq_some_iff] at hc
  rcases hc with first | ⟨_, first⟩
  · exact ha c first
  · exact hb c first

/-- Between two texts no run goes across: one of the characters that meet is in none. -/
def Apart (keep : Char → Bool) (a b : List Char) : Prop := Ends keep a ∨ Starts keep b

theorem Apart.nil_left (b : List Char) : Apart keep [] b := .inl fun _ hc => by cases hc

theorem Apart.append_right {a b : List Char} (h : Apart keep a b) (some : b ≠ []) (c : List Char) :
    Apart keep a (b ++ c) := by
  refine h.imp_right fun first => ?_
  rwa [Starts, List.head?_append_of_ne_nil _ some]

/-- What stands before the left text may be put to it, if no run goes on behind it. -/
theorem Apart.extend_left {a b c : List Char} (h : Apart keep a b) (ends : Ends keep c) : Apart keep (c ++ a) b :=
  h.imp_left ends.append

/-- What stands behind the right text may be put to it, if no run comes in from before it. -/
theorem Apart.extend_right {a b c : List Char} (h : Apart keep a b) (starts : Starts keep c) : Apart keep a (b ++ c) :=
  h.imp_right fun first => first.append starts

theorem Apart.tail {c : Char} {a b : List Char} (h : Apart keep (c :: a) b) : Apart keep a b := by
  cases a with
  | nil => exact .nil_left b
  | cons d a => exact h.imp_left fun last => by rwa [Ends, List.getLast?_cons_cons] at last

theorem runsOf_cons_of_not {c : Char} (h : keep c = false) (rest : List Char) :
    runsOf keep (c :: rest) = runsOf keep rest := by
  cases rest <;> simp [runsOf, h]

/-- A text that starts with a character of a run starts with a run. -/
theorem exists_runsOf_cons {c : Char} (h : keep c = true) (rest : List Char) :
    ∃ run runs, runsOf keep (c :: rest) = run :: runs := by
  cases rest with
  | nil => exact ⟨[c], [], by simp [runsOf, h]⟩
  | cons d rest =>
    rw [runsOf, if_pos h]
    split
    · split
      next run runs _ => exact ⟨c :: run, runs, rfl⟩
      next => exact ⟨[c], [], rfl⟩
    · exact ⟨[c], _, rfl⟩

theorem runsOf_append {a b : List Char} (apart : Apart keep a b) :
    runsOf keep (a ++ b) = runsOf keep a ++ runsOf keep b := by
  induction a with
  | nil => rfl
  | cons c a ih =>
    have rest := ih apart.tail
    cases inRun : keep c with
    | false => rw [List.cons_append, runsOf_cons_of_not inRun, runsOf_cons_of_not inRun, rest]
    | true =>
      cases a with
      | nil =>
        -- the run of the last character ends here
        cases b with
        | nil => simp [runsOf]
        | cons d b =>
          have ends : keep d = false := by
            rcases apart with last | first
            · exact absurd (last c rfl) (by simp [inRun])
            · exact first d rfl
          simp [runsOf, inRun, ends]
      | cons d a =>
        cases inNext : keep d with
        | false =>
          have alone (text : List Char) : runsOf keep (c :: d :: text) = [c] :: runsOf keep (d :: text) := by
            rw [runsOf, if_pos inRun]
            simp [inNext]
          rw [List.cons_append, List.cons_append, alone, alone, ← List.cons_append, rest, List.cons_append]
        | true =>
          have joins {text run : List Char} {runs : List (List Char)} (next : runsOf keep (d :: text) = run :: runs) :
              runsOf keep (c :: d :: text) = (c :: run) :: runs := by
            rw [runsOf, if_pos inRun]
            simp [inNext, next]
          obtain ⟨run, runs, next⟩ := exists_runsOf_cons inNext a
          have next' : runsOf keep (d :: (a ++ b)) = run :: (runs ++ runsOf keep b) := by
            rw [← List.cons_append, rest, next, List.cons_append]
          rw [List.cons_append, List.cons_append, joins next', joins next, List.cons_append]

/-! ## What the runs are -/

/-- A text of one run. -/
theorem runsOf_eq_singleton : ∀ {text : List Char}, text ≠ [] → (∀ c ∈ text, keep c = true) →
    runsOf keep text = [text]
  | [c], _, kept => by simp [runsOf, kept c]
  | c :: d :: rest, _, kept => by
    have next : runsOf keep (d :: rest) = [d :: rest] :=
      runsOf_eq_singleton (List.cons_ne_nil d rest) fun e he => kept e (List.mem_cons_of_mem c he)
    rw [runsOf, if_pos (kept c (by simp)), next]
    simp [kept d]

/-- A run goes on as far as it can. -/
theorem runsOf_cons_of {c : Char} (h : keep c = true) (rest : List Char) :
    runsOf keep (c :: rest) = (c :: rest.takeWhile keep) :: runsOf keep (rest.dropWhile keep) := by
  have ends : Starts keep (rest.dropWhile keep) := by
    intro d first
    have stops := List.head?_dropWhile_not keep rest
    rwa [Option.mem_def.1 first] at stops
  have inside : ∀ d ∈ c :: rest.takeWhile keep, keep d = true :=
    List.forall_mem_cons.2 ⟨h, fun d hd => List.mem_takeWhile_imp hd⟩
  have parts : c :: rest = (c :: rest.takeWhile keep) ++ rest.dropWhile keep := by simp
  conv_lhs => rw [parts]
  rw [runsOf_append (.inr ends), runsOf_eq_singleton (List.cons_ne_nil _ _) inside, List.singleton_append]

/-- What holds of a text if it holds of what is behind its first character, where that is in no run, and behind its first
run, where it starts with one, holds of every text. -/
theorem runs_induction (keep : Char → Bool) {motive : List Char → Prop} (nil : motive [])
    (skip : ∀ c rest, keep c = false → motive rest → motive (c :: rest))
    (run : ∀ c rest, keep c = true → motive (rest.dropWhile keep) → motive (c :: rest)) (text : List Char) : motive text := by
  induction length : text.length using Nat.strong_induction_on generalizing text with
  | _ n ih =>
    subst length
    cases text with
    | nil => exact nil
    | cons c rest =>
      cases inRun : keep c with
      | false => exact skip c rest inRun (ih _ (Nat.lt_succ_self _) rest rfl)
      | true =>
        have shorter : (rest.dropWhile keep).length < (c :: rest).length :=
          Nat.lt_succ_of_le (List.dropWhile_sublist _).length_le
        exact run c rest inRun (ih _ shorter _ rfl)

theorem flatten_runsOf (keep : Char → Bool) (text : List Char) : (runsOf keep text).flatten = text.filter keep := by
  induction text using runs_induction keep with
  | nil => rfl
  | skip c rest outside ih => rw [runsOf_cons_of_not outside, ih, List.filter_cons_of_neg (by simp [outside])]
  | run c rest inRun ih =>
    have whole : (rest.takeWhile keep).filter keep = rest.takeWhile keep :=
      List.filter_eq_self.2 fun d hd => List.mem_takeWhile_imp hd
    have split : rest.filter keep = rest.takeWhile keep ++ (rest.dropWhile keep).filter keep := by
      conv_lhs => rw [← List.takeWhile_append_dropWhile (p := keep) (l := rest), List.filter_append, whole]
    rw [runsOf_cons_of inRun, List.flatten_cons, ih, List.filter_cons_of_pos inRun, split, List.cons_append]

/-- A run lies within the text, and is one. -/
theorem mem_runsOf {text run : List Char} (h : run ∈ runsOf keep text) :
    run ≠ [] ∧ (∀ c ∈ run, keep c = true) ∧ run <:+: text := by
  induction text using runs_induction keep with
  | nil => cases h
  | skip c rest outside ih =>
    rw [runsOf_cons_of_not outside] at h
    obtain ⟨some, inside, within⟩ := ih h
    exact ⟨some, inside, within.trans (List.suffix_cons c rest).isInfix⟩
  | run c rest inRun ih =>
    rw [runsOf_cons_of inRun] at h
    rcases List.mem_cons.1 h with rfl | later
    · refine ⟨List.cons_ne_nil _ _, List.forall_mem_cons.2 ⟨inRun, fun d hd => List.mem_takeWhile_imp hd⟩, ?_⟩
      exact ((List.prefix_cons_inj c).2 (List.takeWhile_prefix keep)).isInfix
    · obtain ⟨some, inside, within⟩ := ih later
      exact ⟨some, inside, within.trans ((List.dropWhile_suffix keep).trans (List.suffix_cons c rest)).isInfix⟩

/-! ## Separators -/

/-- Before a separator there is one text, once it is known how many others that has. -/
theorem append_separator_inj {α : Type} [DecidableEq α] {separator : α} {a b c d : List α}
    (same : a ++ separator :: b = c ++ separator :: d) (count : a.count separator = c.count separator) : a = c ∧ b = d := by
  induction a generalizing c with
  | nil =>
    cases c with
    | nil =>
      injection same with _ same
      exact ⟨rfl, same⟩
    | cons x c =>
      -- a text that begins with the separator has one more of them than the empty one
      injection same with first _
      subst first
      simp at count
  | cons y a ih =>
    cases c with
    | nil =>
      injection same with first _
      subst first
      simp at count
    | cons x c =>
      injection same with first same
      subst first
      obtain ⟨rfl, rfl⟩ := ih same (by simpa [List.count_cons] using count)
      exact ⟨rfl, rfl⟩

end CodeSearch.Text
