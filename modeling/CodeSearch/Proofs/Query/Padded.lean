import CodeSearch.Proofs.Query.Conserved
import CodeSearch.Proofs.Query.Seams
/-!
# Blanks around a query

Blanks around a text change nothing of what is read of it, query or issue, with one exception: an operator that dangles
at an end of the text reads as a blank as soon as the padding puts it between other characters (`parse_padded`).
-/

namespace CodeSearch.Query

variable {position : Nat} {text tail : List Char} {result : Except (Issue × Nat) (List Clause)}

/-! ## What stays -/

theorem startsBlank_of_blank (blank : ∀ c ∈ tail, Text.isBlank c = true) (some : tail ≠ []) : StartsBlank tail := by
  obtain ⟨c, rest, rfl⟩ := List.exists_cons_of_ne_nil some
  exact ⟨c, rfl, blank c List.mem_cons_self⟩

theorem noQuote_of_blank (blank : ∀ c ∈ tail, Text.isBlank c = true) : '"' ∉ tail := by
  intro there
  have := blank _ there
  revert this
  decide

theorem scan_blanks (position : Nat) {blanks : List Char} (blank : ∀ c ∈ blanks, Text.isBlank c = true)
    (text : List Char) : scan position (blanks ++ text) = scan (position + blanks.length) text := by
  induction blanks generalizing position with
  | nil => rfl
  | cons c blanks ih =>
    have skipped : Skipped position c (blanks ++ text) := .blank (blank c List.mem_cons_self)
    rw [List.cons_append, skipped.scan_eq, ih (position + 1) fun d hd => blank d (List.mem_cons_of_mem c hd),
      List.length_cons, Nat.add_assoc, Nat.add_comm 1]

/-- An issue stays if blanks follow, but for an operator that was the last character and not the first one. -/
theorem Breaks.padded {issue : Issue} {offset : Nat} (h : Breaks position text issue offset)
    (blank : ∀ c ∈ tail, Text.isBlank c = true) (some : tail ≠ [])
    (kept : ∀ c, issue = .dangling c → text.length = 1 → position = 0) : Breaks position (text ++ tail) issue offset := by
  cases h with
  | @dangling c rest operator lost =>
    -- a blank stands behind it now, so that it dangles as the first character alone
    refine .dangling operator (.inr ?_)
    rcases lost with rfl | ⟨first, gap⟩
    · exact ⟨kept c rfl rfl, startsBlank_of_blank blank some⟩
    · exact ⟨first, gap.append tail⟩
  | @unbalanced operator rest noQuote =>
    rw [List.append_assoc, List.cons_append]
    refine .unbalanced ?_
    rw [List.mem_append]
    exact not_or.2 ⟨noQuote, noQuote_of_blank blank⟩
  | @emptyPhrase operator body rest noQuote none =>
    rw [List.append_assoc, List.cons_append, List.append_assoc, List.cons_append]
    exact .emptyPhrase noQuote none

theorem Reads.padded (h : Reads position text result) {issue : Issue} {place : Nat} (failed : result = .error (issue, place))
    (blank : ∀ c ∈ tail, Text.isBlank c = true) (some : tail ≠ [])
    (kept : ∀ c, issue = .dangling c → place + 1 = position + text.length → place = 0) :
    Reads position (text ++ tail) result := by
  have gap := startsBlank_of_blank blank some
  induction h with
  | done => cases failed
  | @skip position c rest _ skipped _ ih =>
    refine .skip (skipped.append tail) (ih failed fun d dangling last => kept d dangling ?_)
    rw [List.length_cons]
    omega
  | @term position piece rest clause result term _ ih =>
    cases result with
    | ok later => cases failed
    | error found =>
      rw [List.append_assoc]
      refine .term (term.append gap.starts) (ih failed fun d dangling last => kept d dangling ?_)
      rw [List.length_append]
      omega
  | @fault position offset text issue breaks =>
    cases failed
    refine .fault (breaks.padded blank some fun c dangling alone => ?_)
    have first : offset = 0 := by
      cases breaks with
      | dangling => rfl
      | unbalanced => cases dangling
      | emptyPhrase => cases dangling
    have := kept c dangling (by omega)
    omega

/-- An issue stays in the padded text, unless it is an operator that is neither the first nor the last character of it. -/
theorem Reads.stays {issue : Issue} {place : Nat} (h : Reads 0 text (.error (issue, place)))
    (blank : ∀ c ∈ tail, Text.isBlank c = true) (shift : Nat)
    (edge : ∀ c, issue = .dangling c → shift + place = 0 ∨ text.length + tail.length ≤ place + 1) :
    Reads shift (text ++ tail) (.error (issue, shift + place)) := by
  have followed : Reads 0 (text ++ tail) (.error (issue, place)) := by
    by_cases none : tail = []
    · rwa [none, List.append_nil]
    · refine h.padded rfl blank none fun c dangling last => ?_
      have some := List.length_pos_iff.2 none
      have := edge c dangling
      omega
  -- the text has a character at least, so an operator that was its first one and stays the last one is all of it
  obtain ⟨before, c, _, rest, rfl, _⟩ := h.place rfl
  have there := followed.later shift fun _ c failed => by
    obtain ⟨dangling, first⟩ := Prod.mk.inj (Except.error.inj failed)
    have := edge c dangling
    simp only [List.length_append, List.length_cons] at this ⊢
    omega
  rwa [Nat.zero_add, moved, Except.mapError, Nat.add_comm place] at there

/-- Blanks behind a text that can be read add nothing. -/
theorem Reads.followed (h : Reads position text result) {clauses : List Clause} (read : result = .ok clauses)
    (blank : ∀ c ∈ tail, Text.isBlank c = true) : Reads position (text ++ tail) (.ok clauses) := by
  by_cases none : tail = []
  · rwa [none, List.append_nil, ← read]
  · have nothing : scan (position + text.length) tail = .ok [] := by
      have := scan_blanks (position + text.length) blank []
      rwa [List.append_nil, Reads.done.scan_eq] at this
    have all := h.append read (startsBlank_of_blank blank none) (scan_iff.1 nothing)
    simpa [Except.map] using all

/-! ## What is freed -/

theorem StartsBlank.set {rest : List Char} (h : StartsBlank rest) (n : Nat) : StartsBlank (rest.set n ' ') := by
  obtain ⟨c, first, blank⟩ := h
  obtain ⟨more, rfl⟩ := List.head?_eq_some_iff.1 first
  cases n with
  | zero => exact ⟨' ', rfl, by decide⟩
  | succ n => exact ⟨c, rfl, blank⟩

theorem starts_set {rest : List Char} (h : Text.Starts inWord rest) (n : Nat) : Text.Starts inWord (rest.set n ' ') := by
  cases rest with
  | nil => exact h
  | cons c rest =>
    cases n with
    | zero => exact StartsBlank.starts ⟨' ', rfl, by decide⟩
    | succ n => exact h

theorem Skipped.set {c : Char} {rest : List Char} (h : Skipped position c rest) (n : Nat) :
    Skipped position c (rest.set n ' ') :=
  h.before fun gap => gap.set n

theorem Term.set {piece rest : List Char} {clause : Clause} (h : Term piece clause rest) (n : Nat) :
    Term piece clause (rest.set n ' ') :=
  h.before fun ends => starts_set ends n

/-- An operator that dangles in a text reads as a blank, if the text moves away from the start of the query or blanks
follow it so that the operator is neither the first nor the last character. -/
theorem Reads.freed (h : Reads position text result) {c : Char} {offset : Nat}
    (failed : result = .error (.dangling c, position + offset)) (blank : ∀ c ∈ tail, Text.isBlank c = true) (shift : Nat)
    (later : 0 < position + offset + shift) (inner : offset + 1 < (text ++ tail).length) :
    scan (position + shift) (text ++ tail) = scan (position + shift) (text.set offset ' ' ++ tail) := by
  induction h generalizing offset with
  | done => cases failed
  | @skip position d rest _ skipped reads ih =>
    -- the operator is further back
    obtain ⟨before, _, _, _, _, place⟩ := reads.place failed
    obtain ⟨n, rfl⟩ : ∃ n, offset = n + 1 := ⟨before.length, by omega⟩
    rw [List.set_cons_succ, List.cons_append, List.cons_append, ((skipped.later shift).append tail).scan_eq,
      (((skipped.set n).later shift).append tail).scan_eq, Nat.add_right_comm]
    have inner : n + 1 < (rest ++ tail).length := by simpa using inner
    refine ih ?_ (by omega) inner
    rw [failed, Nat.add_assoc, Nat.add_comm 1]
  | @term position piece rest clause result term reads ih =>
    cases result with
    | ok others => cases failed
    | error found =>
      cases failed
      obtain ⟨before, _, _, _, _, place⟩ := reads.place rfl
      obtain ⟨n, rfl⟩ : ∃ n, offset = piece.length + n := ⟨before.length, by omega⟩
      have starts : Text.Starts inWord tail := by
        by_cases none : tail = []
        · rw [none]
          intro _ hc
          cases hc
        · exact (startsBlank_of_blank blank none).starts
      have set : (piece ++ rest).set (piece.length + n) ' ' = piece ++ rest.set n ' ' := by simp
      rw [set, List.append_assoc, List.append_assoc, (term.append starts).scan_eq, ((term.set n).append starts).scan_eq,
        Nat.add_right_comm]
      have inner : n + 1 < (rest ++ tail).length := by
        simp only [List.length_append] at inner ⊢
        omega
      rw [ih (by rw [Nat.add_assoc]) (by omega) inner]
  | @fault position offset' text issue breaks =>
    cases breaks with
    | unbalanced => cases failed
    | emptyPhrase => cases failed
    | @dangling d rest operator lost =>
      obtain rfl : offset = 0 := by
        have := (Prod.mk.inj (Except.error.inj failed)).2
        omega
      have gap : StartsBlank (rest ++ tail) := by
        rcases lost with rfl | ⟨_, gap⟩
        · refine startsBlank_of_blank blank fun none => ?_
          simp [none] at inner
        · exact gap.append tail
      have alone : Skipped (position + shift) d (rest ++ tail) := .alone operator later gap
      have blank : Skipped (position + shift) ' ' (rest ++ tail) := .blank (by decide)
      rw [List.set_cons_zero, List.cons_append, List.cons_append, alone.scan_eq, blank.scan_eq]

/-! ## Padded queries -/

/-- The operator that is told of as dangling stands between other characters, once blanks are put around the text. -/
def SyntaxError.IsFreed (e : SyntaxError) (u v : String) : Prop :=
  (∃ c, e.issue = .dangling c) ∧ 0 < u.length + e.position ∧ e.position + 1 < e.query.length + v.length

/-- The text with a blank in the place that is told of. -/
def SyntaxError.blanked (e : SyntaxError) : String := String.ofList (e.query.toList.set e.position ' ')

theorem parse_congr {s t : String} (same : scan 0 s.toList = scan 0 t.toList) (q : Query) :
    parse s = .ok q ↔ parse t = .ok q := by
  simp only [parse_eq_ok, ← scan_iff, same]

/-- Blanks around a text that can be read change nothing. Of a text that cannot be read they change nothing either, and
the same is told of the same place, unless an operator is freed by them: that reads as a blank then. -/
theorem parse_padded (text : String) {u v : String} (before : Text.allBlank u = true) (after : Text.allBlank v = true) :
    (∀ q, parse text = .ok q → parse (u ++ text ++ v) = .ok q) ∧
    ∀ e, parse text = .error e →
      (¬ e.IsFreed u v → parse (u ++ text ++ v) = .error ⟨e.issue, u ++ text ++ v, u.length + e.position⟩) ∧
      (e.IsFreed u v → ∀ q, parse (u ++ text ++ v) = .ok q ↔ parse (u ++ e.blanked ++ v) = .ok q) := by
  have before : ∀ c ∈ u.toList, Text.isBlank c = true := List.all_eq_true.1 before
  have after : ∀ c ∈ v.toList, Text.isBlank c = true := List.all_eq_true.1 after
  have lead (s : String) : scan 0 (u ++ s ++ v).toList = scan u.length (s.toList ++ v.toList) := by
    rw [String.toList_append, String.toList_append, List.append_assoc, scan_blanks 0 before, Nat.zero_add,
      String.length_toList]
  refine ⟨fun q read => ?_, fun e failed => ⟨fun held => ?_, fun freed q => ?_⟩⟩
  · obtain ⟨clauses, reads, rfl⟩ := parse_eq_ok.1 read
    refine parse_eq_ok.2 ⟨clauses, scan_iff.1 ?_, rfl⟩
    have there := (reads.followed rfl after).later u.length nofun
    rw [lead, ← Nat.zero_add u.length, there.scan_eq]
    rfl
  · obtain ⟨reads, rfl⟩ := parse_eq_error.1 failed
    refine parse_eq_error.2 ⟨scan_iff.1 ?_, rfl⟩
    have stays := reads.stays after u.length fun c dangling => by
      by_contra inner
      rw [not_or, String.length_toList, String.length_toList] at inner
      exact held ⟨⟨c, dangling⟩, Nat.pos_of_ne_zero inner.1, Nat.lt_of_not_le inner.2⟩
    rw [lead, stays.scan_eq]
  · obtain ⟨reads, rfl⟩ := parse_eq_error.1 failed
    obtain ⟨⟨c, dangling⟩, behind, inner⟩ := freed
    rw [dangling, ← Nat.zero_add e.position] at reads
    have inside : e.position + 1 < (e.query.toList ++ v.toList).length := by
      rwa [List.length_append, String.length_toList, String.length_toList]
    have blanked := reads.freed rfl after u.length (by omega) inside
    rw [Nat.zero_add] at blanked
    refine parse_congr ?_ q
    rw [lead, lead, SyntaxError.blanked, String.toList_ofList, blanked]

/-- An operator at the end of a text dangles behind blanks as well. With a blank behind it, it reads as a blank. -/
theorem parse_padded_dangling :
    (Text.allBlank "\t " = true ∧ Text.allBlank "" = true ∧ Text.allBlank " " = true) ∧
      parse ("\t " ++ "login -" ++ "") = .error ⟨.dangling '-', "\t login -", 8⟩ ∧
      ∀ q, parse ("\t " ++ "login -" ++ " ") = .ok q ↔ parse ("\t " ++ "login  " ++ " ") = .ok q := by
  have before : Text.allBlank "\t " = true := by decide
  have nothing : Text.allBlank "" = true := by decide
  have after : Text.allBlank " " = true := by decide
  have dangles : parse "login -" = .error ⟨.dangling '-', "login -", 6⟩ := by cbv
  refine ⟨⟨before, nothing, after⟩, ?_, ?_⟩
  · exact ((parse_padded "login -" before nothing).2 _ dangles).1 fun freed => absurd freed.2.2 (by decide)
  · exact ((parse_padded "login -" before after).2 _ dangles).2 ⟨⟨'-', rfl⟩, by decide, by decide⟩

end CodeSearch.Query
