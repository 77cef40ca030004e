import CodeSearch.Graph.Score
import CodeSearch.Proofs.Chunk.Checks
import CodeSearch.Proofs.Keyed
/-!
# The terms of relations

A kept text is no name of another value (`namesText_of_kept`), since a mark in it stands before a private character. So
all relations of chunks that were made of records have terms, and the graph of such chunks is made without a fault
(`rebuild_of_made`) and has scores for all of them (`queryScores_ok`, `patternScores_ok`).
-/

namespace CodeSearch.Text

/-- A private character, which is kept behind a mark. -/
def IsPrivate (c : Char) : Prop := 0xf57ff ≤ c.toNat

theorem isPrivate_of_marked {c d : Char} {rest : List Char} (h : keepChar c = mark :: d :: rest) : IsPrivate d := by
  unfold keepChar at h
  split at h
  next marked =>
    have same : c = d := by simpa using congrArg List.tail h |> List.cons.inj |> And.left
    rw [← same, IsPrivate]
    rw [Bool.or_eq_true, decide_eq_true_eq] at marked
    rcases marked with rfl | half
    · rw [toNat_mark]
    · have unit : isHalf (c.toNat - halfShift) = true := by
        by_contra none
        rw [half?, if_neg none] at half
        cases half
      have := (isHalf_iff _).1 unit
      rw [halfShift] at this
      omega
  next => cases h

/-- A mark at the head of a kept text stands before a private character. -/
theorem private_of_mark {rest : List Char} (h : IsKept (mark :: rest)) :
    ∃ c more, rest = c :: more ∧ IsPrivate c := by
  obtain ⟨codes, all, eq⟩ := h
  cases codes with
  | nil => cases eq
  | cons code codes =>
    rw [List.flatMap_cons] at eq
    unfold ofCode at eq
    split at eq
    next half => exact absurd (List.cons.inj eq).1.symm (halfChar_ne_mark half)
    next =>
      unfold keepChar at eq
      split at eq
      next marked =>
        have pair : keepChar (Char.ofNat code) = [mark, Char.ofNat code] := if_pos marked
        exact ⟨_, _, (List.cons.inj eq).2, isPrivate_of_marked pair⟩
      next plain =>
        have first := (List.cons.inj eq).1
        rw [← first] at plain
        simp at plain

end CodeSearch.Text

namespace CodeSearch.Json

open CodeSearch.Text

section Private
variable {c : Char} (h : IsPrivate c)
include h

theorem ne_of_private {d : Char} (hd : d.toNat < 128) : c ≠ d := by
  rintro rfl
  rw [IsPrivate] at h
  omega

theorem readValue_private (fuel depth : Nat) (more : List Char) :
    readValue (fuel + 1) depth (c :: more) = .error ⟨.expectedValue, c :: more⟩ := by
  have ne {d : Char} (hd : d.toNat < 128) : c ≠ d := ne_of_private h hd
  have digit : isDigit c = false := by
    have above : ¬ c ≤ '9' := by
      intro le
      have : c.toNat ≤ '9'.toNat := le
      rw [IsPrivate] at h
      have nine : '9'.toNat = 57 := rfl
      omega
    simp [isDigit, above]
  have whole : readWhole? (c :: more) = none := by
    unfold readWhole?
    split
    next e => exact absurd (List.cons.inj e).1 (ne (by decide))
    next e =>
      rw [← (List.cons.inj e).1, digit]
      rfl
    next => rfl
  have number : readNumber (c :: more) = .error ⟨.expectedValue, c :: more⟩ := by
    unfold readNumber
    simp [ne (d := '-') (by decide), whole]
  rw [readValue.eq_def]
  simp [readWord, number, ne (d := '"') (by decide), ne (d := '\x7b') (by decide), ne (d := '[') (by decide),
    ne (d := 'n') (by decide), ne (d := 't') (by decide), ne (d := 'f') (by decide), ne (d := 'N') (by decide),
    ne (d := 'I') (by decide), ne (d := '-') (by decide)]

/-- No value begins with a private character. -/
theorem parse_private (more : List Char) : ∃ e, parse (String.ofList (c :: more)) = .error e := by
  have ne {d : Char} (hd : d.toNat < 128) : c ≠ d := ne_of_private h hd
  have gap : skipGap (c :: more) = c :: more := by
    have none : isGap c = false := by
      simp [isGap, ne (d := ' ') (by decide), ne (d := '\t') (by decide), ne (d := '\n') (by decide),
        ne (d := '\r') (by decide)]
    rw [skipGap, List.dropWhile_cons_of_neg (by simp [none])]
  have noMark : ∀ rest, c :: more = '\ufeff' :: rest → False := by
    intro rest e
    rw [(List.cons.inj e).1, IsPrivate] at h
    exact absurd h (by decide)
  rw [parse, String.toList_ofList, parseChars.eq_def]
  split
  next rest e => exact (noMark rest e).elim
  next =>
    rw [gap, readValue_private h]
    exact ⟨_, rfl⟩

end Private

theorem namesText_of_private {name : String}
    (h : ∀ rest, name.toList = mark :: rest → ∃ c more, rest = c :: more ∧ IsPrivate c) : namesText name = true := by
  unfold namesText ofEntryName
  split
  next text => rfl
  next noText =>
    exfalso
    split at noText
    next c rest eq =>
      split at noText
      next marked =>
        obtain ⟨d, more, rfl, isPrivate⟩ := h rest (marked ▸ eq)
        obtain ⟨e, failed⟩ := parse_private isPrivate more
        rw [failed] at noText
        exact noText name rfl
      next => exact noText name rfl
    next => exact noText name rfl

/-- A kept text names a text. -/
theorem namesText_of_kept {name : String} (h : IsKept name.toList) : namesText name = true :=
  namesText_of_private fun _ eq => private_of_mark (eq ▸ h)

end CodeSearch.Json

namespace CodeSearch.Relations

open CodeSearch.Text

variable {c : Chunk} {r : Relations} {m : Keyed String (List String)}

/-- A text is what stands before the last of some character in it, that character, and the rest. -/
theorem cut_at_last {text : List Char} {dot : Char} (h : dot ∈ text) :
    ∃ last, text = (text.reverse.dropWhile (· ≠ dot)).tail.reverse ++ dot :: last := by
  have cut : ∀ {text : List Char}, dot ∈ text → ∃ first, text = first ++ dot :: (text.dropWhile (· ≠ dot)).tail := by
    intro text
    induction text with
    | nil => nofun
    | cons c text ih =>
      intro h
      by_cases same : c = dot
      · exact ⟨[], by simp [same]⟩
      · obtain ⟨first, eq⟩ := ih ((List.mem_cons.1 h).resolve_left (Ne.symm same))
        refine ⟨c :: first, ?_⟩
        rw [List.dropWhile_cons_of_pos (by simpa using same), List.cons_append, ← eq]
  obtain ⟨first, eq⟩ := cut (List.mem_reverse.2 h)
  refine ⟨first.reverse, ?_⟩
  have reversed := congrArg List.reverse eq
  rw [List.reverse_reverse, List.reverse_append, List.reverse_cons, List.append_assoc, List.singleton_append] at reversed
  exact reversed

/-- What stands before the last dot of a kept text names a text. -/
theorem namesText_qualifier {name qualifier : String} (h : IsKept name.toList) (found : qualifier? name = some qualifier) :
    Json.namesText qualifier = true := by
  unfold qualifier? at found
  split at found
  next dotted =>
    injection found with found
    obtain ⟨last, cut⟩ := cut_at_last (by simpa using dotted)
    have before : (name.toList.reverse.dropWhile (· ≠ '.')).tail.reverse = qualifier.toList := by
      rw [← found, String.toList_ofList]
    rw [before] at cut
    refine Json.namesText_of_private fun rest eq => ?_
    rw [eq, List.cons_append] at cut
    obtain ⟨d, more, same, isPrivate⟩ := private_of_mark (cut ▸ h)
    cases rest with
    | nil =>
      rw [List.nil_append] at same
      rw [← (List.cons.inj same).1] at isPrivate
      exact absurd isPrivate (by rw [IsPrivate]; decide)
    | cons d' rest =>
      rw [List.cons_append] at same
      exact ⟨d', rest, rfl, (List.cons.inj same).1 ▸ isPrivate⟩
  next => cases found

theorem areTexts_note (h : areTexts m = true) {key : String} {values : List String}
    (hv : ∀ name ∈ values, Json.namesText name = true) : areTexts (note m key values) = true := by
  unfold note
  split
  · exact h
  · rw [areTexts, List.all_eq_true] at h ⊢
    intro names hn
    obtain ⟨item, hi, rfl⟩ := List.mem_map.1 hn
    rcases Keyed.mem_items_put hi with old | rfl
    · exact h _ (List.mem_map_of_mem old)
    · exact List.all_eq_true.2 hv

/-- A chunk that was made of a record brings relations with terms. -/
theorem haveTerms_enter (h : r.haveTerms = true) (read : c.Made) : (r.enter c).haveTerms = true := by
  have kept {names : List String} (hn : ∀ name ∈ names, IsKept name.toList) :
      ∀ name ∈ firsts names, Json.namesText name = true :=
    fun name hf => Json.namesText_of_kept (hn name (mem_firsts.1 hf))
  simp only [haveTerms, Bool.and_eq_true] at h ⊢
  obtain ⟨⟨⟨hCalls, hImports⟩, hRoutes⟩, hPackages⟩ := h
  refine ⟨⟨⟨?_, ?_⟩, ?_⟩, ?_⟩
  · rw [enter, Chunk.elementNames_of_checked read.checked "api_call_sequence"]
    exact areTexts_note hCalls (kept read.apiCalls)
  · rw [enter, Chunk.elementNames_of_checked read.checked "imports"]
    exact areTexts_note hImports (kept read.imports)
  · rw [enter, routesOf, Chunk.facts_of_checked read.checked]
    refine areTexts_note hRoutes (kept fun name hn => ?_)
    obtain ⟨pair, hp, rfl⟩ := List.mem_map.1 hn
    have fact := Json.textsKept_obj.1 read.structuralMapping (pair.1, .str pair.2)
      (List.mem_map.2 ⟨pair, (List.mem_filter.1 hp).1, rfl⟩)
    exact Json.textsKept_str.1 fact.2
  · have named : ∀ p ∈ package? c, Json.namesText p = true := by
      intro p hp
      rw [package?, Chunk.packageName?_of_checked read.checked, Option.mem_def, Option.or_eq_some_iff] at hp
      rcases hp with own | ⟨_, qualified⟩
      · exact Json.namesText_of_kept (read.package p (Option.filter_eq_some_iff.1 own).1)
      · obtain ⟨name, there, found⟩ := Option.bind_eq_some_iff.1 (Option.filter_eq_some_iff.1 qualified).1
        exact namesText_qualifier (read.qualifiedName name there) found
    rw [enter]
    simp only []
    cases found : package? c with
    | none => exact hPackages
    | some p =>
      rw [List.all_eq_true] at hPackages ⊢
      intro value hv
      obtain ⟨item, hi, rfl⟩ := List.mem_map.1 hv
      rcases Keyed.mem_items_put hi with old | rfl
      · exact hPackages _ (List.mem_map_of_mem old)
      · exact named p found

theorem haveTerms_ofChunks {chunks : List Chunk} (read : ∀ c ∈ chunks, c.Made) :
    (ofChunks chunks).haveTerms = true := by
  have all : ∀ {r : Relations}, r.haveTerms = true → (chunks.foldl enter r).haveTerms = true := by
    induction chunks with
    | nil => exact id
    | cons c chunks ih =>
      exact fun h => ih (fun o ho => read o (List.mem_cons_of_mem _ ho)) (haveTerms_enter h (read c List.mem_cons_self))
  exact all rfl

end CodeSearch.Relations

namespace CodeSearch.CodeGraph

variable {α : Type} {chunks : List Chunk}

/-- The graph of chunks that were made of records is made anew without a fault. -/
theorem rebuild_of_made (read : ∀ c ∈ chunks, c.Made) (g : CodeGraph α) :
    g.rebuild chunks = (.ok (), g.build chunks) := by
  have terms : (g.build chunks).relations.haveTerms = true := Relations.haveTerms_ofChunks read
  rw [rebuild, forM_ok fun c hc => Chunk.checkRelations_of_checked (read c hc).checked Relations.isRoutingKey]
  simp only [terms, if_true]

/-! ## Scores -/

section Scores
variable [Scalar α] {g : CodeGraph α}

/-- Weights that can all be counted with give every candidate a score for a query. -/
theorem queryScores_ok (fit : g.weights.unfit = []) (batch : List String) (hints : QueryHints) :
    g.queryScores batch hints = .ok (batch.map fun id => (id, g.queryScore batch hints id)) := by
  refine mapM_ok fun id _ => ?_
  rw [fit, Unfit.check_nil, Unfit.check_nil, Unfit.check_nil]
  split <;> split <;> rfl

theorem namesText_of_areTexts {m : Keyed String (List String)} (h : Relations.areTexts m = true) (id : String) :
    ((m.get? id).getD []).all Json.namesText = true := by
  cases found : m.get? id with
  | none => rfl
  | some values =>
    exact List.all_eq_true.1 h values (Keyed.mem_values_of_get? found)

/-- Relations that have terms give every candidate a score for a fragment. -/
theorem patternScores_ok (terms : g.relations.haveTerms = true) (batch : List String) (hints : PatternHints) :
    g.patternScores batch hints = .ok (batch.map fun id => (id, g.patternScore hints id)) := by
  refine mapM_ok fun id _ => ?_
  simp only [Relations.haveTerms, Bool.and_eq_true] at terms
  obtain ⟨⟨⟨calls, imports⟩, _⟩, _⟩ := terms
  have all : ((if hints.apiPatterns.isEmpty then [] else (g.relations.calls.get? id).getD []) ++
      (if hints.frameworks.isEmpty then [] else (g.relations.imports.get? id).getD [])).all Json.namesText = true := by
    rw [List.all_append, Bool.and_eq_true]
    constructor
    · split
      · rfl
      · exact namesText_of_areTexts calls id
    · split
      · rfl
      · exact namesText_of_areTexts imports id
  simp only [all]
  rfl

end Scores

end CodeSearch.CodeGraph
