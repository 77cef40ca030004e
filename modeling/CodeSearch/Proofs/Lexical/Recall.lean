import CodeSearch.Proofs.Chunk.Texts
import CodeSearch.Proofs.Lexical.Ranking
import CodeSearch.Proofs.Query.Words
import CodeSearch.Proofs.Token.Spelling
/-!
# What is copied from a chunk finds the chunk

A piece of a chunk's text between word boundaries has its tokens side by side in those of the text. So the piece in
quotes selects the chunk, and so does the bare piece if it has no operators (`verbatim_recall`).

A search for an identifier of a chunk in other letter case finds the chunk if the two spellings have a token in common
(`recall_any_case`). Spellings that are cut alike have, but not all spellings do: `_userName` has the tokens `_username`,
`user` and `name`, and `_username` has `username` alone (`recall_any_case_fails`).
-/

namespace CodeSearch.LexicalIndex

open Lexical

variable {ix : LexicalIndex ℝ}

/-- A chunk that a query selects is found. -/
theorem IsTuned.exists_hit (tuned : ix.IsTuned .content) (searchable : ix.IsSearchable) {text : String} {q : Query}
    (parsed : Query.parse text = .ok q) {maxResults : Int} (all : ix.count ≤ maxResults) {e : Entry}
    (there : e ∈ ix.view.entries) (selected : q.selects e.tokens = true) :
    ∃ hits, ix.search text maxResults none = .ok hits ∧ ∃ hit ∈ hits, hit.chunk = e.chunk := by
  obtain ⟨hits, found, same⟩ := tuned.search_perm searchable parsed all
  exact ⟨hits, found, List.mem_map.1 (same.mem_iff.2 (List.mem_map_of_mem (List.mem_filter.2 ⟨there, selected⟩)))⟩

/-- A piece of a text of a chunk, cut at word boundaries and put in quotes, finds the chunk, and so does the bare piece
if it has no operators. The text may be the searchable text as a whole, or any of the texts that it is made of. -/
theorem verbatim_recall (grown : Grown (fun c => c.unchecked = []) ix) (tuned : ix.IsTuned .content) {c : Chunk}
    (indexed : c ∈ ix.chunks) {text before piece after : String} (whole : text = c.searchableText ∨ text ∈ c.searched)
    (cut : text = before ++ piece ++ after) (start : Text.Boundary before.toList piece.toList)
    (stop : Text.Boundary piece.toList after.toList) (some : Token.tokens piece ≠ []) (noQuote : '"' ∉ piece.toList)
    {maxResults : Int} (all : ix.count ≤ maxResults) :
    (∃ hits, ix.search ("\"" ++ piece ++ "\"") maxResults none = .ok hits ∧ ∃ hit ∈ hits, hit.chunk = c) ∧
      ('+' ∉ piece.toList → '-' ∉ piece.toList →
        ∃ hits, ix.search piece maxResults none = .ok hits ∧ ∃ hit ∈ hits, hit.chunk = c) := by
  have searchable := (grown.lived fun _ checked => checked).isSearchable
  obtain ⟨e, there, rfl⟩ := List.mem_map.1 indexed
  have tokens : e.tokens = Token.tokens e.chunk.searchableText := congrArg Entry.tokens (grown.made.view.1 e there)
  -- what stands around the text belongs to no identifier
  obtain ⟨lead, tail, within, ends, starts⟩ : ∃ lead tail, e.chunk.searchableText = lead ++ text ++ tail ∧
      Text.Ends Text.isIdentifierChar lead.toList ∧ Text.Starts Text.isIdentifierChar tail.toList := by
    rcases whole with rfl | part
    · exact ⟨"", "", by rw [String.empty_append, String.append_empty], by decide, by decide⟩
    · exact Chunk.exists_of_mem_searched part
  have side : Token.tokens piece <:+: e.tokens := by
    have split : e.chunk.searchableText = (lead ++ before) ++ piece ++ (after ++ tail) := by
      rw [within, cut]
      simp only [String.append_assoc]
    rw [tokens, split]
    refine Token.tokens_infix ?_ ?_
    · rw [String.toList_append]
      exact start.extend_left ends
    · rw [String.toList_append]
      exact stop.extend_right starts
  constructor
  · exact tuned.exists_hit searchable (Query.parse_quoted noQuote some) all there ((Query.selects_phrase some).2 side)
  · intro noPlus noMinus
    have plain : ∀ ch ∈ piece.toList, Query.IsPlain ch := fun ch hc =>
      ⟨ne_of_mem_of_not_mem hc noPlus, ne_of_mem_of_not_mem hc noMinus, ne_of_mem_of_not_mem hc noQuote⟩
    obtain ⟨term, asked⟩ := List.exists_mem_of_ne_nil _ some
    exact tuned.exists_hit searchable (Query.parse_words plain) all there
      (Query.selects_words.2 ⟨term, asked, side.subset asked⟩)

/-- A piece of the one chunk that is no word by itself. -/
theorem verbatim_recall_sample :
    (∃ hits, sample.search "\"beta(gamma\"" 1 none = .ok hits ∧
      ∃ hit ∈ hits, hit.chunk = .plain "x" "alpha = beta(gamma)") ∧
    ∃ hits, sample.search "beta(gamma" 1 none = .ok hits ∧
      ∃ hit ∈ hits, hit.chunk = .plain "x" "alpha = beta(gamma)" := by
  have grown := grown_sample.mono fun _ => And.left
  have indexed : Chunk.plain "x" "alpha = beta(gamma)" ∈ sample.chunks := List.mem_cons_self
  have cut : (Chunk.plain "x" "alpha = beta(gamma)").searchableText = "alpha = " ++ "beta(gamma" ++ ")" := by decide
  have all : (sample.count : Int) ≤ 1 := le_rfl
  obtain ⟨quoted, bare⟩ := verbatim_recall grown (tuned_sample _) indexed (.inl rfl) cut (.inl (by decide))
    (.inr (by decide)) (by decide +kernel) (by decide) all
  exact ⟨quoted, bare (by decide) (by decide)⟩

/-! ## Identifiers in another letter case -/

/-- A chunk is found by the spelling of an identifier in its text, if the spelling has a token in common with the
identifier. It has one if the two are cut alike, and only then if no hexadecimal literal lies within either. -/
theorem recall_any_case (grown : Grown (fun c => c.unchecked = []) ix) (tuned : ix.IsTuned .content) {c : Chunk}
    (indexed : c ∈ ix.chunks) {before word after : String} (cut : c.searchableText = before ++ word ++ after)
    (ends : Text.Ends Text.isIdentifierChar before.toList) (starts : Text.Starts Text.isIdentifierChar after.toList)
    (inside : ∀ ch ∈ word.toList, Text.isIdentifierChar ch = true) {spelling : String}
    (same : Token.SameLetters word.toList spelling.toList) (some : Token.tokens spelling ≠ []) {maxResults : Int}
    (all : ix.count ≤ maxResults) :
    (Token.ShareToken spelling word →
      ∃ hits, ix.search spelling maxResults none = .ok hits ∧ ∃ hit ∈ hits, hit.chunk = c) ∧
    (Token.Alike word.toList spelling.toList → Token.ShareToken spelling word) ∧
    (Token.IsUncut word.toList → Token.IsUncut spelling.toList → Token.ShareToken spelling word →
      Token.Alike word.toList spelling.toList) := by
  have inside' := same.inside inside
  have letters : spelling.toList ≠ [] := by
    intro none
    rw [String.toList_eq_nil_iff.1 none] at some
    exact some rfl
  have letters' : word.toList ≠ [] := by
    intro none
    have length := same.length_eq
    rw [none, List.length_nil, eq_comm, List.length_eq_zero_iff] at length
    exact letters length
  have asked := Token.tokens_of_identifier letters inside'
  have held := Token.tokens_of_identifier letters' inside
  rw [Token.ShareToken, held, asked]
  refine ⟨fun ⟨term, askedTerm, heldTerm⟩ => ?_, fun alike => ?_, fun here there ⟨term, askedTerm, heldTerm⟩ => ?_⟩
  · obtain ⟨e, there, rfl⟩ := List.mem_map.1 indexed
    have tokens : e.tokens = Token.tokens e.chunk.searchableText := congrArg Entry.tokens (grown.made.view.1 e there)
    have within : Token.tokens word <:+: e.tokens := by
      rw [tokens, cut]
      exact Token.tokens_infix (.inl ends) (.inr starts)
    have plain : ∀ ch ∈ spelling.toList, Query.IsPlain ch := fun ch hc => Query.isPlain_of_identifierChar (inside' ch hc)
    refine tuned.exists_hit (grown.lived fun _ checked => checked).isSearchable (Query.parse_words plain) all there
      (Query.selects_words.2 ⟨term, ?_, within.subset ?_⟩)
    · rwa [asked]
    · rwa [held]
  · rw [asked] at some
    exact Token.exists_token_of_alike same inside alike some
  · exact Token.alike_of_common same inside here there heldTerm askedTerm

/-! ## An identifier with an underscore in front -/

noncomputable def underscored : LexicalIndex ℝ :=
  ((Operation.insert (.plain "x" "return _userName")).run.runOn (blank none (.real 1.5) (.real 0.75) (.ok 10))
    Disk.blank).2.1

theorem grown_underscored : underscored.Grown fun c => c.unchecked = [] :=
  grown_of_blank (.insert _) (List.forall_mem_singleton.2 rfl)

/-- Both spellings have several parts. -/
theorem recall_any_case_underscored :
    ∃ hits, underscored.search "_USERname" 1 none = .ok hits ∧
      ∃ hit ∈ hits, hit.chunk = .plain "x" "return _userName" := by
  have indexed : Chunk.plain "x" "return _userName" ∈ underscored.chunks := List.mem_cons_self
  have cut : (Chunk.plain "x" "return _userName").searchableText = "return " ++ "_userName" ++ "" := by decide
  have same : Token.SameLetters "_userName".toList "_USERname".toList := by decide
  have all : (underscored.count : Int) ≤ 1 := le_rfl
  obtain ⟨found, shared, _⟩ := recall_any_case grown_underscored (tuned_of_standard rfl rfl _) indexed cut (by decide)
    (by decide) (by decide) same (by decide +kernel) all
  exact found (shared (.parts (by decide +kernel) (by decide +kernel) (by decide)))

/-- Not all spellings of an identifier find it. -/
theorem recall_any_case_fails : ¬ ∀ (ix : LexicalIndex ℝ) (c : Chunk) (before word after spelling : String)
    (maxResults : Int), ix.Grown (fun c => c.unchecked = []) → ix.IsTuned .content → c ∈ ix.chunks →
    c.searchableText = before ++ word ++ after → Text.Ends Text.isIdentifierChar before.toList →
    Text.Starts Text.isIdentifierChar after.toList → (∀ ch ∈ word.toList, Text.isIdentifierChar ch = true) →
    Token.SameLetters word.toList spelling.toList → Token.tokens spelling ≠ [] → ix.count ≤ maxResults →
    ∃ hits, ix.search spelling maxResults none = .ok hits ∧ ∃ hit ∈ hits, hit.chunk = c := by
  intro claim
  have tuned : underscored.IsTuned .content := tuned_of_standard rfl rfl _
  have plain : ∀ ch ∈ "_username".toList, Query.IsPlain ch := by decide
  have searchable := (grown_underscored.lived fun _ checked => checked).isSearchable
  have all : (underscored.count : Int) ≤ 1 := le_rfl
  obtain ⟨hits, found, same⟩ := tuned.search_perm searchable (Query.parse_words plain) all
  have none : (underscored.view.entries.filter fun e =>
      (⟨firsts (Token.tokens "_username"), [], [], []⟩ : Query).selects e.tokens) = [] := by
    decide +kernel
  rw [none, List.map_nil, List.perm_nil, List.map_eq_nil_iff] at same
  obtain ⟨hits', found', hit, there, _⟩ := claim underscored (.plain "x" "return _userName") "return " "_userName" ""
    "_username" 1 grown_underscored tuned List.mem_cons_self (by decide) (by decide) (by decide) (by decide) (by decide)
    (by decide +kernel) all
  obtain rfl := Except.ok.inj (found.symm.trans found')
  rw [same] at there
  cases there

end CodeSearch.LexicalIndex
