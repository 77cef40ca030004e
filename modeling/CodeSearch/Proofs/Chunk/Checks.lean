import CodeSearch.Lexical.Entry
import CodeSearch.Proofs.Action
import CodeSearch.Proofs.Chunk.RoundTrip
/-!
# A chunk whose fields are of their kinds passes the checks

Nothing is kept beside the fields of a chunk that was read from data, so there is nothing that a use of it could
fail on.
-/

namespace CodeSearch.Chunk

section Checks
variable {c : Chunk} (h : c.unchecked = [])
include h

theorem valueOf_of_checked (name : String) (value : Json) : c.valueOf name value = value := by
  rw [valueOf, h]
  rfl

theorem idValue_of_checked : c.idValue = .str c.id := valueOf_of_checked h _ _

theorem checkBeside_of_checked (name : String) (check : Json → Except Fault Unit) :
    c.checkBeside name check = .ok () := by
  rw [checkBeside, h]
  rfl

theorem checkText_of_checked : c.checkText = .ok () := by
  simp only [checkText, checkBeside_of_checked h, bind, Except.bind]

theorem checkId_of_checked : c.checkId = .ok () := checkBeside_of_checked h _ _

theorem checkTokens_of_checked : c.checkTokens = .ok () := by
  simp only [checkTokens, checkText_of_checked h, checkBeside_of_checked h, bind, Except.bind]

theorem checkRelations_of_checked (isRoute : String → Bool) : checkRelations isRoute c = .ok () := by
  simp only [checkRelations, checkId_of_checked h, checkBeside_of_checked h, bind, Except.bind]

theorem elementNames_of_checked (name : String) (texts : List String) : c.elementNames name texts = texts := by
  rw [elementNames, h]
  rfl

theorem facts_of_checked : c.facts = c.structuralMapping := by
  rw [facts, h]
  rfl

theorem packageName?_of_checked : c.packageName? = c.package := by
  rw [packageName?, h]
  rfl

theorem issuesAt_of_checked {β : Type} (name place : String) (read : Json → Record.Checked β) :
    c.issuesAt name place read = [] := by
  rw [issuesAt, h]
  rfl

theorem idIssues_of_checked : c.idIssues = [] := issuesAt_of_checked h _ _ _

theorem hitIssues_of_checked : c.hitIssues = [] := by
  simp only [hitIssues, idIssues_of_checked h, issuesAt_of_checked h, List.append_nil]

theorem checkSummary_of_checked (largest : Int) : checkSummary largest c = .ok () := by
  simp only [checkSummary, checkContentSize, checkBeside_of_checked h, summaryIssues, idIssues_of_checked h,
    issuesAt_of_checked h, List.append_nil, bind, Except.bind]
  rfl

end Checks

/-! ## Chunks that are refused -/

/-- There is an id, and the content is not blank. -/
def isFilled (c : Chunk) : Bool := c.id ≠ "" && !Text.allBlank c.content

/-- Chunks whose id and content are texts are told apart by whether these are empty. -/
theorem checkFilled_of_texts {c : Chunk} (id : c.unchecked.get? "id" = none)
    (content : c.unchecked.get? "content" = none) :
    c.checkFilled = if c.isFilled then .ok () else .error (.invalidChunk .blankIdOrContent (.str c.id)) := by
  have idValue : c.idValue = .str c.id := by rw [Chunk.idValue, valueOf, id, Option.getD_none]
  have beside : c.checkBeside "content" (fun _ => .error .missingMember) = .ok () := by
    rw [checkBeside, content, Option.elim_none]
  rw [checkFilled, idValue, beside, isFilled]
  by_cases empty : c.id = ""
  · simp [empty, Json.isTruthy, throw, throwThe, MonadExceptOf.throw, bind, Except.bind]
  · cases blank : Text.allBlank c.content <;>
      simp [empty, Json.isTruthy, throw, throwThe, MonadExceptOf.throw, pure, Except.pure, bind, Except.bind]

/-- An empty id or a blank content keeps a chunk from being indexed. -/
theorem prepare_of_empty {c : Chunk} (id : c.unchecked.get? "id" = none) (content : c.unchecked.get? "content" = none)
    (empty : c.isFilled = false) :
    Lexical.Entry.prepare c = .error (.invalidChunk .blankIdOrContent (.str c.id)) := by
  rw [Lexical.Entry.prepare, checkFilled_of_texts id content, empty]
  rfl

/-- Nothing else keeps a chunk whose fields are of their kinds from being indexed. -/
theorem prepare_of_checked {c : Chunk} (h : c.unchecked = []) : Lexical.Entry.prepare c
    = if c.isFilled then .ok (.ofChunk c) else .error (.invalidChunk .blankIdOrContent (.str c.id)) := by
  have beside (name : String) : c.unchecked.get? name = none := by rw [h]; rfl
  rw [Lexical.Entry.prepare, checkFilled_of_texts (beside _) (beside _), checkTokens_of_checked h]
  cases c.isFilled <;> rfl

/-- In a chunk that was read from a record nothing is set without a check. -/
theorem checked_of_ofJson {value : Json} {c : Chunk} (h : ofJson value = .ok c) : c.unchecked = [] := by
  obtain ⟨record, _, made⟩ := exists_of_bind_ok h
  obtain ⟨_, _, _, _, _, _, _, _, _, _, _, _, _, _, checked⟩ := read_good (read_of_ofRecord made)
  exact checked

/-- A chunk that was read from a record can be indexed. -/
theorem prepare_of_ofJson {value : Json} {c : Chunk} (h : ofJson value = .ok c) :
    Lexical.Entry.prepare c = .ok (.ofChunk c) := by
  obtain ⟨record, _, made⟩ := exists_of_bind_ok h
  obtain ⟨id, content, _, _, _, _, _, _, _, _, _, _, _, _, checked⟩ := read_good (read_of_ofRecord made)
  obtain ⟨_, _, readId⟩ := Record.required_good id
  obtain ⟨_, _, readContent⟩ := Record.required_good content
  have there : c.id ≠ "" := by
    intro empty
    have filled := (notBlank_good readId).2
    rw [empty] at filled
    cases filled
  rw [prepare_of_checked checked, isFilled, (notBlank_good readContent).2]
  simp [there]

/-- A chunk that can stand in the indexes: its id can name an entry, and a record of it can be made. -/
structure Enters (c : Chunk) : Prop where
  named : c.checkId = .ok ()
  recorded : ∃ record, c.stored = .ok record

theorem enters_of_shallow {c : Chunk} (h : c.unchecked = []) (shallow : c.IsShallow) : c.Enters :=
  ⟨checkId_of_checked h, c.json, stored_of_shallow h shallow⟩

/-- A chunk that is to be indexed becomes its own entry. -/
theorem eq_ofChunk_of_prepare {c : Chunk} {e : Lexical.Entry} (h : Lexical.Entry.prepare c = .ok e) : e = .ofChunk c := by
  obtain ⟨_, _, h⟩ := exists_of_bind_ok h
  obtain ⟨_, _, h⟩ := exists_of_bind_ok h
  injection h with h
  exact h.symm

/-- Id and content are texts, and not blank. -/
structure IsStorable (c : Chunk) : Prop where
  id_text : c.unchecked.get? "id" = none
  content_text : c.unchecked.get? "content" = none
  id_filled : Text.allBlank c.id = false
  content_filled : Text.allBlank c.content = false

/-- That is all that a store asks of a chunk. -/
theorem checkStorable_ok {c : Chunk} : c.checkStorable = .ok () ↔ c.IsStorable := by
  have beside {name : String} {fault : Json → Fault} :
      c.checkBeside name (fun value => .error (fault value)) = .ok () ↔ c.unchecked.get? name = none := by
    rw [checkBeside]
    cases c.unchecked.get? name <;> simp
  constructor
  · intro h
    obtain ⟨_, id, h⟩ := exists_of_bind_ok h
    cases blankId : Text.allBlank c.id with
    | true =>
      rw [blankId] at h
      cases h
    | false =>
      rw [blankId] at h
      obtain ⟨_, content, h⟩ := exists_of_bind_ok h
      cases blankContent : Text.allBlank c.content with
      | true =>
        rw [blankContent] at h
        cases h
      | false => exact ⟨beside.1 id, beside.1 content, blankId, blankContent⟩
  · intro h
    rw [checkStorable, beside.2 h.id_text, beside.2 h.content_text, h.id_filled, h.content_filled]
    rfl

section Made
variable {c : Chunk} (h : c.Made)
include h

theorem id_ne_empty : c.id ≠ "" := by
  intro empty
  have filled := h.id_filled
  rw [empty] at filled
  cases filled

theorem isFilled_of_made : c.isFilled = true := by simp [isFilled, id_ne_empty h, h.content_filled]

theorem checkFilled_of_made : c.checkFilled = .ok () := by
  have beside (name : String) : c.unchecked.get? name = none := by rw [h.checked]; rfl
  rw [checkFilled_of_texts (beside _) (beside _), if_pos (isFilled_of_made h)]

theorem isStorable_of_made : c.IsStorable := by
  have beside (name : String) : c.unchecked.get? name = none := by rw [h.checked]; rfl
  exact ⟨beside _, beside _, h.id_filled, h.content_filled⟩

/-- A chunk that was made of a record can be indexed. -/
theorem prepare_of_made : Lexical.Entry.prepare c = .ok (.ofChunk c) := by
  rw [prepare_of_checked h.checked, if_pos (isFilled_of_made h)]

end Made

end CodeSearch.Chunk
