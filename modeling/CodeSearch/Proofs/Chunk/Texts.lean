import CodeSearch.Chunk.Basic
import CodeSearch.Proofs.Token.Tokens
/-!
# What a searchable text is made of

The searchable text of a chunk has its package, its imports, what is said of the enclosing class, its annotations and
its content, each between word boundaries (`exists_of_mem_searched`).
-/

namespace CodeSearch.Chunk

open Text

/-- A text in its line, where what stands before and behind it belongs to no identifier. -/
structure Frame where
  lead : String
  text : String
  tail : String
  lead_ends : Ends isIdentifierChar lead.toList := by decide
  tail_starts : Starts isIdentifierChar tail.toList := by decide
  tail_ends : Ends isIdentifierChar tail.toList := by decide
  tail_ne_nil : tail.toList ≠ [] := by decide

/-- The line of a framed text. -/
def Frame.line (f : Frame) : String := f.lead ++ f.text ++ f.tail

/-- The lines before the content. -/
def frames (c : Chunk) : List Frame :=
  (nonEmpty? c.package).toList.map (fun text => { lead := "package ", text, tail := ";\n" }) ++
    (if c.imports.isEmpty then []
      else c.imports.map (fun text => { lead := "import ", text, tail := ";\n" }) ++
        [{ lead := "", text := "", tail := "\n" }]) ++
    (nonEmpty? c.enclosingClass).toList.map (fun text => { lead := "// Class context: ", text, tail := "\n" }) ++
    c.annotations.map fun text => { lead := "", text, tail := "\n" }

/-- The texts that are searched together. -/
def searched (c : Chunk) : List String :=
  (nonEmpty? c.package).toList ++ c.imports ++ (nonEmpty? c.enclosingClass).toList ++ c.annotations ++ [c.content]

theorem searchableText_eq (c : Chunk) : c.searchableText = String.join (c.frames.map Frame.line) ++ c.content := by
  rw [searchableText, String.join_append, String.join_cons, String.join_nil, String.append_empty]
  congr 2
  rw [frames, List.map_append, List.map_append, List.map_append, List.map_map, List.map_map, List.map_map]
  congr 3
  split
  · rfl
  · rw [List.map_append, List.map_map]
    rfl

/-- Each of the texts is the content or stands in a line before it. -/
theorem mem_searched {c : Chunk} {text : String} (h : text ∈ c.searched) :
    text = c.content ∨ ∃ f ∈ c.frames, f.text = text := by
  simp only [searched, List.mem_append, List.mem_singleton] at h
  simp only [frames, List.mem_append, List.mem_map]
  rcases h with (((package | imported) | enclosing) | annotation) | content
  · exact .inr ⟨_, .inl (.inl (.inl ⟨text, package, rfl⟩)), rfl⟩
  · have some : ¬ c.imports.isEmpty = true := fun none => by
      rw [List.isEmpty_iff.1 none] at imported
      cases imported
    rw [if_neg some]
    exact .inr ⟨_, .inl (.inl (.inr (List.mem_append_left _ (List.mem_map_of_mem imported)))), rfl⟩
  · exact .inr ⟨_, .inl (.inr ⟨text, enclosing, rfl⟩), rfl⟩
  · exact .inr ⟨_, .inr ⟨text, annotation, rfl⟩, rfl⟩
  · exact .inl content

theorem ends_lines (frames : List Frame) :
    Ends isIdentifierChar (String.join (frames.map Frame.line)).toList := by
  induction frames with
  | nil => exact fun _ hc => by cases hc
  | cons f frames ih =>
    rw [List.map_cons, String.join_cons, String.toList_append]
    refine Ends.append ?_ ih
    rw [Frame.line, String.toList_append, Ends, List.getLast?_append_of_ne_nil _ f.tail_ne_nil]
    exact f.tail_ends

/-- Each of the texts stands in the searchable text, and no identifier goes across where it begins or ends. -/
theorem exists_of_mem_searched {c : Chunk} {text : String} (h : text ∈ c.searched) :
    ∃ before after, c.searchableText = before ++ text ++ after ∧ Ends isIdentifierChar before.toList ∧
      Starts isIdentifierChar after.toList := by
  rw [searchableText_eq]
  rcases mem_searched h with rfl | ⟨f, there, rfl⟩
  · exact ⟨_, "", by rw [String.append_empty], ends_lines _, fun _ hc => by cases hc⟩
  · obtain ⟨first, rest, split⟩ := List.append_of_mem there
    refine ⟨String.join (first.map Frame.line) ++ f.lead, f.tail ++ String.join (rest.map Frame.line) ++ c.content,
      ?_, ?_, ?_⟩
    · rw [split, List.map_append, List.map_cons, String.join_append, String.join_cons, Frame.line]
      simp only [String.append_assoc]
    · rw [String.toList_append]
      exact (ends_lines first).append f.lead_ends
    · rw [String.append_assoc, String.toList_append, Starts, List.head?_append_of_ne_nil _ f.tail_ne_nil]
      exact f.tail_starts

end CodeSearch.Chunk
