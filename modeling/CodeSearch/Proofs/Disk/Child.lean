import CodeSearch.Proofs.Disk.Place
import CodeSearch.Proofs.Text.Bytes
/-!
# Files in a directory

A file with a plain name, one of printed characters without a slash, has its place right below that of its
directory (`place_child`), and files of different plain names have different places (`place_child_inj`).
-/

namespace CodeSearch

namespace Text

theorem pieces_of_not_mem {separator : Char} {text : List Char} (h : separator ∉ text) :
    pieces separator text = [text] := by
  induction text with
  | nil => rfl
  | cons c text ih =>
    rw [List.mem_cons, not_or] at h
    rw [pieces, if_neg (Ne.symm h.1), ih h.2]

end Text

/-- A name of printed characters without a slash, and not of dots alone. -/
def IsPlainName (name : String) : Prop :=
  (∀ c ∈ name.toList, 32 < c.toNat ∧ c.toNat < 128 ∧ c ≠ '/') ∧ 2 < name.toList.length

namespace IsPlainName

variable {name : String} (h : IsPlainName name)
include h

theorem ascii : ∀ c ∈ name.toList, c.toNat < 128 := fun c hc => (h.1 c hc).2.1

theorem ne_empty : name ≠ "" := by
  rintro rfl
  exact absurd h.2 (by decide)

theorem ne_dot : name ≠ "." := by
  rintro rfl
  exact absurd h.2 (by decide)

theorem ne_up : name ≠ ".." := by
  rintro rfl
  exact absurd h.2 (by decide)

theorem no_slash : '/' ∉ name.toList := fun hc => (h.1 _ hc).2.2 rfl

theorem parse : Path.parse name = ⟨"", [name]⟩ := by
  have anchor : Path.anchorOf name.toList = "" := by
    have slash := h.no_slash
    revert slash
    generalize name.toList = text
    intro slash
    cases text with
    | nil => rfl
    | cons c rest =>
      have first : c ≠ '/' := fun e => slash (e ▸ List.mem_cons_self)
      unfold Path.anchorOf
      split <;> first | rfl | (next e => exact absurd (List.cons.inj e).1 first)
  rw [Path.parse, anchor, Text.pieces_of_not_mem h.no_slash]
  simp [h.ne_empty, h.ne_dot]

theorem temporary : IsPlainName (name ++ ".tmp") := by
  constructor
  · intro c hc
    rw [String.toList_append, List.mem_append] at hc
    rcases hc with old | new
    · exact h.1 c old
    · revert c
      decide
  · have := h.2
    rw [String.toList_append, List.length_append]
    omega

end IsPlainName

namespace Path

variable {dir : Path} {name other : String}

theorem child_eq (h : IsPlainName name) : dir.child name = ⟨dir.anchor, dir.parts ++ [name]⟩ := by
  rw [child, h.parse]
  rfl

theorem name_child (h : IsPlainName name) : (dir.child name).name = name := by
  rw [child_eq h, Path.name]
  simp

theorem parent_child (h : IsPlainName name) : (dir.child name).parent = dir := by
  rw [child_eq h, parent]
  simp

theorem temporary_child (h : IsPlainName name) : (dir.child name).temporary = dir.child (name ++ ".tmp") := by
  rw [temporary, name_child h, child_eq h, child_eq h.temporary]
  simp

theorem place_child (h : IsPlainName name) : (dir.child name).place = ⟨dir.place.anchor, dir.place.parts ++ [name]⟩ := by
  rw [place, child_eq h, List.foldl_append, List.foldl_cons, List.foldl_nil, step, if_neg h.ne_up,
    Text.throughBytes_of_ascii h.ascii]
  rfl

theorem place_child_inj (h : IsPlainName name) (h' : IsPlainName other) :
    (dir.child name).place = (dir.child other).place ↔ name = other := by
  rw [place_child h, place_child h']
  simp

theorem length_place {path : Path} (down : ".." ∉ path.parts) : path.place.parts.length = path.parts.length := by
  have walked : ∀ (parts : List String) (start : Path), ".." ∉ parts →
      (parts.foldl Path.step start).parts.length = start.parts.length + parts.length := by
    intro parts
    induction parts with
    | nil => intro start _; rfl
    | cons part parts ih =>
      intro start down
      rw [List.mem_cons, not_or] at down
      have next : (start.step part).parts.length = start.parts.length + 1 := by
        rw [Path.step, if_neg (Ne.symm down.1), List.length_append]
        rfl
      rw [List.foldl_cons, ih _ down.2, next, List.length_cons]
      omega
  exact (walked path.parts _ down).trans (Nat.zero_add _)

/-- The way to a directory that only leads down does not lead through the files in it. -/
theorem not_way_child (down : ".." ∉ dir.parts) (h : IsPlainName name) : ¬ dir.Way (dir.child name).place := by
  rintro ⟨step, hs, same⟩
  obtain ⟨n, _, rfl⟩ := List.mem_map.1 hs
  have lengths := congrArg (fun place => place.parts.length) same
  simp only [place_child h, List.length_append, List.length_singleton] at lengths
  rw [length_place fun there => down (List.mem_of_mem_take there), length_place down] at lengths
  have shorter := List.length_take_le' (n + 1) dir.parts
  simp only at lengths
  omega

/-- What is written beside a file is not put in its place. -/
theorem place_temporary_ne (path : Path) : path.temporary.place ≠ path.place := by
  have ascii : ∀ c ∈ ".tmp".toList, c.toNat < 128 := by decide
  have down : path.name ++ ".tmp" ≠ ".." := fun e => by
    have length := congrArg (fun s : String => s.toList.length) e
    simp at length
  have beside : path.temporary.place
      = ⟨path.parent.place.anchor, path.parent.place.parts ++ [Text.throughBytes path.name ++ ".tmp"]⟩ := by
    rw [temporary, place, List.foldl_append, List.foldl_cons, List.foldl_nil, step, if_neg down,
      Text.throughBytes_append ascii]
    rfl
  rw [beside]
  rcases List.eq_nil_or_concat path.parts with none | ⟨parents, name, parts⟩
  · have here : path.place = ⟨path.anchor, []⟩ := by rw [place, none, List.foldl_nil]
    rw [here]
    simp
  · have named : path.name = name := by simp [Path.name, parts]
    have here : path.place = path.parent.place.step name := by
      rw [place, place, parent, parts]
      simp
    rw [here, step, named]
    split
    next =>
      -- a step up leads to a shorter path
      intro same
      have length := congrArg (fun p : Path => p.parts.length) same
      simp [parent] at length
      omega
    next => 
      simp

theorem sound_child (h : IsPlainName name) (sound : dir.Sound) : (dir.child name).Sound := by
  have small : ∀ c ∈ name.toList, c.toNat < 0xf57ff := fun c hc => Nat.lt_trans (h.ascii c hc) (by decide)
  rw [child_eq h]
  constructor
  · have bytes : Text.hasBytes name = true := by
      rw [Text.hasBytes, Text.codes_of_small small, List.all_eq_true]
      intro code hc
      obtain ⟨c, _, rfl⟩ := List.mem_map.1 hc
      rw [Text.hasForm, Text.not_isHalf_toNat]
      rfl
    simp only [hasBytes, List.all_append, List.all_cons, List.all_nil, bytes, Bool.and_true]
    exact sound.1
  · have nul : name.toList.contains '\x00' = false := by
      rw [← Bool.not_eq_true, List.contains_iff_mem]
      exact fun hc => absurd (h.1 _ hc).1 (by decide)
    simp only [hasNul, List.any_append, List.any_cons, List.any_nil, nul, Bool.or_false]
    exact sound.2

end Path

namespace Disk

/-- The names in a path that leads somewhere are short. -/
theorem short_of_locate {d : Disk} {path place : Path} (h : d.locate path = .ok place) :
    ∀ part ∈ path.parts, part = ".." ∨ Text.byteCount part ≤ nameLimit := by
  have walked : ∀ {parts : List String} {start : Path}, parts.foldlM d.stepFrom start = .ok place →
      ∀ part ∈ parts, part = ".." ∨ Text.byteCount part ≤ nameLimit := by
    intro parts
    induction parts with
    | nil => simp
    | cons part parts ih =>
      intro start walk
      rw [List.foldlM_cons] at walk
      obtain ⟨next, first, walk⟩ := exists_of_bind_ok walk
      refine List.forall_mem_cons.2 ⟨?_, ih walk⟩
      have directory := (stepFrom_ok first).2
      by_cases up : part = ".."
      · exact .inl up
      · refine .inr (Nat.le_of_not_lt fun long => ?_)
        unfold stepFrom at first
        simp only [directory, if_neg up] at first
        rw [if_pos long] at first
        cases first
  exact walked (walk_of_locate h)

end Disk

end CodeSearch
