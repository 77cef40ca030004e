import CodeSearch.Proofs.Indexing.Directory
import CodeSearch.Proofs.Text.Glob
import CodeSearch.Proofs.Text.Runs
/-!
# What patterns exclude

A pattern that ends in a slash and a star means the directories of one name, whatever else it would describe as a
pattern, and any other pattern the paths and the names that it describes. Where the name describes only itself, these
directories have all that the pattern would describe (`excludes_of_fits`). This needs that the parts of paths have no
slashes, and those of paths that are read have none (`Path.named_parse`).
-/

namespace CodeSearch

/-! ## Names in paths -/

namespace Text

theorem pieces_ne_nil (separator : Char) (text : List Char) : pieces separator text ≠ [] := by
  cases text with
  | nil => exact List.cons_ne_nil _ _
  | cons c text =>
    rw [pieces]
    split
    · exact List.cons_ne_nil _ _
    · split <;> exact List.cons_ne_nil _ _

/-- What has no separator goes to the first piece. -/
theorem exists_pieces_append {separator : Char} {front : List Char} (none : separator ∉ front) (text : List Char) :
    ∃ piece more, pieces separator text = piece :: more ∧ pieces separator (front ++ text) = (front ++ piece) :: more := by
  induction front with
  | nil =>
    obtain ⟨piece, more, cut⟩ := List.exists_cons_of_ne_nil (pieces_ne_nil separator text)
    exact ⟨piece, more, cut, cut⟩
  | cons c front ih =>
    obtain ⟨piece, more, cut, cut'⟩ := ih fun there => none (List.mem_cons_of_mem c there)
    have other : c ≠ separator := fun same => none (same ▸ List.mem_cons_self)
    refine ⟨piece, more, cut, ?_⟩
    rw [List.cons_append, pieces, if_neg other, cut']
    rfl

/-- Only the code of a slash is kept as one. -/
theorem slash_not_mem_ofCode {code : Nat} (valid : IsCode code) (other : code ≠ slash) : '/' ∉ ofCode code := by
  have plain {c : Char} (same : '/' = c) : c.toNat = slash := same ▸ rfl
  intro there
  rw [ofCode] at there
  split at there
  next half =>
    have code := plain (List.mem_singleton.1 there)
    rw [toNat_halfChar half, halfShift, slash] at code
    omega
  next whole =>
    have code : (Char.ofNat code).toNat = code := toNat_ofNat (valid.resolve_left whole)
    rw [keepChar] at there
    split at there
    next =>
      rcases List.mem_cons.1 there with marked | there
      · exact absurd marked (by decide)
      · exact other (code ▸ plain (List.mem_singleton.1 there))
    next => exact other (code ▸ plain (List.mem_singleton.1 there))

/-- What a kept text is cut into at its slashes is kept, as no mark stands before a slash. -/
theorem mem_pieces_slash {text piece : List Char} (h : IsKept text) (hp : piece ∈ pieces '/' text) :
    '/' ∉ piece ∧ IsKept piece := by
  obtain ⟨codes, all, rfl⟩ := h
  induction codes generalizing piece with
  | nil =>
    rw [List.mem_singleton.1 hp]
    exact ⟨List.not_mem_nil, .nil⟩
  | cons code codes ih =>
    have later {piece : List Char} (hp : piece ∈ pieces '/' (codes.flatMap ofCode)) :=
      ih (fun other ho => all other (List.mem_cons_of_mem code ho)) hp
    rw [List.flatMap_cons] at hp
    by_cases same : code = slash
    · subst same
      have alone : ofCode slash = ['/'] := by decide
      rw [alone, List.singleton_append, pieces, if_pos rfl] at hp
      rcases List.mem_cons.1 hp with rfl | there
      · exact ⟨List.not_mem_nil, .nil⟩
      · exact later there
    · have valid := all code List.mem_cons_self
      have none := slash_not_mem_ofCode valid same
      obtain ⟨first, more, cut, cut'⟩ := exists_pieces_append none (codes.flatMap ofCode)
      rw [cut'] at hp
      rcases List.mem_cons.1 hp with rfl | there
      · obtain ⟨noSlash, kept⟩ := later (cut ▸ List.mem_cons_self)
        exact ⟨by simp [none, noSlash], (Json.isKept_ofCode valid).append kept⟩
      · exact later (cut ▸ List.mem_cons_of_mem _ there)

end Text

namespace Path

/-- The parts of a path are kept texts without slashes. -/
def Named (path : Path) : Prop := ∀ part ∈ path.parts, '/' ∉ part.toList ∧ Text.IsKept part.toList

theorem named_parse {text : String} (kept : Text.IsKept text.toList) : (parse text).Named := by
  intro part hp
  obtain ⟨there, _⟩ := List.mem_filter.1 hp
  obtain ⟨piece, hpiece, rfl⟩ := List.mem_map.1 there
  rw [String.toList_ofList]
  exact Text.mem_pieces_slash kept hpiece

end Path

namespace Indexing

open Text

/-- What a pattern describes as such: the path of a file below a root, or its name. -/
def Fits (pattern : String) (relative : Path) : Prop :=
  Describes (globPieces (codes pattern.toList)) (codes relative.text.toList) ∨
    Describes (globPieces (codes pattern.toList)) (codes relative.name.toList)

/-- If a pattern means the directories of a name, the name describes only itself. -/
def IsPlain (pattern : String) : Prop :=
  ∀ directory ∈ directoryOf? pattern, '/' ∉ directory.toList ∧ IsLiteral directory

theorem directoryOf?_eq_some {pattern directory : String} :
    directoryOf? pattern = some directory ↔ pattern = directory ++ "/*" := by
  rw [directoryOf?, ← String.toList_inj, String.toList_append, ← List.reverse_inj, List.reverse_append]
  split
  next rest shape =>
    rw [shape, Option.some_inj, ← String.toList_inj, String.toList_ofList]
    constructor
    · intro same
      simp [← same]
    · intro same
      have rest : rest = directory.toList.reverse := (List.append_right_inj ['*', '/']).1 same
      simpa using congrArg List.reverse rest
  next none =>
    constructor
    · rintro ⟨⟩
    · exact fun same => absurd same (none _)

theorem not_slash_mem_codes {text : List Char} (h : '/' ∉ text) : slash ∉ codes text := fun there =>
  h (mem_of_mem_codes (by decide) there)

theorem codes_joinParts {first second : String} (kept : IsKept first.toList) (others : List String) :
    codes (Path.joinParts (first :: second :: others)).toList =
      codes first.toList ++ slash :: codes (Path.joinParts (second :: others)).toList := by
  have whole : (Path.joinParts (first :: second :: others)).toList =
      first.toList ++ '/' :: (Path.joinParts (second :: others)).toList := by
    simp [Path.joinParts]
  have plain : half? '/' = none := by decide
  rw [whole, kept.codes_append, codes_cons (by decide), plain]
  rfl

section
variable {pattern directory : String} {parts : List String}

/-- What a literal name describes with a slash and a star behind it. -/
theorem exists_of_describes (literal : IsLiteral directory) {text : List Nat}
    (h : Describes (globPieces (codes (directory ++ "/*").toList)) text) :
    ∃ behind, text = codes directory.toList ++ slash :: behind := by
  have codes : codes (directory ++ "/*").toList = codes directory.toList ++ [slash, star] := by
    rw [String.toList_append, codes_append_small (by decide)]
    rfl
  rw [codes, globPieces_append, describes_append] at h
  obtain ⟨front, back, rfl, first, others⟩ := h
  obtain ⟨c, behind, rfl, same, _⟩ := (describes_one (by simp)).1 others
  rw [GlobPiece.accepts, decide_eq_true_eq] at same
  exact ⟨behind, by rw [literal front first, same]⟩

/-- The name that a kept pattern means is kept. -/
theorem isKept_directory (h : IsKept (directory ++ "/*").toList) : IsKept directory.toList := by
  have all := h.isCode_codes
  have back := h.ofCodes_codes
  rw [String.toList_append, codes_append_small (by decide)] at all back
  rw [List.flatMap_append] at back
  refine ⟨codes directory.toList, fun code hc => all code (List.mem_append_left _ hc), ?_⟩
  exact (List.append_cancel_right (back : _ ++ ['/', '*'] = _)).symm

theorem codes_inj {a b : String} (ha : IsKept a.toList) (hb : IsKept b.toList) (same : codes a.toList = codes b.toList) :
    a = b := by
  rw [← String.toList_inj, ← ha.ofCodes_codes, same, hb.ofCodes_codes]

theorem text_cons (first : String) (others : List String) :
    (⟨"", first :: others⟩ : Path).text = Path.joinParts (first :: others) := by
  simp [Path.text]

section
variable (named : ∀ part ∈ parts, '/' ∉ part.toList ∧ IsKept part.toList)
include named

theorem slash_not_mem_name : '/' ∉ (⟨"", parts⟩ : Path).name.toList := by
  rw [Path.name]
  cases last : parts.getLast? with
  | none => decide
  | some part => exact (named part (List.mem_of_getLast? last)).1

/-- A path that begins with a name and a slash lies below the directory of that name. -/
theorem mem_dropLast_of_codes (noSlash : '/' ∉ directory.toList) (kept : IsKept directory.toList) {behind : List Nat}
    (begins : codes (⟨"", parts⟩ : Path).text.toList = codes directory.toList ++ slash :: behind) :
    directory ∈ parts.dropLast := by
  have held : slash ∈ codes (⟨"", parts⟩ : Path).text.toList := by
    rw [begins]
    exact List.mem_append_right _ List.mem_cons_self
  rcases parts with _ | ⟨first, _ | ⟨second, others⟩⟩
  · exact absurd held (not_slash_mem_codes (by decide))
  · rw [text_cons] at held
    exact absurd held (not_slash_mem_codes (named first List.mem_cons_self).1)
  · obtain ⟨noSlash', kept'⟩ := named first List.mem_cons_self
    rw [text_cons, codes_joinParts kept'] at begins
    have counts : (codes first.toList).count slash = (codes directory.toList).count slash := by
      rw [List.count_eq_zero.2 (not_slash_mem_codes noSlash'), List.count_eq_zero.2 (not_slash_mem_codes noSlash)]
    obtain ⟨same, _⟩ := append_separator_inj begins counts
    rw [codes_inj kept kept' same.symm]
    exact List.mem_cons_self

/-- Where a name describes only itself, the files that a pattern for its directories would describe lie below one. -/
theorem excludes_of_fits (kept : IsKept pattern.toList) (plain : IsPlain pattern) (fits : Fits pattern ⟨"", parts⟩) :
    excludes pattern ⟨"", parts⟩ = true := by
  rw [excludes]
  cases means : directoryOf? pattern with
  | none =>
    rw [Bool.or_eq_true, glob_iff, glob_iff]
    exact fits
  | some directory =>
    obtain ⟨noSlash, literal⟩ := plain directory means
    obtain rfl := directoryOf?_eq_some.1 means
    rw [List.contains_iff_mem]
    rcases fits with path | name
    · obtain ⟨behind, begins⟩ := exists_of_describes literal path
      exact mem_dropLast_of_codes named noSlash (isKept_directory kept) begins
    · obtain ⟨behind, begins⟩ := exists_of_describes literal name
      refine absurd ?_ (not_slash_mem_codes (slash_not_mem_name named))
      rw [begins]
      exact List.mem_append_right _ List.mem_cons_self

end

/-- The patterns that exclude files unless others are asked for are plain. -/
theorem isPlain_standardPatterns : ∀ pattern ∈ standardPatterns, IsPlain pattern := by
  have names : ∀ pattern ∈ standardPatterns, ∀ directory ∈ directoryOf? pattern,
      '/' ∉ directory.toList ∧ hasWildcard directory = false := by decide
  intro pattern hp directory hd
  obtain ⟨noSlash, plain⟩ := names pattern hp directory hd
  exact ⟨noSlash, isLiteral_of_plain plain⟩

theorem mem_dropLast_iff :
    directory ∈ parts.dropLast ↔ ∃ above below, below ≠ [] ∧ parts = above ++ directory :: below := by
  constructor
  · intro there
    obtain ⟨above, between, split⟩ := List.append_of_mem there
    have some : parts ≠ [] := by
      rintro rfl
      cases there
    refine ⟨above, between ++ [parts.getLast some], by simp, ?_⟩
    rw [← List.cons_append, ← List.append_assoc, ← split, List.dropLast_append_getLast]
  · rintro ⟨above, below, some, rfl⟩
    rw [List.dropLast_append_of_ne_nil (List.cons_ne_nil _ _), List.dropLast_cons_of_ne_nil some]
    exact List.mem_append_right _ List.mem_cons_self

end

/-- The patterns decide about the path below the root. -/
theorem isExcluded_of_below {root file : Path} {parts : List String} (below : root.relativeTo? file = some parts)
    {patterns : List String} :
    isExcluded root patterns file = true ↔ ∃ pattern ∈ patterns, excludes pattern ⟨"", parts⟩ = true := by
  rw [isExcluded, below]
  exact List.any_eq_true

/-- More patterns, in whatever order, exclude no less. -/
theorem isExcluded_of_subset {root file : Path} {patterns more : List String} (sub : patterns ⊆ more)
    (h : isExcluded root patterns file = true) : isExcluded root more file = true := by
  cases below : root.relativeTo? file with
  | none => rw [isExcluded, below]
  | some parts =>
    obtain ⟨pattern, hp, excluded⟩ := (isExcluded_of_below below).1 h
    exact (isExcluded_of_below below).2 ⟨pattern, sub hp, excluded⟩

/-- A pattern for the directories of a name excludes what lies below one of them. -/
theorem excludes_directory {directory : String} {parts : List String} :
    excludes (directory ++ "/*") ⟨"", parts⟩ = true ↔
      ∃ above below, below ≠ [] ∧ parts = above ++ directory :: below := by
  rw [excludes, directoryOf?_eq_some.2 rfl, ← mem_dropLast_iff]
  exact List.contains_iff_mem

/-- A file below a root is excluded at least as far as the patterns describe it, those aside that mean directories of a
name which describes others too or has a slash; a pattern that means the directories of a name without slashes excludes
just the files below these; and patterns exclude what some of them exclude, in any order. -/
theorem isExcludedBy_patterns {root file : Path} {parts : List String} (below : root.relativeTo? file = some parts)
    (named : file.Named) {patterns : List String} (kept : ∀ pattern ∈ patterns, IsKept pattern.toList) :
    (∀ pattern ∈ patterns, IsPlain pattern → Fits pattern ⟨"", parts⟩ →
      isExcludedBy root (Chunk.textsJson patterns) file = .ok true) ∧
    (∀ directory : String, '/' ∉ directory.toList →
      (isExcludedBy root (Chunk.textsJson [directory ++ "/*"]) file = .ok true ↔
        ∃ above below, below ≠ [] ∧ parts = above ++ directory :: below)) ∧
    ∀ more, patterns ⊆ more → isExcludedBy root (Chunk.textsJson patterns) file = .ok true →
      isExcludedBy root (Chunk.textsJson more) file = .ok true := by
  simp only [isExcludedBy_texts, Except.ok.injEq]
  refine ⟨fun pattern hp plain fits => ?_, fun directory _ => ?_, fun more sub => isExcluded_of_subset sub⟩
  · have named : ∀ part ∈ parts, '/' ∉ part.toList ∧ IsKept part.toList := by
      rw [Path.relativeTo?] at below
      split at below
      next =>
        cases below
        exact fun part hp => named part (List.mem_of_mem_drop hp)
      next => cases below
    exact (isExcluded_of_below below).2 ⟨pattern, hp, excludes_of_fits named (kept pattern hp) plain fits⟩
  · rw [isExcluded_of_below below, ← excludes_directory]
    simp

/-- An archive in the build directory of a module is excluded by the ending of its name, and by the directory, but it is
itself no directory. -/
theorem isExcludedBy_patterns_module :
    let root := Path.parse "/repo"
    let file := Path.parse "/repo/module/build/out.jar"
    isExcludedBy root (Chunk.textsJson ["*.py", "*.[jw]ar"]) file = .ok true ∧
      isExcludedBy root (Chunk.textsJson ["build/*"]) file = .ok true ∧
      isExcludedBy root (Chunk.textsJson ["out.jar/*"]) file ≠ .ok true ∧
      isExcludedBy root (Chunk.textsJson ["*.[jw]ar", "docs/*", "*.py"]) file = .ok true := by
  intro root file
  have below : root.relativeTo? file = some ["module", "build", "out.jar"] := by decide
  have named : file.Named := by
    have ascii : ∀ part ∈ file.parts, '/' ∉ part.toList ∧ ∀ c ∈ part.toList, c.toNat < 128 := by decide
    exact fun part hp => ⟨(ascii part hp).1, .of_ascii (ascii part hp).2⟩
  have kept : ∀ pattern ∈ ["*.py", "*.[jw]ar"], IsKept pattern.toList := by
    simp only [List.forall_mem_cons]
    exact ⟨.of_ascii (by decide), .of_ascii (by decide), List.forall_mem_nil _⟩
  obtain ⟨globs, directories, more⟩ := isExcludedBy_patterns below named kept
  have plain : IsPlain "*.[jw]ar" := by
    intro directory hd
    rw [show directoryOf? "*.[jw]ar" = none by decide] at hd
    cases hd
  have fits : Fits "*.[jw]ar" ⟨"", ["module", "build", "out.jar"]⟩ := .inr (glob_iff.1 (by decide +kernel))
  have archive := globs "*.[jw]ar" (by simp) plain fits
  refine ⟨archive, (directories "build" (by decide)).2 ⟨["module"], ["out.jar"], by decide, rfl⟩, fun excluded => ?_,
    more _ (by simp) archive⟩
  obtain ⟨above, below, some, split⟩ := (directories "out.jar" (by decide)).1 excluded
  have inside : "out.jar" ∈ ["module", "build", "out.jar"].dropLast := mem_dropLast_iff.2 ⟨above, below, some, split⟩
  exact absurd inside (by decide)

/-- A name that describes others means only the directories of that very name. -/
theorem isExcludedBy_wildcard :
    (Path.parse "/repo").relativeTo? (Path.parse "/repo/gen1/a.py") = some ["gen1", "a.py"] ∧
      Fits "gen*/*" ⟨"", ["gen1", "a.py"]⟩ ∧
      isExcludedBy (Path.parse "/repo") (Chunk.textsJson ["gen*/*"]) (Path.parse "/repo/gen1/a.py") = .ok false := by
  refine ⟨by decide, .inl (glob_iff.1 (by decide +kernel)), ?_⟩
  rw [isExcludedBy_texts]
  exact congrArg _ (by decide)

end Indexing

end CodeSearch
