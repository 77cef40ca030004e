import CodeSearch.Proofs.Indexing.Batch
/-!
# The chunks that a batch has to offer

A chunk of a batch is told of as a collision, or one with its id and its content is accepted (`collides_or_accepted`),
and the first chunk of an id is accepted itself, if the store does not know the id (`accepted_of_first`). Where a batch
is cut in two makes no difference to that (`cut_distinct`): what the second part accepts beyond the first is what the
whole batch accepts beyond it, and what both accept has one content. If a batch comes again, the same chunks are accepted
(`distinct_withTaken`).
-/

namespace CodeSearch.Indexing

/-- It is said that a chunk has the id of another one with other content. -/
def Complaint.isCollision : Complaint → Bool
  | .collision _ => true
  | .failed _ | .unread _ _ => false

/-- The chunks of a batch that are taken: each id once, without collisions, and none of them empty. -/
def taken (s : ChunkStore) (chunks : List Chunk) : List Chunk := (distinct s chunks).1.values.filter Chunk.isFilled

section Distinct
variable {s : ChunkStore} {so next : Keyed String Chunk × List Complaint} {c : Chunk} {chunks : List Chunk}

/-- The accepted chunks with the ids under which they stand. -/
theorem filed_members (s : ChunkStore) (chunks : List Chunk) : Chunk.Filed (· ∈ chunks) (distinct s chunks).1 :=
  filed_distinct fun _ => id

theorem taken_of_filled (filled : ∀ c ∈ chunks, c.isFilled = true) :
    taken s chunks = (distinct s chunks).1.values :=
  List.filter_eq_self.2 fun c hc => filled c ((filed_members _ _).values c hc)

theorem nodup_taken : ((taken s chunks).map Chunk.id).Nodup :=
  (filed_members s chunks).nodup_ids.sublist (List.filter_sublist.map _)

/-- Only collisions are told of. -/
theorem isCollision_distinct : ∀ complaint ∈ (distinct s chunks).2, complaint.isCollision = true := by
  refine keeps_distinct (q := fun so => ∀ complaint ∈ so.2, complaint.isCollision = true) (List.forall_mem_nil _)
    fun c _ so next h step => ?_
  cases step with
  | collides => exact List.forall_mem_append.2 ⟨h, List.forall_mem_singleton.2 rfl⟩
  | repeats => exact h
  | enters => exact h

/-! ## What a comparison leaves -/

/-- What has been accepted stays, and what has been told is not taken back. -/
structure Grows (so next : Keyed String Chunk × List Complaint) : Prop where
  accepted : ∀ id c, so.1.get? id = some c → next.1.get? id = some c
  told : so.2 ⊆ next.2

theorem Compared.grows (step : Compared s so c next) : Grows so next := by
  cases step with
  | collides => exact ⟨fun _ _ => id, List.subset_append_left _ _⟩
  | repeats => exact ⟨fun _ _ => id, List.Subset.refl _⟩
  | enters new free =>
    refine ⟨fun id old found => ?_, List.Subset.refl _⟩
    have other : id ≠ c.id := by
      rintro rfl
      rw [new] at found
      cases found
    rw [Keyed.get?_put, if_neg other, found]

theorem grows_foldl (chunks : List Chunk) (so : Keyed String Chunk × List Complaint) :
    Grows so (chunks.foldl (accept s) so) := by
  induction chunks generalizing so with
  | nil => exact ⟨fun _ _ => id, List.Subset.refl _⟩
  | cons c chunks ih =>
    have first := (compared_accept s so c).grows
    have rest := ih (accept s so c)
    exact ⟨fun id old found => rest.accepted id old (first.accepted id old found),
      fun _ told => rest.told (first.told told)⟩

/-- What comes of a batch up to a chunk, and with it. -/
theorem grows_distinct (before : List Chunk) (c : Chunk) (after : List Chunk) :
    Grows (accept s (distinct s before) c) (distinct s (before ++ c :: after)) := by
  rw [distinct_eq, distinct_eq, List.foldl_append, List.foldl_cons]
  exact grows_foldl after _

/-- A chunk is told of, or one with its id and its content is accepted. -/
theorem collides_or_accepted (hc : c ∈ chunks) : .collision c ∈ (distinct s chunks).2 ∨
    ∃ old ∈ (distinct s chunks).1.values, old.id = c.id ∧ old.content = c.content := by
  obtain ⟨before, after, rfl⟩ := List.append_of_mem hc
  obtain ⟨accepted, told⟩ := grows_distinct (s := s) before c after
  have step := compared_accept s (distinct s before) c
  have there {old : Chunk} (found : (distinct s (before ++ c :: after)).1.get? c.id = some old)
      (same : old.content = c.content) :
      ∃ old ∈ (distinct s (before ++ c :: after)).1.values, old.id = c.id ∧ old.content = c.content := by
    have item := Keyed.get?_eq_some.1 found
    exact ⟨old, List.mem_map_of_mem item, (filed_members _ _ _ item).1.symm, same⟩
  generalize accept s (distinct s before) c = next at step accepted told
  cases step with
  | collides => exact .inl (told (List.mem_append_right _ (List.mem_singleton_self _)))
  | repeats found same => exact .inr (there (accepted _ _ found) same)
  | enters => exact .inr (there (accepted _ _ (Keyed.get?_put_self _ _ _)) rfl)

/-- The first chunk of an id that the store does not know is accepted. -/
theorem accepted_of_first {before after : List Chunk} (new : s.get? c.id = none) (first : c.id ∉ before.map Chunk.id) :
    c ∈ (distinct s (before ++ c :: after)).1.values := by
  obtain ⟨accepted, _⟩ := grows_distinct (s := s) before c after
  have absent : (distinct s before).1.get? c.id = none := by
    refine Keyed.get?_eq_none.2 fun there => first ?_
    obtain ⟨item, hi, same⟩ := List.mem_map.1 there
    obtain ⟨id, inside⟩ := filed_members _ _ item hi
    exact List.mem_map.2 ⟨item.2, inside, id.symm.trans same⟩
  have step := compared_accept s (distinct s before) c
  generalize accept s (distinct s before) c = next at step accepted
  cases step with
  | collides clash =>
    rw [clashes, absent, new] at clash
    cases clash
  | repeats found =>
    rw [absent] at found
    cases found
  | enters => exact Keyed.mem_values_of_get? (accepted _ _ (Keyed.get?_put_self _ _ _))

/-- The accepted chunks come in the order of the batch. -/
theorem sublist_distinct (s : ChunkStore) (chunks : List Chunk) : (distinct s chunks).1.values.Sublist chunks := by
  -- what is accepted so far is a sublist of what has been read so far
  have all : ∀ {so : Keyed String Chunk × List Complaint} {before : List Chunk}, so.1.values.Sublist before →
      (chunks.foldl (accept s) so).1.values.Sublist (before ++ chunks) := by
    induction chunks with
    | nil =>
      intro so before h
      rw [List.append_nil]
      exact h
    | cons c chunks ih =>
      intro so before h
      rw [List.foldl_cons, List.append_cons]
      refine ih ?_
      have step := compared_accept s so c
      generalize accept s so c = next at step
      cases step with
      | collides => exact h.trans (List.sublist_append_left _ _)
      | repeats => exact h.trans (List.sublist_append_left _ _)
      | enters new =>
        rw [Keyed.values, Keyed.items_put_of_not_mem (Keyed.get?_eq_none.1 new), List.map_append]
        exact h.append (List.Sublist.refl _)
  exact all (List.Sublist.refl _)

/-- What is taken of a batch comes in its order. -/
theorem sublist_taken (s : ChunkStore) (chunks : List Chunk) : (taken s chunks).Sublist chunks :=
  List.filter_sublist.trans (sublist_distinct s chunks)

/-! ## A batch that is cut in two -/

/-- The store once all that has been accepted is in it. -/
def filledWith (s : ChunkStore) (accepted : Keyed String Chunk) : ChunkStore := ⟨s.chunks.putAll accepted.items⟩

/-- What comes of a batch, put together from what comes of its parts. -/
structure Cut (first second whole : Keyed String Chunk × List Complaint) : Prop where
  items : whole.1.items = first.1.items ++ second.1.items.filter fun item => !first.1.has item.1
  complaints : whole.2 = first.2 ++ second.2

section Cut
variable {first second whole : Keyed String Chunk × List Complaint}

theorem get?_filledWith (s : ChunkStore) (accepted : Keyed String Chunk) (id : String) :
    (filledWith s accepted).get? id = (accepted.get? id).or (s.get? id) := Keyed.get?_putAll_items _ _ _

/-- The first part comes first. -/
theorem Cut.get?_whole (h : Cut first second whole) (id : String) :
    whole.1.get? id = (first.1.get? id).or (second.1.get? id) := by
  cases found : first.1.get? id with
  | some c =>
    rw [Option.some_or, Keyed.get?_eq_some, h.items]
    exact List.mem_append_left _ (Keyed.get?_eq_some.1 found)
  | none =>
    have absent : first.1.has id = false := by rw [Keyed.has_eq, found, Option.isSome_none]
    have gone (c : Chunk) : (id, c) ∉ first.1.items := fun there => by
      rw [Keyed.get?_eq_some.2 there] at found
      cases found
    rw [Option.none_or]
    apply Option.ext
    intro c
    rw [Keyed.get?_eq_some, Keyed.get?_eq_some, h.items, List.mem_append, List.mem_filter]
    simp [gone, absent]

/-- What the second part has under an id of the first has the content of the first. -/
theorem content_eq_of_free (free : Chunk.Filed (fun c => (filledWith s first.1).conflicts c = false) second.1)
    {id : String} {early later : Chunk} (found : first.1.get? id = some early) (there : second.1.get? id = some later) :
    early.content = later.content := by
  obtain ⟨same, agrees⟩ := free _ (Keyed.get?_eq_some.1 there)
  rw [ChunkStore.conflicts, get?_filledWith, ← same, found] at agrees
  simpa using agrees

/-- So a part clashes where the whole does. -/
theorem Cut.clashes_eq (h : Cut first second whole)
    (free : Chunk.Filed (fun c => (filledWith s first.1).conflicts c = false) second.1) (c : Chunk) :
    clashes (filledWith s first.1) second.1 c = clashes s whole.1 c := by
  rw [clashes, clashes, h.get?_whole, get?_filledWith]
  cases there : second.1.get? c.id with
  | none => rw [Option.none_or, Option.or_none]
  | some later =>
    cases found : first.1.get? c.id with
    | none => rw [Option.some_or, Option.none_or, Option.some_or]
    | some early => simp [content_eq_of_free free found there]

/-- The parts go on as the whole does. -/
theorem Cut.accept (h : Cut first second whole)
    (free : Chunk.Filed (fun c => (filledWith s first.1).conflicts c = false) second.1) (c : Chunk) :
    Cut first (accept (filledWith s first.1) second c) (accept s whole c) := by
  have either : whole.1.has c.id = (first.1.has c.id || second.1.has c.id) := by
    rw [Keyed.has_eq, Keyed.has_eq, Keyed.has_eq, h.get?_whole, Option.isSome_or]
  rw [accept_eq, accept_eq, h.clashes_eq free]
  split
  next => exact ⟨h.items, by rw [h.complaints, List.append_assoc]⟩
  next =>
    cases later : second.1.has c.id with
    | true =>
      rw [either, later, Bool.or_true]
      exact h
    | false =>
      have new := Keyed.has_eq_false.1 later
      rw [either, later, Bool.or_false]
      refine ⟨?_, ?_⟩
      · simp only [Bool.false_eq_true, if_false]
        rw [Keyed.items_put_of_not_mem new, List.filter_append]
        cases early : first.1.has c.id with
        -- the first part has the id, so what the second puts under it is not the whole's
        | true => simp [early, h.items]
        | false =>
          have fresh := Keyed.has_eq_false.1 (either.trans (by rw [early, later]; rfl))
          simp [early, Keyed.items_put_of_not_mem fresh, h.items]
      · cases first.1.has c.id <;> exact h.complaints

/-- A batch makes of a store what its parts make of it one after the other. -/
theorem cut_distinct (s : ChunkStore) (xs ys : List Chunk) :
    Cut (distinct s xs) (distinct (filledWith s (distinct s xs).1) ys) (distinct s (xs ++ ys)) := by
  -- by induction on the second part, which is compared with the store that the first part has filled
  have all : ∀ {second whole : Keyed String Chunk × List Complaint}, Cut (distinct s xs) second whole →
      Chunk.Filed (fun c => (filledWith s (distinct s xs).1).conflicts c = false) second.1 →
      Cut (distinct s xs) (ys.foldl (Indexing.accept (filledWith s (distinct s xs).1)) second)
        (ys.foldl (Indexing.accept s) whole) := by
    induction ys with
    | nil => exact fun h _ => h
    | cons c ys ih => exact fun h free => ih (h.accept free c) ((compared_accept _ _ c).free free)
  rw [distinct_eq s (xs ++ ys), List.foldl_append]
  exact all ⟨(List.append_nil _).symm, (List.append_nil _).symm⟩ .empty

end Cut

/-- The content of each chunk under its id. -/
def contents (chunks : List Chunk) : List (String × String) := chunks.map fun c => (c.id, c.content)

theorem contents_distinct : contents (distinct s chunks).1.values
    = (distinct s chunks).1.items.map fun item => (item.1, item.2.content) := by
  rw [← (filed_members _ _).items_eq, List.map_map]
  rfl

/-- What the whole accepts has the ids and the contents of what its parts accept one after the other. -/
theorem putAll_contents_distinct (s : ChunkStore) (xs ys : List Chunk) (m : Keyed String String) :
    m.putAll (contents (distinct s (xs ++ ys)).1.values) = (m.putAll (contents (distinct s xs).1.values)).putAll
      (contents (distinct (filledWith s (distinct s xs).1) ys).1.values) := by
  have once {s : ChunkStore} {chunks : List Chunk} :
      (((distinct s chunks).1.items.map fun item => (item.1, item.2.content)).map Prod.fst).Nodup := by
    rw [List.map_map]
    exact (distinct s chunks).1.nodup_keys
  have beyond := List.filter_map (f := fun item : String × Chunk => (item.1, item.2.content))
    (p := fun item => !(distinct s xs).1.has item.1) (l := (distinct (filledWith s (distinct s xs).1) ys).1.items)
  rw [contents_distinct, contents_distinct, contents_distinct, (cut_distinct s xs ys).items, List.map_append,
    Keyed.putAll_append]
  refine (congrArg _ beyond.symm).trans (Keyed.putAll_filter once _ fun item hi early => ?_)
  obtain ⟨⟨id, later⟩, there, rfl⟩ := List.mem_map.1 hi
  rw [Bool.not_eq_false', Keyed.has_eq, Option.isSome_iff_exists] at early
  obtain ⟨early, found⟩ := early
  rw [← content_eq_of_free (free_distinct ys) found (Keyed.get?_eq_some.2 there)]
  exact Keyed.get?_putAll_of_mem once _ (List.mem_map.2 ⟨(id, early), Keyed.get?_eq_some.1 found, rfl⟩)

/-- Of a store only the contents count. -/
theorem distinct_congr {s' : ChunkStore} (same : s.chunks.mapValues Chunk.content = s'.chunks.mapValues Chunk.content)
    (chunks : List Chunk) : distinct s chunks = distinct s' chunks := by
  have clash (accepted : Keyed String Chunk) (c : Chunk) : clashes s accepted c = clashes s' accepted c := by
    have under := congrArg (fun m : Keyed String String => m.get? c.id) same
    simp only [Keyed.get?_mapValues] at under
    change (s.get? c.id).map Chunk.content = (s'.get? c.id).map Chunk.content at under
    rw [clashes, clashes]
    cases accepted.get? c.id with
    | some old => rfl
    | none =>
      have any (known : Option Chunk) : known.any (fun old => decide (old.content ≠ c.content))
          = (known.map Chunk.content).any fun content => decide (content ≠ c.content) := by cases known <;> rfl
      rw [Option.none_or, Option.none_or, any, any, under]
  have steps : accept s = accept s' := by
    funext accepted c
    rw [accept_eq, accept_eq, clash]
  rw [distinct_eq, distinct_eq, steps]

section Parts
variable {s' : ChunkStore} {xs ys : List Chunk} (first : ∀ c ∈ xs, c.isFilled = true)
  (store : s'.chunks.mapValues Chunk.content = (s.chunks.mapValues Chunk.content).putAll (contents (taken s xs)))
include first store

/-- The store that has the contents of the first part is as good as the one that has its chunks. -/
theorem distinct_second (ys : List Chunk) : distinct s' ys = distinct (filledWith s (distinct s xs).1) ys := by
  refine distinct_congr (store.trans ?_) ys
  rw [taken_of_filled first, contents_distinct, filledWith, Keyed.mapValues_putAll]

/-- What is told of two parts is told of the whole. -/
theorem told_append : (distinct s (xs ++ ys)).2 = (distinct s xs).2 ++ (distinct s' ys).2 := by
  rw [distinct_second first store, (cut_distinct s xs ys).complaints]

/-- What the whole takes has the ids and the contents of what its parts take one after the other. -/
theorem putAll_contents_taken (second : ∀ c ∈ ys, c.isFilled = true) (m : Keyed String String) :
    m.putAll (contents (taken s (xs ++ ys)))
      = (m.putAll (contents (taken s xs))).putAll (contents (taken s' ys)) := by
  rw [taken_of_filled (List.forall_mem_append.2 ⟨first, second⟩), taken_of_filled first, taken_of_filled second,
    distinct_second first store]
  exact putAll_contents_distinct s xs ys m

end Parts

/-! ## A batch that comes again -/

/-- The store once what is taken of a batch is in it. -/
def withTaken (s : ChunkStore) (chunks : List Chunk) : ChunkStore :=
  ⟨s.chunks.putAll ((taken s chunks).map fun c => (c.id, c))⟩

/-- What the store has under an id is what it had before, or what has been accepted. -/
theorem get?_withTaken (s : ChunkStore) (chunks : List Chunk) (id : String) :
    (withTaken s chunks).get? id = s.get? id ∨
      ∃ c, (distinct s chunks).1.get? id = some c ∧ (withTaken s chunks).get? id = some c := by
  have ids : ((taken s chunks).map fun c => (c.id, c)).map Prod.fst = (taken s chunks).map Chunk.id := by
    rw [List.map_map]
    rfl
  by_cases put : id ∈ (taken s chunks).map Chunk.id
  · obtain ⟨c, hc, rfl⟩ := List.mem_map.1 put
    obtain ⟨⟨id, c⟩, item, rfl⟩ := List.mem_map.1 (List.mem_filter.1 hc).1
    obtain rfl : id = c.id := (filed_members _ _ _ item).1
    have once : (((taken s chunks).map fun c => (c.id, c)).map Prod.fst).Nodup := ids ▸ nodup_taken
    exact .inr ⟨c, Keyed.get?_eq_some.2 item, Keyed.get?_putAll_of_mem once _ (List.mem_map_of_mem hc)⟩
  · exact .inl (Keyed.get?_putAll_of_not_mem (ids ▸ put) _)

/-- A chunk of the batch clashes with that store where it has clashed with the one before. -/
theorem clashes_withTaken (before : List Chunk) (c : Chunk) (after : List Chunk) :
    clashes (withTaken s (before ++ c :: after)) (distinct s before).1 c = clashes s (distinct s before).1 c := by
  rw [clashes, clashes]
  cases new : (distinct s before).1.get? c.id with
  | some old => rfl
  | none =>
    rw [Option.none_or, Option.none_or]
    rcases get?_withTaken s (before ++ c :: after) c.id with same | ⟨winner, accepted, stands⟩
    · rw [same]
    rw [stands]
    cases known : s.get? c.id with
    | none =>
      -- the chunk is the first of its id, and so it is the one that has been accepted
      have step := compared_accept s (distinct s before) c
      have grows := @grows_distinct s before c after
      generalize accept s (distinct s before) c = next at step grows
      cases step with
      | collides clash =>
        rw [clashes, new, known] at clash
        cases clash
      | repeats found =>
        rw [new] at found
        cases found
      | enters =>
        have first := grows.accepted _ _ (Keyed.get?_put_self _ _ _)
        rw [accepted] at first
        obtain rfl := Option.some.inj first
        simp
    | some old =>
      obtain ⟨id, free⟩ := @free_distinct s (before ++ c :: after) _ (Keyed.get?_eq_some.1 accepted)
      have content : old.content = winner.content := by
        rw [ChunkStore.conflicts, ← id, known] at free
        simpa using free
      rw [Option.any_some, Option.any_some, content]

/-- So the second comparison of a batch decides as the first did. -/
theorem distinct_withTaken (s : ChunkStore) (chunks : List Chunk) :
    distinct (withTaken s chunks) chunks = distinct s chunks := by
  -- by induction on what is still to be compared
  have all : ∀ {after before : List Chunk}, chunks = before ++ after →
      after.foldl (accept (withTaken s chunks)) (distinct s before) = after.foldl (accept s) (distinct s before) := by
    intro after
    induction after with
    | nil => exact fun _ => rfl
    | cons c after ih =>
      intro before cut
      have step : accept (withTaken s chunks) (distinct s before) c = accept s (distinct s before) c := by
        rw [accept_eq, accept_eq, cut, clashes_withTaken]
      have next : accept s (distinct s before) c = distinct s (before ++ [c]) := by
        rw [distinct_eq s (before ++ [c]), List.foldl_append, ← distinct_eq]
        rfl
      rw [List.foldl_cons, List.foldl_cons, step, next]
      exact ih (cut.trans (List.append_cons _ _ _))
  exact all (List.nil_append chunks).symm

theorem taken_withTaken (s : ChunkStore) (chunks : List Chunk) : taken (withTaken s chunks) chunks = taken s chunks := by
  rw [taken, taken, distinct_withTaken]

end Distinct

end CodeSearch.Indexing
