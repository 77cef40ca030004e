import CodeSearch.Proofs.Chunk.RoundTrip
/-!
# Records that are taken, and taken again

A chunk is stored as its record and read from it when an index is opened. `ofRecord_stored`: what was made of a record
from outside is made of the stored record again, field by field, exactly if the last line was given or the first line
is zero. A last line that is not given stands at zero without being compared with the first, but the stored record has
both, and is refused where they are not in order.
-/

namespace CodeSearch.Chunk

open Record

/-- Naming the kind leaves all other fields as they are. -/
theorem get?_nameKind {fields : Json.Fields} {name : String} (differ : name ≠ "kind") :
    (nameKind fields).get? name = fields.get? name := by
  unfold nameKind
  split
  next =>
    split
    next => exact Json.get?_set_of_ne differ _
    next => rfl
  next => rfl

/-- A last line that is given is compared with the first. -/
theorem inOrder_of_given {fields : Json.Fields} {c : Chunk} (h : read fields = .good c)
    (given : (fields.get? "end_line").isSome = true) : c.InOrder := by
  obtain ⟨_, _, _, _, _, _, last, _⟩ := read_good h
  obtain ⟨value, found⟩ := Option.isSome_iff_exists.1 given
  rw [Record.optional, found] at last
  obtain ⟨n, _, check⟩ := Checked.andThen_good (Checked.under_good last)
  split at check
  next => cases check
  next notBefore =>
    injection check with check
    rw [InOrder, ← check]
    exact Nat.not_lt.1 notBefore

/-- One that is not given is zero, whatever the first is. -/
theorem endLine_of_absent {fields : Json.Fields} {c : Chunk} (h : read fields = .good c)
    (absent : fields.get? "end_line" = none) : c.endLine = 0 := by
  obtain ⟨_, _, _, _, _, _, last, _⟩ := read_good h
  rw [Record.optional, absent] at last
  injection last with last
  exact last.symm

/-- The lines of a chunk that was made of a record are in order exactly if the last was given, or the first is zero. -/
theorem inOrder_iff {fields : Json.Fields} {c : Chunk} (h : read fields = .good c) :
    c.InOrder ↔ (fields.get? "end_line").isSome = true ∨ c.startLine = 0 := by
  constructor
  · intro order
    cases found : fields.get? "end_line" with
    | some value => exact .inl rfl
    | none =>
      rw [InOrder, endLine_of_absent h found] at order
      exact .inr (Nat.le_zero.1 order)
  · rintro (given | zero)
    · exact inOrder_of_given h given
    · rw [InOrder, zero]
      exact Nat.zero_le _

/-- A chunk that was made of a record, with data that is not nested too deeply, has a record that can be written and
read. If the last line was given, or the first is zero, the same chunk is made of that record, and its lines are in
order; if not, the record is refused. -/
theorem ofRecord_stored {record : Json.Fields} {c : Chunk} (data : (Json.obj record).IsData)
    (accepted : ofRecord record = .ok c) (shallow : c.IsShallow) :
    ∃ fields, c.stored = .ok (.obj fields) ∧ Json.parse (Json.render {} (.obj fields)) = .ok (.obj fields) ∧
      ((record.get? "end_line").isSome = true ∨ c.startLine = 0 → ofRecord fields = .ok c ∧ c.startLine ≤ c.endLine) ∧
      (record.get? "end_line" = none → c.startLine ≠ 0 →
        ∃ reason id, ofRecord fields = .error (.invalidChunk reason id)) := by
  have good := read_of_ofRecord accepted
  have wellRead : c.WellRead := wellRead_of_read (isData_nameKind data) good
  have order := inOrder_iff good
  rw [get?_nameKind (by decide)] at order
  have deep : c.json.depth ≤ Json.nestingLimit := by
    have := depth_json wellRead shallow
    rw [metadataDepth] at this
    rw [Json.nestingLimit]
    omega
  refine ⟨c.record, ?_, Json.parse_render (isData_json wellRead) deep, fun given => ?_, fun absent first => ?_⟩
  · rw [stored_of_shallow wellRead.checked shallow]
    rfl
  · rw [← ofJson_obj]
    exact ⟨ofJson_json wellRead (order.2 given), order.2 given⟩
  · rw [← ofJson_obj]
    refine ofJson_json_of_disorder wellRead fun inOrder => ?_
    rcases order.1 inOrder with given | zero
    · rw [absent] at given
      cases given
    · exact first zero

/-- A record with a kind in small letters, a first line in digits and an import that is repeated. -/
theorem ofRecord_stored_repeated :
    let record : Json.Fields := [("id", .str "x"), ("content", .str "alpha"), ("kind", .str "method"),
      ("start_line", .str "2"), ("end_line", .int 3), ("imports", .arr [.str "b", .str "a", .str "b"])]
    ∃ c fields, ofRecord record = .ok c ∧ c.imports = ["b", "a"] ∧ c.stored = .ok (.obj fields) ∧
      ofRecord fields = .ok c ∧ c.startLine = 2 ∧ c.endLine = 3 := by
  intro record
  have data : (Json.obj record).IsData := by
    have str {s : String} (ascii : s.toList.all (fun c => c.toNat < 128) = true) : (Json.str s).IsData :=
      Json.isData_str.2 (isKept_ascii ascii)
    have once : (record.map Prod.fst).Nodup := by decide
    rw [Json.isData_obj]
    refine ⟨once, ?_⟩
    simp only [record, List.forall_mem_cons, Json.isData_arr]
    refine ⟨⟨isKept_ascii (by decide), str (by decide)⟩, ⟨isKept_ascii (by decide), str (by decide)⟩,
      ⟨isKept_ascii (by decide), str (by decide)⟩, ⟨isKept_ascii (by decide), str (by decide)⟩,
      ⟨isKept_ascii (by decide), isData_nat (hasDigits_of_lt (k := 1) (by decide) (by decide) (by decide))⟩,
      ⟨isKept_ascii (by decide), str (by decide), str (by decide), str (by decide), by simp⟩, by simp⟩
  let c : Chunk := { id := "x", content := "alpha", kind := .method, startLine := 2, endLine := 3, imports := ["b", "a"] }
  have accepted : ofRecord record = .ok c := by rfl
  obtain ⟨fields, stored, _, again, _⟩ := ofRecord_stored data accepted (by decide +kernel)
  exact ⟨c, fields, accepted, rfl, stored, (again (.inl rfl)).1, rfl, rfl⟩

end CodeSearch.Chunk
