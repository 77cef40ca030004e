import CodeSearch.Proofs.Faults
import CodeSearch.Proofs.Retrieval.PatternQuery
import CodeSearch.Proofs.Vector.Found
import CodeSearch.Retrieval.Pipeline
/-!
# Searches for fragments do not fail by their queries

Only reading a query raises the faults of one. No other stage of a search does, as long as the parts that a retriever is
given do not (`AsksNothing`), and the query for a fragment of code can always be read. So a search for a fragment never
ends by such a fault, whatever stands in the fragment (`Retriever.findPattern_plain`).
-/

namespace CodeSearch

/-- A query cannot be read. -/
def Fault.isOfQuery : Fault → Bool
  | .badQuery _ | .danglingItem _ _ _ => true
  | _ => false

/-- Something else than a query is wrong. -/
def Fault.IsElsewhere (fault : Fault) : Prop := fault.isOfQuery = false

theorem FailsBy.elsewhere {α : Type} {fault : Fault} (h : fault.isOfQuery = false) :
    FailsBy Fault.IsElsewhere (.error fault : Except Fault α) := .error h

/-! ## Numbers, settings and chunks -/

/-- The use of a setting raises no fault of a query. -/
def Unfit.IsElsewhere (unfit : Unfit) : Prop := ∀ setting ∈ unfit, setting.2.IsElsewhere

theorem Unfit.IsElsewhere.check {unfit : Unfit} (h : unfit.IsElsewhere) (names : List String) :
    FailsBy Fault.IsElsewhere (unfit.check names) := by
  refine .forM fun name _ => ?_
  cases found : unfit.lookup name with
  | none => exact .ok _
  | some fault =>
    obtain ⟨before, after, rfl, _⟩ := List.lookup_eq_some_iff.1 found
    exact .error (h (name, fault) (by simp))

theorem Unfit.IsElsewhere.use {unfit : Unfit} (h : unfit.IsElsewhere) {β : Type} (names : List String) (value : β) :
    FailsBy Fault.IsElsewhere (unfit.use names value) := (h.check names).map _

theorem Number.elsewhere_toSize (n : Number) : FailsBy Fault.IsElsewhere n.toSize := by
  cases n with
  | whole n => exact .ok _
  | real x => exact .elsewhere rfl

theorem Number.elsewhere_toFloat (n : Number) : FailsBy Fault.IsElsewhere n.toFloat := by
  cases n with
  | whole n =>
    rw [toFloat, Json.toDouble]
    split
    · exact .elsewhere rfl
    · exact .ok _
  | real x => exact .ok _

theorem Number.elsewhere_times (m n : Number) : FailsBy Fault.IsElsewhere (m.times n) := by
  have product (m n : Number) : 
      FailsBy Fault.IsElsewhere (do return Number.real ((← m.toFloat) * (← n.toFloat))) :=
    m.elsewhere_toFloat.bind fun _ _ => n.elsewhere_toFloat.bind fun _ _ => .ok _
  cases m <;> cases n
  case whole.whole => exact .ok _
  all_goals exact product _ _

theorem Fault.elsewhere_ofNotFinite {β : Type} (answer : Except Decimal.NotFinite β) :
    FailsBy IsElsewhere (answer.mapError ofNotFinite) := by
  match answer with
  | .ok _ => exact .ok _
  | .error .nan => exact .elsewhere rfl
  | .error .infinite => exact .elsewhere rfl

theorem Json.elsewhere_elements (value : Json) : FailsBy Fault.IsElsewhere value.elements :=
  value.failsBy_elements (rfl : Fault.IsElsewhere .wrongType)

namespace Chunk

theorem elsewhere_noIssues (issues : List Record.Issue) : FailsBy Fault.IsElsewhere (noIssues issues) := by
  rw [noIssues]
  split
  · exact .ok _
  · exact .elsewhere rfl

theorem elsewhere_toRecord (value : Json) : FailsBy Fault.IsElsewhere value.toRecord := by
  have pairs : ∀ (pairs : List Json) (before : Json.Fields),
      FailsBy Fault.IsElsewhere (Json.setPairs before pairs) := by
    intro pairs
    induction pairs with
    | nil => exact fun _ => .ok _
    | cons pair pairs ih =>
      intro before
      rw [Json.setPairs]
      refine pair.elsewhere_elements.bind fun parts _ => ?_
      split
      · split
        · exact .ite (.error (rfl : Fault.IsElsewhere .wrongType)) (ih _)
        · exact .ite (.error (rfl : Fault.IsElsewhere .wrongType)) (ih _)
      · exact .elsewhere rfl
  cases value with
  | obj fields => exact .ok _
  | _ => exact (Json.elsewhere_elements _).bind fun items _ => pairs items []

theorem elsewhere_checkSummary (largest : ℤ) (c : Chunk) : FailsBy Fault.IsElsewhere (checkSummary largest c) := by
  refine (c.failsBy_checkBeside (fun value => ?_) "content").bind fun _ _ => ?_
  · split
    · split
      · exact .ok _
      · exact .elsewhere rfl
    · exact .elsewhere rfl
  refine (c.failsBy_checkBeside (fun value => (elsewhere_toRecord value).map _) _).bind fun _ _ => ?_
  refine (c.failsBy_checkBeside (fun value => value.elsewhere_elements.map _) _).bind fun _ _ => ?_
  refine (c.failsBy_checkBeside (fun value => value.elsewhere_elements.map _) _).bind fun _ _ => ?_
  exact elsewhere_noIssues _

end Chunk

/-! ## The stages -/

namespace Retrieval

/-- What a retriever is given raises no fault of a query: the chunks that are looked up, the embedder, and the settings
that were read for it. -/
structure AsksNothing {α : Type} (r : Retriever α) : Prop where
  lookup : ∀ lookup ∈ r.lookup, ∀ id, FailsBy Fault.IsElsewhere (lookup id)
  embedder : ∀ v ∈ r.vectors, ∀ text, FailsBy Fault.IsElsewhere (v.embedder.vector text)
  preselection : ∀ v ∈ r.vectors, FailsBy Fault.IsElsewhere v.preselection
  tunables : r.tunables.unfit.IsElsewhere
  lexical : r.lexical.unfit.IsElsewhere
  reranker : ∀ k ∈ r.reranker, k.unfit.IsElsewhere

variable {α : Type} {r : Retriever α} {s : Search α}

/-- A search all of whose settings do not raise faults of queries, and whose query can be read. -/
structure Search.AsksNothing (s : Search α) : Prop where
  query : ∃ q, Query.parse s.query = .ok q
  prefilterSize : FailsBy Fault.IsElsewhere s.prefilterSize
  structural : ∀ g batch, FailsBy Fault.IsElsewhere (s.structural g batch)
  retained : ∀ count, FailsBy Fault.IsElsewhere (s.retained count)
  recallSize : FailsBy Fault.IsElsewhere s.recallSize
  threshold : FailsBy Fault.IsElsewhere s.threshold

theorem elsewhere_chunk? (h : AsksNothing r) (id : String) : FailsBy Fault.IsElsewhere (r.chunk? id) := by
  rw [Retriever.chunk?]
  cases given : r.lookup with
  | none => exact .ok _
  | some lookup => exact (h.lookup lookup given id).bind fun _ _ => .ok _

variable [Scalar α]

theorem elsewhere_prefilter (h : AsksNothing r) (plain : s.AsksNothing) :
    FailsBy Fault.IsElsewhere (prefilter r s) := by
  obtain ⟨q, parsed⟩ := plain.query
  have told (hits : List (Lexical.Hit α)) : FailsBy Fault.IsElsewhere (hits.mapM Lexical.Hit.checked) :=
    .mapM fun hit _ => (Chunk.elsewhere_noIssues _).map _
  have ranked (size : ℤ) : FailsBy Fault.IsElsewhere (r.lexical.ranked q .content size s.kind) :=
    .ite ((h.lexical.check _).bind fun _ _ => told _) (told _)
  rw [prefilter, parsed]
  refine plain.prefilterSize.bind fun size _ => (ranked size).bind fun hits _ => ?_
  split
  · exact .ok _
  · exact (FailsBy.mapM fun hit _ => (elsewhere_chunk? h _).bind fun _ _ => .ok _).bind fun _ _ => .ok _

theorem elsewhere_graphFilter (h : AsksNothing r) (plain : s.AsksNothing) (candidates : List (Candidate α)) :
    FailsBy Fault.IsElsewhere (graphFilter r s candidates) := by
  unfold graphFilter
  split
  · exact .ok _
  · refine (plain.structural _ _).bind fun _ _ => (plain.retained _).bind fun _ _ => ?_
    exact (h.tunables.check _).bind fun _ _ => .ok _

theorem elsewhere_findText (h : AsksNothing r) {v : VectorIndex α} (given : v ∈ r.vectors) (text : String) (size : ℤ)
    (least : α) : FailsBy Fault.IsElsewhere (v.findText text size least) := by
  have table : FailsBy Fault.IsElsewhere (VectorIndex.checkTable v.dimension) := by
    unfold VectorIndex.checkTable
    split
    · exact .ok _
    · split
      · exact .ite (.elsewhere rfl) (.ok _)
      · exact .elsewhere rfl
  have view : FailsBy Fault.IsElsewhere v.view :=
    .ite (.ok _) (.ite (table.map _) (.ite ((h.preselection v given).map _) (.elsewhere rfl)))
  have compared (snapshot : Vector.Snapshot α) (query : List α) :
      FailsBy Fault.IsElsewhere (VectorIndex.compared (v.choiceFor snapshot) snapshot (.ofList query) size) := by
    rw [VectorIndex.compared, Tensor.flatten_ofList, ok_bind]
    split
    · exact .ok _
    · exact .ite (.error (rfl : Fault.IsElsewhere (.widths _ _))) (.ok _)
  have nearest (found : List (Vector.Similar α)) :
      FailsBy Fault.IsElsewhere (VectorIndex.nearest found size least none) :=
    .mapM fun similar _ => (Chunk.elsewhere_noIssues _).bind fun _ _ => .ok _
  refine .ite (.ok _) ((h.embedder v given text).bind fun query _ => view.bind fun snapshot _ => ?_)
  exact .ite (.ok _) ((compared snapshot query).bind fun found _ => nearest found)

theorem elsewhere_vectorFilter (h : AsksNothing r) (plain : s.AsksNothing) (candidates : List (Candidate α)) :
    FailsBy Fault.IsElsewhere (vectorFilter r s candidates) := by
  unfold vectorFilter
  split
  · exact .ok _
  next v given =>
    refine plain.recallSize.bind fun _ _ => (elsewhere_findText h given _ _ _).bind fun _ _ => ?_
    exact plain.threshold.bind fun _ _ => .ok _

theorem elsewhere_rerank (h : AsksNothing r) (ranked : List (RankedCandidate α)) :
    FailsBy Fault.IsElsewhere (rerank r s ranked).1 := by
  unfold rerank
  split
  next k given =>
    have fit := h.reranker k given
    have summary (c : RankedCandidate α) : FailsBy Fault.IsElsewhere (k.checkSummary c) := by
      have summed : FailsBy Fault.IsElsewhere (c.chunk.checkSummary k.contentLimit) := Chunk.elsewhere_checkSummary _ _
      exact (fit.check _).bind fun _ _ => .ite (k.maxContentChars.elsewhere_toSize.bind fun _ _ => summed) summed
    have asked : FailsBy Fault.IsElsewhere (k.checkAsked ranked) :=
      (fit.check _).bind fun _ _ => .forM fun c _ => summary c
    unfold Rerank.Reranker.reranked
    split
    · exact .ok _
    · split
      next fault failed => exact .error (asked fault failed)
      next => exact (fit.check _).map _
  · exact .ok _

theorem elsewhere_finish (maxResults : Number) (ranked : List (RankedCandidate α)) :
    FailsBy Fault.IsElsewhere (finish maxResults ranked) := maxResults.elsewhere_toSize.bind fun _ _ => .ok _

/-! ## Whole searches -/

omit [Scalar α] in
theorem elsewhere_guarded {results : Except Fault (List (RankedCandidate α))} (h : FailsBy Fault.IsElsewhere results) :
    FailsBy Fault.IsElsewhere (guarded results) := by
  unfold guarded
  split
  · exact .error (h _ rfl)
  · exact .error (h _ rfl)
  · exact .elsewhere rfl
  · exact .ok _
  · exact .ok _

theorem elsewhere_run (h : AsksNothing r) (plain : s.AsksNothing) (maxResults : Number) :
    FailsBy Fault.IsElsewhere (run r s maxResults).results := by
  unfold run
  split
  next fault failed => exact elsewhere_guarded (.error (elsewhere_prefilter h plain fault failed))
  next => exact elsewhere_guarded (.ok _)
  next found _ _ =>
    split
    next fault failed => exact elsewhere_guarded (.error (elsewhere_graphFilter h plain found fault failed))
    next kept _ =>
      unfold Outcome.late
      split
      next fault failed => exact elsewhere_guarded (.error (elsewhere_vectorFilter h plain kept fault failed))
      next => exact elsewhere_guarded ((elsewhere_rerank h _).bind fun _ _ => elsewhere_finish maxResults _)

theorem elsewhere_searching (h : AsksNothing r) (plain : s.AsksNothing) (maxResults : Option Number) :
    FailsBy Fault.IsElsewhere (r.searching s maxResults).results := by
  have limit : FailsBy Fault.IsElsewhere (r.limit maxResults) := by
    cases maxResults with
    | none => exact h.tunables.use _ _
    | some _ => exact .ok _
  unfold Retriever.searching
  split
  next fault failed => exact elsewhere_guarded (.error (limit fault failed))
  next =>
    split
    · exact elsewhere_guarded (.ok _)
    · exact elsewhere_run h plain _

theorem asksNothing_patternSearch (h : AsksNothing r) (source : String) (hint : Option String)
    (kind : Option ChunkKind) :
    (patternSearch r.tunables source hint kind).AsksNothing where
  query := ⟨_, parse_patternQuery source hint _⟩
  prefilterSize := ((h.tunables.check _).bind fun _ _ => Number.elsewhere_times _ _).bind fun size _ =>
    size.elsewhere_toSize
  structural _ _ := .mapM fun _ _ => .ite (.error (rfl : Fault.IsElsewhere .missingMember)) (.ok _)
  retained _ := (h.tunables.check _).bind fun _ _ => (Fault.elsewhere_ofNotFinite _).bind fun _ _ =>
    .ite (Number.elsewhere_toSize _) (.ok _)
  recallSize := ((h.tunables.check _).bind fun _ _ => Number.elsewhere_times _ _).map _
  threshold := (h.tunables.check _).bind fun _ _ => .ok _

end Retrieval

namespace Retriever

open Retrieval

variable {α : Type} [Scalar α]

/-- The query for a fragment of code is made of its first telling names and of all names of the hint. It reads as their
tokens, of which none is required or ruled out, and without phrases. So no search for a fragment fails by its query. -/
theorem findPattern_plain {r : Retriever α} (given : AsksNothing r) (source : String) (hint : Option String) :
    (∀ count : ℤ, 0 ≤ count → ∃ names, Selects source count names ∧
      patternQuery source hint count = " ".intercalate (names ++ identifiers (hint.getD "")) ∧
      Query.parse (patternQuery source hint count)
        = .ok ⟨firsts (Token.tokens (patternQuery source hint count)), [], [], []⟩) ∧
    ∀ kind maxResults, FailsBy Fault.IsElsewhere (r.findPattern source hint kind maxResults).results := by
  refine ⟨fun count positive => ?_, fun kind maxResults => ?_⟩
  · obtain ⟨count, rfl⟩ := Int.eq_ofNat_of_zero_le positive
    exact ⟨_, selects_tellingIdentifiers source count, patternQuery_eq source hint count,
      parse_patternQuery source hint count⟩
  · unfold findPattern
    simp only []
    split
    · exact elsewhere_guarded (.ok _)
    · exact elsewhere_searching given (asksNothing_patternSearch given source hint kind) maxResults

/-- A fragment full of operators and quotes. -/
def statement : String := "total += -\"rate\" + -total; return total"

/-- One name of it goes into the query, and it can be looked for. -/
theorem findPattern_plain_statement :
    let r : Retriever Float := { lexical := .blank none (.whole 1) (.whole 1) (.ok 10), tunables := .standard }
    Query.parse (patternQuery statement none 1) = .ok ⟨["total"], [], [], []⟩ ∧
      FailsBy Fault.IsElsewhere (r.findPattern statement none none none).results := by
  intro r
  have given : AsksNothing r := ⟨nofun, nofun, nofun, nofun, nofun, nofun⟩
  obtain ⟨queries, fails⟩ := findPattern_plain given statement none
  obtain ⟨_, _, _, parsed⟩ := queries 1 (by decide)
  have tokens : firsts (Token.tokens (patternQuery statement none 1)) = ["total"] := by decide +kernel
  rw [tokens] at parsed
  exact ⟨parsed, fails none none⟩

end Retriever

end CodeSearch
