import CodeSearch.Proofs.Firsts
import CodeSearch.Proofs.Graph.Terms
import CodeSearch.Proofs.Scalar
/-!
# The neighbours of a chunk

`Tells` says what stands in the relations of some chunks: what the chunks bring there, and nothing else. Entering a
chunk of a new id keeps that (`Tells.enter`), so it holds of all chunks with distinct ids (`tells_ofChunks`). From it
follows which chunks are related to one (`mem_related`), and a number of neighbours that is large enough leaves out
none of them (`rebuild_neighbors`).
-/

namespace CodeSearch

/-! ## Related chunks -/

/-- A name ends with a dot, so that its last segment is empty. -/
def EndsInDot (name : String) : Prop := name.toList.getLast? = some '.'

namespace Chunk

/-- The types that a chunk says it extends or implements. -/
def supertypes (c : Chunk) : List String := Relations.supertypesOf (c.enclosingClass.getD "")

/-- One of some names means a chunk: its last segment is the simple name of the chunk. -/
def IsMeant (c : Chunk) (names : List String) : Prop :=
  c.simpleName ≠ "" ∧ ∃ name ∈ names, lastSegmentText name = c.simpleName

theorem isMeant_congr {c : Chunk} {names others : List String} (same : ∀ name, name ∈ names ↔ name ∈ others) :
    c.IsMeant names ↔ c.IsMeant others := by
  simp only [IsMeant, same]

/-- One of two chunks names the other as a supertype. -/
def Inherits (c d : Chunk) : Prop := d.IsMeant c.supertypes ∨ c.IsMeant d.supertypes

def SharesPackage (c d : Chunk) : Prop :=
  ∃ package, Relations.package? c = some package ∧ Relations.package? d = some package

theorem Inherits.symm {c d : Chunk} (h : c.Inherits d) : d.Inherits c := Or.symm h

theorem SharesPackage.symm {c d : Chunk} (h : c.SharesPackage d) : d.SharesPackage c := by
  obtain ⟨package, here, there⟩ := h
  exact ⟨package, there, here⟩

theorem lastSegmentText_ne_empty {name : String} (there : name ≠ "") (whole : ¬ EndsInDot name) :
    lastSegmentText name ≠ "" := by
  intro empty
  have none : name.toList.reverse.takeWhile (· ≠ '.') = [] := by
    simpa [lastSegmentText, lastSegment] using empty
  cases reversed : name.toList.reverse with
  | nil => exact there (by simpa using reversed)
  | cons last rest =>
    rw [reversed] at none
    have dot : last = '.' := by
      by_contra other
      rw [List.takeWhile_cons_of_pos (by simpa using other)] at none
      cases none
    refine whole ?_
    rw [EndsInDot, ← List.head?_reverse, reversed, dot, List.head?_cons]

/-- A chunk has a simple name if its qualified name ends in one. -/
theorem nonEmpty?_isSome_iff {c : Chunk} (whole : ∀ name ∈ c.qualifiedName, ¬ EndsInDot name) :
    (nonEmpty? c.qualifiedName).isSome ↔ c.simpleName ≠ "" := by
  rw [simpleName]
  cases named : c.qualifiedName with
  | none => decide
  | some name =>
    by_cases empty : name = ""
    · subst empty
      decide
    · simpa [nonEmpty?, empty] using lastSegmentText_ne_empty empty (whole name named)

end Chunk

namespace Relations

variable {r : Relations} {chunks : List Chunk} {c : Chunk}

/-! ## What chunks bring to a map -/

/-- Under each key of a map stand the values that chunks bring there. -/
def Lists (m : Keyed String (List String)) (brings : Chunk → String → String → Prop) (chunks : List Chunk) : Prop :=
  ∀ key value, value ∈ (m.get? key).getD [] ↔ ∃ c ∈ chunks, brings c key value

/-- Under the id of a chunk stands the value that it has. -/
def Finds (m : Keyed String String) (value? : Chunk → Option String) (chunks : List Chunk) : Prop :=
  ∀ id value, m.get? id = some value ↔ ∃ c ∈ chunks, c.id = id ∧ value? c = some value

section Lists
variable {m : Keyed String (List String)} {brings : Chunk → String → String → Prop}

theorem Lists.snoc {n : Keyed String (List String)} (h : Lists m brings chunks)
    (more : ∀ key value, value ∈ (n.get? key).getD [] ↔ value ∈ (m.get? key).getD [] ∨ brings c key value) :
    Lists n brings (chunks ++ [c]) := by
  intro key value
  rw [more, h]
  simp [or_and_right, exists_or]

/-- A chunk of a new id notes its values under the id. -/
theorem Lists.note {of : Chunk → List String} (h : Lists m (fun c id value => c.id = id ∧ value ∈ of c) chunks)
    (fresh : c.id ∉ chunks.map Chunk.id) {values : List String} (same : ∀ value, value ∈ values ↔ value ∈ of c) :
    Lists (note m c.id values) (fun c id value => c.id = id ∧ value ∈ of c) (chunks ++ [c]) := by
  have none : (m.get? c.id).getD [] = [] := by
    refine List.eq_nil_iff_forall_not_mem.2 fun value there => ?_
    obtain ⟨d, hd, id, _⟩ := (h _ _).1 there
    exact fresh (id ▸ List.mem_map_of_mem hd)
  refine h.snoc fun key value => ?_
  rw [Relations.note]
  by_cases empty : values = []
  · have no : value ∉ of c := fun there => by simpa [empty] using (same value).2 there
    simp [empty, no]
  · rw [if_neg (by simpa using empty), Keyed.get?_put]
    by_cases own : key = c.id
    · simp [own, none, same]
    · simp [own, Ne.symm own]

/-- A chunk adds its id under a key. -/
theorem Lists.put {key : String} {values : List String} (h : Lists m brings chunks)
    (same : ∀ value, value ∈ values ↔ value ∈ (m.get? key).getD [] ∨ value = c.id)
    (only : ∀ other value, brings c other value ↔ other = key ∧ value = c.id) :
    Lists (m.put key values) brings (chunks ++ [c]) := by
  refine h.snoc fun other value => ?_
  rw [only, Keyed.get?_put]
  split
  next own => simp [own, same]
  next own => simp [own]

theorem Lists.skip (h : Lists m brings chunks) (no : ∀ key value, ¬ brings c key value) :
    Lists m brings (chunks ++ [c]) := h.snoc fun key value => by simp [no]

end Lists

section Finds
variable {m : Keyed String String} {value? : Chunk → Option String}

theorem Finds.skip (h : Finds m value? chunks) (no : value? c = none) : Finds m value? (chunks ++ [c]) := by
  intro id value
  rw [h]
  simp [or_and_right, exists_or, no]

theorem Finds.put (h : Finds m value? chunks) (fresh : c.id ∉ chunks.map Chunk.id) {value : String}
    (there : value? c = some value) : Finds (m.put c.id value) value? (chunks ++ [c]) := by
  intro id other
  rw [Keyed.get?_put]
  by_cases own : id = c.id
  · have no : ∀ d ∈ chunks, d.id ≠ c.id := fun d hd same => fresh (same ▸ List.mem_map_of_mem hd)
    simp only [own, if_true]
    constructor
    · intro same
      exact ⟨c, by simp, rfl, there.trans same⟩
    · rintro ⟨d, hd, same, found⟩
      rcases List.mem_append.1 hd with old | new
      · exact absurd same (no d old)
      · rw [List.mem_singleton.1 new, there] at found
        exact found
  · rw [if_neg own, h]
    simp [or_and_right, exists_or, Ne.symm own]

end Finds

/-! ## What stands in the relations -/

/-- The relations tell of some chunks what they bring, and nothing else. -/
structure Tells (r : Relations) (chunks : List Chunk) : Prop where
  names : Finds r.names (fun c => Chunk.nonEmpty? c.qualifiedName) chunks
  packageOf : Finds r.packageOf package? chunks
  bySimpleName : Lists r.bySimpleName
    (fun c name id => (Chunk.nonEmpty? c.qualifiedName).isSome ∧ name = c.simpleName ∧ id = c.id) chunks
  packageMembers : Lists r.packageMembers (fun c package id => package? c = some package ∧ id = c.id) chunks
  calls : Lists r.calls (fun c id name => c.id = id ∧ name ∈ c.apiCalls) chunks
  supertypes : Lists r.supertypes (fun c id name => c.id = id ∧ name ∈ c.supertypes) chunks

theorem Tells.enter (h : Tells r chunks) (checked : c.unchecked = []) (fresh : c.id ∉ chunks.map Chunk.id) :
    Tells (r.enter c) (chunks ++ [c]) := by
  have kept {names : List String} (value : String) : value ∈ firsts names ↔ value ∈ names := mem_firsts
  rw [Relations.enter, Chunk.elementNames_of_checked checked "api_call_sequence"]
  refine ⟨?_, ?_, ?_, ?_, h.calls.note fresh kept, h.supertypes.note fresh fun _ => Iff.rfl⟩
  · cases named : Chunk.nonEmpty? c.qualifiedName with
    | none => exact h.names.skip named
    | some name => exact h.names.put fresh named
  · cases found : package? c with
    | none => exact h.packageOf.skip found
    | some package => exact h.packageOf.put fresh found
  · cases named : Chunk.nonEmpty? c.qualifiedName with
    | none => exact h.bySimpleName.skip (by simp [named])
    | some name => exact h.bySimpleName.put (by simp) (by simp [named])
  · cases found : package? c with
    | none => exact h.packageMembers.skip (by simp [found])
    | some package => exact h.packageMembers.put (by simp [mem_firsts]) (by simp [found, eq_comm])

theorem tells_ofChunks (checked : ∀ c ∈ chunks, c.unchecked = []) (once : (chunks.map Chunk.id).Nodup) :
    Tells (ofChunks chunks) chunks := by
  have all : ∀ {r : Relations} {before : List Chunk}, Tells r before → ((before ++ chunks).map Chunk.id).Nodup →
      Tells (chunks.foldl Relations.enter r) (before ++ chunks) := by
    clear once
    induction chunks with
    | nil => exact fun h _ => by simpa using h
    | cons c chunks ih =>
      intro r before h once
      have fresh : c.id ∉ before.map Chunk.id := by
        rw [List.map_append, List.map_cons] at once
        intro there
        exact (List.nodup_append.1 once).2.2 _ there _ List.mem_cons_self rfl
      rw [List.append_cons] at once ⊢
      exact ih (fun d hd => checked d (List.mem_cons_of_mem _ hd))
        (h.enter (checked c List.mem_cons_self) fresh) once
  exact @all {} [] (by constructor <;> simp [Lists, Finds]) once

/-! ## Neighbours -/

theorem related_eq (r : Relations) (id : String) : r.related id =
    (firsts (r.namedBy ((r.calls.get? id).getD []) ++ r.namedBy ((r.supertypes.get? id).getD [])
      ++ r.subtypes (Chunk.lastSegmentText ((r.names.get? id).getD ""))
      ++ ((r.packageOf.get? id).map fun package => sorted ((r.packageMembers.get? package).getD [])).getD [])).filter
        (· ≠ id) := by
  rw [related]
  cases r.packageOf.get? id <;> rfl

theorem related_nodup (r : Relations) (id : String) : (r.related id).Nodup := (firsts_nodup _).filter _

/-- Of chunks with distinct ids, a chunk is the only one of its id. -/
theorem exists_of_id_iff (once : (chunks.map Chunk.id).Nodup) (hc : c ∈ chunks) {p : Chunk → Prop} :
    (∃ d ∈ chunks, d.id = c.id ∧ p d) ↔ p c := by
  constructor
  · rintro ⟨d, hd, same, found⟩
    exact List.inj_on_of_nodup_map once hd hc same ▸ found
  · exact fun found => ⟨c, hc, rfl, found⟩

section Related
variable (h : Tells r chunks) (whole : ∀ d ∈ chunks, ∀ name ∈ d.qualifiedName, ¬ EndsInDot name) {id : String}
include h

include whole in
theorem mem_namedBy {names : List String} : id ∈ r.namedBy names ↔ ∃ d ∈ chunks, d.id = id ∧ d.IsMeant names := by
  simp only [namedBy, sorted, List.mem_flatMap, List.mem_mergeSort]
  constructor
  · rintro ⟨name, hn, found⟩
    obtain ⟨d, hd, named, segment, rfl⟩ := (h.bySimpleName _ _).1 found
    exact ⟨d, hd, rfl, (Chunk.nonEmpty?_isSome_iff (whole d hd)).1 named, name, hn, segment⟩
  · rintro ⟨d, hd, rfl, there, name, hn, segment⟩
    exact ⟨name, hn, (h.bySimpleName _ _).2 ⟨d, hd, (Chunk.nonEmpty?_isSome_iff (whole d hd)).2 there, segment, rfl⟩⟩

theorem mem_subtypes : id ∈ r.subtypes c.simpleName ↔ ∃ d ∈ chunks, d.id = id ∧ c.IsMeant d.supertypes := by
  unfold subtypes
  split
  next empty => simp [Chunk.IsMeant, empty]
  next there =>
    -- the values under an id are those of its chunk
    have under : (∃ names, (id, names) ∈ r.supertypes.items ∧
          ∃ name ∈ names, Chunk.lastSegmentText name = c.simpleName) ↔
        ∃ name ∈ (r.supertypes.get? id).getD [], Chunk.lastSegmentText name = c.simpleName := by
      simp only [← Keyed.get?_eq_some]
      cases r.supertypes.get? id <;> simp
    simp only [List.mem_map, List.mem_filter, List.any_eq_true, decide_eq_true_eq, Prod.exists, exists_and_right,
      exists_eq_right, under, h.supertypes _ _]
    constructor
    · rintro ⟨name, ⟨d, hd, same, hn⟩, segment⟩
      exact ⟨d, hd, same, there, name, hn, segment⟩
    · rintro ⟨d, hd, same, _, name, hn, segment⟩
      exact ⟨name, ⟨d, hd, same, hn⟩, segment⟩

theorem packageMembers_iff {package : String} :
    id ∈ (r.packageMembers.get? package).getD [] ↔ r.packageOf.get? id = some package := by
  rw [h.packageMembers, h.packageOf]
  simp only [eq_comm (a := id), and_comm]

variable (once : (chunks.map Chunk.id).Nodup) (hc : c ∈ chunks)
include once hc

theorem packageOf_eq : r.packageOf.get? c.id = package? c :=
  Option.ext fun package => by rw [h.packageOf, exists_of_id_iff once hc]

theorem lastSegment_name : Chunk.lastSegmentText ((r.names.get? c.id).getD "") = c.simpleName := by
  have name : r.names.get? c.id = Chunk.nonEmpty? c.qualifiedName :=
    Option.ext fun name => by rw [h.names, exists_of_id_iff once hc]
  rw [name, Chunk.simpleName]
  cases c.qualifiedName with
  | none => rfl
  | some name =>
    by_cases empty : name = ""
    · subst empty
      rfl
    · simp [Chunk.nonEmpty?, Option.filter, empty]

theorem mem_packageMembers :
    (∃ package, r.packageOf.get? c.id = some package ∧ id ∈ (r.packageMembers.get? package).getD []) ↔
      ∃ d ∈ chunks, d.id = id ∧ c.SharesPackage d := by
  rw [packageOf_eq h once hc]
  constructor
  · rintro ⟨package, here, there⟩
    obtain ⟨d, hd, found, rfl⟩ := (h.packageMembers _ _).1 there
    exact ⟨d, hd, rfl, package, here, found⟩
  · rintro ⟨d, hd, rfl, package, here, found⟩
    exact ⟨package, here, (h.packageMembers _ _).2 ⟨d, hd, found, rfl⟩⟩

include whole

/-- A chunk is related to the others that it calls or inherits from, that inherit from it, and that share its
package. -/
theorem mem_related : id ∈ r.related c.id ↔
    ∃ d ∈ chunks, d.id = id ∧ d.id ≠ c.id ∧ (d.IsMeant c.apiCalls ∨ c.Inherits d ∨ c.SharesPackage d) := by
  have calls (name : String) : name ∈ (r.calls.get? c.id).getD [] ↔ name ∈ c.apiCalls := by
    rw [h.calls, exists_of_id_iff once hc]
  have supers (name : String) : name ∈ (r.supertypes.get? c.id).getD [] ↔ name ∈ c.supertypes := by
    rw [h.supertypes, exists_of_id_iff once hc]
  have members :
      id ∈ ((r.packageOf.get? c.id).map fun package => sorted ((r.packageMembers.get? package).getD [])).getD [] ↔
        ∃ d ∈ chunks, d.id = id ∧ c.SharesPackage d := by
    rw [← mem_packageMembers h once hc]
    cases r.packageOf.get? c.id <;> simp [sorted]
  simp only [related_eq, List.mem_filter, mem_firsts, List.mem_append, mem_namedBy h whole, Chunk.isMeant_congr calls,
    Chunk.isMeant_congr supers, lastSegment_name h once hc, mem_subtypes h, decide_eq_true_eq, Chunk.Inherits]
  grind

theorem length_related_le : (r.related c.id).length ≤ chunks.length := by
  have sub : r.related c.id ⊆ chunks.map Chunk.id := by
    intro id there
    obtain ⟨d, hd, rfl, _⟩ := (mem_related h whole once hc).1 there
    exact List.mem_map_of_mem hd
  have fewer := (List.subperm_of_subset (related_nodup r c.id) sub).length_le
  rwa [List.length_map] at fewer

/-- Enough neighbours are all of them. -/
theorem neighbors_eq_related {n : ℤ} (enough : chunks.length ≤ n) : r.neighbors c.id n = r.related c.id := by
  have := length_related_le h whole once hc
  rw [neighbors, upTo, if_pos (by omega), List.take_of_length_le (by omega)]

end Related

end Relations

namespace CodeGraph

open Relations

variable {α : Type} {chunks : List Chunk}

/-- The graph of chunks with distinct ids knows the members of each package, and as neighbours of a chunk those that it
is related to, each once. Being of one package, and inheriting one from the other, relates both to each other. Fewer
neighbours are the first ones. -/
theorem rebuild_neighbors (read : ∀ c ∈ chunks, c.Made) (once : (chunks.map Chunk.id).Nodup)
    (whole : ∀ c ∈ chunks, ∀ name ∈ c.qualifiedName, ¬ EndsInDot name) (g : CodeGraph α) :
    ∃ built, g.rebuild chunks = (.ok (), built) ∧
      (∀ id package, id ∈ (built.relations.packageMembers.get? package).getD [] ↔
        built.relations.packageOf.get? id = some package) ∧
      (∀ c ∈ chunks, ∀ n : ℤ, chunks.length ≤ n → ∀ id, id ∈ built.relations.neighbors c.id n ↔
        ∃ d ∈ chunks, d.id = id ∧ d.id ≠ c.id ∧ (d.IsMeant c.apiCalls ∨ c.Inherits d ∨ c.SharesPackage d)) ∧
      (∀ c ∈ chunks, ∀ d ∈ chunks, c.id ≠ d.id → c.Inherits d ∨ c.SharesPackage d → ∀ n : ℤ, chunks.length ≤ n →
        d.id ∈ built.relations.neighbors c.id n ∧ c.id ∈ built.relations.neighbors d.id n) ∧
      ∀ id, (∀ n, (built.relations.neighbors id n).Nodup) ∧
        ∀ m n, 0 ≤ m → m ≤ n → built.relations.neighbors id m <+: built.relations.neighbors id n := by
  have tells : (ofChunks chunks).Tells chunks := tells_ofChunks (fun c hc => (read c hc).checked) once
  have neighbors {c : Chunk} (hc : c ∈ chunks) {n : ℤ} (enough : chunks.length ≤ n) (id : String) :
      id ∈ (ofChunks chunks).neighbors c.id n ↔
        ∃ d ∈ chunks, d.id = id ∧ d.id ≠ c.id ∧ (d.IsMeant c.apiCalls ∨ c.Inherits d ∨ c.SharesPackage d) := by
    rw [neighbors_eq_related tells whole once hc enough, mem_related tells whole once hc]
  refine ⟨g.build chunks, rebuild_of_made read g, fun id package => packageMembers_iff tells,
    fun c hc n enough id => neighbors hc enough id, fun c hc d hd apart related n enough => ⟨?_, ?_⟩,
    fun id => ⟨?_, ?_⟩⟩
  · exact (neighbors hc enough _).2 ⟨d, hd, rfl, apart.symm, .inr related⟩
  · exact (neighbors hd enough _).2 ⟨c, hc, rfl, apart, .inr (related.imp .symm .symm)⟩
  · intro n
    exact (related_nodup _ id).sublist (sublist_upTo n _)
  · intro m n positive le
    exact upTo_isPrefix positive le _

def service : Chunk := { Chunk.plain "s" "class Service" with qualifiedName := some "shop.Service" }

def controller : Chunk :=
  { Chunk.plain "c" "class Controller" with
    qualifiedName := some "web.Controller", enclosingClass := some "class Controller extends Service" }

/-- A service and a controller that extends it are neighbours of each other. -/
theorem rebuild_neighbors_inherited :
    ∃ built, ({ weights := .standard } : CodeGraph Float).rebuild [service, controller] = (.ok (), built) ∧
      "c" ∈ built.relations.neighbors "s" 2 ∧ "s" ∈ built.relations.neighbors "c" 2 := by
  have made {id content name : String} (filled : Text.allBlank id = false ∧ Text.allBlank content = false)
      (ascii : ∀ c ∈ id.toList ++ content.toList ++ name.toList, c.toNat < 128) (context : Option String) :
      { Chunk.plain id content with qualifiedName := some name, enclosingClass := context : Chunk }.Made := by
    have plain := Chunk.wellRead_plain (.of_ascii fun c hc => ascii c (by simp [hc])) filled.1
      (.of_ascii fun c hc => ascii c (by simp [hc])) filled.2
    exact { plain.made with qualifiedName := by simpa using .of_ascii fun c hc => ascii c (by simp [hc]) }
  have read : ∀ c ∈ [service, controller], c.Made := by
    intro c hc
    simp only [List.mem_cons, List.not_mem_nil, or_false] at hc
    rcases hc with rfl | rfl
    · exact made (by decide) (by decide) none
    · exact made (by decide) (by decide) _
  have inherits : service.Inherits controller := .inr ⟨by decide, "Service", by decide +kernel, by decide⟩
  obtain ⟨built, ran, _, _, symmetric, _⟩ := rebuild_neighbors read (by decide)
    (by simp [service, controller, EndsInDot]) { weights := .standard : CodeGraph Float }
  exact ⟨built, ran, symmetric service (by simp) controller (by simp) (by decide) (.inl inherits) 2 (by decide)⟩

end CodeGraph

end CodeSearch
