/-!
# Keyed lists

A keyed list holds one value per key, in the order in which the keys came in. A value put under a key
that is there replaces the old one in its place; under a new key it goes to the end. Each key stands
once, which the type keeps.
-/

namespace CodeSearch

/-- One value per key, in order of arrival of the keys. -/
structure Keyed (κ β : Type) where
  items : List (κ × β)
  nodup_keys : (items.map Prod.fst).Nodup

namespace Keyed

variable {κ β γ : Type}

/-- The keyed list without items. -/
def empty : Keyed κ β := ⟨[], by simp⟩

instance : Inhabited (Keyed κ β) := ⟨empty⟩

/-- The keys in order. -/
def keys (m : Keyed κ β) : List κ := m.items.map Prod.fst

/-- The values in the order of their keys. -/
def values (m : Keyed κ β) : List β := m.items.map Prod.snd

def size (m : Keyed κ β) : Nat := m.items.length

def isEmpty (m : Keyed κ β) : Bool := m.items.isEmpty

section Lookup
variable [DecidableEq κ]

/-- The value under a key. -/
def get? (m : Keyed κ β) (key : κ) : Option β := m.items.lookup key

def has (m : Keyed κ β) (key : κ) : Bool := m.keys.contains key

/-- Put a value under a key: in the place of the old one, or at the end. -/
def put (m : Keyed κ β) (key : κ) (value : β) : Keyed κ β :=
  if h : key ∈ m.items.map Prod.fst then
    ⟨m.items.map fun item => if item.1 = key then (key, value) else item, by
      have same : (m.items.map fun item => if item.1 = key then (key, value) else item).map Prod.fst
          = m.items.map Prod.fst := by
        rw [List.map_map]
        apply List.map_congr_left
        intro item _
        by_cases e : item.1 = key <;> simp [e]
      rw [same]
      exact m.nodup_keys⟩
  else
    ⟨m.items ++ [(key, value)], by
      rw [List.map_append, List.nodup_append]
      refine ⟨m.nodup_keys, by simp, ?_⟩
      intro a ha b hb
      simp only [List.map_cons, List.map_nil, List.mem_singleton] at hb
      subst hb
      intro e
      subst e
      exact h ha⟩

end Lookup

/-- Take out the items that do not satisfy a condition. -/
def filter (keep : κ × β → Bool) (m : Keyed κ β) : Keyed κ β :=
  ⟨m.items.filter keep, m.nodup_keys.sublist (List.filter_sublist.map _)⟩

/-- Take out a key and its value. -/
def erase [DecidableEq κ] (m : Keyed κ β) (key : κ) : Keyed κ β := m.filter fun item => item.1 ≠ key

/-- Change every value, under its key. -/
def mapValues (f : β → γ) (m : Keyed κ β) : Keyed κ γ :=
  ⟨m.items.map fun item => (item.1, f item.2), by
    have same : (m.items.map fun item => (item.1, f item.2)).map Prod.fst
        = m.items.map Prod.fst := by
      rw [List.map_map]
      rfl
    rw [same]
    exact m.nodup_keys⟩

/-- Put pairs one after another. -/
def putAll [DecidableEq κ] (m : Keyed κ β) (pairs : List (κ × β)) : Keyed κ β :=
  pairs.foldl (fun m pair => m.put pair.1 pair.2) m

/-- The keyed list of a list of pairs. -/
def ofList [DecidableEq κ] (pairs : List (κ × β)) : Keyed κ β := empty.putAll pairs

end Keyed

end CodeSearch
