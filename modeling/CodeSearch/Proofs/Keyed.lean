import CodeSearch.Keyed
/-!
# Laws of keyed lists

A keyed list is known by the order of its keys and by what stands under each (`ext_get?`). Putting pairs a second
time changes nothing (`putAll_putAll`), and the pairs of a keyed list make it anew (`ofList_items`).
-/

namespace CodeSearch.Keyed

variable {κ β γ : Type}

theorem ext_items {m n : Keyed κ β} (h : m.items = n.items) : m = n := by
  cases m
  cases n
  cases h
  rfl

@[simp] theorem items_empty : (empty : Keyed κ β).items = [] := rfl

@[simp] theorem keys_empty : (empty : Keyed κ β).keys = [] := rfl

@[simp] theorem keys_mapValues (f : β → γ) (m : Keyed κ β) : (m.mapValues f).keys = m.keys := by
  simp [keys, mapValues]

@[simp] theorem mapValues_empty (f : β → γ) : (empty : Keyed κ β).mapValues f = empty := rfl

theorem values_mapValues (f : β → γ) (m : Keyed κ β) : (m.mapValues f).values = m.values.map f := by
  simp [values, mapValues]

theorem mapValues_eq_self {f : β → β} {m : Keyed κ β} (same : ∀ value ∈ m.values, f value = value) : m.mapValues f = m := by
  have each : m.items.map (fun item => (item.1, f item.2)) = m.items.map id :=
    List.map_congr_left fun item hi => Prod.ext rfl (same item.2 (List.mem_map_of_mem hi))
  exact ext_items (each.trans (List.map_id m.items))

theorem isEmpty_iff {m : Keyed κ β} : m.isEmpty = true ↔ m = empty := by
  constructor
  · intro h
    exact ext_items (List.isEmpty_iff.1 h)
  · rintro rfl
    rfl

section Lookup
variable [DecidableEq κ]

/-! ## Looking up -/

theorem lookup_eq_some {items : List (κ × β)} (once : (items.map Prod.fst).Nodup) {key : κ} {value : β} :
    items.lookup key = some value ↔ (key, value) ∈ items := by
  induction items with
  | nil => simp
  | cons item items ih =>
    obtain ⟨other, old⟩ := item
    rw [List.map_cons, List.nodup_cons] at once
    by_cases same : key = other
    · subst same
      have gone : (key, value) ∉ items := fun h => once.1 (List.mem_map.2 ⟨_, h, rfl⟩)
      simp [gone, eq_comm]
    · have differ : (key == other) = false := by simpa using same
      simp [List.lookup_cons, differ, ih once.2, same]

theorem get?_eq_some {m : Keyed κ β} {key : κ} {value : β} : m.get? key = some value ↔ (key, value) ∈ m.items :=
  lookup_eq_some m.nodup_keys

theorem mem_values_of_get? {m : Keyed κ β} {key : κ} {value : β} (found : m.get? key = some value) : value ∈ m.values :=
  List.mem_map_of_mem (get?_eq_some.1 found)

theorem mem_keys {m : Keyed κ β} {key : κ} : key ∈ m.keys ↔ ∃ value, m.get? key = some value := by
  simp [keys, get?_eq_some]

theorem get?_eq_none {m : Keyed κ β} {key : κ} : m.get? key = none ↔ key ∉ m.keys := by
  rw [mem_keys, Option.eq_none_iff_forall_ne_some]
  simp

@[simp] theorem get?_empty (key : κ) : (empty : Keyed κ β).get? key = none := rfl

theorem has_eq_false {m : Keyed κ β} {key : κ} : m.has key = false ↔ key ∉ m.keys := by simp [has]

theorem has_eq (m : Keyed κ β) (key : κ) : m.has key = (m.get? key).isSome := by
  cases found : m.get? key with
  | none => exact has_eq_false.2 (get?_eq_none.1 found)
  | some value => simpa [has] using mem_keys.2 ⟨value, found⟩

/-- The keys in order and what stands under them is all that there is to a keyed list. -/
theorem ext_get? {m n : Keyed κ β} (order : m.keys = n.keys) (same : ∀ key, m.get? key = n.get? key) : m = n := by
  apply ext_items
  have pairs : ∀ (m : Keyed κ β), m.items.map (fun item => (item.1, m.get? item.1))
      = m.items.map fun item => (item.1, some item.2) := by
    intro m
    apply List.map_congr_left
    intro item hi
    rw [get?_eq_some.2 (show (item.1, item.2) ∈ m.items from hi)]
  have looked : ∀ (m : Keyed κ β), m.keys.map (fun key => (key, m.get? key))
      = m.items.map fun item => (item.1, some item.2) := by
    intro m
    rw [keys, List.map_map]
    exact pairs m
  have equal : m.items.map (fun item => (item.1, some item.2)) = n.items.map fun item => (item.1, some item.2) := by
    rw [← looked m, ← looked n, order]
    exact List.map_congr_left fun key _ => by rw [same key]
  refine (List.map_inj_right ?_).1 equal
  rintro ⟨_, _⟩ ⟨_, _⟩ h
  simpa using h

theorem get?_mapValues (f : β → γ) (m : Keyed κ β) (key : κ) : (m.mapValues f).get? key = (m.get? key).map f := by
  cases found : m.get? key with
  | none =>
    rw [Option.map_none, get?_eq_none, keys_mapValues]
    exact get?_eq_none.1 found
  | some value =>
    rw [Option.map_some, get?_eq_some]
    exact List.mem_map.2 ⟨(key, value), get?_eq_some.1 found, rfl⟩

/-! ## Putting -/

theorem keys_put (m : Keyed κ β) (key : κ) (value : β) :
    (m.put key value).keys = if key ∈ m.keys then m.keys else m.keys ++ [key] := by
  by_cases h : key ∈ m.items.map Prod.fst
  · rw [if_pos (show key ∈ m.keys from h), put, dif_pos h, keys, keys, List.map_map]
    apply List.map_congr_left
    intro item _
    by_cases same : item.1 = key <;> simp [same]
  · rw [if_neg (show key ∉ m.keys from h), put, dif_neg h, keys, keys, List.map_append]
    rfl

theorem mem_keys_put {m : Keyed κ β} {key other : κ} {value : β} :
    other ∈ (m.put key value).keys ↔ other ∈ m.keys ∨ other = key := by
  rw [keys_put]
  split
  next there =>
    constructor
    · exact .inl
    · rintro (h | rfl)
      · exact h
      · exact there
  next => simp

theorem get?_put (m : Keyed κ β) (key : κ) (value : β) (other : κ) :
    (m.put key value).get? other = if other = key then some value else m.get? other := by
  split
  next same =>
    subst same
    rw [get?_eq_some]
    unfold put
    split
    next there =>
      obtain ⟨item, mem, eq⟩ := List.mem_map.1 there
      exact List.mem_map.2 ⟨item, mem, by simp [eq]⟩
    next => simp
  next differ =>
    have same : ∀ found, (other, found) ∈ (m.put key value).items ↔ (other, found) ∈ m.items := by
      intro found
      unfold put
      split
      · constructor
        · intro h
          obtain ⟨item, mem, eq⟩ := List.mem_map.1 h
          split at eq
          · exact absurd (congrArg Prod.fst eq).symm differ
          · exact eq ▸ mem
        · intro h
          exact List.mem_map.2 ⟨(other, found), h, by simp [differ]⟩
      · simp [differ]
    apply Option.ext
    intro found
    rw [get?_eq_some, get?_eq_some, same]

theorem get?_put_self (m : Keyed κ β) (key : κ) (value : β) : (m.put key value).get? key = some value := by
  rw [get?_put, if_pos rfl]

theorem items_put_of_not_mem {m : Keyed κ β} {key : κ} (fresh : key ∉ m.keys) (value : β) :
    (m.put key value).items = m.items ++ [(key, value)] := by
  rw [put, dif_neg (show key ∉ m.items.map Prod.fst from fresh)]

/-- Putting what is there changes nothing. -/
theorem put_of_get?_eq_some {m : Keyed κ β} {key : κ} {value : β} (there : m.get? key = some value) :
    m.put key value = m := by
  apply ext_get?
  · rw [keys_put, if_pos (mem_keys.2 ⟨value, there⟩)]
  · intro other
    rw [get?_put]
    split
    next same => rw [same, there]
    next => rfl

theorem mapValues_put (f : β → γ) (m : Keyed κ β) (key : κ) (value : β) :
    (m.put key value).mapValues f = (m.mapValues f).put key (f value) := by
  apply ext_get?
  · rw [keys_mapValues, keys_put, keys_put, keys_mapValues]
  · intro other
    rw [get?_mapValues, get?_put, get?_put, get?_mapValues]
    split <;> rfl

/-! ## Putting many -/

@[simp] theorem putAll_nil (m : Keyed κ β) : m.putAll [] = m := rfl

@[simp] theorem putAll_cons (m : Keyed κ β) (pair : κ × β) (pairs : List (κ × β)) :
    m.putAll (pair :: pairs) = (m.put pair.1 pair.2).putAll pairs := rfl

theorem mem_keys_putAll {pairs : List (κ × β)} {m : Keyed κ β} {key : κ} :
    key ∈ (m.putAll pairs).keys ↔ key ∈ m.keys ∨ key ∈ pairs.map Prod.fst := by
  induction pairs generalizing m with
  | nil => simp
  | cons pair pairs ih => simp [ih, mem_keys_put, or_assoc]

theorem keys_putAll_of_mem {pairs : List (κ × β)} {m : Keyed κ β} (h : ∀ pair ∈ pairs, pair.1 ∈ m.keys) :
    (m.putAll pairs).keys = m.keys := by
  induction pairs generalizing m with
  | nil => rfl
  | cons pair pairs ih =>
    have there : pair.1 ∈ m.keys := h pair List.mem_cons_self
    have first : (m.put pair.1 pair.2).keys = m.keys := by rw [keys_put, if_pos there]
    rw [putAll_cons, ih, first]
    intro other ho
    rw [first]
    exact h other (List.mem_cons_of_mem _ ho)

/-- Of keys that come once each, those that are new come last, in their order. -/
theorem keys_putAll {pairs : List (κ × β)} (once : (pairs.map Prod.fst).Nodup) (m : Keyed κ β) :
    (m.putAll pairs).keys = m.keys ++ (pairs.map Prod.fst).filter fun key => key ∉ m.keys := by
  induction pairs generalizing m with
  | nil => simp
  | cons pair pairs ih =>
    rw [List.map_cons, List.nodup_cons] at once
    have same : (pairs.map Prod.fst).filter (fun key => key ∉ (m.put pair.1 pair.2).keys) =
        (pairs.map Prod.fst).filter fun key => key ∉ m.keys := by
      refine List.filter_congr fun key hk => ?_
      have apart : key ≠ pair.1 := fun same => once.1 (same ▸ hk)
      simp [mem_keys_put, apart]
    rw [putAll_cons, ih once.2, same, keys_put, List.map_cons, List.filter_cons]
    by_cases there : pair.1 ∈ m.keys <;> simp [there]

/-- The last pair of a key counts. -/
theorem get?_putAll (m : Keyed κ β) (pairs : List (κ × β)) (key : κ) :
    (m.putAll pairs).get? key = (pairs.reverse.lookup key).or (m.get? key) := by
  induction pairs generalizing m with
  | nil => rfl
  | cons pair pairs ih =>
    obtain ⟨first, value⟩ := pair
    rw [putAll_cons, ih, get?_put, List.reverse_cons, List.lookup_append, Option.or_assoc]
    congr 1
    by_cases same : key = first
    · have found : (key == first) = true := by simpa using same
      simp only [List.lookup_cons, found, if_pos same, Option.or]
    · have differ : (key == first) = false := by simpa using same
      simp only [List.lookup_cons, List.lookup_nil, differ, if_neg same, Option.or]

theorem putAll_append (m : Keyed κ β) (pairs more : List (κ × β)) :
    m.putAll (pairs ++ more) = (m.putAll pairs).putAll more := List.foldl_append

/-- If no key comes twice, each one stands for what was put under it. -/
theorem get?_putAll_of_mem {pairs : List (κ × β)} (once : (pairs.map Prod.fst).Nodup) (m : Keyed κ β) {key : κ}
    {value : β} (h : (key, value) ∈ pairs) : (m.putAll pairs).get? key = some value := by
  have last : pairs.reverse.lookup key = some value := by
    refine (lookup_eq_some ?_).2 (List.mem_reverse.2 h)
    rw [List.map_reverse]
    exact List.pairwise_reverse.2 (once.imp Ne.symm)
  rw [get?_putAll, last, Option.some_or]

theorem get?_putAll_of_not_mem {pairs : List (κ × β)} {key : κ} (h : key ∉ pairs.map Prod.fst) (m : Keyed κ β) :
    (m.putAll pairs).get? key = m.get? key := by
  induction pairs generalizing m with
  | nil => rfl
  | cons pair pairs ih =>
    rw [List.map_cons, List.mem_cons, not_or] at h
    rw [putAll_cons, ih h.2, get?_put, if_neg h.1]

theorem get?_putAll_items (m n : Keyed κ β) (key : κ) : (m.putAll n.items).get? key = (n.get? key).or (m.get? key) := by
  cases found : n.get? key with
  | none => rw [Option.none_or, get?_putAll_of_not_mem (get?_eq_none.1 found)]
  | some value => rw [Option.some_or, get?_putAll_of_mem n.nodup_keys _ (get?_eq_some.1 found)]

/-- Pairs that are there already need not be put. -/
theorem putAll_filter {pairs : List (κ × β)} (once : (pairs.map Prod.fst).Nodup) (keep : κ × β → Bool) {m : Keyed κ β}
    (there : ∀ pair ∈ pairs, keep pair = false → m.get? pair.1 = some pair.2) :
    m.putAll (pairs.filter keep) = m.putAll pairs := by
  induction pairs generalizing m with
  | nil => rfl
  | cons pair pairs ih =>
    rw [List.map_cons, List.nodup_cons] at once
    cases kept : keep pair with
    | false =>
      have same := put_of_get?_eq_some (there pair List.mem_cons_self kept)
      rw [List.filter_cons_of_neg (by simp [kept]), putAll_cons, same]
      exact ih once.2 fun other ho => there other (List.mem_cons_of_mem _ ho)
    | true =>
      rw [List.filter_cons_of_pos kept, putAll_cons, putAll_cons]
      refine ih once.2 fun other ho gone => ?_
      have apart : other.1 ≠ pair.1 := fun same => once.1 (same ▸ List.mem_map_of_mem ho)
      rw [get?_put, if_neg apart]
      exact there other (List.mem_cons_of_mem _ ho) gone

/-- Putting the same pairs again changes nothing. -/
theorem putAll_putAll (m : Keyed κ β) (pairs : List (κ × β)) :
    (m.putAll pairs).putAll pairs = m.putAll pairs := by
  apply ext_get?
  · apply keys_putAll_of_mem
    intro pair hp
    exact mem_keys_putAll.2 (.inr (List.mem_map_of_mem hp))
  · intro key
    rw [get?_putAll, get?_putAll, ← Option.or_assoc, Option.or_self]

/-- Which keys there are after pairs have been put depends on keys alone. -/
theorem keys_putAll_congr {m : Keyed κ β} {n : Keyed κ γ} (same : m.keys = n.keys) {pairs : List (κ × β)}
    {others : List (κ × γ)} (keys : pairs.map Prod.fst = others.map Prod.fst) :
    (m.putAll pairs).keys = (n.putAll others).keys := by
  induction pairs generalizing m n others with
  | nil =>
    rw [List.map_eq_nil_iff.1 keys.symm]
    exact same
  | cons pair pairs ih =>
    cases others with
    | nil => cases keys
    | cons other others =>
      obtain ⟨first, rest⟩ := List.cons.inj keys
      rw [putAll_cons, putAll_cons]
      exact ih (by rw [keys_put, keys_put, same, first]) rest

theorem mapValues_putAll (f : β → γ) (m : Keyed κ β) (pairs : List (κ × β)) :
    (m.putAll pairs).mapValues f = (m.mapValues f).putAll (pairs.map fun pair => (pair.1, f pair.2)) := by
  induction pairs generalizing m with
  | nil => rfl
  | cons pair pairs ih => rw [putAll_cons, ih, mapValues_put, List.map_cons, putAll_cons]

theorem items_putAll_fresh {pairs : List (κ × β)} {m : Keyed κ β} (once : (m.keys ++ pairs.map Prod.fst).Nodup) :
    (m.putAll pairs).items = m.items ++ pairs := by
  induction pairs generalizing m with
  | nil => simp
  | cons pair pairs ih =>
    have fresh : pair.1 ∉ m.items.map Prod.fst := by
      intro there
      exact (List.nodup_append.1 once).2.2 _ there _ (List.mem_cons_self) rfl
    have added : (m.put pair.1 pair.2).items = m.items ++ [pair] := by rw [put, dif_neg fresh]
    rw [putAll_cons, ih, added, List.append_assoc, List.singleton_append]
    rw [keys_put, if_neg (show pair.1 ∉ m.keys from fresh), List.append_assoc]
    exact once

/-- The pairs of a keyed list make it anew. -/
theorem ofList_items (m : Keyed κ β) : ofList m.items = m := by
  apply ext_items
  rw [ofList, items_putAll_fresh (by simpa using m.nodup_keys)]
  rfl

/-! ## Taking out -/

theorem get?_erase (m : Keyed κ β) (key other : κ) :
    (m.erase key).get? other = if other = key then none else m.get? other := by
  have mem : ∀ found, (other, found) ∈ (m.erase key).items ↔ other ≠ key ∧ (other, found) ∈ m.items := by
    intro found
    simp [erase, filter, List.mem_filter, and_comm]
  split
  next same =>
    rw [Option.eq_none_iff_forall_ne_some]
    intro found h
    exact ((mem found).1 (get?_eq_some.1 h)).1 same
  next differ =>
    apply Option.ext
    intro found
    rw [get?_eq_some, get?_eq_some, mem]
    simp [differ]

theorem keys_erase (m : Keyed κ β) (key : κ) : (m.erase key).keys = m.keys.filter fun other => other ≠ key := by
  rw [keys, keys, erase, filter, List.filter_map]
  rfl

/-- Taking out a key that is not there changes nothing. -/
theorem erase_of_get?_eq_none {m : Keyed κ β} {key : κ} (none : m.get? key = none) : m.erase key = m := by
  refine ext_items (List.filter_eq_self.2 fun item hi => ?_)
  have : item.1 ≠ key := by
    rintro rfl
    exact get?_eq_none.1 none (List.mem_map_of_mem hi)
  simpa using this

/-- To take keys out one after the other is to leave what is under none of them. -/
theorem foldl_erase (keys : List κ) (m : Keyed κ β) : keys.foldl erase m = m.filter fun item => item.1 ∉ keys := by
  induction keys generalizing m with
  | nil => exact ext_items (List.filter_eq_self.2 fun _ _ => by simp).symm
  | cons key keys ih =>
    rw [List.foldl_cons, ih]
    apply ext_items
    simp only [filter, erase, List.filter_filter]
    refine List.filter_congr fun item _ => ?_
    by_cases same : item.1 = key <;> simp [same]

theorem mem_items_erase {m : Keyed κ β} {key : κ} {item : κ × β} (h : item ∈ (m.erase key).items) :
    item ∈ m.items := (List.mem_filter.1 h).1

theorem mem_items_put {m : Keyed κ β} {key : κ} {value : β} {item : κ × β} (h : item ∈ (m.put key value).items) :
    item ∈ m.items ∨ item = (key, value) := by
  have found : (m.put key value).get? item.1 = some item.2 := get?_eq_some.2 h
  rw [get?_put] at found
  split at found
  next same =>
    injection found with found
    exact .inr (Prod.ext same found.symm)
  next => exact .inl (get?_eq_some.1 found)

theorem mem_items_putAll {m : Keyed κ β} {pairs : List (κ × β)} {item : κ × β} (h : item ∈ (m.putAll pairs).items) :
    item ∈ m.items ∨ item ∈ pairs := by
  induction pairs generalizing m with
  | nil => exact .inl h
  | cons pair pairs ih =>
    rcases ih h with old | new
    · rcases mem_items_put old with old | rfl
      · exact .inl old
      · exact .inr List.mem_cons_self
    · exact .inr (List.mem_cons_of_mem _ new)

theorem forall_values_erase {p : β → Prop} {m : Keyed κ β} (all : ∀ value ∈ m.values, p value) (key : κ) :
    ∀ value ∈ (m.erase key).values, p value := by
  intro value hv
  obtain ⟨item, hi, rfl⟩ := List.mem_map.1 hv
  exact all _ (List.mem_map_of_mem (mem_items_erase hi))

theorem forall_values_putAll {p : β → Prop} {m : Keyed κ β} (old : ∀ value ∈ m.values, p value) {pairs : List (κ × β)}
    (new : ∀ pair ∈ pairs, p pair.2) : ∀ value ∈ (m.putAll pairs).values, p value := by
  intro value hv
  obtain ⟨item, hi, rfl⟩ := List.mem_map.1 hv
  rcases mem_items_putAll hi with before | put
  · exact old _ (List.mem_map_of_mem before)
  · exact new item put

end Lookup

end CodeSearch.Keyed
