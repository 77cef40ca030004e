import CodeSearch.Sorting.Merge
/-!
# Sorting by runs

A list is cut into runs that are sorted already, or sorted backwards and then turned round; a short run is
filled up by putting the items behind it into their places. Neighbouring runs are merged in an order that
follows from where their middles lie in the list. For keys that have an order this is a stable sort. Keys
that are no numbers have none, and then the outcome hangs on which items are compared, and so on all of
these rules.
-/

namespace CodeSearch.Sorting

variable {β : Type}

/-! ## Runs -/

/-- Runs of fewer items than this are filled up: the length of the list is halved until it is less than 64,
and if a half was ever lost one is added. -/
def leastRun (length : Nat) (lost : Bool) : Nat :=
  if _h : 64 ≤ length then leastRun (length / 2) (lost || length % 2 = 1)
  else if lost then length + 1 else length
termination_by length

/-- The number of items of the run that a list starts with, and whether it is sorted backwards. -/
def firstRun (before : β → β → Bool) : List β → Nat × Bool
  | a :: b :: rest =>
    if before b a then (chainLength (fun x y => before y x) (a :: b :: rest), true)
    else (chainLength (fun x y => !before y x) (a :: b :: rest), false)
  | items => (items.length, false)

/-- The run that a list starts with, sorted, with so many items at least, and what follows. -/
def cutRun (before : β → β → Bool) (least : Nat) (items : List β) : Array β × List β :=
  let (count, backwards) := firstRun before items
  let run := if backwards then (items.take count).reverse else items.take count
  if least ≤ count then (run.toArray, items.drop count)
  else
    let filled := (run ++ (items.drop count).take (least - count)).toArray
    ((List.range' count (filled.size - count)).foldl (insertAt before) filled, items.drop least)

/-! ## The order of merges -/

/-- A run that waits for its merge: its place in the list, its items, and the level of the boundary to the
next run. -/
structure Run (β : Type) where
  start : Nat
  items : Array β
  level : Nat := 0

/-- The first binary place at which two fractions of a length differ. -/
def levelOf (length : Nat) : Nat → Nat → Nat → Nat
  | 0, _, _ => 0
  | fuel + 1, a, b =>
    if length ≤ a then levelOf length fuel (2 * (a - length)) (2 * (b - length)) + 1
    else if length ≤ b then 1
    else levelOf length fuel (2 * a) (2 * b) + 1

/-- The level of the boundary between a run and a next one of so many items: the middles of both are compared
as fractions of the length of the list. -/
def Run.boundary (length : Nat) (r : Run β) (next : Nat) : Nat :=
  let a := 2 * r.start + r.items.size
  levelOf length (length + 1) a (a + r.items.size + next)

/-- The runs that wait, the last one first, and how many wins in a row are enough for galloping. -/
abbrev Waiting (β : Type) := List (Run β) × Nat

/-- Two neighbouring runs as one. -/
def Run.merge (before : β → β → Bool) (left right : Run β) (patience : Nat) : Run β × Nat :=
  let (items, patience) := mergeRuns before left.items right.items patience
  ({ left with items }, patience)

/-- Merge the last runs while the boundary before them lies deeper than a level. -/
def collapse (before : β → β → Bool) (level : Nat) : Nat → Waiting β → Waiting β
  | fuel + 1, (last :: previous :: rest, patience) =>
    if level < previous.level then
      let (run, patience) := previous.merge before last patience
      collapse before level fuel (run :: rest, patience)
    else (last :: previous :: rest, patience)
  | _, waiting => waiting

/-- Let a run wait, after those merges that go before it. -/
def await (before : β → β → Bool) (length : Nat) (w : Waiting β) (start : Nat) (items : Array β) :
    Waiting β :=
  match w with
  | ([], patience) => ([{ start, items }], patience)
  | (last :: rest, patience) =>
    let level := last.boundary length items.size
    match collapse before level (rest.length + 1) (last :: rest, patience) with
    | (last :: rest, patience) => ({ start, items } :: { last with level } :: rest, patience)
    | ([], patience) => ([{ start, items }], patience)

/-- Merge all runs that wait. Of the last three the outer ones are compared, and the shorter of them is merged
with the middle one. -/
def mergeAll (before : β → β → Bool) : Nat → Waiting β → Array β
  | fuel + 1, (last :: middle :: first :: rest, patience) =>
    if first.items.size < last.items.size then
      let (run, patience) := first.merge before middle patience
      mergeAll before fuel (last :: run :: rest, patience)
    else
      let (run, patience) := middle.merge before last patience
      mergeAll before fuel (run :: first :: rest, patience)
  | fuel + 1, ([last, first], patience) =>
    let (run, patience) := first.merge before last patience
    mergeAll before fuel ([run], patience)
  | _, (runs, _) => (runs.reverse.map Run.items).foldl (· ++ ·) #[]

/-- Cut the rest of a list into runs and let them wait. -/
def cutAll (before : β → β → Bool) (length least : Nat) : Nat → Nat → List β → Waiting β → Waiting β
  | fuel + 1, start, item :: rest, waiting =>
    let (run, others) := cutRun before least (item :: rest)
    cutAll before length least fuel (start + run.size) others (await before length waiting start run)
  | _, _, _, waiting => waiting

/-- Sort by an order. -/
def byRuns (before : β → β → Bool) (items : List β) : List β :=
  let length := items.length
  let waiting := cutAll before length (leastRun length false) length 0 items ([], payingStretch)
  (mergeAll before waiting.1.length waiting).toList

end CodeSearch.Sorting
