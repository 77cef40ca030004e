/-!
# Places in sorted runs

A run is searched for the place of an item by asking which of its items come before the place. `bisect`
halves a stretch of the run; `gallop` first finds a stretch by going away from a starting point in steps
that double.
-/

namespace CodeSearch.Sorting

/-- The place between two places that splits the items that pass from those that do not. -/
def bisect (passes : Nat → Bool) (low high : Nat) : Nat :=
  if _h : low < high then
    let middle := low + (high - low) / 2
    if passes middle then bisect passes (middle + 1) high else bisect passes low middle
  else low
termination_by high - low

/-- Widen a step while the item that it leads to passes, up to a bound. The answer is the last step that led
to such an item, and the first that did not. -/
def widen (passes : Nat → Bool) (bound last step : Nat) : Nat × Nat :=
  if _h : step < bound then
    if passes step then widen passes bound step (2 * step + 1) else (last, step)
  else (last, bound)
termination_by bound - step

/-- The place in a run of a length that splits the items that pass from those that do not, looked for from
a starting point on. -/
def gallop (passes : Nat → Bool) (length start : Nat) : Nat :=
  if passes start then
    let (last, step) := widen (fun n => passes (start + n)) (length - start) 0 1
    bisect passes (start + last + 1) (start + step)
  else
    let (last, step) := widen (fun n => !passes (start - n)) (start + 1) 0 1
    bisect passes (start + 1 - step) (start - last)

variable {β : Type}

/-- The item at one place goes before the item at another one. -/
def goesBefore (before : β → β → Bool) (a : Array β) (i : Nat) (b : Array β) (j : Nat) : Bool :=
  match a[i]?, b[j]? with
  | some x, some y => before x y
  | _, _ => false

/-- The length of the longest start of the items from a place on in which each item and the next one are
linked. -/
def chainLength (linked : β → β → Bool) : List β → Nat
  | [] => 0
  | [_] => 1
  | a :: b :: rest => if linked a b then chainLength linked (b :: rest) + 1 else 1

/-- Put the item at a place where it belongs among those in front of it, behind those that it does not go
before. -/
def insertAt (before : β → β → Bool) (items : Array β) (place : Nat) : Array β :=
  match items[place]? with
  | none => items
  | some item =>
    let target := bisect (fun n => !(items[n]?).any (before item)) 0 place
    (items.extract 0 target).push item ++ items.extract target place
      ++ items.extract (place + 1) items.size

end CodeSearch.Sorting
