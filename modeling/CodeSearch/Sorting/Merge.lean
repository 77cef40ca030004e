import CodeSearch.Sorting.Search
/-!
# Merging neighbouring runs

Two runs are merged item by item. When one of them wins often enough in a row, the places of the next items
are looked for by galloping, as long as that pays. How often is enough is kept from merge to merge: it
falls while galloping pays and rises when it ends. Of two runs the shorter one is set aside, and the merge
goes from the end at which this leaves room.
-/

namespace CodeSearch.Sorting

variable {β : Type}

/-- A stretch of so many items pays for galloping. -/
def payingStretch : Nat := 7

/-- What has come of a merge: the items, and how many wins in a row are enough. -/
abbrev Merged (β : Type) := Array β × Nat

/-! ## From the left -/

/-- A merge from the left: `i` and `j` items have been taken, and `done` holds them. -/
structure LeftMerge (β : Type) where
  left : Array β
  right : Array β
  i : Nat := 0
  j : Nat := 0
  done : Array β := #[]
  patience : Nat

namespace LeftMerge

/-- Take items of the left run. -/
def takeLeft (m : LeftMerge β) (count : Nat) : LeftMerge β :=
  { m with i := m.i + count, done := m.done ++ m.left.extract m.i (m.i + count) }

/-- Take items of the right run. -/
def takeRight (m : LeftMerge β) (count : Nat) : LeftMerge β :=
  { m with j := m.j + count, done := m.done ++ m.right.extract m.j (m.j + count) }

/-- The left items that remain, and then the right ones. -/
def finish (m : LeftMerge β) : Merged β :=
  (m.done ++ m.left.extract m.i m.left.size ++ m.right.extract m.j m.right.size, m.patience)

/-- The last left item belongs behind all others. -/
def finishLast (m : LeftMerge β) : Merged β :=
  (m.done ++ m.right.extract m.j m.right.size ++ m.left.extract m.i m.left.size, m.patience)

def leftOver (m : LeftMerge β) : Nat := m.left.size - m.i

def rightOver (m : LeftMerge β) : Nat := m.right.size - m.j

mutual

/-- Merge item by item. -/
def singly (before : β → β → Bool) : Nat → LeftMerge β → Nat → Nat → Merged β
  | 0, m, _, _ => m.finish
  | fuel + 1, m, leftWins, rightWins =>
    if goesBefore before m.right m.j m.left m.i then
      let m := m.takeRight 1
      if m.rightOver = 0 then m.finish
      else if m.patience ≤ rightWins + 1 then galloping before fuel m (m.patience + 1)
      else singly before fuel m 0 (rightWins + 1)
    else
      let m := m.takeLeft 1
      if m.leftOver = 1 then m.finishLast
      else if m.patience ≤ leftWins + 1 then galloping before fuel m (m.patience + 1)
      else singly before fuel m (leftWins + 1) 0

/-- Merge in stretches. -/
def galloping (before : β → β → Bool) : Nat → LeftMerge β → Nat → Merged β
  | 0, m, _ => m.finish
  | fuel + 1, m, patience =>
    let patience := if patience > 1 then patience - 1 else patience
    let m : LeftMerge β := { m with patience }
    let fromLeft :=
      gallop (fun n => !goesBefore before m.right m.j m.left (m.i + n)) m.leftOver 0
    let m := m.takeLeft fromLeft
    if 0 < fromLeft && m.leftOver = 1 then m.finishLast
    else if 0 < fromLeft && m.leftOver = 0 then m.finish
    else
      let m := m.takeRight 1
      if m.rightOver = 0 then m.finish
      else
        let fromRight := gallop (fun n => goesBefore before m.right (m.j + n) m.left m.i) m.rightOver 0
        let m := m.takeRight fromRight
        if 0 < fromRight && m.rightOver = 0 then m.finish
        else
          let m := m.takeLeft 1
          if m.leftOver = 1 then m.finishLast
          else if payingStretch ≤ fromLeft || payingStretch ≤ fromRight then
            galloping before fuel m patience
          else singly before fuel { m with patience := patience + 1 } 0 0

end

/-- Merge two runs of which the first item of the right one goes in front. -/
def run (before : β → β → Bool) (left right : Array β) (patience : Nat) : Merged β :=
  let m : LeftMerge β := { left, right, patience }
  let m := m.takeRight 1
  if m.rightOver = 0 then m.finish
  else if m.leftOver = 1 then m.finishLast
  else singly before (left.size + right.size) m 0 0

end LeftMerge

/-! ## From the right -/

/-- A merge from the right: `i` and `j` items remain, and `done` holds the others. -/
structure RightMerge (β : Type) where
  left : Array β
  right : Array β
  i : Nat
  j : Nat
  done : Array β := #[]
  patience : Nat

namespace RightMerge

/-- Take items of the left run. -/
def takeLeft (m : RightMerge β) (count : Nat) : RightMerge β :=
  { m with i := m.i - count, done := m.left.extract (m.i - count) m.i ++ m.done }

/-- Take items of the right run. -/
def takeRight (m : RightMerge β) (count : Nat) : RightMerge β :=
  { m with j := m.j - count, done := m.right.extract (m.j - count) m.j ++ m.done }

/-- The left items that remain, and then the right ones. -/
def finish (m : RightMerge β) : Merged β :=
  (m.left.extract 0 m.i ++ m.right.extract 0 m.j ++ m.done, m.patience)

/-- The last right item belongs in front of all others. -/
def finishFirst (m : RightMerge β) : Merged β :=
  (m.right.extract 0 m.j ++ m.left.extract 0 m.i ++ m.done, m.patience)

mutual

/-- Merge item by item. -/
def singly (before : β → β → Bool) : Nat → RightMerge β → Nat → Nat → Merged β
  | 0, m, _, _ => m.finish
  | fuel + 1, m, leftWins, rightWins =>
    if goesBefore before m.right (m.j - 1) m.left (m.i - 1) then
      let m := m.takeLeft 1
      if m.i = 0 then m.finish
      else if m.patience ≤ leftWins + 1 then galloping before fuel m (m.patience + 1)
      else singly before fuel m (leftWins + 1) 0
    else
      let m := m.takeRight 1
      if m.j = 1 then m.finishFirst
      else if m.patience ≤ rightWins + 1 then galloping before fuel m (m.patience + 1)
      else singly before fuel m 0 (rightWins + 1)

/-- Merge in stretches. -/
def galloping (before : β → β → Bool) : Nat → RightMerge β → Nat → Merged β
  | 0, m, _ => m.finish
  | fuel + 1, m, patience =>
    let patience := if patience > 1 then patience - 1 else patience
    let m : RightMerge β := { m with patience }
    let fromLeft :=
      m.i - gallop (fun n => !goesBefore before m.right (m.j - 1) m.left n) m.i (m.i - 1)
    let m := m.takeLeft fromLeft
    if 0 < fromLeft && m.i = 0 then m.finish
    else
      let m := m.takeRight 1
      if m.j = 1 then m.finishFirst
      else
        let fromRight :=
          m.j - gallop (fun n => goesBefore before m.right n m.left (m.i - 1)) m.j (m.j - 1)
        let m := m.takeRight fromRight
        if 0 < fromRight && m.j = 1 then m.finishFirst
        else if 0 < fromRight && m.j = 0 then m.finish
        else
          let m := m.takeLeft 1
          if m.i = 0 then m.finish
          else if payingStretch ≤ fromLeft || payingStretch ≤ fromRight then
            galloping before fuel m patience
          else singly before fuel { m with patience := patience + 1 } 0 0

end

/-- Merge two runs of which the last item of the left one goes to the end. -/
def run (before : β → β → Bool) (left right : Array β) (patience : Nat) : Merged β :=
  let m : RightMerge β := { left, right, i := left.size, j := right.size, patience }
  let m := m.takeLeft 1
  if m.i = 0 then m.finish
  else if m.j = 1 then m.finishFirst
  else singly before (left.size + right.size) m 0 0

end RightMerge

/-- Merge two runs. What is in its place already, at the start of the left run and at the end of the right
one, stays out of it. -/
def mergeRuns (before : β → β → Bool) (left right : Array β) (patience : Nat) : Merged β :=
  let start := gallop (fun n => !goesBefore before right 0 left n) left.size 0
  let upper := left.extract start left.size
  if upper.isEmpty then (left ++ right, patience)
  else
    let stop := gallop (fun n => goesBefore before right n left (left.size - 1)) right.size (right.size - 1)
    let lower := right.extract 0 stop
    if lower.isEmpty then (left ++ right, patience)
    else
      let (middle, patience) :=
        if upper.size ≤ lower.size then LeftMerge.run before upper lower patience
        else RightMerge.run before upper lower patience
      (left.extract 0 start ++ middle ++ right.extract stop right.size, patience)

end CodeSearch.Sorting
