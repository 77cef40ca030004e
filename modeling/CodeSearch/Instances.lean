/-!
# Instances of the core library

Powers and sums of numbers and the order of lists are those of the core library in every definition of the
program. A module makes the instances that it needs here its own, so that its definitions mean the same
whatever else is imported beside it.
-/

namespace CodeSearch

/-- Powers of natural numbers. -/
@[reducible] def powNat : Pow Nat Nat := instPowNat

/-- Powers of integers. -/
@[reducible] def powInt : Pow Int Nat := instPowNat

/-- The sum of no numbers. -/
@[reducible] def zeroNat : Zero Nat := Zero.ofOfNat0

/-- The order of texts by their codes. -/
@[reducible] def leCodes : LE (List Nat) := List.instLE

/-- The strict order of texts by their codes. -/
@[reducible] def ltCodes : LT (List Nat) := List.instLT

attribute [local instance] ltCodes

/-- The order of several texts, the first one first. -/
@[reducible] def leTexts : LE (List (List Nat)) := List.instLE

end CodeSearch
