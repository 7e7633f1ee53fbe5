/-!
# Binary search

The first position of an array at which a condition fails, found by halving, provided that the
condition holds on a first part of the array and fails on the rest.
-/

namespace SpectralResponse.BinarySearch

/-- Halves the positions from `lo` to `hi`, knowing that the condition holds before `lo` and fails from
`hi` on. -/
def between {β : Type} (holds : β → Bool) (xs : Array β) (lo hi : Nat) : Nat :=
  if lo < hi then
    let middle := (lo + hi) / 2
    if xs[middle]?.any holds then between holds xs (middle + 1) hi else between holds xs lo middle
  else lo
  termination_by hi - lo

/-- The first position at which the condition fails, or the size of the array. -/
def partitionPoint {β : Type} (holds : β → Bool) (xs : Array β) : Nat := between holds xs 0 xs.size

end SpectralResponse.BinarySearch
