import SpectralResponse.Scalar

/-!
# Compensated sums

A sum that carries along what rounding has dropped so far, so that small terms are not lost beside
large ones. Totals that decide whether something is accepted are taken this way.
-/

namespace SpectralResponse

/-- A running sum with the part of it that rounding has added too much. -/
structure RunningSum (α : Type) where
  /-- The sum so far. -/
  total : α
  /-- What the last additions put in beyond the exact terms. -/
  excess : α

variable {α : Type} [Scalar α]

/-- Adds a term, less the excess of the additions before it. -/
def RunningSum.add (s : RunningSum α) (value : α) : RunningSum α :=
  let corrected := value - s.excess
  let next := s.total + corrected
  ⟨next, (next - s.total) - corrected⟩

/-- The compensated sum of a list, from the left. -/
def compensatedSum (values : List α) : α := (values.foldl RunningSum.add ⟨0, 0⟩).total

end SpectralResponse
