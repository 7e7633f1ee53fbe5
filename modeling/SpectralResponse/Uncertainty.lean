import SpectralResponse.Scalar

/-!
# Uncertainties

An uncertainty must be positive. Values that are not positive, or no numbers, are replaced, and the
replaced ones are counted.
-/

namespace SpectralResponse.Uncertainty

variable {α : Type} [Scalar α]

/-- The value cannot be used as an uncertainty. -/
def isUnusable (error : α) : Bool := Scalar.isNaN error || error ≤ 0

/-- The value, or the replacement where it cannot be used. -/
def orElse (replacement error : α) : α := if isUnusable error then replacement else error

/-- The uncertainties with replacements where they cannot be used. -/
def reset (replacement : α) (errors : List α) : List α := errors.map (orElse replacement)

/-- The number of values that cannot be used. -/
def unusableCount (errors : List α) : Nat := errors.countP isUnusable

/-- The uncertainty of a number of counts: the square root, or `floor` where there are none. -/
def ofCounts (floor counts : α) : α := if 0 < counts then Scalar.sqrt counts else floor

end SpectralResponse.Uncertainty
