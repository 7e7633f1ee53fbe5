import SpectralResponse.Proofs.Scalar.Exact
import Mathlib.Data.Rat.Floor
import Mathlib.Data.Rat.Sqrt

/-!
# Rational scalars

Rational numbers are exact scalars on which the library can be run. A root is taken where it is rational.
-/

namespace SpectralResponse

/-- Rational numbers have roots where those are rational. -/
instance : Roots ℚ where
  sqrt := Rat.sqrt
  text := toString

end SpectralResponse
