import SpectralResponse.Scalar
import SpectralResponse.Decimal.Layout

/-!
# Double precision numbers

The scalars the library runs on. Only the passages to whole numbers, to text and from decimals need a
definition of their own; they work on the bits and are exact.
-/

namespace SpectralResponse

namespace Double

/-- The number is zero or positive, or carries no negative sign. -/
def isNegative (x : Float) : Bool := x.toBits >>> 63 = 1

/-- The magnitude of a finite number. -/
def magnitude (x : Float) : Dyadic := Dyadic.ofBits x.toBits

/-- The whole part of a finite number, cut toward zero. -/
def trunc (x : Float) : Int :=
  let m := magnitude x
  let size := m.mantissa * Nat.pow 2 m.exponent.toNat / Nat.pow 2 (-m.exponent).toNat
  if isNegative x then -(size : Int) else size

/-- The double nearest to a decimal. Exponents far outside the range of doubles are answered at once:
with fewer than `log2 m + 1` digits, `m` times such a power is beyond the greatest double or below half
the least. -/
def ofScientific (m : Nat) (negative : Bool) (e : Nat) : Float :=
  if m = 0 then 0
  else if negative then
    if m.log2 + 400 < e then 0 else Float.ofScientific m true e
  else
    if 400 < e then 1.0 / 0.0 else Float.ofScientific m false e

/-- Sets out the shortest decimal of a finite number with its sign. -/
def render (layout : Decimal → String) (x : Float) : String :=
  (if isNegative x then "-" else "") ++ layout (magnitude x).shortest

/-- The number in messages: positional, with words for the values off the line. -/
def text (x : Float) : String :=
  if x.isNaN then "NaN"
  else if x.isInf then (if isNegative x then "-inf" else "inf")
  else render Decimal.positional x

/-- The number in documents, which have no number off the line. -/
def documentText (x : Float) : String :=
  if x.isNaN || x.isInf then "null" else render Decimal.mixed x

end Double

/-- Doubles are the scalars that the library runs on. -/
instance : Scalar Float where
  toZero := ⟨0.0⟩
  toOne := ⟨1.0⟩
  toOfScientific := ⟨Double.ofScientific⟩
  decidableLT := inferInstance
  decidableLE := inferInstance
  sqrt := Float.sqrt
  ofInt := Float.ofInt
  trunc := Double.trunc
  text := Double.text

end SpectralResponse
