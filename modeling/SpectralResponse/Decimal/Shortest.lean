/-!
# Shortest decimals

The decimal with the fewest digits that reads back as a given binary number. A finite non-negative
double is `mantissa * 2 ^ exponent` (`Dyadic`); the real numbers that round to it form an interval,
ends included exactly when the mantissa is even (`Dyadic.readsBack`). For one, two, … digits the two
neighbours of the number on that decimal grid are tested in exact arithmetic, so the first grid that
has a hit gives the least number of digits, and of two hits the nearer is taken.
-/

namespace SpectralResponse

/-- A decimal number, `digits * 10 ^ exponent`. -/
structure Decimal where
  /-- The digits, read as one natural number. -/
  digits : Nat
  /-- The power of ten they are multiplied with. -/
  exponent : Int
  deriving DecidableEq, Repr, Inhabited

/-- A finite non-negative binary number, `mantissa * 2 ^ exponent`. -/
structure Dyadic where
  /-- The significand. -/
  mantissa : Nat
  /-- The power of two it is multiplied with. -/
  exponent : Int
  /-- The number below is half as far away as the number above. -/
  narrowBelow : Bool
  deriving DecidableEq, Repr

namespace Dyadic

/-- The magnitude of a finite double, from its 64 bits. -/
def ofBits (bits : UInt64) : Dyadic :=
  let biased := ((bits >>> 52) &&& 0x7FF).toNat
  let fraction := (bits &&& 0xFFFFFFFFFFFFF).toNat
  if biased = 0 then ⟨fraction, -1074, false⟩
  else ⟨4503599627370496 + fraction, (biased : Int) - 1075, fraction = 0 && biased > 1⟩

/-- Compares `a * 10 ^ i` with `n * 2 ^ j`, exactly. -/
def compareScaled (a : Nat) (i : Int) (n : Nat) (j : Int) : Ordering :=
  compare (a * Nat.pow 10 i.toNat * Nat.pow 2 (-j).toNat) (n * Nat.pow 2 j.toNat * Nat.pow 10 (-i).toNat)

/-- The decimal lies among the real numbers that round to the binary number. -/
def readsBack (x : Dyadic) (d : Decimal) : Bool :=
  let lo := if x.narrowBelow then 4 * x.mantissa - 1 else 4 * x.mantissa - 2
  let hi := 4 * x.mantissa + 2
  let closed := x.mantissa % 2 = 0
  let below := compareScaled d.digits d.exponent lo (x.exponent - 2)
  let above := compareScaled d.digits d.exponent hi (x.exponent - 2)
  (below == .gt || (closed && below == .eq)) && (above == .lt || (closed && above == .eq))

/-- Looks upwards from `k` for a power of ten that exceeds the number. -/
def magnitudeFrom (x : Dyadic) : Nat → Int → Int
  | 0, k => k
  | steps + 1, k =>
    if compareScaled 1 k x.mantissa x.exponent = .gt then k else x.magnitudeFrom steps (k + 1)

/-- The least `k` such that the number, which is not zero, is below `10 ^ k`. The start is taken from
the binary logarithm (`30103 / 100000` lies just above the common logarithm of two) and is low by a
few steps at most. -/
def magnitude (x : Dyadic) : Int :=
  x.magnitudeFrom 8 (((x.mantissa.log2 : Int) + x.exponent) * 30103 / 100000 - 2)

/-- The whole number of steps `10 ^ e` that the number holds. -/
def stepsBelow (x : Dyadic) (e : Int) : Nat :=
  (x.mantissa * Nat.pow 2 x.exponent.toNat * Nat.pow 10 (-e).toNat) /
    (Nat.pow 2 (-x.exponent).toNat * Nat.pow 10 e.toNat)

/-- The decimals of `count` digits that read back, the nearer one if there are two; of two that are
equally near, the greater. -/
def onGrid? (x : Dyadic) (k : Int) (count : Nat) : Option Decimal :=
  let e := k - count
  let lower : Decimal := ⟨x.stepsBelow e, e⟩
  let upper : Decimal := ⟨x.stepsBelow e + 1, e⟩
  match x.readsBack lower, x.readsBack upper with
  | true, true =>
    if compareScaled (lower.digits + upper.digits) e (2 * x.mantissa) x.exponent = .gt then some lower
    else some upper
  | true, false => some lower
  | false, true => some upper
  | false, false => none

/-- The number written out exactly. -/
def exact (x : Dyadic) : Decimal :=
  if 0 ≤ x.exponent then ⟨x.mantissa * Nat.pow 2 x.exponent.toNat, 0⟩
  else ⟨x.mantissa * Nat.pow 5 (-x.exponent).toNat, x.exponent⟩

end Dyadic

namespace Decimal

/-- Moves up to `steps` trailing zeros of the digits into the exponent. -/
def stripZeros : Nat → Decimal → Decimal
  | 0, d => d
  | steps + 1, d =>
    if d.digits ≠ 0 ∧ d.digits % 10 = 0 then stripZeros steps ⟨d.digits / 10, d.exponent + 1⟩ else d

end Decimal

/-- The shortest decimal that reads back as the number, without trailing zeros. -/
def Dyadic.shortest (x : Dyadic) : Decimal :=
  if x.mantissa = 0 then ⟨0, 0⟩
  else
    let k := x.magnitude
    let found := (List.range' 1 17).findSome? fun count => x.onGrid? k count
    Decimal.stripZeros 20 (found.getD x.exact)

end SpectralResponse
