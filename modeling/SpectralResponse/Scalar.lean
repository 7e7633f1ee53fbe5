/-!
# Scalars

Every quantity of the library (energies, areas, counts, weights) is a number of one type `α` that
carries the operations collected in `Scalar`: the four operations, square root, comparisons, and the
way to whole numbers and to text. The library is written once over this class. It runs on double
precision numbers (`Scalar.Double`); read over the rational or the real numbers, the same definitions
are exact.

The class holds operations only, no laws, because rounded arithmetic satisfies hardly any. What the
operations below promise is said for the two values that are no numbers on the line as well: a value
that differs from itself (`isNaN`), and an infinite one.
-/

namespace SpectralResponse

/-- The operations the library needs of its numbers. -/
class Scalar (α : Type) where
  /-- Sums. -/
  [toAdd : Add α]
  /-- Differences. -/
  [toSub : Sub α]
  /-- Products. -/
  [toMul : Mul α]
  /-- Quotients. -/
  [toDiv : Div α]
  /-- The number on the other side of zero. -/
  [toNeg : Neg α]
  /-- Zero. -/
  [toZero : Zero α]
  /-- One. -/
  [toOne : One α]
  /-- One number is below another. -/
  [toLT : LT α]
  /-- One number is at most another. -/
  [toLE : LE α]
  /-- Numbers are told apart. -/
  [toBEq : BEq α]
  /-- The number nearest to a decimal numeral. -/
  [toOfScientific : OfScientific α]
  /-- Whether one number is below another can be decided. -/
  decidableLT : DecidableLT α
  /-- Whether one number is at most another can be decided. -/
  decidableLE : DecidableLE α
  /-- The square root of a non-negative number. -/
  sqrt : α → α
  /-- The number nearest to a whole number. -/
  ofInt : Int → α
  /-- The whole part, cut toward zero, of a finite number. -/
  trunc : α → Int
  /-- The number as it stands in messages. -/
  text : α → String

namespace Scalar

variable {α : Type} [Scalar α]

/-! ### The operations of a type of scalars -/

-- A type that has these operations by itself keeps its own.

instance (priority := low) : Add α := toAdd

instance (priority := low) : Sub α := toSub

instance (priority := low) : Mul α := toMul

instance (priority := low) : Div α := toDiv

instance (priority := low) : Neg α := toNeg

instance (priority := low) : Zero α := toZero

instance (priority := low) : One α := toOne

instance (priority := low) : LT α := toLT

instance (priority := low) : LE α := toLE

instance (priority := low) : BEq α := toBEq

instance (priority := low) : OfScientific α := toOfScientific

instance (priority := low) (a b : α) : Decidable (a < b) := decidableLT a b

instance (priority := low) (a b : α) : Decidable (a ≤ b) := decidableLE a b

/-- The number nearest to a count. -/
def ofNat (n : Nat) : α := ofInt (Int.ofNat n)

/-! ### Values off the number line -/

/-- Not a number: the value that differs from itself. -/
def isNaN (x : α) : Bool := !(x == x)

/-- A number on the line, neither infinite nor `isNaN`. -/
def isFinite (x : α) : Bool := x - x == 0

/-- The value above every number, where there is one. -/
def infinity : α := 1 / 0

/-- The value that is not a number, where there is one. -/
def nan : α := 0 / 0

/-! ### Order -/

/-- The distance from zero. -/
def abs (x : α) : α := if x ≤ 0 then 0 - x else x

/-- The lesser of two numbers; where one of them is no number, the other. -/
def lesser (a b : α) : α := if a ≤ b then a else if isNaN b then a else b

/-- The greater of two numbers; where one of them is no number, the other. -/
def greater (a b : α) : α := if b ≤ a then a else if isNaN b then a else b

/-! ### Whole numbers -/

/-- The number has no fractional part. -/
def isWhole (x : α) : Bool := isFinite x && ofInt (trunc x) == x

/-- Moves a whole number into the range from `lo` to `hi`. -/
def clamp (lo hi n : Int) : Int := max lo (min hi n)

/-- The whole part of any value, held between `lo` and `hi`: an infinite value goes to the bound on
its side, and a value that is no number goes to zero. -/
def truncWithin (lo hi : Int) (x : α) : Int :=
  if isNaN x then 0
  else if isFinite x then clamp lo hi (trunc x)
  else if x < 0 then lo
  else hi

/-- The least whole number of a 64-bit word. -/
def minWord : Int := -9223372036854775808

/-- The greatest whole number of a 64-bit word. -/
def maxWord : Int := 9223372036854775807

/-- The greatest count of a 64-bit word without a sign. -/
def maxCount : Nat := 18446744073709551615

/-- The whole part, held in the range of 64-bit words. -/
def truncToWord (x : α) : Int := truncWithin minWord maxWord x

/-- The nearest whole number, halves going away from zero; of an infinite value, the bound of 64-bit words
on its side. -/
def nearest (x : α) : Int :=
  if isFinite x then
    let whole := trunc x
    let rest := x - ofInt whole
    if (0.5 : α) ≤ rest then whole + 1 else if rest ≤ -(0.5 : α) then whole - 1 else whole
  else truncToWord x

/-- The 64-bit word nearest to a whole number. -/
def saturate (n : Int) : Int := clamp minWord maxWord n

/-- The nearest whole number, held in the range of 64-bit words. -/
def roundToWord (x : α) : Int := saturate (nearest x)

/-- What 64-bit words keep of a sum or a difference: past either end of their range they go on from the
other. -/
def wrap (n : Int) : Int := n.bmod 18446744073709551616

/-! ### Sums -/

/-- The sum of a list, added up from the left. -/
def sum (xs : List α) : α := xs.foldl (· + ·) 0

end Scalar

end SpectralResponse
