import SpectralResponse.Scalar

/-!
# Values given for all bins or for each

A factor may be one number for every bin or a list with a number for each.
-/

namespace SpectralResponse

/-- One value for every bin, or a value for each. -/
inductive BinValues (α : Type) where
  /-- The same value everywhere. -/
  | scalar (value : α)
  /-- A value for each bin. -/
  | vector (values : List α)
  deriving DecidableEq, Repr

namespace BinValues

variable {α : Type} [Scalar α]

/-- The value of a bin. -/
def get : BinValues α → Nat → α
  | scalar value, _ => value
  | vector values, index => values[index]?.getD 0

/-- The values of the first `count` bins. -/
def toList (count : Nat) : BinValues α → List α
  | scalar value => List.replicate count value
  | vector values => values

omit [Scalar α] in
/-- The number of values there are, where they are given for each bin. -/
def length? : BinValues α → Option Nat
  | scalar _ => none
  | vector values => some values.length

omit [Scalar α] in
/-- The values fit a grid of `count` bins. -/
def fits (values : BinValues α) (count : Nat) : Bool := values.length?.all (· == count)

omit [Scalar α] in
/-- The values in reverse order of the bins. -/
def reverse : BinValues α → BinValues α
  | scalar value => scalar value
  | vector values => vector values.reverse

omit [Scalar α] in
/-- The values are the same for every bin. -/
def isScalar (values : BinValues α) : Bool := values.length?.isNone

/-- All values satisfy a condition. -/
def all (condition : α → Bool) : BinValues α → Bool
  | scalar value => condition value
  | vector values => values.all condition

end BinValues

end SpectralResponse
