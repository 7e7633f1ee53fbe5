import SpectralResponse.CompensatedSum
import SpectralResponse.ResponseMatrix.Basic
import Mathlib.Algebra.BigOperators.Group.List.Basic
import Mathlib.Algebra.Order.Field.Basic
import Mathlib.Algebra.Order.Floor.Ring
import Mathlib.Tactic.Linarith
import Mathlib.Tactic.NormNum.OfScientific
import Mathlib.Tactic.Ring

/-!
# Exact scalars

Over a linearly ordered field with whole parts, such as the rational numbers, the library computes
without rounding. Its operations are those of the field; only square roots and the text of a number are
taken as given (`Roots`), since a field need not have them. There is no value off the number line.

The lemmas bring the operations of `Scalar` into the form in which they are known of an ordered field.
-/

namespace SpectralResponse

/-- What a field lacks to be a type of scalars. -/
class Roots (K : Type) where
  /-- The square root of a number, as far as there is one. -/
  sqrt : K → K
  /-- The number as it stands in messages. -/
  text : K → String

variable {K : Type} [Field K] [LinearOrder K] [FloorRing K] [Roots K]

namespace Scalar

instance exact : Scalar K where
  toAdd := inferInstance
  toSub := inferInstance
  toMul := inferInstance
  toDiv := inferInstance
  toNeg := inferInstance
  toZero := inferInstance
  toOne := inferInstance
  toLT := inferInstance
  toLE := inferInstance
  toBEq := inferInstance
  toOfScientific := inferInstance
  decidableLT := inferInstance
  decidableLE := inferInstance
  sqrt := Roots.sqrt
  ofInt := Int.cast
  trunc x := if 0 ≤ x then ⌊x⌋ else ⌈x⌉
  text := Roots.text

@[simp]
theorem isNaN_exact (x : K) : isNaN x = false := by simp [isNaN]

@[simp]
theorem isFinite_exact (x : K) : isFinite x = true := by simp [isFinite]

theorem lesser_exact (a b : K) : lesser a b = min a b := by
  rw [lesser, isNaN_exact, min_def]
  simp

theorem greater_exact (a b : K) : greater a b = max a b := by
  rw [greater, isNaN_exact, max_comm, max_def]
  simp

theorem sum_exact (xs : List K) : Scalar.sum xs = xs.sum := List.sum_eq_foldl.symm

end Scalar

/-- Nothing is dropped, so there is nothing to compensate. -/
theorem foldl_add_exact (values : List K) (total : K) :
    values.foldl RunningSum.add ⟨total, 0⟩ = ⟨total + values.sum, 0⟩ := by
  induction values generalizing total with
  | nil => simp
  | cons value values ih =>
    have hadd : (⟨total, 0⟩ : RunningSum K).add value = ⟨total + value, 0⟩ := by
      simp [RunningSum.add]
    rw [List.foldl_cons, hadd, ih, List.sum_cons, add_assoc]

theorem compensatedSum_exact (values : List K) : compensatedSum values = values.sum := by
  rw [compensatedSum, foldl_add_exact, zero_add]

theorem isBadWeight_exact (weight : K) : RawGroup.isBadWeight weight = decide (weight < 0) := by
  rw [RawGroup.isBadWeight, Scalar.isNaN_exact, Bool.false_or]

variable [IsStrictOrderedRing K]

theorem Scalar.abs_exact (x : K) : Scalar.abs x = |x| := by
  rw [Scalar.abs]
  split
  · rw [zero_sub, abs_of_nonpos (by assumption)]
  · rw [abs_of_pos (not_le.1 (by assumption))]

theorem edgeTolerance_pos : (0 : K) < Grid.edgeTolerance := by
  rw [Grid.edgeTolerance]
  norm_num

end SpectralResponse
