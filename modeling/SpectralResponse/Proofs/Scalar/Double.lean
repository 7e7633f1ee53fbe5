import SpectralResponse.Scalar.Double
import Mathlib.Tactic.Common

/-!
# The order of double precision numbers

Comparing two doubles the other way round turns the answer around, so no double is both below and
above another. This is all that is needed of the order of doubles where a list is judged ascending or
descending by its ends.
-/

namespace SpectralResponse.Double

open Float.Model (UnpackedFloat)

theorem compare_sign_swap (s s' : UnpackedFloat.Sign) : compare s' s = (compare s s').swap := by
  cases s <;> cases s' <;> rfl

/-- Numbers of one sign are compared by exponent first and mantissa second. -/
theorem compare_finite_swap (m m' : Nat) (e e' : Int) :
    (compare e' e).then (compare m' m) = ((compare e e').then (compare m m')).swap := by
  rw [Ordering.swap_then, Std.OrientedOrd.eq_swap (a := e') (b := e),
    Std.OrientedOrd.eq_swap (a := m') (b := m)]

theorem compare_swap (a b : UnpackedFloat) : b.compare a = (a.compare b).map Ordering.swap := by
  cases a with
  | notANumber => cases b <;> rfl
  | infinity s =>
    cases b with
    | infinity s' => exact congrArg some (compare_sign_swap s s')
    | _ => cases s <;> rfl
  | zero s =>
    cases b with
    | notANumber => rfl
    | zero s' => rfl
    | _ s' => cases s' <;> rfl
  | finite s m e =>
    cases b with
    | notANumber => cases s <;> rfl
    | zero s' => cases s <;> rfl
    | infinity s' => cases s' <;> cases s <;> rfl
    | finite s' m' e' =>
      cases s <;> cases s'
      · exact congrArg (fun o => some o.swap) (compare_finite_swap m m' e e')
      · rfl
      · rfl
      · exact congrArg some (compare_finite_swap m m' e e')

theorem compare_of_lt {a b : Float} (h : a < b) :
    a.toModel.unpack.compare b.toModel.unpack = some .lt := by
  have h := of_decide_eq_true h
  simpa [LT.lt, Float.Model.lt, UnpackedFloat.lt] using h

instance asymm_lt : Std.Asymm ((· < ·) : Float → Float → Prop) where
  asymm a b h h' := by
    have h' := compare_of_lt h'
    rw [compare_swap, compare_of_lt h] at h'
    cases h'

end SpectralResponse.Double
