import SpectralResponse.Scalar

/-!
# Whole numbers in 64-bit words

Sums and differences of words wrap around, and numbers that come from cells are held in the range of words. Both
change nothing as long as all numbers are words.

## What is proved

* `saturate_eq_self`, `wrap_eq_self` — a word stays what it is.
* `wrap_le` — wrapping makes no number greater, unless it lies below all words.
-/

namespace SpectralResponse.Scalar

/-- The number is a 64-bit word. -/
def IsWord (n : Int) : Prop := minWord ≤ n ∧ n ≤ maxWord

instance (n : Int) : Decidable (IsWord n) := inferInstanceAs (Decidable (_ ∧ _))

variable {n : Int}

theorem isWord_iff : IsWord n ↔ -9223372036854775808 ≤ n ∧ n ≤ 9223372036854775807 := Iff.rfl

theorem saturate_eq_self (h : IsWord n) : saturate n = n := by
  obtain ⟨hmin, hmax⟩ := h
  rw [saturate, clamp, Int.min_eq_right hmax, Int.max_eq_right hmin]

theorem wrap_eq_self (h : IsWord n) : wrap n = n := by
  rw [isWord_iff] at h
  rw [wrap, Int.bmod_def]
  split <;> omega

/-- What is no less than the least word only gets less. -/
theorem wrap_le (h : minWord ≤ n) : wrap n ≤ n := by
  rw [minWord] at h
  rw [wrap, Int.bmod_def]
  split <;> omega

end SpectralResponse.Scalar
