import SpectralResponse.Proofs.Scalar.Exact

/-!
# Comparing scalars

Comparisons of doubles are no linear order, since a value that is no number is not even at most itself. What remains
is that comparisons chain (`LawfulComparisons`), and that a sum with zero is the other summand, as far as `==` can tell
(`LawfulZero`). Where no more than this is asked of scalars, a result holds of exact scalars and of doubles alike.
-/

namespace SpectralResponse

/-! ### What is asked of scalars -/

/-- Comparisons chain, whatever values are compared. -/
class LawfulComparisons (α : Type) [Scalar α] : Prop where
  /-- What is at most something is at most what that is at most. -/
  le_trans {a b c : α} : a ≤ b → b ≤ c → a ≤ c
  /-- What is at most something is below what that is below. -/
  lt_of_le_of_lt {a b c : α} : a ≤ b → b < c → a < c
  /-- What is below something is at most that. -/
  le_of_lt {a b : α} : a < b → a ≤ b
  /-- Nothing is at most what is below it. -/
  not_le_of_lt {a b : α} : a < b → ¬ b ≤ a
  /-- What is above something is a number. -/
  isNaN_of_lt {a b : α} : a < b → Scalar.isNaN b = false

/-- A sum with zero is the other summand. -/
class LawfulZero (α : Type) [Scalar α] : Prop where
  /-- It cannot be told apart from the other summand, if that is a number. -/
  zero_add_beq {x : α} : Scalar.isNaN x = false → (0 + x == x) = true
  /-- It is the same as the other summand, if that is above zero. -/
  zero_add_of_pos {x : α} : 0 < x → 0 + x = x

/-! ### Exact scalars -/

variable {K : Type} [Field K] [LinearOrder K] [FloorRing K] [Roots K]

instance : LawfulComparisons K where
  le_trans := le_trans
  lt_of_le_of_lt := lt_of_le_of_lt
  le_of_lt := le_of_lt
  not_le_of_lt := not_le_of_gt
  isNaN_of_lt _ := Scalar.isNaN_exact _

instance : LawfulZero K where
  zero_add_beq _ := by
    rw [zero_add]
    exact beq_self_eq_true _
  zero_add_of_pos _ := zero_add _

end SpectralResponse
