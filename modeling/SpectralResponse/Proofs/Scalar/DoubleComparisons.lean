import SpectralResponse.Proofs.Scalar.Comparisons
import SpectralResponse.Proofs.Scalar.DoubleProducts

/-!
# Comparing doubles

A double that is a number has a place in a lexicographic order, and doubles are compared by their places. So their
comparisons chain. Adding zero to a double changes nothing, except that the zero below zero becomes the one above,
which are equal.

## What is proved

* `compare_eq` — doubles are compared by their places.
* `LawfulComparisons` and `LawfulZero` hold of doubles.
-/

namespace SpectralResponse.Double

open Float.Model (UnpackedFloat)

/-! ### Places -/

/-- Where a double stands: first by its sign and by whether it is infinite, then by its exponent and its mantissa, which
both count backwards below zero. -/
def place : UnpackedFloat → Option (Int × Int × Int)
  | .notANumber => none
  | .infinity .negative => some (-2, 0, 0)
  | .finite .negative m e _ => some (-1, -e, -m)
  | .zero _ => some (0, 0, 0)
  | .finite .positive m e _ => some (1, e, m)
  | .infinity .positive => some (2, 0, 0)

/-- The first difference decides. -/
def comparePlaces : Int × Int × Int → Int × Int × Int → Ordering :=
  compareLex (compareOn Prod.fst) (compareLex (compareOn fun p => p.2.1) (compareOn fun p => p.2.2))

instance : Std.TransCmp comparePlaces :=
  inferInstanceAs (Std.TransCmp (compareLex _ (compareLex _ _)))

theorem compare_neg (a b : Int) : compare (-a) (-b) = (compare a b).swap := by
  rcases lt_trichotomy a b with hlt | rfl | hlt
  · rw [compare_lt_iff_lt.2 hlt, compare_gt_iff_gt.2 (neg_lt_neg hlt)]
    rfl
  · rw [compare_eq_iff_eq.2 rfl, compare_eq_iff_eq.2 rfl]
    rfl
  · rw [compare_gt_iff_gt.2 hlt, compare_lt_iff_lt.2 (neg_lt_neg hlt)]
    rfl

theorem compare_natCast (m n : Nat) : compare (m : Int) n = compare m n := by
  rcases lt_trichotomy m n with hlt | rfl | hlt
  · rw [compare_lt_iff_lt.2 hlt, compare_lt_iff_lt.2 (Int.ofNat_lt.2 hlt)]
  · rw [compare_eq_iff_eq.2 rfl, compare_eq_iff_eq.2 rfl]
  · rw [compare_gt_iff_gt.2 hlt, compare_gt_iff_gt.2 (Int.ofNat_lt.2 hlt)]

/-- Doubles are compared by their places; what has none cannot be compared. -/
theorem compare_eq (a b : UnpackedFloat) :
    a.compare b = (place a).bind fun p => (place b).map (comparePlaces p) := by
  cases a with
  | notANumber => cases b <;> rfl
  | infinity s => cases s <;> cases b with
    | infinity s' => cases s' <;> rfl
    | finite s' => cases s' <;> rfl
    | _ => rfl
  | zero s => cases b with
    | infinity s' => cases s' <;> rfl
    | finite s' => cases s' <;> rfl
    | _ => rfl
  | finite s m e => cases s <;> cases b with
    | infinity s' => cases s' <;> rfl
    | zero s' => rfl
    | notANumber => rfl
    | finite s' m' e' =>
      cases s'
      all_goals first
        | rfl
        | simp [UnpackedFloat.compare, place, comparePlaces, compareLex, compareOn, compare_neg, compare_natCast,
            Ordering.swap_then]

variable {a b c : Float}

theorem le_iff : a ≤ b ↔ ∃ p q, place a.toModel.unpack = some p ∧ place b.toModel.unpack = some q ∧
    (comparePlaces p q).isLE = true := by
  have hle : a ≤ b ↔ (a.toModel.unpack.compare b.toModel.unpack).any (·.isLE) = true := decide_eq_true_iff
  rw [hle, compare_eq]
  cases place a.toModel.unpack <;> cases place b.toModel.unpack <;> simp

theorem lt_iff : a < b ↔ ∃ p q, place a.toModel.unpack = some p ∧ place b.toModel.unpack = some q ∧
    comparePlaces p q = .lt := by
  have hlt : a < b ↔ (a.toModel.unpack.compare b.toModel.unpack == some .lt) = true := decide_eq_true_iff
  rw [hlt, compare_eq]
  cases place a.toModel.unpack <;> cases place b.toModel.unpack <;> simp

/-- What has a place is a number. -/
theorem isNaN_eq_false {p : Int × Int × Int} (h : place a.toModel.unpack = some p) : Scalar.isNaN a = false := by
  have hbeq : (a == a) = (a.toModel.unpack.compare a.toModel.unpack == some .eq) := rfl
  rw [Scalar.isNaN, hbeq, compare_eq, h]
  simp [Std.ReflCmp.compare_self]

instance : LawfulComparisons Float where
  le_trans hab hbc := by
    obtain ⟨p, q, hp, hq, hpq⟩ := le_iff.1 hab
    obtain ⟨q', r, hq', hr, hqr⟩ := le_iff.1 hbc
    cases hq.symm.trans hq'
    exact le_iff.2 ⟨p, r, hp, hr, Std.TransCmp.isLE_trans hpq hqr⟩
  lt_of_le_of_lt hab hbc := by
    obtain ⟨p, q, hp, hq, hpq⟩ := le_iff.1 hab
    obtain ⟨q', r, hq', hr, hqr⟩ := lt_iff.1 hbc
    cases hq.symm.trans hq'
    exact lt_iff.2 ⟨p, r, hp, hr, Std.TransCmp.lt_of_isLE_of_lt hpq hqr⟩
  le_of_lt hab := by
    obtain ⟨p, q, hp, hq, hpq⟩ := lt_iff.1 hab
    exact le_iff.2 ⟨p, q, hp, hq, by rw [hpq]; rfl⟩
  not_le_of_lt hab hba := by
    obtain ⟨p, q, hp, hq, hpq⟩ := lt_iff.1 hab
    obtain ⟨q', p', hq', hp', hqp⟩ := le_iff.1 hba
    cases hq.symm.trans hq'
    cases hp.symm.trans hp'
    have hswap : comparePlaces q p = (comparePlaces p q).swap := Std.OrientedCmp.eq_swap
    rw [hswap, hpq] at hqp
    cases hqp
  isNaN_of_lt hab := by
    obtain ⟨p, q, hp, hq, hpq⟩ := lt_iff.1 hab
    exact isNaN_eq_false hq

/-! ### Sums with zero -/

/-- A sum with zero is the other summand, unless that is the zero below zero. -/
theorem zero_add_eq {x : Float} (h : x.toModel.unpack ≠ .zero .negative) : 0.0 + x = x := by
  have hzero : (0.0 : Float).toModel.unpack = .zero .positive := rfl
  show (⟨Float.Model.pack (UnpackedFloat.add .binary64 (0.0 : Float).toModel.unpack x.toModel.unpack)⟩ : Float) = x
  have hsame : UnpackedFloat.add .binary64 (.zero .positive) x.toModel.unpack = x.toModel.unpack := by
    cases hunpack : x.toModel.unpack with
    | zero s =>
      cases s with
      | positive => rfl
      | negative => exact absurd hunpack h
    | _ => rfl
  rw [hzero, hsame]
  exact pack_unpack_toModel x

instance : LawfulZero Float where
  zero_add_beq {x} hx := by
    by_cases hzero : x.toModel.unpack = .zero .negative
    · rw [← pack_unpack_toModel x, hzero]
      decide
    · show (0.0 + x == x) = true
      rw [zero_add_eq hzero]
      simpa [Scalar.isNaN] using hx
  zero_add_of_pos {x} hx := by
    refine zero_add_eq fun hzero => ?_
    obtain ⟨p, q, hp, hq, hpq⟩ := lt_iff.1 hx
    rw [hzero] at hq
    cases hq
    cases hp
    cases hpq

end SpectralResponse.Double
