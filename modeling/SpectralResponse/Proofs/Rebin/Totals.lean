import SpectralResponse.Proofs.Grid.Ordered
import SpectralResponse.Proofs.Rebin.Linear
import Mathlib.Tactic.LinearCombination

/-!
# Rebinning keeps the total

A source bin gives away all of its value when the target bins cover each of its energies once: the lengths
that they have in common with it then add up to its width. The sweep finds all of these target bins when the
low edges of both grids never decrease.

## What is proved

* `sum_overlap` — where each energy of an interval lies in the same number of bins, the common lengths add up
  to that many times the length of the interval.
* `sum_of_rebin` — the sum of the values is kept.
-/

namespace SpectralResponse

variable {K : Type} [Field K] [LinearOrder K] [FloorRing K] [Roots K]

/-- Each energy of the bin lies in exactly one of the bins. -/
def Bin.TiledBy (b : Bin K) (bins : List (Bin K)) : Prop :=
  ∀ energy, b.contains energy = true → bins.countP (·.contains energy) = 1

theorem contains_iff {b : Bin K} {energy : K} : b.contains energy = true ↔ b.lo ≤ energy ∧ energy < b.hi := by
  simp [Bin.contains]

/-- Two bins that touch tile a bin that lies within both. -/
theorem tiledBy_touching {b : Bin K} {lo middle hi : K} (hlo : lo ≤ b.lo) (hhi : b.hi ≤ hi) :
    b.TiledBy [⟨lo, middle⟩, ⟨middle, hi⟩] := by
  intro energy h
  rw [contains_iff] at h
  simp only [List.countP_cons, List.countP_nil, contains_iff]
  grind

variable [IsStrictOrderedRing K]

/-! ### Common lengths -/

/-- The energy of a bin that is closest to the given one, or its low edge if it is empty. -/
def Bin.nearest (b : Bin K) (energy : K) : K := max b.lo (min energy (max b.lo b.hi))

/-- The common length is what the closest energy moves along. -/
theorem overlap_eq_sub {lo hi : K} (h : lo ≤ hi) (b : Bin K) :
    (⟨lo, hi⟩ : Bin K).overlap b = b.nearest hi - b.nearest lo := by
  rw [overlap_exact, Bin.nearest, Bin.nearest]
  rcases le_total b.lo b.hi with hb | hb
  · rw [max_eq_right hb]
    grind
  · rw [max_eq_left hb]
    grind

/-- The common lengths of the parts of an interval add up. -/
theorem overlap_add {lo middle hi : K} (h : lo ≤ middle) (h' : middle ≤ hi) (b : Bin K) :
    (⟨lo, hi⟩ : Bin K).overlap b = (⟨lo, middle⟩ : Bin K).overlap b + (⟨middle, hi⟩ : Bin K).overlap b := by
  rw [overlap_eq_sub h, overlap_eq_sub h', overlap_eq_sub (h.trans h'), sub_add_sub_cancel']

theorem sum_overlap_add {lo middle hi : K} (h : lo ≤ middle) (h' : middle ≤ hi) (bins : List (Bin K)) :
    (bins.map (⟨lo, hi⟩ : Bin K).overlap).sum =
      (bins.map (⟨lo, middle⟩ : Bin K).overlap).sum + (bins.map (⟨middle, hi⟩ : Bin K).overlap).sum := by
  rw [← List.sum_map_add]
  exact congrArg List.sum (List.map_congr_left fun b _ => overlap_add h h' b)

/-! ### Cuts -/

/-- Where the part of an interval that lies in the bin starts. -/
def Bin.cutStart (b : Bin K) (lo hi : K) : K := max lo (min b.lo hi)

/-- Where the part of an interval that lies in the bin ends. -/
def Bin.cutEnd (b : Bin K) (lo hi : K) : K := max (b.cutStart lo hi) (min b.hi hi)

section

omit [Field K] [FloorRing K] [Roots K] [IsStrictOrderedRing K]

theorem le_cutStart (b : Bin K) (lo hi : K) : lo ≤ b.cutStart lo hi := le_max_left _ _

theorem cutStart_le_cutEnd (b : Bin K) (lo hi : K) : b.cutStart lo hi ≤ b.cutEnd lo hi := le_max_left _ _

theorem cutEnd_le {lo hi : K} (h : lo ≤ hi) (b : Bin K) : b.cutEnd lo hi ≤ hi :=
  max_le (max_le h (min_le_right _ _)) (min_le_right _ _)

end

theorem overlap_eq_cut {lo hi : K} (h : lo ≤ hi) (b : Bin K) :
    (⟨lo, hi⟩ : Bin K).overlap b = b.cutEnd lo hi - b.cutStart lo hi := by
  rw [overlap_exact, Bin.cutEnd, Bin.cutStart]
  grind

/-- The energies of an interval that lie in the bin are those between the cuts. -/
theorem contains_iff_cut {lo hi energy : K} (hlow : lo ≤ energy) (hhigh : energy < hi) (b : Bin K) :
    b.contains energy = true ↔ b.cutStart lo hi ≤ energy ∧ energy < b.cutEnd lo hi := by
  rw [contains_iff, Bin.cutEnd, Bin.cutStart]
  grind

theorem not_contains_of_lt_cutStart {lo hi energy : K} (h : lo ≤ hi) {b : Bin K} (hlow : lo ≤ energy)
    (hhigh : energy < b.cutStart lo hi) : b.contains energy = false := by
  have hin : energy < hi := hhigh.trans_le ((cutStart_le_cutEnd b lo hi).trans (cutEnd_le h b))
  rw [Bool.eq_false_iff, ne_eq, contains_iff_cut hlow hin]
  exact fun hcut => hhigh.not_ge hcut.1

theorem not_contains_of_cutEnd_le {lo hi energy : K} {b : Bin K} (hlow : b.cutEnd lo hi ≤ energy)
    (hhigh : energy < hi) : b.contains energy = false := by
  have hin : lo ≤ energy := ((le_cutStart b lo hi).trans (cutStart_le_cutEnd b lo hi)).trans hlow
  rw [Bool.eq_false_iff, ne_eq, contains_iff_cut hin hhigh]
  exact fun hcut => hcut.2.not_ge hlow

/-- Where each energy of an interval lies in `count` bins, the common lengths add up to `count` times the
length of the interval. -/
theorem sum_overlap {bins : List (Bin K)} {count : Nat} {lo hi : K} (h : lo ≤ hi)
    (hcount : ∀ energy, lo ≤ energy → energy < hi → bins.countP (·.contains energy) = count) :
    (bins.map (⟨lo, hi⟩ : Bin K).overlap).sum = count * (hi - lo) := by
  induction bins generalizing count lo hi with
  | nil =>
    rcases h.eq_or_lt with rfl | hlt
    · simp
    · simp [← hcount lo (le_refl _) hlt]
  | cons b bins ih =>
    have hfirst : lo ≤ b.cutStart lo hi := le_cutStart b lo hi
    have hmiddle : b.cutStart lo hi ≤ b.cutEnd lo hi := cutStart_le_cutEnd b lo hi
    have hlast : b.cutEnd lo hi ≤ hi := cutEnd_le h b
    have hleft : (bins.map (⟨lo, b.cutStart lo hi⟩ : Bin K).overlap).sum = count * (b.cutStart lo hi - lo) :=
      ih hfirst fun energy hlow hhigh => by
        have hall := hcount energy hlow (hhigh.trans_le (hmiddle.trans hlast))
        rwa [List.countP_cons, not_contains_of_lt_cutStart h hlow hhigh] at hall
    have hright : (bins.map (⟨b.cutEnd lo hi, hi⟩ : Bin K).overlap).sum = count * (hi - b.cutEnd lo hi) :=
      ih hlast fun energy hlow hhigh => by
        have hall := hcount energy ((hfirst.trans hmiddle).trans hlow) hhigh
        rwa [List.countP_cons, not_contains_of_cutEnd_le hlow hhigh] at hall
    -- between the cuts the first bin is one of those that each energy lies in
    have hone (energy : K) (hlow : b.cutStart lo hi ≤ energy) (hhigh : energy < b.cutEnd lo hi) :
        bins.countP (·.contains energy) + 1 = count := by
      have hin : b.contains energy = true :=
        (contains_iff_cut (hfirst.trans hlow) (hhigh.trans_le hlast) b).2 ⟨hlow, hhigh⟩
      have hall := hcount energy (hfirst.trans hlow) (hhigh.trans_le hlast)
      rwa [List.countP_cons, hin] at hall
    have hcommon : (bins.map (⟨b.cutStart lo hi, b.cutEnd lo hi⟩ : Bin K).overlap).sum =
        (count - 1 : Nat) * (b.cutEnd lo hi - b.cutStart lo hi) :=
      ih hmiddle fun energy hlow hhigh => Nat.eq_sub_of_add_eq (hone energy hlow hhigh)
    have hwhole : ((count - 1 : Nat) : K) * (b.cutEnd lo hi - b.cutStart lo hi) +
        (b.cutEnd lo hi - b.cutStart lo hi) = count * (b.cutEnd lo hi - b.cutStart lo hi) := by
      rcases hmiddle.eq_or_lt with hempty | hlt
      · simp [hempty]
      · rw [← hone _ (le_refl _) hlt, Nat.add_sub_cancel, Nat.cast_add_one]
        ring
    rw [List.map_cons, List.sum_cons, sum_overlap_add hfirst (hmiddle.trans hlast),
      sum_overlap_add hmiddle hlast, hleft, hcommon, hright, overlap_eq_cut h]
    linear_combination hwhole

/-! ### Totals -/

/-- The common lengths of a bin that is tiled add up to its width. -/
theorem Bin.TiledBy.sum_overlap {source : Bin K} {bins : List (Bin K)} (h : source.TiledBy bins)
    (hw : source.lo < source.hi) : (bins.map source.overlap).sum = source.width := by
  have hone : (bins.map source.overlap).sum = (1 : Nat) * (source.hi - source.lo) :=
    SpectralResponse.sum_overlap hw.le fun energy hlow hhigh => h energy (contains_iff.2 ⟨hlow, hhigh⟩)
  rwa [Nat.cast_one, one_mul] at hone

/-- When the target bins tile each source bin, the sum of the values is kept. -/
theorem sum_of_rebin {target source : Grid K} {values moved : List K}
    (h : rebin target source values = .ok moved) (hs : source.Rises) (ht : target.Rises)
    (hpositive : ∀ b ∈ source.bins, b.lo < b.hi) (htiled : ∀ b ∈ source.bins, b.TiledBy target.bins) :
    moved.sum = values.sum := by
  have hlen := (rebin_eq_ok_iff.1 h).1
  rw [rebin_eq_shares hlen hs ht] at h
  have hgive (p : Bin K × K) (hp : p ∈ source.bins.zip values) :
      p.2 * ((target.bins.map p.1.overlap).sum / p.1.width) = p.2 := by
    have hmem := (List.of_mem_zip hp).1
    have hwidth : p.1.width ≠ 0 := (sub_pos.2 (hpositive p.1 hmem)).ne'
    rw [(htiled p.1 hmem).sum_overlap (hpositive p.1 hmem), div_self hwidth, mul_one]
  rw [← Except.ok.inj h, sum_sharesOf, List.map_congr_left hgive, List.map_snd_zip (Nat.le_of_eq hlen)]

end SpectralResponse
