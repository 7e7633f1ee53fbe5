import SpectralResponse.Proofs.Rebin.Totals
import SpectralResponse.Proofs.Scalar.Rational
import Mathlib.Tactic.Linarith
import Mathlib.Tactic.NormNum

/-!
# Rebinning between ordered grids

When the bins of both grids stand in order, the sweep over them is the plain double sum: each target bin gets
from each source bin the part of the value that is proportional to the common length. What all target bins get
together depends only on the energies that they cover and not on how many of them there are or where they
touch.

The covered part of an interval is measured without the grids' order: each bin cuts its part out, and the bins
after it measure what is left on both sides.

## What is proved

* `coveredLength_eq_sum` — disjoint bins that cover the same energies have common lengths that add up to it.
* `coveredLength_eq_iff` — all of an interval is covered when each of its energies is.
* `rebin_eq_double_sum` — each target bin gets the sum of its parts of the source bins.
* `rebin_total` — the sum of what comes out is what the source bins hold in the part that is covered.
-/

namespace SpectralResponse

variable {K : Type} [Field K] [LinearOrder K] [FloorRing K] [Roots K] [IsStrictOrderedRing K]

/-! ### The covered part of an interval -/

omit [Field K] [FloorRing K] [Roots K] [IsStrictOrderedRing K] in
/-- The energy lies in one of the bins. -/
def Covers (bins : List (Bin K)) (energy : K) : Prop := ∃ b ∈ bins, b.lo ≤ energy ∧ energy < b.hi

omit [FloorRing K] [Roots K] [IsStrictOrderedRing K] in
/-- The length of the part of an interval that lies in some of the bins. Energies that lie in several bins
count once. -/
def coveredLength : List (Bin K) → K → K → K
  | [], _, _ => 0
  | b :: bins, lo, hi =>
    b.cutEnd lo hi - b.cutStart lo hi +
      (coveredLength bins lo (b.cutStart lo hi) + coveredLength bins (b.cutEnd lo hi) hi)

omit [Field K] [FloorRing K] [Roots K] [IsStrictOrderedRing K] in
theorem not_covers_nil (energy : K) : ¬Covers [] energy := by
  rintro ⟨b, hb, -⟩
  exact List.not_mem_nil hb

omit [IsStrictOrderedRing K] in
theorem covers_cons {b : Bin K} {bins : List (Bin K)} {energy : K} :
    Covers (b :: bins) energy ↔ b.contains energy = true ∨ Covers bins energy := by
  simp [Covers, contains_iff]

omit [IsStrictOrderedRing K] in
theorem countP_pos_iff_covers {bins : List (Bin K)} {energy : K} :
    0 < bins.countP (·.contains energy) ↔ Covers bins energy := by
  simp [Covers, List.countP_pos_iff, contains_iff]

variable {lo hi : K} {b : Bin K} {bins pieces : List (Bin K)} {energy : K}

theorem covers_cons_of_lt_cutStart (h : lo ≤ hi) (hlow : lo ≤ energy) (hhigh : energy < b.cutStart lo hi) :
    Covers (b :: bins) energy ↔ Covers bins energy := by
  rw [covers_cons, not_contains_of_lt_cutStart h hlow hhigh, or_iff_right Bool.false_ne_true]

theorem covers_cons_of_cutEnd_le (hlow : b.cutEnd lo hi ≤ energy) (hhigh : energy < hi) :
    Covers (b :: bins) energy ↔ Covers bins energy := by
  rw [covers_cons, not_contains_of_cutEnd_le hlow hhigh, or_iff_right Bool.false_ne_true]

/-- Where each energy lies in at most one of the pieces and the pieces cover what the bins cover, the common
lengths of the pieces add up to the covered length. -/
theorem coveredLength_eq_sum (h : lo ≤ hi) (hone : ∀ energy, pieces.countP (·.contains energy) ≤ 1)
    (hsame : ∀ energy, lo ≤ energy → energy < hi → (Covers pieces energy ↔ Covers bins energy)) :
    coveredLength bins lo hi = (pieces.map (⟨lo, hi⟩ : Bin K).overlap).sum := by
  induction bins generalizing lo hi with
  | nil =>
    have hnone (energy : K) (hlow : lo ≤ energy) (hhigh : energy < hi) :
        pieces.countP (·.contains energy) = 0 := by
      by_contra hpos
      have hpiece := countP_pos_iff_covers.1 (Nat.pos_of_ne_zero hpos)
      exact not_covers_nil energy ((hsame energy hlow hhigh).1 hpiece)
    rw [coveredLength, sum_overlap h hnone, Nat.cast_zero, zero_mul]
  | cons b bins ih =>
    have hfirst : lo ≤ b.cutStart lo hi := le_cutStart b lo hi
    have hmiddle : b.cutStart lo hi ≤ b.cutEnd lo hi := cutStart_le_cutEnd b lo hi
    have hlast : b.cutEnd lo hi ≤ hi := cutEnd_le h b
    -- outside the cuts the bins after the first cover the same energies
    have hleft := ih hfirst fun energy hlow hhigh =>
      (hsame energy hlow (hhigh.trans_le (hmiddle.trans hlast))).trans (covers_cons_of_lt_cutStart h hlow hhigh)
    have hright := ih hlast fun energy hlow hhigh =>
      (hsame energy ((hfirst.trans hmiddle).trans hlow) hhigh).trans (covers_cons_of_cutEnd_le hlow hhigh)
    have hcommon : (pieces.map (⟨b.cutStart lo hi, b.cutEnd lo hi⟩ : Bin K).overlap).sum =
        (1 : Nat) * (b.cutEnd lo hi - b.cutStart lo hi) := by
      apply sum_overlap hmiddle
      intro energy hlow hhigh
      have hin : b.contains energy = true :=
        (contains_iff_cut (hfirst.trans hlow) (hhigh.trans_le hlast) b).2 ⟨hlow, hhigh⟩
      have hpiece := (hsame energy (hfirst.trans hlow) (hhigh.trans_le hlast)).2 (covers_cons.2 (.inl hin))
      exact Nat.le_antisymm (hone energy) (countP_pos_iff_covers.2 hpiece)
    rw [coveredLength, sum_overlap_add hfirst (hmiddle.trans hlast), sum_overlap_add hmiddle hlast, hleft,
      hright, hcommon, Nat.cast_one]
    ring

omit [FloorRing K] [Roots K] in
theorem coveredLength_le (h : lo ≤ hi) (bins : List (Bin K)) : coveredLength bins lo hi ≤ hi - lo := by
  induction bins generalizing lo hi with
  | nil => exact sub_nonneg.2 h
  | cons b bins ih =>
    have hleft := ih (le_cutStart b lo hi)
    have hright := ih (cutEnd_le h b)
    rw [coveredLength]
    linarith

/-- All of an interval is covered when each of its energies lies in some bin. -/
theorem coveredLength_eq_iff (h : lo ≤ hi) :
    coveredLength bins lo hi = hi - lo ↔ ∀ energy, lo ≤ energy → energy < hi → Covers bins energy := by
  induction bins generalizing lo hi with
  | nil =>
    rw [coveredLength, eq_comm, sub_eq_zero]
    constructor
    · intro hempty energy hlow hhigh
      exact absurd (hhigh.trans_le hempty.le) hlow.not_gt
    · intro hcovered
      by_contra hne
      exact not_covers_nil lo (hcovered lo (le_refl lo) (lt_of_le_of_ne h (Ne.symm hne)))
  | cons b bins ih =>
    have hfirst : lo ≤ b.cutStart lo hi := le_cutStart b lo hi
    have hmiddle : b.cutStart lo hi ≤ b.cutEnd lo hi := cutStart_le_cutEnd b lo hi
    have hlast : b.cutEnd lo hi ≤ hi := cutEnd_le h b
    have hsplit : coveredLength (b :: bins) lo hi = hi - lo ↔
        coveredLength bins lo (b.cutStart lo hi) = b.cutStart lo hi - lo ∧
          coveredLength bins (b.cutEnd lo hi) hi = hi - b.cutEnd lo hi := by
      have hleft := coveredLength_le hfirst bins
      have hright := coveredLength_le hlast bins
      rw [coveredLength]
      constructor
      · intro heq
        constructor <;> linarith
      · rintro ⟨hl, hr⟩
        rw [hl, hr]
        ring
    rw [hsplit, ih hfirst, ih hlast]
    constructor
    · rintro ⟨hleft, hright⟩ energy hlow hhigh
      rw [covers_cons]
      rcases lt_or_ge energy (b.cutStart lo hi) with hbefore | hfrom
      · exact .inr (hleft energy hlow hbefore)
      rcases lt_or_ge energy (b.cutEnd lo hi) with hwithin | hbehind
      · exact .inl ((contains_iff_cut hlow hhigh b).2 ⟨hfrom, hwithin⟩)
      · exact .inr (hright energy hbehind hhigh)
    · intro hcovered
      constructor
      · intro energy hlow hhigh
        have hall := hcovered energy hlow (hhigh.trans_le (hmiddle.trans hlast))
        exact (covers_cons_of_lt_cutStart h hlow hhigh).1 hall
      · intro energy hlow hhigh
        have hall := hcovered energy ((hfirst.trans hmiddle).trans hlow) hhigh
        exact (covers_cons_of_cutEnd_le hlow hhigh).1 hall

/-! ### Ordered grids -/

omit [IsStrictOrderedRing K] in
/-- No energy lies in two bins. -/
theorem Grid.Ordered.countP_contains_le {g : Grid K} (h : g.Ordered) (energy : K) :
    g.bins.countP (·.contains energy) ≤ 1 := by
  have hapart := h.pairwise
  generalize g.bins = bins at hapart
  induction bins with
  | nil => exact Nat.zero_le 1
  | cons a bins ih =>
    obtain ⟨hhead, htail⟩ := List.pairwise_cons.1 hapart
    rw [List.countP_cons]
    split
    · rename_i hin
      have hothers : bins.countP (·.contains energy) = 0 := by
        rw [List.countP_eq_zero]
        intro b hb hboth
        have hbefore : energy < a.hi := (contains_iff.1 hin).2
        have hafter : b.lo ≤ energy := (contains_iff.1 hboth).1
        exact (hbefore.trans_le (hhead b hb)).not_ge hafter
      rw [hothers]
    · exact ih htail

/-- The covered length is what any ordered grid that covers the same energies has in common with the
interval. -/
theorem Grid.Ordered.coveredLength_eq {g : Grid K} (hg : g.Ordered) (h : lo ≤ hi)
    (hsame : ∀ energy, Covers g.bins energy ↔ Covers bins energy) :
    coveredLength bins lo hi = (g.bins.map (⟨lo, hi⟩ : Bin K).overlap).sum :=
  coveredLength_eq_sum h hg.countP_contains_le fun energy _ _ => hsame energy

namespace Gapped

/-- Bins of unequal width with gaps. -/
def source : Grid ℚ := ⟨[⟨1, 4⟩, ⟨4, 6⟩, ⟨7, 9⟩, ⟨10, 11⟩]⟩

/-- Bins with gaps inside a source bin and behind the last one. The third starts inside one source bin and
ends inside another. -/
def target : Grid ℚ := ⟨[⟨0, 2⟩, ⟨3, 4⟩, ⟨5, 8⟩, ⟨8, 17 / 2⟩]⟩

/-- Other bins that cover the same energies. -/
def recut : Grid ℚ := ⟨[⟨0, 1⟩, ⟨1, 2⟩, ⟨3, 4⟩, ⟨5, 17 / 2⟩]⟩

/-- Bins that touch and cover all source bins. -/
def whole : Grid ℚ := ⟨[⟨0, 2⟩, ⟨2, 3⟩, ⟨3, 8⟩, ⟨8, 12⟩]⟩

/-- Values for the source bins. -/
def values : List ℚ := [6, -4, 0, 5]

theorem ordered_source : source.Ordered := ⟨by decide +kernel, by decide +kernel⟩

theorem ordered_target : target.Ordered := ⟨by decide +kernel, by decide +kernel⟩

theorem ordered_recut : recut.Ordered := ⟨by decide +kernel, by decide +kernel⟩

theorem ordered_whole : whole.Ordered := ⟨by decide +kernel, by decide +kernel⟩

theorem covers_whole : ∀ a ∈ source.bins, ∀ energy, a.lo ≤ energy → energy < a.hi → Covers whole.bins energy := by
  simp only [source, whole, Covers, List.mem_cons, List.not_mem_nil, or_false, exists_eq_or_imp,
    exists_eq_left]
  grind

theorem covers_recut (energy : ℚ) : Covers recut.bins energy ↔ Covers target.bins energy := by
  simp only [recut, target, Covers, List.mem_cons, List.not_mem_nil, or_false, exists_eq_or_imp,
    exists_eq_left]
  grind

end Gapped

/-! ### The double sum -/

/-- Between ordered grids, with gaps or without, a target bin gets the sum over all source bins of the value
times the common length divided by the width of the source bin. -/
theorem rebin_eq_double_sum {target source : Grid K} {values : List K} (ht : target.Ordered)
    (hs : source.Ordered) (hlen : values.length = source.length) :
    rebin target source values = .ok (target.bins.map fun b =>
      (List.zipWith (fun a value => value * max (min a.hi b.hi - max a.lo b.lo) 0 / (a.hi - a.lo))
        source.bins values).sum) := by
  rw [rebin_eq_shares hlen hs.rises ht.rises]
  congr 1
  refine List.map_congr_left fun b _ => ?_
  rw [sharesOf, List.zip, List.map_zipWith]
  simp only [shareOf_eq, overlap_exact, Bin.width, mul_div_assoc]

theorem double_sum_across_gaps :
    Gapped.target.Ordered ∧ Gapped.source.Ordered ∧ Gapped.values.length = Gapped.source.length ∧
      rebin Gapped.target Gapped.source Gapped.values = .ok [2, 2, -2, 0] :=
  ⟨Gapped.ordered_target, Gapped.ordered_source, rfl,
    (rebin_eq_double_sum Gapped.ordered_target Gapped.ordered_source rfl).trans
      (congrArg Except.ok (by decide +kernel))⟩

/-! ### The total -/

/-- What comes out adds up to what the source bins hold in the covered part of each. -/
theorem sum_rebin_of_covers {target source : Grid K} {values : List K} (ht : target.Ordered)
    (hs : source.Ordered) (hlen : values.length = source.length)
    (hsame : ∀ energy, Covers target.bins energy ↔ Covers bins energy) :
    ∃ moved, rebin target source values = .ok moved ∧
      moved.sum = ((source.bins.zip values).map fun p =>
        p.2 * (coveredLength bins p.1.lo p.1.hi / (p.1.hi - p.1.lo))).sum := by
  refine ⟨_, rebin_eq_shares hlen hs.rises ht.rises, ?_⟩
  rw [sum_sharesOf]
  congr 1
  refine List.map_congr_left fun p hp => ?_
  have hwidth : p.1.lo < p.1.hi := hs.positive p.1 (List.of_mem_zip hp).1
  rw [ht.coveredLength_eq hwidth.le hsame, Bin.width]

/-- The sum of what comes out is the sum over the source bins of the value times the covered fraction of the
bin. It is the sum of all values when the target bins cover all source bins, and it is the same for all
ordered grids that cover the same energies. -/
theorem rebin_total {target source : Grid K} {values : List K} (ht : target.Ordered) (hs : source.Ordered)
    (hlen : values.length = source.length) :
    ∃ moved, rebin target source values = .ok moved ∧
      moved.sum = (List.zipWith (fun a value => value * (coveredLength target.bins a.lo a.hi / (a.hi - a.lo)))
        source.bins values).sum ∧
      ((∀ a ∈ source.bins, ∀ energy, a.lo ≤ energy → energy < a.hi → Covers target.bins energy) →
        moved.sum = values.sum) ∧
      ∀ other : Grid K, other.Ordered → (∀ energy, Covers other.bins energy ↔ Covers target.bins energy) →
        ∃ moved', rebin other source values = .ok moved' ∧ moved'.sum = moved.sum := by
  obtain ⟨moved, hmoved, hsum⟩ := sum_rebin_of_covers ht hs hlen fun energy => Iff.rfl
  refine ⟨moved, hmoved, ?_, ?_, ?_⟩
  · rw [hsum, List.zip, List.map_zipWith]
  · intro hall
    have hkept (p : Bin K × K) (hp : p ∈ source.bins.zip values) :
        p.2 * (coveredLength target.bins p.1.lo p.1.hi / (p.1.hi - p.1.lo)) = p.2 := by
      have hmem := (List.of_mem_zip hp).1
      have hwidth := hs.positive p.1 hmem
      rw [(coveredLength_eq_iff hwidth.le).2 (hall p.1 hmem), div_self (sub_pos.2 hwidth).ne', mul_one]
    rw [hsum, List.map_congr_left hkept, List.map_snd_zip (Nat.le_of_eq hlen)]
  · intro other ho hsame
    obtain ⟨moved', hmoved', hsum'⟩ := sum_rebin_of_covers ho hs hlen hsame
    exact ⟨moved', hmoved', hsum'.trans hsum.symm⟩

theorem total_across_gaps :
    Gapped.target.Ordered ∧ Gapped.source.Ordered ∧ Gapped.values.length = Gapped.source.length ∧
      Gapped.recut.Ordered ∧ Gapped.whole.Ordered ∧
      (∃ moved, rebin Gapped.target Gapped.source Gapped.values = .ok moved ∧
        moved.sum = 6 * (2 / 3) + -4 * (1 / 2) + 0 * (3 / 4) + 5 * 0 ∧
        ∃ moved', rebin Gapped.recut Gapped.source Gapped.values = .ok moved' ∧ moved'.sum = moved.sum) ∧
      ∃ moved, rebin Gapped.whole Gapped.source Gapped.values = .ok moved ∧ moved.sum = 6 + -4 + 0 + 5 := by
  have hlen : Gapped.values.length = Gapped.source.length := rfl
  obtain ⟨moved, hmoved, hsum, -, hother⟩ := rebin_total Gapped.ordered_target Gapped.ordered_source hlen
  obtain ⟨kept, hkept, -, hwhole, -⟩ := rebin_total Gapped.ordered_whole Gapped.ordered_source hlen
  have hfractions : moved.sum = 6 * (2 / 3) + -4 * (1 / 2) + 0 * (3 / 4) + 5 * 0 := by
    rw [hsum]
    decide +kernel
  exact ⟨Gapped.ordered_target, Gapped.ordered_source, hlen, Gapped.ordered_recut, Gapped.ordered_whole,
    ⟨moved, hmoved, hfractions, hother Gapped.recut Gapped.ordered_recut Gapped.covers_recut⟩,
    kept, hkept, (hwhole Gapped.covers_whole).trans (by decide +kernel)⟩

end SpectralResponse
