import SpectralResponse.Proofs.Rebin.Coverage
import Mathlib.Algebra.Order.BigOperators.Group.List

/-!
# Rebinning to weighted means

A weighted rebin moves the weights, the weighted values and the weighted variances in sweeps of their own and
divides what has arrived. In each target bin this is the mean of the values of the source bins that overlap it,
where a source bin counts with the part of its weight that lies in the target bin. The division is left out where
no weight has arrived; since no weight is negative, nothing else has arrived there either.

## What is proved

* `exists_le_mean`, `exists_ge_mean` — a weighted mean lies between two of the values that have a weight.
* `rebinWeighted_eq` — what a weighted rebin gives for each target bin.
* `isMeanOf_quotients` — quotients of what arrives in a target bin are a mean of what overlaps it.
* `weighted_rebin_is_mean` — it is the mean of what overlaps, and all weight that is covered arrives.
-/

namespace SpectralResponse

variable {K : Type} [Field K] [LinearOrder K] [FloorRing K] [Roots K]

/-! ### Quotients by weights -/

theorem perWeight_of_pos {weight : K} (value : K) (h : 0 < weight) : perWeight value weight = value / weight :=
  if_pos h

theorem perWeight_of_not_pos {weight : K} (value : K) (h : ¬ 0 < weight) : perWeight value weight = 0 := if_neg h

/-- Where there is no weight the value does not matter. -/
theorem perWeight_congr {value value' weight : K} (h : 0 < weight → value = value') :
    perWeight value weight = perWeight value' weight := by
  by_cases hpos : 0 < weight
  · rw [h hpos]
  · rw [perWeight_of_not_pos _ hpos, perWeight_of_not_pos _ hpos]

/-- Taking a quotient back leaves nothing where there is no weight. -/
theorem perWeight_mul (value weight : K) : perWeight value weight * weight = if 0 < weight then value else 0 := by
  split
  · rename_i h
    rw [perWeight_of_pos value h, div_mul_cancel₀ value h.ne']
  · rename_i h
    rw [perWeight_of_not_pos value h, zero_mul]

/-- Quotients by the same weight are the same if the values are, or if there is no weight. -/
theorem perWeight_inj {weight : K} (h : 0 ≤ weight) {value value' : K} :
    perWeight value weight = perWeight value' weight ↔ weight = 0 ∨ value = value' := by
  rcases h.eq_or_lt with rfl | hpos
  · simp [perWeight_of_not_pos]
  · rw [perWeight_of_pos value hpos, perWeight_of_pos value' hpos, div_left_inj' hpos.ne', or_iff_right hpos.ne']

/-! ### Means -/

section

variable {K β : Type} [Field K] [LinearOrder K] [IsStrictOrderedRing K] {xs : List β} {share value : β → K}

/-- Where no share is negative, shares that add up to nothing are nothing each, and so is what they are shares of. -/
theorem sum_shares_eq_zero (hshare : ∀ x ∈ xs, 0 ≤ share x) (h : ¬ 0 < (xs.map share).sum) :
    (xs.map fun x => share x * value x).sum = 0 := by
  have hnonneg : ∀ y ∈ xs.map share, 0 ≤ y := List.forall_mem_map.2 hshare
  have hsum : (xs.map share).sum = 0 := le_antisymm (not_lt.1 h) (List.sum_nonneg hnonneg)
  refine List.sum_eq_zero fun y hy => ?_
  obtain ⟨x, hx, rfl⟩ := List.mem_map.1 hy
  rw [List.all_zero_of_le_zero_le_of_sum_eq_zero hnonneg hsum (List.mem_map_of_mem hx), zero_mul]

/-- A weighted mean is at least one of the values that have a share. -/
theorem exists_le_mean (hshare : ∀ x ∈ xs, 0 ≤ share x) (hpos : 0 < (xs.map share).sum) {mean : K}
    (hmean : mean * (xs.map share).sum = (xs.map fun x => share x * value x).sum) :
    ∃ x ∈ xs, 0 < share x ∧ value x ≤ mean := by
  by_contra! hall
  have hle : ∀ x ∈ xs, share x * mean ≤ share x * value x := by
    intro x hx
    rcases (hshare x hx).eq_or_lt with hzero | hlt
    · rw [← hzero, zero_mul, zero_mul]
    · exact mul_le_mul_of_nonneg_left (hall x hx hlt).le hlt.le
  obtain ⟨x, hx, hlt⟩ : ∃ x ∈ xs, 0 < share x := by
    by_contra! hnone
    refine hpos.ne' (List.sum_eq_zero fun y hy => ?_)
    obtain ⟨x, hx, rfl⟩ := List.mem_map.1 hy
    exact le_antisymm (hnone x hx) (hshare x hx)
  have hsum := List.sum_lt_sum _ _ hle ⟨x, hx, mul_lt_mul_of_pos_left (hall x hx hlt) hlt⟩
  rw [List.sum_map_mul_right, mul_comm, hmean] at hsum
  exact lt_irrefl _ hsum

/-- It is at most one of them. -/
theorem exists_ge_mean (hshare : ∀ x ∈ xs, 0 ≤ share x) (hpos : 0 < (xs.map share).sum) {mean : K}
    (hmean : mean * (xs.map share).sum = (xs.map fun x => share x * value x).sum) :
    ∃ x ∈ xs, 0 < share x ∧ mean ≤ value x := by
  have hneg : -mean * (xs.map share).sum = (xs.map fun x => share x * -value x).sum := by
    rw [neg_mul, hmean, List.sum_neg, List.map_map]
    exact congrArg List.sum (List.map_congr_left fun x _ => (mul_neg _ _).symm)
  obtain ⟨x, hx, hlt, hle⟩ := exists_le_mean hshare hpos hneg
  exact ⟨x, hx, hlt, neg_le_neg_iff.1 hle⟩

end

/-! ### What arrives in a target bin -/

/-- A source bin with its value and its weight. -/
structure WeightedBin (K : Type) where
  /-- The bin. -/
  bin : Bin K
  /-- Its value. -/
  value : K
  /-- Its weight. -/
  weight : K

omit [Field K] [LinearOrder K] [FloorRing K] [Roots K] in
/-- The bins of a grid with the values and weights given for them. -/
def weightedBins (source : Grid K) (values weights : List K) : List (WeightedBin K) :=
  List.zipWith (fun bin (value, weight) => ⟨bin, value, weight⟩) source.bins (values.zip weights)

omit [FloorRing K] [Roots K] in
/-- The part of the bin that lies in another one. -/
def Bin.fractionIn (a b : Bin K) : K := max (min a.hi b.hi - max a.lo b.lo) 0 / (a.hi - a.lo)

/-- The sum over the source bins of what is made of value and weight, as far as they lie in the target bin. -/
def gathered (source : Grid K) (values weights : List K) (f : K → K → K) (target : Bin K) : K :=
  ((weightedBins source values weights).map fun b => b.bin.fractionIn target * f b.value b.weight).sum

variable {source target : Grid K} {values weights : List K} {w : Weighted K}

theorem shareOf_eq_fractionIn (source : Bin K) (value : K) (target : Bin K) :
    shareOf source value target = source.fractionIn target * value := by
  rw [shareOf_eq, overlap_exact, Bin.width, Bin.fractionIn, mul_comm]

omit [Field K] [LinearOrder K] [FloorRing K] [Roots K] in
/-- What is made of values and weights stands with its bin. -/
theorem zip_zipWith_weighted (f : K → K → K) (source : Grid K) (values weights : List K) :
    source.bins.zip (List.zipWith f values weights) =
      (weightedBins source values weights).map fun b => (b.bin, f b.value b.weight) := by
  rw [weightedBins, List.map_zipWith, ← List.map_uncurry_zip_eq_zipWith, List.zip, List.zipWith_map_right]
  rfl

omit [Field K] [LinearOrder K] [FloorRing K] [Roots K] in
theorem zipWith_weight (hlen : values.length = weights.length) :
    List.zipWith (fun _ weight => weight) values weights = weights := by
  rw [← List.map_uncurry_zip_eq_zipWith]
  exact List.map_snd_zip (Nat.le_of_eq hlen.symm)

omit [Field K] [LinearOrder K] [FloorRing K] [Roots K] in
theorem weight_mem_of_mem {b : WeightedBin K} (hb : b ∈ weightedBins source values weights) : b.weight ∈ weights := by
  rw [weightedBins, ← List.map_uncurry_zip_eq_zipWith] at hb
  obtain ⟨⟨bin, value, weight⟩, hmem, rfl⟩ := List.mem_map.1 hb
  exact (List.of_mem_zip (List.of_mem_zip hmem).2).2

omit [Field K] [LinearOrder K] [FloorRing K] [Roots K] in
theorem bin_mem_of_mem {b : WeightedBin K} (hb : b ∈ weightedBins source values weights) : b.bin ∈ source.bins := by
  rw [weightedBins, ← List.map_uncurry_zip_eq_zipWith] at hb
  obtain ⟨⟨bin, value, weight⟩, hmem, rfl⟩ := List.mem_map.1 hb
  exact (List.of_mem_zip hmem).1

variable [IsStrictOrderedRing K]

omit [FloorRing K] [Roots K] in
theorem fractionIn_nonneg {a : Bin K} (h : a.lo < a.hi) (b : Bin K) : 0 ≤ a.fractionIn b :=
  div_nonneg (le_max_right _ _) (sub_pos.2 h).le

/-- Each target bin receives what its parts of the source bins hold. -/
theorem rebin_eq_gathered (ht : target.Ordered) (hs : source.Ordered) (hvalues : values.length = source.length)
    (hweights : weights.length = source.length) (f : K → K → K) :
    rebin target source (List.zipWith f values weights) =
      .ok (target.bins.map (gathered source values weights f)) := by
  have hlen : (List.zipWith f values weights).length = source.length := by
    rw [List.length_zipWith, hvalues, hweights, Nat.min_self]
  rw [rebin_eq_shares hlen hs.rises ht.rises]
  refine congrArg Except.ok (List.map_congr_left fun b _ => ?_)
  rw [sharesOf, zip_zipWith_weighted, List.map_map, gathered]
  exact congrArg List.sum (List.map_congr_left fun a _ => shareOf_eq_fractionIn _ _ _)

/-- What a weighted rebin gives for each target bin: the quotients of what arrives. -/
theorem rebinWeighted_eq (ht : target.Ordered) (hs : source.Ordered) (hvalues : w.values.length = source.length)
    (herrors : w.errors.length = source.length) (hweights : w.weights.length = source.length) :
    rebinWeighted target source w = .ok
      { values := target.bins.map fun b =>
          perWeight (gathered source w.values w.weights (· * ·) b)
            (gathered source w.values w.weights (fun _ x => x) b)
        errors := target.bins.map fun b =>
          perWeight (Roots.sqrt (gathered source w.errors w.weights (fun e x => (e * x) * (e * x)) b))
            (gathered source w.values w.weights (fun _ x => x) b)
        weights := target.bins.map (gathered source w.values w.weights fun _ x => x) } := by
  have hnumerators := rebin_eq_gathered ht hs hvalues hweights (· * ·)
  have hvariances := rebin_eq_gathered ht hs herrors hweights fun e x => (e * x) * (e * x)
  have hmoved := rebin_eq_gathered ht hs hvalues hweights fun _ x => x
  rw [zipWith_weight (hvalues.trans hweights.symm)] at hmoved
  rw [rebinWeighted, if_neg (not_not.2 hvalues), if_neg (not_not.2 herrors), if_neg (not_not.2 hweights), hnumerators,
    hvariances, hmoved]
  simp only [bind, Except.bind, pure, Except.pure, List.zipWith_map, List.zipWith_self]
  rfl

/-! ### The mean in a target bin -/

/-- What stands in a target bin is the mean of the values of the source bins that overlap it, each with the part of
its weight that lies in the target bin. -/
structure IsMeanOf (source : Grid K) (values weights : List K) (target : Bin K) (value error weight : K) : Prop where
  /-- The weight is what the overlapping parts have. -/
  collected : weight = gathered source values weights (fun _ x => x) target
  /-- The value times the weight is what the parts of the source bins add up to. -/
  total : value * weight = gathered source values weights (· * ·) target
  /-- An overlapping bin with a weight has no larger value. -/
  least : 0 < weight → ∃ b ∈ weightedBins source values weights,
    b.bin.Overlaps target ∧ 0 < b.weight ∧ b.value ≤ value
  /-- An overlapping bin with a weight has no smaller value. -/
  greatest : 0 < weight → ∃ b ∈ weightedBins source values weights,
    b.bin.Overlaps target ∧ 0 < b.weight ∧ value ≤ b.value
  /-- Where there is no weight there is nothing. -/
  empty : ¬ 0 < weight → value = 0 ∧ error = 0

section

variable (values) (hs : source.Ordered) (hnonneg : ∀ x ∈ weights, 0 ≤ x)
include hs hnonneg

omit [FloorRing K] [Roots K] in
/-- No source bin has a negative share in the weight. -/
theorem share_nonneg (b : Bin K) :
    ∀ a ∈ weightedBins source values weights, 0 ≤ a.bin.fractionIn b * a.weight := fun a ha =>
  mul_nonneg (fractionIn_nonneg (hs.positive a.bin (bin_mem_of_mem ha)) b) (hnonneg a.weight (weight_mem_of_mem ha))

/-- A share comes from a bin that overlaps and has a weight. -/
theorem overlaps_of_share_pos {values} {a : WeightedBin K} (ha : a ∈ weightedBins source values weights) {b : Bin K}
    (h : 0 < a.bin.fractionIn b * a.weight) : a.bin.Overlaps b ∧ 0 < a.weight := by
  have hwidth : a.bin.lo < a.bin.hi := hs.positive a.bin (bin_mem_of_mem ha)
  have hfraction : 0 < a.bin.fractionIn b := pos_of_mul_pos_left h (hnonneg a.weight (weight_mem_of_mem ha))
  refine ⟨overlap_pos_iff.1 ?_, pos_of_mul_pos_right h hfraction.le⟩
  rw [overlap_exact]
  exact (div_pos_iff_of_pos_right (sub_pos.2 hwidth)).1 hfraction

omit [FloorRing K] [Roots K] [IsStrictOrderedRing K] hs hnonneg in
/-- A part of a weighted value is the share in the weight times the value. -/
theorem gathered_mul (source : Grid K) (values weights : List K) (b : Bin K) :
    gathered source values weights (· * ·) b =
      ((weightedBins source values weights).map fun a => a.bin.fractionIn b * a.weight * a.value).sum :=
  congrArg List.sum (List.map_congr_left fun a _ => by ring)

/-- Where no weight arrives no weighted value does, so nothing is lost when the quotient is left out. -/
theorem quotient_mul_weight (b : Bin K) :
    perWeight (gathered source values weights (· * ·) b) (gathered source values weights (fun _ x => x) b) *
      gathered source values weights (fun _ x => x) b = gathered source values weights (· * ·) b := by
  rw [perWeight_mul]
  split
  · rfl
  · rename_i hnone
    rw [gathered_mul, sum_shares_eq_zero (share_nonneg values hs hnonneg b) hnone]

/-- The quotients of what arrives are a mean. -/
theorem isMeanOf_quotients (b : Bin K) (error : K) :
    IsMeanOf source values weights b
      (perWeight (gathered source values weights (· * ·) b) (gathered source values weights (fun _ x => x) b))
      (perWeight error (gathered source values weights (fun _ x => x) b))
      (gathered source values weights (fun _ x => x) b) := by
  have hshare := share_nonneg values hs hnonneg b
  have htotal := quotient_mul_weight values hs hnonneg b
  have hmean := htotal.trans (gathered_mul source values weights b)
  refine ⟨rfl, htotal, fun hpos => ?_, fun hpos => ?_, fun hnone => ?_⟩
  · obtain ⟨a, ha, hlt, hle⟩ := exists_le_mean hshare hpos hmean
    obtain ⟨hoverlaps, hweight⟩ := overlaps_of_share_pos hs hnonneg ha hlt
    exact ⟨a, ha, hoverlaps, hweight, hle⟩
  · obtain ⟨a, ha, hlt, hle⟩ := exists_ge_mean hshare hpos hmean
    obtain ⟨hoverlaps, hweight⟩ := overlaps_of_share_pos hs hnonneg ha hlt
    exact ⟨a, ha, hoverlaps, hweight, hle⟩
  · exact ⟨perWeight_of_not_pos _ hnone, perWeight_of_not_pos _ hnone⟩

end

/-- Between ordered grids, with gaps or without, a weighted rebin gives each target bin the mean of what overlaps
it, and the weights of the target bins add up to what the source bins have in the part that is covered. -/
theorem weighted_rebin_is_mean (ht : target.Ordered) (hs : source.Ordered) (hvalues : w.values.length = source.length)
    (herrors : w.errors.length = source.length) (hweights : w.weights.length = source.length)
    (hnonneg : ∀ x ∈ w.weights, 0 ≤ x) :
    ∃ moved, rebinWeighted target source w = .ok moved ∧
      (moved.values.length = target.length ∧ moved.errors.length = target.length ∧
        moved.weights.length = target.length) ∧
      (∀ (j : Nat) (b : Bin K) (value error weight : K), target.bins[j]? = some b → moved.values[j]? = some value →
        moved.errors[j]? = some error → moved.weights[j]? = some weight →
        IsMeanOf source w.values w.weights b value error weight) ∧
      moved.weights.sum =
        (List.zipWith (fun a weight => weight * (coveredLength target.bins a.lo a.hi / (a.hi - a.lo)))
          source.bins w.weights).sum := by
  refine ⟨_, rebinWeighted_eq ht hs hvalues herrors hweights, ?_, ?_, ?_⟩
  · simp only [List.length_map]
    exact ⟨rfl, rfl, rfl⟩
  · intro j b value error weight hb hvalue herror hweight
    simp only [List.getElem?_map, hb, Option.map_some, Option.some.injEq] at hvalue herror hweight
    subst hvalue herror hweight
    exact isMeanOf_quotients w.values hs hnonneg b _
  · obtain ⟨moved, hmoved, hsum⟩ := sum_rebin_of_covers ht hs hweights fun energy => Iff.rfl
    have hgathered := rebin_eq_gathered ht hs hvalues hweights fun _ x => x
    rw [zipWith_weight (hvalues.trans hweights.symm), hmoved] at hgathered
    rw [← Except.ok.inj hgathered, hsum, List.zip, List.map_zipWith]

namespace Gapped

/-- Values of both signs for the source bins; the first bin has no weight. -/
def weighted : Weighted ℚ := ⟨[6, -4, 8, 5], [1, 1, 2, 2], [0, 2, 4, 1]⟩

end Gapped

theorem weighted_rebin_across_gaps :
    Gapped.whole.Ordered ∧ Gapped.source.Ordered ∧ (∀ x ∈ Gapped.weighted.weights, 0 ≤ x) ∧
      rebinWeighted Gapped.whole Gapped.source Gapped.weighted =
        .ok ⟨[0, 0, 2, 7], [0, 0, 3 / 2, 2], [0, 0, 4, 3]⟩ ∧
      IsMeanOf Gapped.source Gapped.weighted.values Gapped.weighted.weights ⟨3, 8⟩ 2 (3 / 2) 4 ∧
      IsMeanOf Gapped.source Gapped.weighted.values Gapped.weighted.weights ⟨2, 3⟩ 0 0 0 := by
  have hnonneg : ∀ x ∈ Gapped.weighted.weights, 0 ≤ x := by decide +kernel
  have hrun : rebinWeighted Gapped.whole Gapped.source Gapped.weighted =
      .ok ⟨[0, 0, 2, 7], [0, 0, 3 / 2, 2], [0, 0, 4, 3]⟩ :=
    Except.toOption_eq_some.1 (by decide +kernel)
  obtain ⟨moved, hmoved, -, hmean, -⟩ :=
    weighted_rebin_is_mean Gapped.ordered_whole Gapped.ordered_source rfl rfl rfl hnonneg
  obtain rfl := Except.ok.inj (hmoved.symm.trans hrun)
  exact ⟨Gapped.ordered_whole, Gapped.ordered_source, hnonneg, hrun, hmean 2 _ _ _ _ rfl rfl rfl rfl,
    hmean 1 _ _ _ _ rfl rfl rfl rfl⟩

end SpectralResponse
