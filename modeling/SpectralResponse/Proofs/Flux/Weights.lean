import SpectralResponse.Flux
import SpectralResponse.Proofs.Grouping.Means
import SpectralResponse.Proofs.Rebin.WeightedMeans
import SpectralResponse.Proofs.Scalar.Rational
import SpectralResponse.Proofs.Spectrum.Tidy
import Mathlib.Analysis.Real.Sqrt

/-!
# Flux from weights for observed and for working bins

Weights for the observed bins are divided out bin by bin and the fluxes then averaged over each group;
weights for the working bins are divided out of the sums. Both ways know the same weight of a group, but
an observed bin with weight zero loses its counts on the first way and keeps them on the second one. And
where counts and background are negative in sum, the first way leaves out the bin from the error, the
second one sets it off against the others.

## What is proved

* `ofObservedWeights_eq`, `ofWorkingWeights_eq` — what each way gives for each group.
* `observed_and_working_weights_agree_iff` — exactly when a group gets the same flux, and when the same error.
-/

namespace SpectralResponse

variable {K : Type} [Field K] [LinearOrder K] [FloorRing K] [Roots K]

/-- Numbers that are not negative have square roots. -/
class LawfulRoots (K : Type) [Field K] [LinearOrder K] [Roots K] : Prop where
  /-- The square of the root is the number. -/
  sqrt_mul_self : ∀ x : K, 0 ≤ x → Roots.sqrt x * Roots.sqrt x = x

/-- Real numbers have square roots; their text is of no matter. -/
noncomputable instance : Roots ℝ where
  sqrt := Real.sqrt
  text _ := "a real number"

instance : LawfulRoots ℝ := ⟨fun _ => Real.mul_self_sqrt⟩

omit [FloorRing K] in
theorem sqrt_inj [LawfulRoots K] {x y : K} (hx : 0 ≤ x) (hy : 0 ≤ y) :
    (Roots.sqrt x : K) = Roots.sqrt y ↔ x = y := by
  constructor
  · intro h
    rw [← LawfulRoots.sqrt_mul_self x hx, h, LawfulRoots.sqrt_mul_self y hy]
  · intro h
    rw [h]

/-! ### Both ways, group by group -/

namespace Spectrum

variable {s : Spectrum K} {weights : List K}

/-- The counts of an observed bin less its background. -/
def netAt (s : Spectrum K) (i : Nat) : K := valueAt s.observed.counts i - valueAt s.scaledBackgroundObserved i

/-- The counts of an observed bin and its background. -/
def grossAt (s : Spectrum K) (i : Nat) : K := valueAt s.observed.counts i + valueAt s.scaledBackgroundObserved i

/-- The flux of a spectrum with the given counts and variances of the groups. -/
def fluxOver (s : Spectrum K) (weights : List K) (net variance : List Nat → K) : FluxSpectrum K where
  grid := s.working.grid
  flux := s.grouping.groups.map fun group => perWeight (net group) (group.map (valueAt weights)).sum
  fluxError := s.grouping.groups.map fun group =>
    perWeight (Roots.sqrt (variance group)) (group.map (valueAt weights)).sum
  weights := s.grouping.groups.map fun group => (group.map (valueAt weights)).sum

/-- The members of a group that have a weight. -/
def responding (weights : List K) (group : List Nat) : List Nat := group.filter fun i => 0 < valueAt weights i

omit [FloorRing K] [Roots K] in
theorem sum_responding (f : Nat → K) (group : List Nat) :
    (group.map fun i => if 0 < valueAt weights i then f i else 0).sum = ((responding weights group).map f).sum := by
  induction group with
  | nil => rfl
  | cons i group ih =>
    rw [responding, List.filter_cons, List.map_cons, List.sum_cons, ih]
    by_cases h : 0 < valueAt weights i
    · simp [h, responding]
    · simp [h, responding]

/-- A member on its own has a quotient only if it has a weight. -/
theorem perWeight_singleton (g : K → K) (f : Nat → K) (i : Nat) :
    perWeight (g ((responding weights [i]).map f).sum) ([i].map (valueAt weights)).sum =
      perWeight (g (f i)) (valueAt weights i) := by
  rw [← sum_responding]
  simp only [List.map_singleton, List.sum_singleton]
  exact perWeight_congr fun hpos => by rw [if_pos hpos]

/-- The members of a group that have no weight. -/
def silent (weights : List K) (group : List Nat) : List Nat := group.filter fun i => valueAt weights i = 0

omit [FloorRing K] [Roots K] in
theorem valueAt_nonneg (hpos : ∀ x ∈ weights, 0 ≤ x) (i : Nat) : 0 ≤ valueAt weights i := by
  rw [valueAt]
  cases h : weights[i]? with
  | none => exact le_refl _
  | some x => exact hpos x (List.mem_of_getElem? h)

omit [FloorRing K] [Roots K] in
/-- Where no weight is negative, the members of a group have a weight or have none. -/
theorem sum_responding_add_silent (hpos : ∀ x ∈ weights, 0 ≤ x) (f : Nat → K) (group : List Nat) :
    ((responding weights group).map f).sum + ((silent weights group).map f).sum = (group.map f).sum := by
  induction group with
  | nil => simp [responding, silent]
  | cons i group ih =>
    rw [responding, silent, List.filter_cons, List.filter_cons, List.map_cons, List.sum_cons, ← ih]
    rcases (valueAt_nonneg hpos i).eq_or_lt with hzero | hlt
    · simp [← hzero, responding, silent, add_left_comm]
    · simp [hlt, hlt.ne', responding, silent, add_assoc]

/-- The sums of a grouping are those of its members. -/
theorem Tidy.sums_eq (hs : s.Tidy) {values : List K} (h : values.length = s.observedCount) :
    s.grouping.sums values = s.grouping.groups.map fun group => (group.map (valueAt values)).sum := by
  conv_lhs => rw [eq_map_valueAt (h.trans hs.fineLength.symm), hs.whole.proper.sums_map_range]

theorem Tidy.sum_eq (hs : s.Tidy) {values : List K} (h : values.length = s.observedCount) :
    (s.grouping.sum values : Except (Fault K) _) =
      .ok (s.grouping.groups.map fun group => (group.map (valueAt values)).sum) := by
  rw [Grouping.sum_eq_sums (h.trans hs.fineLength.symm), hs.sums_eq h]

end Spectrum

namespace FluxSpectrum

open Spectrum

variable {s : Spectrum K} {weights : List K}

theorem quotients_map {β : Type} (xs : List β) (count ground weight : β → K) :
    quotients (xs.map count) (xs.map ground) (xs.map weight) =
      xs.map fun x => perWeight (count x - ground x) (weight x) := by
  rw [quotients, List.zip_map', List.zipWith_map, List.zipWith_self]

theorem quotientErrors_map {β : Type} (xs : List β) (count ground weight : β → K) :
    quotientErrors (xs.map count) (xs.map ground) (xs.map weight) =
      xs.map fun x => perWeight (Roots.sqrt (max (count x + ground x) 0)) (weight x) := by
  rw [quotientErrors, List.zip_map', List.zipWith_map, List.zipWith_self]
  simp only [Scalar.greater_exact]
  rfl

/-- The weight of an observed bin, zero if the bin belongs to no group. -/
def usableAt (s : Spectrum K) (weights : List K) (i : Nat) : K :=
  if s.grouping.includes i then valueAt weights i else 0

theorem usableWeights_eq {count : Nat} (h : weights.length = count) :
    usableWeights s.grouping weights = (List.range count).map (usableAt s weights) := by
  subst h
  refine List.ext_getElem (by simp [usableWeights]) fun i hi _ => ?_
  have hi : i < weights.length := by simpa [usableWeights] using hi
  simp [usableWeights, usableAt, valueAt, hi]

/-- The members of the groups keep their weights. -/
theorem usableAt_of_mem (hs : s.Tidy) {group : List Nat} (hgroup : group ∈ s.grouping.groups) :
    ∀ i ∈ group, usableAt s weights i = valueAt weights i :=
  fun _ hi => if_pos (hs.whole.includes_of_mem hgroup hi)

/-- The weights for the observed bins, divided out bin by bin. -/
theorem quotients_observed (hs : s.Tidy) (hlen : weights.length = s.observedCount) :
    quotients s.observed.counts s.scaledBackgroundObserved (usableWeights s.grouping weights) =
        (List.range s.grouping.fineLength).map (fun i => perWeight (s.netAt i) (usableAt s weights i)) ∧
      quotientErrors s.observed.counts s.scaledBackgroundObserved (usableWeights s.grouping weights) =
        (List.range s.grouping.fineLength).map
          (fun i => perWeight (Roots.sqrt (max (s.grossAt i) 0)) (usableAt s weights i)) := by
  have hflux := quotients_map (List.range s.grouping.fineLength) (valueAt s.observed.counts)
    (valueAt s.scaledBackgroundObserved) (usableAt s weights)
  have herror := quotientErrors_map (List.range s.grouping.fineLength) (valueAt s.observed.counts)
    (valueAt s.scaledBackgroundObserved) (usableAt s weights)
  rw [← eq_map_valueAt (hs.length_counts.trans hs.fineLength.symm),
    ← eq_map_valueAt (hs.length_scaledBackgroundObserved.trans hs.fineLength.symm),
    ← usableWeights_eq (hlen.trans hs.fineLength.symm)] at hflux herror
  exact ⟨hflux, herror⟩

/-- Where each group is one bin, the quotients are the fluxes. -/
theorem ofObservedWeights_of_isIdentity (hs : s.Tidy) (hlen : weights.length = s.observedCount)
    (hidentity : s.grouping.isIdentity = true) :
    (ofObservedWeights s weights : Except (Fault K) _) =
      .ok (s.fluxOver weights (fun group => ((responding weights group).map s.netAt).sum)
        fun group => ((responding weights group).map fun i => max (s.grossAt i) 0).sum) := by
  obtain ⟨hflux, herror⟩ := quotients_observed hs hlen
  have husable := usableWeights_eq (s := s) (hlen.trans hs.fineLength.symm)
  have hsingle : s.grouping.length = s.grouping.fineLength := eq_of_beq hidentity
  have hgroups := hs.whole.proper.groups_eq_of_length hsingle
  have hone : ∀ i ∈ List.range s.grouping.fineLength, usableAt s weights i = valueAt weights i := fun i hi =>
    usableAt_of_mem hs (by rw [hgroups]; exact List.mem_map_of_mem hi) i (List.mem_singleton_self i)
  rw [ofObservedWeights]
  simp only [hflux, herror]
  rw [if_pos hidentity, husable, fluxOver, hgroups, List.map_map, List.map_map, List.map_map,
    hs.whole.proper.grid_eq_self hsingle hs.working_eq.1]
  refine congrArg Except.ok (FluxSpectrum.mk.injEq .. ▸ ⟨rfl, ?_, ?_, ?_⟩)
  · refine List.map_congr_left fun i hi => ?_
    rw [hone i hi]
    exact (perWeight_singleton id s.netAt i).symm
  · refine List.map_congr_left fun i hi => ?_
    rw [hone i hi]
    exact (perWeight_singleton Roots.sqrt (fun i => max (s.grossAt i) 0) i).symm
  · refine List.map_congr_left fun i hi => ?_
    rw [hone i hi, Function.comp_apply, List.map_singleton, List.sum_singleton]

/-- From weights for the working bins a group gets the counts of all of its members. -/
theorem ofWorkingWeights_eq (hs : s.Tidy) :
    (ofWorkingWeights s (s.grouping.groups.map fun group => (group.map (valueAt weights)).sum) :
        Except (Fault K) _) =
      .ok (s.fluxOver weights (fun group => (group.map s.netAt).sum)
        fun group => max (group.map s.grossAt).sum 0) := by
  have hcounts := Except.ok.inj (hs.working_eq.2.1.symm.trans (hs.sum_eq hs.length_counts))
  have hground : s.scaledBackground = .ok _ := hs.sum_eq hs.length_scaledBackgroundObserved
  rw [ofWorkingWeights, hground, hcounts]
  refine congrArg Except.ok (FluxSpectrum.mk.injEq .. ▸ ⟨rfl, ?_, ?_, rfl⟩)
  · rw [quotients_map]
    refine List.map_congr_left fun group _ => ?_
    have hnet : (group.map s.netAt).sum + (group.map (valueAt s.scaledBackgroundObserved)).sum =
        (group.map (valueAt s.observed.counts)).sum := by
      rw [← List.sum_map_add]
      exact congrArg List.sum (List.map_congr_left fun i _ => sub_add_cancel _ _)
    rw [← hnet, add_sub_cancel_right]
  · rw [quotientErrors_map]
    refine List.map_congr_left fun group _ => ?_
    rw [← List.sum_map_add]
    rfl

/-- The weights summed over the groups are taken for weights of the working bins, or, where each group is one
bin, for weights of the observed bins, which is the same then. -/
theorem ofSpectrum_sums (hs : s.Tidy) (hlen : weights.length = s.observedCount) :
    (ofSpectrum s (s.grouping.groups.map fun group => (group.map (valueAt weights)).sum) : Except (Fault K) _) =
      .ok (s.fluxOver weights (fun group => (group.map s.netAt).sum)
        fun group => max (group.map s.grossAt).sum 0) := by
  by_cases hsame : s.grouping.length = s.observedCount
  · have hsingle : s.grouping.length = s.grouping.fineLength := hsame.trans hs.fineLength.symm
    have hself := hs.whole.proper.sums_eq_self hsingle (hlen.trans hs.fineLength.symm)
    rw [← hs.sums_eq hlen, hself, ofSpectrum, if_pos hlen,
      ofObservedWeights_of_isIdentity hs hlen (beq_iff_eq.2 hsingle)]
    have hone : ∀ group ∈ s.grouping.groups, ∃ i, group = [i] := fun group hgroup => by
      rw [hs.whole.proper.groups_eq_of_length hsingle] at hgroup
      obtain ⟨i, -, rfl⟩ := List.mem_map.1 hgroup
      exact ⟨i, rfl⟩
    refine congrArg Except.ok (FluxSpectrum.mk.injEq .. ▸ ⟨rfl, ?_, ?_, rfl⟩)
    · refine List.map_congr_left fun group hgroup => ?_
      obtain ⟨i, rfl⟩ := hone group hgroup
      exact (perWeight_singleton id s.netAt i).trans (by simp)
    · refine List.map_congr_left fun group hgroup => ?_
      obtain ⟨i, rfl⟩ := hone group hgroup
      exact (perWeight_singleton Roots.sqrt (fun i => max (s.grossAt i) 0) i).trans (by simp)
  · have hcount : s.workingCount = s.grouping.length := hs.whole.proper.length_grid hs.working_eq.1
    have hlen' : (s.grouping.groups.map fun group => (group.map (valueAt weights)).sum).length =
        s.grouping.length := by rw [List.length_map, Grouping.length]
    rw [ofSpectrum, hlen', if_neg hsame, if_pos hcount.symm]
    exact ofWorkingWeights_eq hs

variable [IsStrictOrderedRing K]

/-- Where some group is not one bin, the quotients are averaged over the groups. -/
theorem ofObservedWeights_of_not_isIdentity (hs : s.Tidy) (ho : s.observed.grid.Ordered)
    (hlen : weights.length = s.observedCount) (hidentity : ¬ s.grouping.isIdentity = true) :
    (ofObservedWeights s weights : Except (Fault K) _) =
      .ok (s.fluxOver weights (fun group => ((responding weights group).map s.netAt).sum)
        fun group => ((responding weights group).map fun i =>
          Roots.sqrt (max (s.grossAt i) 0) * Roots.sqrt (max (s.grossAt i) 0)).sum) := by
  obtain ⟨hflux, herror⟩ := quotients_observed hs hlen
  have husable := usableWeights_eq (s := s) (hlen.trans hs.fineLength.symm)
  rw [ofObservedWeights]
  simp only [hflux, herror]
  rw [if_neg hidentity, husable, Grouping.rebinWeighted_grid ho hs.whole.proper hs.working_eq.1]
  refine congrArg Except.ok (FluxSpectrum.mk.injEq .. ▸ ⟨rfl, ?_, ?_, ?_⟩)
  · refine List.map_congr_left fun group hgroup => ?_
    dsimp only
    rw [List.map_congr_left (usableAt_of_mem hs hgroup), ← sum_responding]
    congr 2
    refine List.map_congr_left fun i hi => ?_
    rw [usableAt_of_mem hs hgroup i hi, perWeight_mul]
  · refine List.map_congr_left fun group hgroup => ?_
    dsimp only
    rw [List.map_congr_left (usableAt_of_mem hs hgroup), ← sum_responding]
    congr 3
    refine List.map_congr_left fun i hi => ?_
    rw [usableAt_of_mem hs hgroup i hi, perWeight_mul]
    split
    · rfl
    · exact mul_zero 0
  · exact List.map_congr_left fun group hgroup =>
      congrArg List.sum (List.map_congr_left (usableAt_of_mem hs hgroup))

/-- From weights for the observed bins a group gets the counts of those of its members that have a weight. -/
theorem exists_ofObservedWeights (hs : s.Tidy) (ho : s.observed.grid.Ordered)
    (hlen : weights.length = s.observedCount) : ∃ variance, (ofObservedWeights s weights : Except (Fault K) _) =
      .ok (s.fluxOver weights (fun group => ((responding weights group).map s.netAt).sum) variance) := by
  by_cases hidentity : s.grouping.isIdentity = true
  · exact ⟨_, ofObservedWeights_of_isIdentity hs hlen hidentity⟩
  · exact ⟨_, ofObservedWeights_of_not_isIdentity hs ho hlen hidentity⟩

/-- Where numbers have roots, the error comes from the counts and backgrounds of those members, or from zero where
these are negative. -/
theorem ofObservedWeights_eq [LawfulRoots K] (hs : s.Tidy) (ho : s.observed.grid.Ordered)
    (hlen : weights.length = s.observedCount) :
    (ofObservedWeights s weights : Except (Fault K) _) =
      .ok (s.fluxOver weights (fun group => ((responding weights group).map s.netAt).sum)
        fun group => ((responding weights group).map fun i => max (s.grossAt i) 0).sum) := by
  by_cases hidentity : s.grouping.isIdentity = true
  · exact ofObservedWeights_of_isIdentity hs hlen hidentity
  · have hroot (i : Nat) : (Roots.sqrt (max (s.grossAt i) 0) * Roots.sqrt (max (s.grossAt i) 0) : K) =
        max (s.grossAt i) 0 := LawfulRoots.sqrt_mul_self _ (le_max_right _ _)
    rw [ofObservedWeights_of_not_isIdentity hs ho hlen hidentity]
    simp only [hroot]

/-- Weights for the observed bins and the same weights summed over the groups always give the same weights and
bins. They give a group the same flux exactly if its members without weight have no net counts in all. They
give it the same error exactly if the members with weight, each with its counts and background or with zero
where these are negative, have as much in all as the whole group, or zero where that is negative. From summed
weights the flux times the weight is the net count. -/
theorem observed_and_working_weights_agree_iff [LawfulRoots K] (hs : s.Tidy) (ho : s.observed.grid.Ordered)
    (hlen : weights.length = s.observedCount) (hpos : ∀ x ∈ weights, 0 ≤ x) :
    ∃ sums a b, s.grouping.sum weights = (.ok sums : Except (Fault K) _) ∧ ofSpectrum s weights = .ok a ∧
      ofSpectrum s sums = .ok b ∧ a.grid = b.grid ∧ a.weights = sums ∧ b.weights = sums ∧
        ∀ (j : Nat) (group : List Nat), s.grouping.groups[j]? = some group →
          ∃ weight flux flux' error error', sums[j]? = some weight ∧ a.flux[j]? = some flux ∧
            b.flux[j]? = some flux' ∧ a.fluxError[j]? = some error ∧ b.fluxError[j]? = some error' ∧
              (flux = flux' ↔ weight = 0 ∨ ((silent weights group).map s.netAt).sum = 0) ∧
              (error = error' ↔ weight = 0 ∨
                ((responding weights group).map fun i => max (s.grossAt i) 0).sum =
                  max (group.map s.grossAt).sum 0) ∧
              (0 < weight → flux' * weight = (group.map s.netAt).sum) := by
  have hfirst : (ofSpectrum s weights : Except (Fault K) _) = ofObservedWeights s weights := if_pos hlen
  refine ⟨_, _, _, hs.sum_eq hlen, hfirst.trans (ofObservedWeights_eq hs ho hlen), ofSpectrum_sums hs hlen,
    rfl, rfl, rfl, fun j group hgroup => ?_⟩
  have hweight : 0 ≤ (group.map (valueAt weights)).sum := by
    refine List.sum_nonneg fun x hx => ?_
    obtain ⟨i, -, rfl⟩ := List.mem_map.1 hx
    exact valueAt_nonneg hpos i
  have hat (f : List Nat → K) : (s.grouping.groups.map f)[j]? = some (f group) := by
    rw [List.getElem?_map, hgroup, Option.map_some]
  refine ⟨_, _, _, _, _, hat _, hat _, hat _, hat _, hat _, ?_, ?_, fun h => ?_⟩
  · rw [perWeight_inj hweight]
    dsimp only
    rw [← sum_responding_add_silent hpos s.netAt group, left_eq_add]
  · rw [perWeight_inj hweight, sqrt_inj ?_ (le_max_right _ _)]
    refine List.sum_nonneg fun x hx => ?_
    obtain ⟨i, -, rfl⟩ := List.mem_map.1 hx
    exact le_max_right _ _
  · rw [perWeight_mul, if_pos h]

/-! ### Two bins in one group -/

/-- A spectrum with two observed bins that make one working bin. -/
def twoBins (first second : K) : Spectrum K where
  observed := ⟨⟨[⟨1, 2⟩, ⟨2, 3⟩]⟩, [first, second], [1, 1], [true, true], 1, 1, {}⟩
  sysFractions := [0, 0]
  notice := [true, true]
  policy := .quadrature
  errorFloor := 1
  grouping := ⟨[1, 1], [[0, 1]]⟩
  working := ⟨⟨[⟨1, 3⟩]⟩, [first + second], [Scalar.sqrt (1 + 1)], [0], [true]⟩
  background := none
  kernel := .standard

theorem ordered_twoBins (first second : K) : (twoBins first second).observed.grid.Ordered := by
  constructor
  · simp [twoBins]
    norm_num
  · simp [twoBins]

theorem tidy_twoBins (first second : K) : (twoBins first second).Tidy := by
  have hmask : (Grouping.ofMask [1, 1] : Except (Fault K) _) = .ok (twoBins first second).grouping := rfl
  have hcheck : Grid.checkFrom 0 none [(⟨1, 3⟩ : Bin K)] = .ok () := by
    norm_num [Grid.checkFrom, Grid.checkBin, Scalar.isFinite]
  have hgrid : (twoBins first second).grouping.grid (twoBins first second).observed.grid =
      .ok (twoBins first second).working.grid := by
    have hbins : Grid.ofBins [(⟨1, 3⟩ : Bin K)] = .ok ⟨[⟨1, 3⟩]⟩ := by
      rw [Grid.ofBins, hcheck]
      rfl
    exact Except.mapError_eq_ok.2 hbins
  refine ⟨Grouping.whole_ofMask hmask, ?_, fun b hb => by cases hb⟩
  rw [Spectrum.derive?, hgrid]
  simp [twoBins, Grouping.sum, Grouping.sumQuadrature, Grouping.any, Grouping.requireValues, Grouping.fineLength,
    Grouping.pick, requireLength, bind, Except.bind, pure, Except.pure, Spectrum.derivedStatErrors,
    Spectrum.derivedSysErrors, Scalar.sum_exact, Scalar.abs_exact]

/-- When all members have a weight, sixteen counts over a weight of four are a flux of four on both ways. -/
theorem responding_bins_keep_their_counts :
    ∃ a b : FluxSpectrum ℝ, ofSpectrum (twoBins 10 6) [3, 1] = .ok a ∧ ofSpectrum (twoBins 10 6) [4] = .ok b ∧
      a.flux[0]? = b.flux[0]? ∧ a.fluxError[0]? = b.fluxError[0]? ∧
        ∃ flux, b.flux[0]? = some flux ∧ flux * 4 = 16 := by
  have hweights : ∀ x ∈ [(3 : ℝ), 1], 0 ≤ x := by norm_num
  obtain ⟨sums, a, b, hsums, ha, hb, -, -, -, hgroups⟩ :=
    observed_and_working_weights_agree_iff (tidy_twoBins 10 6) (ordered_twoBins 10 6) rfl hweights
  obtain ⟨weight, flux, flux', error, error', hweight, hflux, hflux', herror, herror', hiff, hiff', hnet⟩ :=
    hgroups 0 [0, 1] rfl
  have hfour : ((twoBins (10 : ℝ) 6).grouping.sum [3, 1] : Except (Fault ℝ) _) = .ok [4] := by
    rw [(tidy_twoBins (10 : ℝ) 6).sum_eq rfl]
    norm_num [twoBins, valueAt]
  cases Except.ok.inj (hsums.symm.trans hfour)
  obtain rfl : (4 : ℝ) = weight := Option.some.inj hweight
  have hnets : ([0, 1].map (twoBins (10 : ℝ) 6).netAt).sum = 16 := by
    norm_num [netAt, twoBins, valueAt, Spectrum.scaledBackgroundObserved, Spectrum.observedCount]
  refine ⟨a, b, ha, hb, ?_, ?_, flux', hflux', ?_⟩
  · rw [hflux, hflux', hiff.2 (.inr ?_)]
    norm_num [silent, valueAt]
  · rw [herror, herror', hiff'.2 (.inr ?_)]
    norm_num [responding, valueAt, grossAt, twoBins, Spectrum.scaledBackgroundObserved, Spectrum.observedCount]
  · rw [hnet (by norm_num), hnets]

/-- A bin without weight loses its ten counts on one way only, and a bin with negative counts lessens the error
on one way only. -/
theorem silent_bin_loses_its_counts :
    ((twoBins (10 : ℚ) 6).Tidy ∧ (twoBins (10 : ℚ) 6).observed.grid.Ordered ∧
      ((twoBins (10 : ℚ) 6).grouping.sum [(1 : ℚ), 0]).toOption = some [1] ∧
      (ofSpectrum (twoBins (10 : ℚ) 6) [1, 0]).toOption.map FluxSpectrum.flux = some [10] ∧
      (ofSpectrum (twoBins (10 : ℚ) 6) [1]).toOption.map FluxSpectrum.flux = some [16]) ∧
    ((twoBins (-7 : ℚ) 16).Tidy ∧ (twoBins (-7 : ℚ) 16).observed.grid.Ordered ∧
      ((twoBins (-7 : ℚ) 16).grouping.sum [(1 : ℚ), 1]).toOption = some [2] ∧
      (ofSpectrum (twoBins (-7 : ℚ) 16) [1, 1]).toOption.map FluxSpectrum.fluxError = some [2] ∧
      (ofSpectrum (twoBins (-7 : ℚ) 16) [2]).toOption.map FluxSpectrum.fluxError = some [3 / 2]) := by
  refine ⟨⟨tidy_twoBins 10 6, ordered_twoBins 10 6, ?_, ?_, ?_⟩, tidy_twoBins (-7) 16, ordered_twoBins (-7) 16, ?_,
    ?_, ?_⟩
  all_goals decide +kernel

end FluxSpectrum

end SpectralResponse
