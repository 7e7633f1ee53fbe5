import SpectralResponse.Proofs.Scalar.Rational
import SpectralResponse.Proofs.Spectrum.Requests
import Mathlib.Analysis.Real.Sqrt

/-!
# Uncertainties are positive

A statistic divides by uncertainties, so none of them may be zero. They are positive when a spectrum is made, since
errors that are not positive are reset, and every way to derive the errors of working bins keeps that: the sum in
quadrature of a group has a positive term, as no group is empty, and an error that follows from counts is the root
of a positive count or the floor. Systematic errors and background only add to them.

## What is proved

* `Uncertainty.orElse_pos`, `Uncertainty.ofCounts_pos`, `Grouping.Proper.sumQuadrature_pos` — each way to come to an
  error gives a positive one.
* `Positive.apply`, `Positive.afterChanges` — one change of a spectrum, and any number of them, keep its observed
  errors and its floor positive.
* `uncertainties_are_positive` — the errors of working bins and the uncertainties for a fit are positive.
-/

namespace SpectralResponse

variable {K : Type} [Field K] [LinearOrder K] [FloorRing K] [Roots K]

/-! ### Roots -/

namespace Roots

/-- Positive numbers have positive roots. -/
def Positive (K : Type) [Zero K] [LT K] [Roots K] : Prop := ∀ x : K, 0 < x → 0 < sqrt x

/-- The roots of real numbers. -/
noncomputable instance : Roots ℝ where
  sqrt := Real.sqrt
  text x := toString ⌊x⌋

/-- So all that is proved for positive roots holds of real numbers. -/
theorem positive_real : Positive ℝ := fun _ => Real.sqrt_pos.2

theorem positive_rational : Positive ℚ := fun x hx => by
  have hnum : 0 < Int.sqrt x.num := by
    rw [Int.sqrt, Int.natCast_pos, Nat.sqrt_pos, Int.lt_toNat]
    exact Rat.num_pos.2 hx
  have hden : 0 < Nat.sqrt x.den := Nat.sqrt_pos.2 x.den_pos
  show 0 < Rat.sqrt x
  rw [Rat.sqrt, Rat.mkRat_eq_div]
  exact div_pos (Int.cast_pos.2 hnum) (Nat.cast_pos.2 hden)

end Roots

/-! ### Errors of single bins -/

namespace Uncertainty

theorem orElse_pos {replacement : K} (h : 0 < replacement) (error : K) : 0 < orElse replacement error := by
  rw [orElse, isUnusable, Scalar.isNaN_exact, Bool.false_or]
  by_cases hpos : error ≤ 0
  · rwa [if_pos (by simpa using hpos)]
  · rw [if_neg (by simpa using hpos)]
    exact not_le.1 hpos

/-- Errors that are not positive are reset. -/
theorem reset_pos {replacement : K} (h : 0 < replacement) (errors : List K) :
    ∀ e ∈ reset replacement errors, 0 < e := by
  intro e he
  obtain ⟨error, -, rfl⟩ := List.mem_map.1 he
  exact orElse_pos h error

/-- The error of any number of counts is positive. -/
theorem ofCounts_pos (hroots : Roots.Positive K) {floor : K} (h : 0 < floor) (counts : K) :
    0 < ofCounts floor counts := by
  rw [ofCounts]
  by_cases hpos : 0 < counts
  · rw [if_pos hpos]
    exact hroots counts hpos
  · rwa [if_neg hpos]

end Uncertainty

/-! ### Errors of groups -/

namespace Grouping

variable {g : Grouping}

/-- A group picks at least one of the values that are given for all fine bins. -/
theorem Proper.pick_ne_nil (hg : g.Proper) {β : Type} {values : List β} (hlen : values.length = g.fineLength)
    {group : List Nat} (hgroup : group ∈ g.groups) : pick values group ≠ [] := by
  obtain ⟨start, more, rfl, -, hend⟩ := hg.runs group hgroup
  have hstart : start < values.length := by omega
  apply List.ne_nil_of_mem (a := values[start])
  exact List.mem_filterMap.2 ⟨start, by simp, List.getElem?_eq_getElem hstart⟩

theorem mem_of_mem_pick {β : Type} {values : List β} {group : List Nat} {value : β} (h : value ∈ pick values group) :
    value ∈ values := by
  obtain ⟨i, -, hi⟩ := List.mem_filterMap.1 h
  exact List.mem_of_getElem? hi

/-- The sum in quadrature of positive errors is positive for each group. -/
theorem Proper.sumQuadrature_pos [IsStrictOrderedRing K] (hg : g.Proper) (hroots : Roots.Positive K)
    {errors sums : List K} (h : g.sumQuadrature errors = .ok sums) (hpos : ∀ e ∈ errors, 0 < e) :
    ∀ e ∈ sums, 0 < e := by
  obtain ⟨hlen, rfl⟩ := sumQuadrature_eq_ok.1 h
  intro e he
  obtain ⟨group, hgroup, rfl⟩ := List.mem_map.1 he
  apply hroots
  rw [Scalar.sum_exact]
  apply List.sum_pos
  · intro square hsquare
    obtain ⟨error, herror, rfl⟩ := List.mem_map.1 hsquare
    have := hpos error (mem_of_mem_pick herror)
    exact mul_pos this this
  · simpa using hg.pick_ne_nil hlen hgroup

end Grouping

/-! ### Errors of a spectrum -/

namespace Spectrum

variable {s : Spectrum K}

/-- The arrays fit together, and what errors are derived from is positive. -/
structure Positive (s : Spectrum K) : Prop where
  /-- The arrays fit together. -/
  settled : s.Settled
  /-- The errors of the observed bins are positive. -/
  statErrors : ∀ e ∈ s.observed.statErrors, 0 < e
  /-- So is the error of working bins without counts. -/
  errorFloor : 0 < s.errorFloor

/-- A spectrum that is made has positive errors, whatever errors were given for it. -/
theorem positive_of_ofInput {input : SpectrumInput K} {made : Spectrum K}
    (h : (ofInput input).outcome.1 = .ok made) : made.Positive := by
  obtain ⟨given, -, hobserved, -, herrors⟩ := of_ofInput (.of_outcome h)
  obtain ⟨hsettled, -⟩ := settled_of_ofInput (.of_outcome h)
  refine ⟨hsettled, ?_, ?_⟩
  · rw [hobserved]
    exact Uncertainty.reset_pos zero_lt_one given.statErrors
  · rw [(Prod.mk.inj herrors).2]
    exact zero_lt_one

/-- No variance of the background is negative: background counts below zero are taken as zero. -/
theorem backgroundVariances_nonneg [IsStrictOrderedRing K] {variances : List K}
    (h : s.backgroundVariances = .ok variances) : ∀ v ∈ variances, 0 ≤ v := by
  intro v hv
  rw [backgroundVariances] at h
  cases hbackground : s.background with
  | none =>
    rw [hbackground] at h
    cases Except.ok.inj h
    rw [List.eq_of_mem_replicate hv]
  | some b =>
    rw [hbackground] at h
    obtain ⟨counts, -, h⟩ := Except.bind_eq_ok.1 h
    cases Except.ok.inj h
    obtain ⟨value, -, rfl⟩ := List.mem_map.1 hv
    rw [Scalar.greater_exact, mul_assoc]
    exact mul_nonneg (le_max_right value 0) (mul_self_nonneg _)

namespace Positive

variable (hs : s.Positive)
include hs

/-- One step: a change, whether it fails or not, keeps errors positive; a configuration must have a positive floor. -/
theorem apply {change : Change K}
    (hfloor : ∀ config, change = .request (.configure config) → 0 < config.defaultUncertainty) :
    (change.apply s).Positive := by
  cases change with
  | request r =>
    show (r.edit.perform s).2.Positive
    rw [hs.settled.perform_edit]
    cases hanswer : r.answer s with
    | error fault => exact hs
    | ok next =>
      obtain ⟨hsettled, hobserved, herrors⟩ := hs.settled.of_answer hanswer
      refine ⟨hsettled, ?_, ?_⟩
      · show ∀ e ∈ next.observed.statErrors, 0 < e
        rw [hobserved]
        exact hs.statErrors
      · show 0 < next.errorFloor
        rw [(Prod.mk.inj herrors).2]
        cases r with
        | configure config => exact hfloor config rfl
        | _ => exact hs.errorFloor
  | setKernel kernel =>
    obtain ⟨htidy, hstat, hgood, hfractions, hbad⟩ := hs.settled
    exact ⟨⟨htidy.setKernel kernel, hstat, hgood, hfractions, hbad⟩, hs.statErrors, hs.errorFloor⟩
  | clearBackground =>
    obtain ⟨htidy, hstat, hgood, hfractions, hbad⟩ := hs.settled
    exact ⟨⟨htidy.clearBackground, hstat, hgood, hfractions, hbad⟩, hs.statErrors, hs.errorFloor⟩

/-- A run: after any number of changes, failed ones included, errors are positive. -/
theorem afterChanges {changes : List (Change K)}
    (hfloor : ∀ config, Change.request (.configure config) ∈ changes → 0 < config.defaultUncertainty) :
    (s.afterChanges changes).Positive := by
  induction changes generalizing s with
  | nil => exact hs
  | cons change changes ih =>
    apply ih
    · apply hs.apply
      rintro config rfl
      exact hfloor config List.mem_cons_self
    · intro config hconfig
      exact hfloor config (List.mem_cons_of_mem _ hconfig)

variable [IsStrictOrderedRing K]

/-- The errors of the working bins are positive, in whichever way they are derived. -/
theorem working_statErrors_pos (hroots : Roots.Positive K) : ∀ e ∈ s.working.statErrors, 0 < e := by
  have hstat := hs.settled.tidy.followsOriginals.statErrors
  cases hpolicy : s.policy with
  | quadrature =>
    rw [hpolicy] at hstat
    exact hs.settled.tidy.whole.proper.sumQuadrature_pos hroots hstat hs.statErrors
  | poisson =>
    rw [hpolicy] at hstat
    rw [hstat]
    intro e he
    obtain ⟨counts, -, rfl⟩ := List.mem_map.1 he
    exact Uncertainty.ofCounts_pos hroots hs.errorFloor counts

/-- The uncertainties for a fit are positive, since their statistical parts are. -/
theorem fitUncertainty_pos (hroots : Roots.Positive K) {uncertainties : List K}
    (h : s.fitUncertainty = .ok uncertainties) : ∀ u ∈ uncertainties, 0 < u := by
  intro u hu
  obtain ⟨variances, hvariances, h⟩ := Except.bind_eq_ok.1 h
  cases Except.ok.inj h
  obtain ⟨i, hi⟩ := List.mem_iff_getElem?.1 hu
  obtain ⟨⟨stat, sys⟩, variance, herrors, hvariance, rfl⟩ := List.getElem?_zipWith_eq_some.1 hi
  have hstat : 0 < stat :=
    hs.working_statErrors_pos hroots stat (List.of_mem_zip (List.mem_of_getElem? herrors)).1
  have hvariance : 0 ≤ variance := backgroundVariances_nonneg hvariances variance (List.mem_of_getElem? hvariance)
  apply hroots
  have hsquare : 0 < stat * stat := mul_pos hstat hstat
  have hsys : 0 ≤ sys * sys := mul_self_nonneg sys
  linarith

end Positive

/-- For a spectrum that is made of any columns and changed in any way, failed changes included, with configurations
whose default uncertainty is positive: each working bin has a positive statistical error, and a positive uncertainty
for a fit. -/
theorem uncertainties_are_positive [IsStrictOrderedRing K] (hroots : Roots.Positive K) {input : SpectrumInput K}
    {made : Spectrum K} (h : (ofInput input).outcome.1 = .ok made) (changes : List (Change K))
    (hfloor : ∀ config, Change.request (.configure config) ∈ changes → 0 < config.defaultUncertainty) :
    ((made.afterChanges changes).working.statErrors.length = (made.afterChanges changes).workingCount ∧
      ∀ e ∈ (made.afterChanges changes).working.statErrors, 0 < e) ∧
      ∃ uncertainties, (made.afterChanges changes).fitUncertainty = .ok uncertainties ∧
        uncertainties.length = (made.afterChanges changes).workingCount ∧ ∀ u ∈ uncertainties, 0 < u := by
  have hs := (positive_of_ofInput h).afterChanges hfloor
  have htidy := hs.settled.tidy
  obtain ⟨uncertainties, hfit, hlen⟩ := htidy.exists_fitUncertainty
  refine ⟨⟨?_, hs.working_statErrors_pos hroots⟩, uncertainties, hfit, hlen, hs.fitUncertainty_pos hroots hfit⟩
  rw [htidy.oneForEachGroup.statErrors, htidy.workingCount_eq]

/-! ### A spectrum with hardly any usable error -/

namespace Worn

/-- Three bins in descending order, one with negative counts, of which one has a positive error. -/
def input : SpectrumInput ℚ where
  lo := [3, 2, 1]
  hi := [4, 3, 2]
  unit := .kev
  counts := [-4, 9, 16]
  statErrors := some [0, -1, 2]
  sysFractions := none
  quality := none
  exposure := 1
  backscal := 1
  observation := {}

/-- The spectrum of the three bins. -/
def made : Spectrum ℚ := (ofInput input).outcome.1.toOption.get (by decide +kernel)

/-- A background below zero, a mask that is too short, two groups, and errors from counts with a floor. -/
def changes : List (Change ℚ) :=
  [.request (.setBackground ⟨[-5, 3, 0], 1, 2⟩), .request (.rebinByMask [1]), .request (.rebinByMask [1, 1, -1]),
    .request (.configure { Config.default with statErrorPolicy := .poisson, defaultUncertainty := 1 / 2 })]

end Worn

/-- The group with negative counts has the floor as its error, and a background below zero takes nothing away. -/
theorem negative_counts_keep_an_uncertainty :
    (Worn.made.afterChanges Worn.changes).working.counts = [25, -4] ∧
      (∀ e ∈ (Worn.made.afterChanges Worn.changes).working.statErrors, 0 < e) ∧
      ∃ uncertainties, (Worn.made.afterChanges Worn.changes).fitUncertainty = .ok uncertainties ∧
        uncertainties.length = 2 ∧ ∀ u ∈ uncertainties, 0 < u := by
  have hmade : (ofInput Worn.input).outcome.1 = .ok Worn.made := Except.toOption_eq_some.1 (Option.some_get _).symm
  have hfloor : ∀ config, Change.request (.configure config) ∈ Worn.changes → 0 < config.defaultUncertainty := by
    intro config hconfig
    simp only [Worn.changes, List.mem_cons, List.not_mem_nil, Change.request.injEq, Request.configure.injEq,
      reduceCtorEq, false_or, or_false] at hconfig
    rw [hconfig]
    norm_num
  obtain ⟨⟨-, hstat⟩, uncertainties, hfit, hlen, hpos⟩ :=
    uncertainties_are_positive Roots.positive_rational hmade Worn.changes hfloor
  refine ⟨by decide +kernel, hstat, uncertainties, hfit, ?_, hpos⟩
  rw [hlen]
  decide +kernel

end Spectrum

end SpectralResponse
