import SpectralResponse.Config.Basic
import SpectralResponse.Grouping.LeastCount
import SpectralResponse.Kernel
import SpectralResponse.Rebin.Overlap

/-!
# Spectra

A spectrum keeps the bins it was observed with (`Observed`), which never change, together with what a
user chooses: which observed bins are noticed, their systematic errors, a grouping, and how errors are
derived. Everything that is used for fitting refers to the working bins, one for each group; the arrays
for the working bins (`WorkingBins`) are derived from the rest by `Spectrum.derive?` whenever one of the
choices changes.

A bin of bad quality is never noticed. Ranges are noticed and ignored by working bins: a range reaches
every observed bin of each working bin it overlaps.
-/

namespace SpectralResponse

/-- The columns of a spectrum as they are given. -/
structure SpectrumInput (α : Type) where
  /-- The low edges. -/
  lo : List α
  /-- The high edges. -/
  hi : List α
  /-- The unit of the edges. -/
  unit : EdgeUnit
  /-- The counts. -/
  counts : List α
  /-- The statistical errors; without them, the square roots of the counts. -/
  statErrors : Option (List α)
  /-- The systematic errors, as fractions of the counts. -/
  sysFractions : Option (List α)
  /-- The quality flags; any but zero marks a bad bin. -/
  quality : Option (List Int)
  /-- The exposure time. -/
  exposure : α
  /-- The size of the region that counts were taken from. -/
  backscal : α
  /-- What was observed. -/
  observation : Observation

/-- The counts of a background, on the observed bins of a spectrum. -/
structure Background (α : Type) where
  /-- The counts. -/
  counts : List α
  /-- The exposure time. -/
  exposure : α
  /-- The size of the region that counts were taken from. -/
  backscal : α
  deriving DecidableEq, Repr

/-- What was observed, in ascending order of energy. -/
structure Observed (α : Type) where
  /-- The observed bins. -/
  grid : Grid α
  /-- The counts. -/
  counts : List α
  /-- The statistical errors. -/
  statErrors : List α
  /-- The bins of good quality. -/
  isGood : List Bool
  /-- The exposure time. -/
  exposure : α
  /-- The size of the region that counts were taken from. -/
  backscal : α
  /-- Where and how it was observed. -/
  observation : Observation
  deriving DecidableEq, Repr

/-- The arrays for the working bins. -/
structure WorkingBins (α : Type) where
  /-- The working bins. -/
  grid : Grid α
  /-- The counts. -/
  counts : List α
  /-- The statistical errors. -/
  statErrors : List α
  /-- The systematic errors. -/
  sysErrors : List α
  /-- The noticed bins. -/
  notice : List Bool
  deriving DecidableEq, Repr

/-- A spectrum with the choices made for it. -/
structure Spectrum (α : Type) where
  /-- What was observed. -/
  observed : Observed α
  /-- The systematic errors of the observed bins, as fractions of the counts. -/
  sysFractions : List α
  /-- The observed bins that are noticed. -/
  notice : List Bool
  /-- How the statistical errors of working bins are derived. -/
  policy : StatErrorPolicy
  /-- The error of working bins without counts, where errors are derived from counts. -/
  errorFloor : α
  /-- The grouping of observed bins. -/
  grouping : Grouping
  /-- The arrays for the working bins. -/
  working : WorkingBins α
  /-- The background. -/
  background : Option (Background α)
  /-- How a flux becomes counts. -/
  kernel : Kernel α
  deriving DecidableEq, Repr

variable {α : Type} [Scalar α]

/-- Requires the exposure and then the region size to be finite and positive. -/
def requireScales (fault : Scale → α → Fault α) (exposure backscal : α) : Except (Fault α) Unit := do
  if !Scalar.isFinite exposure || exposure ≤ 0 then throw (fault .exposure exposure)
  if !Scalar.isFinite backscal || backscal ≤ 0 then throw (fault .backscal backscal)

/-- The background with the given counts and scales. -/
def Background.ofCounts (counts : List α) (exposure backscal : α) :
    Except (Fault α) (Background α) := do
  requireScales (fun name value => .spectrum (.backgroundScale name value)) exposure backscal
  return { counts, exposure, backscal }

namespace Spectrum

variable (s : Spectrum α)

/-! ### Views -/

omit [Scalar α] in
/-- The number of observed bins. -/
def observedCount : Nat := s.observed.grid.bins.length

omit [Scalar α] in
/-- The number of working bins. -/
def workingCount : Nat := s.working.grid.bins.length

omit [Scalar α] in
/-- The number of noticed working bins. -/
def noticedCount : Nat := s.working.notice.countP id

/-! ### Deriving the working bins -/

/-- The statistical errors of the working bins. -/
def derivedStatErrors (counts : List α) : Except (Fault α) (List α) :=
  match s.policy with
  | .quadrature => s.grouping.sumQuadrature s.observed.statErrors
  | .poisson => .ok (counts.map (Uncertainty.ofCounts s.errorFloor))

/-- The systematic errors of the working bins: the errors of the observed bins add up with their
signs. -/
def derivedSysErrors : Except (Fault α) (List α) := do
  let errors ← s.grouping.sum (List.zipWith (· * ·) s.observed.counts s.sysFractions)
  return errors.map Scalar.abs

/-- The arrays for the working bins that follow from the observed bins and the choices. -/
def derive? : Except (Fault α) (WorkingBins α) := do
  let grid ← s.grouping.grid s.observed.grid
  let counts ← s.grouping.sum s.observed.counts
  let statErrors ← s.derivedStatErrors counts
  let sysErrors ← s.derivedSysErrors
  let notice ← s.grouping.any s.notice
  return { grid, counts, statErrors, sysErrors, notice }

/-- The spectrum with its working bins brought up to date. -/
def rebuild : Except (Fault α) (Spectrum α) := do
  let working ← s.derive?
  return { s with working }

/-! ### Construction -/

omit [Scalar α] in
/-- Values given for each bin, or values that stand in for them. -/
def givenOr {β : Type} (fault : Nat → Nat → Fault α) (count : Nat) (given? : Option (List β))
    (default : List β) : Except (Fault α) (List β) :=
  match given? with
  | some given => do
    requireLength fault count given.length
    return given
  | none => .ok default

/-- Checks the columns of a spectrum and brings them into ascending order: the observed bins, with
their errors as they are given, and the systematic errors. -/
def observe (input : SpectrumInput α) : Except (Fault α) (Observed α × List α) := do
  let canonical ← canonicalize input.lo input.hi input.unit
  let count := canonical.grid.length
  requireLength (fun e a => .spectrum (.counts e a)) count input.counts.length
  requireScales (fun name value => .spectrum (.scale name value)) input.exposure input.backscal
  let statErrors ← givenOr (fun e a => .spectrum (.statErrors e a)) count input.statErrors
    (input.counts.map (Uncertainty.ofCounts Config.unitUncertainty))
  let sysFractions ← givenOr (fun e a => .spectrum (.sysErrors e a)) count input.sysFractions
    (List.replicate count 0)
  let quality ← givenOr (fun e a => .spectrum (.quality e a)) count input.quality
    (List.replicate count 0)
  return ({
    grid := canonical.grid
    counts := canonical.arrange input.counts
    statErrors := canonical.arrange statErrors
    isGood := (canonical.arrange quality).map (· == 0)
    exposure := input.exposure
    backscal := input.backscal
    observation := input.observation }, canonical.arrange sysFractions)

/-- The spectrum of the given columns, with one working bin for each observed bin and all good bins
noticed. Statistical errors that are not positive become one, with a warning. -/
def ofInput (input : SpectrumInput α) : Noted α (Spectrum α) := do
  let (given, sysFractions) ← observe input
  let count := Uncertainty.unusableCount given.statErrors
  Noted.warnIf (0 < count) (.statErrorsReset count Config.unitUncertainty)
  let observed := { given with
    statErrors := Uncertainty.reset Config.unitUncertainty given.statErrors }
  let initial : Spectrum α := {
    observed, sysFractions
    notice := observed.isGood
    policy := .quadrature
    errorFloor := Config.unitUncertainty
    grouping := .identity observed.grid.length
    working := ⟨observed.grid, observed.counts, observed.statErrors, [], observed.isGood⟩
    background := none
    kernel := .standard }
  initial.rebuild

/-! ### Choices -/

/-- Takes over how errors are derived. -/
def configure (config : Config α) : Except (Fault α) (Spectrum α) :=
  { s with policy := config.statErrorPolicy, errorFloor := config.defaultUncertainty }.rebuild

/-- Replaces the systematic errors, given as fractions for the observed bins. -/
def setSysFractions (fractions : List α) : Except (Fault α) (Spectrum α) := do
  requireLength (fun e a => .spectrum (.sysErrors e a)) s.observedCount fractions.length
  { s with sysFractions := fractions }.rebuild

omit [Scalar α] in
/-- Replaces the kernel. -/
def setKernel (kernel : Kernel α) : Spectrum α := { s with kernel }

/-- Takes over a grouping. -/
def regroup (grouping : Grouping) : Except (Fault α) (Spectrum α) := { s with grouping }.rebuild

/-- Groups by a mask. -/
def rebinByMask (mask : List Int) : Except (Fault α) (Spectrum α) := do
  requireLength (fun e a => .spectrum (.mask e a)) s.observedCount mask.length
  s.regroup (← Grouping.ofMask mask)

/-- Groups noticed bins until each group holds at least `threshold` counts. -/
def groupToCount (threshold : α) : Except (Fault α) (Spectrum α) := do
  s.regroup (← Grouping.leastCount s.observed.counts s.notice threshold)

/-- Makes each observed bin a working bin. -/
def unbin : Except (Fault α) (Spectrum α) := s.regroup (.identity s.observedCount)

/-! ### Noticed bins -/

omit [Scalar α] in
/-- Replaces the flags that tell which observed bins are noticed. -/
def setNotice (notice : List Bool) : Except (Fault α) (Spectrum α) := do
  let flags ← s.grouping.any notice
  return { s with notice, working := { s.working with notice := flags } }

omit [Scalar α] in
/-- Notices all good bins. -/
def noticeAll : Except (Fault α) (Spectrum α) := s.setNotice s.observed.isGood

omit [Scalar α] in
/-- Notices no bin. -/
def ignoreAll : Except (Fault α) (Spectrum α) := s.setNotice (s.notice.map fun _ => false)

/-- The groups whose working bins overlap a range. -/
def groupsWithin (range : Bin α) : List (List Nat) :=
  (s.grouping.groups.zip s.working.grid.bins).filterMap fun (group, b) =>
    if b.overlap range ≤ 0 then none else some group

/-- Flags the members of some groups. -/
def flagMembers (noticed : Bool) (groups : List (List Nat)) : List Bool :=
  (s.notice.zip s.observed.isGood).zipIdx.map fun ((flag, good), index) =>
    if groups.any (·.contains index) then noticed && good else flag

/-- Notices or ignores the working bins that overlap a range, and counts them. The ends of the range
may be given in either order. -/
def setRange (a b : α) (unit : EdgeUnit) (noticed : Bool) : Except (Fault α) (Spectrum α × Nat) := do
  let (lo, hi) := if a ≤ b then (a, b) else (b, a)
  let range ← canonicalize [lo] [hi] unit
  let groups := s.groupsWithin ⟨range.grid.min, range.grid.max⟩
  let next ← s.setNotice (s.flagMembers noticed groups)
  return (next, groups.length)

/-! ### Background -/

/-- The counts of the spectrum, used as a background for another one. -/
def asBackground : Except (Fault α) (Background α) :=
  Background.ofCounts s.observed.counts s.observed.exposure s.observed.backscal

/-- Takes over a background. -/
def setBackground (background : Background α) : Except (Fault α) (Spectrum α) := do
  requireLength (fun e a => .spectrum (.background e a)) s.observedCount background.counts.length
  return { s with background := some background }

omit [Scalar α] in
/-- Drops the background. -/
def clearBackground : Spectrum α := { s with background := none }

/-- The factor from background counts to counts in the spectrum: the ratio of the regions times the
ratio of the exposures, or zero without a background. -/
def backgroundScale : α :=
  match s.background with
  | some b => (s.observed.backscal / b.backscal) * (s.observed.exposure / b.exposure)
  | none => 0

/-- The background counts expected in the observed bins. -/
def scaledBackgroundObserved : List α :=
  match s.background with
  | some b => b.counts.map (· * s.backgroundScale)
  | none => List.replicate s.observedCount 0

/-- The background counts expected in the working bins. -/
def scaledBackground : Except (Fault α) (List α) := s.grouping.sum s.scaledBackgroundObserved

/-- The variances of the background counts in the working bins. -/
def backgroundVariances : Except (Fault α) (List α) :=
  match s.background with
  | some b => do
    let counts ← s.grouping.sum b.counts
    return counts.map fun value => Scalar.greater value 0 * s.backgroundScale * s.backgroundScale
  | none => .ok (List.replicate s.workingCount 0)

/-- The uncertainties for a fit: statistical, systematic and background errors in quadrature. -/
def fitUncertainty : Except (Fault α) (List α) := do
  let variances ← s.backgroundVariances
  return List.zipWith (fun (stat, sys) variance => Scalar.sqrt (stat * stat + sys * sys + variance))
    (s.working.statErrors.zip s.working.sysErrors) variances

end Spectrum

end SpectralResponse
