import SpectralResponse.Grid.Document
import SpectralResponse.Rebin.Overlap
import SpectralResponse.Spectrum.Basic

/-!
# Flux correction

Observed counts, less the background, are divided by the counts that a unit source would give. A working
bin gets the mean of the fluxes of its observed bins, weighted by their response, which is its net count
over the sum of the weights. Weights may be given for the observed or for the working bins. Bins without
response get no flux and no error.
-/

namespace SpectralResponse

/-- A flux for each working bin. -/
structure FluxSpectrum (α : Type) where
  /-- The bins. -/
  grid : Grid α
  /-- The fluxes, integrated over the bins. -/
  flux : List α
  /-- The errors of the fluxes. -/
  fluxError : List α
  /-- The counts that a unit source would give. -/
  weights : List α
  deriving DecidableEq, Repr

namespace FluxSpectrum

variable {α : Type} [Scalar α]

/-- The net counts over the weights, where these are positive. -/
def quotients (counts background weights : List α) : List α :=
  List.zipWith (fun (count, ground) weight => perWeight (count - ground) weight)
    (counts.zip background) weights

/-- The errors of the net counts over the weights, where these are positive. -/
def quotientErrors (counts background weights : List α) : List α :=
  List.zipWith
    (fun (count, ground) weight => perWeight (Scalar.sqrt (Scalar.greater (count + ground) 0)) weight)
    (counts.zip background) weights

/-- The weights of the observed bins, zero for those that belong to no group. -/
def usableWeights (grouping : Grouping) (weights : List α) : List α :=
  weights.zipIdx.map fun (weight, index) => if grouping.includes index then weight else 0

/-- The flux of a spectrum from weights for its observed bins. -/
def ofObservedWeights (s : Spectrum α) (weights : List α) : Except (Fault α) (FluxSpectrum α) := do
  let background := s.scaledBackgroundObserved
  let usable := usableWeights s.grouping weights
  let flux := quotients s.observed.counts background usable
  let errors := quotientErrors s.observed.counts background usable
  if s.grouping.isIdentity then return ⟨s.observed.grid, flux, errors, usable⟩
  let merged ← rebinWeighted s.working.grid s.observed.grid ⟨flux, errors, usable⟩
  return ⟨s.working.grid, merged.values, merged.errors, merged.weights⟩

/-- The flux of a spectrum from weights for its working bins. -/
def ofWorkingWeights (s : Spectrum α) (weights : List α) : Except (Fault α) (FluxSpectrum α) := do
  let background ← s.scaledBackground
  return {
    grid := s.working.grid
    flux := quotients s.working.counts background weights
    fluxError := quotientErrors s.working.counts background weights
    weights }

/-- The flux of a spectrum, from weights for its observed or its working bins. -/
def ofSpectrum (s : Spectrum α) (weights : List α) : Except (Fault α) (FluxSpectrum α) :=
  if weights.length = s.observedCount then ofObservedWeights s weights
  else if weights.length = s.workingCount then ofWorkingWeights s weights
  else .error (.session (.fluxWeights s.observedCount weights.length))

omit [Scalar α] in
/-- A flux-corrected spectrum as JSON. -/
def toJson (f : FluxSpectrum α) : Json α :=
  .object (Bin.edgesJson f.grid.bins ++
    [("flux", .reals f.flux), ("flux_err", .reals f.fluxError), ("weights", .reals f.weights)])

end FluxSpectrum

end SpectralResponse
