import SpectralResponse.Flux
import SpectralResponse.Session.Operations

/-!
# Predictions, fits and corrections

A model gives for each bin of a grid its flux, integrated over the bin. It is evaluated on the shared
grid, if there is one, or on the grid of each effective area; its flux is folded through the responses of
a spectrum, and the counts of all responses are added up for the working bins. Fit arrays lay the noticed
working bins of several spectra end to end, bin by bin.
-/

namespace SpectralResponse

/-- A model: the flux of each bin of a grid. -/
abbrev Model (α : Type) := Grid α → List α

/-- Predicted counts, and the grids on which the model was evaluated for them. -/
structure Prediction (α : Type) where
  /-- The counts in the working bins of each spectrum. -/
  counts : List (List α)
  /-- The grids on which the model was evaluated, in order. -/
  evaluated : List (Grid α)

/-- The noticed bins of a spectrum in fit arrays. -/
structure FitSpan where
  /-- The spectrum. -/
  spectrum : SpectrumId
  /-- The position of its first bin. -/
  start : Nat
  /-- The number of its bins. -/
  length : Nat
  deriving DecidableEq, Repr

/-- The noticed bins of several spectra, end to end. -/
structure FitArrays (α : Type) where
  /-- The counts. -/
  data : List α
  /-- The predicted counts plus the background. -/
  model : List α
  /-- The uncertainties. -/
  uncertainty : List α
  /-- The part of each spectrum. -/
  spans : List FitSpan
  deriving DecidableEq, Repr

variable {α : Type} [Scalar α]

/-- The model of the same density everywhere. -/
def Model.flat (density : α) : Model α := fun grid => grid.widths.map (density * ·)

/-- The model of a table: fluxes integrated over bins of its own, moved to the bins asked for. -/
def Model.ofTable (source : Grid α) (values : List α) : Model α := fun grid =>
  (rebin grid source values).toOption.getD []

/-- The values of a model on a grid, one for each bin. -/
def Model.evaluate (model : Model α) (grid : Grid α) : Except (Fault α) (List α) := do
  let values := model grid
  requireLength (fun e a => .session (.modelLength e a)) grid.length values.length
  return values

namespace Spectrum

/-- Values for channels taken to the working bins of a spectrum. Channels are either the working bins
already or the observed bins. -/
def toWorking (s : Spectrum α) (channels : List α) : Except (Fault α) (List α) :=
  if channels.length = s.workingCount then .ok channels
  else if channels.length = s.observedCount then s.grouping.sum channels
  else .error (.session (.workingChannels s.workingCount channels.length))

/-- The notice flags of the channels of a matrix. -/
def channelNotice (s : Spectrum α) (channelCount : Nat) : List Bool :=
  if channelCount = s.workingCount then s.working.notice
  else s.notice.zipIdx.map fun (noticed, index) => noticed && s.grouping.includes index

end Spectrum

namespace FitArrays

/-- No bins. -/
def empty : FitArrays α := ⟨[], [], [], []⟩

/-- Appends a working bin of a spectrum, unless it is ignored. -/
def appendBin (s : Spectrum α) (predicted background uncertainty : List α) (arrays : FitArrays α) (index : Nat) :
    FitArrays α :=
  if s.working.notice[index]?.getD false then
    { arrays with
      data := arrays.data ++ [s.working.counts[index]?.getD 0]
      model := arrays.model ++ [predicted[index]?.getD 0 + background[index]?.getD 0]
      uncertainty := arrays.uncertainty ++ [uncertainty[index]?.getD 0] }
  else arrays

/-- Appends the noticed bins of a spectrum. -/
def append (arrays : FitArrays α) (id : SpectrumId) (s : Spectrum α)
    (predicted background uncertainty : List α) : FitArrays α :=
  let start := arrays.data.length
  let filled := (List.range s.workingCount).foldl (appendBin s predicted background uncertainty) arrays
  { filled with spans := filled.spans ++ [⟨id, start, filled.data.length - start⟩] }

end FitArrays

namespace Session

/-- The energy bins that matter for the noticed bins of a spectrum, for each of its fit pairs. -/
def noticedModelBins (id : SpectrumId) : SessionM α (List (List Bool)) := do
  let record ← record id
  record.fit.mapM fun pair => do
    let m := (← matrix pair.matrix).current
    liftM (m.noticedModelBins (record.spectrum.channelNotice m.channelCount))

/-! ### Prediction -/

/-- The effective areas of the fit pairs of some spectra, with the spectra. -/
def members (ids : List SpectrumId) : SessionM α (List EvaluationMember) := do
  let lists ← ids.mapM fun id => do return (← record id).fit.map fun pair => (id, pair.area)
  return lists.flatten

/-- The effective areas of some members, each once, in ascending order. -/
def areasOf (members : List EvaluationMember) : List AreaId :=
  ascending Handle.before (members.map Prod.snd)

/-- The shared evaluation grid, kept for the next time. -/
def sharedGrid (members : List EvaluationMember) (grids : List (Grid α)) :
    SessionM α (Option (Grid α)) := do
  let s ← get
  let answer : Except (Fault α) _ := (s.cache.get (evaluationKey members) s.strategy grids).mapError .grid
  let (grid, cache) ← answer
  modify fun s => { s with cache }
  return grid

/-- The flux on each of some grids, and the grids on which the model was evaluated. -/
def fluxes (model : Model α) (shared : Option (Grid α)) (grids : List (Grid α)) :
    Except (Fault α) (List (List α) × List (Grid α)) :=
  match shared with
  | some shared => do
    let values ← model.evaluate shared
    let fluxes ← grids.mapM fun grid => (rebin grid shared values).mapError .rebin
    return (fluxes, [shared])
  | none => do return (← grids.mapM model.evaluate, grids)

/-- The flux for an effective area. -/
def fluxOf (fluxes : List (AreaId × List α)) (id : AreaId) : Except (Fault α) (List α) :=
  match fluxes.find? (·.1 == id) with
  | some (_, flux) => .ok flux
  | none => .error (.session (.noFlux id))

/-- The counts that one response pair gives to the working bins of a spectrum. -/
def pairCounts (fluxes : List (AreaId × List α)) (s : Spectrum α) (pair : ResponsePair) :
    SessionM α (List α) := do
  let area ← area pair.area
  let m := (← matrix pair.matrix).current
  let flux ← fluxOf fluxes pair.area
  let channels ← s.kernel.fold area m flux (List.replicate m.channelCount 0)
  liftM (s.toWorking channels)

/-- The counts that all fit pairs of a spectrum give to its working bins. -/
def spectrumCounts (fluxes : List (AreaId × List α)) (id : SpectrumId) : SessionM α (List α) := do
  let record ← record id
  record.fit.foldlM
    (fun counts pair => do
      return List.zipWith (· + ·) counts (← pairCounts fluxes record.spectrum pair))
    (List.replicate record.spectrum.workingCount 0)

/-- The flux of a model for each effective area of some spectra, and the grids on which the model was
evaluated. -/
def modelFluxes (ids : List SpectrumId) (model : Model α) :
    SessionM α (List (AreaId × List α) × List (Grid α)) := do
  let members ← members ids
  let areaIds := areasOf members
  let grids ← areaIds.mapM fun id => do return (← area id).grid
  let shared ← sharedGrid members grids
  let (fluxes, evaluated) ← fluxes model shared grids
  return (areaIds.zip fluxes, evaluated)

/-- The counts that a model predicts for the working bins of some spectra. -/
def predictedCounts (ids : List SpectrumId) (model : Model α) : SessionM α (Prediction α) := do
  let (fluxes, evaluated) ← modelFluxes ids model
  let counts ← ids.mapM (spectrumCounts fluxes)
  return { counts, evaluated }

/-! ### Fits -/

/-- Data, model and uncertainties of the noticed bins of some spectra. -/
def fitArrays (ids : List SpectrumId) (model : Model α) : SessionM α (FitArrays α) := do
  let predicted := (← predictedCounts ids model).counts
  (ids.zip predicted).foldlM
    (fun arrays (id, counts) => do
      let s ← spectrum id
      let background ← s.scaledBackground
      let uncertainty ← s.fitUncertainty
      return arrays.append id s counts background uncertainty)
    .empty

/-- A statistic of data, model and uncertainties. -/
abbrev Statistic (α : Type) := List α → List α → List α → α

/-- The value of a statistic for some spectra. -/
def evaluateStatistic (ids : List SpectrumId) (model : Model α) (statistic : Statistic α) :
    SessionM α α := do
  let arrays ← fitArrays ids model
  return statistic arrays.data arrays.model arrays.uncertainty

/-! ### Flux correction -/

/-- Adds the weights of one more response pair. -/
def addWeights (total? : Option (List α)) (weights : List α) : Except (Fault α) (List α) :=
  match total? with
  | none => .ok weights
  | some total =>
    if total.length = weights.length then .ok (List.zipWith (· + ·) total weights)
    else .error (.session (.unequalChannels total.length weights.length))

/-- The flux-corrected spectrum, from the weights of all fit pairs. -/
def fluxCorrect (id : SpectrumId) : SessionM α (FluxSpectrum α) := do
  let record ← record id
  let total? ← record.fit.foldlM
    (fun total? pair => do
      let area ← area pair.area
      let m := (← matrix pair.matrix).current
      let weights ← record.spectrum.kernel.correctionWeights area m
      return some (← addWeights total? weights))
    none
  let some weights := total? | throw (.session (.noResponse id))
  liftM (FluxSpectrum.ofSpectrum record.spectrum weights)

end Session

end SpectralResponse
