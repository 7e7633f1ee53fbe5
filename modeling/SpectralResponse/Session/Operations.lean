import SpectralResponse.Session.Basic

/-!
# Operations of a session

What a user can do with the products and spectra of a session. Effective areas and matrices are shared:
they are freed only when nothing uses them, and a matrix that several spectra use is not moved to other
channels.
-/

namespace SpectralResponse.Session

variable {α : Type} [Scalar α]

/-- A session without products. -/
def ofConfig (config : Config α) : Except (Fault α) (Session α) := do
  let strategy ← EvaluationStrategy.ofChoice config.evaluation
  return {
    config, strategy
    areas := .empty
    matrices := .empty
    spectra := .empty
    cache := .empty }

/-! ### Spectra -/

/-- Changes a spectrum. -/
def changeSpectrum {β : Type} (id : SpectrumId) (change : Spectrum α → Except (Fault α) (Spectrum α × β)) :
    SessionM α β := do
  let record ← record id
  let (spectrum, answer) ← change record.spectrum
  putRecord id { record with spectrum }
  return answer

/-- Changes a spectrum without an answer. -/
def updateSpectrum (id : SpectrumId) (change : Spectrum α → Except (Fault α) (Spectrum α)) :
    SessionM α Unit :=
  changeSpectrum id fun s => (change s).map (·, ())

/-- Takes in a spectrum. -/
def addSpectrum (spectrum : Spectrum α) : SessionM α SpectrumId := do
  let configured ← spectrum.configure (← get).config
  let id ← insertSpectrum configured
  refreshFit id
  return id

/-- Reads a spectrum and takes it in. -/
def loadSpectrum (file : CalibrationFile α) : SessionM α SpectrumId := do
  addSpectrum (← noted (Spectrum.read file))

/-- Gives away a spectrum and lets go of its responses. -/
def deleteSpectrum (id : SpectrumId) : SessionM α (Spectrum α) := do
  let before ← record id
  putRecord id { before with assigned := [], fit := [] }
  before.assigned.forM releasePair
  before.fit.forM releasePair
  let (record, spectra) ← (← get).spectra.remove id
  setSpectra spectra
  let _ ← compact
  forgetGrid
  return record.spectrum

/-- Replaces the kernel of a spectrum. -/
def setKernel (id : SpectrumId) (kernel : Kernel α) : SessionM α Unit :=
  updateSpectrum id fun s => .ok (s.setKernel kernel)

/-- Replaces the background of a spectrum. -/
def setBackground (id : SpectrumId) (background : Background α) : SessionM α Unit :=
  updateSpectrum id (·.setBackground background)

/-- Replaces the systematic errors of a spectrum. -/
def setSysFractions (id : SpectrumId) (fractions : List α) : SessionM α Unit :=
  updateSpectrum id (·.setSysFractions fractions)

/-- Notices or ignores a range of a spectrum, and counts the working bins in it. -/
def setRange (id : SpectrumId) (lo hi : α) (unit : EdgeUnit) (noticed : Bool) : SessionM α Nat :=
  changeSpectrum id (·.setRange lo hi unit noticed)

/-- Notices all good bins of a spectrum. -/
def noticeAll (id : SpectrumId) : SessionM α Unit := updateSpectrum id (·.noticeAll)

/-- Notices no bin of a spectrum. -/
def ignoreAll (id : SpectrumId) : SessionM α Unit := updateSpectrum id (·.ignoreAll)

/-- Groups a spectrum by a mask; its matrices follow. -/
def rebinSpectrum (id : SpectrumId) (mask : List Int) : SessionM α Unit := do
  updateSpectrum id (·.rebinByMask mask)
  syncMatrices id

/-- Groups a spectrum to a least count; its matrices follow. -/
def groupToCount (id : SpectrumId) (threshold : α) : SessionM α Unit := do
  updateSpectrum id (·.groupToCount threshold)
  syncMatrices id

/-- Makes each observed bin a working bin again; the matrices follow. -/
def unbin (id : SpectrumId) : SessionM α Unit := do
  updateSpectrum id (·.unbin)
  syncMatrices id

/-! ### Configuration -/

/-- Takes over a configuration, and derives anew what depends on it. -/
def setConfig (config : Config α) : SessionM α Unit := do
  let strategy ← EvaluationStrategy.ofChoice config.evaluation
  modify fun s => { s with strategy, config, cache := .empty }
  (← get).spectra.ids.forM fun id => do
    updateSpectrum id (·.configure config)
    refreshFit id

/-! ### Effective areas -/

/-- Takes in an effective area. -/
def addArea (area : EffectiveArea α) : SessionM α AreaId := insertArea area true

/-- Reads an effective area and takes it in. -/
def loadArea (file : CalibrationFile α) : SessionM α AreaId := do
  addArea (← EffectiveArea.read file (← get).config.areaExtensions)

/-- Replaces the arrays of an effective area. -/
def updateArea (id : AreaId) (update : AreaUpdate α) : SessionM α PutReport := do
  let config := (← get).config
  let old ← area id
  let (curve, report) ←
    noted (old.put update config.gridMatchTolerance config.defaultUncertainty)
  putArea id curve
  forgetGrid
  return report

/-- Replaces the exposure time of an effective area. -/
def setExposure (id : AreaId) (exposure : α) : SessionM α Unit := do
  putArea id (← (← area id).setExposure exposure)

/-- Gives away an effective area that nothing uses. -/
def deleteArea (id : AreaId) : SessionM α (EffectiveArea α) := do
  let (curve, areas) ← (← get).areas.remove id
  setAreas areas
  return curve

/-- Lets an effective area go as soon as nothing uses it. -/
def releaseArea (id : AreaId) : SessionM α Unit := do
  setAreas (← (← get).areas.setRetained id false)
  let _ ← compact

/-! ### Matrices -/

/-- Takes in a matrix, on whatever channels it stands. -/
def takeMatrix (matrix : ResponseMatrix α) : SessionM α MatrixId := insertMatrix matrix true

/-- Takes in a matrix as it was built. -/
def addMatrix (matrix : Redistribution α) : SessionM α MatrixId :=
  takeMatrix (.ofRedistribution matrix)

/-- Reads a matrix and takes it in. -/
def loadMatrix (file : CalibrationFile α) : SessionM α MatrixId := do
  addMatrix (← noted (Redistribution.read file))

/-- Gives away a matrix that nothing uses. -/
def deleteMatrix (id : MatrixId) : SessionM α (ResponseMatrix α) := do
  let (matrix, matrices) ← (← get).matrices.remove id
  setMatrices matrices
  return matrix

/-- Lets a matrix go as soon as nothing uses it. -/
def releaseMatrix (id : MatrixId) : SessionM α Unit := do
  setMatrices (← (← get).matrices.setRetained id false)
  let _ ← compact

/-- Moves a matrix to other channels, unless several spectra use it. -/
def rebinMatrix (id : MatrixId) (target : Grid α) (threshold : α) : SessionM α Bool := do
  let sharers := (← get).sharers id
  if 1 < sharers then throw (.session (.sharedMatrix id sharers))
  moveChannels id target threshold

/-! ### Responses -/

/-- Requires the members of a pair to fit each other and a spectrum. Energy grids that differ are noted
only. -/
def checkPair (config : Config α) (id : SpectrumId) (spectrum : Spectrum α) (pair : ResponsePair)
    (area : EffectiveArea α) (matrix : ResponseMatrix α) : Noted α Unit := do
  let binFault : Nat → Nat → Fault α := fun e a => .session (.pairBins pair e a)
  requireLength binFault matrix.current.energyCount area.length
  Noted.warnIf (!area.grid.agrees matrix.current.energies config.gridMatchTolerance)
    (.gridsDiffer pair config.gridMatchTolerance)
  let channelFault : Nat → Nat → Fault α := fun e a => .session (.pairChannels id pair.matrix e a)
  requireLength channelFault spectrum.observedCount matrix.native.channelCount

/-- Adds a response pair to a spectrum. -/
def assign (id : SpectrumId) (pair : ResponsePair) : SessionM α Unit := do
  let area ← area pair.area
  let matrix ← matrix pair.matrix
  let spectrum ← spectrum id
  noted (checkPair (← get).config id spectrum pair area matrix)
  acquirePair pair
  let record ← record id
  putRecord id { record with assigned := record.assigned ++ [pair] }
  restoreShared pair.matrix
  refreshFit id

/-- Takes all response pairs from a spectrum. -/
def unassign (id : SpectrumId) : SessionM α Unit := do
  let before ← record id
  putRecord id { before with assigned := [] }
  before.assigned.forM releasePair
  refreshFit id

end SpectralResponse.Session
