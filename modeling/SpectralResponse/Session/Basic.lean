import SpectralResponse.Arena
import SpectralResponse.EffectiveArea.Table
import SpectralResponse.EvaluationGrid
import SpectralResponse.ResponseMatrix.Delta
import SpectralResponse.ResponseMatrix.Rebin
import SpectralResponse.Spectrum.Table

/-!
# Sessions

A session holds effective areas, matrices and spectra. To each spectrum it keeps two lists of response
pairs: those a user assigned, and those a fit uses, which are the assigned ones or ideal ones that stand
in for them. A product counts one use for each time a pair in one of the lists of a spectrum names it.

Operations run in `SessionM`. An operation that fails part of the way leaves the session in the state it
had reached by then.

Matrices follow the grouping of their spectrum: a matrix that only one spectrum uses is moved to the
working bins of that spectrum (`syncMatrices`), and goes back to its own channels when a second spectrum
comes to use it (`restoreShared`).
-/

namespace SpectralResponse

/-- A spectrum with its responses. -/
structure SpectrumRecord (α : Type) where
  /-- The spectrum. -/
  spectrum : Spectrum α
  /-- The pairs a user assigned. -/
  assigned : List ResponsePair
  /-- The pairs a fit uses. -/
  fit : List ResponsePair

/-- The number of times a matrix is named by the pairs of a spectrum. -/
def SpectrumRecord.matrixUses {α : Type} (id : MatrixId) (r : SpectrumRecord α) : Nat :=
  (r.assigned ++ r.fit).countP fun pair => pair.matrix == id

/-- Effective areas, matrices and spectra that work together. -/
structure Session (α : Type) where
  /-- The configuration. -/
  config : Config α
  /-- The effective areas. -/
  areas : Arena .area (EffectiveArea α)
  /-- The matrices. -/
  matrices : Arena .matrix (ResponseMatrix α)
  /-- The spectra. -/
  spectra : Arena .spectrum (SpectrumRecord α)
  /-- Where models are evaluated. -/
  strategy : EvaluationStrategy α
  /-- The last shared evaluation grid. -/
  cache : EvaluationCache α

/-- Operations of a session, which may fail and may warn. -/
abbrev SessionM (α : Type) := ExceptT (Fault α) (StateT (Session α) (StateM (List (Warning α))))

namespace Session

variable {α : Type}

/-- The answer of an operation, the session it leaves, and its warnings. -/
def run {β : Type} (operation : SessionM α β) (s : Session α) :
    (Except (Fault α) β × Session α) × List (Warning α) :=
  ((ExceptT.run operation).run s).run []

/-- An operation that does not concern the session. -/
def noted {β : Type} (action : Noted α β) : SessionM α β := ExceptT.mk (StateT.lift action.run)

/-- The number of spectra whose pairs name a matrix. -/
def sharers (id : MatrixId) (s : Session α) : Nat :=
  s.spectra.entries.countP fun (_, slot) => 0 < slot.value.matrixUses id

/-! ### Slots -/

/-- An effective area. -/
def area (id : AreaId) : SessionM α (EffectiveArea α) := do (← get).areas.get id

/-- A matrix. -/
def matrix (id : MatrixId) : SessionM α (ResponseMatrix α) := do (← get).matrices.get id

/-- A spectrum with its responses. -/
def record (id : SpectrumId) : SessionM α (SpectrumRecord α) := do (← get).spectra.get id

/-- A spectrum. -/
def spectrum (id : SpectrumId) : SessionM α (Spectrum α) := do return (← record id).spectrum

/-- Takes over new effective areas. -/
def setAreas (areas : Arena .area (EffectiveArea α)) : SessionM α Unit :=
  modify fun s => { s with areas }

/-- Takes over new matrices. -/
def setMatrices (matrices : Arena .matrix (ResponseMatrix α)) : SessionM α Unit :=
  modify fun s => { s with matrices }

/-- Takes over new spectra. -/
def setSpectra (spectra : Arena .spectrum (SpectrumRecord α)) : SessionM α Unit :=
  modify fun s => { s with spectra }

/-- Replaces an effective area. -/
def putArea (id : AreaId) (area : EffectiveArea α) : SessionM α Unit := do
  setAreas (← (← get).areas.put id area)

/-- Replaces a matrix. -/
def putMatrix (id : MatrixId) (matrix : ResponseMatrix α) : SessionM α Unit := do
  setMatrices (← (← get).matrices.put id matrix)

/-- Replaces a spectrum with its responses. -/
def putRecord (id : SpectrumId) (record : SpectrumRecord α) : SessionM α Unit := do
  setSpectra (← (← get).spectra.put id record)

/-- Puts an effective area into a new slot. -/
def insertArea (area : EffectiveArea α) (retained : Bool) : SessionM α AreaId := do
  let (id, areas) := (← get).areas.insert area retained
  setAreas areas
  return id

/-- Puts a matrix into a new slot. -/
def insertMatrix (matrix : ResponseMatrix α) (retained : Bool) : SessionM α MatrixId := do
  let (id, matrices) := (← get).matrices.insert matrix retained
  setMatrices matrices
  return id

/-- Puts a spectrum without responses into a new slot. -/
def insertSpectrum (spectrum : Spectrum α) : SessionM α SpectrumId := do
  let (id, spectra) := (← get).spectra.insert ⟨spectrum, [], []⟩ true
  setSpectra spectra
  return id

/-- Forgets the shared evaluation grid. -/
def forgetGrid : SessionM α Unit := modify fun s => { s with cache := .empty }

/-! ### Uses -/

/-- Counts a use of both products of a pair. -/
def acquirePair (pair : ResponsePair) : SessionM α Unit := do
  setAreas (← (← get).areas.acquire pair.area)
  setMatrices (← (← get).matrices.acquire pair.matrix)

/-- Takes back a use of both products of a pair. -/
def releasePair (pair : ResponsePair) : SessionM α Unit := do
  setAreas (← (← get).areas.release pair.area)
  setMatrices (← (← get).matrices.release pair.matrix)

/-- Frees the products that nothing uses and nobody retains, and counts them. -/
def compact : SessionM α Nat := do
  let (freedAreas, areas) := (← get).areas.compact
  let (freedMatrices, matrices) := (← get).matrices.compact
  setAreas areas
  setMatrices matrices
  return freedAreas + freedMatrices

/-! ### Channel axes -/

variable [Scalar α]

/-- Moves the channels of a matrix where it stands, and tells whether anything changed. -/
def moveChannels (id : MatrixId) (target : Grid α) (threshold : α) : SessionM α Bool := do
  let (answer, left) := (MatrixEdit.moveChannels target threshold).perform (← matrix id)
  putMatrix id left
  answer

/-- Moves one matrix to the working bins of a spectrum, if no other spectrum uses it. -/
def syncMatrix (id : SpectrumId) (record : SpectrumRecord α) (matrixId : MatrixId) :
    SessionM α Unit := do
  let own := record.matrixUses matrixId
  let inUse ← (← get).matrices.inUse matrixId
  if inUse ≠ own then
    noted (Noted.warn (.matrixShared id matrixId inUse own))
  else
    let channels := (← matrix matrixId).native.channels
    if channels.length = record.spectrum.grouping.fineLength then
      let target ← record.spectrum.grouping.grid channels
      let changed ← moveChannels matrixId target (← get).config.matrixRebinThreshold
      if changed then forgetGrid

/-- The matrices that some pairs name, in ascending order. -/
def matricesOf (pairs : List ResponsePair) : List MatrixId :=
  ascending Handle.before (pairs.map ResponsePair.matrix)

/-- Moves the matrices that only this spectrum uses to its working bins, if the configuration asks for
it. -/
def syncMatrices (id : SpectrumId) : SessionM α Unit := do
  if (← get).config.rebinMatrixWithData then
    let record ← record id
    (matricesOf (record.assigned ++ record.fit)).forM (syncMatrix id record)

/-- Takes a matrix that several spectra use back to its own channels. -/
def restoreShared (id : MatrixId) : SessionM α Unit := do
  let shared := 1 < (← get).sharers id
  let m ← matrix id
  if shared && m.isRebinned then
    let _ ← moveChannels id m.native.channels (← get).config.matrixRebinThreshold
    forgetGrid

/-! ### Fit pairs -/

/-- The pair that stands in where nothing is assigned. -/
def unassignedPair (observed : Grid α) : SessionM α ResponsePair := do
  let area ← insertArea (.identity observed) false
  let ideal ← noted (Redistribution.delta observed observed)
  let matrix ← insertMatrix (.ofRedistribution ideal) false
  return ⟨area, matrix⟩

/-- The effective area that a fit uses for an assigned pair. -/
def fitArea (pair : ResponsePair) : SessionM α AreaId := do
  if (← get).config.useIdealArea then
    let exposure := (← area pair.area).exposure
    let ideal := EffectiveArea.identity (← matrix pair.matrix).current.energies
    let ideal ← ideal.setExposure exposure
    insertArea ideal false
  else return pair.area

/-- The matrix that a fit uses for an assigned pair and its effective area. -/
def fitMatrix (observed : Grid α) (pair : ResponsePair) (areaId : AreaId) : SessionM α MatrixId := do
  if (← get).config.useIdealMatrix then
    let energies := (← area areaId).grid
    let ideal ← noted (Redistribution.delta energies observed)
    insertMatrix (.ofRedistribution ideal) false
  else return pair.matrix

/-- The pair that a fit uses for an assigned pair. -/
def fitPair (observed : Grid α) (pair : ResponsePair) : SessionM α ResponsePair := do
  let area ← fitArea pair
  let matrix ← fitMatrix observed pair area
  return ⟨area, matrix⟩

/-- The pairs that a fit uses for the assigned pairs. -/
def fitPairs (observed : Grid α) (assigned : List ResponsePair) : SessionM α (List ResponsePair) :=
  if assigned.isEmpty then do return [← unassignedPair observed]
  else assigned.mapM (fitPair observed)

/-- Derives the pairs that a fit uses from the assigned ones, and lets go of the ones used before. -/
def refreshFit (id : SpectrumId) : SessionM α Unit := do
  let before ← record id
  let fit ← fitPairs before.spectrum.observed.grid before.assigned
  fit.forM acquirePair
  putRecord id { ← record id with fit }
  before.fit.forM releasePair
  let _ ← compact
  forgetGrid
  syncMatrices id

end Session

end SpectralResponse
