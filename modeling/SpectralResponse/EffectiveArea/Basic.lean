import SpectralResponse.BinValues
import SpectralResponse.Table.Basic
import SpectralResponse.Uncertainty
import SpectralResponse.Warning

/-!
# Effective areas

The area with which an instrument collects photons, for each energy bin, with its error, the exposure
time and the fraction of the exposure that counts for a bin. A curve of unit area stands in where no
real one is given. `EffectiveArea.put` replaces the arrays of a curve by others, on another grid if
need be, and leaves exposure and fractions as they are.
-/

namespace SpectralResponse

/-- An effective-area curve. -/
structure EffectiveArea (α : Type) where
  /-- The energy bins. -/
  grid : Grid α
  /-- The area for each bin. -/
  area : List α
  /-- The error of each area. -/
  areaError : List α
  /-- The fraction of the exposure that counts for a bin. -/
  fraction : BinValues α
  /-- The exposure time. -/
  exposure : α
  /-- The curve stands in for one that is not given. -/
  isIdentity : Bool
  /-- What was observed. -/
  observation : Observation
  deriving DecidableEq, Repr

/-- New arrays for an effective area. -/
structure AreaUpdate (α : Type) where
  /-- The low edges. -/
  lo : List α
  /-- The high edges. -/
  hi : List α
  /-- The areas. -/
  area : List α
  /-- The errors of the areas. -/
  areaError : List α
  /-- The unit of the edges. -/
  unit : EdgeUnit

/-- What happened when the arrays of an effective area were replaced. -/
structure PutReport where
  /-- The new grid is not the old one. -/
  gridMismatch : Bool
  /-- The number of errors that had to be replaced. -/
  resetErrors : Nat
  deriving DecidableEq, Repr

namespace EffectiveArea

variable {α : Type} [Scalar α]

/-! ### Checks -/

/-- Requires some area to be positive. -/
def requirePositive (area : List α) : Except (Fault α) Unit :=
  if area.any (0 < ·) then .ok () else .error (.area .noPositiveArea)

/-- Requires an exposure to be finite and not negative. -/
def requireExposure (exposure : α) : Except (Fault α) Unit :=
  if Scalar.isFinite exposure && 0 ≤ exposure then .ok () else .error (.area (.exposure exposure))

/-- Requires values given for each bin to fit a number of bins. -/
def requireFit (fault : Nat → Nat → Fault α) (count : Nat) (values : BinValues α) :
    Except (Fault α) Unit :=
  match values.length? with
  | some length => requireLength fault count length
  | none => .ok ()

/-! ### Construction -/

/-- The curve with the given arrays and the whole exposure for every bin. -/
def ofArrays (grid : Grid α) (area areaError : List α) (exposure : α) :
    Except (Fault α) (EffectiveArea α) := do
  requireLength (fun e a => .area (.areas e a)) grid.length area.length
  requireLength (fun e a => .area (.errors e a)) grid.length areaError.length
  requirePositive area
  requireExposure exposure
  return {
    grid, area, areaError, exposure
    fraction := .scalar 1
    isIdentity := false
    observation := {} }

/-- Unit area on a grid. -/
def identity (grid : Grid α) : EffectiveArea α where
  grid := grid
  area := List.replicate grid.length 1
  areaError := List.replicate grid.length 0
  fraction := .scalar 1
  exposure := 1
  isIdentity := true
  observation := {}

/-! ### Operations -/

variable (curve : EffectiveArea α)

/-- The number of energy bins. -/
def length : Nat := curve.grid.length

/-- The area times the fraction of the exposure, for each bin. -/
def effective : List α :=
  curve.area.zipIdx.map fun (area, index) => area * curve.fraction.get index

/-- Replaces the fractions of the exposure. -/
def setFraction (fraction : BinValues α) : Except (Fault α) (EffectiveArea α) := do
  requireFit (fun e a => .area (.fractions e a)) curve.length fraction
  return { curve with fraction }

/-- Replaces the exposure time. -/
def setExposure (exposure : α) : Except (Fault α) (EffectiveArea α) := do
  requireExposure exposure
  return { curve with exposure }

/-- Checks new arrays and brings them into the order of their grid. -/
def canonicalUpdate (update : AreaUpdate α) : Except (Fault α) (Grid α × List α × List α) := do
  let canonical ← canonicalize update.lo update.hi update.unit
  let count := canonical.grid.length
  requireLength (fun e a => .area (.newAreas e a)) count update.area.length
  requireLength (fun e a => .area (.newErrors e a)) count update.areaError.length
  requireFit (fun e a => .area (.newFractions e a)) count curve.fraction
  requirePositive update.area
  return (canonical.grid, canonical.arrange update.area, canonical.arrange update.areaError)

/-- Replaces the arrays. A grid that is not the old one is accepted with a warning, since a matrix that
was made for the old grid may no longer fit. Errors that are not positive become
`defaultUncertainty`. -/
def put (update : AreaUpdate α) (tolerance defaultUncertainty : α) :
    Noted α (EffectiveArea α × PutReport) := do
  let (grid, area, errors) ← curve.canonicalUpdate update
  let report : PutReport := {
    gridMismatch := !curve.grid.agrees grid tolerance
    resetErrors := Uncertainty.unusableCount errors }
  Noted.warnIf report.gridMismatch (.areaGridChanged grid.length)
  Noted.warnIf (0 < report.resetErrors) (.areaErrorsReset report.resetErrors defaultUncertainty)
  return ({ curve with
    grid, area
    areaError := Uncertainty.reset defaultUncertainty errors
    isIdentity := false }, report)

end EffectiveArea

end SpectralResponse
