import SpectralResponse.Grid.EdgeUnit

/-!
# Configuration

The choices a session works with. Every choice has a default.
-/

namespace SpectralResponse

/-- How the statistical errors of grouped bins are derived. -/
inductive StatErrorPolicy where
  /-- The errors of the observed bins are added in quadrature. -/
  | quadrature
  /-- The square root of the counts is taken, or a default where there are none. -/
  | poisson
  deriving DecidableEq, Repr

/-- The grid that models are evaluated on. -/
inductive EvaluationChoice (α : Type) where
  /-- The grid of each effective area. -/
  | separate
  /-- The union of the grids of all effective areas in use. -/
  | merged
  /-- A grid with the given edges. -/
  | userDefined (lo hi : List α) (unit : EdgeUnit)
  deriving DecidableEq, Repr

/-- The choices a session works with. -/
structure Config (α : Type) where
  /-- The fraction of a bin width by which grids that should agree may differ. -/
  gridMatchTolerance : α
  /-- Weights up to this one are left out when a matrix is rebinned. -/
  matrixRebinThreshold : α
  /-- Effective areas are replaced by unit areas. -/
  useIdealArea : Bool
  /-- Matrices are replaced by the overlap of the grids. -/
  useIdealMatrix : Bool
  /-- The names of extensions that hold an effective area, in the order of preference. -/
  areaExtensions : List String
  /-- How the errors of grouped bins are derived. -/
  statErrorPolicy : StatErrorPolicy
  /-- The uncertainty that stands in for one that is not positive. -/
  defaultUncertainty : α
  /-- Matrices follow the grouping of the spectrum that uses them. -/
  rebinMatrixWithData : Bool
  /-- The grid that models are evaluated on. -/
  evaluation : EvaluationChoice α
  deriving DecidableEq, Repr

namespace Config

variable {α : Type} [Scalar α]

/-- The uncertainty that stands in for one that is not positive, unless configured otherwise. -/
def unitUncertainty : α := 1

/-- The fraction of a bin width by which grids may differ, unless configured otherwise. -/
def matchTolerance : α := 1e-4

/-- The configuration with every choice left at its default. -/
def default : Config α where
  gridMatchTolerance := matchTolerance
  matrixRebinThreshold := 0
  useIdealArea := false
  useIdealMatrix := false
  areaExtensions := ["SPECRESP"]
  statErrorPolicy := .quadrature
  defaultUncertainty := unitUncertainty
  rebinMatrixWithData := true
  evaluation := .separate

instance : Inhabited (Config α) := ⟨default⟩

omit [Scalar α] in
/-- Adds a name of extensions that hold an effective area, unless it is there in some case. -/
def registerAreaExtension (name : String) (c : Config α) : Config α :=
  if c.areaExtensions.any (Text.sameFolded · name) then c
  else { c with areaExtensions := c.areaExtensions ++ [name] }

end Config

end SpectralResponse
