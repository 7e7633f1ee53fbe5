import SpectralResponse.Fault.Basic

/-!
# Warnings

What the library notes without refusing a request. An operation that may warn runs in `Noted`: the
warnings are kept in the order in which they arise, also when the operation fails afterwards.
-/

namespace SpectralResponse

/-- Something a user should know about a request that is carried out. -/
inductive Warning (α : Type) where
  /-- The grid of an effective area was replaced by one with so many bins. -/
  | areaGridChanged (bins : Nat)
  /-- So many errors of an effective area were not positive and became `replacement`. -/
  | areaErrorsReset (count : Nat) (replacement : α)
  /-- So many response groups did not lie inside the channels. -/
  | groupsDropped (dropped channels : Nat)
  /-- So many response weights were negative or no number. -/
  | weightsZeroed (count : Nat)
  /-- The declared number of channels is not the number of channel rows. -/
  | channelCountDiffers (origin : String) (declared : Int) (channels : Nat)
  /-- So many declared groups lack entries. -/
  | groupsTruncated (origin : String) (count : Nat)
  /-- So many statistical errors were not positive and became `replacement`. -/
  | statErrorsReset (count : Nat) (replacement : α)
  /-- An effective area and a matrix that are paired have different energy grids. -/
  | gridsDiffer (pair : ResponsePair) (tolerance : α)
  /-- A matrix cannot follow the grouping of one of its spectra. -/
  | matrixShared (spectrum : SpectrumId) (matrix : MatrixId) (inUse own : Nat)
  deriving Repr

/-- The sentence of a warning. -/
def Warning.message {α : Type} : Warning α → String
  | areaGridChanged .. =>
    "effective area grid changed; it may no longer match the attached redistribution matrix"
  | areaErrorsReset .. => "non-positive effective area uncertainties were reset"
  | groupsDropped .. => "dropped response groups whose channel span is out of range"
  | weightsZeroed .. => "negative or NaN response weights were zeroed"
  | channelCountDiffers .. => "DETCHANS disagrees with the EBOUNDS row count; using EBOUNDS"
  | groupsTruncated .. => "response groups without enough MATRIX entries were dropped"
  | statErrorsReset .. => "non-positive statistical errors were reset"
  | gridsDiffer .. => "effective area and matrix energy grids differ"
  | matrixShared .. => "matrix is shared with other spectra; left on its current channel axis"

/-- Operations that may fail and may warn. -/
abbrev Noted (α : Type) := ExceptT (Fault α) (StateM (List (Warning α)))

namespace Noted

variable {α β : Type}

/-- Notes a warning. -/
def warn (warning : Warning α) : Noted α Unit := modify (· ++ [warning])

/-- Notes a warning if there is reason to. -/
def warnIf (reason : Bool) (warning : Warning α) : Noted α Unit :=
  if reason then warn warning else pure ()

/-- The answer of an operation, with its warnings. -/
def outcome (action : Noted α β) : Except (Fault α) β × List (Warning α) := action.run.run []

/-- The operation, its fault ascribed to a document. -/
def inDocument (origin : String) (action : Noted α β) : Noted α β :=
  ExceptT.mk do
    match ← action.run with
    | .ok value => pure (.ok value)
    | .error fault => pure (.error (.inDocument origin fault))

end Noted

end SpectralResponse
