import SpectralResponse.EffectiveArea.Basic

/-!
# Effective areas in calibration tables

The columns `ENERG_LO`, `ENERG_HI` and `SPECRESP` hold the curve, `RESP_ERR` the errors if there are
any, and `FRACEXPO`, a column or a keyword, the fractions of the exposure. Rows may be stored in
descending order of energy.
-/

namespace SpectralResponse.EffectiveArea

variable {α : Type} [Scalar α]

/-- The errors of the areas, or zeros. -/
def readErrors (origin : String) (table : Extension α) (count : Nat) : Except (Fault α) (List α) := do
  match ← table.fixedColumn? "RESP_ERR" with
  | some errors =>
    requireLength (fun e a => .area (.errorColumn origin e a)) count errors.length
    return errors
  | none => return List.replicate count 0

/-- The fractions of the exposure, or one. -/
def readFraction (origin : String) (table : Extension α) (count : Nat) :
    Except (Fault α) (BinValues α) :=
  match table.column? "FRACEXPO" with
  | some (.fixed values) =>
    if values.length = count then .ok (.vector values)
    else .error (.area (.fractionColumn origin))
  | some (.lists _) => .error (.area (.fractionColumn origin))
  | none => .ok (.scalar ((table.scalar? "FRACEXPO").getD 1))

/-- Reads the curve in the first extension that has one of the names. -/
def read (file : CalibrationFile α) (names : List String) : Except (Fault α) (EffectiveArea α) := do
  let table ← file.extension names
  let lo ← table.fixedColumn "ENERG_LO"
  let hi ← table.fixedColumn "ENERG_HI"
  let area ← table.fixedColumn "SPECRESP"
  let unit ← table.columnUnit "ENERG_LO" .kev
  let canonical ← canonicalize lo hi unit
  let count := canonical.grid.length
  requireLength (fun e a => .area (.areaColumn file.origin e a)) count area.length
  let errors ← readErrors file.origin table count
  let fraction ← readFraction file.origin table count
  let exposure ← table.scalar "EXPOSURE"
  let curve ←
    (ofArrays canonical.grid (canonical.arrange area) (canonical.arrange errors) exposure).mapError
      (.inDocument file.origin)
  { curve with observation := table.observation }.setFraction
    (if canonical.reversed then fraction.reverse else fraction)

end SpectralResponse.EffectiveArea
