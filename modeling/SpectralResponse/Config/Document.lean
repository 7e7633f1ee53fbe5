import SpectralResponse.Config.Basic
import SpectralResponse.Json.Parser

/-!
# Configuration documents

The JSON form of configurations. A document names only the choices it overrides. The choice of the
evaluation grid is an object with a `method`; it is looked through as a whole, so nothing in it may be
unreadable, nor may it be nested beyond `maxDepth`. A unit or a policy is given by its name, or by an
object with that name over no content; within the choice of the grid an empty object, too, is no content.
-/

namespace SpectralResponse

variable {α : Type} [Scalar α]

/-! ### Reading -/

/-- The unit of the given name in documents. -/
def EdgeUnit.ofName? : String → Option EdgeUnit
  | "kev" => some kev
  | "ev" => some ev
  | "mev" => some mev
  | "angstrom" => some angstrom
  | "nm" => some nm
  | _ => none

/-- The policy of the given name. -/
def StatErrorPolicy.ofName? : String → Option StatErrorPolicy
  | "quadrature" => some quadrature
  | "poisson" => some poisson
  | _ => none

/-- The levels that a document may have. -/
def Config.maxDepth : Nat := 127

/-- The choice that an object stands for. -/
def EvaluationChoice.ofJson? (j : Json α) : Option (EvaluationChoice α) := do
  guard (j.isReadable && j.depth < Config.maxDepth)
  match ← j.memberAs? "method" Json.asText? with
  | "separate" => return separate
  | "merged" => return merged
  | "user_defined" =>
    let lo ← j.memberAs? "lo" (Json.asList? Json.asScalar?)
    let hi ← j.memberAs? "hi" (Json.asList? Json.asScalar?)
    let unit ← j.memberOr? "unit" .kev fun name => (name.asVariant? Json.isVoid).bind EdgeUnit.ofName?
    return userDefined lo hi unit
  | _ => none

namespace Config

/-- The configuration that an object stands for. -/
def ofJson? (j : Json α) : Option (Config α) :=
  match j with
  | .object _ => do
    let base : Config α := default
    let gridMatchTolerance ← j.memberOr? "grid_match_tolerance" base.gridMatchTolerance Json.asScalar?
    let matrixRebinThreshold ←
      j.memberOr? "matrix_rebin_threshold" base.matrixRebinThreshold Json.asScalar?
    let useIdealArea ← j.memberOr? "use_ideal_arf" base.useIdealArea Json.asBool?
    let useIdealMatrix ← j.memberOr? "use_ideal_rmf" base.useIdealMatrix Json.asBool?
    let areaExtensions ←
      j.memberOr? "arf_extension_names" base.areaExtensions (Json.asList? Json.asText?)
    let statErrorPolicy ← j.memberOr? "stat_err_policy" base.statErrorPolicy fun name =>
      (name.asVariant? Json.isNull).bind StatErrorPolicy.ofName?
    let defaultUncertainty ← j.memberOr? "default_uncertainty" base.defaultUncertainty Json.asScalar?
    let rebinMatrixWithData ← j.memberOr? "rebin_matrix_with_data" base.rebinMatrixWithData Json.asBool?
    let evaluation ← j.memberOr? "eval_grid" base.evaluation EvaluationChoice.ofJson?
    return {
      gridMatchTolerance, matrixRebinThreshold, useIdealArea, useIdealMatrix, areaExtensions,
      statErrorPolicy, defaultUncertainty, rebinMatrixWithData, evaluation }
  | _ => none

/-- The configuration that a text stands for. -/
def ofText? (source : String) : Option (Config α) := (Json.parse? source).bind ofJson?

end Config

/-! ### Writing -/

omit [Scalar α]

/-- The name of a unit in documents. -/
def EdgeUnit.name : EdgeUnit → String
  | kev => "kev"
  | ev => "ev"
  | mev => "mev"
  | angstrom => "angstrom"
  | nm => "nm"

/-- The name of a policy in documents. -/
def StatErrorPolicy.name : StatErrorPolicy → String
  | quadrature => "quadrature"
  | poisson => "poisson"

/-- A choice of the evaluation grid. -/
def EvaluationChoice.toJson : EvaluationChoice α → Json α
  | separate => .object [("method", .text "separate")]
  | merged => .object [("method", .text "merged")]
  | userDefined lo hi unit =>
    .object [
      ("method", .text "user_defined"), ("lo", .reals lo), ("hi", .reals hi),
      ("unit", .text unit.name)]

/-- A configuration with every choice. -/
def Config.toJson (c : Config α) : Json α :=
  .object [
    ("grid_match_tolerance", .real c.gridMatchTolerance),
    ("matrix_rebin_threshold", .real c.matrixRebinThreshold),
    ("use_ideal_arf", .bool c.useIdealArea),
    ("use_ideal_rmf", .bool c.useIdealMatrix),
    ("arf_extension_names", .list (c.areaExtensions.map .text)),
    ("stat_err_policy", .text c.statErrorPolicy.name),
    ("default_uncertainty", .real c.defaultUncertainty),
    ("rebin_matrix_with_data", .bool c.rebinMatrixWithData),
    ("eval_grid", c.evaluation.toJson)]

end SpectralResponse
