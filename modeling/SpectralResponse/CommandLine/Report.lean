import SpectralResponse.Flux
import SpectralResponse.ResponseMatrix.Summary

/-!
# Reports

What the commands tell. A report about a spectrum lists its working bins.
-/

namespace SpectralResponse.CommandLine

/-- Observed and predicted counts of a spectrum. -/
structure FoldReport (α : Type) where
  /-- The spectrum. -/
  spectrum : Spectrum α
  /-- The predicted counts. -/
  predicted : List α
  /-- The scaled background. -/
  background : List α
  /-- The uncertainties for a fit. -/
  uncertainty : List α
  /-- The number of responses that are assigned. -/
  responses : Nat

/-- A grouped spectrum and the matrices that followed it. -/
structure GroupingReport (α : Type) where
  /-- The spectrum. -/
  spectrum : Spectrum α
  /-- The matrices of its responses. -/
  matrices : List (MatrixSummary α)

/-- The weights of an energy row. -/
structure MatrixRow (α : Type) where
  /-- The position of the row. -/
  row : Nat
  /-- The energies. -/
  bin : Bin α
  /-- The weight of every channel. -/
  weights : List α

/-- A matrix and some of its rows. -/
structure MatrixReport (α : Type) where
  /-- The matrix. -/
  summary : MatrixSummary α
  /-- The rows. -/
  rows : List (MatrixRow α)

variable {α : Type}

/-- Observed and predicted counts as JSON. -/
def FoldReport.toJson (r : FoldReport α) : Json α :=
  .object (Bin.edgesJson r.spectrum.working.grid.bins ++ [
    ("notice", .list (r.spectrum.working.notice.map .bool)),
    ("counts", .reals r.spectrum.working.counts),
    ("predicted", .reals r.predicted),
    ("background", .reals r.background),
    ("uncertainty", .reals r.uncertainty),
    ("responses", .count r.responses)])

/-- A grouped spectrum as JSON. -/
def GroupingReport.toJson (r : GroupingReport α) : Json α :=
  .object (Bin.edgesJson r.spectrum.working.grid.bins ++ [
    ("counts", .reals r.spectrum.working.counts),
    ("stat_err", .reals r.spectrum.working.statErrors),
    ("notice", .list (r.spectrum.working.notice.map .bool)),
    ("mask", .list (r.spectrum.grouping.mask.map .whole)),
    ("original_bins", .count r.spectrum.observedCount),
    ("matrices", .list (r.matrices.map MatrixSummary.toJson))])

/-- An energy row as JSON. -/
def MatrixRow.toJson (r : MatrixRow α) : Json α :=
  .object [
    ("row", .count r.row), ("energy_lo", .real r.bin.lo), ("energy_hi", .real r.bin.hi),
    ("weights", .reals r.weights)]

/-- A matrix as JSON. -/
def MatrixReport.toJson (r : MatrixReport α) : Json α :=
  .object [("summary", r.summary.toJson), ("rows", .list (r.rows.map MatrixRow.toJson))]

end SpectralResponse.CommandLine
