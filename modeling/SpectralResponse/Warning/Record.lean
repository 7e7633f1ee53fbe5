import SpectralResponse.Json.Basic
import SpectralResponse.Warning

/-!
# Warnings as records

A warning with its sentence and the numbers and names that belong to it, for logs and reports.
-/

namespace SpectralResponse.Warning

variable {α : Type}

/-- The numbers and names of a warning. -/
def fields : Warning α → List (String × Json α)
  | areaGridChanged bins => [("bins", .count bins)]
  | areaErrorsReset count replacement => [("count", .count count), ("replacement", .real replacement)]
  | groupsDropped dropped channels => [("dropped", .count dropped), ("channels", .count channels)]
  | weightsZeroed count => [("count", .count count)]
  | channelCountDiffers origin declared channels =>
    [("origin", .text origin), ("declared", .whole declared), ("channels", .count channels)]
  | groupsTruncated origin count => [("origin", .text origin), ("count", .count count)]
  | statErrorsReset count replacement => [("count", .count count), ("replacement", .real replacement)]
  | gridsDiffer pair tolerance =>
    [("arf", .text pair.area.label), ("rmf", .text pair.matrix.label), ("tolerance", .real tolerance)]
  | matrixShared spectrum matrix inUse own =>
    [("spectrum", .text spectrum.label), ("rmf", .text matrix.label), ("in_use", .count inUse),
      ("own", .count own)]

/-- The record of a warning. -/
def toJson (w : Warning α) : Json α := .object (("message", .text w.message) :: w.fields)

end SpectralResponse.Warning
