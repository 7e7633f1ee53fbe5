import SpectralResponse.Grid.Basic
import SpectralResponse.Json.Parser

/-!
# Grids in documents

A grid is an object with the lists `lo` and `hi`, which must make a grid.
-/

namespace SpectralResponse

variable {α : Type}

/-- The members that list the edges of bins. -/
def Bin.edgesJson (bins : List (Bin α)) : List (String × Json α) :=
  [("lo", .reals (bins.map Bin.lo)), ("hi", .reals (bins.map Bin.hi))]

/-- The document of a grid. -/
def Grid.toJson (g : Grid α) : Json α := .object (Bin.edgesJson g.bins)

variable [Scalar α]

/-- The grid that a document stands for. -/
def Grid.ofJson? (j : Json α) : Option (Grid α) := do
  let lo ← j.memberAs? "lo" (Json.asList? Json.asScalar?)
  let hi ← j.memberAs? "hi" (Json.asList? Json.asScalar?)
  (Grid.ofEdges lo hi).toOption

end SpectralResponse
