import SpectralResponse.Grid.Basic

/-!
# Union of grids

The common refinement of several grids: every edge of any of them cuts, and an interval between
neighbouring edges is kept if its middle lies in a bin of one of the grids. Edges that differ by no
more than rounding are taken as one.
-/

namespace SpectralResponse.Grid

variable {α : Type} [Scalar α]

/-- All edges of a list of grids. -/
def allEdges (grids : List (Grid α)) : List α := grids.flatMap fun g => g.los ++ g.his

/-- The edge lies too close to one that is kept to count as another. -/
def isSameEdge (kept next : α) : Bool :=
  Scalar.abs (next - kept) ≤ edgeTolerance * Scalar.greater (Scalar.abs kept) 1

/-- Leaves out the edges that are the same as the last one kept. -/
def distinctFrom (kept : α) : List α → List α
  | [] => []
  | next :: rest =>
    if isSameEdge kept next then distinctFrom kept rest else next :: distinctFrom next rest

/-- Leaves out repeated edges. -/
def distinct : List α → List α
  | [] => []
  | first :: rest => first :: distinctFrom first rest

/-- Some grid, given by its bins, has a bin that holds the value. -/
def isCovered (grids : List (Array (Bin α))) (value : α) : Bool :=
  grids.any fun bins => (findAmong? bins value).isSome

/-- The middle of a bin. -/
def middle (b : Bin α) : α := 0.5 * (b.lo + b.hi)

/-- The common refinement of the grids. -/
def union (grids : List (Grid α)) : Except (GridFault α) (Grid α) :=
  let edges := distinct ((allEdges grids).mergeSort fun a b => a ≤ b)
  let covers := grids.map fun g => g.bins.toArray
  ofBins ((List.zipWith Bin.mk edges edges.tail).filter fun b => isCovered covers (middle b))

end SpectralResponse.Grid
