import SpectralResponse.BinarySearch
import SpectralResponse.Fault.Basic
import SpectralResponse.Scalar

/-!
# Grids

A grid is a list of energy bins in keV, in ascending order. Gaps between bins are allowed. Bins must
not overlap, except that a bin may start below the end of the bin before it by a slack that rounding
can cause (`Grid.slack`). `Grid.ofBins` checks these rules bin by bin and names the first rule that
the first offending bin breaks.
-/

namespace SpectralResponse

/-- An interval of energies, from `lo` up to but without `hi`. -/
structure Bin (α : Type) where
  /-- The low edge. -/
  lo : α
  /-- The high edge. -/
  hi : α
  deriving DecidableEq, Repr, Inhabited

/-- Bins in ascending order. -/
structure Grid (α : Type) where
  /-- The bins. -/
  bins : List (Bin α)
  deriving DecidableEq, Repr, Inhabited

variable {α : Type} [Scalar α]

/-- The length of the interval. -/
def Bin.width (b : Bin α) : α := b.hi - b.lo

/-- The value lies in the interval. -/
def Bin.contains (b : Bin α) (value : α) : Bool := b.lo ≤ value && value < b.hi

namespace Grid

/-- The share of its size by which an edge may be off through rounding. -/
def edgeTolerance : α := 1e-10

/-- The overlap that is allowed at a pair of edges. -/
def slack (previousHi lo : α) : α :=
  edgeTolerance * Scalar.greater (Scalar.greater (Scalar.abs previousHi) (Scalar.abs lo)) 1

/-! ### Validation -/

/-- Checks one bin against the end of the bin before it. -/
def checkBin (index : Nat) (previousHi? : Option α) (b : Bin α) : Except (GridFault α) Unit := do
  if !Scalar.isFinite b.lo then throw (.nonFinite index b.lo)
  if !Scalar.isFinite b.hi then throw (.nonFinite index b.hi)
  if b.hi ≤ b.lo then throw (.nonPositiveWidth index b.lo b.hi)
  if let some previousHi := previousHi? then
    if slack previousHi b.lo < previousHi - b.lo then throw (.nonMonotonic index previousHi b.lo)

/-- Checks the bins from position `index` on. -/
def checkFrom (index : Nat) (previousHi? : Option α) : List (Bin α) → Except (GridFault α) Unit
  | [] => .ok ()
  | b :: bs => do
    checkBin index previousHi? b
    checkFrom (index + 1) (some b.hi) bs

/-- The grid of a list of bins, if they are one. -/
def ofBins (bins : List (Bin α)) : Except (GridFault α) (Grid α) := do
  if bins.isEmpty then throw .empty
  checkFrom 0 none bins
  return ⟨bins⟩

/-- The grid with the given low and high edges. -/
def ofEdges (lo hi : List α) : Except (GridFault α) (Grid α) := do
  if lo.length ≠ hi.length then throw (.lengthMismatch lo.length hi.length)
  ofBins (List.zipWith Bin.mk lo hi)

/-- The edge number `i` of `count` bins of equal width from `min` to `max`. -/
def linearEdge (min max : α) (count i : Nat) : α :=
  if i < count then min + (max - min) / Scalar.ofNat count * Scalar.ofNat i else max

/-- Divides the range from `min` to `max` into bins of equal width. -/
def linear (min max : α) (count : Nat) : Except (GridFault α) (Grid α) :=
  ofBins ((List.range count).map fun i =>
    ⟨linearEdge min max count i, linearEdge min max count (i + 1)⟩)

/-! ### Views -/

variable (g : Grid α)

/-- The number of bins. -/
def length : Nat := g.bins.length

/-- The low edges. -/
def los : List α := g.bins.map Bin.lo

/-- The high edges. -/
def his : List α := g.bins.map Bin.hi

/-- The widths of the bins. -/
def widths : List α := g.bins.map Bin.width

/-- The low edge of the first bin. -/
def min : α := (g.bins.head?.map Bin.lo).getD 0

/-- The high edge of the last bin. -/
def max : α := (g.bins.getLast?.map Bin.hi).getD 0

/-! ### Look-up and comparison -/

/-- The bin that holds a value. The last bin that starts at or below the value is found by binary
search over the low edges; the value may still lie in the gap above it. -/
def findAmong? (bins : Array (Bin α)) (value : α) : Option Nat :=
  match BinarySearch.partitionPoint (fun b : Bin α => b.lo ≤ value) bins with
  | 0 => none
  | index + 1 => if bins[index]?.any fun b => value < b.hi then some index else none

/-- The bin of the grid that holds a value. -/
def findBin? (value : α) : Option Nat := findAmong? g.bins.toArray value

/-- The edges of two bins agree up to a fraction of the smaller width. -/
def sameBin (tolerance : α) (a b : Bin α) : Bool :=
  let scale := Scalar.lesser a.width b.width
  Scalar.abs (a.lo - b.lo) ≤ tolerance * scale && Scalar.abs (a.hi - b.hi) ≤ tolerance * scale

/-- The grids have the same number of bins, and bin by bin the same edges up to a fraction of the
width. -/
def agrees (other : Grid α) (tolerance : α) : Bool :=
  g.length == other.length &&
    (List.zipWith (sameBin tolerance) g.bins other.bins).all id

end Grid

end SpectralResponse
