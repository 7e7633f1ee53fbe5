import SpectralResponse.Grid.Basic

/-!
# Rebinning by overlap

Values that are integrals over the bins of one grid are moved to another grid: each source bin shares
its value among the target bins it overlaps, in proportion to the overlapped part of its own width.
`rebin` does this in one sweep over both grids. Target bins that end at or below the start of the
current source bin are passed for good, and for each source bin the target bins are visited up to the
first that starts at or above its end.
-/

namespace SpectralResponse

variable {α : Type} [Scalar α]

/-- The length that two intervals have in common. -/
def Bin.overlap (a b : Bin α) : α :=
  Scalar.greater (Scalar.lesser a.hi b.hi - Scalar.greater a.lo b.lo) 0

/-- A target bin with what it has received so far. -/
structure Cell (α : Type) where
  /-- The bin. -/
  bin : Bin α
  /-- The sum of the shares received. -/
  total : α
  deriving DecidableEq, Repr

/-- The cell after it has received its share of a source bin with the given value. -/
def Cell.receive (source : Bin α) (value : α) (c : Cell α) : Cell α :=
  let shared := source.overlap c.bin
  if 0 < shared then { c with total := c.total + value * (shared / source.width) } else c

/-- Shares the value of a source bin among the cells, up to the first that starts at or above its
end. -/
def deposit (source : Bin α) (value : α) : List (Cell α) → List (Cell α)
  | [] => []
  | c :: cs => if c.bin.lo < source.hi then c.receive source value :: deposit source value cs else c :: cs

/-- Sweeps over source bins with their values. Cells that end at or below the start of the current
source bin are done. -/
def sweep : List (Bin α × α) → List (Cell α) → List α
  | [], cells => cells.map Cell.total
  | (source, value) :: rest, cells =>
    let isPassed := fun c : Cell α => decide (c.bin.hi ≤ source.lo)
    let ahead := cells.dropWhile isPassed
    (cells.takeWhile isPassed).map Cell.total ++
      sweep rest (if value == 0 then ahead else deposit source value ahead)

/-- Moves the integrals over the bins of `source` to the bins of `target`. -/
def rebin (target source : Grid α) (values : List α) : Except RebinFault (List α) :=
  if values.length ≠ source.length then .error (.values source.length values.length)
  else .ok (sweep (source.bins.zip values) (target.bins.map fun b => ⟨b, 0⟩))

/-! ### Weighted means -/

/-- Values, errors and weights of bins. -/
structure Weighted (α : Type) where
  /-- The values. -/
  values : List α
  /-- The errors of the values. -/
  errors : List α
  /-- The weights. -/
  weights : List α
  deriving DecidableEq, Repr

/-- A quotient by a weight; nothing where there is no weight. -/
def perWeight (value weight : α) : α := if 0 < weight then value / weight else 0

/-- Moves values to another grid as weighted means: a target bin gets the mean of the values of the
source bins that overlap it, each with the shared part of its weight, and the error of that mean. -/
def rebinWeighted (target source : Grid α) (w : Weighted α) : Except RebinFault (Weighted α) := do
  if w.values.length ≠ source.length then throw (.values source.length w.values.length)
  if w.errors.length ≠ source.length then throw (.values source.length w.errors.length)
  if w.weights.length ≠ source.length then throw (.weights source.length w.weights.length)
  let numerators ← rebin target source (List.zipWith (· * ·) w.values w.weights)
  let variances ← rebin target source
    (List.zipWith (fun error weight => (error * weight) * (error * weight)) w.errors w.weights)
  let weights ← rebin target source w.weights
  return {
    values := List.zipWith perWeight numerators weights
    errors := List.zipWith (fun variance weight => perWeight (Scalar.sqrt variance) weight) variances weights
    weights }

end SpectralResponse
