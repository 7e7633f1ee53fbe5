import SpectralResponse.Grouping.Basic

/-!
# Grouping to a least count

Bins are grouped from the left until each group holds at least a given number of counts. Bins that
cannot be used are left out and close the group in progress. A group that is closed short of the count
joins the group before it if that touches and the total of both reaches the count; otherwise it stays on
its own.
-/

namespace SpectralResponse.Grouping

/-- Where the grouping stands at a bin. -/
structure Progress (α : Type) where
  /-- The sign of the group in progress. -/
  sign : Int
  /-- The sign and the total of the group before, if that touches. -/
  previous : Option (Int × α)
  /-- The number of bins of the group in progress. -/
  bins : Nat
  /-- The total of the group in progress. -/
  total : α

variable {α : Type} [Scalar α]

namespace Progress

/-- Before the first bin. -/
def start : Progress α := ⟨1, none, 0, 0⟩

/-- The sign for a group closed short of the count, and the sign of the next group. -/
def shortSigns (threshold : α) (p : Progress α) : Int × Int :=
  match p.previous with
  | some (sign, total) => if threshold ≤ total + p.total then (sign, p.sign) else (p.sign, -p.sign)
  | none => (p.sign, -p.sign)

/-- The flags of the bins in progress, closed short of the count. -/
def shortFlags (threshold : α) (p : Progress α) : List Int :=
  List.replicate p.bins (p.shortSigns threshold).1

/-- After a bin that cannot be used. -/
def afterGap (threshold : α) (p : Progress α) : Progress α :=
  ⟨if p.bins = 0 then p.sign else (p.shortSigns threshold).2, none, 0, 0⟩

/-- With one more bin in progress. -/
def take (value : α) (p : Progress α) : Progress α :=
  { p with bins := p.bins + 1, total := p.total + value }

/-- After the group in progress has reached the count. -/
def afterGroup (p : Progress α) : Progress α := ⟨-p.sign, some (p.sign, p.total), 0, 0⟩

end Progress

/-- The flags of bins, given with their counts and whether they can be used. -/
def leastCountMask (threshold : α) (p : Progress α) : List (α × Bool) → List Int
  | [] => p.shortFlags threshold
  | (value, usable) :: rest =>
    if usable then
      let next := p.take value
      if threshold ≤ next.total then
        List.replicate next.bins next.sign ++ leastCountMask threshold next.afterGroup rest
      else leastCountMask threshold next rest
    else p.shortFlags threshold ++ 0 :: leastCountMask threshold (p.afterGap threshold) rest

/-- Groups usable bins until each group holds at least `threshold` counts. -/
def leastCount (counts : List α) (usable : List Bool) (threshold : α) :
    Except (Fault α) Grouping := do
  requireLength (fun e a => .grouping (.usableFlags e a)) counts.length usable.length
  if !Scalar.isFinite threshold || threshold ≤ 0 then throw (.grouping (.leastCount threshold))
  ofMask (leastCountMask threshold .start (counts.zip usable))

end SpectralResponse.Grouping
