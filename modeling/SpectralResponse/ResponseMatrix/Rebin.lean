import SpectralResponse.InPlace
import SpectralResponse.Rebin.Overlap
import SpectralResponse.ResponseMatrix.Basic

/-!
# Rebinning the channels of a matrix

A matrix can be moved to another channel axis: each row is spread over all channels, moved to the new
axis by overlap, and cut into groups again. The matrix keeps a copy of what it was before the first
such move and always starts from that copy, so moves never compound; moving to the axis of the copy
brings the copy back.

A matrix is moved where it stands (`MatrixEdit.moveChannels`): the copy is taken out of the matrix and put
into what replaces it. What was changed before a fault would stay changed. `ResponseMatrix.rebinChannels`
is the answer of such a move together with the matrix it leaves. Memory is taken to suffice.
-/

namespace SpectralResponse

variable {α : Type}

/-- A matrix together with what it was before it was moved to another channel axis. -/
structure ResponseMatrix (α : Type) where
  /-- The matrix in use. -/
  current : Redistribution α
  /-- The matrix as it was built, once it has been moved. -/
  pristine : Option (Redistribution α)
  deriving DecidableEq, Repr

variable [Scalar α]

/-- Puts a channel in front of groups that start behind it, into the first group if it touches. -/
def prependChannel (channel : Nat) (weight : α) :
    List (ResponseGroup α) → List (ResponseGroup α)
  | [] => [⟨channel, [weight]⟩]
  | g :: gs =>
    if g.first = channel + 1 then ⟨channel, weight :: g.weights⟩ :: gs
    else ⟨channel, [weight]⟩ :: g :: gs

/-- The runs of values above a threshold in a row that starts at a channel. -/
def extractFrom (threshold : α) (channel : Nat) : List α → List (ResponseGroup α)
  | [] => []
  | value :: row =>
    let groups := extractFrom threshold (channel + 1) row
    if threshold < value then prependChannel channel value groups else groups

/-- The runs of values above a threshold in a row over all channels. -/
def extractGroups (threshold : α) (row : List α) : List (ResponseGroup α) :=
  extractFrom threshold 0 row

/-- The matrix moved to another channel axis. -/
def Redistribution.onChannels (m : Redistribution α) (target : Grid α) (threshold : α) :
    Except (Fault α) (Redistribution α) := do
  let rows ← m.rows.mapM fun groups => do
    let row ← rebin target m.channels (m.denseRow groups)
    return extractGroups threshold row
  if Redistribution.weightOfRows rows ≤ 0 then
    throw (.matrix (.nothingLeft target.length target.min target.max threshold))
  return { m with channels := target, rows, layout := { m.layout with threshold } }

namespace ResponseMatrix

/-- A matrix that has not been moved. -/
def ofRedistribution (m : Redistribution α) : ResponseMatrix α := ⟨m, none⟩

variable (m : ResponseMatrix α)

/-- The matrix has been moved to another channel axis. -/
def isRebinned : Bool := m.pristine.isSome

/-- The matrix on its own channels, as it was built. -/
def native : Redistribution α := m.pristine.getD m.current

end ResponseMatrix

/-! ### Moving in place -/

/-- Changes of a matrix that may fail. -/
abbrev MatrixEdit (α β : Type) := InPlace (Fault α) (ResponseMatrix α) β

namespace MatrixEdit

omit [Scalar α] in
/-- Takes out the copy of the matrix as it was built, if there is one. -/
def takePristine : MatrixEdit α (Option (Redistribution α)) := do
  let m ← get
  set { m with pristine := none }
  return m.pristine

/-- Moves the channels to another grid, leaving out weights up to a threshold, and tells whether
anything changed. A grid that is the present one up to rounding changes nothing. -/
def moveChannels (target : Grid α) (threshold : α) : MatrixEdit α Bool := do
  if (← get).current.channels.agrees target Grid.edgeTolerance then return false
  let source := (← get).native
  if source.channels.agrees target Grid.edgeTolerance then
    if let some pristine ← takePristine then set (ResponseMatrix.ofRedistribution pristine)
    return true
  let moved ← source.onChannels target threshold
  let pristine? ← takePristine
  let pristine := pristine?.getD (← get).current
  set (⟨moved, some pristine⟩ : ResponseMatrix α)
  return true

end MatrixEdit

/-- Moves the channels of a matrix: whether anything changed, and the matrix that is left. -/
def ResponseMatrix.rebinChannels (m : ResponseMatrix α) (target : Grid α) (threshold : α) :
    Except (Fault α) (Bool × ResponseMatrix α) :=
  let outcome := (MatrixEdit.moveChannels target threshold).perform m
  outcome.1.map (·, outcome.2)

end SpectralResponse
