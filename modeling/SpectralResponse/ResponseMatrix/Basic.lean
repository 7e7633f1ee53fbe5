import SpectralResponse.CompensatedSum
import SpectralResponse.Table.Basic
import SpectralResponse.Warning

/-!
# Redistribution matrices

A matrix tells for each energy bin with which weight a photon of that energy is counted in each
channel. Rows belong to energy bins in ascending order and hold groups: runs of consecutive channels
with their weights. Channel 0 is the channel of the lowest energy. Groups of a row may overlap, in
which case their weights add up.

Main operations: `Redistribution.ofRawRows` checks groups as they come from a table or from geometry,
`Redistribution.fold` applies the matrix to one value for each energy bin, and
`Redistribution.noticedModelBins` finds the energy bins that matter for a set of channels.

The ends of unchecked groups are computed in 64-bit words, which wrap around, so a group may pass the check
and still end behind the channels. The operations here leave out what such a group says about channels that
do not exist. A program that addresses these channels stops there; `fold?` and its companions, with the
proofs about them, tell when that happens.
-/

namespace SpectralResponse

/-- Consecutive channels with response to one energy bin. -/
structure ResponseGroup (α : Type) where
  /-- The first channel. -/
  first : Nat
  /-- The weights of the channels from the first on. -/
  weights : List α
  deriving DecidableEq, Repr

/-- A group whose span is not checked yet. -/
structure RawGroup (α : Type) where
  /-- The first channel, a 64-bit word; it need not exist. -/
  first : Int
  /-- The weights of the channels from the first on. -/
  weights : List α
  deriving DecidableEq, Repr

/-- Where a matrix comes from. -/
inductive MatrixSource where
  /-- The overlap of energy bins and channels. -/
  | delta
  /-- Groups of a calibration table. -/
  | file
  deriving DecidableEq, Repr

/-- How a matrix was stored and which weights were left out. -/
structure MatrixLayout (α : Type) where
  /-- The number of the first channel. -/
  channelOffset : Int
  /-- Weights up to this one are left out. -/
  threshold : α
  /-- Channel numbers ran against energy. -/
  channelsRenumbered : Bool
  /-- The rows of channel energies were stored in descending order of channel numbers. -/
  boundsReversed : Bool
  /-- The rows of the matrix were stored in descending order of energy. -/
  energiesReversed : Bool
  deriving DecidableEq, Repr

/-- A matrix on one channel axis. -/
structure Redistribution (α : Type) where
  /-- Where it comes from. -/
  source : MatrixSource
  /-- The energy bins. -/
  energies : Grid α
  /-- The energies of the channels. -/
  channels : Grid α
  /-- The groups of each energy bin. -/
  rows : List (List (ResponseGroup α))
  /-- How it was stored. -/
  layout : MatrixLayout α
  /-- What was observed. -/
  observation : Observation
  deriving DecidableEq, Repr

variable {α : Type}

/-- One past the last channel of a group. -/
def ResponseGroup.last (g : ResponseGroup α) : Nat := g.first + g.weights.length

/-- The layout of a matrix that was never stored. -/
def MatrixLayout.plain [Scalar α] : MatrixLayout α := ⟨0, 0, false, false, false⟩

variable [Scalar α]

/-! ### Groups on a channel axis -/

/-- Adds values to a row from a position on; what does not fit the row is left out. -/
def addAt : Nat → List α → List α → List α
  | _, _, [] => []
  | first + 1, values, x :: row => x :: addAt first values row
  | 0, [], row => row
  | 0, value :: values, x :: row => (x + value) :: addAt 0 values row

/-- Adds the groups to a row. -/
def scatter (groups : List (ResponseGroup α)) (row : List α) : List α :=
  groups.foldl (fun row g => addAt g.first g.weights row) row

/-- The channels to which a group gives positive weight. -/
def ResponseGroup.detecting (g : ResponseGroup α) : List Nat :=
  (g.weights.zipIdx g.first).filterMap fun (weight, channel) =>
    if 0 < weight then some channel else none

/-! ### Checking groups -/

namespace RawGroup

/-- The group is taken to lie inside the channels. Its end is a 64-bit word: a group that goes past the
greatest word seems to end before the first channel. -/
def isInside (count : Nat) (g : RawGroup α) : Bool :=
  0 ≤ g.first && Scalar.wrap (g.first + g.weights.length) ≤ count

/-- The weight is negative or no number. -/
def isBadWeight (weight : α) : Bool := Scalar.isNaN weight || weight < 0

/-- The group with zeros in place of bad weights. -/
def clean (g : RawGroup α) : ResponseGroup α :=
  ⟨g.first.toNat, g.weights.map fun weight => if isBadWeight weight then 0 else weight⟩

end RawGroup

namespace Redistribution

variable (m : Redistribution α)

/-- The number of channels. -/
def channelCount : Nat := m.channels.length

/-- The number of energy bins. -/
def energyCount : Nat := m.energies.length

/-- The number of groups. -/
def groupCount : Nat := m.rows.flatten.length

/-- The sum of the weights of a row. -/
def rowWeight (groups : List (ResponseGroup α)) : α :=
  Scalar.sum (groups.map fun g => compensatedSum g.weights)

/-- The sum of the weights of some rows. -/
def weightOfRows (rows : List (List (ResponseGroup α))) : α := compensatedSum (rows.map rowWeight)

/-- The sum of all weights. -/
def totalWeight : α := weightOfRows m.rows

/-- Makes a matrix of unchecked groups. Groups that are not taken to lie inside the channels are dropped and
bad weights become zero, with a warning for each kind; a matrix without positive weight is refused. -/
def ofRawRows (source : MatrixSource) (energies channels : Grid α) (raw : List (List (RawGroup α)))
    (layout : MatrixLayout α) : Noted α (Redistribution α) := do
  let rowFault : Nat → Nat → Fault α := fun e a => .matrix (.rows e a)
  requireLength rowFault energies.length raw.length
  let kept := raw.map (List.filter (RawGroup.isInside channels.length))
  let dropped := raw.flatten.length - kept.flatten.length
  let bad := (kept.flatten.flatMap RawGroup.weights).countP RawGroup.isBadWeight
  Noted.warnIf (0 < dropped) (.groupsDropped dropped channels.length)
  Noted.warnIf (0 < bad) (.weightsZeroed bad)
  let rows := kept.map (List.map RawGroup.clean)
  if weightOfRows rows ≤ 0 then throw (.matrix (.noWeight dropped))
  return { source, energies, channels, rows, layout, observation := {} }

/-- The weights of a row over all channels. -/
def denseRow (groups : List (ResponseGroup α)) : List α :=
  scatter groups (List.replicate m.channelCount 0)

/-- Adds the response of a row to the given value. -/
def foldRow (value : α) (groups : List (ResponseGroup α)) (output : List α) : List α :=
  if value == 0 then output
  else groups.foldl (fun output g => addAt g.first (g.weights.map (value * ·)) output) output

/-- Adds the response to one value for each energy bin to one value for each channel. -/
def fold (input output : List α) : Except (Fault α) (List α) := do
  requireLength (fun e a => .matrix (.foldInput e a)) m.energyCount input.length
  requireLength (fun e a => .matrix (.foldOutput e a)) m.channelCount output.length
  return (input.zip m.rows).foldl (fun output (value, groups) => foldRow value groups output) output

/-- The energy bin matters for the noticed channels: it has positive weight in one of them, or in no
channel at all, so that nothing is dropped silently. -/
def isNoticedRow (notice : List Bool) (groups : List (ResponseGroup α)) : Bool :=
  let detecting := groups.flatMap ResponseGroup.detecting
  detecting.isEmpty || detecting.any fun channel => notice[channel]?.getD false

/-- The energy bins that matter for the noticed channels. -/
def noticedModelBins (notice : List Bool) : Except (Fault α) (List Bool) := do
  requireLength (fun e a => .matrix (.noticeFlags e a)) m.channelCount notice.length
  return m.rows.map (isNoticedRow notice)

end Redistribution

end SpectralResponse
