import SpectralResponse.Json.Basic
import SpectralResponse.ResponseMatrix.Rebin

/-!
# Summaries of matrices

The sizes, ranges and storage of a matrix at a glance.
-/

namespace SpectralResponse

/-- A matrix at a glance. -/
structure MatrixSummary (α : Type) where
  /-- Where the matrix comes from. -/
  source : MatrixSource
  /-- The number of energy bins. -/
  energyBins : Nat
  /-- The number of channels. -/
  channels : Nat
  /-- The number of groups. -/
  groups : Nat
  /-- The sum of all weights. -/
  totalWeight : α
  /-- The least energy of a photon. -/
  energyMin : α
  /-- The greatest energy of a photon. -/
  energyMax : α
  /-- The least energy of a channel. -/
  channelMin : α
  /-- The greatest energy of a channel. -/
  channelMax : α
  /-- How the matrix was stored. -/
  layout : MatrixLayout α
  /-- The matrix has been moved to another channel axis. -/
  isRebinned : Bool

variable {α : Type}

/-- The name of a source. -/
def MatrixSource.name : MatrixSource → String
  | delta => "delta"
  | file => "file"

/-- The summary of a matrix. -/
def ResponseMatrix.summary [Scalar α] (m : ResponseMatrix α) : MatrixSummary α where
  source := m.current.source
  energyBins := m.current.energyCount
  channels := m.current.channelCount
  groups := m.current.groupCount
  totalWeight := m.current.totalWeight
  energyMin := m.current.energies.min
  energyMax := m.current.energies.max
  channelMin := m.current.channels.min
  channelMax := m.current.channels.max
  layout := m.current.layout
  isRebinned := m.isRebinned

/-- A summary as JSON. -/
def MatrixSummary.toJson (s : MatrixSummary α) : Json α :=
  .object [
    ("backend", .text s.source.name),
    ("energy_bins", .count s.energyBins),
    ("channels", .count s.channels),
    ("groups", .count s.groups),
    ("total_weight", .real s.totalWeight),
    ("energy_min_kev", .real s.energyMin),
    ("energy_max_kev", .real s.energyMax),
    ("channel_min_kev", .real s.channelMin),
    ("channel_max_kev", .real s.channelMax),
    ("channel_offset", .whole s.layout.channelOffset),
    ("threshold", .real s.layout.threshold),
    ("channels_renumbered", .bool s.layout.channelsRenumbered),
    ("ebounds_rows_reversed", .bool s.layout.boundsReversed),
    ("energy_rows_reversed", .bool s.layout.energiesReversed),
    ("rebinned", .bool s.isRebinned)]

end SpectralResponse
