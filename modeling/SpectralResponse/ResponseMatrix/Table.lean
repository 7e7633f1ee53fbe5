import SpectralResponse.ResponseMatrix.Basic

/-!
# Redistribution matrices in calibration tables

The extension of the matrix has a row for each energy bin: the number of groups (`N_GRP`), the first
channel of each group (`F_CHAN`), its number of channels (`N_CHAN`), and the weights of all its groups
in one list (`MATRIX`). Each of the first three may be a keyword instead of a column. The extension
`EBOUNDS` has a row for each channel with its energies.

Both tables may be stored in descending order. Channel numbers may also run against energy. Rows are
brought into ascending order of energy, and channels are renumbered from zero so that channel 0 has the
lowest energy.
-/

namespace SpectralResponse

variable {α : Type} [Scalar α]

/-- The channel axis of a detector. -/
structure ChannelBounds (α : Type) where
  /-- The energies of the channels, in ascending order. -/
  grid : Grid α
  /-- The least channel number. -/
  firstChannel : Int
  /-- The rows were stored in descending order of channel numbers. -/
  rowsReversed : Bool
  /-- Channel numbers run against energy. -/
  renumbered : Bool
  deriving DecidableEq, Repr

namespace ChannelBounds

/-- Channel numbers run downwards, judged by the first and the last of them. -/
def numbersRunDown : List α → Bool
  | [] => false
  | first :: rest => (rest.getLast?).any fun last => last < first

/-- Reads the channel axis of a table of channel energies. -/
def read (table : Extension α) : Except (Fault α) (ChannelBounds α) := do
  let eMin ← table.fixedColumn "E_MIN"
  let eMax ← table.fixedColumn "E_MAX"
  let unit ← table.columnUnit "E_MIN" .kev
  let channels := (← table.fixedColumn? "CHANNEL").getD ((List.range eMin.length).map Scalar.ofNat)
  requireLength (fun e a => .matrix (.channelColumn e a)) eMin.length channels.length
  let rowsReversed := numbersRunDown channels
  let inOrder (values : List α) := if rowsReversed then values.reverse else values
  let canonical ← canonicalize (inOrder eMin) (inOrder eMax) unit
  return {
    grid := canonical.grid
    firstChannel := ((inOrder channels).head?.map Scalar.roundToWord).getD 0
    rowsReversed
    renumbered := canonical.reversed }

end ChannelBounds

/-! ### Groups of a row -/

/-- The value of a group in a row: the only value if there is but one, else the value at the position
of the group. -/
def groupValue? (values : List α) (group : Nat) : Option α :=
  match values with
  | [value] => some value
  | _ => values[group]?

/-- Reads `left` more groups of a row, from number `group` on, when `used` weights have been read and the
given ones have not. Reading stops at the first group that lacks a start, a span or weights; the second part
of the answer is the number of groups that were given up. The number of weights read is a 64-bit word, and
so is the first channel, from which `offset` is taken off. -/
def readGroups (row : Nat) (offset : Int) (starts spans : List α) :
    (left group used : Nat) → (weights : List α) → Except (Fault α) (List (RawGroup α) × Nat)
  | 0, _, _, _ => .ok ([], 0)
  | left + 1, group, used, weights =>
    match groupValue? starts group, groupValue? spans group with
    | some start, some span => do
      let span ← countOfCell "N_CHAN" row span
      if Scalar.maxCount < used + span then
        throw (.matrix (.crossedSpan used (used + span - (Scalar.maxCount + 1))))
      if weights.length < span then return ([], left + 1)
      let (groups, missing) ←
        readGroups row offset starts spans left (group + 1) (used + span) (weights.drop span)
      return (⟨Scalar.wrap (Scalar.roundToWord start - offset), weights.take span⟩ :: groups, missing)
    | _, _ => .ok ([], left + 1)

/-- The fields from which the groups of all rows are read. -/
structure GroupFields (α : Type) where
  /-- The number of groups. -/
  counts : RowField α
  /-- The first channel of each group. -/
  starts : RowField α
  /-- The number of channels of each group. -/
  spans : RowField α
  /-- The weights of all groups. -/
  weights : Column α
  deriving DecidableEq, Repr

/-- Reads the groups of a row. -/
def GroupFields.readRow (fields : GroupFields α) (offset : Int) (row : Nat) :
    Except (Fault α) (List (RawGroup α) × Nat) := do
  let declared := (groupValue? (fields.counts.row row) 0).getD 0
  let count ← countOfCell "N_GRP" row declared
  readGroups row offset (fields.starts.row row) (fields.spans.row row) count 0 0 (fields.weights.row row)

/-- The group with the channels counted from the other end, in 64-bit words. -/
def RawGroup.renumber (channels : Nat) (g : RawGroup α) : RawGroup α :=
  ⟨Scalar.wrap (channels - Scalar.wrap (g.first + g.weights.length)), g.weights.reverse⟩

/-! ### Matrices -/

namespace Redistribution

/-- Requires a column to have a cell for each energy bin. -/
def requireRows (origin name : String) (expected : Nat) (cells : Column α) : Except (Fault α) Unit :=
  requireLength (fun e a => .matrix (.columnRows origin name e a)) expected cells.rowCount

/-- Requires a field that is stored row by row to have a cell for each energy bin. -/
def requireFieldRows (origin name : String) (expected : Nat) : RowField α → Except (Fault α) Unit
  | .column cells => requireRows origin name expected cells
  | .constant _ => .ok ()

/-- The number of the first channel: the keyword `TLMIN` of the column of first channels, else the
least number in the table of channels, else one. -/
def channelOffset (table bounds : Extension α) (firstChannel : Int) : Int :=
  match (table.columnKeyword? "F_CHAN" "TLMIN").bind Keyword.asInteger? with
  | some least => least
  | none => if (bounds.column? "CHANNEL").isSome then firstChannel else 1

/-- The fields of the groups, each with a cell for each energy bin. -/
def groupFields (origin : String) (table : Extension α) (rows : Nat) :
    Except (Fault α) (GroupFields α) := do
  let counts ← table.rowField "N_GRP"
  let starts ← table.rowField "F_CHAN"
  let spans ← table.rowField "N_CHAN"
  let some weights := table.column? "MATRIX" | throw (.matrix (.noWeightColumn origin))
  requireFieldRows origin "N_GRP" rows counts
  requireFieldRows origin "F_CHAN" rows starts
  requireFieldRows origin "N_CHAN" rows spans
  requireRows origin "MATRIX" rows weights
  return { counts, starts, spans, weights }

/-- Reads the groups of all rows and makes a matrix of them, on axes that are read already. -/
def readOnAxes (origin : String) (table : Extension α) (energy : Canonical α)
    (bounds : ChannelBounds α) (offset : Int) : Noted α (Redistribution α) := do
  let rows := energy.grid.length
  let fields ← groupFields origin table rows
  let readRows ← (List.range rows).mapM fun row => liftM (fields.readRow offset row)
  let missing := readRows.foldl (fun total row => total + row.2) 0
  Noted.warnIf (0 < missing) (.groupsTruncated origin missing)
  let raw := energy.arrange (readRows.map Prod.fst)
  let raw :=
    if bounds.renumbered then raw.map (List.map (RawGroup.renumber bounds.grid.length)) else raw
  let layout : MatrixLayout α := {
    channelOffset := offset
    threshold := (table.scalar? "LO_THRES").getD 0
    channelsRenumbered := bounds.renumbered
    boundsReversed := bounds.rowsReversed
    energiesReversed := energy.reversed }
  let m ← (ofRawRows .file energy.grid bounds.grid raw layout).inDocument origin
  return { m with observation := table.observation }

/-- Reads the matrix of a file. -/
def read (file : CalibrationFile α) : Noted α (Redistribution α) := do
  let table ← file.extension ["SPECRESP MATRIX", "MATRIX"]
  let boundsTable ← file.extension ["EBOUNDS"]
  let lo ← table.fixedColumn "ENERG_LO"
  let hi ← table.fixedColumn "ENERG_HI"
  let unit ← table.columnUnit "ENERG_LO" .kev
  let energy : Canonical α ← (canonicalize lo hi unit).mapError Fault.grid
  let bounds ← ChannelBounds.read boundsTable
  let channels := bounds.grid.length
  if let some declared := table.integer? "DETCHANS" then
    Noted.warnIf (declared ≠ channels) (.channelCountDiffers file.origin declared channels)
  readOnAxes file.origin table energy bounds (channelOffset table boundsTable bounds.firstChannel)

end Redistribution

end SpectralResponse
