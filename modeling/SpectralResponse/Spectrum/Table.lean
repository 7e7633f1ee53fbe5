import SpectralResponse.Columns
import SpectralResponse.ResponseMatrix.Table
import SpectralResponse.Spectrum.Basic

/-!
# Spectra in tables and in text

A table of a spectrum has a column of counts, or of rates that are turned into counts with the exposure
time. Edges come from the columns `BIN_LO` and `BIN_HI`; without them, the rows are those of the channel
energies of the same file, in the order in which these are stored. Text has the columns low edge, high
edge, counts and, if there is a fourth, statistical errors.
-/

namespace SpectralResponse.Spectrum

variable {α : Type} [Scalar α]

/-- The edges of a spectrum, with their unit. -/
structure Edges (α : Type) where
  /-- The low edges. -/
  lo : List α
  /-- The high edges. -/
  hi : List α
  /-- The unit. -/
  unit : EdgeUnit

/-- The edges of channel energies in the order in which they were stored. -/
def edgesOfBounds (bounds : ChannelBounds α) : Edges α :=
  let bins := bounds.grid.bins
  let stored := if bounds.rowsReversed != bounds.renumbered then bins.reverse else bins
  ⟨stored.map Bin.lo, stored.map Bin.hi, .kev⟩

/-- Reads the edges of a spectrum. -/
def readEdges (file : CalibrationFile α) (table : Extension α) : Except (Fault α) (Edges α) := do
  match ← table.fixedColumn? "BIN_LO", ← table.fixedColumn? "BIN_HI" with
  | some lo, some hi => return ⟨lo, hi, ← table.columnUnit "BIN_LO" .kev⟩
  | _, _ =>
    let some bounds := file.extension? ["EBOUNDS"] | throw (.spectrum (.noEdges file.origin))
    return edgesOfBounds (← ChannelBounds.read bounds)

/-- Reads the counts of a spectrum, or its rates times the exposure time. -/
def readCounts (origin : String) (table : Extension α) (exposure : α) :
    Except (Fault α) (List α) := do
  match ← table.fixedColumn? "COUNTS", ← table.fixedColumn? "RATE" with
  | some counts, _ => return counts
  | none, some rates => return rates.map (· * exposure)
  | none, none => throw (.spectrum (.noCounts origin))

/-- Reads the columns of a spectrum. -/
def readInput (file : CalibrationFile α) : Except (Fault α) (SpectrumInput α) := do
  let table ← file.extension ["SPECTRUM"]
  let exposure ← table.scalar "EXPOSURE"
  let backscal := (table.scalar? "BACKSCAL").getD 1
  let counts ← readCounts file.origin table exposure
  let errors? ← table.fixedColumn? "STAT_ERR"
  let hasCounts := (table.column? "COUNTS").isSome
  let statErrors := errors?.map fun errors =>
    if hasCounts then errors else errors.map (· * exposure)
  let sysFractions ← table.fixedColumn? "SYS_ERR"
  let quality := (← table.fixedColumn? "QUALITY").map (List.map Scalar.roundToWord)
  let edges ← readEdges file table
  return {
    lo := edges.lo, hi := edges.hi, unit := edges.unit
    counts, statErrors, sysFractions, quality, exposure, backscal
    observation := table.observation }

/-- Reads the spectrum of a file. -/
def read (file : CalibrationFile α) : Noted α (Spectrum α) := do
  let input ← readInput file
  (ofInput input).inDocument file.origin

/-- The columns of a spectrum from the columns of a text. -/
def inputOfColumns (origin : String) (unit : EdgeUnit) : List (List α) → Except (Fault α) (SpectrumInput α)
  | lo :: hi :: counts :: rest =>
    .ok {
      lo, hi, counts, unit
      statErrors := rest.head?
      sysFractions := none
      quality := none
      exposure := 1
      backscal := 1
      observation := {} }
  | _ => .error (.spectrum (.textColumns origin))

/-- The number that a word of column text stands for. -/
def wordValue? (word : List Char) : Option α := (Numeral.ofChars? word).map Numeral.value

/-- The spectrum of a text. -/
def ofText (origin text : String) (unit : EdgeUnit) : Noted α (Spectrum α) := do
  let columns : List (List α) ←
    (Columns.parse wordValue? origin 3 text.toList).mapError (Fault.columns (α := α))
  let input ← inputOfColumns origin unit columns
  ofInput input

end SpectralResponse.Spectrum
