import SpectralResponse.Fault.Basic
import SpectralResponse.Scalar
import SpectralResponse.Text

/-!
# Diagnostics

What a user is told about a fault: its category, which fixes the exit code of the command line, a tag
that names the rule that was broken, and a sentence. `Fault.diagnostic` holds the wording of the whole
library.
-/

namespace SpectralResponse

/-- The categories of diagnostics. -/
inductive Category where
  /-- Bins are no grid. -/
  | gridInvalid
  /-- Two lengths that should agree do not. -/
  | sizeMismatch
  /-- Something shared would be changed. -/
  | sharedResourceInUse
  /-- Response groups hold nothing usable. -/
  | corruptGroup
  /-- Memory is exhausted. -/
  | allocationFailure
  /-- An input breaks a rule. -/
  | inputValidation
  /-- A file cannot be read or written. -/
  | ioSystem
  /-- A promise of the library is broken. -/
  | internal
  deriving DecidableEq, Repr

namespace Category

/-- The exit code of a command that ends in the category. -/
def exitCode : Category → Nat
  | inputValidation => 2
  | ioSystem => 3
  | gridInvalid => 4
  | sizeMismatch => 5
  | sharedResourceInUse => 6
  | corruptGroup => 7
  | allocationFailure => 8
  | internal => 9

/-- The name of the category. -/
def name : Category → String
  | gridInvalid => "GridInvalid"
  | sizeMismatch => "SizeMismatch"
  | sharedResourceInUse => "SharedResourceInUse"
  | corruptGroup => "CorruptGroup"
  | allocationFailure => "AllocationFailure"
  | inputValidation => "InputValidation"
  | ioSystem => "IoSystem"
  | internal => "Internal"

end Category

/-- What a user is told. -/
structure Diagnostic where
  /-- The category. -/
  category : Category
  /-- The name of the broken rule. -/
  tag : String
  /-- The sentence. -/
  message : String
  deriving DecidableEq, Repr

namespace Diagnostic

/-- The diagnostic of two lengths that should agree: both are always told. -/
def sizeMismatch (tag what : String) (expected actual : Nat) : Diagnostic :=
  ⟨.sizeMismatch, tag, s!"{what}: expected {expected}, got {actual}"⟩

/-- The exit code of a command that ends with the diagnostic. -/
def exitCode (d : Diagnostic) : Nat := d.category.exitCode

/-- The line on standard error. -/
def line (d : Diagnostic) : String := s!"ERROR: [{d.tag}] {d.message}"

/-- The full text, with the category. -/
def display (d : Diagnostic) : String := s!"{d.category.name} [{d.tag}] {d.message}"

/-- The diagnostic with the origin of the document it arose in. -/
def inDocument (origin : String) (d : Diagnostic) : Diagnostic :=
  { d with message := s!"'{origin}': {d.message}" }

end Diagnostic

open Diagnostic (sizeMismatch)

variable {α : Type} [Scalar α]

namespace GridFault

/-- The rule that bins break. -/
def tag : GridFault α → String
  | empty => "GRID.EMPTY"
  | lengthMismatch .. => "GRID.LENGTH"
  | nonFinite .. => "GRID.NON_FINITE"
  | nonPositiveWavelength .. => "GRID.WAVELENGTH"
  | nonPositiveWidth .. => "GRID.WIDTH"
  | nonMonotonic .. => "GRID.NON_MONOTONIC"

/-- The fault in words of its own. -/
def detail : GridFault α → String
  | empty => "grid must contain at least one bin"
  | lengthMismatch lo hi => s!"grid edge arrays differ in length: lo={lo}, hi={hi}"
  | nonFinite index value => s!"grid edge must be finite at bin {index}, got {Scalar.text value}"
  | nonPositiveWavelength index value =>
    s!"wavelength edge must be positive at bin {index}, got {Scalar.text value}"
  | nonPositiveWidth index lo hi =>
    s!"bin {index} has non-positive width: lo={Scalar.text lo}, hi={Scalar.text hi}"
  | nonMonotonic index previousHi lo =>
    s!"grid is not monotonic at bin {index}: previous hi={Scalar.text previousHi} > lo={Scalar.text lo}"

/-- The wording of a fault of bins. -/
def diagnostic (fault : GridFault α) : Diagnostic :=
  match fault with
  | lengthMismatch lo hi => sizeMismatch fault.tag "grid hi edges vs lo edges" lo hi
  | _ => ⟨.gridInvalid, fault.tag, fault.detail⟩

end GridFault

namespace RebinFault

/-- The fault in words of its own. -/
def detail : RebinFault → String
  | values bins given => s!"value array has {given} entries but the source grid has {bins} bins"
  | weights bins given => s!"weight array has {given} entries but the source grid has {bins} bins"

/-- The wording of a fault of rebinning. -/
def diagnostic : RebinFault → Diagnostic
  | values bins given => sizeMismatch "REBIN.VALUES" "rebin source values" bins given
  | weights bins given => sizeMismatch "REBIN.WEIGHTS" "rebin source weights" bins given

end RebinFault

/-- The wording of a fault of a table. -/
def TableFault.diagnostic : TableFault α → Diagnostic
  | malformed origin =>
    ⟨.inputValidation, "TABLE.PARSE", s!"failed to parse calibration table '{origin}'"⟩
  | unreadable path => ⟨.ioSystem, "IO.TABLE_READ", s!"failed to read calibration table '{path}'"⟩
  | missingExtension origin candidates =>
    let names := Text.joined ", " candidates
    ⟨.inputValidation, "TABLE.EXTENSION", s!"'{origin}' has no extension named any of [{names}]"⟩
  | missingKeyword extension name =>
    ⟨.inputValidation, "TABLE.KEYWORD",
      s!"extension '{extension}' is missing required numeric keyword '{name}'"⟩
  | missingColumn extension name =>
    ⟨.inputValidation, "TABLE.COLUMN",
      s!"extension '{extension}' is missing required column '{name}'"⟩
  | variableColumn extension name =>
    ⟨.inputValidation, "TABLE.COLUMN_SHAPE",
      s!"column '{name}' in extension '{extension}' must hold one value per row"⟩
  | missingField extension name =>
    ⟨.inputValidation, "TABLE.FIELD",
      s!"extension '{extension}' has neither a column nor a keyword named '{name}'"⟩
  | notCount field row value =>
    ⟨.inputValidation, "TABLE.INTEGER_CELL",
      s!"{field} at row {row} must be a non-negative integer, got {Scalar.text value}"⟩

/-- The wording of a fault of column text. -/
def ColumnsFault.diagnostic : ColumnsFault → Diagnostic
  | notNumber origin line word =>
    ⟨.inputValidation, "ASCII.TOKEN", s!"'{origin}' line {line}: '{word}' is not a number"⟩
  | tooFew origin line expected actual =>
    ⟨.inputValidation, "ASCII.COLUMNS",
      s!"'{origin}' line {line}: expected at least {expected} columns, found {actual}"⟩
  | raggedRow origin line expected actual =>
    sizeMismatch "ASCII.ROW_WIDTH" s!"'{origin}' line {line} column count" expected actual
  | noRows origin => ⟨.inputValidation, "ASCII.EMPTY", s!"'{origin}' contains no data rows"⟩

/-- The wording of a fault of an effective area. -/
def AreaFault.diagnostic : AreaFault α → Diagnostic
  | areas e a => sizeMismatch "ARF.AREA_LENGTH" "effective area values" e a
  | errors e a => sizeMismatch "ARF.ERR_LENGTH" "effective area errors" e a
  | fractions e a => sizeMismatch "ARF.FRACEXPO_LENGTH" "fractional exposure" e a
  | newAreas e a => sizeMismatch "ARF.PUT_AREA_LENGTH" "effective area values" e a
  | newErrors e a => sizeMismatch "ARF.PUT_ERR_LENGTH" "effective area errors" e a
  | newFractions e a =>
    sizeMismatch "ARF.PUT_FRACEXPO_LENGTH" "fractional exposure vs new grid" e a
  | noPositiveArea =>
    ⟨.inputValidation, "ARF.NO_POSITIVE_AREA", "effective area has no positive bins"⟩
  | exposure value =>
    ⟨.inputValidation, "ARF.EXPOSURE",
      s!"exposure must be finite and non-negative, got {Scalar.text value}"⟩
  | areaColumn origin e a =>
    sizeMismatch "ARF.READ_LENGTH" s!"'{origin}' SPECRESP column vs energy grid" e a
  | errorColumn origin e a =>
    sizeMismatch "ARF.READ_ERR_LENGTH" s!"'{origin}' RESP_ERR column vs energy grid" e a
  | fractionColumn origin =>
    ⟨.inputValidation, "ARF.READ_FRACEXPO",
      s!"'{origin}' FRACEXPO column must hold one value per energy bin"⟩

/-- The wording of a fault of a matrix. -/
def MatrixFault.diagnostic : MatrixFault α → Diagnostic
  | rows e a => sizeMismatch "RMF.ROW_COUNT" "matrix rows vs energy grid" e a
  | noWeight dropped =>
    ⟨.corruptGroup, "RMF.NO_VALID_WEIGHT",
      s!"matrix has no positive response weight after validation ({dropped} groups dropped)"⟩
  | foldInput e a => sizeMismatch "RMF.FOLD_INPUT" "fold input vs matrix energy bins" e a
  | foldOutput e a => sizeMismatch "RMF.FOLD_OUTPUT" "fold output vs matrix channels" e a
  | noticeFlags e a =>
    sizeMismatch "RMF.NOTICE_LENGTH" "channel notice mask vs matrix channels" e a
  | channelColumn e a =>
    sizeMismatch "RMF.EBOUNDS_LENGTH" "EBOUNDS CHANNEL column vs E_MIN" e a
  | noWeightColumn origin =>
    ⟨.inputValidation, "RMF.MATRIX_COLUMN", s!"'{origin}' matrix extension has no MATRIX column"⟩
  | columnRows origin column e a =>
    sizeMismatch "RMF.ROW_COUNT" s!"'{origin}' {column} rows vs energy grid" e a
  | crossedSpan start stop =>
    ⟨.internal, "INTERNAL.SLICE", s!"slice index starts at {start} but ends at {stop}"⟩
  | nothingLeft channels lo hi threshold =>
    let range := s!"[{Scalar.text lo}, {Scalar.text hi}] keV"
    ⟨.corruptGroup, "RMF.REBIN_NO_WEIGHT",
      s!"rebinning onto {channels} channels over {range} leaves no response above " ++
        Scalar.text threshold⟩

/-- The rule that values for a grouping break. -/
def GroupedValues.tag : GroupedValues → String
  | sums => "REBIN.SUM_LENGTH"
  | errors => "REBIN.ERR_LENGTH"
  | flags => "REBIN.FLAG_LENGTH"
  | bins => "REBIN.GRID_LENGTH"

/-- The wording of a fault of grouping. -/
def GroupingFault.diagnostic : GroupingFault α → Diagnostic
  | emptyMask => ⟨.inputValidation, "REBIN.EMPTY_MASK", "grouping mask excludes every bin"⟩
  | usableFlags e a => sizeMismatch "REBIN.USABLE_LENGTH" "usable-bin mask vs counts" e a
  | leastCount value =>
    ⟨.inputValidation, "REBIN.MIN_COUNTS",
      s!"minimum counts must be positive, got {Scalar.text value}"⟩
  | values use e a => sizeMismatch use.tag "per-bin values vs grouping mask" e a

/-- The name of a scale in messages. -/
def Scale.name : Scale → String
  | exposure => "exposure"
  | backscal => "BACKSCAL"

/-- The wording of a fault of a spectrum. -/
def SpectrumFault.diagnostic : SpectrumFault α → Diagnostic
  | scale name value =>
    ⟨.inputValidation, "SPECTRUM.SCALE",
      s!"spectrum {name.name} must be positive, got {Scalar.text value}"⟩
  | backgroundScale name value =>
    ⟨.inputValidation, "BACKGROUND.SCALE",
      s!"background {name.name} must be positive, got {Scalar.text value}"⟩
  | counts e a => sizeMismatch "SPECTRUM.COUNTS_LENGTH" "counts" e a
  | statErrors e a => sizeMismatch "SPECTRUM.ERR_LENGTH" "statistical errors" e a
  | sysErrors e a => sizeMismatch "SPECTRUM.SYS_LENGTH" "systematic errors" e a
  | quality e a => sizeMismatch "SPECTRUM.QUALITY_LENGTH" "quality flags" e a
  | background e a => sizeMismatch "SPECTRUM.BACKGROUND_LENGTH" "background counts" e a
  | mask e a => sizeMismatch "SPECTRUM.MASK_LENGTH" "grouping mask" e a
  | noCounts origin =>
    ⟨.inputValidation, "SPECTRUM.COUNTS",
      s!"'{origin}' SPECTRUM extension has neither COUNTS nor RATE"⟩
  | noEdges origin =>
    ⟨.inputValidation, "SPECTRUM.GRID",
      s!"'{origin}' has neither BIN_LO/BIN_HI columns nor an EBOUNDS extension"⟩
  | textColumns origin =>
    ⟨.inputValidation, "ASCII.SPECTRUM", s!"'{origin}' needs lo, hi and counts columns"⟩

/-- The wording of a fault of folding. -/
def KernelFault.diagnostic : KernelFault → Diagnostic
  | transmission =>
    ⟨.inputValidation, "KERNEL.TRANSMISSION", "transmission factors must be finite and non-negative"⟩
  | flux e a => sizeMismatch "KERNEL.FLUX_LENGTH" "model flux vs effective area bins" e a
  | areaMatrix e a =>
    sizeMismatch "KERNEL.ARF_RMF" "effective area bins vs matrix energy bins" e a
  | factors e a =>
    sizeMismatch "KERNEL.TRANSMISSION_LENGTH" "transmission factors vs effective area bins" e a

/-- The wording of a fault of a slot. -/
def SlotFault.diagnostic : SlotFault → Diagnostic
  | unknown _ id => ⟨.inputValidation, "ARENA.UNKNOWN_ID", s!"{id.label} does not exist"⟩
  | overReleased _ id =>
    ⟨.internal, "ARENA.RELEASE", s!"{id.label} released more often than acquired"⟩
  | inUse _ id users =>
    ⟨.sharedResourceInUse, "ARENA.REMOVE_IN_USE",
      s!"{id.label} is still used by {users} reference(s)"⟩

/-- The wording of a fault of a session. -/
def SessionFault.diagnostic : SessionFault → Diagnostic
  | sharedMatrix matrix sharers =>
    ⟨.sharedResourceInUse, "RMF.REBIN_SHARED",
      s!"{matrix.label} is used by {sharers} spectra and cannot be rebinned"⟩
  | pairBins pair e a =>
    sizeMismatch "RESPONSE.ARF_RMF" s!"{pair.area.label} bins vs {pair.matrix.label} energy bins" e a
  | pairChannels spectrum matrix e a =>
    sizeMismatch "RESPONSE.CHANNELS" s!"{matrix.label} channels vs {spectrum.label} bins" e a
  | noFlux area => ⟨.internal, "MODEL.MISSING_FLUX", s!"no model flux for {area.label}"⟩
  | modelLength e a => sizeMismatch "MODEL.LENGTH" "model values vs evaluation grid" e a
  | workingChannels e a => sizeMismatch "RESPONSE.CHANNELS" "matrix channels vs spectrum bins" e a
  | unequalChannels e a => sizeMismatch "FLUX.PAIR_CHANNELS" "response pair channel counts" e a
  | noResponse spectrum =>
    ⟨.internal, "FLUX.NO_RESPONSE", s!"{spectrum.label} has no fit response"⟩
  | fluxWeights e a => sizeMismatch "FLUX.WEIGHT_LENGTH" "response weights vs spectrum bins" e a

/-- The wording of a fault of a command. -/
def CommandFault.diagnostic : CommandFault → Diagnostic
  | spectrumUnreadable path => ⟨.ioSystem, "IO.CLI_SPECTRUM", s!"failed to read spectrum '{path}'"⟩
  | noRow row rows path =>
    ⟨.inputValidation, "INPUT.CLI_ROW",
      s!"row {row} is outside the {rows} energy rows of '{path}'"⟩

/-- The wording of a fault. -/
def Fault.diagnostic : Fault α → Diagnostic
  | grid fault => fault.diagnostic
  | unit name => ⟨.inputValidation, "GRID.UNIT", s!"unsupported grid unit '{name}'"⟩
  | rebin fault => fault.diagnostic
  | table fault => fault.diagnostic
  | columns fault => fault.diagnostic
  | area fault => fault.diagnostic
  | matrix fault => fault.diagnostic
  | grouping fault => fault.diagnostic
  | spectrum fault => fault.diagnostic
  | kernel fault => fault.diagnostic
  | slot fault => fault.diagnostic
  | session fault => fault.diagnostic
  | command fault => fault.diagnostic
  | inDocument origin fault => fault.diagnostic.inDocument origin

end SpectralResponse
