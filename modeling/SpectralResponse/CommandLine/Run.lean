import SpectralResponse.CommandLine.Command
import SpectralResponse.CommandLine.Report
import SpectralResponse.Config.Document
import SpectralResponse.Fault.Diagnostic
import SpectralResponse.Json.Printer
import SpectralResponse.Session.Prediction
import SpectralResponse.Table.Document

/-!
# Running commands

`run` takes the arguments of the program and the texts of the files to a report, a call for help or a
refusal, with the warnings on the way. It reads no file itself: `Files` says what is where, so that the
answer depends on the arguments and the files alone.
-/

namespace SpectralResponse.CommandLine

/-- The texts of files by path; nothing for a path that cannot be read. -/
abbrev Files := String → Option String

/-- Why a command is not carried out. -/
inductive Refusal (α : Type) where
  /-- The arguments are wrong. -/
  | misuse
  /-- A prediction is asked for without a model. -/
  | noModel
  /-- There is not one matrix for each effective area. -/
  | unpaired (areas matrices : Nat)
  /-- A model table lacks columns. -/
  | modelColumns (path : String)
  /-- The configuration cannot be read. -/
  | configuration (path : String)
  /-- The model table cannot be read. -/
  | modelTable (path : String)
  /-- The report cannot be written. -/
  | output (path : String)
  /-- The work itself is refused. -/
  | fault (fault : Fault α)
  deriving Repr

/-- What a command comes to. -/
inductive Outcome (α : Type) where
  /-- Help is asked for. -/
  | help
  /-- A report, for a file if one is named. -/
  | report (document : Json α) (output? : Option String)

/-- Commands, which may be refused and may warn. -/
abbrev CommandM (α : Type) := ExceptT (Refusal α) (StateM (List (Warning α)))

variable {α : Type}

/-! ### Wording -/

/-- The text of a report. -/
def reportText (realText : α → String) (document : Json α) : String := document.pretty realText 0

/-- What a user is told about wrong use. -/
def usageDiagnostic (message : String) : Diagnostic := ⟨.inputValidation, "INPUT.CLI_USAGE", message⟩

/-- What a user is told about a file of the program's own. -/
def fileDiagnostic (message : String) : Diagnostic := ⟨.ioSystem, "IO.CLI", message⟩

/-- The wording of a refusal. -/
def Refusal.diagnostic [Scalar α] : Refusal α → Diagnostic
  | misuse => usageDiagnostic "the arguments cannot be understood; see --help"
  | noModel => usageDiagnostic "fold needs a model: pass --flat or --model-table"
  | unpaired areas matrices =>
    usageDiagnostic
      s!"--arf and --rmf must be given the same number of times ({areas} vs {matrices})"
  | modelColumns path => usageDiagnostic s!"model table '{path}' needs lo, hi and flux columns"
  | configuration path => fileDiagnostic s!"engine configuration: cannot read '{path}'"
  | modelTable path => fileDiagnostic s!"failed to read model table '{path}'"
  | output path => fileDiagnostic s!"failed to write '{path}'"
  | fault f => f.diagnostic

/-! ### Files -/

variable [Scalar α]

/-- The last name of a path; nothing if it leads upwards. -/
def fileName? (path : String) : Option (List Char) :=
  let names := (Text.splitAt (· == '/') path.toList).filter fun name => name ≠ [] ∧ name ≠ ['.']
  names.getLast?.filter (· ≠ ['.', '.'])

/-- The file is named as a JSON document: its name ends in `.json`, in any case, after at least one
other character. -/
def isJsonPath (path : String) : Bool :=
  match fileName? path with
  | some name =>
    let stem := name.reverse.dropWhile (· != '.')
    1 < stem.length && Text.sameFolded (String.ofList (name.drop stem.length)) "json"
  | none => false

/-- Reads a calibration file. -/
def loadTable (files : Files) (path : String) : Except (Fault α) (CalibrationFile α) :=
  match files path with
  | some source => CalibrationFile.ofText path source
  | none => .error (.table (.unreadable path))

/-- Reads a spectrum: a table if the file is named as one, columns of text otherwise. -/
def loadSpectrum (files : Files) (path : String) (unit : EdgeUnit) : Noted α (Spectrum α) := do
  if isJsonPath path then Spectrum.read (← loadTable (α := α) files path)
  else
    match files path with
    | some text => Spectrum.ofText path text unit
    | none => throw (.command (.spectrumUnreadable path))

/-- Reads the configuration. -/
def loadConfig (files : Files) : Option String → Except (Refusal α) (Config α)
  | none => .ok default
  | some path =>
    match (files path).bind Config.ofText? with
    | some config => .ok config
    | none => .error (.configuration path)

/-- Reads a table of bins and fluxes. -/
def loadModelTable (files : Files) (path : String) (unit : EdgeUnit) : Except (Refusal α) (Model α) := do
  let some text := files path | throw (.modelTable path)
  let columns : List (List α) ←
    (Columns.parse Spectrum.wordValue? path 3 text.toList).mapError fun f => .fault (.columns f)
  match columns with
  | lo :: hi :: values :: _ =>
    let canonical ← (canonicalize lo hi unit).mapError fun f => .fault (.grid f)
    return Model.ofTable canonical.grid (canonical.arrange values)
  | _ => throw (.modelColumns path)

/-- The model that is asked for. -/
def loadModel (files : Files) : Option (ModelRequest α) → Except (Refusal α) (Model α)
  | none => .error .noModel
  | some (.flat density) => .ok (Model.flat density)
  | some (.table path unit) => loadModelTable files path unit

/-! ### Preparation -/

/-- Loads a response and assigns it. -/
def assignFiles (files : Files) (id : SpectrumId) (areaPath matrixPath : String) :
    SessionM α Unit := do
  let area ← Session.loadArea (← loadTable (α := α) files areaPath)
  let matrix ← Session.loadMatrix (← loadTable (α := α) files matrixPath)
  Session.assign id ⟨area, matrix⟩

/-- Loads a spectrum with its responses and its background, notices a range and groups it. -/
def prepare (files : Files) (request : SpectrumRequest α) : SessionM α SpectrumId := do
  let spectrum ← Session.noted (loadSpectrum files request.spectrum request.unit)
  let id ← Session.addSpectrum spectrum
  (request.areas.zip request.matrices).forM fun (area, matrix) => assignFiles files id area matrix
  if let some path := request.background? then
    let background ← Session.noted (loadSpectrum files path request.unit)
    Session.setBackground id (← background.asBackground)
  if let some (lo, hi) := request.notice? then
    Session.ignoreAll id
    let _ ← Session.setRange id lo hi request.unit true
  match request.grouping? with
  | some (.mask flags) => Session.rebinSpectrum id flags
  | some (.leastCount threshold) => Session.groupToCount id threshold
  | none => pure ()
  return id

/-- Works on a prepared spectrum in a session of its own. -/
def withSpectrum {β : Type} (files : Files) (config : Config α) (request : SpectrumRequest α)
    (work : SpectrumId → SessionM α β) : CommandM α β := do
  let (areas, matrices) := (request.areas.length, request.matrices.length)
  if areas ≠ matrices then throw (.unpaired areas matrices)
  let start ← (Session.ofConfig config).mapError Refusal.fault
  let ((answer, _), warnings) := Session.run (prepare files request >>= work) start
  modify (· ++ warnings)
  answer.mapError Refusal.fault

/-! ### Commands -/

/-- Predicts the counts of a spectrum. -/
def foldSpectrum (model : Model α) (id : SpectrumId) : SessionM α (FoldReport α) := do
  let prediction ← Session.predictedCounts [id] model
  let record ← Session.record id
  return {
    spectrum := record.spectrum
    predicted := prediction.counts.getLast?.getD []
    background := ← record.spectrum.scaledBackground
    uncertainty := ← record.spectrum.fitUncertainty
    responses := record.assigned.length }

/-- Tells how a spectrum was grouped. -/
def groupSpectrum (id : SpectrumId) : SessionM α (GroupingReport α) := do
  let record ← Session.record id
  let matrices ← record.assigned.mapM fun pair => do return (← Session.matrix pair.matrix).summary
  return ⟨record.spectrum, matrices⟩

/-- The rows asked for, in the order asked. -/
def matrixRows (path : String) (m : ResponseMatrix α) (rows : List Nat) :
    Except (Fault α) (List (MatrixRow α)) :=
  rows.mapM fun row =>
    match m.current.energies.bins[row]?, m.current.rows[row]? with
    | some bin, some groups => .ok ⟨row, bin, m.current.denseRow groups⟩
    | _, _ => .error (.command (.noRow row m.current.energyCount path))

/-- Summarizes the matrix of a file. -/
def inspectMatrix (files : Files) (path : String) (rows : List Nat) : Noted α (MatrixReport α) := do
  let m := ResponseMatrix.ofRedistribution (← Redistribution.read (← loadTable (α := α) files path))
  return ⟨m.summary, ← matrixRows path m rows⟩

/-- Carries out a command. -/
def Command.run (files : Files) (config : Config α) : Command α → CommandM α (Json α)
  | fold request model? => do
    let model ← loadModel files model?
    return (← withSpectrum files config request (foldSpectrum model)).toJson
  | rebin request => do return (← withSpectrum files config request groupSpectrum).toJson
  | flux request => do return (← withSpectrum files config request Session.fluxCorrect).toJson
  | inspect path rows => do
    let (answer, warnings) := (inspectMatrix files path rows).outcome
    modify (· ++ warnings)
    return (← answer.mapError Refusal.fault).toJson

/-- Carries out an invocation. -/
def Invocation.run (files : Files) (i : Invocation α) : CommandM α (Outcome α) := do
  let config ← loadConfig (α := α) files i.config?
  return .report (← i.command.run files config) i.output?

/-- What the arguments come to, with the warnings. -/
def run (files : Files) (arguments : List String) :
    Except (Refusal α) (Outcome α) × List (Warning α) :=
  match Invocation.ofArguments arguments with
  | .ok invocation => (invocation.run files).run.run []
  | .error .help => (.ok .help, [])
  | .error .misuse => (.error .misuse, [])

end SpectralResponse.CommandLine
