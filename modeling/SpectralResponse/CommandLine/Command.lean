import SpectralResponse.CommandLine.Setting
import SpectralResponse.Decimal.Numeral
import SpectralResponse.Grid.EdgeUnit

/-!
# Commands

The four commands and what they need: `fold` predicts the counts of a spectrum, `rebin` groups it,
`flux` corrects it for its responses, and `inspect-rmf` summarizes a matrix. `Invocation.ofArguments`
reads the arguments of the program. The configuration file may be named before or after the command;
after it wins.
-/

namespace SpectralResponse.CommandLine

/-- How a spectrum is to be grouped. -/
inductive GroupingRequest (α : Type) where
  /-- By flags for its bins. -/
  | mask (flags : List Int)
  /-- So that every group has a least count. -/
  | leastCount (threshold : α)
  deriving Repr

/-- A spectrum with all that is to be done to it first. -/
structure SpectrumRequest (α : Type) where
  /-- The file of the spectrum. -/
  spectrum : String
  /-- The unit of the edges in a spectrum in text form, and of the noticed range. -/
  unit : EdgeUnit
  /-- The files of the effective areas. -/
  areas : List String
  /-- The files of the matrices, one for each effective area. -/
  matrices : List String
  /-- The file of the background. -/
  background? : Option String
  /-- The range outside of which bins are ignored. -/
  notice? : Option (α × α)
  /-- How to group. -/
  grouping? : Option (GroupingRequest α)
  deriving Repr

/-- The files of a spectrum. -/
def SpectrumRequest.paths {α : Type} (r : SpectrumRequest α) : List String :=
  [r.spectrum] ++ r.areas ++ r.matrices ++ r.background?.toList

/-- Where the flux of a source comes from. -/
inductive ModelRequest (α : Type) where
  /-- The same density everywhere. -/
  | flat (density : α)
  /-- A file with bins and their fluxes. -/
  | table (path : String) (unit : EdgeUnit)
  deriving Repr

/-- A command. -/
inductive Command (α : Type) where
  /-- Predicts the counts of a spectrum. -/
  | fold (input : SpectrumRequest α) (model? : Option (ModelRequest α))
  /-- Groups a spectrum. -/
  | rebin (input : SpectrumRequest α)
  /-- Corrects a spectrum for its responses. -/
  | flux (input : SpectrumRequest α)
  /-- Summarizes the matrix of a file, with the weights of some energy rows. -/
  | inspect (matrix : String) (rows : List Nat)
  deriving Repr

/-- All that the arguments of the program say. -/
structure Invocation (α : Type) where
  /-- The configuration file. -/
  config? : Option String
  /-- The file for the report, if it is not to be printed. -/
  output? : Option String
  /-- The command. -/
  command : Command α
  deriving Repr

/-- The files that a command reads. -/
def Command.paths {α : Type} : Command α → List String
  | fold request model? => request.paths ++ (match model? with | some (.table path _) => [path] | _ => [])
  | rebin request => request.paths
  | flux request => request.paths
  | inspect matrix _ => [matrix]

/-- The files that an invocation reads. -/
def Invocation.paths {α : Type} (i : Invocation α) : List String := i.config?.toList ++ i.command.paths

/-! ### Values -/

/-- A path: any text with something in it. -/
def path? (text : String) : Option String := if text.isEmpty then none else some text

/-- A count of at most 64 bits. -/
def count? (text : String) : Option Nat :=
  match text.toList with
  | '-' :: _ => none
  | cs => ((Numeral.wholeOfChars? cs).map Int.toNat).filter (· < 18446744073709551616)

/-- A whole number of 32 bits. -/
def flag? (cs : List Char) : Option Int :=
  (Numeral.wordOfChars? cs).filter fun n => -2147483648 ≤ n ∧ n ≤ 2147483647

/-- Flags with commas between them. -/
def flags? (text : String) : Option (List Int) := (Text.splitAt (· == ',') text.toList).mapM flag?

/-- A number. -/
def number? {α : Type} [Scalar α] (text : String) : Option α :=
  (Numeral.ofChars? text.toList).map Numeral.value

/-! ### Grammars -/

/-- The option that names a file. -/
def pathRule (name : String) (repeats : Bool) : OptionRule where
  name
  repeats
  accepts text := (path? text).isSome

/-- The option that gives a number. -/
def numberRule (name : String) : OptionRule where
  name
  accepts text := (Numeral.ofChars? text.toList).isSome

/-- The option that names a unit. -/
def unitRule (name : String) : OptionRule where
  name
  accepts text := (EdgeUnit.ofText? text).isSome

/-- The range to notice: two numbers, of which either may be negative. -/
def noticeRule : OptionRule :=
  { numberRule "notice" with arity := 2, takesNegative := true, repeats := true }

/-- The flags to group by. -/
def maskRule : OptionRule where
  name := "mask"
  accepts text := (flags? text).isSome
  takesNegative := true
  repeats := true

/-- The energy rows to show. -/
def rowRule : OptionRule where
  name := "row"
  accepts text := (count? text).isSome
  repeats := true

/-- The options of all commands. -/
def commonRules : List OptionRule := [pathRule "config" false, pathRule "output" false]

/-- The options that concern a spectrum. -/
def spectrumRules : List OptionRule :=
  [pathRule "spectrum" false, unitRule "unit", pathRule "arf" true, pathRule "rmf" true,
    pathRule "background" false, noticeRule, maskRule, numberRule "min-counts"]

/-- The options that concern a model. -/
def modelRules : List OptionRule :=
  [numberRule "flat", pathRule "model-table" false, unitRule "model-unit"]

/-- What may stand before the command. -/
def Grammar.main : Grammar where
  options := [pathRule "config" false]
  commands := ["fold", "rebin", "flux", "inspect-rmf", "help"]

/-- What may stand after a command. -/
def Grammar.ofCommand? : String → Option Grammar
  | "fold" => some { options := commonRules ++ spectrumRules ++ modelRules }
  | "rebin" => some { options := commonRules ++ spectrumRules }
  | "flux" => some { options := commonRules ++ spectrumRules }
  | "inspect-rmf" =>
    some { options := commonRules ++ [rowRule], place? := some (pathRule "matrix file" false) }
  | _ => none

/-! ### Commands from settings -/

variable {α : Type} [Scalar α]

/-- The settings do not use both of two options. -/
def exclusive (a b : String) (settings : List Setting) : Bool :=
  (value? a settings).isNone || (value? b settings).isNone

/-- The unit that an option names, keV if it is not used. -/
def unitOf? (name : String) (settings : List Setting) : Option EdgeUnit :=
  match value? name settings with
  | some text => EdgeUnit.ofText? text
  | none => some .kev

/-- The noticed range. Of several ranges the first one counts. -/
def noticeOf? (settings : List Setting) : Option (α × α) :=
  match valuesOf "notice" settings with
  | lo :: hi :: _ => do return (← number? lo, ← number? hi)
  | _ => none

/-- The grouping. The flags of several masks are joined. -/
def groupingOf? (settings : List Setting) : Option (GroupingRequest α) :=
  match valuesOf "mask" settings with
  | [] => ((value? "min-counts" settings).bind number?).map .leastCount
  | masks => (masks.mapM flags?).map fun flags => .mask flags.flatten

/-- What is said about a spectrum. -/
def SpectrumRequest.ofSettings? (settings : List Setting) : Option (SpectrumRequest α) := do
  guard (exclusive "mask" "min-counts" settings)
  let spectrum ← value? "spectrum" settings
  let unit ← unitOf? "unit" settings
  return {
    spectrum, unit
    areas := valuesOf "arf" settings
    matrices := valuesOf "rmf" settings
    background? := value? "background" settings
    notice? := noticeOf? settings
    grouping? := groupingOf? settings }

/-- The model. -/
def modelOf? (settings : List Setting) (unit : EdgeUnit) : Option (ModelRequest α) :=
  match value? "model-table" settings with
  | some path => some (.table path unit)
  | none => ((value? "flat" settings).bind number?).map .flat

/-- The command of a name with its settings. -/
def Command.ofSettings? (name : String) (settings : List Setting) : Option (Command α) := do
  match name with
  | "fold" =>
    guard (exclusive "flat" "model-table" settings)
    let unit ← unitOf? "model-unit" settings
    return fold (← SpectrumRequest.ofSettings? settings) (modelOf? settings unit)
  | "rebin" => return rebin (← SpectrumRequest.ofSettings? settings)
  | "flux" => return flux (← SpectrumRequest.ofSettings? settings)
  | "inspect-rmf" =>
    return inspect (← value? "matrix file" settings) (← (valuesOf "row" settings).mapM count?)
  | _ => none

namespace Invocation

/-- Help may be asked for by the word `help`, alone or with the name of one command. -/
def ofHelp : List String → Stop
  | [] => .help
  | [name] => if Grammar.main.commands.contains name then .help else .misuse
  | _ => .misuse

/-- The invocation of a command with its arguments; `outer` was read before the command. -/
def ofCommand (outer : Reading) (name : String) (rest : List String) : Except Stop (Invocation α) := do
  let some grammar := Grammar.ofCommand? name | throw (ofHelp rest)
  let inner ← (← scan grammar rest {}).reading.settle
  let before := (← outer.settle).settings
  match Command.ofSettings? name inner.settings with
  | some command =>
    return {
      config? := (value? "config" inner.settings).or (value? "config" before)
      output? := value? "output" inner.settings
      command }
  | none => throw .misuse

/-- Reads the arguments of the program. -/
def ofArguments (arguments : List String) : Except Stop (Invocation α) := do
  let scanned ← scan .main arguments {}
  match scanned.command? with
  | some (name, rest) => ofCommand scanned.reading name rest
  | none => throw .misuse

end Invocation

end SpectralResponse.CommandLine
