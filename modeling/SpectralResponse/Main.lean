import SpectralResponse.CommandLine.Run
import SpectralResponse.Scalar.Double
import SpectralResponse.Warning.Record

/-!
# The program

Reads the files that the arguments name, runs the command on them, and prints the report or writes it
to a file. Warnings and refusals go to standard error.
-/

namespace SpectralResponse.CommandLine

/-- The help text. -/
def helpText : String := "Fold X-ray spectra through instrument responses, group them and correct them

Usage: spectral-response [--config FILE] [-v] COMMAND

  fold         predict the counts of a spectrum
  rebin        group a spectrum and report the working bins
  flux         correct a spectrum for its responses
  inspect-rmf  summarize a redistribution matrix

Spectrum options: --spectrum FILE [--unit UNIT] [--arf FILE --rmf FILE]... [--background FILE]
  [--notice LO HI] [--mask FLAGS | --min-counts COUNT] [--output FILE]
Options of fold: --flat DENSITY | --model-table FILE [--model-unit UNIT]
Options of inspect-rmf: FILE [--row ROW]... [--output FILE]"

/-- The texts of the files that can be read. -/
def readFiles (paths : List String) : IO (List (String × String)) :=
  paths.filterMapM fun (path : String) => do
    match ← (IO.FS.readFile path).toBaseIO with
    | .ok text => return some (path, text)
    | .error _ => return none

/-- The files that the arguments name. -/
def filesOf (arguments : List String) : IO Files := do
  match Invocation.ofArguments (α := Float) arguments with
  | .ok invocation =>
    let found ← readFiles invocation.paths
    return fun path => found.lookup path
  | .error _ => return fun _ => none

/-- The folder of a file; empty for a file in the current one. -/
def folder (path : String) : String :=
  String.ofList ((path.toList.reverse.dropWhile (· != '/')).drop 1).reverse

/-- Writes a file, and makes its folder if need be. -/
def writeFile (path text : String) : IO Bool := do
  let write : IO Unit := do
    if folder path ≠ "" then IO.FS.createDirAll (folder path)
    IO.FS.writeFile path text
  return (← write.toBaseIO).toBool

/-- Tells a refusal and gives its exit code. -/
def tellRefusal (refusal : Refusal Float) : IO UInt32 := do
  IO.eprintln refusal.diagnostic.line
  return UInt32.ofNat refusal.diagnostic.exitCode

/-- Delivers what the arguments came to and gives the exit code. -/
def deliver : Except (Refusal Float) (Outcome Float) → IO UInt32
  | .error refusal => tellRefusal refusal
  | .ok .help => do
    IO.println helpText
    return 0
  | .ok (.report document none) => do
    IO.println (reportText Double.documentText document)
    return 0
  | .ok (.report document (some path)) => do
    if ← writeFile path (reportText Double.documentText document ++ "\n") then return 0
    else tellRefusal (.output path)

end SpectralResponse.CommandLine

/-- Runs the program. -/
def main (arguments : List String) : IO UInt32 := do
  let files ← SpectralResponse.CommandLine.filesOf arguments
  let (answer, warnings) := SpectralResponse.CommandLine.run files arguments
  for warning in warnings do
    IO.eprintln ("WARN " ++ warning.toJson.render SpectralResponse.Double.documentText)
  SpectralResponse.CommandLine.deliver answer
