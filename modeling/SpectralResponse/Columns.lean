import SpectralResponse.Fault.Basic
import SpectralResponse.Text

/-!
# Columns of text

A table of numbers as plain text: a row on each line, numbers separated by blanks. Empty lines and
lines that start with `#` or `!` are left out. All rows have as many numbers as the first one, which
has at least a given number of them. What counts as a number is left to the reader of words that is
passed in.

The columns grow row by row while the text is read. As long as there are none, no row has been read.
-/

namespace SpectralResponse.Columns

variable {α : Type}

/-- The line holds a row. -/
def isRow (line : List Char) : Bool :=
  match Text.trimmed line with
  | [] => false
  | c :: _ => c != '#' && c != '!'

/-- The lines that hold a row, with their numbers, counted from one. -/
def rowLines (text : List Char) : List (List Char × Nat) :=
  ((Text.lines text).zipIdx 1).filter fun (line, _) => isRow line

/-- Reads the words of a line. -/
def readWords (number? : List Char → Option α) (origin : String) (line : Nat) :
    List (List Char) → Except ColumnsFault (List α)
  | [] => .ok []
  | word :: rest =>
    match number? word with
    | none => .error (.notNumber origin line (String.ofList word))
    | some value => (readWords number? origin line rest).map (value :: ·)

/-- The columns that a row of some length is added to: empty ones if it is the first row, which must
have `least` numbers, else those that there are, if there is one for each number. -/
def columnsFor (origin : String) (least : Nat) (columns : List (List α)) (line width : Nat) :
    Except ColumnsFault (List (List α)) :=
  if columns.isEmpty then
    if width < least then .error (.tooFew origin line least width) else .ok (List.replicate width [])
  else if width = columns.length then .ok columns
  else .error (.raggedRow origin line columns.length width)

/-- Adds the row of a line to the columns, each of which is held with its last number first. -/
def addRow (number? : List Char → Option α) (origin : String) (least : Nat) (columns : List (List α))
    (line : List Char × Nat) : Except ColumnsFault (List (List α)) := do
  let row ← readWords number? origin line.2 (Text.words line.1)
  let columns ← columnsFor origin least columns line.2 row.length
  return List.zipWith List.cons row columns

/-- Reads the columns of a text. -/
def parse (number? : List Char → Option α) (origin : String) (least : Nat) (text : List Char) :
    Except ColumnsFault (List (List α)) := do
  let columns ← (rowLines text).foldlM (addRow number? origin least) []
  if columns.isEmpty then throw (.noRows origin)
  return columns.map List.reverse

/-- The number of rows of a list of columns. -/
def rowCount : List (List α) → Nat
  | [] => 0
  | column :: _ => column.length

end SpectralResponse.Columns
