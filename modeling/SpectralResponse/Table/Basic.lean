import SpectralResponse.Decimal.Numeral
import SpectralResponse.Grid.EdgeUnit
import SpectralResponse.Table.Catalog

/-!
# Calibration tables

A calibration product is stored as a list of named extensions. An extension holds keywords, columns of
numbers, and keywords of single columns. A column has either one number for each row or a list of
numbers for each row. Some fields may be stored either as a column or, when they are the same for all
rows, as a keyword (`RowField`).
-/

namespace SpectralResponse

/-- The value of a keyword. -/
inductive Keyword (α : Type) where
  /-- A truth value. -/
  | flag (value : Bool)
  /-- An integer. -/
  | integer (value : Int)
  /-- A real number. -/
  | real (value : α)
  /-- A text. -/
  | text (value : String)
  deriving DecidableEq, Repr

/-- The cells of a column. -/
inductive Column (α : Type) where
  /-- One number for each row. -/
  | fixed (values : List α)
  /-- A list of numbers for each row. -/
  | lists (rows : List (List α))
  deriving DecidableEq, Repr

/-- A field of the rows. -/
inductive RowField (α : Type) where
  /-- The field is stored row by row. -/
  | column (cells : Column α)
  /-- The field is the same for all rows. -/
  | constant (value : α)
  deriving DecidableEq, Repr

/-- Where and how something was observed. -/
structure Observation where
  /-- The observed object. -/
  object : Option String := none
  /-- The instrument. -/
  instrument : Option String := none
  /-- The grating. -/
  grating : Option String := none
  /-- The order of the grating. -/
  order : Option Int := none
  /-- The arm of the grating. -/
  part : Option Int := none
  /-- The number of the source. -/
  sourceId : Option Int := none
  deriving DecidableEq, Repr, Inhabited

/-- A named table with its keywords. -/
structure Extension (α : Type) where
  /-- The name. -/
  name : String
  /-- The keywords of the table. -/
  keywords : Catalog (Keyword α) := .empty
  /-- The columns. -/
  columns : Catalog (Column α) := .empty
  /-- The keywords of single columns. -/
  columnKeywords : Catalog (Catalog (Keyword α)) := .empty

/-- A calibration product as it is stored. -/
structure CalibrationFile (α : Type) where
  /-- Where it comes from, for messages. -/
  origin : String
  /-- The tables. -/
  extensions : List (Extension α)

variable {α : Type} [Scalar α]

/-! ### Keywords -/

namespace Keyword

/-- The keyword as a number; a text counts if it is a numeral. -/
def asScalar? : Keyword α → Option α
  | integer value => some (Scalar.ofInt value)
  | real value => some value
  | text value => (Numeral.ofChars? (Text.trimmed value.toList)).map Numeral.value
  | flag _ => none

/-- The keyword as an integer; a real number counts if it is whole, and a text if it is an integer
numeral. -/
def asInteger? : Keyword α → Option Int
  | integer value => some value
  | real value => if Scalar.isWhole value then some (Scalar.truncToWord value) else none
  | text value => Numeral.wordOfChars? (Text.trimmed value.toList)
  | flag _ => none

/-- The keyword as a text. -/
def asText : Keyword α → String
  | text value => Text.trim value
  | integer value => toString value
  | real value => Scalar.text value
  | flag value => if value then "true" else "false"

end Keyword

/-! ### Cells -/

omit [Scalar α] in
/-- The number of rows of a column. -/
def Column.rowCount : Column α → Nat
  | .fixed values => values.length
  | .lists rows => rows.length

omit [Scalar α] in
/-- The cells of a row of a column. -/
def Column.row (row : Nat) : Column α → List α
  | .fixed values => values[row]?.toList
  | .lists rows => rows[row]?.getD []

omit [Scalar α] in
/-- The cells of a row of a field. -/
def RowField.row (row : Nat) : RowField α → List α
  | .column cells => cells.row row
  | .constant value => [value]

omit [Scalar α] in
/-- The field is the same for all rows. -/
def RowField.isConstant : RowField α → Bool
  | .column _ => false
  | .constant _ => true

/-- The number in a cell, if it is a natural one. -/
def countOfCell (field : String) (row : Nat) (value : α) : Except (Fault α) Nat :=
  if Scalar.isFinite value && !decide (value < 0) && Scalar.isWhole value then
    .ok (Scalar.clamp 0 Scalar.maxCount (Scalar.trunc value)).toNat
  else .error (.table (.notCount field row value))

/-! ### Extensions -/

namespace Extension

variable (t : Extension α)

/-- A keyword of the table. -/
def keyword? (name : String) : Option (Keyword α) := t.keywords.find? name

/-- A keyword as a number. -/
def scalar? (name : String) : Option α := (t.keyword? name).bind Keyword.asScalar?

/-- A keyword as an integer. -/
def integer? (name : String) : Option Int := (t.keyword? name).bind Keyword.asInteger?

/-- A keyword as a text. -/
def text? (name : String) : Option String := (t.keyword? name).map Keyword.asText

/-- A keyword that must be a number. -/
def scalar (name : String) : Except (Fault α) α :=
  match t.scalar? name with
  | some value => .ok value
  | none => .error (.table (.missingKeyword t.name name))

/-- A keyword of a column. -/
def columnKeyword? (column name : String) : Option (Keyword α) :=
  (t.columnKeywords.find? column).bind (·.find? name)

/-- A column. -/
def column? (name : String) : Option (Column α) := t.columns.find? name

/-- A column that must hold one value a row if it is there. -/
def fixedColumn? (name : String) : Except (Fault α) (Option (List α)) :=
  match t.column? name with
  | none => .ok none
  | some (.fixed values) => .ok (some values)
  | some (.lists _) => .error (.table (.variableColumn t.name name))

/-- A column that must be there and hold one value a row. -/
def fixedColumn (name : String) : Except (Fault α) (List α) := do
  match ← t.fixedColumn? name with
  | some values => return values
  | none => throw (.table (.missingColumn t.name name))

/-- The unit of a column, from its keyword `TUNIT` unless that is missing or empty. -/
def columnUnit (column : String) (default : EdgeUnit) : Except (Fault α) EdgeUnit :=
  match (t.columnKeyword? column "TUNIT").map Keyword.asText with
  | some unit => if unit.isEmpty then .ok default else EdgeUnit.ofText unit
  | none => .ok default

/-- A field stored as a column or else as a keyword. -/
def rowField? (name : String) : Option (RowField α) :=
  match t.column? name with
  | some cells => some (.column cells)
  | none => (t.scalar? name).map .constant

/-- A field that must be stored in either way. -/
def rowField (name : String) : Except (Fault α) (RowField α) :=
  match t.rowField? name with
  | some field => .ok field
  | none => .error (.table (.missingField t.name name))

/-- What the keywords tell about the observation. -/
def observation : Observation where
  object := t.text? "OBJECT"
  instrument := t.text? "INSTRUME"
  grating := t.text? "GRATING"
  order := t.integer? "TG_M"
  part := t.integer? "TG_PART"
  sourceId := t.integer? "TG_SRCID"

end Extension

/-! ### Files -/

namespace CalibrationFile

omit [Scalar α] in
/-- The first extension that has the first of the names, else the first that has the second, and so
on. -/
def extension? (file : CalibrationFile α) (candidates : List String) : Option (Extension α) :=
  candidates.findSome? fun candidate =>
    file.extensions.find? fun t => Text.sameFolded (Text.trim t.name) candidate

omit [Scalar α] in
/-- An extension that must be there. -/
def extension (file : CalibrationFile α) (candidates : List String) :
    Except (Fault α) (Extension α) :=
  match file.extension? candidates with
  | some t => .ok t
  | none => .error (.table (.missingExtension file.origin candidates))

end CalibrationFile

end SpectralResponse
