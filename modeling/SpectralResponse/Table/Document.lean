import SpectralResponse.Json.Parser
import SpectralResponse.Table.Basic

/-!
# Calibration documents

The JSON form of calibration files. The kind of a keyword and the shape of a column are not written
down; the reader takes them from the value: an integer that fits a 64-bit word is an integer keyword,
any other number a real one, and a list whose items are all numbers is a column with one number for
each row.
-/

namespace SpectralResponse

variable {α : Type} [Scalar α]

/-! ### Reading -/

/-- The keyword that a value stands for. -/
def Keyword.ofJson? : Json α → Option (Keyword α)
  | .bool value => some (.flag value)
  | .text value => some (.text value)
  | j =>
    match j.asWord? with
    | some value => some (.integer value)
    | none => j.asScalar?.map .real

/-- The column that a value stands for. -/
def Column.ofJson? (j : Json α) : Option (Column α) :=
  match j.asList? Json.asScalar? with
  | some values => some (.fixed values)
  | none => (j.asList? (Json.asList? Json.asScalar?)).map .lists

/-- The catalog that an object stands for. -/
def Catalog.ofJson? {β : Type} (item? : Json α → Option β) : Json α → Option (Catalog β)
  | .object members =>
    (members.mapM fun m => (item? m.2).map fun entry => (m.1, entry)).map Catalog.ofList
  | _ => none

/-- The table that an object stands for. Only the name must be there. -/
def Extension.ofJson? (j : Json α) : Option (Extension α) := do
  let name ← j.memberAs? "name" Json.asText?
  let keywords ← j.memberOr? "keywords" .empty (Catalog.ofJson? Keyword.ofJson?)
  let columns ← j.memberOr? "columns" .empty (Catalog.ofJson? Column.ofJson?)
  let columnKeywords ←
    j.memberOr? "column_keywords" .empty (Catalog.ofJson? (Catalog.ofJson? Keyword.ofJson?))
  return ⟨name, keywords, columns, columnKeywords⟩

namespace CalibrationFile

/-- The file that an object stands for. -/
def ofJson? (j : Json α) : Option (CalibrationFile α) := do
  let origin ← j.memberOr? "origin" "" Json.asText?
  let extensions ← j.memberAs? "extensions" (Json.asList? Extension.ofJson?)
  return ⟨origin, extensions⟩

/-- The file of a document that was found at `origin`, unless the document names its own origin. -/
def ofDocument (origin : String) (document? : Option (Json α)) :
    Except (Fault α) (CalibrationFile α) :=
  match document?.bind ofJson? with
  | some file => .ok (if file.origin.isEmpty then { file with origin } else file)
  | none => .error (.table (.malformed origin))

/-- The file that a text found at `origin` stands for. -/
def ofText (origin source : String) : Except (Fault α) (CalibrationFile α) :=
  ofDocument origin (Json.parse? source)

end CalibrationFile

/-! ### Writing -/

omit [Scalar α]

/-- The value of a keyword. -/
def Keyword.toJson : Keyword α → Json α
  | flag value => .bool value
  | integer value => .whole value
  | real value => .real value
  | text value => .text value

/-- The cells of a column. -/
def Column.toJson : Column α → Json α
  | fixed values => .reals values
  | lists rows => .list (rows.map Json.reals)

/-- The entries of a catalog. -/
def Catalog.toJson {β : Type} (entry : β → Json α) (c : Catalog β) : Json α :=
  .object (c.entries.map fun (name, value) => (name, entry value))

/-- A table with all its parts. -/
def Extension.toJson (t : Extension α) : Json α :=
  .object [
    ("name", .text t.name),
    ("keywords", t.keywords.toJson Keyword.toJson),
    ("columns", t.columns.toJson Column.toJson),
    ("column_keywords", t.columnKeywords.toJson (Catalog.toJson Keyword.toJson))]

/-- A file with all its tables. -/
def CalibrationFile.toJson (file : CalibrationFile α) : Json α :=
  .object [("origin", .text file.origin), ("extensions", .list (file.extensions.map Extension.toJson))]

end SpectralResponse
