/-!
# Handles of spectra and calibration products

A session keeps spectra, effective areas and response matrices in slots and names each slot by a
handle. Handles of different kinds are told apart by their type.
-/

namespace SpectralResponse

/-- What a slot holds. -/
inductive ProductKind where
  /-- An observed spectrum. -/
  | spectrum
  /-- An effective-area curve. -/
  | area
  /-- A redistribution matrix. -/
  | matrix
  deriving DecidableEq, Repr

/-- The word for a kind in messages. -/
def ProductKind.word : ProductKind → String
  | .spectrum => "spectrum"
  | .area => "arf"
  | .matrix => "rmf"

/-- The name of a slot. -/
structure Handle (kind : ProductKind) where
  /-- The position of the slot. -/
  index : Nat
  deriving DecidableEq, Repr

/-- Names a spectrum. -/
abbrev SpectrumId := Handle .spectrum

/-- Names an effective area. -/
abbrev AreaId := Handle .area

/-- Names a response matrix. -/
abbrev MatrixId := Handle .matrix

/-- The handle as it stands in messages. -/
def Handle.label {kind : ProductKind} (id : Handle kind) : String :=
  kind.word ++ " " ++ toString id.index

/-- Handles come in the order of their slots. -/
def Handle.before {kind : ProductKind} (a b : Handle kind) : Bool := a.index < b.index

/-- Puts a value into an ascending list, unless it is there. -/
def insertAscending {β : Type} (before : β → β → Bool) (x : β) : List β → List β
  | [] => [x]
  | y :: ys =>
    if before x y then x :: y :: ys
    else if before y x then y :: insertAscending before x ys
    else y :: ys

/-- The values of a list in ascending order, each once. -/
def ascending {β : Type} (before : β → β → Bool) (xs : List β) : List β :=
  xs.foldr (insertAscending before) []

/-- An effective area together with the matrix it feeds. -/
structure ResponsePair where
  /-- The effective area. -/
  area : AreaId
  /-- The matrix. -/
  matrix : MatrixId
  deriving DecidableEq, Repr

end SpectralResponse
