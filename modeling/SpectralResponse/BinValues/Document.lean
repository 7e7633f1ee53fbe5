import SpectralResponse.BinValues
import SpectralResponse.Json.Basic

/-!
# Bin values in documents

A number stands for a value of every bin, a list of numbers for a value of each.
-/

namespace SpectralResponse.BinValues

variable {α : Type}

/-- The values that a document stands for, with a reader of single numbers. -/
def ofJson? (number? : Json α → Option α) (j : Json α) : Option (BinValues α) :=
  match j with
  | .list items => (items.mapM number?).map vector
  | j => (number? j).map scalar

/-- The document of the values. -/
def toJson : BinValues α → Json α
  | scalar value => .real value
  | vector values => .reals values

end SpectralResponse.BinValues
