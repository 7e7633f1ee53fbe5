import SpectralResponse.Scalar
import SpectralResponse.Decimal.Shortest

/-!
# Numerals

Numbers as they are written in column text and in text keywords: an optional sign, then either one of
the words `inf`, `infinity` and `nan` in any case, or digits with an optional point among them and an
optional power of ten. A numeral is read without regard to the scalars in use (`Numeral.ofChars?`) and
turned into a scalar afterwards (`Numeral.value`).
-/

namespace SpectralResponse

/-- A number as written. -/
inductive Numeral where
  /-- Digits with a point and a power of ten. -/
  | decimal (negative : Bool) (magnitude : Decimal)
  /-- The word for an infinite value. -/
  | infinite (negative : Bool)
  /-- The word for a value that is not a number. -/
  | nan
  deriving DecidableEq, Repr

/-- The scalar nearest to a decimal. -/
def Decimal.value {α : Type} [Scalar α] (d : Decimal) : α :=
  OfScientific.ofScientific d.digits (d.exponent < 0) d.exponent.natAbs

namespace Numeral

/-- The natural number that a run of digits stands for. -/
def natOfDigits (digits : List Char) : Nat :=
  digits.foldl (fun n c => 10 * n + (c.toNat - '0'.toNat)) 0

/-- Splits off a leading sign, and tells whether it was a minus. -/
def sign : List Char → Bool × List Char
  | '-' :: cs => (true, cs)
  | '+' :: cs => (false, cs)
  | cs => (false, cs)

/-- A whole number: an optional sign and at least one digit. -/
def wholeOfChars? (cs : List Char) : Option Int :=
  let (negative, digits) := sign cs
  if digits ≠ [] ∧ digits.all Char.isDigit then
    some (if negative then -(natOfDigits digits : Int) else natOfDigits digits)
  else none

/-- A whole number that fits a 64-bit word. -/
def wordOfChars? (cs : List Char) : Option Int :=
  (wholeOfChars? cs).filter fun n => Scalar.minWord ≤ n ∧ n ≤ Scalar.maxWord

/-- The power of ten at the end of a numeral: nothing, or `e` and a whole number. -/
def powerOfChars? : List Char → Option Int
  | [] => some 0
  | c :: cs => if c = 'e' ∨ c = 'E' then wholeOfChars? cs else none

/-- Splits off a point and the digits after it. -/
def fraction : List Char → List Char × List Char
  | '.' :: cs => cs.span Char.isDigit
  | cs => ([], cs)

/-- Digits with an optional point and an optional power of ten; at least one digit stands before the
power. -/
def decimalOfChars? (cs : List Char) : Option Decimal :=
  let (whole, afterWhole) := cs.span Char.isDigit
  let (places, rest) := fraction afterWhole
  if whole = [] ∧ places = [] then none
  else (powerOfChars? rest).map fun power => ⟨natOfDigits (whole ++ places), power - places.length⟩

/-- Reads a numeral that fills the text. -/
def ofChars? (cs : List Char) : Option Numeral :=
  let (negative, magnitude) := sign cs
  match String.ofList (magnitude.map Char.toLower) with
  | "inf" | "infinity" => some (infinite negative)
  | "nan" => some nan
  | _ => (decimalOfChars? magnitude).map (decimal negative)

/-- The scalar that a numeral stands for. -/
def value {α : Type} [Scalar α] : Numeral → α
  | decimal negative magnitude => if negative then -magnitude.value else magnitude.value
  | infinite negative => if negative then -Scalar.infinity else Scalar.infinity
  | nan => Scalar.nan

end Numeral

end SpectralResponse
