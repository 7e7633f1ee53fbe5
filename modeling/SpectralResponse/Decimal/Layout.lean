import SpectralResponse.Decimal.Shortest

/-!
# Layouts of decimals

How the digits of a decimal are set out as text. Messages use the positional layout, which never has
an exponent and never ends in a point and a zero. Documents use the mixed layout, which keeps a point
in every number and turns to an exponent for very small and very large ones.
-/

namespace SpectralResponse.Decimal

/-- A run of zeros. -/
def zeros (count : Nat) : String := String.ofList (List.replicate count '0')

/-- All digits written out around the point: `120`, `1.5`, `0.0025`. -/
def positional (d : Decimal) : String :=
  let digits := toString d.digits
  if 0 ≤ d.exponent then
    if d.digits = 0 then "0" else digits ++ zeros d.exponent.toNat
  else
    let places := (-d.exponent).toNat
    let padded := zeros (places + 1 - digits.length) ++ digits
    let whole := padded.length - places
    String.ofList (padded.toList.take whole) ++ "." ++ String.ofList (padded.toList.drop whole)

/-- One digit, a point with the other digits unless there are none, and the power of ten:
`1e30`, `1.25e-9`. -/
def scientific (d : Decimal) : String :=
  let digits := (toString d.digits).toList
  let power := d.exponent + digits.length - 1
  let rest := digits.drop 1
  String.ofList (digits.take 1) ++ (if rest.isEmpty then "" else "." ++ String.ofList rest) ++ "e" ++
    toString power

/-- Positional, with a point, for numbers from `0.00001` up to `10 ^ 16`; scientific for the rest. -/
def mixed (d : Decimal) : String :=
  if d.digits = 0 then "0.0"
  else
    let point := d.exponent + (toString d.digits).length
    if -5 < point ∧ point ≤ 16 then
      if 0 ≤ d.exponent then d.positional ++ ".0" else d.positional
    else d.scientific

end SpectralResponse.Decimal
