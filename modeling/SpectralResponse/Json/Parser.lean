import SpectralResponse.Decimal.Numeral
import SpectralResponse.Json.Basic

/-!
# Reading JSON text

The grammar of JSON without extensions: no leading zeros, no trailing commas, no comments, no control
characters in texts, nothing but blanks after the value. Half of a character, escaped on its own, makes
a value that cannot be read (`Json.broken`).

Values, list items and object members are read by three functions that call each other on what is left
of the text. `fuel` bounds the number of calls; every second call consumes a character, so
`parse?` gives more than enough.
-/

namespace SpectralResponse.Json

variable {α : Type} [Scalar α]

/-- The blanks of JSON. -/
def isBlank (c : Char) : Bool := c == ' ' || c == '\t' || c == '\n' || c == '\r'

/-- The text from its first character that is no blank. -/
def skipBlanks (cs : List Char) : List Char := cs.dropWhile isBlank

/-! ### Texts -/

/-- The value of a hexadecimal digit. -/
def hexDigit? (c : Char) : Option Nat :=
  if '0' ≤ c ∧ c ≤ '9' then some (c.toNat - '0'.toNat)
  else if 'a' ≤ c ∧ c ≤ 'f' then some (c.toNat - 'a'.toNat + 10)
  else if 'A' ≤ c ∧ c ≤ 'F' then some (c.toNat - 'A'.toNat + 10)
  else none

/-- Reads four hexadecimal digits. -/
def hex4? : List Char → Option (Nat × List Char)
  | a :: b :: c :: d :: rest => do
    let a ← hexDigit? a
    let b ← hexDigit? b
    let c ← hexDigit? c
    let d ← hexDigit? d
    return (((a * 16 + b) * 16 + c) * 16 + d, rest)
  | _ => none

/-- The first half of a character that takes two escapes. -/
def isHighHalf (n : Nat) : Bool := 0xD800 ≤ n && n ≤ 0xDBFF

/-- The second half of a character that takes two escapes. -/
def isLowHalf (n : Nat) : Bool := 0xDC00 ≤ n && n ≤ 0xDFFF

/-- Reads the second half of a character, if it comes next. -/
def lowHalf? : List Char → Option (Nat × List Char)
  | '\\' :: 'u' :: rest => (hex4? rest).filter (isLowHalf ·.1)
  | _ => none

/-- Reads a character after `\u`; no character where a half stands alone. -/
def unicodeEscape? (cs : List Char) : Option (Option Char × List Char) := do
  let (n, rest) ← hex4? cs
  if isHighHalf n then
    match lowHalf? rest with
    | some (low, rest) => return (some (Char.ofNat (0x10000 + (n - 0xD800) * 0x400 + (low - 0xDC00))), rest)
    | none => return (none, rest)
  else if isLowHalf n then return (none, rest)
  else return (some (Char.ofNat n), rest)

/-- Reads a character after a backslash. -/
def escape? : List Char → Option (Option Char × List Char)
  | '"' :: rest => some (some '"', rest)
  | '\\' :: rest => some (some '\\', rest)
  | '/' :: rest => some (some '/', rest)
  | 'b' :: rest => some (some '\x08', rest)
  | 'f' :: rest => some (some '\x0c', rest)
  | 'n' :: rest => some (some '\n', rest)
  | 'r' :: rest => some (some '\r', rest)
  | 't' :: rest => some (some '\t', rest)
  | 'u' :: rest => unicodeEscape? rest
  | _ => none

/-- Reads a text up to its closing quote, with the characters read so far in reverse order; no text
where half of a character stands alone. -/
def quoted? (fuel : Nat) (read : Option (List Char)) (cs : List Char) :
    Option (Option String × List Char) :=
  match fuel, cs with
  | 0, _ => none
  | _ + 1, [] => none
  | _ + 1, '"' :: rest => some (read.map (String.ofList ·.reverse), rest)
  | fuel + 1, '\\' :: rest => do
    let (c?, rest) ← escape? rest
    quoted? fuel (do return (← c?) :: (← read)) rest
  | fuel + 1, c :: rest => if c.toNat < 0x20 then none else quoted? fuel (read.map (c :: ·)) rest

/-! ### Numbers -/

/-- The digits before the point: a zero alone, or digits that start with another one. -/
def leadingDigits? (cs : List Char) : Option (List Char × List Char) :=
  match cs.span Char.isDigit with
  | ([], _) => none
  | ('0' :: _ :: _, _) => none
  | found => some found

/-- The point and the digits after it, where there is a point. -/
def places? : List Char → Option (Option (List Char) × List Char)
  | '.' :: rest =>
    match rest.span Char.isDigit with
    | ([], _) => none
    | (digits, rest) => some (some digits, rest)
  | cs => some (none, cs)

/-- The power of ten, where there is one. -/
def power? : List Char → Option (Option Int × List Char)
  | c :: rest =>
    if c = 'e' ∨ c = 'E' then
      let (negative, digits) := Numeral.sign rest
      match digits.span Char.isDigit with
      | ([], _) => none
      | (digits, rest) =>
        let size : Int := Numeral.natOfDigits digits
        some (some (if negative then -size else size), rest)
    else some (none, c :: rest)
  | [] => some (none, [])

/-- The greatest natural number of a 64-bit word. -/
def maxNatural : Nat := 18446744073709551615

/-- The value of a number without its sign. A whole number outside the 64-bit words is a real. -/
def signed (negative : Bool) (digits : List Char) : Json α :=
  let size := Numeral.natOfDigits digits
  let fits := if negative then 0 < size ∧ size ≤ 9223372036854775808 else size ≤ maxNatural
  if fits then whole (if negative then -(size : Int) else size)
  else real (Numeral.decimal negative ⟨size, 0⟩).value

/-- Reads a number. -/
def number? (cs : List Char) : Option (Json α × List Char) := do
  let (negative, magnitude) := match cs with
    | '-' :: rest => (true, rest)
    | _ => (false, cs)
  let (digits, rest) ← leadingDigits? magnitude
  let (places, rest) ← places? rest
  let (power, rest) ← power? rest
  match places, power with
  | none, none => return (signed negative digits, rest)
  | _, _ =>
    let places := places.getD []
    let decimal : Decimal := ⟨Numeral.natOfDigits (digits ++ places), power.getD 0 - places.length⟩
    return (real (Numeral.decimal negative decimal).value, rest)

/-! ### Values -/

/-- The text without a given start. -/
def afterWord? (word : String) (cs : List Char) : Option (List Char) :=
  if word.toList.isPrefixOf cs then some (cs.drop word.length) else none

mutual

/-- Reads a value. -/
def value? (fuel : Nat) (cs : List Char) : Option (Json α × List Char) :=
  match fuel with
  | 0 => none
  | fuel + 1 =>
    match skipBlanks cs with
    | '{' :: rest =>
      match skipBlanks rest with
      | '}' :: rest => some (object [], rest)
      | rest => members? fuel (some []) rest
    | '[' :: rest =>
      match skipBlanks rest with
      | ']' :: rest => some (list [], rest)
      | rest => items? fuel [] rest
    | '"' :: rest =>
      (quoted? (rest.length + 1) (some []) rest).map fun (read, rest) =>
        (read.elim broken text, rest)
    | 't' :: rest => (afterWord? "rue" rest).map (bool true, ·)
    | 'f' :: rest => (afterWord? "alse" rest).map (bool false, ·)
    | 'n' :: rest => (afterWord? "ull" rest).map (null, ·)
    | rest => number? rest

/-- Reads the items of a list, with the items read so far in reverse order. -/
def items? (fuel : Nat) (read : List (Json α)) (cs : List Char) : Option (Json α × List Char) :=
  match fuel with
  | 0 => none
  | fuel + 1 => do
    let (item, rest) ← value? fuel cs
    match skipBlanks rest with
    | ',' :: rest => items? fuel (item :: read) rest
    | ']' :: rest => return (list (item :: read).reverse, rest)
    | _ => none

/-- Reads the members of an object, with the members read so far in reverse order; no members once a
name cannot be read. -/
def members? (fuel : Nat) (read : Option (List (String × Json α))) (cs : List Char) :
    Option (Json α × List Char) :=
  match fuel with
  | 0 => none
  | fuel + 1 =>
    match skipBlanks cs with
    | '"' :: rest => do
      let (name, rest) ← quoted? (rest.length + 1) (some []) rest
      match skipBlanks rest with
      | ':' :: rest =>
        let (item, rest) ← value? fuel rest
        let read := do return (← name, item) :: (← read)
        match skipBlanks rest with
        | ',' :: rest => members? fuel read rest
        | '}' :: rest => return (read.elim broken (object ·.reverse), rest)
        | _ => none
      | _ => none
    | _ => none

end

/-- Reads a text that holds one value. -/
def parse? (source : String) : Option (Json α) := do
  let cs := source.toList
  let (value, rest) ← value? (2 * cs.length + 2) cs
  if (skipBlanks rest).isEmpty then return value else none

end SpectralResponse.Json
