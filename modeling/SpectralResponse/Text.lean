/-!
# Text

Blanks, lines, words and letter case. A blank is a character of the Unicode class of white space,
whose 25 members are listed in `isBlank`. Letter case is told apart and folded for the letters `A` to
`Z` alone. Text is cut as a list of characters.
-/

namespace SpectralResponse.Text

/-- The white space of Unicode. -/
def isBlank (c : Char) : Bool :=
  let n := c.toNat
  (0x9 ≤ n && n ≤ 0xD) || n == 0x20 || n == 0x85 || n == 0xA0 || n == 0x1680 ||
    (0x2000 ≤ n && n ≤ 0x200A) || n == 0x2028 || n == 0x2029 || n == 0x202F || n == 0x205F ||
    n == 0x3000

/-- The text without the blanks before its first and after its last other character. -/
def trimmed (cs : List Char) : List Char :=
  ((cs.dropWhile isBlank).reverse.dropWhile isBlank).reverse

/-- The text without blanks at its ends. -/
def trim (s : String) : String := String.ofList (trimmed s.toList)

/-- Cuts a text at every character of a class, also between two of them and at the ends. -/
def splitAt (isCut : Char → Bool) : List Char → List (List Char)
  | [] => [[]]
  | c :: cs =>
    if isCut c then [] :: splitAt isCut cs
    else
      match splitAt isCut cs with
      | [] => [[c]]
      | piece :: pieces => (c :: piece) :: pieces

/-- The lines of a text. -/
def lines (cs : List Char) : List (List Char) := splitAt (· == '\n') cs

/-- The longest pieces without blanks, in order. -/
def words (cs : List Char) : List (List Char) := (splitAt isBlank cs).filter (!·.isEmpty)

/-- The text with the letters `A` to `Z` in lower case. -/
def foldCase (s : String) : String := String.ofList (s.toList.map Char.toLower)

/-- The texts agree up to the case of the letters `A` to `Z`. -/
def sameFolded (a b : String) : Bool := foldCase a == foldCase b

/-- Joins texts with a separator between neighbours. -/
def joined (separator : String) (parts : List String) : String := String.intercalate separator parts

end SpectralResponse.Text
