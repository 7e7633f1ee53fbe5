import SpectralResponse.Json.Basic
import SpectralResponse.Text

/-!
# Writing JSON text

Two layouts of the same text: `render` puts a value on one line, and `pretty` gives every item and
every member a line of its own, indented by two blanks a level. How a real number is written is left to
the caller.
-/

namespace SpectralResponse.Json

variable {α : Type}

/-- A hexadecimal digit. -/
def hexDigit (n : Nat) : Char := (Nat.toDigits 16 n).headD '0'

/-- A character inside quotes. -/
def escaped (c : Char) : List Char :=
  match c with
  | '"' => ['\\', '"']
  | '\\' => ['\\', '\\']
  | '\x08' => ['\\', 'b']
  | '\x0c' => ['\\', 'f']
  | '\n' => ['\\', 'n']
  | '\r' => ['\\', 'r']
  | '\t' => ['\\', 't']
  | c =>
    if c.toNat < 0x20 then
      ['\\', 'u', '0', '0', hexDigit (c.toNat / 16), hexDigit (c.toNat % 16)]
    else [c]

/-- A text in quotes. -/
def quote (s : String) : String := "\"" ++ String.ofList (s.toList.flatMap escaped) ++ "\""

/-- A bracket, parts with commas between them, and the closing bracket. -/
def bracketed (opening closing : String) (parts : List String) : String :=
  opening ++ Text.joined "," parts ++ closing

mutual

/-- The value on one line. -/
def render (realText : α → String) : Json α → String
  | null => "null"
  | bool value => if value then "true" else "false"
  | whole value => toString value
  | real value => realText value
  | text value => quote value
  | broken => quote ""
  | list items => bracketed "[" "]" (renderItems realText items)
  | object members => bracketed "\x7b" "\x7d" (renderMembers realText members)

/-- The items of a list. -/
def renderItems (realText : α → String) : List (Json α) → List String
  | [] => []
  | j :: js => render realText j :: renderItems realText js

/-- The members of an object. -/
def renderMembers (realText : α → String) : List (String × Json α) → List String
  | [] => []
  | (name, j) :: ms => (quote name ++ ":" ++ render realText j) :: renderMembers realText ms

end

/-- The start of a line at a level. -/
def newLine (level : Nat) : String := "\n" ++ String.ofList (List.replicate (2 * level) ' ')

/-- Brackets around parts on lines of their own. -/
def block (opening closing : String) (level : Nat) (parts : List String) : String :=
  if parts.isEmpty then opening ++ closing
  else
    opening ++ newLine (level + 1) ++ Text.joined ("," ++ newLine (level + 1)) parts ++ newLine level ++
      closing

mutual

/-- The value with items and members on lines of their own. -/
def pretty (realText : α → String) (level : Nat) : Json α → String
  | list items => block "[" "]" level (prettyItems realText (level + 1) items)
  | object members => block "\x7b" "\x7d" level (prettyMembers realText (level + 1) members)
  | null => "null"
  | bool value => if value then "true" else "false"
  | whole value => toString value
  | real value => realText value
  | text value => quote value
  | broken => quote ""

/-- The items of a list, each for a line of its own. -/
def prettyItems (realText : α → String) (level : Nat) : List (Json α) → List String
  | [] => []
  | j :: js => pretty realText level j :: prettyItems realText level js

/-- The members of an object, each for a line of its own. -/
def prettyMembers (realText : α → String) (level : Nat) : List (String × Json α) → List String
  | [] => []
  | (name, j) :: ms =>
    (quote name ++ ": " ++ pretty realText level j) :: prettyMembers realText level ms

end

end SpectralResponse.Json
