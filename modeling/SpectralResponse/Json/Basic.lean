import SpectralResponse.Scalar

/-!
# JSON values

Calibration tables, configurations and reports are JSON. A number keeps whether it was written as a
whole number: `3` and `3.0` are different values, because a table keyword is an integer in the one
case and a real in the other. No JSON number denotes an infinite value; a real number that is not
finite stands for a written number beyond the range of the scalars, which no reader accepts but which
does no harm where it is not read.
-/

namespace SpectralResponse

/-- A JSON value. -/
inductive Json (α : Type) where
  /-- Nothing. -/
  | null
  /-- A truth value. -/
  | bool (value : Bool)
  /-- A number written without point and power of ten. -/
  | whole (value : Int)
  /-- Any other number. -/
  | real (value : α)
  /-- A text. -/
  | text (value : String)
  /-- A text with an escape that is half of a character, or an object with one in a name; it can be
  skipped, but not read. -/
  | broken
  /-- A list of values. -/
  | list (items : List (Json α))
  /-- Values with names, in the order of the document. -/
  | object (members : List (String × Json α))
  deriving Repr, Inhabited

namespace Json

variable {α : Type}

/-! ### Reading values -/

/-- The member of a name. Of several members of one name the last one counts. Documents that are read into
records of fixed fields, such as tables and configurations, are refused by the engine if a field is repeated;
here the last one counts there as well. -/
def member? (name : String) : Json α → Option (Json α)
  | object members => (members.reverse.find? (·.1 == name)).map Prod.snd
  | _ => none

/-- A truth value. -/
def asBool? : Json α → Option Bool
  | bool value => some value
  | _ => none

/-- A text. -/
def asText? : Json α → Option String
  | text value => some value
  | _ => none

/-- A whole number that fits a 64-bit word. -/
def asWord? : Json α → Option Int
  | whole value => if Scalar.minWord ≤ value ∧ value ≤ Scalar.maxWord then some value else none
  | _ => none

/-- Any number. -/
def asScalar? [Scalar α] : Json α → Option α
  | whole value => some (Scalar.ofInt value)
  | real value => if Scalar.isFinite value then some value else none
  | _ => none

/-- A list of values that all can be read. -/
def asList? {β : Type} (item? : Json α → Option β) : Json α → Option (List β)
  | list items => items.mapM item?
  | _ => none

/-- Nothing. -/
def isNull : Json α → Bool
  | null => true
  | _ => false

/-- Nothing, or an object without members. -/
def isVoid : Json α → Bool
  | null | object [] => true
  | _ => false

/-- The name of a variant without content: the text itself, or an object whose one member has the name
and a value that passes for no content. -/
def asVariant? (isNoContent : Json α → Bool) : Json α → Option String
  | text value => some value
  | object [(name, content)] => if isNoContent content then some name else none
  | _ => none

/-- Reads a member with a default: the default stands in for a missing member, but not for one that
cannot be read. -/
def memberOr? {β : Type} (name : String) (default : β) (item? : Json α → Option β) (j : Json α) :
    Option β :=
  match j.member? name with
  | none => some default
  | some value => item? value

/-- Reads a member that must be there. -/
def memberAs? {β : Type} (name : String) (item? : Json α → Option β) (j : Json α) : Option β :=
  (j.member? name).bind item?

/-! ### Writing values -/

/-- A list of numbers. -/
def reals (values : List α) : Json α := list (values.map real)

/-- A text, or nothing. -/
def text? : Option String → Json α
  | some value => text value
  | none => null

/-- A whole number, or nothing. -/
def whole? : Option Int → Json α
  | some value => whole value
  | none => null

/-- A count. -/
def count (n : Nat) : Json α := whole n

/-! ### Checking values -/

mutual

/-- The levels of lists and objects in a value. -/
def depth : Json α → Nat
  | list items => depthItems items + 1
  | object members => depthMembers members + 1
  | _ => 0

/-- The levels of lists and objects in a list of values. -/
def depthItems : List (Json α) → Nat
  | [] => 0
  | j :: js => max (depth j) (depthItems js)

/-- The levels of lists and objects in the members of an object. -/
def depthMembers : List (String × Json α) → Nat
  | [] => 0
  | (_, j) :: ms => max (depth j) (depthMembers ms)

end

mutual

/-- Every number and every text in the value can be read. -/
def isReadable [Scalar α] : Json α → Bool
  | real value => Scalar.isFinite value
  | broken => false
  | list items => areReadable items
  | object members => areMembersReadable members
  | _ => true

/-- Every number and every text in a list of values can be read. -/
def areReadable [Scalar α] : List (Json α) → Bool
  | [] => true
  | j :: js => isReadable j && areReadable js

/-- Every number and every text in the members of an object can be read. -/
def areMembersReadable [Scalar α] : List (String × Json α) → Bool
  | [] => true
  | (_, j) :: ms => isReadable j && areMembersReadable ms

end

end Json

end SpectralResponse
