import SpectralResponse.Text

/-!
# Settings on the command line

Arguments are options with values, flags, and words that stand in a place of their own. An option is
written `--name value` or `--name=value`. A value that starts with `-` must be written in the second
way, unless the option takes negative numbers. After `--` all arguments are words.

`scan` goes through the arguments once. An option is settled, that is, its values are counted and read,
as soon as the next option or word begins or the arguments end, so the first reason to stop is the one
that counts: a call for help stands if nothing before it was wrong.
-/

namespace SpectralResponse.CommandLine

/-- Why arguments do not lead to a command. -/
inductive Stop where
  /-- Help is asked for. -/
  | help
  /-- The arguments are wrong. -/
  | misuse
  deriving DecidableEq, Repr

/-- An option, or the place of a word. -/
structure OptionRule where
  /-- The name. -/
  name : String
  /-- A text is one of its values. -/
  accepts : String → Bool
  /-- The number of values it takes at each use. -/
  arity : Nat := 1
  /-- A value may be a negative number. -/
  takesNegative : Bool := false
  /-- It may be used more than once. -/
  repeats : Bool := false

/-- What may stand on a command line. -/
structure Grammar where
  /-- The options with values. -/
  options : List OptionRule
  /-- The place for a word. -/
  place? : Option OptionRule := none
  /-- The commands; the arguments after one of them belong to it. -/
  commands : List String := []

/-- The option of a name. -/
def Grammar.option? (g : Grammar) (name : String) : Option OptionRule :=
  g.options.find? (·.name == name)

/-- A use of an option, with its values as written. -/
structure Setting where
  /-- The name of the option. -/
  name : String
  /-- The values. -/
  values : List String
  deriving DecidableEq, Repr

/-- The values of all uses of an option, in order. -/
def valuesOf (name : String) (settings : List Setting) : List String :=
  (settings.filter (·.name == name)).flatMap Setting.values

/-- The first value of an option. -/
def value? (name : String) (settings : List Setting) : Option String := (valuesOf name settings).head?

/-! ### The shape of an argument -/

/-- An argument, told by its first characters. -/
inductive Argument where
  /-- The divider `--`. -/
  | divider
  /-- A long name, with a value if one is attached. -/
  | long (name : String) (value? : Option String)
  /-- Flags of one letter. -/
  | short (letters : List Char)
  /-- A word. -/
  | word (text : String)
  deriving DecidableEq, Repr

/-- The shape of an argument. -/
def Argument.ofText (text : String) : Argument :=
  match text.toList with
  | ['-', '-'] => divider
  | '-' :: '-' :: cs =>
    match cs.span (· != '=') with
    | (name, '=' :: value) => long (String.ofList name) (some (String.ofList value))
    | (name, _) => long (String.ofList name) none
  | '-' :: c :: cs => short (c :: cs)
  | _ => word text

/-- The digits of a number: digits, then optionally a point with further digits, then optionally `e`
or `E` and an exponent without a sign. A point or an `e` does not come first, nor an `e` last. -/
def isUnsignedNumber (cs : List Char) : Bool :=
  let (whole, rest) := cs.span Char.isDigit
  let power := match rest with
    | '.' :: places => if whole.isEmpty then rest else places.dropWhile Char.isDigit
    | rest => rest
  match power with
  | [] => !cs.isEmpty
  | c :: digits =>
    (c == 'e' || c == 'E') && !whole.isEmpty && !digits.isEmpty && digits.all Char.isDigit

/-! ### Scanning -/

/-- The settings found so far. -/
structure Reading where
  /-- The settled ones. -/
  settings : List Setting := []
  /-- The last option, with the values found so far. -/
  pending? : Option (OptionRule × List String) := none

namespace Reading

/-- The last option waits for a value. -/
def isOpen (r : Reading) : Bool := r.pending?.any fun (rule, values) => values.length < rule.arity

/-- Settles the last option. -/
def settle (r : Reading) : Except Stop Reading :=
  match r.pending? with
  | none => .ok r
  | some (rule, values) =>
    if values.length = rule.arity ∧ values.all rule.accepts ∧
        (rule.repeats ∨ !r.settings.any (·.name == rule.name)) then
      .ok { settings := r.settings ++ [⟨rule.name, values⟩] }
    else .error .misuse

/-- Begins a use of an option. -/
def start (rule : OptionRule) (values : List String) (r : Reading) : Except Stop Reading := do
  return { ← r.settle with pending? := some (rule, values) }

/-- Gives a value to the last option. -/
def addValue (text : String) (r : Reading) : Reading :=
  { r with pending? := r.pending?.map fun (rule, values) => (rule, values ++ [text]) }

/-- Puts a word into its place. -/
def addWord (g : Grammar) (text : String) (r : Reading) : Except Stop Reading :=
  match g.place? with
  | some rule => r.start rule [text]
  | none => .error .misuse

/-- Takes flags of one letter: `v` for more log lines, `h` for help. -/
def addLetters : List Char → Reading → Except Stop Reading
  | [], r => .ok r
  | 'v' :: letters, r => do addLetters letters (← r.settle)
  | 'h' :: _, r => do
    let _ ← r.settle
    throw .help
  | _, _ => .error .misuse

/-- Takes a long option or flag. -/
def addLong (g : Grammar) (name : String) (value? : Option String) (r : Reading) :
    Except Stop Reading :=
  match name, value? with
  | "help", none => r.addLetters ['h']
  | "verbose", none => r.addLetters ['v']
  | name, value? =>
    match g.option? name, value? with
    | none, _ => .error .misuse
    | some rule, none => r.start rule []
    | some rule, some value => do (← r.start rule [value]).settle

/-- Takes an argument that does not divide. -/
def add (g : Grammar) (text : String) (r : Reading) : Argument → Except Stop Reading
  | .long name value? => r.addLong g name value?
  | .short letters =>
    let isNumber := r.pending?.any (·.1.takesNegative) && isUnsignedNumber letters
    if r.isOpen && isNumber then .ok (r.addValue text) else r.addLetters letters
  | _ => if r.isOpen then .ok (r.addValue text) else r.addWord g text

end Reading

/-- The end of a scan: the settings, and the command with its arguments, if one was met. -/
structure Scanned where
  /-- The settings before the command. -/
  reading : Reading
  /-- The command and the arguments after it. -/
  command? : Option (String × List String)

/-- Scans arguments up to the end or to a command. -/
def scan (g : Grammar) : List String → Reading → Except Stop Scanned
  | [], r => .ok ⟨r, none⟩
  | text :: rest, r =>
    if !r.isOpen && g.commands.contains text then .ok ⟨r, some (text, rest)⟩
    else
      match Argument.ofText text with
      | .divider => do return ⟨← rest.foldlM (fun r word => r.addWord g word) r, none⟩
      | argument => do scan g rest (← r.add g text argument)

end SpectralResponse.CommandLine
