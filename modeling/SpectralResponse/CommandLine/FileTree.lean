import SpectralResponse.Text

/-!
# File trees

The files that a command finds and leaves, as texts in a tree of folders seen from the current one. A
path is walked name by name: an empty name and `.` stay, `..` goes up, and any other name goes down into
a folder that must be there. Walking starts at the root if the path starts with a slash. The last name
of the path of a file is a proper name, so a path that ends in a slash or in dots leads to no file.

Reading (`FileTree.read?`) and writing (`FileTree.write?`) walk alike, but writing makes the folders that
are missing on the way. Of what lies outside the current folder only the null device is known.
-/

namespace SpectralResponse.CommandLine

/-! ### Places -/

/-- Where the names of a place begin. -/
inductive Anchor where
  /-- The root of the tree. -/
  | root
  /-- The folder so many levels above the current one. -/
  | above (levels : Nat)
  deriving DecidableEq, Repr

/-- A place in the tree. -/
structure Place where
  /-- Where the names begin. -/
  anchor : Anchor
  /-- The names from there, the innermost first. -/
  names : List String
  deriving DecidableEq, Repr

namespace Place

/-- The current folder. -/
def here : Place := ⟨.above 0, []⟩

/-- The place of a name in a folder. -/
def child (p : Place) (name : List Char) : Place := { p with names := String.ofList name :: p.names }

/-- The folder that holds a place; the root holds itself. -/
def parent : Place → Place
  | ⟨anchor, _ :: names⟩ => ⟨anchor, names⟩
  | ⟨.above levels, []⟩ => ⟨.above (levels + 1), []⟩
  | ⟨.root, []⟩ => ⟨.root, []⟩

/-- The file that is always empty. -/
def nullDevice : Place := ⟨.root, ["null", "dev"]⟩

end Place

/-! ### Trees -/

/-- Files and folders. -/
structure FileTree where
  /-- The files with their texts, the latest first. -/
  files : List (Place × String)
  /-- The folders below an anchor. -/
  folders : List Place
  deriving Repr

namespace FileTree

/-- The tree without any file but the null device. -/
def empty : FileTree := ⟨[(Place.nullDevice, "")], [Place.nullDevice.parent]⟩

/-- The bytes that a path may take. -/
def maxPathSize : Nat := 4095

/-- The bytes that a name may take. -/
def maxNameSize : Nat := 255

/-- The characters can name a new file or folder. -/
def isName (name : List Char) : Bool :=
  (String.ofList name).utf8ByteSize ≤ maxNameSize && name.all (· != '\x00')

variable (t : FileTree)

/-- There is a folder at a place. -/
def isFolder (p : Place) : Bool := p.names.isEmpty || t.folders.contains p

/-- The text of the file at a place. -/
def text? (p : Place) : Option String := t.files.lookup p

/-- Goes on from a folder by one name; with `make`, into a new folder where nothing is. -/
def enter (make : Bool) : FileTree × Place → List Char → Option (FileTree × Place)
  | (t, p), [] | (t, p), ['.'] => some (t, p)
  | (t, p), ['.', '.'] => some (t, p.parent)
  | (t, p), name =>
    let next := p.child name
    if t.isFolder next then some (t, next)
    else if make && isName name && (t.text? next).isNone then
      some ({ t with folders := next :: t.folders }, next)
    else none

/-- The place that a path gives a file, with the folders made on the way. -/
def locate? (make : Bool) (path : String) : Option (FileTree × Place) := do
  guard (path.utf8ByteSize ≤ maxPathSize)
  let names := Text.splitAt (· == '/') path.toList
  let start := if path.startsWith "/" then ⟨.root, []⟩ else Place.here
  let (t, p) ← names.dropLast.foldlM (enter make) (t, start)
  match names.getLast? with
  | none | some [] | some ['.'] | some ['.', '.'] => none
  | some name => if isName name then some (t, p.child name) else none

/-- The text of the file that a path leads to. -/
def read? (path : String) : Option String := do
  let (_, p) ← t.locate? false path
  t.text? p

/-- The tree after a text is written to the file that a path leads to, which must not be a folder. What
is written to the null device is lost. -/
def write? (path text : String) : Option FileTree := do
  let (t, p) ← t.locate? true path
  if t.isFolder p then none
  else if p = Place.nullDevice then some t
  else some { t with files := (p, text) :: t.files }

/-- The tree of files given by path; those that cannot be written are left out. -/
def ofFiles (files : List (String × String)) : FileTree :=
  files.foldl (fun t (path, text) => (t.write? path text).getD t) empty

end FileTree

end SpectralResponse.CommandLine
