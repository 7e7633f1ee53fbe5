import SpectralResponse.Grid.Basic
import SpectralResponse.Text

/-!
# Units of bin edges

Edges are given as energies or as wavelengths. A wavelength of `λ` Angstrom belongs to the energy
`kevAngstrom / λ` keV, so the order of edges is turned around. Within a family, units differ by a
factor. Main operations: `canonicalize` takes edges in a unit to an ascending keV grid, and
`Grid.edgesIn` goes the other way.
-/

namespace SpectralResponse

/-- A unit of bin edges. -/
inductive EdgeUnit where
  /-- Thousand electronvolts. -/
  | kev
  /-- Electronvolts. -/
  | ev
  /-- Million electronvolts. -/
  | mev
  /-- Angstrom, a wavelength. -/
  | angstrom
  /-- Nanometres, a wavelength. -/
  | nm
  deriving DecidableEq, Repr, Inhabited

namespace EdgeUnit

/-- The usual symbol of the unit. -/
def symbol : EdgeUnit → String
  | kev => "keV"
  | ev => "eV"
  | mev => "MeV"
  | angstrom => "Angstrom"
  | nm => "nm"

/-- The units of wavelength. -/
def isWavelength : EdgeUnit → Bool
  | angstrom | nm => true
  | kev | ev | mev => false

/-- The unit of the given name, in any case and with blanks around it. -/
def ofText? (text : String) : Option EdgeUnit :=
  match Text.foldCase (Text.trim text) with
  | "kev" => some kev
  | "ev" => some ev
  | "mev" => some mev
  | "a" | "angstrom" | "angstroms" => some angstrom
  | "nm" => some nm
  | _ => none

variable {α : Type}

/-- Reads the name of a unit. -/
def ofText (text : String) : Except (Fault α) EdgeUnit :=
  match ofText? text with
  | some unit => .ok unit
  | none => .error (.unit (Text.foldCase (Text.trim text)))

/-- The factor to keV within the energies, to Angstrom within the wavelengths. -/
def scale [Scalar α] : EdgeUnit → α
  | kev | angstrom => 1
  | ev => 1e-3
  | mev => 1e3
  | nm => 10.0

end EdgeUnit

/-- The energy of a photon in keV times its wavelength in Angstrom. -/
def kevAngstrom {α : Type} [Scalar α] : α := 12.398419843320026

/-- A grid made from edges, and whether the bins had to be put in reverse order. -/
structure Canonical (α : Type) where
  /-- The ascending keV grid. -/
  grid : Grid α
  /-- The bins were given in descending order of energy. -/
  reversed : Bool
  deriving DecidableEq, Repr

/-- Puts values that were given along with the edges into the order of the grid. -/
def Canonical.arrange {α β : Type} (c : Canonical α) (values : List β) : List β :=
  if c.reversed then values.reverse else values

variable {α : Type} [Scalar α]

/-- The first value that is no finite number, with its position. -/
def firstNonFinite? (values : List α) : Option (α × Nat) :=
  values.zipIdx.find? fun (value, _) => !Scalar.isFinite value

/-- Requires all edges to be finite. -/
def requireFinite (edges : List α) : Except (GridFault α) Unit :=
  match firstNonFinite? edges with
  | some (value, index) => .error (.nonFinite index value)
  | none => .ok ()

/-- Takes a bin in a unit to keV; both ends of a wavelength must be positive. -/
def EdgeUnit.binToKev (unit : EdgeUnit) (index : Nat) (b : Bin α) : Except (GridFault α) (Bin α) :=
  let lo := b.lo * unit.scale
  let hi := b.hi * unit.scale
  if unit.isWavelength then
    if lo ≤ 0 then .error (.nonPositiveWavelength index lo)
    else if hi ≤ 0 then .error (.nonPositiveWavelength index hi)
    else .ok ⟨kevAngstrom / hi, kevAngstrom / lo⟩
  else .ok ⟨lo, hi⟩

/-- The bins run downwards, judged by the first and the last of them. -/
def runsDown : List (Bin α) → Bool
  | [] => false
  | b :: bs => (bs.getLast?).any fun last => last.lo < b.lo

/-- The ascending keV grid with the given edges in a unit. -/
def canonicalize (lo hi : List α) (unit : EdgeUnit) : Except (GridFault α) (Canonical α) := do
  if lo.length ≠ hi.length then throw (.lengthMismatch lo.length hi.length)
  if lo.isEmpty then throw .empty
  requireFinite lo
  requireFinite hi
  let bins ← (List.zipWith Bin.mk lo hi).zipIdx.mapM fun (b, index) => unit.binToKev index b
  let reversed := runsDown bins
  let grid ← Grid.ofBins (if reversed then bins.reverse else bins)
  return ⟨grid, reversed⟩

/-- The bins of a grid in a unit, ascending in that unit. -/
def Grid.edgesIn (g : Grid α) (unit : EdgeUnit) : List (Bin α) :=
  if unit.isWavelength then
    g.bins.reverse.map fun b =>
      ⟨kevAngstrom / b.hi / unit.scale, kevAngstrom / b.lo / unit.scale⟩
  else g.bins.map fun b => ⟨b.lo / unit.scale, b.hi / unit.scale⟩

end SpectralResponse
