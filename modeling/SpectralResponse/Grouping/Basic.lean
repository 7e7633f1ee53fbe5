import SpectralResponse.Grid.Basic

/-!
# Grouping of bins

Fine bins are grouped into working bins by a mask with a flag for each fine bin. Consecutive
flags of the same sign belong to one group, and a change of sign starts the next, so groups are written
as runs of `1` and `-1` in turn. A bin with a zero flag is left out and ends the group before it; every
group therefore consists of consecutive bins.

A grouping keeps the signs of its mask and the groups as lists of positions. Values given for the
fine bins are taken to the groups by sums, by sums in quadrature, or by "any of them".
-/

namespace SpectralResponse

/-- A division of fine bins into groups. -/
structure Grouping where
  /-- The sign for each fine bin: zero where it is left out. -/
  mask : List Int
  /-- The positions of the fine bins of each group. -/
  groups : List (List Nat)
  deriving DecidableEq, Repr

namespace Grouping

/-! ### Masks -/

/-- The sign of the flag at a position when each bin is a group. -/
def alternating (index : Nat) : Int := if index % 2 = 0 then 1 else -1

/-- Each fine bin is a group. -/
def identity (count : Nat) : Grouping where
  mask := (List.range count).map alternating
  groups := (List.range count).map fun index => [index]

/-- Puts a position in front of runs that start behind it: into the first run if that touches and has
the same sign, else as a run of its own. -/
def prependBin (index : Nat) (sign : Int) : List (Int × List Nat) → List (Int × List Nat)
  | [] => [(sign, [index])]
  | (next, run) :: runs =>
    if next = sign ∧ run.head? = some (index + 1) then (sign, index :: run) :: runs
    else (sign, [index]) :: (next, run) :: runs

/-- The runs of consecutive flags of one sign in a mask that starts at a position, with their signs. -/
def runsFrom (index : Nat) : List Int → List (Int × List Nat)
  | [] => []
  | flag :: mask =>
    let runs := runsFrom (index + 1) mask
    if flag = 0 then runs else prependBin index flag.sign runs

variable {α : Type}

/-- The grouping of a mask, which must not leave out every bin. -/
def ofMask (mask : List Int) : Except (Fault α) Grouping :=
  match runsFrom 0 mask with
  | [] => .error (.grouping .emptyMask)
  | runs => .ok ⟨mask.map Int.sign, runs.map Prod.snd⟩

/-! ### Views -/

variable (g : Grouping)

/-- The number of groups. -/
def length : Nat := g.groups.length

/-- The number of fine bins. -/
def fineLength : Nat := g.mask.length

/-- There are as many groups as fine bins. -/
def isIdentity : Bool := g.length == g.fineLength

/-- The fine bin belongs to a group. -/
def includes (index : Nat) : Bool := g.mask[index]?.any (· != 0)

/-! ### Taking values to the groups -/

/-- The values at the positions of a group. -/
def pick {β : Type} (values : List β) (group : List Nat) : List β := group.filterMap (values[·]?)

/-- Requires as many values as there are fine bins. -/
def requireValues (use : GroupedValues) (actual : Nat) : Except (Fault α) Unit :=
  requireLength (fun e a => .grouping (.values use e a)) g.fineLength actual

/-- Each group is flagged if any of its bins is. -/
def any (flags : List Bool) : Except (Fault α) (List Bool) := do
  g.requireValues .flags flags.length
  return g.groups.map fun group => (pick flags group).any id

variable [Scalar α]

/-- The sums of the values of each group. -/
def sum (values : List α) : Except (Fault α) (List α) := do
  g.requireValues .sums values.length
  return g.groups.map fun group => Scalar.sum (pick values group)

/-- The square roots of the sums of the squares of each group. -/
def sumQuadrature (errors : List α) : Except (Fault α) (List α) := do
  g.requireValues .errors errors.length
  return g.groups.map fun group => Scalar.sqrt (Scalar.sum ((pick errors group).map fun e => e * e))

/-- The bin from the start of the first to the end of the last of some bins. -/
def span? : List (Bin α) → Option (Bin α)
  | [] => none
  | b :: bs => some ⟨b.lo, ((b :: bs).getLast?.getD b).hi⟩

/-- The grid with a bin for each group, from the start of its first to the end of its last bin. -/
def grid (fine : Grid α) : Except (Fault α) (Grid α) := do
  g.requireValues .bins fine.length
  Grid.ofBins (g.groups.filterMap fun group => span? (pick fine.bins group))

end Grouping

end SpectralResponse
