import SpectralResponse.Config.Basic
import SpectralResponse.Grid.Union
import SpectralResponse.Product

/-!
# Evaluation grids

A model is evaluated either on the grid of each effective area, or once on a grid that all share, from
which its flux is redistributed. The shared grid is kept for as long as it is asked for by the same
spectra with the same effective areas (`EvaluationCache`).
-/

namespace SpectralResponse

/-- Where models are evaluated. -/
inductive EvaluationStrategy (α : Type) where
  /-- On the grid of each effective area. -/
  | separate
  /-- On the union of the grids of the effective areas. -/
  | merged
  /-- On a given grid. -/
  | userDefined (grid : Grid α)
  deriving DecidableEq, Repr

namespace EvaluationStrategy

variable {α : Type} [Scalar α]

/-- The strategy of a configuration. -/
def ofChoice : EvaluationChoice α → Except (GridFault α) (EvaluationStrategy α)
  | .separate => .ok separate
  | .merged => .ok merged
  | .userDefined lo hi unit => do return userDefined (← canonicalize lo hi unit).grid

omit [Scalar α] in
/-- The name of the strategy. -/
def name : EvaluationStrategy α → String
  | separate => "separate"
  | merged => "merged"
  | userDefined _ => "user_defined"

/-- The grid that effective areas with the given grids share, if they share one. A single grid is not
merged with anything. -/
def sharedGrid (grids : List (Grid α)) : EvaluationStrategy α → Except (GridFault α) (Option (Grid α))
  | separate => .ok none
  | merged => if grids.length < 2 then .ok none else (Grid.union grids).map some
  | userDefined grid => .ok (some grid)

end EvaluationStrategy

/-- A spectrum with an effective area that a grid is shared for. -/
abbrev EvaluationMember := SpectrumId × AreaId

/-- Members come in the order of spectra, and then of effective areas. -/
def EvaluationMember.before (a b : EvaluationMember) : Bool :=
  a.1.before b.1 || (a.1 == b.1 && a.2.before b.2)

/-- The members in order, each once. -/
def evaluationKey (members : List EvaluationMember) : List EvaluationMember :=
  ascending EvaluationMember.before members

/-- The last shared grid, with the members it was made for. -/
structure EvaluationCache (α : Type) where
  /-- The members and their grid, unless the cache is empty. -/
  entry : Option (List EvaluationMember × Option (Grid α))
  deriving DecidableEq, Repr

namespace EvaluationCache

variable {α : Type} [Scalar α]

omit [Scalar α] in
/-- The cache without a grid. -/
def empty : EvaluationCache α := ⟨none⟩

/-- The grid for the members of a key, taken from the cache or made anew and put into the cache. -/
def get (key : List EvaluationMember) (strategy : EvaluationStrategy α) (grids : List (Grid α))
    (cache : EvaluationCache α) : Except (GridFault α) (Option (Grid α) × EvaluationCache α) :=
  match cache.entry.filter (·.1 == key) with
  | some (_, grid) => .ok (grid, cache)
  | none => do
    let grid ← strategy.sharedGrid grids
    return (grid, ⟨some (key, grid)⟩)

end EvaluationCache

end SpectralResponse
