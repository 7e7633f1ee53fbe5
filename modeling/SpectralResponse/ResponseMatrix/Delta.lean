import SpectralResponse.Rebin.Overlap
import SpectralResponse.ResponseMatrix.Basic

/-!
# Matrices from geometry

An instrument that counts each photon at its own energy: the weight of a channel is the part of the
energy bin that lies in it. Each row has at most one group, which covers the channels that the energy
bin overlaps. The first of them is found by binary search over the high edges.
-/

namespace SpectralResponse.Redistribution

variable {α : Type} [Scalar α]

/-- The group of an energy bin, if it overlaps a channel. -/
def deltaRow (channels : Grid α) (energy : Bin α) : List (RawGroup α) :=
  let first := BinarySearch.partitionPoint (fun b : Bin α => b.hi ≤ energy.lo) channels.bins.toArray
  let weights :=
    ((channels.bins.drop first).takeWhile fun b => b.lo < energy.hi).map fun b =>
      energy.overlap b / energy.width
  if weights.isEmpty then [] else [⟨first, weights⟩]

/-- The matrix that counts each photon at its own energy. -/
def delta (energies channels : Grid α) : Noted α (Redistribution α) :=
  ofRawRows .delta energies channels (energies.bins.map (deltaRow channels)) .plain

end SpectralResponse.Redistribution
