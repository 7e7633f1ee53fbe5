import SpectralResponse.Proofs.Grid.Union
import SpectralResponse.Proofs.Rebin.Totals
import SpectralResponse.Session.Prediction

/-!
# Back from the union

The flux of an additive model in a bin is what a function gains over the bin. When it is evaluated on the union
of some grids, each bin of one of them gets back exactly its own flux: it gets all of the pieces it is made of
and nothing of the others, and no piece of it is missing from the union.

## What is proved

* `shareOf_piece` — what a bin gets of a piece is what the function gains over the part they share.
* `rebin_union` — an additive model evaluated on the union and moved to one of the grids has the values that it
  has there.
-/

namespace SpectralResponse

/-- The model whose flux in a bin is what a function gains over it. -/
def Model.additive {α : Type} [Scalar α] (total : α → α) : Model α := fun grid =>
  grid.bins.map fun b => total b.hi - total b.lo

variable {K : Type} [Field K] [LinearOrder K] [FloorRing K] [Roots K] {total : K → K} {b piece : Bin K}

/-! ### The energy of a bin closest to another -/

section

omit [Field K] [FloorRing K] [Roots K]

theorem Bin.nearest_of_le {energy : K} (h : energy ≤ b.lo) : b.nearest energy = b.lo := by
  rw [Bin.nearest, max_eq_left]
  exact (min_le_left _ _).trans h

theorem Bin.nearest_of_ge {energy : K} (hb : b.lo ≤ b.hi) (h : b.hi ≤ energy) : b.nearest energy = b.hi := by
  rw [Bin.nearest, max_eq_right hb, min_eq_right h, max_eq_right hb]

theorem Bin.nearest_of_mem {energy : K} (hlo : b.lo ≤ energy) (hhi : energy ≤ b.hi) :
    b.nearest energy = energy := by
  rw [Bin.nearest, max_eq_right (hlo.trans hhi), min_eq_left hhi, max_eq_right hlo]

end

/-! ### One bin -/

omit [LinearOrder K] [FloorRing K] [Roots K] in
/-- Leaving out what counts for nothing leaves the sum. -/
theorem sum_map_filter {β : Type} {keep : β → Bool} {f : β → K} {xs : List β}
    (h : ∀ x ∈ xs, keep x = false → f x = 0) : ((xs.filter keep).map f).sum = (xs.map f).sum := by
  induction xs with
  | nil => rfl
  | cons x xs ih =>
    obtain ⟨hx, hxs⟩ := List.forall_mem_cons.1 h
    rw [List.map_cons, List.sum_cons, ← ih hxs]
    cases hkeep : keep x with
    | true => rw [List.filter_cons_of_pos hkeep, List.map_cons, List.sum_cons]
    | false => rw [List.filter_cons_of_neg (by simp [hkeep]), hx hkeep, zero_add]

/-- The edges of the bin do not lie inside the piece. -/
structure Uncut (b piece : Bin K) : Prop where
  /-- The piece is not empty. -/
  positive : piece.lo < piece.hi
  /-- It lies above or below the start of the bin. -/
  lo : b.lo ≤ piece.lo ∨ piece.hi ≤ b.lo
  /-- It lies above or below the end of the bin. -/
  hi : b.hi ≤ piece.lo ∨ piece.hi ≤ b.hi

variable [IsStrictOrderedRing K]

/-- A piece lies within the bin, or they have nothing in common. -/
theorem Uncut.inside_or_apart (hb : b.lo < b.hi) (h : Uncut b piece) :
    (b.lo ≤ piece.lo ∧ piece.hi ≤ b.hi) ∨
      b.nearest piece.hi = b.nearest piece.lo ∧ ∀ value, shareOf piece value b = 0 := by
  rcases h.lo with hlo | hlo
  · rcases h.hi with hhi | hhi
    · refine .inr ⟨?_, fun value => shareOf_eq_zero_of_before value hhi⟩
      rw [Bin.nearest_of_ge hb.le hhi, Bin.nearest_of_ge hb.le (hhi.trans h.positive.le)]
    · exact .inl ⟨hlo, hhi⟩
  · refine .inr ⟨?_, fun value => shareOf_eq_zero_of_after value hlo⟩
    rw [Bin.nearest_of_le hlo, Bin.nearest_of_le (h.positive.le.trans hlo)]

/-- A bin gets all of a piece or nothing of it, which is what the function gains over the part they share. -/
theorem shareOf_piece (hb : b.lo < b.hi) (h : Uncut b piece) :
    shareOf piece (total piece.hi - total piece.lo) b =
      total (b.nearest piece.hi) - total (b.nearest piece.lo) := by
  rcases h.inside_or_apart hb with ⟨hlo, hhi⟩ | ⟨hnearest, hshare⟩
  · rw [shareOf_eq_of_inside _ h.positive hlo hhi, Bin.nearest_of_mem (hlo.trans h.positive.le) hhi,
      Bin.nearest_of_mem hlo (h.positive.le.trans hhi)]
  · rw [hshare, hnearest, sub_self]

/-! ### The union -/

variable {grids : List (Grid K)} {g union : Grid K}

/-- No edge of a bin lies inside a piece of the union. -/
theorem uncut_of_mem (hapart : Grid.EdgesApart grids) (hg : g ∈ grids) (hb : b ∈ g.bins)
    (hpiece : piece ∈ Grid.segments (Grid.cuts grids)) : Uncut b piece := by
  obtain ⟨hstrict, hcuts⟩ := Grid.cuts_spec hapart
  obtain ⟨-, -, hpositive, hbetween⟩ := Grid.segment_of_mem hstrict hpiece
  have hlo := hbetween b.lo ((hcuts _).2 (Grid.lo_mem_allEdges hg hb))
  have hhi := hbetween b.hi ((hcuts _).2 (Grid.hi_mem_allEdges hg hb))
  exact ⟨hpositive, hlo, hhi.symm.elim .inr .inl⟩

/-- Over all pieces a function gains within a bin what it gains over the bin. -/
theorem sum_nearest (hapart : Grid.EdgesApart grids) (hg : g ∈ grids) (hb : b ∈ g.bins)
    (hpositive : b.lo < b.hi) :
    ((Grid.segments (Grid.cuts grids)).map fun piece =>
      total (b.nearest piece.hi) - total (b.nearest piece.lo)).sum = total b.hi - total b.lo := by
  obtain ⟨hstrict, hcuts⟩ := Grid.cuts_spec hapart
  have hlo := (hcuts _).2 (Grid.lo_mem_allEdges hg hb)
  have hhi := (hcuts _).2 (Grid.hi_mem_allEdges hg hb)
  generalize Grid.cuts grids = edges at hstrict hlo hhi
  cases edges with
  | nil => cases hlo
  | cons first rest =>
    obtain ⟨last, hlast⟩ : ∃ last, (first :: rest).getLast? = some last :=
      ⟨_, List.getLast?_eq_some_getLast (List.cons_ne_nil first rest)⟩
    have hfirst : first ≤ b.lo := by
      rcases List.mem_cons.1 hlo with he | hmem
      · exact he.ge
      · exact ((List.pairwise_cons.1 hstrict).1 _ hmem).le
    have hend : b.hi ≤ last := by
      rw [List.getLast?_eq_some_getLast (List.cons_ne_nil first rest), Option.some.injEq] at hlast
      rw [← hlast]
      exact (hstrict.imp le_of_lt).rel_getLast hhi
    rw [Grid.sum_segments (fun energy => total (b.nearest energy)) hlast, Bin.nearest_of_ge hpositive.le hend,
      Bin.nearest_of_le hfirst]

/-- When an additive model is evaluated on the union of some ordered grids and the flux is moved to one of them,
its bins get the flux that the model has there. -/
theorem rebin_union (horder : ∀ g ∈ grids, g.Ordered) (hapart : Grid.EdgesApart grids)
    (hunion : Grid.union grids = .ok union) (hg : g ∈ grids) :
    rebin g union (Model.additive total union) = .ok (Model.additive total g) := by
  obtain ⟨hstrict, -⟩ := Grid.cuts_spec hapart
  have hbins := Grid.bins_of_union hunion
  have hrises : union.bins.Pairwise fun a b => a.lo ≤ b.lo := by
    rw [hbins]
    exact (Grid.rises_segments hstrict).filter _
  have hlen : (Model.additive total union).length = union.length := List.length_map _
  rw [rebin_eq_shares hlen hrises (horder g hg).rises]
  refine congrArg Except.ok (List.map_congr_left fun b hb => ?_)
  have hpositive := (horder g hg).positive b hb
  have hzip : union.bins.zip (Model.additive total union) =
      union.bins.map fun piece => (piece, total piece.hi - total piece.lo) := by
    rw [Model.additive, ← List.map_prod_left_eq_zip]
  calc sharesOf (union.bins.zip (Model.additive total union)) b
      = (union.bins.map fun piece => shareOf piece (total piece.hi - total piece.lo) b).sum := by
        rw [hzip, sharesOf, List.map_map]
        rfl
    _ = (union.bins.map fun piece => total (b.nearest piece.hi) - total (b.nearest piece.lo)).sum := by
        refine congrArg List.sum (List.map_congr_left fun piece hpiece => ?_)
        rw [hbins] at hpiece
        exact shareOf_piece hpositive (uncut_of_mem hapart hg hb (List.mem_of_mem_filter hpiece))
    _ = ((Grid.segments (Grid.cuts grids)).map fun piece =>
          total (b.nearest piece.hi) - total (b.nearest piece.lo)).sum := by
        rw [hbins]
        refine sum_map_filter fun piece hpiece hdropped => ?_
        have huncut := uncut_of_mem hapart hg hb hpiece
        rcases huncut.inside_or_apart hpositive with ⟨hlo, hhi⟩ | ⟨hnearest, -⟩
        · rw [Grid.isCovered_of_mem hg (horder g hg) hb huncut.positive hlo hhi] at hdropped
          cases hdropped
        · rw [hnearest, sub_self]
    _ = total b.hi - total b.lo := sum_nearest hapart hg hb hpositive

end SpectralResponse
