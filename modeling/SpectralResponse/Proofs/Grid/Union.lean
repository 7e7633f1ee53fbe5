import SpectralResponse.Grid.Union
import SpectralResponse.Proofs.Grid.Lookup

/-!
# The bins of a union

The union of some grids is cut at every edge of theirs: as long as different edges are further apart than
rounding can take them, none is lost. A piece between neighbouring edges lies within a bin of a grid or apart
from it, and it is kept if a grid has a bin around it.

## What is proved

* `pairwise_edges`, `mem_edges` — the cuts of a union are all edges of the grids, in ascending order.
* `segment_of_mem` — no edge lies inside a piece.
* `isCovered_iff` — a piece is kept where a bin of an ordered grid holds its middle.
* `isCovered_of_mem` — so it is when it lies within a bin.
* `sum_segments` — what a function gains over the pieces adds up to what it gains from the first cut to the
  last.
-/

namespace SpectralResponse.Grid

variable {K : Type} [Field K] [LinearOrder K] [FloorRing K] [Roots K] {grids : List (Grid K)} {g : Grid K}

/-- Different edges are further apart than edges that are taken as one. -/
def EdgesApart (grids : List (Grid K)) : Prop :=
  ∀ edge ∈ allEdges grids, ∀ other ∈ allEdges grids, edge ≠ other →
    edgeTolerance * Max.max 1 (Max.max |edge| |other|) < |edge - other|

/-- The places at which the union of some grids is cut, in order. -/
def cuts (grids : List (Grid K)) : List K := distinct ((allEdges grids).mergeSort fun a b => a ≤ b)

/-- The pieces between neighbouring cuts. -/
def segments (edges : List K) : List (Bin K) := List.zipWith Bin.mk edges edges.tail

/-- Edges of fewer grids are apart if those of all are. -/
theorem EdgesApart.subset {others : List (Grid K)} (h : EdgesApart grids) (hsub : others ⊆ grids) :
    EdgesApart others := by
  have hedges : allEdges others ⊆ allEdges grids := fun edge hedge => by
    obtain ⟨g, hg, hedge⟩ := List.mem_flatMap.1 hedge
    exact List.mem_flatMap.2 ⟨g, hsub hg, hedge⟩
  exact fun edge hedge other hother => h edge (hedges hedge) other (hedges hother)

section

omit [Field K] [LinearOrder K] [FloorRing K] [Roots K]

theorem lo_mem_allEdges (hg : g ∈ grids) {b : Bin K} (hb : b ∈ g.bins) : b.lo ∈ allEdges grids :=
  List.mem_flatMap.2 ⟨g, hg, List.mem_append_left _ (List.mem_map_of_mem hb)⟩

theorem hi_mem_allEdges (hg : g ∈ grids) {b : Bin K} (hb : b ∈ g.bins) : b.hi ∈ allEdges grids :=
  List.mem_flatMap.2 ⟨g, hg, List.mem_append_right _ (List.mem_map_of_mem hb)⟩

end

/-! ### Pieces -/

section

omit [FloorRing K] [Roots K] [Field K]

variable {edges : List K}

/-- A piece goes from one cut to another, and there is no cut inside it. -/
theorem segment_of_mem (h : edges.Pairwise (· < ·)) {piece : Bin K} (hpiece : piece ∈ segments edges) :
    piece.lo ∈ edges ∧ piece.hi ∈ edges ∧ piece.lo < piece.hi ∧ ∀ x ∈ edges, x ≤ piece.lo ∨ piece.hi ≤ x := by
  induction edges with
  | nil => cases hpiece
  | cons first rest ih =>
    obtain ⟨hfirst, hrest⟩ := List.pairwise_cons.1 h
    cases rest with
    | nil => cases hpiece
    | cons second rest =>
      rcases List.mem_cons.1 hpiece with rfl | hpiece
      · refine ⟨List.mem_cons_self, List.mem_cons_of_mem _ List.mem_cons_self, hfirst _ List.mem_cons_self, ?_⟩
        intro x hx
        rcases List.mem_cons.1 hx with rfl | hx
        · exact .inl (le_refl _)
        · rcases List.mem_cons.1 hx with rfl | hx
          · exact .inr (le_refl _)
          · exact .inr ((List.pairwise_cons.1 hrest).1 x hx).le
      · obtain ⟨hlo, hhi, hlt, hbetween⟩ := ih hrest hpiece
        refine ⟨List.mem_cons_of_mem _ hlo, List.mem_cons_of_mem _ hhi, hlt, fun x hx => ?_⟩
        rcases List.mem_cons.1 hx with rfl | hx
        · exact .inl (hfirst _ hlo).le
        · exact hbetween x hx

/-- No piece starts before those in front of it have ended. -/
theorem apart_segments (h : edges.Pairwise (· < ·)) : (segments edges).Pairwise fun a b => a.hi ≤ b.lo := by
  induction edges with
  | nil => exact List.Pairwise.nil
  | cons first rest ih =>
    obtain ⟨-, hrest⟩ := List.pairwise_cons.1 h
    cases rest with
    | nil => exact List.Pairwise.nil
    | cons second rest =>
      refine List.pairwise_cons.2 ⟨fun piece hpiece => ?_, ih hrest⟩
      rcases List.mem_cons.1 (segment_of_mem hrest hpiece).1 with he | hmem
      · exact he.ge
      · exact ((List.pairwise_cons.1 hrest).1 _ hmem).le

/-- The pieces stand in order. -/
theorem rises_segments (h : edges.Pairwise (· < ·)) : (segments edges).Pairwise fun a b => a.lo ≤ b.lo :=
  (apart_segments h).imp_of_mem fun ha _ hab => (segment_of_mem h ha).2.2.1.le.trans hab

end

omit [LinearOrder K] [FloorRing K] [Roots K] in
/-- What a function gains over the pieces adds up. -/
theorem sum_segments (gain : K → K) {first last : K} {rest : List K}
    (hlast : (first :: rest).getLast? = some last) :
    ((segments (first :: rest)).map fun piece => gain piece.hi - gain piece.lo).sum = gain last - gain first := by
  induction rest generalizing first with
  | nil =>
    obtain rfl : first = last := Option.some.inj hlast
    rw [sub_self]
    rfl
  | cons second rest ih =>
    rw [List.getLast?_cons_cons] at hlast
    show ((⟨first, second⟩ :: segments (second :: rest)).map _).sum = _
    rw [List.map_cons, List.sum_cons, ih hlast, add_comm, sub_add_sub_cancel]

/-- The bins of a union are the pieces that are kept. -/
theorem bins_of_union {union : Grid K} (h : Grid.union grids = .ok union) :
    union.bins = (segments (cuts grids)).filter fun piece =>
      isCovered (grids.map fun g => g.bins.toArray) (middle piece) :=
  bins_of_ofBins h

variable [IsStrictOrderedRing K]

/-! ### Cuts -/

/-- Edges are taken as one only if they are. -/
theorem isSameEdge_iff (h : EdgesApart grids) {kept next : K} (hkept : kept ∈ allEdges grids)
    (hnext : next ∈ allEdges grids) : isSameEdge kept next = true ↔ kept = next := by
  rw [isSameEdge, Scalar.abs_exact, Scalar.abs_exact, Scalar.greater_exact, decide_eq_true_eq]
  constructor
  · intro hle
    by_contra hne
    have hwide : edgeTolerance * Max.max |kept| 1 ≤ edgeTolerance * Max.max 1 (Max.max |kept| |next|) :=
      mul_le_mul_of_nonneg_left (max_le (le_max_of_le_right (le_max_left _ _)) (le_max_left _ _))
        edgeTolerance_pos.le
    have happart := h kept hkept next hnext hne
    rw [abs_sub_comm] at happart
    exact absurd (hle.trans hwide) (not_le.2 happart)
  · rintro rfl
    rw [sub_self, abs_zero]
    exact mul_nonneg edgeTolerance_pos.le (le_max_of_le_right zero_le_one)

omit [IsStrictOrderedRing K] in
/-- From edges in order the repeated ones are left out, and no others. -/
theorem distinctFrom_spec {kept : K} {edges : List K}
    (hsame : ∀ a ∈ kept :: edges, ∀ b ∈ kept :: edges, isSameEdge a b = true ↔ a = b)
    (hsorted : (kept :: edges).Pairwise (· ≤ ·)) :
    (kept :: distinctFrom kept edges).Pairwise (· < ·) ∧
      ∀ x, x ∈ kept :: distinctFrom kept edges ↔ x ∈ kept :: edges := by
  induction edges generalizing kept with
  | nil => exact ⟨List.pairwise_singleton _ _, fun _ => Iff.rfl⟩
  | cons next rest ih =>
    obtain ⟨hkept, hrest⟩ := List.pairwise_cons.1 hsorted
    have hnext := hsame kept List.mem_cons_self next (List.mem_cons_of_mem _ List.mem_cons_self)
    rw [distinctFrom]
    split
    · -- the next edge is the one that is kept
      rename_i hyes
      obtain rfl := hnext.1 hyes
      have hskip := ih (fun a ha b hb => hsame a (List.mem_cons_of_mem _ ha) b (List.mem_cons_of_mem _ hb)) hrest
      refine ⟨hskip.1, fun x => (hskip.2 x).trans ?_⟩
      simp only [List.mem_cons, or_self_left]
    · rename_i hno
      have hlt : kept < next := (hkept next List.mem_cons_self).lt_of_ne fun he => hno (hnext.2 he)
      obtain ⟨hstrict, hmem⟩ :=
        ih (fun a ha b hb => hsame a (List.mem_cons_of_mem _ ha) b (List.mem_cons_of_mem _ hb)) hrest
      refine ⟨List.pairwise_cons.2 ⟨fun x hx => ?_, hstrict⟩, fun x => ?_⟩
      · rcases List.mem_cons.1 hx with rfl | hx
        · exact hlt
        · exact hlt.trans ((List.pairwise_cons.1 hstrict).1 x hx)
      · rw [List.mem_cons, hmem x, ← List.mem_cons]

omit [FloorRing K] [Roots K] [Field K] [IsStrictOrderedRing K] in
/-- Sorted edges are in order. -/
theorem pairwise_sorted (edges : List K) : (edges.mergeSort fun a b => a ≤ b).Pairwise (· ≤ ·) := by
  have h : (edges.mergeSort fun a b => a ≤ b).Pairwise fun a b => decide (a ≤ b) = true :=
    List.pairwise_mergeSort (by simpa using fun _ _ _ => le_trans) (by simpa using le_total) edges
  simpa using h

theorem cuts_spec (h : EdgesApart grids) :
    (cuts grids).Pairwise (· < ·) ∧ ∀ x, x ∈ cuts grids ↔ x ∈ allEdges grids := by
  have hsorted := pairwise_sorted (allEdges grids)
  have hmem (x : K) : x ∈ (allEdges grids).mergeSort (fun a b => a ≤ b) ↔ x ∈ allEdges grids := List.mem_mergeSort
  rw [cuts]
  generalize (allEdges grids).mergeSort (fun a b => a ≤ b) = edges at hsorted hmem
  cases edges with
  | nil => exact ⟨List.Pairwise.nil, hmem⟩
  | cons first rest =>
    obtain ⟨hstrict, hsame⟩ := distinctFrom_spec
      (fun a ha b hb => isSameEdge_iff h ((hmem a).1 ha) ((hmem b).1 hb)) hsorted
    exact ⟨hstrict, fun x => (hsame x).trans (hmem x)⟩

/-! ### The pieces of a union -/

/-- The middle of a piece lies inside it. -/
theorem middle_mem {piece : Bin K} (h : piece.lo < piece.hi) : piece.lo < middle piece ∧ middle piece < piece.hi := by
  have hhalf : middle piece = (piece.lo + piece.hi) / 2 := by
    rw [middle]
    norm_num
    ring
  rw [hhalf]
  constructor <;> linarith

omit [IsStrictOrderedRing K] in
/-- A value is covered where a bin of an ordered grid holds it. -/
theorem isCovered_iff (horder : ∀ g ∈ grids, g.Ordered) {value : K} :
    isCovered (grids.map fun g => g.bins.toArray) value = true ↔
      ∃ g ∈ grids, ∃ b ∈ g.bins, b.lo ≤ value ∧ value < b.hi := by
  rw [isCovered, List.any_map, List.any_eq_true]
  exact exists_congr fun g => and_congr_right fun hg => isSome_findAmong? (horder g hg)

/-- A piece that lies within a bin of an ordered grid is kept. -/
theorem isCovered_of_mem (hg : g ∈ grids) (horder : g.Ordered) {b piece : Bin K} (hb : b ∈ g.bins)
    (hpiece : piece.lo < piece.hi) (hlo : b.lo ≤ piece.lo) (hhi : piece.hi ≤ b.hi) :
    isCovered (grids.map fun g => g.bins.toArray) (middle piece) = true := by
  obtain ⟨hafter, hbefore⟩ := middle_mem hpiece
  rw [isCovered, List.any_map, List.any_eq_true]
  exact ⟨g, hg, (isSome_findAmong? horder).2 ⟨b, hb, hlo.trans hafter.le, hbefore.trans_le hhi⟩⟩

end SpectralResponse.Grid
