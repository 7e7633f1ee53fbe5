import SpectralResponse.Proofs.Grid.Canonical
import SpectralResponse.Proofs.Scalar.Exact
import Mathlib.Data.List.Chain

/-!
# The order of bins

A grid that passes validation has bins of positive width. That they stand in order is not sure: a bin may
start below the end of the one before it by a slack for rounding, and when bins are narrower than the slack
it may even start below the start of that bin. What later results need of the order is said by two
predicates: the low edges never decrease (`Rises`), or no bin starts before the one before it has ended
(`Ordered`).

## What is proved

* `Valid.positive` — the bins of a grid that passes validation are not empty.
* `Ordered.hi_le_lo`, `Ordered.edges_le` — what order says of bins that are not neighbours.
* `Ordered.ofBins_eq_ok` — bins in order pass validation.
-/

namespace SpectralResponse.Grid

/-! ### Validation -/

section

variable {α : Type} [Scalar α]

/-- The grid passes validation. -/
def Valid (g : Grid α) : Prop := ofBins g.bins = .ok g

theorem valid_of_ofBins {bins : List (Bin α)} {g : Grid α} (h : ofBins bins = .ok g) : g.Valid := by
  rw [Valid, bins_of_ofBins h, h]

theorem valid_of_canonicalize {lo hi : List α} {unit : EdgeUnit} {c : Canonical α}
    (h : canonicalize lo hi unit = .ok c) : c.grid.Valid := by
  obtain ⟨-, h⟩ := Except.guard_eq_ok.1 h
  obtain ⟨-, h⟩ := Except.guard_eq_ok.1 h
  obtain ⟨-, -, h⟩ := Except.bind_eq_ok.1 h
  obtain ⟨-, -, h⟩ := Except.bind_eq_ok.1 h
  obtain ⟨bins, -, h⟩ := Except.bind_eq_ok.1 h
  obtain ⟨grid, hgrid, h⟩ := Except.bind_eq_ok.1 h
  cases Except.ok.inj h
  exact valid_of_ofBins hgrid

end

variable {K : Type} [Field K] [LinearOrder K] [FloorRing K] [Roots K] {g : Grid K}

theorem positive_of_checkFrom {bins : List (Bin K)} {index : Nat} {previousHi? : Option K}
    (h : checkFrom index previousHi? bins = .ok ()) : ∀ b ∈ bins, b.lo < b.hi := by
  induction bins generalizing index previousHi? with
  | nil => exact fun b hb => absurd hb List.not_mem_nil
  | cons b bins ih =>
    obtain ⟨⟨⟩, hb, h⟩ := Except.bind_eq_ok.1 h
    obtain ⟨-, hb⟩ := Except.guard_eq_ok.1 hb
    obtain ⟨-, hb⟩ := Except.guard_eq_ok.1 hb
    obtain ⟨hwidth, -⟩ := Except.guard_eq_ok.1 hb
    exact List.forall_mem_cons.2 ⟨not_le.1 hwidth, ih h⟩

/-- The bins of a grid that passes validation are not empty. -/
theorem Valid.positive (h : g.Valid) : ∀ b ∈ g.bins, b.lo < b.hi := by
  obtain ⟨-, h⟩ := Except.guard_eq_ok.1 h
  obtain ⟨⟨⟩, h, -⟩ := Except.bind_eq_ok.1 h
  exact positive_of_checkFrom h

/-! ### Order -/

omit [FloorRing K] [Roots K] [Field K] in
/-- The low edges never decrease. -/
def Rises (g : Grid K) : Prop := g.bins.Pairwise fun a b => a.lo ≤ b.lo

omit [FloorRing K] [Roots K] [Field K] in
/-- No bin is empty or starts before the one before it has ended. -/
structure Ordered (g : Grid K) : Prop where
  /-- Each bin ends above its start. -/
  positive : ∀ b ∈ g.bins, b.lo < b.hi
  /-- The bins do not overlap. -/
  apart : g.bins.IsChain fun a b => a.hi ≤ b.lo

namespace Ordered

omit [FloorRing K] [Roots K] [Field K]

variable (h : g.Ordered)
include h

/-- Bins further on start after those before them have ended. -/
theorem pairwise : g.bins.Pairwise fun a b => a.hi ≤ b.lo := by
  have hpositive := h.positive
  have hapart := h.apart
  generalize g.bins = bins at hpositive hapart
  induction bins with
  | nil => exact List.Pairwise.nil
  | cons a bins ih =>
    cases bins with
    | nil => exact List.pairwise_singleton _ _
    | cons b bins =>
      obtain ⟨hab, hrest⟩ := List.isChain_cons_cons.1 hapart
      have hordered := ih (fun c hc => hpositive c (List.mem_cons_of_mem _ hc)) hrest
      refine List.pairwise_cons.2 ⟨fun c hc => ?_, hordered⟩
      rcases List.mem_cons.1 hc with rfl | hc
      · exact hab
      · have hb := hpositive b (List.mem_cons_of_mem _ List.mem_cons_self)
        exact hab.trans (hb.le.trans ((List.pairwise_cons.1 hordered).1 c hc))

theorem hi_le_lo {i j : Nat} {a b : Bin K} (hij : i < j) (ha : g.bins[i]? = some a)
    (hb : g.bins[j]? = some b) : a.hi ≤ b.lo := by
  obtain ⟨hi, rfl⟩ := List.getElem?_eq_some_iff.1 ha
  obtain ⟨hj, rfl⟩ := List.getElem?_eq_some_iff.1 hb
  exact List.pairwise_iff_getElem.1 h.pairwise i j hi hj hij

/-- The bins from one position on neither start before that bin nor end before it. -/
theorem edges_le {i j : Nat} {a b : Bin K} (hij : i ≤ j) (ha : g.bins[i]? = some a)
    (hb : g.bins[j]? = some b) : a.lo ≤ b.lo ∧ a.hi ≤ b.hi := by
  rcases Nat.eq_or_lt_of_le hij with rfl | hlt
  · cases ha.symm.trans hb
    exact ⟨le_refl _, le_refl _⟩
  · have hle := h.hi_le_lo hlt ha hb
    have hpa := h.positive a (List.mem_of_getElem? ha)
    have hpb := h.positive b (List.mem_of_getElem? hb)
    exact ⟨hpa.le.trans hle, hle.trans hpb.le⟩

theorem rises : g.Rises :=
  h.pairwise.imp_of_mem fun ha _ hab => (h.positive _ ha).le.trans hab

end Ordered

/-! ### Ordered bins pass validation -/

variable [IsStrictOrderedRing K]

theorem slack_pos (previousHi lo : K) : 0 < slack previousHi lo := by
  rw [slack, Scalar.greater_exact]
  exact mul_pos edgeTolerance_pos (lt_max_of_lt_right one_pos)

/-- A bin that is not empty and does not start before the one before it has ended passes the check. -/
theorem checkBin_eq_ok {index : Nat} {previousHi? : Option K} {b : Bin K} (hb : b.lo < b.hi)
    (hapart : ∀ previousHi ∈ previousHi?, previousHi ≤ b.lo) : checkBin index previousHi? b = .ok () := by
  have hfinite (x : K) : ¬((!Scalar.isFinite x) = true) := by simp
  refine Except.guard_eq_ok.2 ⟨hfinite _, Except.guard_eq_ok.2 ⟨hfinite _, Except.guard_eq_ok.2 ⟨not_le.2 hb, ?_⟩⟩⟩
  cases previousHi? with
  | none => rfl
  | some previousHi =>
    have hle : previousHi - b.lo ≤ slack previousHi b.lo :=
      (sub_nonpos.2 (hapart _ rfl)).trans (slack_pos _ _).le
    exact Except.guard_eq_ok.2 ⟨not_lt.2 hle, rfl⟩

theorem checkFrom_eq_ok {index : Nat} {previousHi? : Option K} {bins : List (Bin K)}
    (hpositive : ∀ b ∈ bins, b.lo < b.hi) (hapart : bins.IsChain fun a b => a.hi ≤ b.lo)
    (hfirst : ∀ previousHi ∈ previousHi?, ∀ b ∈ bins.head?, previousHi ≤ b.lo) :
    checkFrom index previousHi? bins = .ok () := by
  induction bins generalizing index previousHi? with
  | nil => rfl
  | cons b bins ih =>
    obtain ⟨hb, hbins⟩ := List.forall_mem_cons.1 hpositive
    obtain ⟨hnext, hapart⟩ := List.isChain_cons.1 hapart
    rw [checkFrom, checkBin_eq_ok hb fun previousHi hprevious => hfirst previousHi hprevious b rfl]
    refine ih hbins hapart fun previousHi hprevious c hc => ?_
    cases hprevious
    exact hnext c hc

/-- Bins of which none is empty or starts before the one before it has ended are a grid. -/
theorem Ordered.ofBins_eq_ok (h : g.Ordered) (hne : g.bins ≠ []) : ofBins g.bins = .ok g := by
  have hsome : ¬(g.bins.isEmpty = true) := by simpa using hne
  have hchecked : checkFrom 0 none g.bins = .ok () := checkFrom_eq_ok h.positive h.apart (by simp)
  exact Except.guard_eq_ok.2 ⟨hsome, Except.bind_eq_ok.2 ⟨(), hchecked, rfl⟩⟩

end SpectralResponse.Grid
