import SpectralResponse.Proofs.Grid.Ordered

/-!
# Grids with wide bins

Grids are compared up to a fraction of the width of their bins. On a grid whose bins are all wider than
that fraction of the whole grid, edges cannot be confused: two grids made of whole stretches of such a
grid agree only if they are equal.

## What is proved

* `agrees_self` — a grid agrees with itself.
* `Wide.eq_of_agrees` — grids whose bins span stretches of one wide grid are equal if they agree.
-/

namespace SpectralResponse.Grid

variable {K : Type} [Field K] [LinearOrder K] [FloorRing K] [Roots K]

/-- No bin starts before the one before it has ended, and each bin is wider than the tolerance for edges
times the extent of the grid. -/
structure Wide (g : Grid K) : Prop where
  /-- Each bin ends above its start. -/
  positive : ∀ b ∈ g.bins, b.lo < b.hi
  /-- The bins do not overlap. -/
  apart : g.bins.IsChain fun a b => a.hi ≤ b.lo
  /-- The bins are wide. -/
  wide : ∀ b ∈ g.bins, edgeTolerance * (g.max - g.min) < b.width

/-- The bin starts with one bin of a list and ends with the same or a later one. -/
def Spans (bins : List (Bin K)) (b : Bin K) : Prop :=
  ∃ (i j : Nat) (first last : Bin K), i ≤ j ∧ bins[i]? = some first ∧ bins[j]? = some last ∧ b = ⟨first.lo, last.hi⟩

omit [Field K] [LinearOrder K] [FloorRing K] [Roots K] in
theorem spans_of_mem {bins : List (Bin K)} {b : Bin K} (h : b ∈ bins) : Spans bins b := by
  obtain ⟨i, hi⟩ := List.mem_iff_getElem?.1 h
  exact ⟨i, i, b, b, Nat.le_refl _, hi, hi, rfl⟩

namespace Wide

variable {g : Grid K} (h : g.Wide)
include h

theorem toOrdered : g.Ordered := ⟨h.positive, h.apart⟩

theorem min_le {b : Bin K} (hb : b ∈ g.bins) : g.min ≤ b.lo := by
  have hlos : g.bins.Pairwise _ := h.toOrdered.rises
  rw [Grid.min]
  cases hbins : g.bins with
  | nil =>
    rw [hbins] at hb
    cases hb
  | cons first rest =>
    rw [hbins] at hb hlos
    rcases List.mem_cons.1 hb with rfl | hb
    · exact le_refl _
    · exact (List.pairwise_cons.1 hlos).1 b hb

theorem le_max {b : Bin K} (hb : b ∈ g.bins) : b.hi ≤ g.max := by
  have hne : g.bins ≠ [] := List.ne_nil_of_mem hb
  have hordered := h.toOrdered.pairwise
  rw [Grid.max, List.getLast?_eq_some_getLast hne]
  rw [← List.dropLast_append_getLast hne] at hordered hb
  rcases List.mem_append.1 hb with hb | hb
  · have hlast := (List.pairwise_append.1 hordered).2.2 b hb _ (List.mem_singleton_self _)
    exact hlast.trans (h.positive _ (List.getLast_mem hne)).le
  · rw [List.mem_singleton.1 hb]
    exact le_refl _

end Wide

/-! ### Comparing grids -/

/-- Grids that agree do so bin by bin. -/
theorem forall₂_of_agrees {g g' : Grid K} {tolerance : K} (h : g.agrees g' tolerance = true) :
    List.Forall₂ (fun a b => sameBin tolerance a b = true) g.bins g'.bins := by
  rw [agrees, Bool.and_eq_true, List.all_eq_true] at h
  refine List.forall₂_iff_zip.2 ⟨eq_of_beq h.1, fun {a b} hab => ?_⟩
  refine h.2 _ ?_
  rw [← List.map_uncurry_zip_eq_zipWith]
  exact List.mem_map_of_mem hab

variable [IsStrictOrderedRing K]

theorem sameBin_self {tolerance : K} (h : 0 ≤ tolerance) {b : Bin K} (hb : 0 ≤ b.width) :
    sameBin tolerance b b = true := by
  simp only [sameBin, Scalar.abs_exact, Scalar.lesser_exact, sub_self, abs_zero, min_self, Bool.and_eq_true,
    decide_eq_true_eq, and_self]
  exact mul_nonneg h hb

theorem agrees_self {g : Grid K} (h : ∀ b ∈ g.bins, 0 ≤ b.width) : g.agrees g edgeTolerance = true := by
  rw [agrees, Bool.and_eq_true]
  refine ⟨beq_self_eq_true _, List.all_eq_true.2 fun same hsame => ?_⟩
  rw [← List.map_uncurry_zip_eq_zipWith] at hsame
  obtain ⟨⟨a, b⟩, hab, rfl⟩ := List.mem_map.1 hsame
  obtain ⟨i, hi⟩ := List.mem_iff_getElem?.1 hab
  obtain ⟨ha, hb⟩ := List.getElem?_zip_eq_some.1 hi
  cases ha.symm.trans hb
  exact sameBin_self edgeTolerance_pos.le (h a (List.mem_of_getElem? ha))

theorem edges_of_sameBin {tolerance : K} (ht : 0 ≤ tolerance) {a b : Bin K}
    (h : sameBin tolerance a b = true) :
    |a.lo - b.lo| ≤ tolerance * a.width ∧ |a.hi - b.hi| ≤ tolerance * a.width := by
  simp only [sameBin, Scalar.abs_exact, Scalar.lesser_exact, Bool.and_eq_true, decide_eq_true_eq] at h
  have hle := mul_le_mul_of_nonneg_left (min_le_left a.width b.width) ht
  exact ⟨h.1.trans hle, h.2.trans hle⟩

namespace Wide

variable {g : Grid K} (h : g.Wide)
include h

/-- The extent of the grid bounds the width of each stretch. -/
theorem tolerance_width_le {b : Bin K} (hb : Spans g.bins b) :
    edgeTolerance * b.width ≤ edgeTolerance * (g.max - g.min) := by
  obtain ⟨i, j, first, last, -, hi, hj, rfl⟩ := hb
  have hmin := h.min_le (List.mem_of_getElem? hi)
  have hmax := h.le_max (List.mem_of_getElem? hj)
  refine mul_le_mul_of_nonneg_left ?_ edgeTolerance_pos.le
  rw [Bin.width]
  linarith

/-- Edges of different bins are further apart than the tolerance. -/
theorem edges_apart {i j : Nat} {a b : Bin K} (hij : i < j) (ha : g.bins[i]? = some a)
    (hb : g.bins[j]? = some b) :
    edgeTolerance * (g.max - g.min) < b.lo - a.lo ∧ edgeTolerance * (g.max - g.min) < b.hi - a.hi := by
  have hordered := h.toOrdered.hi_le_lo hij ha hb
  have hwa := h.wide _ (List.mem_of_getElem? ha)
  have hwb := h.wide _ (List.mem_of_getElem? hb)
  rw [Bin.width] at hwa hwb
  constructor <;> linarith

/-- Edges that are the same up to the tolerance belong to the same bins. -/
theorem eq_of_sameBin {a b : Bin K} (ha : Spans g.bins a) (hb : Spans g.bins b)
    (hsame : sameBin edgeTolerance a b = true) : a = b := by
  have htolerance := h.tolerance_width_le ha
  obtain ⟨hlo, hhi⟩ := edges_of_sameBin edgeTolerance_pos.le hsame
  obtain ⟨i, j, first, last, -, hi, hj, rfl⟩ := ha
  obtain ⟨i', j', first', last', -, hi', hj', rfl⟩ := hb
  rw [abs_le] at hlo hhi
  have hfirst : first = first' := by
    rcases Nat.lt_trichotomy i i' with hlt | rfl | hlt
    · have := (h.edges_apart hlt hi hi').1
      linarith [hlo.1]
    · exact Option.some.inj (hi.symm.trans hi')
    · have := (h.edges_apart hlt hi' hi).1
      linarith [hlo.2]
  have hlast : last = last' := by
    rcases Nat.lt_trichotomy j j' with hlt | rfl | hlt
    · have := (h.edges_apart hlt hj hj').2
      linarith [hhi.1]
    · exact Option.some.inj (hj.symm.trans hj')
    · have := (h.edges_apart hlt hj' hj).2
      linarith [hhi.2]
  rw [hfirst, hlast]

/-- Grids made of stretches of one wide grid agree only if they are equal. -/
theorem eq_of_agrees {a b : Grid K} (ha : ∀ bin ∈ a.bins, Spans g.bins bin)
    (hb : ∀ bin ∈ b.bins, Spans g.bins bin) (hagree : a.agrees b edgeTolerance = true) : a = b := by
  have hall := forall₂_of_agrees hagree
  have hbins : a.bins = b.bins := by
    generalize a.bins = as at ha hall
    generalize b.bins = bs at hb hall
    induction hall with
    | nil => rfl
    | cons hsame _ ih =>
      rw [h.eq_of_sameBin (ha _ List.mem_cons_self) (hb _ List.mem_cons_self) hsame]
      rw [ih (fun bin hbin => ha bin (List.mem_cons_of_mem _ hbin))
        (fun bin hbin => hb bin (List.mem_cons_of_mem _ hbin))]
  cases a
  cases b
  exact congrArg Grid.mk hbins

end Wide

end SpectralResponse.Grid
