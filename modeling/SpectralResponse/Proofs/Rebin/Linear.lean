import SpectralResponse.Proofs.Rebin.Sums
import Mathlib.Algebra.Module.LinearMap.Defs

/-!
# Rebinning is linear

What a target bin gets depends on the values through fixed factors, which come from the edges alone. So it
does not matter whether values are combined before they are moved or after. To say this of all combinations
at once, the source bins hold vectors, and values are what linear forms make of those.

Nothing is asked of the grids: their bins may stand in any order and overlap.

## What is proved

* `exists_rebin` — vectors are moved, and every linear form sees its values moved.
* `rebin_nonneg` — values that are not negative stay so.
-/

namespace SpectralResponse

variable {K : Type} [Field K] [LinearOrder K] [FloorRing K] [Roots K]

/-! ### The sweep as one step per source bin -/

theorem shareOf_eq_mul (source : Bin K) (value : K) (target : Bin K) :
    shareOf source value target = value * shareOf source 1 target := by
  rw [shareOf, shareOf]
  split
  · rw [one_mul]
  · rw [mul_zero]

theorem deposit_zero (source : Bin K) (cells : List (Cell K)) : deposit source 0 cells = cells := by
  induction cells with
  | nil => rfl
  | cons c cells ih => rw [deposit, ih, receive_eq_share, shareOf_zero, add_zero, ite_self]

/-- A value of zero is left out, which makes no difference. -/
theorem sweep_cons (source : Bin K) (value : K) (rest : List (Bin K × K)) (cells : List (Cell K)) :
    sweep ((source, value) :: rest) cells =
      (cells.takeWhile fun c => decide (c.bin.hi ≤ source.lo)).map Cell.total ++
        sweep rest (deposit source value (cells.dropWhile fun c => decide (c.bin.hi ≤ source.lo))) := by
  rw [sweep]
  split
  · rename_i hzero
    rw [eq_of_beq hzero, deposit_zero]
  · rfl

theorem length_deposit (source : Bin K) (value : K) (cells : List (Cell K)) :
    (deposit source value cells).length = cells.length := by
  induction cells with
  | nil => rfl
  | cons c cells ih =>
    rw [deposit]
    split
    · rw [List.length_cons, ih, List.length_cons]
    · rfl

theorem length_sweep (sources : List (Bin K × K)) (cells : List (Cell K)) :
    (sweep sources cells).length = cells.length := by
  induction sources generalizing cells with
  | nil => simp [sweep]
  | cons p rest ih =>
    rw [sweep_cons, List.length_append, List.length_map, ih, length_deposit, ← List.length_append,
      List.takeWhile_append_dropWhile]

theorem rebin_eq_ok_iff {target source : Grid K} {values moved : List K} :
    rebin target source values = .ok moved ↔ values.length = source.length ∧
      moved = sweep (source.bins.zip values) (target.bins.map fun b => ⟨b, 0⟩) := by
  by_cases hlen : values.length = source.length
  · rw [rebin, if_neg (not_not.2 hlen), Except.ok.injEq, eq_comm, and_iff_right hlen]
  · rw [rebin, if_pos hlen]
    refine ⟨fun h => ?_, fun h => absurd h.1 hlen⟩
    cases h

/-- As many values come out as there are target bins. -/
theorem length_of_rebin {target source : Grid K} {values moved : List K}
    (h : rebin target source values = .ok moved) : moved.length = target.length := by
  rw [(rebin_eq_ok_iff.1 h).2, length_sweep, List.length_map, Grid.length]

/-! ### Vectors in place of values -/

section

variable {V : Type} [AddCommGroup V] [Module K V]

/-- A target bin that has received a vector, as a linear form sees it. -/
def seenBy (φ : V →ₗ[K] K) (c : Bin K × V) : Cell K := ⟨c.1, φ c.2⟩

omit [LinearOrder K] [FloorRing K] [Roots K] in
@[simp]
theorem bin_seenBy (φ : V →ₗ[K] K) (c : Bin K × V) : (seenBy φ c).bin = c.1 := rfl

omit [LinearOrder K] [FloorRing K] [Roots K] in
@[simp]
theorem total_seenBy (φ : V →ₗ[K] K) (c : Bin K × V) : (seenBy φ c).total = φ c.2 := rfl

theorem receive_seenBy (φ : V →ₗ[K] K) (source : Bin K) (vector : V) (c : Bin K × V) :
    (seenBy φ c).receive source (φ vector) = seenBy φ (c.1, c.2 + shareOf source 1 c.1 • vector) := by
  rw [receive_eq_share, shareOf_eq_mul]
  simp only [seenBy, map_add, map_smul, smul_eq_mul]
  rw [mul_comm]

theorem exists_deposit (source : Bin K) (vector : V) (cells : List (Bin K × V)) :
    ∃ cells' : List (Bin K × V), ∀ φ : V →ₗ[K] K,
      deposit source (φ vector) (cells.map (seenBy φ)) = cells'.map (seenBy φ) := by
  induction cells with
  | nil => exact ⟨[], fun φ => rfl⟩
  | cons c cells ih =>
    obtain ⟨cells', hcells⟩ := ih
    by_cases hreached : c.1.lo < source.hi
    · refine ⟨(c.1, c.2 + shareOf source 1 c.1 • vector) :: cells', fun φ => ?_⟩
      rw [List.map_cons, deposit, bin_seenBy, if_pos hreached, receive_seenBy, hcells, List.map_cons]
    · refine ⟨c :: cells, fun φ => ?_⟩
      rw [List.map_cons, deposit, bin_seenBy, if_neg hreached]

theorem exists_sweep (sources cells : List (Bin K × V)) :
    ∃ vectors : List V, ∀ φ : V →ₗ[K] K,
      sweep (sources.map fun p => (p.1, φ p.2)) (cells.map (seenBy φ)) = vectors.map φ := by
  induction sources generalizing cells with
  | nil =>
    refine ⟨cells.map Prod.snd, fun φ => ?_⟩
    simp [sweep, Function.comp_def]
  | cons p rest ih =>
    obtain ⟨source, vector⟩ := p
    let isPassed := fun c : Bin K × V => decide (c.1.hi ≤ source.lo)
    obtain ⟨ahead, hahead⟩ := exists_deposit source vector (cells.dropWhile isPassed)
    obtain ⟨vectors, hvectors⟩ := ih ahead
    refine ⟨(cells.takeWhile isPassed).map Prod.snd ++ vectors, fun φ => ?_⟩
    have htake : (cells.map (seenBy φ)).takeWhile (fun c => decide (c.bin.hi ≤ source.lo)) =
        (cells.takeWhile isPassed).map (seenBy φ) := List.takeWhile_map
    have hdrop : (cells.map (seenBy φ)).dropWhile (fun c => decide (c.bin.hi ≤ source.lo)) =
        (cells.dropWhile isPassed).map (seenBy φ) := List.dropWhile_map
    rw [List.map_cons, sweep_cons, htake, hdrop, hahead, hvectors, List.map_append, List.map_map, List.map_map]
    rfl

/-- Vectors in the source bins are moved to the target bins, and every linear form sees the values moved that
it makes of them. -/
theorem exists_rebin (target source : Grid K) {vectors : List V} (h : vectors.length = source.length) :
    ∃ moved : List V, ∀ φ : V →ₗ[K] K, rebin target source (vectors.map φ) = .ok (moved.map φ) := by
  obtain ⟨moved, hmoved⟩ := exists_sweep (source.bins.zip vectors) (target.bins.map fun b => (b, 0))
  refine ⟨moved, fun φ => rebin_eq_ok_iff.2 ⟨by rw [List.length_map, h], ?_⟩⟩
  have hsources : source.bins.zip (vectors.map φ) = (source.bins.zip vectors).map fun p => (p.1, φ p.2) :=
    List.zip_map_right
  have hcells : target.bins.map (fun b => (⟨b, 0⟩ : Cell K)) =
      (target.bins.map fun b => (b, (0 : V))).map (seenBy φ) := by
    simp [seenBy, Function.comp_def]
  rw [hsources, hcells, hmoved]

end

/-! ### Values that are not negative -/

variable [IsStrictOrderedRing K]

/-- A share is not negative: what overlaps another bin is not empty. -/
theorem shareOf_nonneg {source : Bin K} {value : K} (h : 0 ≤ value) (target : Bin K) :
    0 ≤ shareOf source value target := by
  rw [shareOf]
  split
  · rename_i hshared
    have hwidth : 0 ≤ source.width := by
      rw [overlap_exact, lt_max_iff, or_iff_left (lt_irrefl _), sub_pos, max_lt_iff, lt_min_iff] at hshared
      exact (sub_pos.2 hshared.1.1).le
    exact mul_nonneg h (div_nonneg hshared.le hwidth)
  · exact le_refl _

theorem deposit_nonneg {source : Bin K} {value : K} (hv : 0 ≤ value) {cells : List (Cell K)}
    (h : ∀ c ∈ cells, 0 ≤ c.total) : ∀ c ∈ deposit source value cells, 0 ≤ c.total := by
  induction cells with
  | nil => exact h
  | cons c cells ih =>
    rw [List.forall_mem_cons] at h
    rw [deposit]
    split
    · rw [List.forall_mem_cons, receive_eq_share]
      exact ⟨add_nonneg h.1 (shareOf_nonneg hv c.bin), ih h.2⟩
    · exact List.forall_mem_cons.2 h

theorem sweep_nonneg {sources : List (Bin K × K)} (hs : ∀ p ∈ sources, 0 ≤ p.2) {cells : List (Cell K)}
    (hc : ∀ c ∈ cells, 0 ≤ c.total) : ∀ x ∈ sweep sources cells, 0 ≤ x := by
  induction sources generalizing cells with
  | nil =>
    rw [sweep]
    exact List.forall_mem_map.2 hc
  | cons p rest ih =>
    rw [List.forall_mem_cons] at hs
    rw [sweep_cons]
    intro x hx
    rcases List.mem_append.1 hx with hx | hx
    · obtain ⟨c, hmem, rfl⟩ := List.mem_map.1 hx
      exact hc c (List.takeWhile_subset _ hmem)
    · exact ih hs.2 (deposit_nonneg hs.1 fun c hmem => hc c (List.dropWhile_subset _ hmem)) x hx

/-- Values that are not negative stay so. -/
theorem rebin_nonneg {target source : Grid K} {values moved : List K}
    (h : rebin target source values = .ok moved) (hv : ∀ x ∈ values, 0 ≤ x) : ∀ x ∈ moved, 0 ≤ x := by
  rw [(rebin_eq_ok_iff.1 h).2]
  refine sweep_nonneg (fun p hp => hv p.2 (List.of_mem_zip hp).2) fun c hc => ?_
  obtain ⟨b, -, rfl⟩ := List.mem_map.1 hc
  exact le_refl _

end SpectralResponse
