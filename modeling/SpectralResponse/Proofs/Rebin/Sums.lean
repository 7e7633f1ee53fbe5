import SpectralResponse.Proofs.Scalar.Exact
import SpectralResponse.Rebin.Overlap
import Mathlib.Algebra.BigOperators.Ring.List
import Mathlib.Data.List.TakeWhile

/-!
# Rebinning as a sum

The sweep visits each pair of a source bin and a target bin once at most and leaves out the pairs that
cannot overlap. When the bins of both grids stand in the order of their low edges it leaves out no others,
so each target bin gets the sum of the shares of all source bins.

## What is proved

* `sweep_eq_shares` — what the cells hold after a sweep.
* `rebin_eq_shares` — rebinning gives each target bin the sum of its shares.
-/

namespace SpectralResponse

variable {K : Type} [Field K] [LinearOrder K] [FloorRing K] [Roots K]

/-! ### Shares -/

theorem overlap_exact (a b : Bin K) : a.overlap b = max (min a.hi b.hi - max a.lo b.lo) 0 := by
  rw [Bin.overlap, Scalar.lesser_exact, Scalar.greater_exact, Scalar.greater_exact]

/-- The part of a value of a source bin that a target bin gets. -/
def shareOf (source : Bin K) (value : K) (target : Bin K) : K :=
  if 0 < source.overlap target then value * (source.overlap target / source.width) else 0

theorem overlap_nonneg (a b : Bin K) : 0 ≤ a.overlap b := by
  rw [overlap_exact]
  exact le_max_right _ _

omit [Field K] [FloorRing K] [Roots K] in
/-- The bins have more than an edge in common. -/
def Bin.Overlaps (a b : Bin K) : Prop := max a.lo b.lo < min a.hi b.hi

instance (a b : Bin K) : Decidable (a.Overlaps b) := inferInstanceAs (Decidable (max a.lo b.lo < min a.hi b.hi))

theorem overlap_pos_iff [IsStrictOrderedRing K] {a b : Bin K} : 0 < a.overlap b ↔ a.Overlaps b := by
  rw [overlap_exact, lt_max_iff, or_iff_left (lt_irrefl 0), sub_pos, Bin.Overlaps]

/-- Where nothing is shared the product is zero as well, so the test makes no difference. -/
theorem shareOf_eq (source : Bin K) (value : K) (target : Bin K) :
    shareOf source value target = value * (source.overlap target / source.width) := by
  rw [shareOf]
  split
  · rfl
  · rename_i hzero
    rw [le_antisymm (not_lt.1 hzero) (overlap_nonneg source target), zero_div, mul_zero]

theorem shareOf_zero (source target : Bin K) : shareOf source 0 target = 0 := by
  rw [shareOf, zero_mul, ite_self]

theorem receive_eq_share (source : Bin K) (value : K) (c : Cell K) :
    c.receive source value = ⟨c.bin, c.total + shareOf source value c.bin⟩ := by
  rw [Cell.receive, shareOf]
  split
  · rfl
  · rw [add_zero]

/-- The sum of the shares of some source bins. -/
def sharesOf (sources : List (Bin K × K)) (target : Bin K) : K :=
  (sources.map fun (source, value) => shareOf source value target).sum

theorem sharesOf_cons (source : Bin K) (value : K) (sources : List (Bin K × K)) (target : Bin K) :
    sharesOf ((source, value) :: sources) target = shareOf source value target + sharesOf sources target :=
  List.sum_cons

/-- What the target bins get together is what each source bin gives away, which is in proportion to the
lengths it has in common with them. -/
theorem sum_sharesOf (sources : List (Bin K × K)) (targets : List (Bin K)) :
    (targets.map (sharesOf sources)).sum =
      (sources.map fun p => p.2 * ((targets.map p.1.overlap).sum / p.1.width)).sum := by
  induction sources with
  | nil =>
    show (targets.map fun _ => (0 : K)).sum = 0
    simp
  | cons p sources ih =>
    have hgive : (targets.map (shareOf p.1 p.2)).sum = p.2 * ((targets.map p.1.overlap).sum / p.1.width) := by
      have hshare (b : Bin K) : shareOf p.1 p.2 b = p.1.overlap b * (p.2 / p.1.width) := by
        rw [shareOf_eq, mul_div_left_comm]
      rw [List.map_congr_left fun b _ => hshare b, List.sum_map_mul_right, mul_div_left_comm]
    rw [List.map_congr_left fun b _ => sharesOf_cons p.1 p.2 sources b, List.sum_map_add, hgive, ih,
      List.map_cons, List.sum_cons]

variable [IsStrictOrderedRing K]

/-- A target bin that ends before the source bin starts gets nothing. -/
theorem shareOf_eq_zero_of_before {source target : Bin K} (value : K) (h : target.hi ≤ source.lo) :
    shareOf source value target = 0 := by
  rw [shareOf, if_neg]
  have hle : min source.hi target.hi ≤ max source.lo target.lo :=
    (min_le_right _ _).trans (h.trans (le_max_left _ _))
  rw [overlap_exact, max_eq_right (sub_nonpos.2 hle)]
  exact lt_irrefl 0

/-- A target bin that starts after the source bin ends gets nothing. -/
theorem shareOf_eq_zero_of_after {source target : Bin K} (value : K) (h : source.hi ≤ target.lo) :
    shareOf source value target = 0 := by
  rw [shareOf, if_neg]
  have hle : min source.hi target.hi ≤ max source.lo target.lo :=
    (min_le_left _ _).trans (h.trans (le_max_right _ _))
  rw [overlap_exact, max_eq_right (sub_nonpos.2 hle)]
  exact lt_irrefl 0

/-- A target bin that holds all of the source bin gets all of its value. -/
theorem shareOf_eq_of_inside {source target : Bin K} (value : K) (hw : source.lo < source.hi)
    (hlo : target.lo ≤ source.lo) (hhi : source.hi ≤ target.hi) :
    shareOf source value target = value := by
  have hwidth : 0 < source.hi - source.lo := sub_pos.2 hw
  have hoverlap : source.overlap target = source.hi - source.lo := by
    rw [overlap_exact, min_eq_left hhi, max_eq_left hlo, max_eq_left hwidth.le]
  rw [shareOf, hoverlap, if_pos hwidth, Bin.width, div_self hwidth.ne', mul_one]

/-! ### The sweep -/

/-- The cells stand in the order of their low edges. -/
def InOrder (cells : List (Cell K)) : Prop := cells.Pairwise fun a b => a.bin.lo ≤ b.bin.lo

/-- The cells after the one at which a deposit stops would not have got anything. -/
theorem deposit_eq_shares {source : Bin K} {value : K} {cells : List (Cell K)} (hc : InOrder cells) :
    deposit source value cells = cells.map (Cell.receive source value) := by
  induction cells with
  | nil => rfl
  | cons c cells ih =>
    obtain ⟨hhead, htail⟩ := List.pairwise_cons.1 hc
    rw [deposit]
    split
    · rw [ih htail, List.map_cons]
    · rename_i hstop
      have hend : source.hi ≤ c.bin.lo := not_lt.1 hstop
      have hsame : ∀ d ∈ c :: cells, d.receive source value = d := by
        intro d hd
        have hle : c.bin.lo ≤ d.bin.lo := by
          rcases List.mem_cons.1 hd with rfl | hd
          · exact le_refl _
          · exact hhead d hd
        rw [receive_eq_share, shareOf_eq_zero_of_after value (hend.trans hle), add_zero]
      exact ((List.map_congr_left hsame).trans (List.map_id _)).symm

/-- A cell that is passed gets nothing from the source bins that are left. -/
theorem sharesOf_eq_zero_of_passed {sources : List (Bin K × K)} {target : Bin K}
    (h : ∀ p ∈ sources, target.hi ≤ p.1.lo) : sharesOf sources target = 0 :=
  List.sum_eq_zero fun x hx => by
    obtain ⟨p, hp, rfl⟩ := List.mem_map.1 hx
    exact shareOf_eq_zero_of_before p.2 (h p hp)

/-- After the sweep each cell has what it had and the shares of all source bins. -/
theorem sweep_eq_shares {sources : List (Bin K × K)} {cells : List (Cell K)}
    (hs : sources.Pairwise fun a b => a.1.lo ≤ b.1.lo) (hc : InOrder cells) :
    sweep sources cells = cells.map fun c => c.total + sharesOf sources c.bin := by
  induction sources generalizing cells with
  | nil => simp [sweep, sharesOf]
  | cons p rest ih =>
    obtain ⟨source, value⟩ := p
    obtain ⟨hhead, htail⟩ := List.pairwise_cons.1 hs
    let isPassed := fun c : Cell K => decide (c.bin.hi ≤ source.lo)
    have hahead : InOrder (cells.dropWhile isPassed) := hc.sublist (List.dropWhile_sublist _)
    have hpassed : (cells.takeWhile isPassed).map Cell.total =
        (cells.takeWhile isPassed).map fun c => c.total + sharesOf ((source, value) :: rest) c.bin := by
      refine List.map_congr_left fun c hmem => ?_
      have hpass : isPassed c = true := List.mem_takeWhile_imp hmem
      have hlow : c.bin.hi ≤ source.lo := of_decide_eq_true hpass
      rw [sharesOf_eq_zero_of_passed, add_zero]
      intro p hp
      rcases List.mem_cons.1 hp with rfl | hp
      · exact hlow
      · exact hlow.trans (hhead p hp)
    have hrest : sweep rest (if value == 0 then cells.dropWhile isPassed
        else deposit source value (cells.dropWhile isPassed)) =
        (cells.dropWhile isPassed).map fun c => c.total + sharesOf ((source, value) :: rest) c.bin := by
      split
      · rename_i hzero
        rw [ih htail hahead]
        refine List.map_congr_left fun c _ => ?_
        rw [sharesOf_cons, eq_of_beq hzero, shareOf_zero, zero_add]
      · have hcells : InOrder (deposit source value (cells.dropWhile isPassed)) := by
          rw [deposit_eq_shares hahead, InOrder, List.pairwise_map]
          simp only [receive_eq_share]
          exact hahead
        rw [ih htail hcells, deposit_eq_shares hahead, List.map_map]
        refine List.map_congr_left fun c _ => ?_
        rw [Function.comp_apply, receive_eq_share, sharesOf_cons, add_assoc]
    rw [sweep]
    exact (congrArg₂ _ hpassed hrest).trans
      (by rw [← List.map_append, List.takeWhile_append_dropWhile])

/-- Each target bin gets the sum of the shares of all source bins. -/
theorem rebin_eq_shares {target source : Grid K} {values : List K} (hlen : values.length = source.length)
    (hs : source.bins.Pairwise fun a b => a.lo ≤ b.lo) (ht : target.bins.Pairwise fun a b => a.lo ≤ b.lo) :
    rebin target source values = .ok (target.bins.map (sharesOf (source.bins.zip values))) := by
  have hzip : (source.bins.zip values).Pairwise fun a b => a.1.lo ≤ b.1.lo := by
    have hfst : (source.bins.zip values).map Prod.fst = source.bins :=
      List.map_fst_zip (Nat.le_of_eq hlen.symm)
    rw [← hfst, List.pairwise_map] at hs
    exact hs
  have hcells : InOrder (target.bins.map fun b => (⟨b, 0⟩ : Cell K)) := by
    rw [InOrder, List.pairwise_map]
    exact ht
  rw [rebin, if_neg (not_not.2 hlen), sweep_eq_shares hzip hcells, List.map_map]
  congr 1
  exact List.map_congr_left fun b _ => zero_add _

end SpectralResponse
