import SpectralResponse.Proofs.Grid.Lookup
import SpectralResponse.Proofs.Rebin.Coverage
import SpectralResponse.Proofs.ResponseMatrix.Folding
import SpectralResponse.ResponseMatrix.Delta

/-!
# The matrix of two grids

A matrix that counts each photon at its own energy finds the channels of an energy bin by binary search and
stores its weights once; rebinning sweeps over both grids. Between ordered grids both do the same. The channels
fall into those that end before the energy bin, those that it reaches and those that start behind it, and only
those that it reaches get a part of it.

## What is proved

* `filter_clean_deltaRow` — checking the group of an energy bin changes nothing.
* `responseAt_overlapGroups` — a row gives each channel its share of the energy bin.
* `delta_is_rebin` — when there is such a matrix, what its rows hold, and that folding through it is rebinning.
-/

namespace SpectralResponse

/-! ### Channels around an energy bin -/

namespace Grid

variable {K : Type} [LinearOrder K]

/-- The channels that end at or below the start of the bin. -/
def passedBy (channels : Grid K) (b : Bin K) : List (Bin K) := channels.bins.takeWhile fun c => c.hi ≤ b.lo

/-- The channels from the first one on that does not. -/
def aheadOf (channels : Grid K) (b : Bin K) : List (Bin K) := channels.bins.dropWhile fun c => c.hi ≤ b.lo

/-- The channels that the bin has energies in common with. -/
def reachedBy (channels : Grid K) (b : Bin K) : List (Bin K) := (channels.aheadOf b).takeWhile fun c => c.lo < b.hi

/-- The channels that start at or above the end of the bin. -/
def beyond (channels : Grid K) (b : Bin K) : List (Bin K) := (channels.aheadOf b).dropWhile fun c => c.lo < b.hi

variable {channels : Grid K} {b c : Bin K}

theorem passedBy_append_aheadOf (channels : Grid K) (b : Bin K) :
    channels.passedBy b ++ channels.aheadOf b = channels.bins :=
  List.takeWhile_append_dropWhile

theorem reachedBy_append_beyond (channels : Grid K) (b : Bin K) :
    channels.reachedBy b ++ channels.beyond b = channels.aheadOf b :=
  List.takeWhile_append_dropWhile

theorem hi_le_of_mem_passedBy (h : c ∈ channels.passedBy b) : c.hi ≤ b.lo :=
  of_decide_eq_true (List.mem_takeWhile_imp h :)

theorem lo_lt_of_mem_reachedBy (h : c ∈ channels.reachedBy b) : c.lo < b.hi :=
  of_decide_eq_true (List.mem_takeWhile_imp h :)

namespace Ordered

variable (hc : channels.Ordered)
include hc

/-- When a channel has ended, all before it have. -/
theorem passes (value : K) :
    channels.bins.Pairwise fun a b => decide (b.hi ≤ value) = true → decide (a.hi ≤ value) = true := by
  refine hc.pairwise.imp_of_mem fun _ hb hab hends => ?_
  rw [decide_eq_true_eq] at hends ⊢
  exact hab.trans ((hc.positive _ hb).le.trans hends)

theorem lt_hi_of_mem_aheadOf (h : c ∈ channels.aheadOf b) : b.lo < c.hi :=
  not_le.1 (of_decide_eq_false (BinarySearch.eq_false_of_mem_dropWhile (hc.passes b.lo) c h :))

theorem le_lo_of_mem_beyond (h : c ∈ channels.beyond b) : b.hi ≤ c.lo := by
  have hrises : (channels.aheadOf b).Pairwise
      fun a c => decide (c.lo < b.hi) = true → decide (a.lo < b.hi) = true := by
    refine (hc.rises.sublist (List.dropWhile_sublist _)).imp fun hle hlt => ?_
    rw [decide_eq_true_eq] at hlt ⊢
    exact hle.trans_lt hlt
  exact not_lt.1 (of_decide_eq_false (BinarySearch.eq_false_of_mem_dropWhile hrises c h :))

/-- The channels that are reached are those that start before the bin ends and end after it starts. -/
theorem mem_reachedBy : c ∈ channels.reachedBy b ↔ c ∈ channels.bins ∧ c.lo < b.hi ∧ b.lo < c.hi := by
  rw [← passedBy_append_aheadOf channels b, ← reachedBy_append_beyond channels b]
  constructor
  · intro h
    have hahead : c ∈ channels.aheadOf b := List.takeWhile_subset _ h
    exact ⟨List.mem_append_right _ (List.mem_append_left _ h), lo_lt_of_mem_reachedBy h,
      hc.lt_hi_of_mem_aheadOf hahead⟩
  · rintro ⟨hmem, hlo, hhi⟩
    rcases List.mem_append.1 hmem with hpassed | hmem
    · exact absurd hhi (hi_le_of_mem_passedBy hpassed).not_gt
    rcases List.mem_append.1 hmem with hreached | hbeyond
    · exact hreached
    · exact absurd hlo (hc.le_lo_of_mem_beyond hbeyond).not_gt

/-- No channel is reached when no energy of the bin lies in a channel. -/
theorem reachedBy_eq_nil_iff (hb : b.lo < b.hi) :
    channels.reachedBy b = [] ↔ ∀ energy, b.lo ≤ energy → energy < b.hi → ¬Covers channels.bins energy := by
  rw [List.eq_nil_iff_forall_not_mem]
  constructor
  · intro hnone energy hlow hhigh hcovers
    obtain ⟨c, hmem, hstart, hend⟩ := hcovers
    exact hnone c (hc.mem_reachedBy.2 ⟨hmem, hstart.trans_lt hhigh, hlow.trans_lt hend⟩)
  · intro hnone c hreached
    obtain ⟨hmem, hlo, hhi⟩ := hc.mem_reachedBy.1 hreached
    rcases le_total b.lo c.lo with hle | hle
    · exact hnone c.lo hle hlo ⟨c, hmem, le_refl _, hc.positive c hmem⟩
    · exact hnone b.lo (le_refl _) hb ⟨c, hmem, hle, hhi⟩

end Ordered

end Grid

/-! ### Shares of an energy bin -/

variable {K : Type} [Field K] [LinearOrder K] [FloorRing K] [Roots K] [IsStrictOrderedRing K]

namespace Grid.Ordered

variable {channels : Grid K} (hc : channels.Ordered) {b : Bin K}
include hc

/-- Only the channels that are reached get a share. -/
theorem map_shareOf (b : Bin K) (value : K) :
    channels.bins.map (shareOf b value) = List.replicate (channels.passedBy b).length 0 ++
      ((channels.reachedBy b).map (shareOf b value) ++ List.replicate (channels.beyond b).length 0) := by
  have hpassed : (channels.passedBy b).map (shareOf b value) = List.replicate (channels.passedBy b).length 0 := by
    rw [List.eq_replicate_iff]
    refine ⟨List.length_map _, List.forall_mem_map.2 fun c h => ?_⟩
    exact shareOf_eq_zero_of_before value (hi_le_of_mem_passedBy h)
  have hbeyond : (channels.beyond b).map (shareOf b value) = List.replicate (channels.beyond b).length 0 := by
    rw [List.eq_replicate_iff]
    refine ⟨List.length_map _, List.forall_mem_map.2 fun c h => ?_⟩
    exact shareOf_eq_zero_of_after value (hc.le_lo_of_mem_beyond h)
  rw [← hpassed, ← hbeyond, ← List.map_append, ← List.map_append, reachedBy_append_beyond,
    passedBy_append_aheadOf]

/-- The shares of a bin add up to the covered part of it. -/
theorem sum_shareOf (hb : b.lo < b.hi) :
    (channels.bins.map (shareOf b 1)).sum = coveredLength channels.bins b.lo b.hi / (b.hi - b.lo) := by
  have hshare (c : Bin K) : shareOf b 1 c = b.overlap c * (b.hi - b.lo)⁻¹ := by
    rw [shareOf_eq, one_mul, Bin.width, div_eq_mul_inv]
  rw [List.map_congr_left fun c _ => hshare c, List.sum_map_mul_right,
    hc.coveredLength_eq hb.le fun energy => Iff.rfl, div_eq_mul_inv]

end Grid.Ordered

/-! ### Rows -/

/-- The group of an energy bin over the channels that it reaches. -/
def overlapGroups (channels : Grid K) (b : Bin K) : List (ResponseGroup K) :=
  if channels.reachedBy b = [] then []
  else [⟨(channels.passedBy b).length, (channels.reachedBy b).map (shareOf b 1)⟩]

namespace Redistribution

omit [IsStrictOrderedRing K] in
/-- The search finds the first channel that is not passed. -/
theorem deltaRow_eq {channels : Grid K} (hc : channels.Ordered) (b : Bin K) :
    deltaRow channels b = if channels.reachedBy b = [] then []
      else [⟨(channels.passedBy b).length, (channels.reachedBy b).map (shareOf b 1)⟩] := by
  have hfirst : BinarySearch.partitionPoint (fun c : Bin K => c.hi ≤ b.lo) channels.bins.toArray =
      (channels.passedBy b).length :=
    BinarySearch.partitionPoint_eq (BinarySearch.splitsAt_takeWhile (hc.passes b.lo))
  have hdrop : channels.bins.drop (channels.passedBy b).length = channels.aheadOf b := by
    conv_lhs => rw [← channels.passedBy_append_aheadOf b]
    exact List.drop_left
  have hshare (c : Bin K) : b.overlap c / b.width = shareOf b 1 c := by
    rw [shareOf_eq, one_mul]
  simp only [deltaRow, hfirst, hdrop, hshare, List.isEmpty_iff, List.map_eq_nil_iff]
  rfl

/-- The group of an energy bin lies inside the channels and has no bad weight, so checking changes nothing. -/
theorem filter_clean_deltaRow {channels : Grid K} (hc : channels.Ordered) (b : Bin K) :
    ((deltaRow channels b).filter (RawGroup.isInside channels.length)).map RawGroup.clean =
      overlapGroups channels b := by
  rw [deltaRow_eq hc, overlapGroups]
  split
  · rfl
  · have hinside : (channels.passedBy b).length + (channels.reachedBy b).length ≤ channels.length := by
      rw [Grid.length, ← channels.passedBy_append_aheadOf b, ← channels.reachedBy_append_beyond b]
      simp only [List.length_append]
      omega
    have hkept : RawGroup.isInside channels.length
        (⟨(channels.passedBy b).length, (channels.reachedBy b).map (shareOf b 1)⟩ : RawGroup K) = true := by
      refine RawGroup.isInside_of_le (Int.natCast_nonneg _) ?_
      rw [List.length_map]
      exact_mod_cast hinside
    have hclean : ((channels.reachedBy b).map (shareOf b 1)).map
        (fun weight => if RawGroup.isBadWeight weight then 0 else weight) =
          (channels.reachedBy b).map (shareOf b 1) := by
      rw [List.map_map]
      refine List.map_congr_left fun c _ => ?_
      have hgood : RawGroup.isBadWeight (shareOf b 1 c) = false := by
        rw [isBadWeight_exact]
        exact decide_eq_false (shareOf_nonneg zero_le_one c).not_gt
      rw [Function.comp_apply, hgood, if_neg Bool.false_ne_true]
    rw [List.filter_cons_of_pos hkept, List.filter_nil, List.map_singleton, RawGroup.clean, hclean]
    rfl

end Redistribution

section

omit [FloorRing K] [Roots K] [IsStrictOrderedRing K] [LinearOrder K]

/-- A group gives a channel what a row of zeros has there in which its weights are written. -/
theorem weightAt?_eq_padded (first behind channel : Nat) (weights : List K) :
    ((⟨first, weights⟩ : ResponseGroup K).weightAt? channel).getD 0 =
      ((List.replicate first 0 ++ (weights ++ List.replicate behind 0))[channel]?).getD 0 := by
  simp only [ResponseGroup.weightAt?]
  split
  · rename_i hle
    rw [List.getElem?_append_right (by simpa using hle), List.length_replicate]
    rcases Nat.lt_or_ge (channel - first) weights.length with hlt | hge
    · rw [List.getElem?_append_left hlt]
    · rw [List.getElem?_append_right hge, List.getElem?_eq_none hge, List.getElem?_replicate]
      split <;> rfl
  · rename_i hlt
    rw [List.getElem?_append_left (by simpa using hlt), List.getElem?_replicate_of_lt (by omega)]
    rfl

end

/-- A row gives each channel its share of the energy bin. -/
theorem responseAt_overlapGroups {channels : Grid K} (hc : channels.Ordered) (b : Bin K) (channel : Nat) :
    responseAt (overlapGroups channels b) channel =
      ((channels.bins.map (shareOf b 1))[channel]?).getD 0 := by
  have hgroup : responseAt (overlapGroups channels b) channel =
      ((⟨(channels.passedBy b).length, (channels.reachedBy b).map (shareOf b 1)⟩ :
        ResponseGroup K).weightAt? channel).getD 0 := by
    rw [overlapGroups]
    split
    · rename_i hnone
      simp [hnone, responseAt, ResponseGroup.weightAt?]
    · simp [responseAt]
  rw [hgroup, weightAt?_eq_padded _ (channels.beyond b).length, hc.map_shareOf]

omit [IsStrictOrderedRing K] in
/-- The weights of a row are the shares of the channels that are reached. -/
theorem sum_weights_overlapGroups (channels : Grid K) (b : Bin K) :
    ((overlapGroups channels b).map fun g => g.weights.sum).sum =
      ((channels.reachedBy b).map (shareOf b 1)).sum := by
  rw [overlapGroups]
  split
  · rename_i hnone
    rw [hnone]
    rfl
  · exact List.sum_singleton

/-- They add up to the covered part of the energy bin. -/
theorem sum_weights_eq_covered {channels : Grid K} (hc : channels.Ordered) {b : Bin K} (hb : b.lo < b.hi) :
    ((overlapGroups channels b).map fun g => g.weights.sum).sum =
      coveredLength channels.bins b.lo b.hi / (b.hi - b.lo) := by
  rw [sum_weights_overlapGroups, ← hc.sum_shareOf hb, hc.map_shareOf, List.sum_append, List.sum_append,
    List.sum_replicate, List.sum_replicate, smul_zero, smul_zero, zero_add, add_zero]

/-- A channel that is reached gets a part of a positive value. -/
theorem Grid.Ordered.shareOf_pos {channels : Grid K} (hc : channels.Ordered) {b c : Bin K} (hb : b.lo < b.hi)
    (h : c ∈ channels.reachedBy b) : 0 < shareOf b 1 c := by
  obtain ⟨hmem, hlo, hhi⟩ := hc.mem_reachedBy.1 h
  have hcommon : 0 < b.overlap c := by
    rw [overlap_exact, lt_max_iff, sub_pos, max_lt_iff, lt_min_iff, lt_min_iff]
    exact .inl ⟨⟨hb, hhi⟩, hlo, hc.positive c hmem⟩
  rw [shareOf_eq, one_mul]
  exact div_pos hcommon (sub_pos.2 hb)

/-- A row counts the photons of an energy bin at their own energies. -/
structure CountsInPlace (channels : Grid K) (b : Bin K) (groups : List (ResponseGroup K)) : Prop where
  /-- There is one group at most. -/
  single : groups.length ≤ 1
  /-- There is none when no energy of the bin lies in a channel. -/
  empty : groups = [] ↔ ∀ energy, b.lo ≤ energy → energy < b.hi → ¬Covers channels.bins energy
  /-- The weights add up to the fraction of the bin that the channels cover. -/
  weight : (groups.map fun g => g.weights.sum).sum = coveredLength channels.bins b.lo b.hi / (b.hi - b.lo)
  /-- They add up to one when each energy of the bin lies in a channel. -/
  full : (groups.map fun g => g.weights.sum).sum = 1 ↔
    ∀ energy, b.lo ≤ energy → energy < b.hi → Covers channels.bins energy

theorem countsInPlace_overlapGroups {channels : Grid K} (hc : channels.Ordered) {b : Bin K} (hb : b.lo < b.hi) :
    CountsInPlace channels b (overlapGroups channels b) where
  single := by
    rw [overlapGroups]
    split <;> simp
  empty := by
    rw [← hc.reachedBy_eq_nil_iff hb, overlapGroups]
    split <;> simp [*]
  weight := sum_weights_eq_covered hc hb
  full := by
    rw [sum_weights_eq_covered hc hb, div_eq_one_iff_eq (sub_pos.2 hb).ne', coveredLength_eq_iff hb.le]

/-! ### The matrix -/

namespace Redistribution

variable {energies channels : Grid K}

omit [IsStrictOrderedRing K] in
theorem weightOfRows_exact (rows : List (List (ResponseGroup K))) :
    weightOfRows rows = (rows.map fun groups => (groups.map fun g => g.weights.sum).sum).sum := by
  have hrow (groups : List (ResponseGroup K)) : rowWeight groups = (groups.map fun g => g.weights.sum).sum := by
    rw [rowWeight, Scalar.sum_exact, List.map_congr_left fun g _ => compensatedSum_exact g.weights]
  rw [weightOfRows, compensatedSum_exact, List.map_congr_left fun groups _ => hrow groups]

/-- The rows hold no weight when no energy bin reaches a channel. -/
theorem weightOfRows_le_zero_iff (he : energies.Ordered) (hc : channels.Ordered) :
    weightOfRows (energies.bins.map (overlapGroups channels)) ≤ 0 ↔
      ∀ b ∈ energies.bins, channels.reachedBy b = [] := by
  have hnonneg (b : Bin K) : ∀ x ∈ (channels.reachedBy b).map (shareOf b 1), 0 ≤ x :=
    List.forall_mem_map.2 fun c _ => shareOf_nonneg zero_le_one c
  rw [weightOfRows_exact, List.map_map]
  simp only [Function.comp_def, sum_weights_overlapGroups]
  constructor
  · intro hnone b hb
    rw [List.eq_nil_iff_forall_not_mem]
    intro c hreached
    have hshare : shareOf b 1 c ≤ ((channels.reachedBy b).map (shareOf b 1)).sum :=
      List.single_le_sum (hnonneg b) _ (List.mem_map_of_mem hreached)
    have hrow := List.single_le_sum
      (List.forall_mem_map.2 fun b _ => List.sum_nonneg (hnonneg b)) _ (List.mem_map_of_mem hb)
    have hpositive := hc.shareOf_pos (he.positive b hb) hreached
    exact absurd (hshare.trans (hrow.trans hnone)) hpositive.not_ge
  · intro hnone
    rw [List.map_congr_left fun b hb => by rw [hnone b hb, List.map_nil, List.sum_nil]]
    simp

/-- What a channel gets in all are its shares of the energy bins. -/
theorem response_overlapGroups {m : Redistribution K} (hc : m.channels.Ordered)
    (hrows : m.rows = m.energies.bins.map (overlapGroups m.channels)) (input : List K) {channel : Nat}
    (hchannel : channel < m.channels.bins.length) :
    m.response input channel = sharesOf (m.energies.bins.zip input) m.channels.bins[channel] := by
  have hshare (b : Bin K) (value : K) : value * responseAt (overlapGroups m.channels b) channel =
      shareOf b value m.channels.bins[channel] := by
    rw [responseAt_overlapGroups hc, List.getElem?_map, List.getElem?_eq_getElem hchannel, Option.map_some,
      Option.getD_some, ← shareOf_eq_mul]
  rw [response, hrows, sharesOf, List.zip_eq_zipWith, List.zip_eq_zipWith, List.map_zipWith, List.map_zipWith,
    List.zipWith_map_right, List.zipWith_comm]
  simp only [hshare]

/-- Folding from zero through the rows is rebinning. -/
theorem fold_overlapGroups {m : Redistribution K} (he : m.energies.Ordered) (hc : m.channels.Ordered)
    (hrows : m.rows = m.energies.bins.map (overlapGroups m.channels)) (input counts : List K) :
    m.fold input (List.replicate m.channels.length 0) = .ok counts ↔
      rebin m.channels m.energies input = .ok counts := by
  by_cases hlen : input.length = m.energies.length
  · have hresponse : (List.range m.channelCount).map (m.response input) =
        m.channels.bins.map (sharesOf (m.energies.bins.zip input)) := by
      refine List.ext_getElem (by simp [channelCount, Grid.length]) fun channel _ hchannel => ?_
      rw [List.length_map] at hchannel
      rw [List.getElem_map, List.getElem_map, List.getElem_range, response_overlapGroups hc hrows input hchannel]
    have hfold := fold_eq_response (m := m) hlen.symm
    rw [hresponse] at hfold
    rw [rebin_eq_shares hlen he.rises hc.rises, Except.ok.injEq]
    exact (iff_of_eq (congrArg (· = .ok counts) hfold)).trans (iff_of_eq (Except.ok.injEq _ _))
  · refine iff_of_false ?_ fun h => hlen (rebin_eq_ok_iff.1 h).1
    intro h
    obtain ⟨⟨⟩, hinput, -⟩ := Except.bind_eq_ok.1 h
    exact hlen (Except.requireLength_eq_ok.1 hinput).symm

/-- For ordered grids, with gaps or without, there is a matrix that counts each photon at its own energy unless
no energy bin has an energy in common with a channel. Its rows hold the covered fraction of each energy bin, and
folding any values from zero through it is rebinning them from the energy bins to the channels. -/
theorem delta_is_rebin {answer : Except (Fault K) (Redistribution K)} (he : energies.Ordered)
    (hc : channels.Ordered) (h : (delta energies channels).Answers answer) :
    ((∃ fault, answer = .error fault) ↔
      ∀ b ∈ energies.bins, ∀ energy, b.lo ≤ energy → energy < b.hi → ¬Covers channels.bins energy) ∧
    ∀ m, answer = .ok m →
      m.energies = energies ∧ m.channels = channels ∧
      List.Forall₂ (CountsInPlace channels) energies.bins m.rows ∧
      ∀ input : List K,
        (∀ counts, m.fold input (List.replicate channels.length 0) = .ok counts ↔
          rebin channels energies input = .ok counts) ∧
        (input.length = energies.length → ∃ counts, m.fold input (List.replicate channels.length 0) = .ok counts) := by
  have hchecked : ((energies.bins.map (deltaRow channels)).map fun row =>
      (row.filter (RawGroup.isInside channels.length)).map RawGroup.clean) =
        energies.bins.map (overlapGroups channels) := by
    rw [List.map_map]
    exact List.map_congr_left fun b _ => filter_clean_deltaRow hc b
  constructor
  · have hlen : energies.length = (energies.bins.map (deltaRow channels)).length := (List.length_map _).symm
    rw [error_iff_of_ofRawRows hlen h, hchecked, weightOfRows_le_zero_iff he hc]
    exact forall₂_congr fun b hb => hc.reachedBy_eq_nil_iff (he.positive b hb)
  · rintro m rfl
    obtain ⟨hen, hch, -, hrows⟩ := of_ofRawRows h
    rw [hchecked] at hrows
    subst hen hch
    refine ⟨rfl, rfl, ?_, fun input => ⟨fold_overlapGroups he hc hrows input, fun hlen => ?_⟩⟩
    · rw [hrows, List.forall₂_map_right_iff, List.forall₂_same]
      exact fun b hb => countsInPlace_overlapGroups hc (he.positive b hb)
    · exact ⟨_, (fold_overlapGroups he hc hrows input _).2 (rebin_eq_shares hlen he.rises hc.rises)⟩

/-- The channels that lie in the gaps between the energy bins. -/
def gapChannels : Grid ℚ := ⟨[⟨6, 7⟩, ⟨9, 10⟩]⟩

theorem delta_across_gaps :
    Gapped.source.Ordered ∧ Gapped.target.Ordered ∧ gapChannels.Ordered ∧
      (∃ m, (delta Gapped.source Gapped.target).Answers (.ok m) ∧
        m.rows = [[⟨0, [1 / 3, 1 / 3]⟩], [⟨2, [1 / 2]⟩], [⟨2, [1 / 2, 1 / 4]⟩], []] ∧
        m.fold Gapped.values [0, 0, 0, 0] = .ok [2, 2, -2, 0]) ∧
      ∃ fault, (delta Gapped.source gapChannels).Answers (.error fault) := by
  have hgaps : gapChannels.Ordered := ⟨by decide +kernel, by decide +kernel⟩
  have hmade : ((delta Gapped.source Gapped.target).outcome.1.toOption.map Redistribution.rows) =
      some [[⟨0, [1 / 3, 1 / 3]⟩], [⟨2, [1 / 2]⟩], [⟨2, [1 / 2, 1 / 4]⟩], []] := by decide +kernel
  obtain ⟨m, hm, hrows⟩ := Option.map_eq_some_iff.1 hmade
  have hm := Noted.Answers.of_outcome (Except.toOption_eq_some.1 hm)
  obtain ⟨-, hmatrix⟩ := delta_is_rebin Gapped.ordered_source Gapped.ordered_target hm
  obtain ⟨-, -, -, hfold⟩ := hmatrix m rfl
  have hmoved : rebin Gapped.target Gapped.source Gapped.values = .ok [2, 2, -2, 0] :=
    Except.toOption_eq_some.1 (by decide +kernel)
  obtain ⟨hrefused, -⟩ := delta_is_rebin Gapped.ordered_source hgaps (.of_outcome rfl)
  have hapart : ∀ b ∈ Gapped.source.bins, ∀ energy, b.lo ≤ energy → energy < b.hi →
      ¬Covers gapChannels.bins energy := by
    simp only [Gapped.source, gapChannels, Covers, List.mem_cons, List.not_mem_nil, or_false, exists_eq_or_imp,
      exists_eq_left]
    grind
  obtain ⟨fault, hfault⟩ := hrefused.2 hapart
  exact ⟨Gapped.ordered_source, Gapped.ordered_target, hgaps, ⟨m, hm, hrows, ((hfold _).1 _).2 hmoved⟩,
    fault, .of_outcome hfault⟩

end Redistribution

end SpectralResponse
