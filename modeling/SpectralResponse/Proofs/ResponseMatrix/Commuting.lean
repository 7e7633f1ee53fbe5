import SpectralResponse.Proofs.Rebin.Totals
import SpectralResponse.Proofs.ResponseMatrix.Built
import SpectralResponse.Proofs.ResponseMatrix.History
import SpectralResponse.Proofs.Scalar.Rational
import Mathlib.GroupTheory.GroupAction.Ring
import Mathlib.LinearAlgebra.Pi

/-!
# Folding before and after a move

A fold adds up rows, and a move rebins each row. Since rebinning is linear and cutting at zero leaves out
nothing but zeros, it does not matter which is done first. The rows of a matrix are taken as the coordinates
of a vector in each channel: a row, and a fold, are linear forms of these vectors.

## What is proved

* `MovedFrom.fold_eq_rebin` — the fold through a matrix that was moved is the fold through the matrix as it
  was built, rebinned.
* `folding_commutes_with_moving` — after any requests without threshold; where the low edges of the channels
  never decrease and the new channels tile the old ones, no count is lost.
-/

namespace SpectralResponse

variable {K : Type} [Field K] [LinearOrder K] [FloorRing K] [Roots K] {x : List K}

/-! ### A fold as a linear form -/

/-- What the rows give to a channel, one coordinate for each row. -/
def coordinates (channel : Nat) : List (ResponseGroup K) → K := fun groups => responseAt groups channel

/-- The sum of some coordinates, each taken by a factor. -/
def combination (rows : List (K × List (ResponseGroup K))) : (List (ResponseGroup K) → K) →ₗ[K] K :=
  (rows.map fun row => row.1 • LinearMap.proj row.2).sum

omit [LinearOrder K] [FloorRing K] [Roots K] in
theorem combination_apply (rows : List (K × List (ResponseGroup K))) (vector : List (ResponseGroup K) → K) :
    combination rows vector = (rows.map fun (value, groups) => value * vector groups).sum := by
  induction rows with
  | nil => rfl
  | cons row rows ih =>
    rw [combination, List.map_cons, List.sum_cons, LinearMap.add_apply, List.map_cons, List.sum_cons, ← ih]
    rfl

omit [LinearOrder K] [FloorRing K] [Roots K] in
/-- What a channel gets in all is a combination of its coordinates. -/
theorem response_eq_combination (m : Redistribution K) (x : List K) (channel : Nat) :
    m.response x channel = combination (x.zip m.rows) (coordinates channel) :=
  (combination_apply (x.zip m.rows) (coordinates channel)).symm

namespace ResponseMatrix.MovedFrom

variable [IsStrictOrderedRing K] {m : ResponseMatrix K} {p : Redistribution K}

/-- Folding through a matrix that was moved is rebinning what the matrix as it was built folds to. -/
theorem fold_eq_rebin (h : m.MovedFrom p) (hclean : p.Clean) (hzero : m.current.layout.threshold = 0)
    (hx : p.energyCount = x.length) :
    ∃ counts moved : List K, p.fold x (List.replicate p.channelCount 0) = .ok counts ∧
      m.current.fold x (List.replicate m.current.channelCount 0) = .ok moved ∧
        rebin m.current.channels p.channels counts = .ok moved := by
  have hlen : ((List.range p.channelCount).map coordinates : List (List (ResponseGroup K) → K)).length =
      p.channels.length := by
    rw [List.length_map, List.length_range, Redistribution.channelCount]
  obtain ⟨vectors, hvectors⟩ := exists_rebin m.current.channels p.channels hlen
  have hcount : m.current.channelCount = vectors.length := by
    rw [← List.length_map (0 : (List (ResponseGroup K) → K) →ₗ[K] K), length_of_rebin (hvectors 0)]
    rfl
  have hrow (built : List (ResponseGroup K)) : rebin m.current.channels p.channels (p.denseRow built) =
      .ok (vectors.map fun vector => vector built) := by
    have hproj := hvectors (LinearMap.proj built)
    rw [List.map_map] at hproj
    rw [Redistribution.denseRow_eq_responseAt]
    exact hproj
  have hrows : m.current.rows =
      p.rows.map fun built => extractGroups 0 (vectors.map fun vector => vector built) := by
    refine (List.forall₂_eq_eq_eq ▸ List.forall₂_map_left_iff.2 (h.rows.imp fun built row hmoved => ?_) : _).symm
    obtain ⟨values, hvalues, rfl⟩ := hmoved
    cases Except.ok.inj ((hrow built).symm.trans hvalues)
    rw [hzero]
  have hat (built : List (ResponseGroup K)) (hbuilt : built ∈ p.rows) (j : Nat) :
      responseAt (extractGroups 0 (vectors.map fun vector => vector built)) j =
        ((vectors[j]?).map fun vector => vector built).getD 0 := by
    rw [responseAt_extractGroups (rebin_nonneg (hrow built) ?_), List.getElem?_map]
    intro y hy
    rw [Redistribution.denseRow_eq_responseAt] at hy
    obtain ⟨channel, -, rfl⟩ := List.mem_map.1 hy
    exact hclean.responseAt_nonneg hbuilt channel
  have hx' : m.current.energyCount = x.length := by
    rw [Redistribution.energyCount, h.energies, ← hx, Redistribution.energyCount]
  refine ⟨_, _, Redistribution.fold_eq_response hx, Redistribution.fold_eq_response hx', ?_⟩
  have hcounts : (List.range p.channelCount).map (p.response x) =
      ((List.range p.channelCount).map coordinates).map (combination (x.zip p.rows)) := by
    rw [List.map_map]
    exact List.map_congr_left fun channel _ => response_eq_combination p x channel
  rw [hcounts, hvectors, hcount]
  congr 1
  refine List.ext_getElem (by simp) fun j hj _ => ?_
  have hj : j < vectors.length := by simpa using hj
  rw [List.getElem_map, List.getElem_map, List.getElem_range, Redistribution.response, hrows, List.zip_map_right,
    List.map_map, combination_apply]
  refine congrArg List.sum (List.map_congr_left fun row hmem => ?_)
  obtain ⟨value, built⟩ := row
  show value * vectors[j] built = value * responseAt (extractGroups 0 _) j
  rw [hat built (List.of_mem_zip hmem).2, List.getElem?_eq_getElem hj]
  rfl

end ResponseMatrix.MovedFrom

/-! ### Any requests -/

open ResponseMatrix (ofRedistribution)

/-- A matrix that was moved by requests without threshold has the threshold zero. -/
theorem ResponseMatrix.LeftBy.movedFrom {p : Redistribution K} {m : ResponseMatrix K}
    {requests : List (ChannelMove K)} (h : m.LeftBy p requests) (hmoved : m.isRebinned = true)
    (hzero : ∀ c ∈ requests, c.threshold = 0) : m.MovedFrom p ∧ m.current.layout.threshold = 0 := by
  rcases h with rfl | ⟨h, c, hc, -, hthreshold⟩
  · cases hmoved
  · exact ⟨h, hthreshold.trans (hzero c hc)⟩

/-- However a matrix got to the channels it stands on, as long as no weights were left out: what it folds to is
what the matrix as it was built folds to, rebinned. When the low edges of neither channel grid ever decrease
and the new channels tile the old ones, no count is lost. -/
theorem folding_commutes_with_moving [IsStrictOrderedRing K] {p : Redistribution K} (hp : p.Built)
    {requests : List (ChannelMove K)} (hzero : ∀ c ∈ requests, c.threshold = 0) {m : ResponseMatrix K}
    (hm : (ofRedistribution p).afterMoves requests = m) (hmoved : m.isRebinned = true)
    (hx : x.length = p.energyCount) :
    ∃ counts moved : List K, p.fold x (List.replicate p.channelCount 0) = .ok counts ∧
      m.current.fold x (List.replicate m.current.channelCount 0) = .ok moved ∧
        rebin m.current.channels p.channels counts = .ok moved ∧
          (p.channels.Rises → m.current.channels.Rises →
            (∀ b ∈ p.channels.bins, b.TiledBy m.current.channels.bins) → moved.sum = counts.sum) := by
  have hleft : m.LeftBy p requests := hm ▸ ResponseMatrix.leftBy_afterMoves p requests
  obtain ⟨hfrom, hthreshold⟩ := hleft.movedFrom hmoved hzero
  obtain ⟨counts, moved, hcounts, hfold, hrebin⟩ := hfrom.fold_eq_rebin hp.clean hthreshold hx.symm
  refine ⟨counts, moved, hcounts, hfold, hrebin, fun hrises hrises' htiled => ?_⟩
  exact sum_of_rebin hrebin hrises hrises' hp.valid_channels.positive htiled

/-- The matrix is what geometry makes of its grids, which pass validation. -/
def Redistribution.isDelta (p : Redistribution ℚ) : Bool :=
  decide ((delta p.energies p.channels).outcome.1.toOption = some p) &&
    (Grid.ofBins p.energies.bins).toOption == some p.energies &&
      (Grid.ofBins p.channels.bins).toOption == some p.channels

theorem Redistribution.built_of_isDelta {p : Redistribution ℚ} (h : p.isDelta = true) : p.Built := by
  simp only [isDelta, Bool.and_eq_true, decide_eq_true_eq, beq_iff_eq, Except.toOption_eq_some] at h
  obtain ⟨⟨hdelta, henergies⟩, hchannels⟩ := h
  exact .inl ⟨p.energies, p.channels, henergies, hchannels, .of_outcome hdelta⟩

namespace Split

/-- Two channels that share one energy bin. -/
def built : Redistribution ℚ where
  source := .delta
  energies := ⟨[⟨1, 3⟩]⟩
  channels := ⟨[⟨1, 2⟩, ⟨2, 3⟩]⟩
  rows := [[⟨0, [1 / 2, 1 / 2]⟩]]
  layout := .plain
  observation := {}

/-- The border between the channels goes down. -/
def lower : ChannelMove ℚ := ⟨⟨[⟨1, 3 / 2⟩, ⟨3 / 2, 3⟩]⟩, 0⟩

theorem tiled : ∀ b ∈ built.channels.bins, b.TiledBy lower.target.bins := by
  have hwithin : ∀ b ∈ built.channels.bins, 1 ≤ b.lo ∧ b.hi ≤ 3 := by decide +kernel
  exact fun b hb => tiledBy_touching (hwithin b hb).1 (hwithin b hb).2

end Split

/-- Four counts in two channels are still four when the border between the channels has moved. -/
theorem lower_border_keeps_counts :
    ∃ moved : List ℚ, rebin Split.lower.target Split.built.channels [2, 2] = .ok moved ∧ moved.sum = 4 := by
  have hcounts : Split.built.fold [4] [0, 0] = (.ok [2, 2] : Except (Fault ℚ) _) :=
    Except.toOption_eq_some.1 (by decide +kernel)
  have hzero : ∀ c ∈ [Split.lower], c.threshold = 0 := by simp [Split.lower]
  have hrises : Split.built.channels.Rises := by
    rw [Grid.Rises]
    decide +kernel
  have hrises' : Split.lower.target.Rises := by
    rw [Grid.Rises]
    decide +kernel
  have hchannels : ((ofRedistribution Split.built).afterMoves [Split.lower]).current.channels =
      Split.lower.target := by decide +kernel
  obtain ⟨counts, moved, hfold, -, hrebin, hsum⟩ :=
    folding_commutes_with_moving (Redistribution.built_of_isDelta (by decide +kernel)) hzero rfl
      (by decide +kernel) (show [4].length = Split.built.energyCount from rfl)
  rw [hchannels] at hrebin hsum
  cases Except.ok.inj (hfold.symm.trans hcounts)
  refine ⟨moved, hrebin, ?_⟩
  rw [hsum hrises hrises' Split.tiled]
  norm_num

/-! ### Channels narrower than the slack -/

namespace Narrow

/-- Two channels that touch, at high energies. -/
def touching : Redistribution ℚ where
  source := .delta
  energies := ⟨[⟨0, 20000000000⟩, ⟨20000000000, 20000000001⟩]⟩
  channels := ⟨[⟨0, 20000000000⟩, ⟨20000000000, 20000000001⟩]⟩
  rows := [[⟨0, [1]⟩], [⟨1, [1]⟩]]
  layout := .plain
  observation := {}

/-- The channels of `touching`, with one more in between that is out of place. -/
def shuffle : ChannelMove ℚ :=
  ⟨⟨[⟨0, 20000000000⟩, ⟨20000000001, 20000000002⟩, ⟨20000000000, 20000000001⟩]⟩, 0⟩

/-- Two channels, the second of which starts below the first. -/
def crossed : Redistribution ℚ where
  source := .delta
  energies := ⟨[⟨19999999999, 20000000003⟩]⟩
  channels := ⟨[⟨20000000000, 20000000001⟩, ⟨19999999999, 20000000003⟩]⟩
  rows := [[⟨0, [1 / 4, 1]⟩]]
  layout := .plain
  observation := {}

/-- Two channels that cover those of `crossed`. -/
def cover : ChannelMove ℚ := ⟨⟨[⟨0, 20000000000⟩, ⟨20000000000, 20000000004⟩]⟩, 0⟩

/-- The new channels tile the old ones, and yet a move loses counts. -/
structure Loses (p : Redistribution ℚ) (c : ChannelMove ℚ) (x counts moved : List ℚ) : Prop where
  /-- The matrix comes from geometry. -/
  built : p.Built
  /-- The grid to move to passes validation. -/
  valid : c.target.Valid
  /-- The move goes through without threshold. -/
  rebinned : ((ofRedistribution p).afterMoves [c]).isRebinned = true ∧ c.threshold = 0
  /-- The matrix stands on the grid to move to, which tiles the channels. -/
  tiled : ((ofRedistribution p).afterMoves [c]).current.channels = c.target ∧
    ∀ b ∈ p.channels.bins, b.TiledBy c.target.bins
  /-- There is a value for each energy bin, and the folds are these. -/
  folds : x.length = p.energyCount ∧ (p.fold x (List.replicate p.channelCount 0)).toOption = some counts ∧
    (((ofRedistribution p).afterMoves [c]).current.fold x
      (List.replicate ((ofRedistribution p).afterMoves [c]).current.channelCount 0)).toOption = some moved
  /-- The sums differ. -/
  differ : moved.sum ≠ counts.sum

theorem tiled_shuffle : ∀ b ∈ touching.channels.bins, b.TiledBy shuffle.target.bins := by
  intro b hb energy h
  rw [contains_iff] at h
  simp only [touching, List.mem_cons, List.not_mem_nil, or_false] at hb
  simp only [shuffle, List.countP_cons, List.countP_nil, contains_iff]
  rcases hb with rfl | rfl <;> grind

theorem tiled_cover : ∀ b ∈ crossed.channels.bins, b.TiledBy cover.target.bins := by
  have hwithin : ∀ b ∈ crossed.channels.bins, 0 ≤ b.lo ∧ b.hi ≤ 20000000004 := by decide +kernel
  exact fun b hb => tiledBy_touching (hwithin b hb).1 (hwithin b hb).2

end Narrow

/-- Where low edges decrease, in the new channel grid or in the old one, counts are lost, although the new
channels tile the old ones. -/
theorem decreasing_low_edges_lose_counts :
    Narrow.Loses Narrow.touching Narrow.shuffle [1, 1] [1, 1] [1, 0, 0] ∧
      Narrow.Loses Narrow.crossed Narrow.cover [4] [1, 4] [0, 4] := by
  refine ⟨⟨Redistribution.built_of_isDelta (by decide +kernel), ?_, ⟨by decide +kernel, rfl⟩,
      ⟨by decide +kernel, Narrow.tiled_shuffle⟩, by decide +kernel, by decide +kernel⟩,
    ⟨Redistribution.built_of_isDelta (by decide +kernel), ?_, ⟨by decide +kernel, rfl⟩,
      ⟨by decide +kernel, Narrow.tiled_cover⟩, by decide +kernel, by decide +kernel⟩⟩
  · exact Except.toOption_eq_some.1 (by decide +kernel)
  · exact Except.toOption_eq_some.1 (by decide +kernel)

end SpectralResponse
