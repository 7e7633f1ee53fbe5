import SpectralResponse.Proofs.ResponseMatrix.Folding
import SpectralResponse.Proofs.ResponseMatrix.History

/-!
# Where the channels of a matrix stand

A matrix that follows groupings stands on its own channels, or on those of some grouping of its own
channels. Its own channels are wide, so no grouping is taken for another one: a move that is left out
because the grids agree would not have changed anything.

## What is proved

* `Sound.follow` — after a move to the grid of a grouping the matrix stands on its own channels or on those
  of that grouping, wherever it stood before.
* `Sound.restore` — after a move to its own channels it stands there.
* `fold_of_movedBy` — on the channels of a grouping it folds to the sums of the groups.
-/

namespace SpectralResponse.ResponseMatrix

variable {K : Type} [Field K] [LinearOrder K] [FloorRing K] [Roots K] {m moved : ResponseMatrix K} {g : Grouping}
  {target : Grid K}

/-- The matrix was moved to the grid of a grouping of its own channels, and that was a move. -/
def MovedBy (g : Grouping) (m : ResponseMatrix K) : Prop :=
  ∃ built target, m.pristine = some built ∧ g.grid built.channels = .ok target ∧ target ≠ built.channels ∧
    built.onChannels target 0 = .ok m.current

/-- The matrix has no negative weights and wide channels, and stands on them or on those of a grouping. -/
structure Sound (m : ResponseMatrix K) : Prop where
  /-- No weight is negative. -/
  clean : m.native.Clean
  /-- The channels are wide. -/
  wide : m.native.channels.Wide
  /-- Where the matrix stands. -/
  stands : m.pristine = none ∨ ∃ g : Grouping, g.Proper ∧ m.MovedBy g

omit [Field K] [LinearOrder K] [FloorRing K] [Roots K] in
theorem native_of_pristine {built : Redistribution K} (h : m.pristine = some built) : m.native = built := by
  rw [native, h, Option.getD_some]

omit [Field K] [LinearOrder K] [FloorRing K] [Roots K] in
theorem native_eq_current (h : m.pristine = none) : m.native = m.current := by
  rw [native, h, Option.getD_none]

/-- A matrix as it was built is sound. -/
theorem sound_of_built (h : m.pristine = none) (hm : m.current.Clean) (hw : m.current.channels.Wide) :
    m.Sound := by
  rw [← native_eq_current h] at hm hw
  exact ⟨hm, hw, .inl h⟩

variable [IsStrictOrderedRing K]

/-- A matrix that was moved by a grouping has the grid of that grouping. -/
theorem channels_of_movedBy {built : Redistribution K} (hw : built.channels.Wide) (hg : g.Proper)
    (hgrid : g.grid built.channels = .ok target) (h : built.onChannels target 0 = .ok m.current) :
    m.current.channels = target :=
  (Redistribution.of_onChannels hw hg hgrid h).2.1

namespace Sound

variable (h : m.Sound)
include h

/-- Wherever the matrix stands, its bins are stretches of its own channels. -/
theorem spans : ∀ b ∈ m.current.channels.bins, Grid.Spans m.native.channels.bins b := by
  rcases h.stands with hnone | ⟨g, hg, built, target, hsome, hgrid, -, hmoved⟩
  · rw [native_eq_current hnone]
    exact fun b hb => Grid.spans_of_mem hb
  · have hwide := h.wide
    rw [native_of_pristine hsome] at hwide ⊢
    rw [channels_of_movedBy hwide hg hgrid hmoved]
    exact hg.spans_of_grid hgrid

theorem native_agrees : m.native.channels.agrees m.native.channels Grid.edgeTolerance = true :=
  Grid.agrees_self fun b hb => (sub_pos.2 (h.wide.positive b hb)).le

/-- After a move to the grid of a grouping the matrix stands on its own channels or on those of the
grouping. -/
theorem follow {changed : Bool} (hg : g.Proper) (hgrid : g.grid m.native.channels = .ok target)
    (hr : (m.rebinChannels target 0 : Except (Fault K) _) = .ok (changed, moved)) :
    moved.Sound ∧ (moved.pristine = none ∨ moved.MovedBy g) := by
  rw [rebinChannels_eq] at hr
  split at hr
  · -- nothing was moved, since the matrix stands on that grid already
    rename_i hagree
    cases Except.ok.inj hr
    have hsame : m.current.channels = target := h.wide.eq_of_agrees h.spans (hg.spans_of_grid hgrid) hagree
    refine ⟨h, ?_⟩
    rcases h.stands with hnone | ⟨g', hg', built, target', hsome, hgrid', hother, hmoved⟩
    · exact .inl hnone
    · have hwide := h.wide
      rw [native_of_pristine hsome] at hwide hgrid
      have htarget : target' = target := (channels_of_movedBy hwide hg' hgrid' hmoved).symm.trans hsame
      rw [htarget] at hother hmoved
      exact .inr ⟨built, target, hsome, hgrid, hother, hmoved⟩
  split at hr
  · cases Except.ok.inj hr
    exact ⟨⟨h.clean, h.wide, .inl rfl⟩, .inl rfl⟩
  · rename_i hdiffer
    obtain ⟨current, hmove, hr⟩ := Except.bind_eq_ok.1 hr
    cases Except.ok.inj hr
    have hother : target ≠ m.native.channels := by
      rintro rfl
      exact hdiffer h.native_agrees
    have hmoved : MovedBy g ⟨current, some m.native⟩ := ⟨m.native, target, rfl, hgrid, hother, hmove⟩
    exact ⟨⟨h.clean, h.wide, .inr ⟨g, hg, hmoved⟩⟩, .inr hmoved⟩

/-- After a move to its own channels the matrix stands there. -/
theorem restore {changed : Bool} {threshold : K}
    (hr : (m.rebinChannels m.native.channels threshold : Except (Fault K) _) = .ok (changed, moved)) :
    moved.Sound ∧ moved.pristine = none := by
  rw [rebinChannels_eq] at hr
  split at hr
  · rename_i hagree
    cases Except.ok.inj hr
    refine ⟨h, ?_⟩
    rcases h.stands with hnone | ⟨g, hg, built, target, hsome, hgrid, hother, hmoved⟩
    · exact hnone
    · have hsame := h.wide.eq_of_agrees h.spans (fun b hb => Grid.spans_of_mem hb) hagree
      have hwide := h.wide
      rw [native_of_pristine hsome] at hwide hsame
      exact absurd ((channels_of_movedBy hwide hg hgrid hmoved).symm.trans hsame) hother
  · rw [if_pos h.native_agrees] at hr
    cases Except.ok.inj hr
    exact ⟨⟨h.clean, h.wide, .inl rfl⟩, rfl⟩

/-- A matrix on the channels of a grouping folds to the sums over the groups of what it folds to on its own
channels. -/
theorem fold_of_movedBy (hg : g.Proper) (hm : m.MovedBy g) {input folded : List K}
    (hfold : (m.current.fold input (List.replicate m.current.channelCount 0) : Except (Fault K) _) =
      .ok folded) :
    ∃ channels : List K, (m.native.fold input (List.replicate m.native.channelCount 0) : Except (Fault K) _) =
      .ok channels ∧ channels.length = m.native.channelCount ∧ folded = g.sums channels := by
  obtain ⟨built, target, hsome, hgrid, -, hmove⟩ := hm
  have hclean := h.clean
  have hwide := h.wide
  rw [native_of_pristine hsome] at hclean hwide ⊢
  have henergies := (Redistribution.of_onChannels hwide hg hgrid hmove).1
  have hlen : built.energyCount = input.length := by
    obtain ⟨⟨⟩, hinput, -⟩ := Except.bind_eq_ok.1 hfold
    rw [← Except.requireLength_eq_ok.1 hinput, Redistribution.energyCount, Redistribution.energyCount, henergies]
  obtain ⟨channels, hchannels, hcount, hmoved⟩ :=
    Redistribution.fold_onChannels hclean hwide hg hgrid hmove hlen
  exact ⟨channels, hchannels, hcount, Except.ok.inj (hfold.symm.trans hmoved)⟩

end Sound

end SpectralResponse.ResponseMatrix
