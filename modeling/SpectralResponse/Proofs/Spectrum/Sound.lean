import SpectralResponse.Proofs.Grouping.Sums
import SpectralResponse.Proofs.Noted
import SpectralResponse.Proofs.Spectrum.Edits
import SpectralResponse.Spectrum.Table

/-!
# Sound spectra

However a spectrum is changed, its groups stay runs of its observed bins, and there is a working bin for
each group. The observed bins never change.

## What is proved

* `sound_of_rebuild` — bringing the working bins up to date makes a spectrum sound.
* `Sound.edited` — an edit leaves a sound spectrum sound.
* `Sound.rebinByMask`, `Sound.groupToCount`, `Sound.unbin` — regrouping a sound spectrum makes a sound one.
-/

namespace SpectralResponse.Spectrum

variable {K : Type} [Field K] [LinearOrder K] [FloorRing K] [Roots K] {s next : Spectrum K}

/-- The observed bins are wide, the groups are runs of them, and there is a working bin for each group. -/
structure Sound (s : Spectrum K) : Prop where
  /-- The observed bins are wide. -/
  wide : s.observed.grid.Wide
  /-- The groups are runs. -/
  proper : s.grouping.Proper
  /-- The observed bins are grouped. -/
  fineLength : s.grouping.fineLength = s.observedCount
  /-- There is a working bin for each group. -/
  workingCount : s.workingCount = s.grouping.length

/-- A spectrum with the same bins is as sound. -/
theorem Sound.transfer (h : s.Sound) (hobserved : next.observed = s.observed)
    (hgrouping : next.grouping = s.grouping) (hworking : next.workingCount = s.workingCount) : next.Sound where
  wide := by rw [hobserved]; exact h.wide
  proper := by rw [hgrouping]; exact h.proper
  fineLength := by rw [hgrouping, observedCount, hobserved]; exact h.fineLength
  workingCount := by rw [hworking, hgrouping]; exact h.workingCount

/-- Bringing the working bins up to date makes a spectrum sound. -/
theorem sound_of_rebuild (h : s.rebuild = .ok next) (hw : s.observed.grid.Wide) (hg : s.grouping.Proper) :
    next.Sound := by
  obtain ⟨working, hderive, h⟩ := Except.bind_eq_ok.1 h
  cases Except.ok.inj h
  obtain ⟨grid, hgrid, hderive⟩ := Except.bind_eq_ok.1 hderive
  obtain ⟨counts, -, hderive⟩ := Except.bind_eq_ok.1 hderive
  obtain ⟨statErrors, -, hderive⟩ := Except.bind_eq_ok.1 hderive
  obtain ⟨sysErrors, -, hderive⟩ := Except.bind_eq_ok.1 hderive
  obtain ⟨notice, -, hderive⟩ := Except.bind_eq_ok.1 hderive
  cases Except.ok.inj hderive
  exact ⟨hw, hg, (Grouping.of_grid hgrid).1, hg.length_grid hgrid⟩

theorem sound_of_configure {config : Config K} (h : s.configure config = .ok next)
    (hw : s.observed.grid.Wide) (hg : s.grouping.Proper) : next.Sound :=
  sound_of_rebuild h hw hg

/-- A spectrum that is read has a working bin for each observed bin. -/
theorem proper_of_ofInput {input : SpectrumInput K} (h : (ofInput input).Answers (.ok s)) :
    s.grouping.Proper := by
  obtain ⟨⟨given, sysFractions⟩, -, h⟩ := h.of_lift_bind
  have h := h.of_warnIf_bind
  obtain ⟨working, -, h⟩ := Except.bind_eq_ok.1 (Noted.answers_lift.1 h).symm
  cases Except.ok.inj h
  exact Grouping.proper_identity _

theorem proper_of_read {file : CalibrationFile K} (h : (Spectrum.read file).Answers (.ok s)) :
    s.grouping.Proper := by
  obtain ⟨input, -, h⟩ := h.of_lift_bind
  exact proper_of_ofInput h.of_inDocument

/-- An edit leaves the bins. -/
theorem Sound.edited (hs : s.Sound) (h : s.Edited next) : next.Sound := by
  obtain ⟨hobserved, hgrouping⟩ := h.keeps
  cases h with
  | kernel kernel h => exact hs.transfer hobserved hgrouping (by rw [h]; rfl)
  | background h =>
    obtain ⟨⟨⟩, -, h⟩ := Except.bind_eq_ok.1 h
    cases Except.ok.inj h
    exact hs.transfer rfl rfl rfl
  | sysFractions h =>
    obtain ⟨⟨⟩, -, h⟩ := Except.bind_eq_ok.1 h
    exact sound_of_rebuild h hs.wide hs.proper
  | notice h =>
    obtain ⟨flags, -, h⟩ := Except.bind_eq_ok.1 h
    cases Except.ok.inj h
    exact hs.transfer rfl rfl rfl

/-! ### Regrouping -/

theorem Sound.regroup {grouping : Grouping} (hs : s.Sound) (hg : grouping.Proper)
    (h : s.regroup grouping = .ok next) : next.Sound :=
  sound_of_rebuild h hs.wide hg

theorem Sound.rebinByMask {mask : List Int} (hs : s.Sound) (h : s.rebinByMask mask = .ok next) : next.Sound := by
  obtain ⟨⟨⟩, -, h⟩ := Except.bind_eq_ok.1 h
  obtain ⟨grouping, hmask, h⟩ := Except.bind_eq_ok.1 h
  exact hs.regroup (Grouping.proper_ofMask hmask).1 h

theorem Sound.groupToCount {threshold : K} (hs : s.Sound) (h : s.groupToCount threshold = .ok next) :
    next.Sound := by
  obtain ⟨grouping, hleast, h⟩ := Except.bind_eq_ok.1 h
  exact hs.regroup (Grouping.proper_leastCount hleast) h

theorem Sound.unbin (hs : s.Sound) (h : s.unbin = .ok next) : next.Sound :=
  hs.regroup (Grouping.proper_identity _) h

end SpectralResponse.Spectrum
