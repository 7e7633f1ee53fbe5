import SpectralResponse.Proofs.Grouping.Whole
import SpectralResponse.Proofs.Noted
import SpectralResponse.Proofs.Spectrum.Edits
import SpectralResponse.Spectrum.Table

/-!
# Tidy spectra

A spectrum is made of columns and changed by choices, and each change brings the working bins up to date.
So at any time the working bins are those that follow from the observed bins and the choices, the groups
hold the bins that are not left out, and a background has a value for each observed bin.

## What is proved

* `tidy_of_ofInput`, `tidy_of_read` — a spectrum is tidy when it is made.
* `Tidy.rebinByMask`, `Tidy.edited` and the like — each change leaves a tidy spectrum tidy.
-/

namespace SpectralResponse.Spectrum

variable {α : Type} [Scalar α] {s next : Spectrum α}

/-- The working bins are up to date. -/
structure Tidy (s : Spectrum α) : Prop where
  /-- The groups hold the bins that are not left out. -/
  whole : s.grouping.Whole
  /-- The working bins follow from the observed bins and the choices. -/
  derived : s.derive? = .ok s.working
  /-- A background has a value for each observed bin. -/
  background : ∀ b, s.background = some b → b.counts.length = s.observedCount

/-- The working bins are derived part by part. -/
theorem derive?_eq_ok {working : WorkingBins α} : s.derive? = .ok working ↔
    s.grouping.grid s.observed.grid = .ok working.grid ∧ s.grouping.sum s.observed.counts = .ok working.counts ∧
      s.derivedStatErrors working.counts = .ok working.statErrors ∧ s.derivedSysErrors = .ok working.sysErrors ∧
        s.grouping.any s.notice = (.ok working.notice : Except (Fault α) _) := by
  simp only [derive?, Except.bind_eq_ok]
  constructor
  · rintro ⟨grid, hgrid, counts, hcounts, statErrors, hstat, sysErrors, hsys, notice, hnotice, h⟩
    cases Except.ok.inj h
    exact ⟨hgrid, hcounts, hstat, hsys, hnotice⟩
  · rintro ⟨hgrid, hcounts, hstat, hsys, hnotice⟩
    exact ⟨_, hgrid, _, hcounts, _, hstat, _, hsys, _, hnotice, rfl⟩

/-! ### Making a spectrum -/

/-- Bringing the working bins up to date makes a spectrum tidy and changes nothing else. -/
theorem tidy_of_rebuild (h : s.rebuild = .ok next) (hw : s.grouping.Whole)
    (hb : ∀ b, s.background = some b → b.counts.length = s.observedCount) : next.Tidy := by
  obtain ⟨working, hderive, h⟩ := Except.bind_eq_ok.1 h
  cases Except.ok.inj h
  exact ⟨hw, hderive, hb⟩

/-- A spectrum that was never grouped and has no background is tidy if its working bins are up to date. -/
theorem tidy_of_ungrouped {count : Nat} (hg : s.grouping = .identity count) (hb : s.background = none)
    (h : s.derive?.toOption = some s.working) : s.Tidy := by
  refine ⟨hg ▸ Grouping.whole_identity count, Except.toOption_eq_some.1 h, fun b hsome => ?_⟩
  cases hb.symm.trans hsome

theorem tidy_of_ofInput {input : SpectrumInput α} (h : (ofInput input).Answers (.ok s)) : s.Tidy := by
  obtain ⟨⟨given, sysFractions⟩, -, h⟩ := h.of_lift_bind
  have h := (Noted.answers_lift.1 h.of_warnIf_bind).symm
  exact tidy_of_rebuild h (Grouping.whole_identity _) fun b hb => by cases hb

theorem tidy_of_read {file : CalibrationFile α} (h : (Spectrum.read file).Answers (.ok s)) : s.Tidy := by
  obtain ⟨input, -, h⟩ := h.of_lift_bind
  exact tidy_of_ofInput h.of_inDocument

/-! ### Changing a spectrum -/

namespace Tidy

variable (hs : s.Tidy)
include hs

theorem configure {config : Config α} (h : s.configure config = .ok next) : next.Tidy :=
  tidy_of_rebuild h hs.whole hs.background

theorem setSysFractions {fractions : List α} (h : s.setSysFractions fractions = .ok next) : next.Tidy := by
  obtain ⟨⟨⟩, -, h⟩ := Except.bind_eq_ok.1 h
  exact tidy_of_rebuild h hs.whole hs.background

theorem setKernel (kernel : Kernel α) : (s.setKernel kernel).Tidy := ⟨hs.whole, hs.derived, hs.background⟩

theorem regroup {grouping : Grouping} (hg : grouping.Whole) (h : s.regroup grouping = .ok next) : next.Tidy :=
  tidy_of_rebuild h hg hs.background

theorem rebinByMask {mask : List Int} (h : s.rebinByMask mask = .ok next) : next.Tidy := by
  obtain ⟨⟨⟩, -, h⟩ := Except.bind_eq_ok.1 h
  obtain ⟨grouping, hmask, h⟩ := Except.bind_eq_ok.1 h
  exact hs.regroup (Grouping.whole_ofMask hmask) h

theorem groupToCount {threshold : α} (h : s.groupToCount threshold = .ok next) : next.Tidy := by
  obtain ⟨grouping, hleast, h⟩ := Except.bind_eq_ok.1 h
  exact hs.regroup (Grouping.whole_leastCount hleast) h

theorem unbin (h : s.unbin = .ok next) : next.Tidy := hs.regroup (Grouping.whole_identity _) h

/-- The flags of the working bins follow the flags of the observed bins; all else is the same. -/
theorem setNotice {notice : List Bool} (h : s.setNotice notice = .ok next) : next.Tidy := by
  obtain ⟨flags, hflags, h⟩ := Except.bind_eq_ok.1 h
  cases Except.ok.inj h
  refine ⟨hs.whole, ?_, hs.background⟩
  obtain ⟨hgrid, hcounts, hstat, hsys, -⟩ := derive?_eq_ok.1 hs.derived
  exact derive?_eq_ok.2 ⟨hgrid, hcounts, hstat, hsys, hflags⟩

theorem setRange {a b : α} {unit : EdgeUnit} {noticed : Bool} {count : Nat}
    (h : s.setRange a b unit noticed = .ok (next, count)) : next.Tidy := by
  obtain ⟨range, -, h⟩ := Except.bind_eq_ok.1 h
  obtain ⟨next', hnotice, h⟩ := Except.bind_eq_ok.1 h
  cases Except.ok.inj h
  exact hs.setNotice hnotice

theorem setBackground {background : Background α} (h : s.setBackground background = .ok next) : next.Tidy := by
  obtain ⟨⟨⟩, hlen, h⟩ := Except.bind_eq_ok.1 h
  cases Except.ok.inj h
  refine ⟨hs.whole, hs.derived, fun b hb => ?_⟩
  cases hb
  exact (Except.requireLength_eq_ok.1 hlen).symm

theorem clearBackground : s.clearBackground.Tidy := ⟨hs.whole, hs.derived, fun b hb => by cases hb⟩

theorem edited (h : s.Edited next) : next.Tidy := by
  cases h with
  | kernel kernel h => exact h ▸ hs.setKernel kernel
  | background h => exact hs.setBackground h
  | sysFractions h => exact hs.setSysFractions h
  | notice h => exact hs.setNotice h

/-! ### What a tidy spectrum knows -/

/-- The parts of the working bins, one by one. -/
theorem working_eq : s.grouping.grid s.observed.grid = .ok s.working.grid ∧
    s.grouping.sum s.observed.counts = .ok s.working.counts ∧
      s.grouping.any s.notice = (.ok s.working.notice : Except (Fault α) _) := by
  obtain ⟨hgrid, hcounts, -, -, hnotice⟩ := derive?_eq_ok.1 hs.derived
  exact ⟨hgrid, hcounts, hnotice⟩

theorem fineLength : s.grouping.fineLength = s.observedCount := by
  obtain ⟨⟨⟩, hlen, -⟩ := Except.bind_eq_ok.1 hs.working_eq.1
  exact Except.requireLength_eq_ok.1 hlen

theorem length_counts : s.observed.counts.length = s.observedCount := by
  obtain ⟨⟨⟩, hlen, -⟩ := Except.bind_eq_ok.1 hs.working_eq.2.1
  rw [← hs.fineLength, Except.requireLength_eq_ok.1 hlen]

theorem length_notice : s.notice.length = s.observedCount := by
  obtain ⟨⟨⟩, hlen, -⟩ := Except.bind_eq_ok.1 hs.working_eq.2.2
  rw [← hs.fineLength, Except.requireLength_eq_ok.1 hlen]

theorem length_scaledBackgroundObserved : s.scaledBackgroundObserved.length = s.observedCount := by
  rw [scaledBackgroundObserved]
  split
  · rename_i b hb
    rw [List.length_map, hs.background b hb]
  · rw [List.length_replicate]

end Tidy

end SpectralResponse.Spectrum
