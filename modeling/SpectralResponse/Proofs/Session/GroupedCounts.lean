import SpectralResponse.Proofs.Scalar.Rational
import SpectralResponse.Proofs.Session.Alignment
import SpectralResponse.Proofs.Session.Predictions

/-!
# Grouped counts

Predicted counts come about in two ways: a matrix that was moved to the working bins gives one value for
each of them, and a matrix on its own channels gives one for each observed bin, which are summed up
afterwards. Which way is taken depends on all that happened to the matrix before. The counts do not.

## What is proved

* `exists_native_fold` — wherever a matrix stands, a fold through it is the fold through the matrix as it was
  built, or the sums of that over the groups.
* `Sound.toWorking_eq` — in both cases the working bins get the sums.
* `predictions_do_not_depend_on_history` — after any operations that have succeeded, each working bin gets
  the sum over the fit pairs and over its observed bins of what the channels get.
-/

namespace SpectralResponse

variable {K : Type} [Field K] [LinearOrder K] [FloorRing K] [Roots K]

/-! ### One pair -/

/-- What arrives at a matrix depends on the number of its energy bins only. -/
theorem Kernel.incidentCounts_congr {area : EffectiveArea K} {m m' : Redistribution K} {flux : List K}
    (kernel : Kernel K) (h : m.energyCount = m'.energyCount) :
    kernel.incidentCounts area m flux = kernel.incidentCounts area m' flux := by
  rw [incidentCounts, incidentCounts, h]

namespace Spectrum

variable {s : Spectrum K} {channels folded counts : List K}

/-- The working bins get the sums of the groups, whether the channels are summed before or now. -/
theorem Sound.toWorking_eq (hs : s.Sound) (hlen : channels.length = s.observedCount)
    (hfolded : folded = channels ∨ folded = s.grouping.sums channels) (h : s.toWorking folded = .ok counts) :
    counts = s.grouping.sums channels := by
  have hfine : channels.length = s.grouping.fineLength := by rw [hlen, hs.fineLength]
  rw [toWorking] at h
  rcases hfolded with rfl | rfl
  · by_cases hworking : folded.length = s.workingCount
    · -- there are as many groups as observed bins, so each of them is one bin
      rw [if_pos hworking] at h
      cases Except.ok.inj h
      refine (hs.proper.sums_eq_self ?_ hfine).symm
      rw [← hs.workingCount, ← hworking, hfine]
    · rw [if_neg hworking, if_pos hlen, Grouping.sum_eq_sums hfine] at h
      exact (Except.ok.inj h).symm
  · have hworking : (s.grouping.sums channels).length = s.workingCount := by
      rw [Grouping.sums, List.length_map, hs.workingCount, Grouping.length]
    rw [if_pos hworking] at h
    exact (Except.ok.inj h).symm

end Spectrum

variable [IsStrictOrderedRing K]

/-- Wherever a matrix stands, a fold through it is the fold through the matrix as it was built, or the sums
of that over the groups. -/
theorem ResponseMatrix.Sound.exists_native_fold {m : ResponseMatrix K} {g : Grouping} {kernel : Kernel K}
    {area : EffectiveArea K} {flux folded : List K} (h : m.Sound) (hg : g.Proper)
    (hstands : m.pristine = none ∨ m.MovedBy g)
    (hfold : kernel.fold area m.current flux (List.replicate m.current.channelCount 0) = .ok folded) :
    ∃ channels, kernel.fold area m.native flux (List.replicate m.native.channelCount 0) = .ok channels ∧
      channels.length = m.native.channelCount ∧ (folded = channels ∨ folded = g.sums channels) := by
  obtain ⟨source, hsource, hcurrent⟩ := Except.bind_eq_ok.1 hfold
  rcases hstands with hnone | hmoved
  · rw [native_eq_current hnone]
    exact ⟨folded, hfold, Redistribution.length_of_fold hcurrent, .inl rfl⟩
  · have henergies : m.native.energyCount = m.current.energyCount := by
      obtain ⟨built, target, hsome, hgrid, -, hmove⟩ := hmoved
      have hwide := h.wide
      rw [native_of_pristine hsome] at hwide ⊢
      rw [Redistribution.energyCount, Redistribution.energyCount,
        (Redistribution.of_onChannels hwide hg hgrid hmove).1]
    obtain ⟨channels, hchannels, hcount, hsums⟩ := h.fold_of_movedBy hg hmoved hcurrent
    refine ⟨channels, Except.bind_eq_ok.2 ⟨source, ?_, hchannels⟩, hcount, .inr hsums⟩
    rw [kernel.incidentCounts_congr henergies, hsource]

namespace Session

section

variable {s s' : Session K} {id : SpectrumId} {pair : ResponsePair} {fluxes : List (AreaId × List K)}
  {spectrum : Spectrum K} {counts : List K}

/-- The counts that a response pair gives to the channels on which its matrix was built. -/
def nativeCounts (s : Session K) (fluxes : List (AreaId × List K)) (kernel : Kernel K) (pair : ResponsePair) :
    Except (Fault K) (List K) := do
  let area ← (s.areas.get pair.area).mapError Fault.slot
  let m ← (s.matrices.get pair.matrix).mapError Fault.slot
  let flux ← fluxOf fluxes pair.area
  kernel.fold area m.native flux (List.replicate m.native.channelCount 0)

/-- In an aligned session a fit pair gives each working bin what it gives to the channels grouped there. -/
theorem Aligned.pairCounts {slot : Slot (SpectrumRecord K)} (h : s.Aligned)
    (hs : s.spectra.slot? id = some slot) (hpair : pair ∈ slot.value.fit)
    (y : Yields (pairCounts fluxes slot.value.spectrum pair) s (.ok counts) s') :
    ∃ channels, s.nativeCounts fluxes slot.value.spectrum.kernel pair = .ok channels ∧
      channels.length = slot.value.spectrum.observedCount ∧
      counts = slot.value.spectrum.grouping.sums channels := by
  obtain ⟨-, curve, mslot, flux, folded, hcurve, hm, hflux, hfolded, hworking⟩ := y.of_pairCounts
  have hnames : s.Names id slot pair.matrix mslot :=
    ⟨hs, List.mem_map_of_mem (List.mem_append_right _ hpair), hm⟩
  have hsound := h.spectra id slot hs
  have hstands : mslot.value.pristine = none ∨ mslot.value.MovedBy slot.value.spectrum.grouping :=
    (h.follows hnames).imp_right And.left
  obtain ⟨channels, hchannels, hcount, hsums⟩ :=
    (h.matrices pair.matrix mslot hm).exists_native_fold hsound.proper hstands hfolded
  have hlen : channels.length = slot.value.spectrum.observedCount := by
    rw [hcount, h.fits id slot pair.matrix mslot hnames]
  refine ⟨channels, ?_, hlen, hsound.toWorking_eq hlen hsums hworking⟩
  rw [nativeCounts, Arena.get_eq_ok_iff.2 ⟨curve, hcurve, rfl⟩, Arena.get_eq_ok_iff.2 ⟨mslot, hm, rfl⟩, hflux]
  exact hchannels

/-- The counts of a spectrum are those of the channels of its fit pairs, before any move, summed over the
groups. -/
def GroupsNative (s : Session K) (fluxes : List (AreaId × List K)) (id : SpectrumId) (counts : List K) : Prop :=
  ∃ slot channels, s.spectra.slot? id = some slot ∧
    slot.value.spectrum.workingCount = slot.value.spectrum.grouping.length ∧
    slot.value.fit.mapM (s.nativeCounts fluxes slot.value.spectrum.kernel) = .ok channels ∧
    (∀ row ∈ channels, row.length = slot.value.spectrum.observedCount) ∧
    counts = slot.value.spectrum.grouping.groups.map fun group =>
      (channels.map fun row => (Grouping.pick row group).sum).sum

omit [IsStrictOrderedRing K] in
/-- The shared evaluation grid does not matter for that. -/
theorem SameContents.groupsNative (h : SameContents s s') (hg : s'.GroupsNative fluxes id counts) :
    s.GroupsNative fluxes id counts := by
  rw [h] at hg
  exact hg

/-- In an aligned session each working bin gets what the pairs give to the channels grouped there. -/
theorem Aligned.spectrumCounts (h : s.Aligned) (y : Yields (spectrumCounts fluxes id) s (.ok counts) s') :
    s' = s ∧ s.GroupsNative fluxes id counts := by
  rcases y.of_record_bind with ⟨_, -, hfault, -⟩ | ⟨slot, hs, y₁⟩
  · cases hfault
  obtain ⟨rfl, lists, hlists, hcounts⟩ := y₁.of_addedCounts
  have hworking := (h.spectra id slot hs).workingCount
  have hnative : ∃ channels, List.Forall₂ (fun pair row =>
        s'.nativeCounts fluxes slot.value.spectrum.kernel pair = .ok row) slot.value.fit channels ∧
      (∀ row ∈ channels, row.length = slot.value.spectrum.observedCount) ∧
      lists = channels.map slot.value.spectrum.grouping.sums := by
    refine Except.exists_map_of_forall₂ hlists fun pair hpair list z => ?_
    exact h.pairCounts hs hpair z
  obtain ⟨channels, hchannels, hlen, rfl⟩ := hnative
  refine ⟨rfl, slot, channels, hs, hworking, Except.mapM_eq_ok.2 hchannels, hlen, ?_⟩
  have hinit : List.replicate slot.value.spectrum.workingCount (0 : K) =
      slot.value.spectrum.grouping.groups.map fun _ => 0 := by
    rw [List.map_const', hworking, Grouping.length]
  rw [hcounts, hinit, Grouping.foldl_sums]
  simp only [zero_add]

/-! ### All spectra -/

/-- However matrices were assigned, shared, moved and taken back: after admissible operations that have all
succeeded, in a session that leaves out no weights when channels are moved, a prediction gives each working
bin of each spectrum the sum over the fit pairs and over the observed bins grouped there of what the
channels of the matrix, as it was built, get. -/
theorem predictions_do_not_depend_on_history {config : Config K} {start : Session K}
    (hthreshold : config.matrixRebinThreshold = 0) (hstart : ofConfig config = .ok start)
    {operations : List (Operation K)} {history : List (Event K)}
    (hreplay : start.replay operations = (history, s))
    (hadmissible : ∀ operation ∈ operations, operation.Admissible) (hok : ∀ e ∈ history, e.Succeeded)
    {ids : List SpectrumId} {model : Model K} {prediction : Prediction K}
    (hpredict : (run (predictedCounts ids model) s).1 = (.ok prediction, s')) :
    ∃ fluxes, Yields (modelFluxes ids model) s (.ok (fluxes, prediction.evaluated)) s' ∧
      List.Forall₂ (s.GroupsNative fluxes) ids prediction.counts := by
  have haligned : s.Aligned := by
    have h := aligned_replay (aligned_start hstart hthreshold) hadmissible
    rw [hreplay] at h
    exact h hok
  obtain ⟨⟨fluxes, evaluated⟩, s₁, y₁, y₂⟩ := (Yields.of_run hpredict).of_bind_ok
  obtain ⟨counts, z, rfl⟩ := y₂.of_bind_pure
  have hsame : SameContents s s₁ := Keeps.modelFluxes ids model _ _ _ y₁
  have haligned₁ : s₁.Aligned := haligned.sameContents hsame
  have hall : s' = s₁ ∧ List.Forall₂ (s₁.GroupsNative fluxes) ids counts :=
    Yields.of_mapM_reading (fun _ _ _ _ z => haligned₁.spectrumCounts z) z
  obtain ⟨rfl, hcounts⟩ := hall
  exact ⟨fluxes, y₁, hcounts.imp fun _ _ hg => hsame.groupsNative hg⟩

end

/-! ### A matrix that comes to be shared -/

namespace Shared

/-- A spectrum with four bins. -/
def spectrum : Spectrum ℚ := Sample.spectrum (Sample.grid 4) [4, 5, 6, 7] [3, 4, 5, 12]

/-- Two energy bins. -/
def energies : Grid ℚ := ⟨[⟨1, 3⟩, ⟨3, 5⟩]⟩

/-- A matrix between the two energy bins and the four bins. -/
def matrix : ResponseMatrix ℚ :=
  .ofRedistribution ⟨.file, energies, Sample.grid 4,
    [[⟨0, [1 / 2, 1 / 4]⟩, ⟨3, [1 / 8]⟩], [⟨1, [1 / 2, 1 / 2, 1]⟩]], .plain, {}⟩

/-- The matrix is assigned to a spectrum, which is then grouped. -/
def grouped : List (Operation ℚ) :=
  [.addSpectrum spectrum, .takeMatrix matrix, .addArea (.identity energies), .assign ⟨0⟩ ⟨⟨1⟩, ⟨1⟩⟩,
    .rebinSpectrum ⟨0⟩ [1, 1, -1, -1]]

/-- A second spectrum gets the same matrix. -/
def shared : List (Operation ℚ) := grouped ++ [.addSpectrum spectrum, .assign ⟨1⟩ ⟨⟨1⟩, ⟨1⟩⟩]

/-- The counts predicted for a density of one. -/
def predicted (operations : List (Operation ℚ)) (ids : List SpectrumId) : List (List ℚ) :=
  match (run (predictedCounts ids (Model.flat 1)) (Sample.start.replay operations).2).1.1 with
  | .ok prediction => prediction.counts
  | .error _ => []

/-- The matrix stands on other channels than its own. -/
def isMoved (operations : List (Operation ℚ)) : Bool :=
  ((Sample.start.replay operations).2.matrices.slot? ⟨1⟩).any fun slot => slot.value.isRebinned

theorem wide_grid : (Sample.grid 4 : Grid ℚ).Wide := ⟨by decide +kernel, by decide +kernel, by decide +kernel⟩

theorem admissible_shared : ∀ operation ∈ shared, operation.Admissible := by
  have hspectrum : (Operation.addSpectrum spectrum).Admissible := ⟨Grouping.proper_identity 4, wide_grid⟩
  have hmatrix : (Operation.takeMatrix matrix).Admissible := by
    refine ⟨rfl, ?_, wide_grid⟩
    unfold Redistribution.Clean
    decide +kernel
  intro operation hoperation
  simp only [shared, grouped, List.cons_append, List.nil_append, List.mem_cons, List.not_mem_nil,
    or_false] at hoperation
  rcases hoperation with rfl | rfl | rfl | rfl | rfl | rfl | rfl
  · exact hspectrum
  · exact hmatrix
  · trivial
  · trivial
  · trivial
  · exact hspectrum
  · trivial

end Shared

/-- The grouped spectrum gets the same counts from the moved matrix as from the shared one, which stands on
its own channels again. -/
theorem shared_matrix_predicts_the_same :
    Shared.isMoved Shared.grouped = true ∧ Shared.isMoved Shared.shared = false ∧
      Shared.predicted Shared.grouped [⟨0⟩] = [[5 / 2, 13 / 4]] ∧
      Shared.predicted Shared.shared [⟨0⟩, ⟨1⟩] = [[5 / 2, 13 / 4], [1, 3 / 2, 1, 9 / 4]] ∧
      ∃ fluxes, List.Forall₂ ((Sample.start.replay Shared.shared).2.GroupsNative fluxes) [⟨0⟩, ⟨1⟩]
        (Shared.predicted Shared.shared [⟨0⟩, ⟨1⟩]) := by
  refine ⟨by decide +kernel, by decide +kernel, by decide +kernel, by decide +kernel, ?_⟩
  have hok : ∀ e ∈ (Sample.start.replay Shared.shared).1, e.Succeeded := by decide +kernel
  have hcounts : Shared.predicted Shared.shared [⟨0⟩, ⟨1⟩] ≠ [] := by decide +kernel
  unfold Shared.predicted at hcounts ⊢
  cases hpredict : (run (predictedCounts [⟨0⟩, ⟨1⟩] (Model.flat 1)) (Sample.start.replay Shared.shared).2).1.1 with
  | error fault =>
    rw [hpredict] at hcounts
    exact absurd rfl hcounts
  | ok prediction =>
    obtain ⟨fluxes, -, hgroups⟩ := predictions_do_not_depend_on_history rfl Sample.ofConfig_start (Prod.ext rfl rfl)
      Shared.admissible_shared hok (Prod.ext hpredict rfl)
    exact ⟨fluxes, hgroups⟩

end Session

end SpectralResponse
