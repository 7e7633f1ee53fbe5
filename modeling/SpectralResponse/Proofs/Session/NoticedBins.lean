import SpectralResponse.Proofs.ResponseMatrix.Noticing
import SpectralResponse.Proofs.Scalar.Rational
import SpectralResponse.Proofs.Session.Values

/-!
# Energy bins that may be left out

The flags for the energy bins of a fit pair tell which of them matter for the noticed channels. Where the
matrix stands on the working bins, these are the noticed working bins, and leaving out the other energy bins
changes no count there. Where it stands on the observed bins, the flags are made for the noticed observed bins,
but a noticed working bin counts all its members, and what its ignored members get from energy bins that are
left out is lost.

## What is proved

* `Tidy.exists_quiet` — how the counts of a noticed working bin differ, if the noticed channels get the same.
* `silencing_costs_ignored_channels_only` — after any run, what a noticed working bin loses when the energy
  bins that are not flagged are silenced: nothing, or what its ignored members would have got from them.
-/

namespace SpectralResponse

variable {K : Type} [Field K] [LinearOrder K] [FloorRing K] [Roots K]

/-! ### Channels and working bins -/

namespace Spectrum

/-- What the ignored members of a working bin get, where the channels are the observed bins; nothing, where
the channels are the working bins. -/
def ignoredCounts (s : Spectrum K) (channels : List K) (j : Nat) : K :=
  if channels.length = s.workingCount then 0
  else (Grouping.pick channels ((s.grouping.groups[j]?.getD []).filter fun i => !(s.notice[i]?.getD false))).sum

omit [LinearOrder K] [FloorRing K] [Roots K] in
/-- Two sums over a group differ in the members for which the terms differ. -/
theorem sum_eq_sum_add_ignored {group : List Nat} {ignored : Nat → Bool} {f f' : Nat → K}
    (h : ∀ i ∈ group, ignored i = false → f' i = f i) :
    (group.map f).sum = (group.map f').sum + ((group.filter ignored).map fun i => f i - f' i).sum := by
  induction group with
  | nil => simp
  | cons i group ih =>
    have hrest := ih fun j hj => h j (List.mem_cons_of_mem _ hj)
    rw [List.map_cons, List.sum_cons, List.map_cons, List.sum_cons, hrest, List.filter_cons]
    by_cases hi : ignored i = true
    · rw [if_pos hi, List.map_cons, List.sum_cons]
      ring
    · rw [if_neg hi, h i List.mem_cons_self (Bool.eq_false_iff.2 hi)]
      ring

/-- When the noticed channels get the same, a noticed working bin gets less by what its ignored members get
less. -/
theorem Tidy.exists_quiet {s : Spectrum K} (hs : s.Tidy) {count : Nat} {f f' : Nat → K} {counts : List K}
    (hcount : (s.channelNotice count).length = count)
    (hsame : ∀ channel : Nat, (s.channelNotice count)[channel]? = some true → f' channel = f channel)
    (h : s.toWorking ((List.range count).map f) = .ok counts) :
    ∃ quiet, s.toWorking ((List.range count).map f') = .ok quiet ∧
      ∀ j : Nat, s.working.notice[j]? = some true →
        ∃ left, quiet[j]? = some left ∧
          counts[j]? = some (left + s.ignoredCounts ((List.range count).map fun i => f i - f' i) j) := by
  have hlen (g : Nat → K) : ((List.range count).map g).length = count := by simp
  by_cases hworking : count = s.workingCount
  · -- the channels are the working bins, and the flags those of the working bins
    have hflags : s.channelNotice count = s.working.notice := by rw [channelNotice, if_pos hworking]
    rw [toWorking, if_pos ((hlen f).trans hworking)] at h
    rw [hflags] at hcount hsame
    refine ⟨_, by rw [toWorking, if_pos ((hlen f').trans hworking)], fun j hj => ?_⟩
    have hjc : j < count := hcount ▸ (List.getElem?_eq_some_iff.1 hj).1
    refine ⟨f' j, by simp [hjc], ?_⟩
    rw [← Except.ok.inj h, ignoredCounts, if_pos ((hlen _).trans hworking), add_zero, hsame j hj]
    simp [hjc]
  · -- the channels are the observed bins, and a noticed one of a group is flagged
    have hobserved : count = s.grouping.fineLength := by
      rw [channelNotice, if_neg hworking, List.length_map, List.length_zipIdx, hs.length_notice] at hcount
      rw [hs.fineLength, hcount]
    have hsums (g : Nat → K) : s.toWorking ((List.range count).map g) =
        .ok (s.grouping.groups.map fun group => (group.map g).sum) := by
      rw [toWorking, if_neg (by rwa [hlen]), if_pos (by rw [hlen, hobserved, hs.fineLength]),
        Grouping.sum_eq_sums (by rw [hlen, hobserved]), hobserved, hs.whole.proper.sums_map_range]
    rw [hsums] at h
    refine ⟨_, hsums f', fun j hj => ?_⟩
    have hany := hs.working_eq.2.2
    obtain ⟨⟨⟩, -, hany⟩ := Except.bind_eq_ok.1 hany
    rw [← Except.ok.inj hany, List.getElem?_map] at hj
    obtain ⟨group, hgroup, -⟩ := Option.map_eq_some_iff.1 hj
    have hmem : group ∈ s.grouping.groups := List.mem_of_getElem? hgroup
    have hbound : ∀ i ∈ group, i < count := fun i hi =>
      hobserved ▸ ((hs.whole.proper.runs group hmem).bounds i hi).2
    have hignored (i : Nat) (hi : i ∈ group) (h : (!(s.notice[i]?.getD false)) = false) : f' i = f i := by
      refine hsame i ?_
      have hlt : i < s.notice.length := by rw [hs.length_notice, ← hs.fineLength, ← hobserved]; exact hbound i hi
      rw [List.getElem?_eq_getElem hlt] at h
      rw [channelNotice, if_neg hworking, List.getElem?_map, List.getElem?_zipIdx, List.getElem?_eq_getElem hlt]
      simpa [hs.whole.includes_of_mem hmem hi] using h
    refine ⟨(group.map f').sum, by rw [List.getElem?_map, hgroup]; rfl, ?_⟩
    rw [← Except.ok.inj h, List.getElem?_map, hgroup, Option.map_some, sum_eq_sum_add_ignored hignored,
      ignoredCounts, if_neg (by rwa [hlen]), hgroup, Option.getD_some,
      Grouping.pick_map_range fun i hi => hbound i (List.mem_of_mem_filter hi)]

end Spectrum

/-! ### One fit pair -/

namespace Session

section

variable {s s' : Session K} {id : SpectrumId} {pair : ResponsePair} {spectrum : Spectrum K} {flux : List K}

/-- The counts that a response pair gives to the channels on which its matrix stands. -/
def channelCounts (s : Session K) (flux : List K) (kernel : Kernel K) (pair : ResponsePair) :
    Except (Fault K) (List K) := do
  let area ← (s.areas.get pair.area).mapError Fault.slot
  let m ← (s.matrices.get pair.matrix).mapError Fault.slot
  kernel.fold area m.current flux (List.replicate m.current.channelCount 0)

/-- The counts of a pair are those of the channels, taken to the working bins. -/
theorem Yields.eq_channelCounts {answer : Except (Fault K) (List K)}
    (y : Yields (pairCounts [(pair.area, flux)] spectrum pair) s answer s') :
    s' = s ∧ answer = s.channelCounts flux spectrum.kernel pair >>= spectrum.toWorking := by
  have hflux : fluxOf [(pair.area, flux)] pair.area = .ok flux := by simp [fluxOf]
  rw [channelCounts]
  rcases y.of_bind with ⟨fault, z, rfl⟩ | ⟨curve, s₁, z, y₁⟩
  · obtain ⟨h, rfl⟩ := z.of_area
    rw [← h]
    exact ⟨rfl, rfl⟩
  obtain ⟨h, rfl⟩ := z.of_area
  rw [← h]
  rcases y₁.of_bind with ⟨fault, z, rfl⟩ | ⟨m, s₁, z, y₂⟩
  · obtain ⟨h, rfl⟩ := z.of_matrix
    rw [← h]
    exact ⟨rfl, rfl⟩
  obtain ⟨h, rfl⟩ := z.of_matrix
  rw [← h]
  rw [hflux] at y₂
  rcases y₂.of_lift_bind with ⟨fault, hfault, -⟩ | ⟨flux', hok, y₃⟩
  · cases hfault
  cases hok
  change s' = _ ∧ answer = spectrum.kernel.fold curve m.current flux _ >>= spectrum.toWorking
  rcases y₃.of_lift_bind with ⟨fault, hfold, rfl, rfl⟩ | ⟨channels, hfold, y₄⟩
  · rw [hfold]
    exact ⟨rfl, rfl⟩
  · obtain ⟨rfl, rfl⟩ := yields_lift.1 y₄
    rw [hfold]
    exact ⟨rfl, rfl⟩

/-- Each fit pair gets the flags for the channels on which its matrix stands. -/
theorem Yields.of_noticedModelBins {slot : Slot (SpectrumRecord K)} (hs : s.spectra.slot? id = some slot)
    {flags : List (List Bool)} (y : Yields (noticedModelBins id) s (.ok flags) s') {k : Nat}
    (hpair : slot.value.fit[k]? = some pair) :
    ∃ keep mslot, flags[k]? = some keep ∧ s.matrices.slot? pair.matrix = some mslot ∧
      mslot.value.current.noticedModelBins
        (slot.value.spectrum.channelNotice mslot.value.current.channelCount) = .ok keep := by
  have y₁ := y.of_live_record hs
  have hreads : s' = s ∧ List.Forall₂ (fun (pair : ResponsePair) keep => ∃ mslot,
      s.matrices.slot? pair.matrix = some mslot ∧ mslot.value.current.noticedModelBins
        (slot.value.spectrum.channelNotice mslot.value.current.channelCount) = .ok keep) slot.value.fit flags := by
    refine Yields.of_mapM_reading (fun pair _ keep s₁ z => ?_) y₁
    rcases z.of_matrix_bind with ⟨_, -, hfault, -⟩ | ⟨mslot, hm, z₁⟩
    · cases hfault
    · obtain ⟨hkeep, rfl⟩ := yields_lift.1 z₁
      exact ⟨rfl, mslot, hm, hkeep.symm⟩
  obtain ⟨keep, hkeep, mslot, hm, hflags⟩ := Except.getElem?_of_forall₂ hreads.2 hpair
  exact ⟨keep, mslot, hkeep, hm, hflags⟩

variable [IsStrictOrderedRing K]

/-- After any run, failed operations included: when the flux of a fit pair is silenced in the energy bins that
are not flagged for it, a noticed working bin loses what its ignored members would have got from these energy
bins, if the matrix stands on the observed bins, and nothing otherwise. -/
theorem silencing_costs_ignored_channels_only {history : List (Event K)} (hrun : Run history s)
    (htakes : ∀ e ∈ history, e.operation.TakesInOrder) {slot : Slot (SpectrumRecord K)}
    (hs : s.spectra.slot? id = some slot) {flags : List (List Bool)}
    (hflags : (run (noticedModelBins id) s).1.1 = .ok flags) {k : Nat} (hpair : slot.value.fit[k]? = some pair)
    {counts : List K}
    (hcounts : (run (pairCounts [(pair.area, flux)] slot.value.spectrum pair) s).1.1 = .ok counts) :
    ∃ keep quiet lost, flags[k]? = some keep ∧
      (run (pairCounts [(pair.area, silence keep flux)] slot.value.spectrum pair) s).1.1 = .ok quiet ∧
      s.channelCounts (silenced keep flux) slot.value.spectrum.kernel pair = .ok lost ∧
      ∀ j : Nat, slot.value.spectrum.working.notice[j]? = some true →
        ∃ left, quiet[j]? = some left ∧
          counts[j]? = some (left + slot.value.spectrum.ignoredCounts lost j) := by
  have horder : s.InOrder := hrun.inOrder htakes
  obtain ⟨keep, mslot, hkeep, hm, hnoticed⟩ :=
    Yields.of_noticedModelBins hs (.of_run (Prod.ext hflags rfl)) hpair
  obtain ⟨⟨⟩, hcount, hnoticed⟩ := Except.bind_eq_ok.1 hnoticed
  have hcount := (Except.requireLength_eq_ok.1 hcount).symm
  cases Except.ok.inj hnoticed
  -- all three fluxes are folded through the same matrix
  have hworking := (Yields.eq_channelCounts (.of_run (Prod.ext hcounts rfl))).2
  obtain ⟨channels, hchannels, hworking⟩ := Except.bind_eq_ok.1 hworking.symm
  obtain ⟨curve, hcurve, hchannels⟩ := Except.bind_eq_ok.1 hchannels
  rw [Arena.get_eq_ok_iff.2 ⟨mslot, hm, rfl⟩] at hchannels
  have hfold {flux' : List K} (hlen : flux'.length = flux.length) :
      s.channelCounts flux' slot.value.spectrum.kernel pair = .ok ((List.range mslot.value.current.channelCount).map
        (mslot.value.current.countAt (slot.value.spectrum.kernel.gains curve) flux')) := by
    rw [channelCounts, hcurve, Arena.get_eq_ok_iff.2 ⟨mslot, hm, rfl⟩]
    exact Kernel.fold_of_fold hchannels hlen
  have hsame := Kernel.fold_of_fold hchannels rfl
  cases Except.ok.inj (hchannels.symm.trans hsame)
  obtain ⟨quiet, hquiet, hleft⟩ := (horder.spectra id slot hs).exists_quiet hcount
    (fun channel hchannel => Redistribution.countAt_silence (horder.matrices _ mslot hm).current _ flux hchannel)
    hworking
  refine ⟨_, quiet, _, hkeep, ?_, hfold (length_silenced _ _), fun j hj => ?_⟩
  · rw [(Yields.eq_channelCounts (.of_run rfl)).2, hfold (length_silence _ _)]
    exact hquiet
  · obtain ⟨left, hleft, hsum⟩ := hleft j hj
    refine ⟨left, hleft, ?_⟩
    simp only [Redistribution.countAt, ← Redistribution.countFrom_sub (length_silence _ flux)] at hsum
    exact hsum

end

/-! ### A group with an ignored member -/

namespace Mixed

/-- A spectrum with three bins, of which only the first is noticed. -/
def spectrum : Spectrum ℚ :=
  let plain := Sample.spectrum (Sample.grid 3) [4, 5, 6] [2, 2, 2]
  { plain with
    observed := { plain.observed with isGood := [true, false, true] }
    notice := [true, false, false]
    working := { plain.working with notice := [true, false, false] } }

/-- The matrix is assigned to a spectrum, the first two bins of which are then grouped. -/
def owned : List (Operation ℚ) :=
  [.addSpectrum spectrum, .takeMatrix (Sample.matrix (Sample.grid 3)), .addArea (.identity (Sample.grid 3)),
    .assign ⟨0⟩ ⟨⟨1⟩, ⟨1⟩⟩, .rebinSpectrum ⟨0⟩ [1, 1, -1]]

/-- A second spectrum gets the same matrix. -/
def shared : List (Operation ℚ) := owned ++ [.addSpectrum spectrum, .assign ⟨1⟩ ⟨⟨1⟩, ⟨1⟩⟩]

/-- The session after some operations. -/
def session (operations : List (Operation ℚ)) : Session ℚ := (Sample.start.replay operations).2

/-- The slot of the first spectrum. -/
def slot (operations : List (Operation ℚ)) : Slot (SpectrumRecord ℚ) :=
  ((session operations).spectra.slot? ⟨0⟩).getD ⟨⟨spectrum, [], []⟩, 0, true⟩

/-- The flags of the energy bins, for each of its fit pairs. -/
def flags (operations : List (Operation ℚ)) : Option (List (List Bool)) :=
  (run (noticedModelBins ⟨0⟩) (session operations)).1.1.toOption

/-- The counts that the assigned pair gives to its working bins. -/
def counts (operations : List (Operation ℚ)) (flux : List ℚ) : Option (List ℚ) :=
  (run (pairCounts [(⟨1⟩, flux)] (slot operations).value.spectrum ⟨⟨1⟩, ⟨1⟩⟩) (session operations)).1.1.toOption

theorem run_session (operations : List (Operation ℚ)) :
    Run (Sample.start.replay operations).1 (session operations) :=
  (Run.start Sample.ofConfig_start).replay operations

theorem slot?_session {operations : List (Operation ℚ)}
    (h : ((session operations).spectra.slot? ⟨0⟩).isSome = true) :
    (session operations).spectra.slot? ⟨0⟩ = some (slot operations) := by
  obtain ⟨found, hfound⟩ := Option.isSome_iff_exists.1 h
  rw [slot, hfound, Option.getD_some]

theorem takesInOrder_shared : ∀ operation ∈ shared, operation.TakesInOrder := by
  have hspectrum : (Operation.addSpectrum spectrum).TakesInOrder :=
    Spectrum.tidy_of_ungrouped rfl rfl (by decide +kernel)
  have hmatrix : (Operation.takeMatrix (Sample.matrix (Sample.grid 3 : Grid ℚ))).TakesInOrder := by
    refine ResponseMatrix.clean_ofRedistribution ?_
    unfold Redistribution.Clean
    decide +kernel
  intro operation hoperation
  simp only [shared, owned, List.cons_append, List.nil_append, List.mem_cons, List.not_mem_nil,
    or_false] at hoperation
  rcases hoperation with rfl | rfl | rfl | rfl | rfl | rfl | rfl
  · exact hspectrum
  · exact hmatrix
  · trivial
  · trivial
  · trivial
  · exact hspectrum
  · trivial

end Mixed

/-- While the matrix stands on the two working bins, silencing the energy bin that is not flagged leaves the
noticed one with its two counts. -/
theorem own_matrix_keeps_noticed_counts :
    Mixed.flags Mixed.owned = some [[true, true, false]] ∧ Mixed.counts Mixed.owned [1, 1, 1] = some [2, 1] ∧
      ∃ quiet, Mixed.counts Mixed.owned (silence [true, true, false] [1, 1, 1]) = some quiet ∧
        quiet[0]? = some 2 := by
  have hflags : Mixed.flags Mixed.owned = some [[true, true, false]] := by decide +kernel
  have hcounts : Mixed.counts Mixed.owned [1, 1, 1] = some [2, 1] := by decide +kernel
  have htakes : ∀ e ∈ (Sample.start.replay Mixed.owned).1, e.operation.TakesInOrder := fun e he =>
    Mixed.takesInOrder_shared _ (List.mem_append_left _ (mem_of_mem_replay he))
  have hs : (Mixed.session Mixed.owned).spectra.slot? ⟨0⟩ = some (Mixed.slot Mixed.owned) :=
    Mixed.slot?_session (by decide +kernel)
  have hpair : (Mixed.slot Mixed.owned).value.fit[0]? = some ⟨⟨1⟩, ⟨1⟩⟩ := by decide +kernel
  have hnotice : (Mixed.slot Mixed.owned).value.spectrum.working.notice[0]? = some true := by decide +kernel
  have hlost : ((Mixed.session Mixed.owned).channelCounts (silenced [true, true, false] [1, 1, 1])
      (Mixed.slot Mixed.owned).value.spectrum.kernel ⟨⟨1⟩, ⟨1⟩⟩).toOption = some [0, 1] := by decide +kernel
  obtain ⟨keep, quiet, lost, hkeep, hquiet, hlost', hleft⟩ :=
    silencing_costs_ignored_channels_only (Mixed.run_session Mixed.owned) htakes hs
      (Except.toOption_eq_some.1 hflags) hpair (Except.toOption_eq_some.1 hcounts)
  obtain rfl : [true, true, false] = keep := Option.some.inj hkeep
  cases Except.ok.inj ((Except.toOption_eq_some.1 hlost).symm.trans hlost')
  obtain ⟨left, hat, hsum⟩ := hleft 0 hnotice
  have hnothing : (Mixed.slot Mixed.owned).value.spectrum.ignoredCounts [0, 1] 0 = 0 := by decide +kernel
  rw [hnothing, add_zero] at hsum
  exact ⟨hflags, hcounts, quiet, Except.toOption_eq_some.2 hquiet, hat.trans hsum.symm⟩

/-- When a second spectrum gets the matrix, which goes back to the three observed bins, the second energy bin
is not flagged any more, and silencing it takes a count from the noticed working bin. -/
theorem shared_matrix_drops_a_counted_bin :
    Run (Sample.start.replay Mixed.shared).1 (Mixed.session Mixed.shared) ∧
      (∀ e ∈ (Sample.start.replay Mixed.shared).1, e.Succeeded ∧ e.operation.TakesInOrder) ∧
      (Mixed.session Mixed.shared).spectra.slot? ⟨0⟩ = some (Mixed.slot Mixed.shared) ∧
      (Mixed.slot Mixed.shared).value.fit = [⟨⟨1⟩, ⟨1⟩⟩] ∧
      (Mixed.slot Mixed.shared).value.spectrum.working.notice = [true, false] ∧
      Mixed.flags Mixed.shared = some [[true, false, false]] ∧
      Mixed.counts Mixed.shared [1, 1, 1] = some [2, 1] ∧
      Mixed.counts Mixed.shared (silence [true, false, false] [1, 1, 1]) = some [1, 0] := by
  have hok : ∀ e ∈ (Sample.start.replay Mixed.shared).1, e.Succeeded := by decide +kernel
  have htakes : ∀ e ∈ (Sample.start.replay Mixed.shared).1, e.operation.TakesInOrder := fun e he =>
    Mixed.takesInOrder_shared _ (mem_of_mem_replay he)
  exact ⟨Mixed.run_session Mixed.shared, fun e he => ⟨hok e he, htakes e he⟩,
    Mixed.slot?_session (by decide +kernel), by decide +kernel, by decide +kernel, by decide +kernel,
    by decide +kernel, by decide +kernel⟩

end Session

end SpectralResponse
