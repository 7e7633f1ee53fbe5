import SpectralResponse.Proofs.Flux.Weights
import SpectralResponse.Proofs.Session.Corrections
import SpectralResponse.Proofs.Session.GroupedCounts

/-!
# Flat sources

When each observed bin has as many counts as a source with the same flux in all energy bins would give, a flux
correction should answer that flux. The weights it divides by come from where the matrices stand, the counts of the
source from the matrices as they were built. A working bin gets the flux back, but for one case: the weights are
those of the observed bins, and some of the bins grouped there have a negative weight. Their counts are left out then,
while their weights are not.

## What is proved

* `Aligned.fluxCorrect_eq` — what a correction answers, from the weights of the matrices as they were built.
* `flat_source_is_returned_iff` — after any operations that have succeeded, exactly when a working bin with a positive
  weight gets the flux of a flat source back.
* `negative_area_spoils_a_flat_source` — a shared matrix and an effective area that is negative in one bin.
-/

namespace SpectralResponse

variable {K : Type} [Field K] [LinearOrder K] [FloorRing K] [Roots K]

/-! ### Sums over groups -/

namespace Grouping.Proper

variable {g : Grouping}

omit [LinearOrder K] [FloorRing K] [Roots K] in
theorem sums_add (hg : g.Proper) {a b : List K} (ha : a.length = g.fineLength) (hb : b.length = g.fineLength) :
    g.sums (List.zipWith (· + ·) a b) = List.zipWith (· + ·) (g.sums a) (g.sums b) := by
  rw [eq_map_valueAt ha, eq_map_valueAt hb, List.zipWith_map, List.zipWith_self, hg.sums_map_range,
    hg.sums_map_range, hg.sums_map_range, List.zipWith_map, List.zipWith_self]
  exact List.map_congr_left fun group _ => List.sum_map_add

/-- It does not matter whether lists are summed over the groups before they are added up or after. -/
theorem sums_addAll (hg : g.Proper) {lists : List (List K)} {total : List K} (hlen : total.length = g.fineLength)
    (h : Session.addAll lists none = .ok (some total)) :
    Session.addAll (lists.map g.sums) none = .ok (some (g.sums total)) := by
  have hall := Session.length_of_addAll h
  obtain ⟨first, rest, rfl, -, rfl⟩ := Session.addAll_eq_ok.1 h
  obtain ⟨hfirst, hrest⟩ := List.forall_mem_cons.1 hall
  rw [hlen] at hfirst hrest
  refine Session.addAll_eq_ok.2 ⟨g.sums first, rest.map g.sums, rfl, fun list hlist => ?_, ?_⟩
  · obtain ⟨list, -, rfl⟩ := List.mem_map.1 hlist
    rw [sums, sums, List.length_map, List.length_map]
  · clear h hall hlen
    induction rest generalizing first with
    | nil => rfl
    | cons list rest ih =>
      obtain ⟨hlist, hrest⟩ := List.forall_mem_cons.1 hrest
      rw [List.map_cons, List.foldl_cons, List.foldl_cons, ← hg.sums_add hfirst hlist]
      exact ih _ (by simp [hfirst, hlist]) hrest

end Grouping.Proper

/-! ### Flat counts -/

namespace Spectrum

variable {s : Spectrum K} {weights : List K} {group : List Nat}

theorem netAt_of_flat {flux : K} (hground : s.background = none)
    (hflat : s.observed.counts = weights.map (flux * ·)) (i : Nat) : s.netAt i = flux * valueAt weights i := by
  have hnone : valueAt s.scaledBackgroundObserved i = 0 := by
    rw [scaledBackgroundObserved, hground, valueAt, List.getElem?_replicate]
    split <;> rfl
  rw [netAt, hnone, sub_zero, hflat, valueAt, List.getElem?_map, valueAt]
  cases weights[i]? with
  | none => exact (mul_zero flux).symm
  | some weight => rfl

variable [IsStrictOrderedRing K]

omit [FloorRing K] [Roots K] in
/-- The members with a positive weight have the weight of all members if no weight is negative. -/
theorem sum_responding_eq_sum_iff :
    ((responding weights group).map (valueAt weights)).sum = (group.map (valueAt weights)).sum ↔
      ∀ i ∈ group, 0 ≤ valueAt weights i := by
  rw [← sum_responding]
  constructor
  · intro hsum i hi
    by_contra hneg
    have hlt := not_le.1 hneg
    refine (List.sum_lt_sum (valueAt weights) (fun i => if 0 < valueAt weights i then valueAt weights i else 0)
      (fun j _ => ?_) ⟨i, hi, ?_⟩).ne hsum.symm
    · split
      · exact le_refl _
      · exact not_lt.1 ‹_›
    · rw [if_neg hlt.not_gt]
      exact hlt
  · intro hall
    refine congrArg List.sum (List.map_congr_left fun i hi => ?_)
    split
    · rfl
    · exact le_antisymm (hall i hi) (not_lt.1 ‹_›)

end Spectrum

/-- The counts of a part of the weight, divided by the weight. -/
theorem perWeight_part_eq_iff {flux part weight : K} (h : 0 < weight) :
    perWeight (flux * part) weight = flux ↔ flux = 0 ∨ part = weight := by
  rw [perWeight_of_pos _ h, div_eq_iff h.ne', mul_eq_mul_left_iff, or_comm]

namespace Session

variable {s : Session K} {id : SpectrumId} {slot : Slot (SpectrumRecord K)} {pair : ResponsePair}
  {kernel : Kernel K} {result : FluxSpectrum K}

/-! ### Weights of matrices as they were built -/

/-- The weights that a response pair has for the channels on which its matrix was built. -/
def nativeWeights (s : Session K) (kernel : Kernel K) (pair : ResponsePair) : Except (Fault K) (List K) := do
  let area ← (s.areas.get pair.area).mapError Fault.slot
  let m ← (s.matrices.get pair.matrix).mapError Fault.slot
  kernel.unitWeights area m.native

/-- The weights that all fit pairs of a record have for these channels together. -/
def totalNativeWeights (s : Session K) (r : SpectrumRecord K) : Except (Fault K) (Option (List K)) := do
  let lists ← r.fit.mapM (s.nativeWeights r.spectrum.kernel)
  addAll lists none

/-- A fit pair has its matrix on as many channels as there are working bins. -/
def StandsOnWorkingBins (s : Session K) (r : SpectrumRecord K) : Prop :=
  ∃ pair ∈ r.fit, ∃ mslot, s.matrices.slot? pair.matrix = some mslot ∧
    mslot.value.current.channelCount = r.spectrum.workingCount

/-- The matrices do so exactly if there are as many weights as working bins. -/
theorem standsOnWorkingBins_iff {r : SpectrumRecord K} {lists : List (List K)} {total : List K}
    (hlists : r.fit.mapM (s.pairWeights r.spectrum.kernel) = .ok lists)
    (htotal : addAll lists none = .ok (some total)) :
    s.StandsOnWorkingBins r ↔ total.length = r.spectrum.workingCount := by
  constructor
  · rintro ⟨pair, hpair, mslot, hm, hcount⟩
    obtain ⟨mslot', hm', hcount'⟩ := exists_channelCount hlists htotal hpair
    cases hm.symm.trans hm'
    exact hcount'.symm.trans hcount
  · intro hcount
    have hne : r.fit ≠ [] := by
      intro hnil
      rw [hnil] at hlists
      cases hlists
      cases htotal
    obtain ⟨pair, hpair⟩ := List.exists_mem_of_ne_nil _ hne
    obtain ⟨mslot, hm, htotal⟩ := exists_channelCount hlists htotal hpair
    exact ⟨pair, hpair, mslot, hm, htotal.trans hcount⟩

variable [IsStrictOrderedRing K]

/-- The weights that a fit pair of an aligned session has where its matrix stands are those where it was built, or
their sums over the groups. -/
theorem Aligned.pairWeights {weights : List K} (h : s.Aligned) (hs : s.spectra.slot? id = some slot)
    (hpair : pair ∈ slot.value.fit) (hweights : s.pairWeights kernel pair = .ok weights) :
    ∃ native, s.nativeWeights kernel pair = .ok native ∧ native.length = slot.value.spectrum.observedCount ∧
      (weights = native ∨ weights = slot.value.spectrum.grouping.sums native) := by
  obtain ⟨curve, mslot, hcurve, hm, hunit⟩ := pairWeights_eq_ok.1 hweights
  have hnames : s.Names id slot pair.matrix mslot :=
    ⟨hs, List.mem_map_of_mem (List.mem_append_right _ hpair), hm⟩
  have hstands : mslot.value.pristine = none ∨ mslot.value.MovedBy slot.value.spectrum.grouping :=
    (h.follows hnames).imp_right And.left
  obtain ⟨native, hnative, hcount, hsums⟩ :=
    (h.matrices pair.matrix mslot hm).exists_native_fold (h.spectra id slot hs).proper hstands hunit
  refine ⟨native, ?_, hcount.trans (h.fits id slot pair.matrix mslot hnames), hsums⟩
  rw [nativeWeights, Arena.get_eq_ok_iff.2 ⟨curve, hcurve, rfl⟩, Arena.get_eq_ok_iff.2 ⟨mslot, hm, rfl⟩]
  exact hnative

/-- Where the weights of each fit pair come from those where its matrix was built in one way, so do those of all. -/
theorem Aligned.exists_natives {lists : List (List K)} {f : List K → List K} (h : s.Aligned)
    (hs : s.spectra.slot? id = some slot)
    (hlists : slot.value.fit.mapM (s.pairWeights slot.value.spectrum.kernel) = .ok lists)
    (hmade : ∀ list ∈ lists, ∀ native : List K, native.length = slot.value.spectrum.observedCount →
      list = native ∨ list = slot.value.spectrum.grouping.sums native → list = f native) :
    ∃ natives, slot.value.fit.mapM (s.nativeWeights slot.value.spectrum.kernel) = .ok natives ∧
      (∀ native ∈ natives, native.length = slot.value.spectrum.observedCount) ∧ lists = natives.map f := by
  have hpairs : List.Forall₂ (fun pair list => list ∈ lists ∧
      s.pairWeights slot.value.spectrum.kernel pair = .ok list) slot.value.fit lists :=
    ((List.forall₂_and_left _ _).2 ⟨fun _ hlist => hlist, (Except.mapM_eq_ok.1 hlists).flip⟩).flip
  obtain ⟨natives, hnatives, hlen, hmap⟩ := Except.exists_map_of_forall₂ hpairs fun pair hpair list hlist => by
    obtain ⟨native, hnative, hlen, hfrom⟩ := h.pairWeights hs hpair hlist.2
    exact ⟨native, hnative, hlen, hmade list hlist.1 native hlen hfrom⟩
  exact ⟨natives, Except.mapM_eq_ok.2 hnatives, hlen, hmap⟩

/-- The weights of all fit pairs are those where the matrices were built, or their sums over the groups. -/
theorem Aligned.totalWeights {lists : List (List K)} {total : List K} (h : s.Aligned)
    (hs : s.spectra.slot? id = some slot)
    (hlists : slot.value.fit.mapM (s.pairWeights slot.value.spectrum.kernel) = .ok lists)
    (htotal : addAll lists none = .ok (some total)) :
    ∃ native, s.totalNativeWeights slot.value = .ok (some native) ∧
      native.length = slot.value.spectrum.observedCount ∧
        (total = native ∨ total = slot.value.spectrum.grouping.sums native) := by
  have hsound := h.spectra id slot hs
  have hall := length_of_addAll htotal
  by_cases hobserved : total.length = slot.value.spectrum.observedCount
  · -- no list was summed, unless each group is one bin
    obtain ⟨natives, hnatives, -, rfl⟩ := h.exists_natives (f := fun native => native) hs hlists
      fun list hlist native hlen hfrom => by
        rcases hfrom with rfl | rfl
        · rfl
        · have hsingle : slot.value.spectrum.grouping.length = slot.value.spectrum.grouping.fineLength := by
            rw [hsound.fineLength, ← hobserved, ← hall _ hlist, Grouping.sums, List.length_map, Grouping.length]
          exact hsound.proper.sums_eq_self hsingle (hlen.trans hsound.fineLength.symm)
    rw [List.map_id'] at htotal
    exact ⟨total, Except.bind_eq_ok.2 ⟨natives, hnatives, htotal⟩, hobserved, .inl rfl⟩
  · -- all lists were summed
    obtain ⟨natives, hnatives, hlen, rfl⟩ := h.exists_natives (f := slot.value.spectrum.grouping.sums) hs hlists
      fun list hlist native hlen hfrom =>
        hfrom.resolve_left fun hsame => hobserved ((hall list hlist).symm.trans (hsame ▸ hlen))
    have hne : natives ≠ [] := by
      rintro rfl
      obtain ⟨_, _, hnil, -⟩ := addAll_eq_ok.1 htotal
      cases hnil
    obtain ⟨native, hnative, hcount⟩ := exists_addAll hne hlen
    have hsums := hsound.proper.sums_addAll (hcount.trans hsound.fineLength.symm) hnative
    refine ⟨native, Except.bind_eq_ok.2 ⟨natives, hnatives, hnative⟩, hcount, .inr ?_⟩
    exact Option.some.inj (Except.ok.inj (htotal.symm.trans hsums))

/-- What a correction answers, from the weights of the matrices as they were built: where these are divided out bin by
bin, a group gets the counts of its members with a positive weight; where they are summed first, it gets all. -/
theorem Aligned.fluxCorrect_eq (h : s.Aligned) (hs : s.spectra.slot? id = some slot)
    (htidy : slot.value.spectrum.Tidy) (hcorrect : answerTo (fluxCorrect id) s = .ok result) :
    ∃ weights variance, s.totalNativeWeights slot.value = .ok (some weights) ∧
      weights.length = slot.value.spectrum.observedCount ∧
        ((result = slot.value.spectrum.fluxOver weights
              (fun group => ((Spectrum.responding weights group).map slot.value.spectrum.netAt).sum) variance ∧
            (s.StandsOnWorkingBins slot.value →
              slot.value.spectrum.grouping.length = slot.value.spectrum.grouping.fineLength)) ∨
          (result = slot.value.spectrum.fluxOver weights
              (fun group => (group.map slot.value.spectrum.netAt).sum) variance ∧
            s.StandsOnWorkingBins slot.value)) := by
  have hsound := h.spectra id slot hs
  obtain ⟨slot', lists, total, hs', hlists, htotal, hanswer⟩ := answerTo_fluxCorrect.1 hcorrect
  cases hs.symm.trans hs'
  obtain ⟨weights, hweights, hlen, rfl | rfl⟩ := h.totalWeights hs hlists htotal
  · obtain ⟨variance, hobserved⟩ := FluxSpectrum.exists_ofObservedWeights htidy hsound.wide.toOrdered hlen
    rw [FluxSpectrum.ofSpectrum, if_pos hlen, hobserved] at hanswer
    refine ⟨total, variance, hweights, hlen, .inl ⟨(Except.ok.inj hanswer).symm, fun hstands => ?_⟩⟩
    rw [← hsound.workingCount, ← (standsOnWorkingBins_iff hlists htotal).1 hstands, hlen, hsound.fineLength]
  · have hstands := (standsOnWorkingBins_iff hlists htotal).2
      (by rw [Grouping.sums, List.length_map, hsound.workingCount, Grouping.length])
    rw [htidy.sums_eq hlen, FluxSpectrum.ofSpectrum_sums htidy hlen] at hanswer
    exact ⟨weights, _, hweights, hlen, .inr ⟨(Except.ok.inj hanswer).symm, hstands⟩⟩

/-! ### The flux of a flat source -/

/-- After admissible operations that have all succeeded, in a session that leaves out no weights when channels are
moved: where the counts of a spectrum without background are those of a flat source, a working bin with a positive
weight gets the flux of that source back, exactly if the flux is zero, or the matrices stand on the working bins, or no
observed bin grouped there has a negative weight. -/
theorem flat_source_is_returned_iff {config : Config K} {start : Session K}
    (hthreshold : config.matrixRebinThreshold = 0) (hstart : ofConfig config = .ok start)
    {operations : List (Operation K)} (hadmissible : ∀ operation ∈ operations, operation.Admissible)
    (htakes : ∀ operation ∈ operations, operation.TakesTidy)
    (hok : ∀ e ∈ (start.replay operations).1, e.Succeeded) (hreplay : (start.replay operations).2 = s)
    (hs : s.spectra.slot? id = some slot) (hground : slot.value.spectrum.background = none)
    (hcorrect : (run (fluxCorrect id) s).1.1 = .ok result) :
    ∃ weights, s.totalNativeWeights slot.value = .ok (some weights) ∧
      weights.length = slot.value.spectrum.observedCount ∧
        ∀ flux, slot.value.spectrum.observed.counts = weights.map (flux * ·) →
          ∀ (k : Nat) (group : List Nat), slot.value.spectrum.grouping.groups[k]? = some group →
            ∃ weight value, result.weights[k]? = some weight ∧ result.flux[k]? = some value ∧
              weight = (group.map (valueAt weights)).sum ∧
                (0 < weight → (value = flux ↔
                  flux = 0 ∨ s.StandsOnWorkingBins slot.value ∨ ∀ i ∈ group, 0 ≤ valueAt weights i)) := by
  have haligned : s.Aligned := hreplay ▸ aligned_replay (aligned_start hstart hthreshold) hadmissible hok
  have htidy : slot.value.spectrum.Tidy := (hreplay ▸ fitting_replay hstart htakes hok : s.Fitting).spectra id slot hs
  obtain ⟨weights, variance, hweights, hlen, heither⟩ := haligned.fluxCorrect_eq hs htidy hcorrect
  refine ⟨weights, hweights, hlen, fun flux hflat k group hgroup => ?_⟩
  have hat (f : List Nat → K) : (slot.value.spectrum.grouping.groups.map f)[k]? = some (f group) := by
    rw [List.getElem?_map, hgroup, Option.map_some]
  have hnet (members : List Nat) : (members.map slot.value.spectrum.netAt).sum =
      flux * (members.map (valueAt weights)).sum := by
    rw [← List.sum_map_mul_left]
    exact congrArg List.sum (List.map_congr_left fun i _ => Spectrum.netAt_of_flat hground hflat i)
  rcases heither with ⟨rfl, hsingle⟩ | ⟨rfl, hstands⟩
  · refine ⟨_, _, hat _, hat _, rfl, fun hpos => ?_⟩
    dsimp only
    rw [hnet, perWeight_part_eq_iff hpos, Spectrum.sum_responding_eq_sum_iff]
    refine or_congr_right ⟨.inr, fun h => h.elim (fun hstands => ?_) fun hall => hall⟩
    -- each group is one bin, and the weight of that bin is positive
    rw [htidy.whole.proper.groups_eq_of_length (hsingle hstands)] at hgroup
    obtain ⟨i, -, rfl⟩ := List.mem_map.1 (List.mem_of_getElem? hgroup)
    rw [List.map_singleton, List.sum_singleton] at hpos
    exact List.forall_mem_singleton.2 hpos.le
  · refine ⟨_, _, hat _, hat _, rfl, fun hpos => ?_⟩
    dsimp only
    rw [hnet, perWeight_part_eq_iff hpos]
    exact iff_of_true (.inr rfl) (.inr (.inl hstands))

/-! ### An area that is negative in one bin -/

namespace Dipping

/-- A spectrum with two bins. -/
def spectrum (counts : List ℚ) : Spectrum ℚ := Sample.spectrum (Sample.grid 2) counts [1, 1]

/-- An effective area on the two bins. -/
def curve (area : List ℚ) : EffectiveArea ℚ := ⟨Sample.grid 2, area, [0, 0], .scalar 1, 1, false, {}⟩

/-- Two spectra have the counts of a source with a flux of one. They share the matrix, and the first one is grouped. -/
def operations (area : List ℚ) : List (Operation ℚ) :=
  [.addSpectrum (spectrum area), .addSpectrum (spectrum area), .takeMatrix (Sample.matrix (Sample.grid 2)),
    .addArea (curve area), .assign ⟨0⟩ ⟨⟨2⟩, ⟨2⟩⟩, .assign ⟨1⟩ ⟨⟨2⟩, ⟨2⟩⟩, .rebinSpectrum ⟨0⟩ [1, 1]]

/-- The session after that. -/
def session (area : List ℚ) : Session ℚ := (Sample.start.replay (operations area)).2

/-- The weights and the flux of the first spectrum. -/
def corrected (area : List ℚ) : Option (List ℚ × List ℚ) :=
  (run (fluxCorrect ⟨0⟩) (session area)).1.1.toOption.map fun f => (f.weights, f.flux)

/-- Whether the first spectrum has a background, its counts, and its groups. -/
def observed (area : List ℚ) : Option (Bool × List ℚ × List (List Nat)) :=
  ((session area).spectra.slot? ⟨0⟩).map fun slot => (slot.value.spectrum.background.isSome,
    slot.value.spectrum.observed.counts, slot.value.spectrum.grouping.groups)

/-- The weights of its matrix as it was built. -/
def native (area : List ℚ) : Option (Option (Option (List ℚ))) :=
  ((session area).spectra.slot? ⟨0⟩).map fun slot => ((session area).totalNativeWeights slot.value).toOption

theorem admissible_operations {area : List ℚ} (htidy : (spectrum area).Tidy) :
    ∀ operation ∈ operations area, operation.Admissible ∧ operation.TakesTidy := by
  have hwide : (Sample.grid 2 : Grid ℚ).Wide := ⟨by decide +kernel, by decide +kernel, by decide +kernel⟩
  have hspectrum : (Operation.addSpectrum (spectrum area)).Admissible := ⟨Grouping.proper_identity 2, hwide⟩
  have hmatrix : (Operation.takeMatrix (Sample.matrix (Sample.grid 2 : Grid ℚ))).Admissible := by
    refine ⟨rfl, ?_, hwide⟩
    unfold Redistribution.Clean
    decide +kernel
  intro operation hoperation
  simp only [operations, List.mem_cons, List.not_mem_nil, or_false] at hoperation
  rcases hoperation with rfl | rfl | rfl | rfl | rfl | rfl | rfl
  · exact ⟨hspectrum, htidy⟩
  · exact ⟨hspectrum, htidy⟩
  · exact ⟨hmatrix, trivial⟩
  all_goals exact ⟨trivial, trivial⟩

end Dipping

/-- Where both areas are positive, the three counts of both bins over their weight are a flux of one. -/
theorem positive_area_returns_a_flat_source :
    Dipping.observed [2, 1] = some (false, [2, 1].map (1 * ·), [[0, 1]]) ∧
      Dipping.native [2, 1] = some (some (some [2, 1])) ∧
      ∃ result, (run (fluxCorrect ⟨0⟩) (Dipping.session [2, 1])).1.1 = .ok result ∧ result.weights[0]? = some 3 ∧
        result.flux[0]? = some 1 := by
  have hobserved : Dipping.observed [2, 1] = some (false, [2, 1].map (1 * ·), [[0, 1]]) := by decide +kernel
  have hnative : Dipping.native [2, 1] = some (some (some [2, 1])) := by decide +kernel
  refine ⟨hobserved, hnative, ?_⟩
  have hok : ∀ e ∈ (Sample.start.replay (Dipping.operations [2, 1])).1, e.Succeeded := by decide +kernel
  have htidy : (Dipping.spectrum [2, 1]).Tidy :=
    Spectrum.tidy_of_ungrouped rfl rfl (by decide +kernel)
  have hcorrected : (Dipping.corrected [2, 1]).isSome = true := by decide +kernel
  obtain ⟨slot, hs, hslot⟩ := Option.map_eq_some_iff.1 hobserved
  simp only [Prod.mk.injEq] at hslot
  obtain ⟨hground, hcounts, hgroups⟩ := hslot
  obtain ⟨slot', hs', hbuilt⟩ := Option.map_eq_some_iff.1 hnative
  cases hs.symm.trans hs'
  obtain ⟨_, hsome⟩ := Option.isSome_iff_exists.1 hcorrected
  obtain ⟨result, hresult, -⟩ := Option.map_eq_some_iff.1 hsome
  have hcorrect := Except.toOption_eq_some.1 hresult
  obtain ⟨weights, hweights, -, hflat⟩ := flat_source_is_returned_iff rfl Sample.ofConfig_start
    (fun o ho => (Dipping.admissible_operations htidy o ho).1)
    (fun o ho => (Dipping.admissible_operations htidy o ho).2)
    hok rfl hs (Option.isNone_iff_eq_none.1 (Option.isSome_eq_false_iff.1 hground)) hcorrect
  cases Option.some.inj (Except.ok.inj (hweights.symm.trans (Except.toOption_eq_some.1 hbuilt)))
  obtain ⟨weight, flux, hweight, hflux, hsum, hiff⟩ := hflat 1 hcounts 0 [0, 1] (by rw [hgroups]; rfl)
  have hthree : weight = 3 := hsum.trans (by decide +kernel)
  refine ⟨result, hcorrect, hthree ▸ hweight, ?_⟩
  have hone : flux = 1 := (hiff (by rw [hthree]; decide +kernel)).2 (.inr (.inr (by decide +kernel)))
  exact hone ▸ hflux

/-- Where the area is negative in the second bin, the weight of both bins is one, and so is the flux of the source. But
the negative count is left out, and the flux comes out as two. -/
theorem negative_area_spoils_a_flat_source :
    Run (Sample.start.replay (Dipping.operations [2, -1])).1 (Dipping.session [2, -1]) ∧
      (∀ e ∈ (Sample.start.replay (Dipping.operations [2, -1])).1, e.Succeeded ∧ e.operation.Admissible) ∧
      Config.default.matrixRebinThreshold = (0 : ℚ) ∧
      Dipping.observed [2, -1] = some (false, [2, -1].map (1 * ·), [[0, 1]]) ∧
      Dipping.native [2, -1] = some (some (some [2, -1])) ∧
      Dipping.corrected [2, -1] = some ([1], [2]) := by
  have hrun := (Run.start Sample.ofConfig_start).replay (Dipping.operations [2, -1])
  have hok : ∀ e ∈ (Sample.start.replay (Dipping.operations [2, -1])).1, e.Succeeded := by decide +kernel
  have htidy : (Dipping.spectrum [2, -1]).Tidy :=
    Spectrum.tidy_of_ungrouped rfl rfl (by decide +kernel)
  refine ⟨hrun, fun e he => ⟨hok e he, ?_⟩, by decide +kernel, by decide +kernel, by decide +kernel, by decide +kernel⟩
  exact (Dipping.admissible_operations htidy _ (mem_of_mem_replay he)).1

end Session

end SpectralResponse
