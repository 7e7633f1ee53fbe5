import SpectralResponse.Proofs.Scalar.Rational
import SpectralResponse.Proofs.Session.Fitting
import SpectralResponse.Proofs.Session.Predictions

/-!
# Flux corrections

A flux correction adds up the weights of the fit pairs channel by channel, where each matrix stands, and only the
total is divided out. A prediction takes the counts of each pair to the working bins before it adds them up. So
where the counts of a flux of one can be predicted, the flux can be corrected if the matrices stand on the same number
of channels, and only then.

## What is proved

* `answerTo_fluxCorrect` — when a flux correction succeeds, and what it answers.
* `exists_ofSpectrum` — a tidy spectrum is corrected by any weights for its observed or its working bins.
* `exists_pairWeights` — where a flux of one can be predicted, each fit pair has weights for one or the other.
* `flux_is_corrected_iff_channels_agree` — when the flux can be corrected then.
* `unequal_channels_are_not_corrected` — a spectrum with two matrices of which one is shared.
-/

namespace SpectralResponse

variable {α : Type} [Scalar α]

/-! ### Weights -/

/-- The weights of a kernel are the counts of a unit source, whether it defines its own or not. -/
theorem Kernel.correctionWeights_eq (area : EffectiveArea α) (m : Redistribution α) (kernel : Kernel α) :
    kernel.correctionWeights area m = kernel.unitWeights area m := by
  cases kernel with
  | standard => rfl
  | auxiliary transmission =>
    rw [correctionWeights, ownWeights]
    cases (auxiliary transmission).unitWeights area m <;> rfl

theorem Kernel.length_of_unitWeights {area : EffectiveArea α} {m : Redistribution α} {kernel : Kernel α}
    {weights : List α} (h : kernel.unitWeights area m = .ok weights) : weights.length = m.channelCount := by
  obtain ⟨source, -, h⟩ := Except.bind_eq_ok.1 h
  exact Redistribution.length_of_fold h

theorem exists_rebinWeighted {target source : Grid α} {w : Weighted α} (hvalues : w.values.length = source.length)
    (herrors : w.errors.length = source.length) (hweights : w.weights.length = source.length) :
    ∃ moved, rebinWeighted target source w = .ok moved := by
  have hmoved (values : List α) (h : values.length = source.length) : ∃ moved, rebin target source values = .ok moved :=
    ⟨_, if_neg (not_not.2 h)⟩
  obtain ⟨numerators, hnumerators⟩ := hmoved (List.zipWith (· * ·) w.values w.weights) (by simp [hvalues, hweights])
  obtain ⟨variances, hvariances⟩ := hmoved
    (List.zipWith (fun error weight => (error * weight) * (error * weight)) w.errors w.weights)
    (by simp [herrors, hweights])
  obtain ⟨weights, hmovedWeights⟩ := hmoved w.weights hweights
  rw [rebinWeighted, if_neg (not_not.2 hvalues), if_neg (not_not.2 herrors), if_neg (not_not.2 hweights), hnumerators,
    hvariances, hmovedWeights]
  exact ⟨_, rfl⟩

namespace FluxSpectrum

variable {s : Spectrum α} {weights : List α}

theorem exists_overObserved (hs : s.Tidy) (hlen : weights.length = s.observedCount) :
    ∃ f, (ofObservedWeights s weights : Except (Fault α) _) = .ok f := by
  have hcount : s.observed.grid.length = s.observedCount := rfl
  rw [ofObservedWeights]
  by_cases hidentity : s.grouping.isIdentity = true
  · rw [if_pos hidentity]
    exact ⟨_, rfl⟩
  · have hmoved : ∃ moved, rebinWeighted s.working.grid s.observed.grid
        ⟨quotients s.observed.counts s.scaledBackgroundObserved (usableWeights s.grouping weights),
          quotientErrors s.observed.counts s.scaledBackgroundObserved (usableWeights s.grouping weights),
          usableWeights s.grouping weights⟩ = .ok moved := by
      refine exists_rebinWeighted ?_ ?_ ?_
      · simp [quotients, usableWeights, hs.length_counts, hs.length_scaledBackgroundObserved, hlen, hcount]
      · simp [quotientErrors, usableWeights, hs.length_counts, hs.length_scaledBackgroundObserved, hlen, hcount]
      · simp [usableWeights, hlen, hcount]
    obtain ⟨moved, hmoved⟩ := hmoved
    rw [if_neg hidentity, hmoved]
    exact ⟨_, rfl⟩

theorem exists_overWorking (hs : s.Tidy) : ∃ f, (ofWorkingWeights s weights : Except (Fault α) _) = .ok f := by
  have hground : ∃ ground, s.scaledBackground = .ok ground :=
    ⟨_, Except.bind_eq_ok.2 ⟨(), Except.requireLength_eq_ok.2
      (hs.fineLength.trans hs.length_scaledBackgroundObserved.symm), rfl⟩⟩
  obtain ⟨ground, hground⟩ := hground
  rw [ofWorkingWeights, hground]
  exact ⟨_, rfl⟩

/-- A tidy spectrum is corrected by any weights for its observed or its working bins. -/
theorem exists_ofSpectrum (hs : s.Tidy)
    (h : weights.length = s.workingCount ∨ weights.length = s.observedCount) : ∃ f, ofSpectrum s weights = .ok f := by
  rw [ofSpectrum]
  by_cases hobserved : weights.length = s.observedCount
  · rw [if_pos hobserved]
    exact exists_overObserved hs hobserved
  · rw [if_neg hobserved, if_pos (h.resolve_right hobserved)]
    exact exists_overWorking hs

end FluxSpectrum

/-- The model with the same flux in each bin. -/
def Model.even (flux : α) : Model α := fun grid => List.replicate grid.length flux

namespace Session

variable {s t : Session α} {id : SpectrumId} {slot : Slot (SpectrumRecord α)} {pair : ResponsePair}
  {kernel : Kernel α}

/-! ### Adding up weights -/

/-- Weights are added up, list by list. -/
def addAll (lists : List (List α)) (init : Option (List α)) : Except (Fault α) (Option (List α)) :=
  lists.foldlM (fun total? list => do return some (← addWeights total? list)) init

theorem addAll_some_eq_ok {lists : List (List α)} {init : List α} {total? : Option (List α)} :
    addAll lists (some init) = .ok total? ↔
      (∀ list ∈ lists, list.length = init.length) ∧ total? = some (lists.foldl (List.zipWith (· + ·)) init) := by
  induction lists generalizing init with
  | nil => simp [addAll, pure, Except.pure, eq_comm]
  | cons list lists ih =>
    rw [addAll, List.foldlM_cons]
    by_cases hlen : init.length = list.length
    · have hadd : addWeights (some init) list = .ok (List.zipWith (· + ·) init list) := if_pos hlen
      have hsum : (List.zipWith (· + ·) init list).length = init.length := by simp [hlen]
      rw [hadd]
      refine ih.trans ?_
      rw [hsum, List.forall_mem_cons, and_iff_right hlen.symm, List.foldl_cons]
    · have hadd : ∃ fault, addWeights (some init) list = .error fault := ⟨_, if_neg hlen⟩
      obtain ⟨fault, hadd⟩ := hadd
      rw [hadd]
      refine iff_of_false (fun h => by cases h) fun h => hlen ?_
      exact (h.1 list List.mem_cons_self).symm

/-- Weights can be added up if there are any and all lists have the same length. -/
theorem addAll_eq_ok {lists : List (List α)} {total : List α} : addAll lists none = .ok (some total) ↔
    ∃ first rest, lists = first :: rest ∧ (∀ list ∈ rest, list.length = first.length) ∧
      total = rest.foldl (List.zipWith (· + ·)) first := by
  cases lists with
  | nil =>
    refine iff_of_false (fun h => by cases h) ?_
    rintro ⟨_, _, hlists, -⟩
    cases hlists
  | cons first rest =>
    have hrest : addAll rest (some first) = .ok (some total) ↔ _ := addAll_some_eq_ok
    refine hrest.trans ?_
    constructor
    · rintro ⟨hlen, htotal⟩
      exact ⟨first, rest, rfl, hlen, Option.some.inj htotal⟩
    · rintro ⟨_, _, hlists, hlen, rfl⟩
      cases hlists
      exact ⟨hlen, rfl⟩

/-- The total has as many weights as each of the lists. -/
theorem length_of_addAll {lists : List (List α)} {total : List α} (h : addAll lists none = .ok (some total)) :
    ∀ list ∈ lists, list.length = total.length := by
  obtain ⟨first, rest, rfl, hrest, rfl⟩ := addAll_eq_ok.1 h
  rw [length_foldl_add hrest rfl]
  exact List.forall_mem_cons.2 ⟨rfl, hrest⟩

/-- Lists of one length can be added up, if there are any. -/
theorem exists_addAll {lists : List (List α)} {count : Nat} (hne : lists ≠ [])
    (hlen : ∀ list ∈ lists, list.length = count) : ∃ total, addAll lists none = .ok (some total) ∧ total.length = count := by
  obtain ⟨first, rest, rfl⟩ := List.exists_cons_of_ne_nil hne
  obtain ⟨hfirst, hrest⟩ := List.forall_mem_cons.1 hlen
  have htotal := addAll_eq_ok.2 ⟨first, rest, rfl, fun list hlist => (hrest list hlist).trans hfirst.symm, rfl⟩
  exact ⟨_, htotal, (length_of_addAll htotal first List.mem_cons_self).symm.trans hfirst⟩

/-! ### What a correction answers -/

/-- The weights that a response pair has for the channels on which its matrix stands. -/
def pairWeights (s : Session α) (kernel : Kernel α) (pair : ResponsePair) : Except (Fault α) (List α) := do
  let area ← (s.areas.get pair.area).mapError Fault.slot
  let m ← (s.matrices.get pair.matrix).mapError Fault.slot
  kernel.unitWeights area m.current

theorem pairWeights_eq_ok {weights : List α} : s.pairWeights kernel pair = .ok weights ↔
    ∃ curve mslot, s.areas.slot? pair.area = some curve ∧ s.matrices.slot? pair.matrix = some mslot ∧
      kernel.unitWeights curve.value mslot.value.current = .ok weights := by
  simp only [pairWeights, Except.bind_eq_ok, Except.mapError_eq_ok, Arena.get_eq_ok_iff]
  constructor
  · rintro ⟨_, ⟨curve, hcurve, rfl⟩, _, ⟨mslot, hm, rfl⟩, hweights⟩
    exact ⟨curve, mslot, hcurve, hm, hweights⟩
  · rintro ⟨curve, mslot, hcurve, hm, hweights⟩
    exact ⟨_, ⟨curve, hcurve, rfl⟩, _, ⟨mslot, hm, rfl⟩, hweights⟩

/-- Where the weights of some pairs can be added up, their matrices all stand on as many channels. -/
theorem exists_channelCount {fit : List ResponsePair} {lists : List (List α)} {total : List α}
    (hlists : fit.mapM (s.pairWeights kernel) = .ok lists) (htotal : addAll lists none = .ok (some total))
    (hpair : pair ∈ fit) :
    ∃ mslot, s.matrices.slot? pair.matrix = some mslot ∧ mslot.value.current.channelCount = total.length := by
  obtain ⟨weights, hweights, hmem⟩ := Except.exists_of_mem_forall₂ (Except.mapM_eq_ok.1 hlists).flip hpair
  obtain ⟨curve, mslot, -, hm, hunit⟩ := pairWeights_eq_ok.1 hmem
  refine ⟨mslot, hm, ?_⟩
  rw [← Kernel.length_of_unitWeights hunit, length_of_addAll htotal weights hweights]

/-- Where the matrices of some pairs with weights all stand on as many channels, the weights can be added up. -/
theorem exists_total {fit : List ResponsePair} {count : Nat} (hne : fit ≠ [])
    (hweights : ∀ pair ∈ fit, ∃ weights, s.pairWeights kernel pair = .ok weights)
    (hcount : ∀ pair ∈ fit, ∃ mslot, s.matrices.slot? pair.matrix = some mslot ∧
      mslot.value.current.channelCount = count) :
    ∃ lists total, fit.mapM (s.pairWeights kernel) = .ok lists ∧ addAll lists none = .ok (some total) := by
  obtain ⟨lists, hlists⟩ := Except.exists_forall₂ hweights
  have hlen : ∀ list ∈ lists, list.length = count := by
    intro list hlist
    obtain ⟨pair, hpair, hweight⟩ := Except.exists_of_mem_forall₂ hlists hlist
    obtain ⟨curve, mslot, -, hm, hunit⟩ := pairWeights_eq_ok.1 hweight
    obtain ⟨mslot', hm', hchannels⟩ := hcount pair hpair
    cases hm.symm.trans hm'
    exact (Kernel.length_of_unitWeights hunit).trans hchannels
  obtain ⟨total, htotal, -⟩ := exists_addAll (fun hnil => hne (List.forall₂_nil_right_iff.1 (hnil ▸ hlists))) hlen
  exact ⟨lists, total, Except.mapM_eq_ok.2 hlists, htotal⟩

/-- Adds the weights of a pair to those of the pairs before. -/
def addPair (kernel : Kernel α) (total? : Option (List α)) (pair : ResponsePair) :
    SessionM α (Option (List α)) := do
  let area ← area pair.area
  let m := (← matrix pair.matrix).current
  let weights ← kernel.correctionWeights area m
  return some (← addWeights total? weights)

theorem reads_addPair (kernel : Kernel α) (total? : Option (List α)) (pair : ResponsePair) :
    Reads (addPair kernel total? pair) :=
  .bind (.area _) fun _ => .bind (.matrix _) fun _ => .bind (.lift _) fun _ => .bind (.lift _) fun _ => .pure _

theorem answerTo_addPair (total? : Option (List α)) : answerTo (addPair kernel total? pair) s = (do
    let weights ← s.pairWeights kernel pair
    return some (← addWeights total? weights)) := by
  rw [addPair, (Reads.area _).answerTo_bind, pairWeights, bind_assoc]
  refine congrArg _ (funext fun area => ?_)
  rw [(Reads.matrix _).answerTo_bind, bind_assoc]
  refine congrArg _ (funext fun m => ?_)
  rw [(Reads.lift _).answerTo_bind, Kernel.correctionWeights_eq]
  refine congrArg _ (funext fun weights => ?_)
  rw [(Reads.lift _).answerTo_bind]
  rfl

/-- The weights of some pairs are looked up and added one after the other. -/
theorem answerTo_addPairs {fit : List ResponsePair} {init total? : Option (List α)} :
    answerTo (fit.foldlM (addPair kernel) init) s = .ok total? ↔
      ∃ lists, fit.mapM (s.pairWeights kernel) = .ok lists ∧ addAll lists init = .ok total? := by
  rw [Reads.answerTo_foldlM (reads_addPair kernel)]
  simp only [answerTo_addPair]
  induction fit generalizing init with
  | nil => exact ⟨fun h => ⟨[], rfl, h⟩, fun ⟨_, hlists, h⟩ => by cases hlists; exact h⟩
  | cons pair fit ih =>
    simp only [List.foldlM_cons, List.mapM_cons, Except.bind_eq_ok, ih]
    constructor
    · rintro ⟨next, ⟨weights, hweights, total, htotal, hnext⟩, lists, hlists, h⟩
      cases Except.ok.inj hnext
      refine ⟨weights :: lists, ⟨weights, hweights, lists, hlists, rfl⟩, ?_⟩
      rw [addAll, List.foldlM_cons, htotal]
      exact h
    · rintro ⟨_, ⟨weights, hweights, lists, hlists, hcons⟩, h⟩
      cases Except.ok.inj hcons
      rw [addAll, List.foldlM_cons] at h
      obtain ⟨next, hnext, h⟩ := Except.bind_eq_ok.1 h
      obtain ⟨total, htotal, hsome⟩ := Except.bind_eq_ok.1 hnext
      exact ⟨next, ⟨weights, hweights, total, htotal, hsome⟩, lists, hlists, h⟩

/-- A flux correction divides out the sum of the weights of all fit pairs. -/
theorem answerTo_fluxCorrect {f : FluxSpectrum α} : answerTo (fluxCorrect id) s = .ok f ↔
    ∃ slot lists total, s.spectra.slot? id = some slot ∧
      slot.value.fit.mapM (s.pairWeights slot.value.spectrum.kernel) = .ok lists ∧
      addAll lists none = .ok (some total) ∧ FluxSpectrum.ofSpectrum slot.value.spectrum total = .ok f := by
  have hpairs (r : SpectrumRecord α) : Reads (r.fit.foldlM (addPair r.spectrum.kernel) none) :=
    .foldlM (reads_addPair r.spectrum.kernel) _ _
  rw [fluxCorrect, (Reads.record id).answerTo_bind, Except.bind_eq_ok]
  constructor
  · rintro ⟨r, hr, h⟩
    obtain ⟨slot, hs, rfl⟩ := answerTo_record.1 hr
    obtain ⟨total?, htotal?, h⟩ := Except.bind_eq_ok.1 (((hpairs slot.value).answerTo_bind _ s).symm.trans h)
    obtain ⟨lists, hlists, hsum⟩ := answerTo_addPairs.1 htotal?
    cases total? with
    | none => cases h
    | some total => exact ⟨slot, lists, total, hs, hlists, hsum, h⟩
  · rintro ⟨slot, lists, total, hs, hlists, hsum, h⟩
    refine ⟨slot.value, answerTo_record.2 ⟨slot, hs, rfl⟩, ?_⟩
    refine ((hpairs slot.value).answerTo_bind _ s).trans (Except.bind_eq_ok.2 ⟨some total, ?_, h⟩)
    exact answerTo_addPairs.2 ⟨lists, hlists, hsum⟩

/-! ### Where a flux of one can be predicted -/

/-- A session in which predictions are worked out on separate grids: this one, if that is its strategy, or this one
under that strategy, with no shared grid kept. -/
inductive Separated (s : Session α) : Session α → Prop where
  /-- Grids are not shared anyway. -/
  | same (h : s.strategy = .separate) : Separated s s
  /-- Grids are not shared any more. -/
  | exchanged : Separated s { s with strategy := .separate, cache := .empty }

theorem Separated.cacheSound (h : s.Separated t) (hs : s.CacheSound) :
    t.CacheSound ∧ t.strategy = .separate ∧ ∃ cache, t = { s with strategy := .separate, cache } := by
  cases h with
  | same h => exact ⟨hs, h, s.cache, by rw [← h]⟩
  | exchanged => exact ⟨.of_empty rfl, rfl, .empty, rfl⟩

/-- Where the counts of a flux of one can be predicted, each fit pair has weights for the working or for the observed
bins. -/
theorem exists_pairWeights (hsound : s.CacheSound) (ht : s.Separated t) (hs : s.spectra.slot? id = some slot)
    {prediction : Prediction α} (hpredict : answerTo (predictedCounts [id] (Model.even 1)) t = .ok prediction) :
    ∀ pair ∈ slot.value.fit, ∃ weights, s.pairWeights slot.value.spectrum.kernel pair = .ok weights ∧
      (weights.length = slot.value.spectrum.workingCount ∨ weights.length = slot.value.spectrum.observedCount) := by
  obtain ⟨htsound, hseparate, cache, rfl⟩ := ht.cacheSound hsound
  obtain ⟨members, grids, shared, values, hmembers, hgrids, hshared, hvalues, hcounts⟩ :=
    (answerTo_predictedCounts htsound).1 hpredict
  rw [hseparate] at hshared
  cases Except.ok.inj hshared
  obtain rfl := eq_map_of_fluxes hvalues
  -- the only members are the fit pairs of the spectrum
  obtain ⟨lists, rfl, hlists⟩ := answerTo_members.1 hmembers
  obtain ⟨list, _, ⟨slot', hs', rfl⟩, hnil, rfl⟩ := List.forall₂_cons_left_iff.1 hlists
  cases List.forall₂_nil_left_iff.1 hnil
  cases hs.symm.trans hs'
  rw [List.flatten_singleton] at hgrids hcounts
  obtain ⟨counts, _, hcounts, -, -⟩ := List.forall₂_cons_left_iff.1 hcounts
  rw [(reads_spectrumCounts _ id).elsewhere] at hcounts
  rcases (Yields.of_run (Prod.ext hcounts rfl)).of_record_bind with ⟨_, -, hfault, -⟩ | ⟨slot', hs', y₁⟩
  · cases hfault
  cases hs.symm.trans hs'
  obtain ⟨-, lists, hlists, -⟩ := y₁.of_addedCounts
  intro pair hpair
  obtain ⟨list, -, z⟩ := Except.exists_of_mem_forall₂ hlists.flip hpair
  obtain ⟨-, curve, mslot, flux, folded, hcurve, hm, hflux, hfolded, hworking⟩ := Yields.of_pairCounts z
  obtain ⟨grid, ⟨curve', hcurve', rfl⟩, heven⟩ := exists_fluxOf (Model.even 1) hgrids
    (mem_areasOf_fit.2 ⟨pair, hpair, rfl⟩)
  cases heven.symm.trans hflux
  cases hcurve.symm.trans hcurve'
  refine ⟨folded, pairWeights_eq_ok.2 ⟨curve, mslot, hcurve, hm, hfolded⟩, ?_⟩
  rw [Spectrum.toWorking] at hworking
  by_cases hlen : folded.length = slot.value.spectrum.workingCount
  · exact .inl hlen
  by_cases hlen' : folded.length = slot.value.spectrum.observedCount
  · exact .inr hlen'
  · rw [if_neg hlen, if_neg hlen'] at hworking
    cases hworking

/-- After any operations that have all succeeded: where the counts of a flux of one can be predicted for a spectrum, its
flux can be corrected exactly if the matrices of all its fit pairs stand on the same number of channels. -/
theorem flux_is_corrected_iff_channels_agree {config : Config α} {start : Session α} (h : ofConfig config = .ok start)
    {operations : List (Operation α)} (htakes : ∀ operation ∈ operations, operation.TakesTidy)
    (hok : ∀ e ∈ (start.replay operations).1, e.Succeeded) (hreplay : (start.replay operations).2 = s)
    (hs : s.spectra.slot? id = some slot) (ht : s.Separated t) {prediction : Prediction α}
    (hpredict : (run (predictedCounts [id] (Model.even 1)) t).1.1 = .ok prediction) :
    (∃ f, (run (fluxCorrect id) s).1.1 = .ok f) ↔ ∃ count, ∀ pair ∈ slot.value.fit, ∃ mslot,
      s.matrices.slot? pair.matrix = some mslot ∧ mslot.value.current.channelCount = count := by
  have hfitting : s.Fitting := hreplay ▸ fitting_replay h htakes hok
  have hsound : s.CacheSound := hreplay ▸ ((Run.start h).replay operations).cacheSound
  have hweights := exists_pairWeights hsound ht hs hpredict
  constructor
  · rintro ⟨f, hf⟩
    obtain ⟨slot', lists, total, hs', hlists, htotal, -⟩ := answerTo_fluxCorrect.1 hf
    cases hs.symm.trans hs'
    exact ⟨total.length, fun pair hpair => exists_channelCount hlists htotal hpair⟩
  · rintro ⟨count, hcount⟩
    have hfitted : s.Fitted := hreplay ▸ fitted_replay h hok
    have hne := (hfitted.fitted id slot hs).resolve_right not_false
    obtain ⟨lists, total, hlists, htotal⟩ := exists_total hne
      (fun pair hpair => (hweights pair hpair).imp fun _ => And.left) hcount
    -- the weights of any pair say for which bins those of all pairs are
    obtain ⟨pair, hpair⟩ := List.exists_mem_of_ne_nil _ hne
    obtain ⟨weights, hweight, hbins⟩ := hweights pair hpair
    obtain ⟨list, hlist, hweight'⟩ := Except.exists_of_mem_forall₂ (Except.mapM_eq_ok.1 hlists).flip hpair
    cases Except.ok.inj (hweight.symm.trans hweight')
    rw [length_of_addAll htotal weights hlist] at hbins
    obtain ⟨f, hf⟩ := FluxSpectrum.exists_ofSpectrum (hfitting.spectra id slot hs) hbins
    exact ⟨f, answerTo_fluxCorrect.2 ⟨slot, lists, total, hs, hlists, htotal, hf⟩⟩

/-! ### Two matrices, one of them shared -/

namespace Paired

/-- A spectrum with three bins. -/
def spectrum : Spectrum ℚ := Sample.spectrum (Sample.grid 3) [4, 5, 6] [2, 2, 2]

/-- Of two spectra the first one gets two matrices, the second one gets some of them, and the first one is grouped. -/
def operations (given : List ResponsePair) : List (Operation ℚ) :=
  [.addSpectrum spectrum, .addSpectrum spectrum, .takeMatrix (Sample.matrix (Sample.grid 3)),
    .takeMatrix (Sample.matrix (Sample.grid 3)), .addArea (.identity (Sample.grid 3)), .assign ⟨0⟩ ⟨⟨2⟩, ⟨2⟩⟩,
    .assign ⟨0⟩ ⟨⟨2⟩, ⟨3⟩⟩] ++ given.map (.assign ⟨1⟩) ++ [.rebinSpectrum ⟨0⟩ [1, 1, -1]]

/-- The second spectrum gets one of the matrices. -/
def mixed : List (Operation ℚ) := operations [⟨⟨2⟩, ⟨3⟩⟩]

/-- The second spectrum gets both matrices. -/
def shared : List (Operation ℚ) := operations [⟨⟨2⟩, ⟨2⟩⟩, ⟨⟨2⟩, ⟨3⟩⟩]

/-- The session after some operations. -/
def session (operations : List (Operation ℚ)) : Session ℚ := (Sample.start.replay operations).2

/-- The counts predicted for a flux of one. -/
def predicted (operations : List (Operation ℚ)) : Option (List (List ℚ)) :=
  (run (predictedCounts [⟨0⟩] (Model.even 1)) (session operations)).1.1.toOption.map Prediction.counts

/-- The channel counts that differ, if the flux cannot be corrected for that. -/
def refusal (operations : List (Operation ℚ)) : Option (Nat × Nat) :=
  match (run (fluxCorrect ⟨0⟩) (session operations)).1.1 with
  | .error (.session (.unequalChannels expected actual)) => some (expected, actual)
  | _ => none

/-- The number of channels on which a matrix stands. -/
def channelCount (operations : List (Operation ℚ)) (id : MatrixId) : Option Nat :=
  ((session operations).matrices.slot? id).map fun mslot => mslot.value.current.channelCount

/-- The fit pairs of the first spectrum. -/
def fit (operations : List (Operation ℚ)) : Option (List ResponsePair) :=
  ((session operations).spectra.slot? ⟨0⟩).map fun slot => slot.value.fit

theorem leavesAxes_operations (given : List ResponsePair) : ∀ operation ∈ operations given, operation.LeavesAxes := by
  have hspectrum : (Operation.addSpectrum spectrum).LeavesAxes :=
    Spectrum.tidy_of_ungrouped rfl rfl (by decide +kernel)
  intro operation hoperation
  simp only [operations, List.mem_append, List.mem_cons, List.mem_map, List.not_mem_nil, or_false] at hoperation
  rcases hoperation with ((rfl | rfl | rfl | rfl | rfl | rfl | rfl) | ⟨pair, -, rfl⟩) | rfl
  · exact hspectrum
  · exact hspectrum
  · rfl
  · rfl
  all_goals trivial

end Paired

/-- When the second spectrum has both matrices, both stand on the three channels on which they were built, and the
flux of the first spectrum can be corrected. -/
theorem shared_matrices_are_corrected :
    Paired.predicted Paired.shared = some [[4, 2]] ∧
      ∃ f, (run (fluxCorrect ⟨0⟩) (Paired.session Paired.shared)).1.1 = .ok f := by
  have hpredicted : Paired.predicted Paired.shared = some [[4, 2]] := by decide +kernel
  refine ⟨hpredicted, ?_⟩
  have hok : ∀ e ∈ (Sample.start.replay Paired.shared).1, e.Succeeded := by decide +kernel
  have hstrategy : (Paired.session Paired.shared).strategy = .separate := by decide +kernel
  have hfit : Paired.fit Paired.shared = some [⟨⟨2⟩, ⟨2⟩⟩, ⟨⟨2⟩, ⟨3⟩⟩] := by decide +kernel
  have hfirst : Paired.channelCount Paired.shared ⟨2⟩ = some 3 := by decide +kernel
  have hsecond : Paired.channelCount Paired.shared ⟨3⟩ = some 3 := by decide +kernel
  obtain ⟨prediction, hprediction, -⟩ := Option.map_eq_some_iff.1 hpredicted
  obtain ⟨slot, hs, hslot⟩ := Option.map_eq_some_iff.1 hfit
  have htakes : ∀ operation ∈ Paired.shared, operation.TakesTidy :=
    fun o ho => (Paired.leavesAxes_operations _ o ho).takesTidy
  refine (flux_is_corrected_iff_channels_agree Sample.ofConfig_start htakes hok rfl hs (.same hstrategy)
    (Except.toOption_eq_some.1 hprediction)).2 ⟨3, fun pair hpair => ?_⟩
  rw [hslot] at hpair
  rcases List.mem_cons.1 hpair with rfl | hpair
  · exact Option.map_eq_some_iff.1 hfirst
  · obtain rfl := List.mem_singleton.1 hpair
    exact Option.map_eq_some_iff.1 hsecond

/-- When the second spectrum has one of the matrices, that one stays on the three channels on which it was built, and
the other one follows the first spectrum onto its two working bins. All operations succeed and so does the prediction of a
flux of one, but the flux cannot be corrected. -/
theorem unequal_channels_are_not_corrected :
    Run (Sample.start.replay Paired.mixed).1 (Paired.session Paired.mixed) ∧
      (∀ e ∈ (Sample.start.replay Paired.mixed).1, e.Succeeded ∧ e.operation.LeavesAxes) ∧
      (Paired.session Paired.mixed).config = Sample.start.config ∧
      (Paired.session Paired.mixed).strategy = .separate ∧
      Paired.predicted Paired.mixed = some [[4, 2]] ∧ Paired.refusal Paired.mixed = some (2, 3) := by
  have hrun : Run (Sample.start.replay Paired.mixed).1 (Paired.session Paired.mixed) :=
    (Run.start Sample.ofConfig_start).replay Paired.mixed
  have hok : ∀ e ∈ (Sample.start.replay Paired.mixed).1, e.Succeeded := by decide +kernel
  refine ⟨hrun, fun e he => ⟨hok e he, ?_⟩, by decide +kernel, by decide +kernel,
    by decide +kernel, by decide +kernel⟩
  exact Paired.leavesAxes_operations _ _ (mem_of_mem_replay he)

end Session

end SpectralResponse
