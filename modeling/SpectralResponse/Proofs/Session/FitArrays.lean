import SpectralResponse.Proofs.Session.Fitting
import SpectralResponse.Proofs.Session.Predictions
import SpectralResponse.Proofs.Session.Values
import SpectralResponse.Proofs.Spectrum.Requests

/-!
# Fit arrays list the noticed bins

Fit arrays are filled bin by bin, and what has been filled so far tells where the bins of the next spectrum start. A
skipped or doubled bin would shift all that comes after it. Since each spectrum has all its values for each working
bin, whatever was done in the session before, nothing is shifted.

## What is proved

* `FitArrays.append_eq` — what the bins of one spectrum add.
* `ListsNoticed.append`, `ListsNoticed.of_foldlM` — one more spectrum, and any number of them, keep the arrays a list
  of the noticed bins.
* `fit_arrays_list_noticed_bins` — after any run, fit arrays list the noticed working bins of the spectra in the order
  in which these are named, and nothing else.
-/

namespace SpectralResponse

variable {α : Type}

/-! ### Noticed bins -/

namespace Spectrum

variable {s : Spectrum α}

/-- The places of the noticed working bins, in ascending order. -/
def noticedBins (s : Spectrum α) : List Nat :=
  (List.range s.workingCount).filter fun i => s.working.notice[i]?.getD false

theorem length_noticedBins (h : s.working.notice.length = s.workingCount) : s.noticedBins.length = s.noticedCount := by
  have hflags : s.working.notice = (List.range s.workingCount).map fun i => s.working.notice[i]?.getD false := by
    apply List.ext_getElem
    · simp [h]
    · intro i hi hi'
      simp [hi]
  rw [noticedCount, hflags, List.countP_map, noticedBins, List.countP_eq_length_filter]
  rfl

theorem lt_of_mem_noticedBins {i : Nat} (h : i ∈ s.noticedBins) : i < s.workingCount :=
  List.mem_range.1 (List.mem_filter.1 h).1

end Spectrum

/-! ### Spans -/

/-- The spans follow each other from one place to another, without gap or overlap. -/
def FitSpan.Tile : Nat → List FitSpan → Nat → Prop
  | start, [], stop => start = stop
  | start, span :: spans, stop => span.start = start ∧ Tile (start + span.length) spans stop

theorem FitSpan.Tile.concat {start stop : Nat} {spans : List FitSpan} (h : Tile start spans stop) (id : SpectrumId)
    (length : Nat) : Tile start (spans ++ [⟨id, stop, length⟩]) (stop + length) := by
  induction spans generalizing start with
  | nil =>
    cases h
    exact ⟨rfl, rfl⟩
  | cons span spans ih => exact ⟨h.1, ih h.2⟩

variable [Scalar α]

namespace FitArrays

variable {arrays : FitArrays α} {s : Spectrum α} {predicted background uncertainty : List α}

/-! ### Bins of one spectrum -/

/-- Bins are appended in parallel, those that are ignored being left out. -/
theorem foldl_appendBin (indices : List Nat) :
    indices.foldl (appendBin s predicted background uncertainty) arrays =
      { arrays with
        data := arrays.data ++ (indices.filter fun i => s.working.notice[i]?.getD false).map
          fun i => s.working.counts[i]?.getD 0
        model := arrays.model ++ (indices.filter fun i => s.working.notice[i]?.getD false).map
          fun i => predicted[i]?.getD 0 + background[i]?.getD 0
        uncertainty := arrays.uncertainty ++ (indices.filter fun i => s.working.notice[i]?.getD false).map
          fun i => uncertainty[i]?.getD 0 } := by
  induction indices generalizing arrays with
  | nil => simp
  | cons i indices ih =>
    rw [List.foldl_cons, ih, appendBin]
    by_cases hnoticed : s.working.notice[i]?.getD false = true
    · simp [hnoticed]
    · simp [hnoticed]

/-- What the bins of one spectrum add. -/
theorem append_eq (id : SpectrumId) : arrays.append id s predicted background uncertainty =
    { data := arrays.data ++ s.noticedBins.map fun i => s.working.counts[i]?.getD 0
      model := arrays.model ++ s.noticedBins.map fun i => predicted[i]?.getD 0 + background[i]?.getD 0
      uncertainty := arrays.uncertainty ++ s.noticedBins.map fun i => uncertainty[i]?.getD 0
      spans := arrays.spans ++ [⟨id, arrays.data.length, s.noticedBins.length⟩] } := by
  rw [append, foldl_appendBin]
  simp [Spectrum.noticedBins]

/-- A span holds the values of the noticed working bins of a spectrum, in the order of the bins. -/
structure Shows (arrays : FitArrays α) (span : FitSpan) (s : Spectrum α) (predicted background uncertainty : List α) :
    Prop where
  /-- There is an entry for each noticed working bin. -/
  length : span.length = s.noticedCount
  /-- An entry has the count, the predicted count plus the background, and the uncertainty of its bin. -/
  entries : ∀ (j i : Nat), s.noticedBins[j]? = some i → ∃ count counted ground error,
    s.working.counts[i]? = some count ∧ predicted[i]? = some counted ∧ background[i]? = some ground ∧
      uncertainty[i]? = some error ∧ arrays.data[span.start + j]? = some count ∧
      arrays.model[span.start + j]? = some (counted + ground) ∧ arrays.uncertainty[span.start + j]? = some error

/-- What is appended later does not touch what is there. -/
theorem Shows.mono {arrays' : FitArrays α} {span : FitSpan} (h : arrays.Shows span s predicted background uncertainty)
    (hdata : arrays.data <+: arrays'.data) (hmodel : arrays.model <+: arrays'.model)
    (huncertainty : arrays.uncertainty <+: arrays'.uncertainty) :
    arrays'.Shows span s predicted background uncertainty := by
  have hstays {l l' : List α} (hl : l <+: l') {i : Nat} {value : α} (hi : l[i]? = some value) :
      l'[i]? = some value := by
    obtain ⟨hlt, rfl⟩ := List.getElem?_eq_some_iff.1 hi
    exact List.prefix_iff_getElem?.1 hl i hlt
  refine ⟨h.length, ?_⟩
  intro j i hj
  obtain ⟨count, counted, ground, error, hcount, hcounted, hground, herror, hd, hm, hu⟩ := h.entries j i hj
  exact ⟨count, counted, ground, error, hcount, hcounted, hground, herror, hstays hdata hd, hstays hmodel hm,
    hstays huncertainty hu⟩

/-- The span that is appended shows the spectrum, provided that it has a value of each kind for each working bin. -/
theorem shows_append (id : SpectrumId) (hs : s.OneForEachGroup) (hmodel : arrays.model.length = arrays.data.length)
    (huncertainty : arrays.uncertainty.length = arrays.data.length) (hpredicted : predicted.length = s.workingCount)
    (hbackground : background.length = s.workingCount) (herrors : uncertainty.length = s.workingCount) :
    (arrays.append id s predicted background uncertainty).Shows ⟨id, arrays.data.length, s.noticedBins.length⟩ s
      predicted background uncertainty := by
  have hgroups : s.workingCount = s.grouping.length := hs.grid
  have hcounts : s.working.counts.length = s.workingCount := hs.counts.trans hgroups.symm
  rw [append_eq]
  refine ⟨Spectrum.length_noticedBins (hs.notice.trans hgroups.symm), ?_⟩
  intro j i hj
  have hi : i < s.workingCount := Spectrum.lt_of_mem_noticedBins (List.mem_of_getElem? hj)
  -- no value that is appended stands in for one that is missing
  have hthere {values : List α} (hlen : values.length = s.workingCount) : values[i]? = some (values[i]?.getD 0) := by
    rw [List.getElem?_eq_getElem (hlen ▸ hi), Option.getD_some]
  have hplace {l : List α} (hl : l.length = arrays.data.length) (f : Nat → α) :
      (l ++ s.noticedBins.map f)[arrays.data.length + j]? = some (f i) := by
    rw [List.getElem?_append_right (by omega), hl, Nat.add_sub_cancel_left, List.getElem?_map, hj, Option.map_some]
  exact ⟨_, _, _, _, hthere hcounts, hthere hpredicted, hthere hbackground, hthere herrors, hplace rfl _,
    hplace hmodel _, hplace huncertainty _⟩

end FitArrays

/-! ### Predicted counts -/

/-- Counts that are taken to the working bins of a tidy spectrum are one for each. -/
theorem Spectrum.Tidy.length_toWorking {s : Spectrum α} (hs : s.Tidy) {channels counts : List α}
    (h : s.toWorking channels = .ok counts) : counts.length = s.workingCount := by
  rw [toWorking] at h
  by_cases hworking : channels.length = s.workingCount
  · rw [if_pos hworking] at h
    rw [← Except.ok.inj h, hworking]
  · rw [if_neg hworking] at h
    by_cases hobserved : channels.length = s.observedCount
    · rw [if_pos hobserved] at h
      rw [(Grouping.sum_eq_ok.1 h).2, List.length_map, hs.workingCount_eq, Grouping.length]
    · rw [if_neg hobserved] at h
      cases h

namespace Session

variable {s : Session α} {ids : List SpectrumId} {model : Model α} {predicted : List (List α)} {arrays : FitArrays α}

/-- A tidy spectrum is predicted a count for each working bin. -/
theorem length_spectrumCounts {fluxes : List (AreaId × List α)} {id : SpectrumId} {counts : List α}
    {slot : Slot (SpectrumRecord α)} (hslot : s.spectra.slot? id = some slot) (hs : slot.value.spectrum.Tidy)
    (h : answerTo (spectrumCounts fluxes id) s = .ok counts) : counts.length = slot.value.spectrum.workingCount := by
  have y : Yields (spectrumCounts fluxes id) s (.ok counts) _ := .of_run (Prod.ext h rfl)
  obtain ⟨-, lists, hlists, rfl⟩ := (y.of_live_record hslot).of_addedCounts
  refine length_foldl_add ?_ List.length_replicate
  intro list hlist
  obtain ⟨pair, -, hpair⟩ := Except.exists_of_mem_forall₂ hlists hlist
  obtain ⟨-, _, _, _, _, -, -, -, -, hcounts⟩ := hpair.of_pairCounts
  exact hs.length_toWorking hcounts

/-- Each spectrum of a prediction is there, and has a count for each working bin. -/
theorem forall₂_predictedCounts {prediction : Prediction α} (hspectra : s.spectra.All fun r => r.spectrum.Tidy)
    (h : answerTo (predictedCounts ids model) s = .ok prediction) :
    List.Forall₂ (fun id counts => ∃ slot, s.spectra.slot? id = some slot ∧
      counts.length = slot.value.spectrum.workingCount) ids prediction.counts := by
  rw [answerTo_predictedCounts_eq] at h
  obtain ⟨result, -, h⟩ := Except.bind_eq_ok.1 h
  obtain ⟨counts, hcounts, h⟩ := Except.bind_eq_ok.1 h
  cases Except.ok.inj h
  refine (Except.mapM_eq_ok.1 hcounts).imp ?_
  intro id counts hid
  have hrecord := hid
  rw [spectrumCounts, (Reads.record id).answerTo_bind] at hrecord
  obtain ⟨r, hr, -⟩ := Except.bind_eq_ok.1 hrecord
  obtain ⟨slot, hslot, -⟩ := answerTo_record.1 hr
  exact ⟨slot, hslot, length_spectrumCounts hslot (hspectra id slot hslot) hid⟩

/-! ### One spectrum after another -/

/-- The span shows the spectrum that it names, with these predicted counts. -/
def ShowsSpectrum (s : Session α) (arrays : FitArrays α) (span : FitSpan) (counts : List α) : Prop :=
  ∃ slot background uncertainty, s.spectra.slot? span.spectrum = some slot ∧
    slot.value.spectrum.scaledBackground = .ok background ∧ slot.value.spectrum.fitUncertainty = .ok uncertainty ∧
    arrays.Shows span slot.value.spectrum counts background uncertainty

/-- The arrays list the noticed working bins of some spectra, with their predicted counts, and nothing else. -/
structure ListsNoticed (s : Session α) (ids : List SpectrumId) (predicted : List (List α)) (arrays : FitArrays α) :
    Prop where
  /-- There are as many values of the model as counts. -/
  model : arrays.model.length = arrays.data.length
  /-- There are as many uncertainties. -/
  uncertainty : arrays.uncertainty.length = arrays.data.length
  /-- The spans are in the order of the spectra. -/
  order : arrays.spans.map FitSpan.spectrum = ids
  /-- They cover the arrays from end to end. -/
  tile : FitSpan.Tile 0 arrays.spans arrays.data.length
  /-- Each shows the noticed working bins of its spectrum. -/
  shows : List.Forall₂ (s.ShowsSpectrum arrays) arrays.spans predicted

theorem listsNoticed_empty : s.ListsNoticed [] [] FitArrays.empty := ⟨rfl, rfl, rfl, rfl, .nil⟩

/-- One step: one more spectrum is appended. -/
theorem ListsNoticed.append {id : SpectrumId} {slot : Slot (SpectrumRecord α)} {counts background uncertainty : List α}
    (h : s.ListsNoticed ids predicted arrays) (hslot : s.spectra.slot? id = some slot)
    (hs : slot.value.spectrum.Tidy) (hcounts : counts.length = slot.value.spectrum.workingCount)
    (hbackground : slot.value.spectrum.scaledBackground = .ok background)
    (huncertainty : slot.value.spectrum.fitUncertainty = .ok uncertainty) :
    s.ListsNoticed (ids ++ [id]) (predicted ++ [counts])
      (arrays.append id slot.value.spectrum counts background uncertainty) := by
  obtain ⟨background', hbackground', hground⟩ := hs.exists_scaledBackground
  obtain rfl : background' = background := Except.ok.inj (hbackground'.symm.trans hbackground)
  obtain ⟨uncertainty', huncertainty', herror⟩ := hs.exists_fitUncertainty
  obtain rfl : uncertainty' = uncertainty := Except.ok.inj (huncertainty'.symm.trans huncertainty)
  have hlast := FitArrays.shows_append id hs.oneForEachGroup h.model h.uncertainty hcounts hground herror
  rw [FitArrays.append_eq] at hlast ⊢
  constructor
  · simp [h.model]
  · simp [h.uncertainty]
  · simp [h.order]
  · simpa using h.tile.concat id slot.value.spectrum.noticedBins.length
  · apply List.rel_append
    · -- the spans before are not touched
      refine h.shows.imp ?_
      rintro span counts' ⟨slot', b, u, hslot', hb, hu, hspan⟩
      refine ⟨slot', b, u, hslot', hb, hu, ?_⟩
      apply hspan.mono
      · exact List.prefix_append _ _
      · exact List.prefix_append _ _
      · exact List.prefix_append _ _
    · exact .cons ⟨slot, background', uncertainty', hslot, hbackground, huncertainty, hlast⟩ .nil

/-- Appends the noticed working bins of one of the spectra, with its predicted counts. -/
def appendEntry (arrays : FitArrays α) (entry : SpectrumId × List α) : SessionM α (FitArrays α) := do
  let spectrum ← spectrum entry.1
  let background ← spectrum.scaledBackground
  let uncertainty ← spectrum.fitUncertainty
  return arrays.append entry.1 spectrum entry.2 background uncertainty

theorem reads_appendEntry (arrays : FitArrays α) (entry : SpectrumId × List α) : Reads (appendEntry arrays entry) :=
  .bind (reads_spectrum _) fun _ => .bind (.lift _) fun _ => .bind (.lift _) fun _ => .pure _

/-- An entry is appended if its spectrum is there, with its background and its uncertainties. -/
theorem answerTo_appendEntry {entry : SpectrumId × List α} {arrays' : FitArrays α} :
    answerTo (appendEntry arrays entry) s = .ok arrays' ↔ ∃ slot background uncertainty,
      s.spectra.slot? entry.1 = some slot ∧ slot.value.spectrum.scaledBackground = .ok background ∧
      slot.value.spectrum.fitUncertainty = .ok uncertainty ∧
      arrays.append entry.1 slot.value.spectrum entry.2 background uncertainty = arrays' := by
  simp only [appendEntry, Session.spectrum, bind_assoc, pure_bind, (Reads.record _).answerTo_bind,
    (Reads.lift _).answerTo_bind, Except.bind_eq_ok]
  constructor
  · rintro ⟨r, hr, background, hbackground, uncertainty, huncertainty, hnext⟩
    obtain ⟨slot, hslot, rfl⟩ := answerTo_record.1 hr
    exact ⟨slot, background, uncertainty, hslot, hbackground, huncertainty, Except.ok.inj hnext⟩
  · rintro ⟨slot, background, uncertainty, hslot, hbackground, huncertainty, rfl⟩
    exact ⟨_, answerTo_record.2 ⟨slot, hslot, rfl⟩, background, hbackground, uncertainty, huncertainty, rfl⟩

/-- Fit arrays are filled with one spectrum after another, from the prediction for all of them. -/
theorem answerTo_fitArrays_eq (ids : List SpectrumId) (model : Model α) (s : Session α) :
    answerTo (fitArrays ids model) s = (do
      let prediction ← answerTo (predictedCounts ids model) s
      (ids.zip prediction.counts).foldlM (fun arrays entry => answerTo (appendEntry arrays entry) s) .empty) := by
  have hfit : fitArrays ids model = predictedCounts ids model >>= fun prediction =>
      (ids.zip prediction.counts).foldlM appendEntry .empty := rfl
  rw [hfit, answerTo_bind_reads fun _ s' y =>
    ⟨s'.cache, Keeps.predictedCounts_of (Keeps.modelFluxes ids model) _ _ _ y⟩]
  · exact congrArg _ (funext fun prediction => Reads.answerTo_foldlM reads_appendEntry _ _ s)
  · exact fun prediction => .foldlM reads_appendEntry _ _

/-- A run: any number of spectra are appended. -/
theorem ListsNoticed.of_foldlM (hspectra : s.spectra.All fun r => r.spectrum.Tidy)
    {entries : List (SpectrumId × List α)} {arrays' : FitArrays α} (h : s.ListsNoticed ids predicted arrays)
    (hentries : ∀ entry ∈ entries, ∃ slot, s.spectra.slot? entry.1 = some slot ∧
      entry.2.length = slot.value.spectrum.workingCount)
    (hfold : entries.foldlM (fun arrays entry => answerTo (appendEntry arrays entry) s) arrays = .ok arrays') :
    s.ListsNoticed (ids ++ entries.map Prod.fst) (predicted ++ entries.map Prod.snd) arrays' := by
  induction entries generalizing ids predicted arrays with
  | nil =>
    cases Except.ok.inj hfold
    simpa using h
  | cons entry entries ih =>
    obtain ⟨⟨slot, hslot, hcounts⟩, hentries⟩ := List.forall_mem_cons.1 hentries
    rw [List.foldlM_cons] at hfold
    obtain ⟨next, hnext, hfold⟩ := Except.bind_eq_ok.1 hfold
    obtain ⟨slot', background, uncertainty, hslot', hbackground, huncertainty, rfl⟩ := answerTo_appendEntry.1 hnext
    obtain rfl : slot = slot' := Option.some.inj (hslot.symm.trans hslot')
    have hstep := h.append hslot (hspectra _ slot hslot) hcounts hbackground huncertainty
    simpa using ih hstep hentries hfold

/-! ### All sessions -/

/-- Nothing is asked of the matrices. -/
theorem inherited_true : Inherited (α := α) fun _ => True := ⟨fun _ _ _ => trivial, fun _ _ _ => trivial,
  fun _ _ _ => trivial⟩

theorem Operation.TakesTidy.takesOnly {operation : Operation α} (h : operation.TakesTidy) :
    operation.TakesOnly fun _ => True := by
  cases operation with
  | takeMatrix m => trivial
  | addSpectrum spectrum => exact h
  | _ => trivial

/-- Whatever was done before, with whatever success: when fit arrays are answered for some spectra, there is a
prediction for them, and the arrays list the noticed working bins of these spectra with their predicted counts, in
the order in which the spectra are named. -/
theorem fit_arrays_list_noticed_bins {history : List (Event α)} (hrun : Run history s)
    (htakes : ∀ e ∈ history, e.operation.TakesTidy) (h : answerTo (fitArrays ids model) s = .ok arrays) :
    ∃ prediction, answerTo (predictedCounts ids model) s = .ok prediction ∧
      s.ListsNoticed ids prediction.counts arrays := by
  have hspectra := (hrun.holding inherited_true fun e he => (htakes e he).takesOnly).spectra
  rw [answerTo_fitArrays_eq] at h
  obtain ⟨prediction, hprediction, h⟩ := Except.bind_eq_ok.1 h
  have hcounts := forall₂_predictedCounts hspectra hprediction
  have hentries : ∀ entry ∈ ids.zip prediction.counts, ∃ slot, s.spectra.slot? entry.1 = some slot ∧
      entry.2.length = slot.value.spectrum.workingCount := by
    intro entry hentry
    exact (List.forall₂_iff_zip.1 hcounts).2 hentry
  have hlists := listsNoticed_empty.of_foldlM hspectra hentries h
  rw [List.nil_append, List.nil_append, List.map_fst_zip hcounts.length_eq.le,
    List.map_snd_zip hcounts.length_eq.ge] at hlists
  exact ⟨prediction, hprediction, hlists⟩

/-! ### A spectrum that is named twice -/

namespace Repeated

/-- Four bins, the last of bad quality. -/
def fine : SpectrumInput ℚ where
  lo := [1, 2, 3, 4]
  hi := [2, 3, 4, 5]
  unit := .kev
  counts := [3, 4, 5, 6]
  statErrors := some [3, 4, 3, 4]
  sysFractions := none
  quality := some [0, 0, 0, 1]
  exposure := 1
  backscal := 1
  observation := {}

/-- Three bins. -/
def coarse : SpectrumInput ℚ where
  lo := [1, 2, 4]
  hi := [2, 4, 5]
  unit := .kev
  counts := [7, 8, 9]
  statErrors := some [3, 6, 9]
  sysFractions := none
  quality := none
  exposure := 1
  backscal := 1
  observation := {}

/-- The spectrum of the four bins. -/
def first : Spectrum ℚ := (Spectrum.ofInput fine).outcome.1.toOption.get (by decide +kernel)

/-- The spectrum of the three bins. -/
def second : Spectrum ℚ := (Spectrum.ofInput coarse).outcome.1.toOption.get (by decide +kernel)

/-- The last two bins of the first spectrum are grouped; the second one cannot be grouped like this, gets a background
and has its middle bin ignored. -/
def operations : List (Operation ℚ) :=
  [.addSpectrum first, .addSpectrum second, .rebinSpectrum ⟨0⟩ [1, -1, 1, 1], .rebinSpectrum ⟨1⟩ [1],
    .setBackground ⟨1⟩ ⟨[0, 4, 1], 2, 1⟩, .setRange ⟨1⟩ 2 3 .kev false]

/-- The session after these operations. -/
def session : Session ℚ := (Sample.start.replay operations).2

/-- The arrays for the first spectrum, the second one, and the first one again. -/
def listed : FitArrays ℚ where
  data := [3, 4, 11, 7, 9, 3, 4, 11]
  model := [1, 1, 2, 1, 3 / 2, 1, 1, 2]
  uncertainty := [3, 4, 5, 3, 9, 3, 4, 5]
  spans := [⟨⟨0⟩, 0, 3⟩, ⟨⟨1⟩, 3, 2⟩, ⟨⟨0⟩, 5, 3⟩]

theorem takesTidy_operations : ∀ operation ∈ operations, operation.TakesTidy := by
  have hfirst : (Operation.addSpectrum first).TakesTidy :=
    Spectrum.tidy_of_ofInput (.of_outcome (Except.toOption_eq_some.1 (Option.some_get _).symm))
  have hsecond : (Operation.addSpectrum second).TakesTidy :=
    Spectrum.tidy_of_ofInput (.of_outcome (Except.toOption_eq_some.1 (Option.some_get _).symm))
  intro operation hoperation
  simp only [operations, List.mem_cons, List.not_mem_nil, or_false] at hoperation
  rcases hoperation with rfl | rfl | rfl | rfl | rfl | rfl
  · exact hfirst
  · exact hsecond
  · trivial
  · trivial
  · trivial
  · trivial

end Repeated

/-- A spectrum that is named twice is listed twice, and the ignored bin of the spectrum in between is left out. -/
theorem repeated_spectrum_is_listed_twice :
    answerTo (fitArrays [⟨0⟩, ⟨1⟩, ⟨0⟩] (Model.flat 1)) Repeated.session = .ok Repeated.listed ∧
      ∃ prediction, answerTo (predictedCounts [⟨0⟩, ⟨1⟩, ⟨0⟩] (Model.flat 1)) Repeated.session = .ok prediction ∧
        Repeated.session.ListsNoticed [⟨0⟩, ⟨1⟩, ⟨0⟩] prediction.counts Repeated.listed := by
  have hrun : Run (Sample.start.replay Repeated.operations).1 Repeated.session :=
    (Run.start Sample.ofConfig_start).replay Repeated.operations
  have htakes : ∀ e ∈ (Sample.start.replay Repeated.operations).1, e.operation.TakesTidy :=
    fun e he => Repeated.takesTidy_operations _ (mem_of_mem_replay he)
  have harrays : answerTo (fitArrays [⟨0⟩, ⟨1⟩, ⟨0⟩] (Model.flat 1)) Repeated.session = .ok Repeated.listed :=
    Except.toOption_eq_some.1 (by decide +kernel)
  exact ⟨harrays, fit_arrays_list_noticed_bins hrun htakes harrays⟩

end Session

end SpectralResponse
