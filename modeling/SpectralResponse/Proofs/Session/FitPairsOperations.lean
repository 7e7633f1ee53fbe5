import SpectralResponse.Proofs.Session.FitPairs
import SpectralResponse.Proofs.Session.MatrixMoves

/-!
# Fit pairs through single operations

An operation that succeeds leaves the fit pairs of a spectrum as they are, and moves their matrices at most, or it
derives them anew. Unless it is one of the two that touch effective areas, these stay as well.

## What is proved

* `Yields.refitted` — deriving the pairs of one spectrum brings them in step and leaves those of all others.
* `FitEffect.addSpectrum`, `FitEffect.assign`, `FitEffect.unassign` — these derive the pairs of one spectrum.
* `FitEffect.setConfig` — once a configuration has been taken over, the pairs of all spectra are in step.
-/

namespace SpectralResponse

open ResponseMatrix (OnlyMoved Reaches ofRedistribution)

variable {α : Type} [Scalar α]

namespace Session

variable {s s' s₁ t : Session α} {id : SpectrumId} {slot : Slot (SpectrumRecord α)} {pair : ResponsePair}

/-! ### Matrices come, go and are moved -/

/-- A matrix has been moved at most, or it is new, was built and has only been moved. -/
structure Renews (s s' : Session α) : Prop where
  /-- Handles are never taken back. -/
  issued : s.matrices.slots.length ≤ s'.matrices.slots.length
  /-- Where a matrix comes from. -/
  origin : ∀ id slot', s'.matrices.slot? id = some slot' →
    (∃ slot, s.matrices.slot? id = some slot ∧ slot.value.Reaches slot'.value) ∨
      s.matrices.slots.length ≤ id.index ∧ slot'.value.OnlyMoved

instance : Std.Refl (Renews (α := α)) := ⟨fun _ => ⟨Nat.le_refl _, fun _ slot hs => .inl ⟨slot, hs, .refl _⟩⟩⟩

instance : IsTrans (Session α) Renews := ⟨fun s s₁ s' h h' => by
  refine ⟨Nat.le_trans h.issued h'.issued, fun id slot' hs' => ?_⟩
  rcases h'.origin id slot' hs' with ⟨slot₁, hs₁, hreaches'⟩ | ⟨hindex, hmoved⟩
  · rcases h.origin id slot₁ hs₁ with ⟨slot, hs, hreaches⟩ | ⟨hindex, hmoved⟩
    · exact .inl ⟨slot, hs, hreaches.trans hreaches'⟩
    · exact .inr ⟨hindex, hmoved.reaches hreaches'⟩
  · exact .inr ⟨Nat.le_trans h.issued hindex, hmoved⟩⟩

namespace Renews

theorem of_matrices (h : s'.matrices = s.matrices) : Renews s s' :=
  ⟨Nat.le_of_eq (by rw [h]), fun _ slot hs => .inl ⟨slot, h ▸ hs, .refl _⟩⟩

theorem of_onlyFrees (h : OnlyFrees s s') : Renews s s' := by
  refine ⟨h.issued, fun id slot' hs' => .inl ?_⟩
  obtain ⟨slot, hs, hvalue⟩ := h.matrices id slot' hs'
  exact ⟨slot, hs, hvalue ▸ .refl _⟩

theorem of_exchanges {channels : Grid α} (h : Exchanges channels s s') : Renews s s' := by
  refine ⟨h.matrices.issued, fun id slot' hs' => ?_⟩
  rcases h.matrices_origin id slot' hs' with ⟨slot, hs, hvalue⟩ | ⟨hindex, energies, ideal, -, hideal⟩
  · exact .inl ⟨slot, hs, hvalue ▸ .refl _⟩
  · exact .inr ⟨hindex, hideal ▸ ResponseMatrix.onlyMoved_ofRedistribution ideal⟩

/-- A matrix is put into a new slot. -/
theorem of_takeMatrix {m : ResponseMatrix α} {newId : MatrixId} (hm : m.OnlyMoved)
    (y : Yields (takeMatrix m) s (.ok newId) s') : Renews s s' := by
  rw [y.of_insertMatrix.2]
  refine ⟨by simp [Arena.insert], fun id slot' hs' => ?_⟩
  rcases Arena.slot?_insert_cases hs' with ⟨rfl, rfl⟩ | ⟨-, hs⟩
  · exact .inr ⟨Nat.le_refl _, hm⟩
  · exact .inl ⟨slot', hs, .refl _⟩

/-- Matrices that were built and only moved are all there is. -/
theorem onlyMoved (h : Renews s s') (hmoved : s.matrices.All OnlyMoved) : s'.matrices.All OnlyMoved := by
  intro id slot' hs'
  rcases h.origin id slot' hs' with ⟨slot, hs, hreaches⟩ | ⟨-, hnew⟩
  · exact (hmoved id slot hs).reaches hreaches
  · exact hnew

/-- What pairs name before and after has been moved at most. -/
theorem carried {pairs : List ResponsePair} (h : Renews s s') (hconfig : s'.config = s.config)
    (hbefore : ∀ pair ∈ pairs, s.HasPair pair) (hafter : ∀ pair ∈ pairs, s'.HasPair pair) : s.Carried s' pairs := by
  refine ⟨hconfig, fun pair hpair => ?_⟩
  obtain ⟨slot, hs⟩ := Arena.contains_iff.1 (hbefore pair hpair).2
  obtain ⟨slot', hs'⟩ := Arena.contains_iff.1 (hafter pair hpair).2
  refine ⟨_, _, Arena.get_eq_ok_iff.2 ⟨slot, hs, rfl⟩, Arena.get_eq_ok_iff.2 ⟨slot', hs', rfl⟩, ?_⟩
  rcases h.origin _ slot' hs' with ⟨slot₀, hs₀, hreaches⟩ | ⟨hindex, -⟩
  · cases hs.symm.trans hs₀
    exact hreaches
  · exact absurd (Arena.index_lt_of_slot? hs) (Nat.not_lt.2 hindex)

end Renews

/-! ### Matrices are only moved -/

/-- Matrices are moved; all else stays, but for the shared evaluation grid. -/
structure OnlyMoves (s s' : Session α) : Prop where
  /-- The configuration. -/
  config : s'.config = s.config
  /-- The spectra. -/
  spectra : s'.spectra = s.spectra
  /-- The effective areas. -/
  areas : s'.areas = s.areas
  /-- The matrices. -/
  renews : Renews s s'

instance : Std.Refl (OnlyMoves (α := α)) := ⟨fun _ => ⟨rfl, rfl, rfl, Std.Refl.refl _⟩⟩

instance : IsTrans (Session α) OnlyMoves := ⟨fun _ _ _ h h' =>
  ⟨h'.config.trans h.config, h'.spectra.trans h.spectra, h'.areas.trans h.areas,
    IsTrans.trans _ _ _ h.renews h'.renews⟩⟩

namespace OnlyMoves

theorem moveChannels (id : MatrixId) (target : Grid α) (threshold : α) :
    Keeps OnlyMoves (moveChannels id target threshold) := by
  intro s answer s' y
  rcases y.of_matrix_bind with ⟨_, -, -, rfl⟩ | ⟨slot, hs, -⟩
  · exact Std.Refl.refl _
  obtain ⟨-, rfl⟩ := y.eq_move (c := ⟨target, threshold⟩) hs
  refine ⟨rfl, rfl, rfl, Nat.le_of_eq (Arena.slots_length_setSlot _).symm, fun other slot' hs' => .inl ?_⟩
  rcases slot?_withMatrix hs _ _ hs' with ⟨rfl, hvalue⟩ | ⟨-, hs'⟩
  · exact ⟨slot, hs, hvalue ▸ ResponseMatrix.reaches_move _ _⟩
  · exact ⟨slot', hs', .refl _⟩

theorem forgetGrid : Keeps OnlyMoves (forgetGrid (α := α)) :=
  .modify fun _ => ⟨rfl, rfl, rfl, Renews.of_matrices rfl⟩

theorem syncMatrices (id : SpectrumId) : Keeps OnlyMoves (syncMatrices (α := α) id) :=
  .syncMatrices_of moveChannels forgetGrid id

theorem restoreShared (id : MatrixId) : Keeps OnlyMoves (restoreShared (α := α) id) :=
  .restoreShared_of moveChannels forgetGrid id

theorem rebinMatrix (id : MatrixId) (target : Grid α) (threshold : α) :
    Keeps OnlyMoves (rebinMatrix id target threshold) :=
  .rebinMatrix_of moveChannels id target threshold

end OnlyMoves

/-! ### Pairs that stay in step -/

/-- The records have the same pairs and the same observed bins. -/
structure SamePairs (r r' : SpectrumRecord α) : Prop where
  /-- The assigned pairs. -/
  assigned : r'.assigned = r.assigned
  /-- The pairs for fits. -/
  fit : r'.fit = r.fit
  /-- The observed bins. -/
  observed : r'.spectrum.observed = r.spectrum.observed

omit [Scalar α] in
theorem SamePairs.refl (r : SpectrumRecord α) : SamePairs r r := ⟨rfl, rfl, rfl⟩

omit [Scalar α] in
theorem SamePairs.trans {r r' r'' : SpectrumRecord α} (h : SamePairs r r') (h' : SamePairs r' r'') :
    SamePairs r r'' :=
  ⟨h'.assigned.trans h.assigned, h'.fit.trans h.fit, h'.observed.trans h.observed⟩

omit [Scalar α] in
theorem SamePairs.pairs_eq {r r' : SpectrumRecord α} (h : SamePairs r r') : r'.pairs = r.pairs := by
  rw [SpectrumRecord.pairs, h.assigned, h.fit, SpectrumRecord.pairs]

theorem FitInStep.congr {r r' : SpectrumRecord α} (h : s.FitInStep r) (hsame : SamePairs r r') : s.FitInStep r' := by
  obtain ⟨spectrum, assigned, fit⟩ := r
  obtain ⟨spectrum', assigned', fit'⟩ := r'
  obtain ⟨rfl, rfl, hobserved⟩ := hsame
  constructor
  · rw [hobserved]
    exact h.standsIn
  · rw [hobserved]
    exact h.pairs

/-- Spectra do not concern what is in step. -/
theorem FitInStep.withSpectrum {r : SpectrumRecord α} {next : Spectrum α} (h : s.FitInStep r) :
    (s.withSpectrum id slot next).FitInStep r :=
  ⟨h.standsIn, fun hne => (h.pairs hne).imp fun _ _ hp => ⟨hp.idealArea, hp.sameArea, hp.idealMatrix, hp.sameMatrix⟩⟩

/-- Effective areas with the values they had stay. -/
theorem FitInStep.areasStay {r : SpectrumRecord α} (h : t.FitInStep r) (hconfig : s.config = t.config)
    (hareas : ∀ pair ∈ r.pairs, s.areas.get pair.area = t.areas.get pair.area) : t.AreasStay s r := by
  refine ⟨fun _ fit hfit => hareas fit (List.mem_append_right _ hfit), fun hne => ?_⟩
  refine (forall₂_iff (h.pairs hne) fun pair hpair fit hfit hstep => iff_of_true hstep ?_).1 (h.pairs hne)
  have hsource := hareas pair (List.mem_append_left _ hpair)
  have hown := hareas fit (List.mem_append_right _ hfit)
  refine ⟨fun hflag => ?_, fun hflag => ?_⟩
  · obtain ⟨curve, m, ideal, hcurve, hm, hideal, hset⟩ := hstep.idealArea (hconfig ▸ hflag)
    refine ⟨curve, ideal, ideal, hsource.trans hcurve, hideal, hown.trans hideal, ?_⟩
    rw [EffectiveArea.setExposure_setExposure hset, hset]
  · obtain ⟨curve, m, hcurve, -⟩ := hstep.idealMatrix (hconfig ▸ hflag)
    exact ⟨curve, curve, hcurve, hown.trans hcurve, rfl⟩

/-- While matrices are moved at most and effective areas stay, so do fit pairs in step. -/
theorem FitInStep.stays {r : SpectrumRecord α} (h : t.FitInStep r) (hmoved : t.matrices.All OnlyMoved)
    (hconfig : s.config = t.config) (hrenews : Renews t s) (hcurves : CurvesStay t s)
    (hbefore : ∀ pair ∈ r.pairs, t.HasPair pair) (hafter : ∀ pair ∈ r.pairs, s.HasPair pair) : s.FitInStep r := by
  refine (fitInStep_iff h hmoved (hrenews.carried hconfig hbefore hafter)).2 (h.areasStay hconfig ?_)
  exact fun pair hpair => hcurves.get_eq (hbefore pair hpair).1 (hafter pair hpair).1

/-! ### Deriving the pairs of one spectrum -/

/-- The fit pairs of one spectrum have been derived, and are in step. -/
structure Refitted (id : SpectrumId) (s s' : Session α) : Prop where
  /-- The users are counted. -/
  balanced : s'.Balanced
  /-- The configuration stays. -/
  config : s'.config = s.config
  /-- The matrices. -/
  renews : Renews s s'
  /-- The pairs of the spectrum are in step. -/
  inStep : ∀ slot', s'.spectra.slot? id = some slot' → s'.FitInStep slot'.value
  /-- All other spectra stay. -/
  others : ∀ other ≠ id, s'.spectra.slot? other = s.spectra.slot? other
  /-- Effective areas that stay have the values they had. -/
  curves : CurvesStay s s'

/-- Deriving the pairs of one spectrum brings them in step and leaves those of all others. -/
theorem Yields.refitted (hb : s.Balanced) (hmoved : s.matrices.All OnlyMoved)
    (y : Yields (refreshFit id) s (.ok ()) s') : Refitted id s s' := by
  have hb' : s'.Balanced := balanced_refreshFit id _ _ _ y hb
  rcases y.of_refreshFit hb with ⟨_, _, hfault, -⟩ | ⟨slot, fit, s₁, hr, y₁⟩
  · cases hfault
  have hmoves : OnlyMoves s₁ s' := OnlyMoves.syncMatrices id _ _ _ y₁
  have hspectra : s'.spectra = s.spectra.setSlot id (some { slot with value := { slot.value with fit } }) :=
    hmoves.spectra.trans hr.spectra
  refine ⟨hb', hmoves.config.trans hr.config, IsTrans.trans _ _ _ (.of_exchanges hr.exchanges) hmoves.renews,
    fun slot' hs' => ?_, fun other hother => ?_, ?_⟩
  · obtain ⟨s₀, y₀, hlive, hexchanges⟩ := hr.derived
    have hown := hs'
    rw [hspectra, Arena.slot?_setSlot_self hr.found] at hown
    cases hown
    have hbred := Bred.fitPairs _ _ _ _ y₀
    have hrenews : Renews s₀ s' := IsTrans.trans _ _ _ (.of_exchanges hexchanges) hmoves.renews
    have hconfig : s'.config = s₀.config := by rw [hmoves.config, hr.config, hbred.config]
    have hmoved₀ : s₀.matrices.All OnlyMoved := (Renews.of_exchanges hbred.exchanges).onlyMoved hmoved
    have hcurves : CurvesStay s₀ s' := .of_inherits (hmoves.areas ▸ hexchanges.areas)
    exact y₀.fitInStep_of_fitPairs.stays hmoved₀ hconfig hrenews hcurves hlive (hb'.hasPairs hs')
  · rw [hspectra, Arena.slot?_setSlot_of_ne hother]
  · exact .of_inherits (hmoves.areas ▸ hr.exchanges.areas)

/-- The pairs of another spectrum stay in step. -/
theorem Refitted.inStep_of_ne {other : SpectrumId} (h : Refitted id s s') (hb : s.Balanced)
    (hmoved : s.matrices.All OnlyMoved) (hother : other ≠ id) (hs' : s'.spectra.slot? other = some slot)
    (hstep : s.FitInStep slot.value) : s'.FitInStep slot.value := by
  have hs : s.spectra.slot? other = some slot := (h.others other hother).symm.trans hs'
  exact hstep.stays hmoved h.config h.renews h.curves (hb.hasPairs hs) (h.balanced.hasPairs hs')

/-! ### Whole operations -/

/-- What an operation that succeeds does to fit pairs: those of some spectra have been derived and are in step; any
other spectrum keeps its pairs, under the same configuration. The operation may touch effective areas. -/
structure FitEffect (touches : Bool) (derived : SpectrumId → Prop) (s s' : Session α) : Prop where
  /-- The matrices. -/
  renews : Renews s s'
  /-- The effective areas. -/
  curves : touches = false → CurvesStay s s'
  /-- The spectra. -/
  spectra : ∀ id slot', s'.spectra.slot? id = some slot' → (derived id ∧ s'.FitInStep slot'.value) ∨
    ¬ derived id ∧ s'.config = s.config ∧ ∃ slot, s.spectra.slot? id = some slot ∧ SamePairs slot.value slot'.value

namespace FitEffect

variable {touches : Bool}

/-- Nothing is derived, and each spectrum that is there has been there with the same pairs. -/
theorem of_samePairs (hconfig : s'.config = s.config) (hrenews : Renews s s')
    (hcurves : touches = false → CurvesStay s s')
    (hspectra : ∀ id slot', s'.spectra.slot? id = some slot' →
      ∃ slot, s.spectra.slot? id = some slot ∧ SamePairs slot.value slot'.value) :
    FitEffect touches (fun _ => False) s s' :=
  ⟨hrenews, hcurves, fun id slot' hs' => .inr ⟨not_false, hconfig, hspectra id slot' hs'⟩⟩

/-- The spectra have not been touched. -/
theorem of_spectra (hconfig : s'.config = s.config) (hrenews : Renews s s')
    (hcurves : touches = false → CurvesStay s s') (hspectra : s'.spectra = s.spectra) :
    FitEffect touches (fun _ => False) s s' :=
  of_samePairs hconfig hrenews hcurves fun _ slot' hs' => ⟨slot', hspectra ▸ hs', .refl _⟩

/-- After some changes of one spectrum and of products its fit pairs are derived. -/
theorem of_refreshFit (hb : s₁.Balanced) (hmoved : s.matrices.All OnlyMoved) (hconfig : s₁.config = s.config)
    (hrenews : Renews s s₁) (hcurves : CurvesStay s s₁)
    (hothers : ∀ other ≠ id, s₁.spectra.slot? other = s.spectra.slot? other)
    (y : Yields (refreshFit id) s₁ (.ok ()) s') : FitEffect touches (· = id) s s' := by
  have h := y.refitted hb (hrenews.onlyMoved hmoved)
  refine ⟨IsTrans.trans _ _ _ hrenews h.renews, fun _ => IsTrans.trans _ _ _ hcurves h.curves, ?_⟩
  intro other slot' hs'
  by_cases hother : other = id
  · exact .inl ⟨hother, h.inStep slot' (hother ▸ hs')⟩
  · refine .inr ⟨hother, h.config.trans hconfig, slot', ?_, .refl _⟩
    rw [← hothers other hother, ← h.others other hother, hs']

/-- A spectrum is changed on its observed bins. -/
theorem withSpectrum {next : Spectrum α} (hs : s.spectra.slot? id = some slot)
    (hobserved : next.observed = slot.value.spectrum.observed) :
    FitEffect touches (fun _ => False) s (s.withSpectrum id slot next) := by
  refine of_samePairs rfl (.of_matrices rfl) (fun _ => .of_areas rfl) fun other slot' hs' => ?_
  rcases slot?_setSpectrum hs rfl hs' with ⟨rfl, hvalue⟩ | ⟨-, hs'⟩
  · exact ⟨slot, hs, by rw [hvalue]; exact ⟨rfl, rfl, hobserved⟩⟩
  · exact ⟨slot', hs', .refl _⟩

theorem regroup {g : Regrouping α} (y : Yields (g.perform id) s (.ok ()) s') :
    FitEffect touches (fun _ => False) s s' := by
  rw [g.perform_eq] at y
  obtain ⟨⟨⟩, s₁, y₁, y₂⟩ := y.of_bind_ok
  rcases y₁.of_updateSpectrum with ⟨_, hfault, -⟩ | ⟨slot, next, hs, hchange, -, rfl⟩
  · cases hfault
  have hchanged : FitEffect touches (fun _ => False) s (s.withSpectrum id slot next) :=
    withSpectrum hs (Regrouping.observed_of_change hchange)
  have hmoves := OnlyMoves.syncMatrices id _ _ _ y₂
  refine of_samePairs hmoves.config (IsTrans.trans _ _ _ hchanged.renews hmoves.renews)
    (fun _ => .of_areas hmoves.areas) fun other slot' hs' => ?_
  rw [hmoves.spectra] at hs'
  exact ((hchanged.spectra other slot' hs').resolve_left And.left).2.2

theorem addSpectrum {spectrum : Spectrum α} {newId : SpectrumId} (hb : s.Balanced)
    (hmoved : s.matrices.All OnlyMoved) (y : Yields (addSpectrum spectrum) s (.ok newId) s') :
    FitEffect touches (· = newId) s s' := by
  rcases y.of_addSpectrum with ⟨_, hfault, -⟩ | ⟨configured, newId, spectra, -, hinsert, y₁⟩
  · cases hfault
  obtain ⟨⟨⟩, s₁, y₂, y₃⟩ := y₁.of_bind_ok
  obtain ⟨hid, rfl⟩ := yields_pure.1 y₃
  cases hid
  obtain ⟨rfl, rfl⟩ := Prod.mk.inj hinsert
  have hb₁ := Held.insertSpectrum hb ⟨configured, [], []⟩ rfl true
  exact of_refreshFit hb₁ hmoved rfl (.of_matrices rfl) (.of_areas rfl)
    (fun other hother => Arena.slot?_insert_of_ne hother) y₂

theorem takeMatrix {m : ResponseMatrix α} {newId : MatrixId} (hm : m.OnlyMoved)
    (y : Yields (takeMatrix m) s (.ok newId) s') : FitEffect touches (fun _ => False) s s' := by
  have hrenews := Renews.of_takeMatrix hm y
  obtain ⟨-, rfl⟩ := y.of_insertMatrix
  exact of_spectra rfl hrenews (fun _ => .of_areas rfl) rfl

theorem rebinMatrix {matrixId : MatrixId} {target : Grid α} {threshold : α} {changed : Bool}
    (y : Yields (rebinMatrix matrixId target threshold) s (.ok changed) s') :
    FitEffect touches (fun _ => False) s s' := by
  have hmoves := OnlyMoves.rebinMatrix _ _ _ _ _ _ y
  exact of_spectra hmoves.config hmoves.renews (fun _ => .of_areas hmoves.areas) hmoves.spectra

theorem deleteSpectrum {spectrum : Spectrum α} (hb : s.Balanced)
    (y : Yields (deleteSpectrum id) s (.ok spectrum) s') : FitEffect touches (fun _ => False) s s' := by
  obtain ⟨-, hexchanges, hconfig, ⟨_, hfault⟩ | ⟨hspectra, -⟩⟩ := y.of_deleteSpectrum hb
  · cases hfault
  have hproducts := hexchanges ⟨[]⟩
  refine of_samePairs hconfig (.of_exchanges hproducts) (fun _ => .of_inherits hproducts.areas) ?_
  intro other slot' hs'
  rw [hspectra] at hs'
  exact ⟨slot', Arena.slot?_of_setSlot_none hs', .refl _⟩

theorem assign (hb : s.Balanced) (hmoved : s.matrices.All OnlyMoved) (y : Yields (assign id pair) s (.ok ()) s') :
    FitEffect touches (· = id) s s' := by
  obtain ⟨slot, mslot, s₁, s₂, -, -, hr, y₁, y₂⟩ := y.of_pairAssigned hb
  have hmoves := OnlyMoves.restoreShared _ _ _ _ y₁
  have hb₂ : s₂.Balanced := (Keeps.restoreShared _).balanced _ _ _ y₁ hr.balanced
  have hproducts := hr.exchanges ⟨[]⟩
  have hrenews : Renews s s₂ := IsTrans.trans _ _ _ (.of_exchanges hproducts) hmoves.renews
  have hcurves : CurvesStay s s₂ := .of_inherits (hmoves.areas ▸ hproducts.areas)
  refine of_refreshFit hb₂ hmoved (hmoves.config.trans hr.config) hrenews hcurves (fun other hother => ?_) y₂
  rw [hmoves.spectra, hr.spectra, Arena.slot?_setSlot_of_ne hother]

theorem unassign (hb : s.Balanced) (hmoved : s.matrices.All OnlyMoved) (y : Yields (unassign id) s (.ok ()) s') :
    FitEffect touches (· = id) s s' := by
  rcases y.of_unassign hb with ⟨_, hfault, -⟩ | ⟨slot, s₁, hr, y₁⟩
  · cases hfault
  have hproducts := hr.exchanges ⟨[]⟩
  refine of_refreshFit hr.balanced hmoved hr.config (.of_exchanges hproducts) (.of_inherits hproducts.areas)
    (fun other hother => ?_) y₁
  rw [hr.spectra, Arena.slot?_setSlot_of_ne hother]

/-- One spectrum after another takes over a configuration and derives its fit pairs. In the end those of all spectra
are in step that were to do so, or were in step before. -/
theorem reconfigure {config : Config α} {ids : List SpectrumId} (hb : s.Balanced)
    (hmoved : s.matrices.All OnlyMoved)
    (hstep : ∀ id slot, s.spectra.slot? id = some slot → id ∈ ids ∨ s.FitInStep slot.value)
    (y : Yields (ids.forM fun id => do
      Session.updateSpectrum id (·.configure config)
      Session.refreshFit id) s (.ok ()) s') :
    Renews s s' ∧ CurvesStay s s' ∧ ∀ id slot, s'.spectra.slot? id = some slot → s'.FitInStep slot.value := by
  induction ids generalizing s with
  | nil =>
    obtain ⟨-, rfl⟩ := yields_pure.1 y
    exact ⟨Std.Refl.refl _, Std.Refl.refl _, fun id slot hs => (hstep id slot hs).resolve_left List.not_mem_nil⟩
  | cons id ids ih =>
    obtain ⟨⟨⟩, s₁, y₁, y₂⟩ := Yields.of_bind_ok y
    obtain ⟨⟨⟩, s₂, y₃, y₄⟩ := y₁.of_bind_ok
    rcases y₃.of_updateSpectrum with ⟨_, hfault, -⟩ | ⟨slot, next, hs, hnext, -, rfl⟩
    · cases hfault
    have hobserved : next.observed = slot.value.spectrum.observed := by rw [Spectrum.eq_of_rebuild hnext]
    have hchanged : FitEffect false (fun _ => False) s (s.withSpectrum id slot next) := withSpectrum hs hobserved
    have hb₂ := (sameHoldings_withSpectrum hs next).held hb
    have hmoved₂ := hchanged.renews.onlyMoved hmoved
    have h := y₄.refitted hb₂ hmoved₂
    have hstep₁ : ∀ other slot', s₁.spectra.slot? other = some slot' → other ∈ ids ∨ s₁.FitInStep slot'.value := by
      intro other slot' hs'
      by_cases hother : other = id
      · exact .inr (h.inStep slot' (hother ▸ hs'))
      have hs₂ := (h.others other hother).symm.trans hs'
      obtain ⟨slot₀, hs₀, hsame⟩ := ((hchanged.spectra other slot' hs₂).resolve_left And.left).2.2
      refine (hstep other slot₀ hs₀).imp (fun hmem => (List.mem_cons.1 hmem).resolve_left hother) fun hthen => ?_
      exact h.inStep_of_ne hb₂ hmoved₂ hother hs' (hthen.congr hsame).withSpectrum
    obtain ⟨hrenews, hcurves, hall⟩ := ih h.balanced (h.renews.onlyMoved hmoved₂) hstep₁ y₂
    exact ⟨IsTrans.trans _ _ _ (IsTrans.trans _ _ _ hchanged.renews h.renews) hrenews,
      IsTrans.trans _ _ _ (IsTrans.trans _ _ _ (hchanged.curves rfl) h.curves) hcurves, hall⟩

/-- Once a configuration has been taken over, the fit pairs of all spectra are in step. -/
theorem setConfig {config : Config α} (hb : s.Balanced) (hmoved : s.matrices.All OnlyMoved)
    (y : Yields (setConfig config) s (.ok ()) s') : FitEffect touches (fun _ => True) s s' := by
  rcases y.of_lift_bind with ⟨_, -, hfault, -⟩ | ⟨strategy, -, y₁⟩
  · cases hfault
  obtain ⟨hrenews, hcurves, hall⟩ := reconfigure (s := { s with strategy, config, cache := .empty })
    ⟨hb.areas, hb.matrices⟩ hmoved (fun id slot hs => .inl (Arena.mem_ids_of_slot? hs)) y₁.of_modify_bind.of_get_bind
  exact ⟨⟨hrenews.issued, hrenews.origin⟩, fun _ => ⟨hcurves.issued, hcurves.origin⟩,
    fun id slot hs => .inl ⟨trivial, hall id slot hs⟩⟩

end FitEffect

end Session

end SpectralResponse
