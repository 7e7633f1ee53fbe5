import SpectralResponse.Proofs.Session.Freeing

/-!
# The grids of effective areas

A handle is never given out twice, so an effective area that is there under a handle was there before under the
same one, or is new. Its grid changes only when its arrays are replaced, and then the shared evaluation grid is
forgotten.

## What is proved

* `GridsStay` — effective areas keep their grids, and the shared grid is kept or forgotten. It holds of all
  operations but those that replace arrays, take over a configuration or work out a shared grid, also when they
  fail.
-/

namespace SpectralResponse.Session

variable {α β : Type} {s s' : Session α}

/-- An effective area that stays has the grid it had; the shared grid is kept, or it is forgotten. -/
structure GridsStay (s s' : Session α) : Prop where
  /-- Models are evaluated where they were. -/
  strategy : s'.strategy = s.strategy
  /-- No other shared grid is kept. -/
  cache : s'.cache = s.cache ∨ s'.cache = .empty
  /-- Handles are never taken back. -/
  issued : s.areas.slots.length ≤ s'.areas.slots.length
  /-- What is there under an old handle has been there with the same grid. -/
  origin : ∀ id slot', s'.areas.slot? id = some slot' → id.index < s.areas.slots.length →
    ∃ slot, s.areas.slot? id = some slot ∧ slot.value.grid = slot'.value.grid

instance : Std.Refl (GridsStay (α := α)) :=
  ⟨fun _ => ⟨rfl, .inl rfl, Nat.le_refl _, fun _ slot hs _ => ⟨slot, hs, rfl⟩⟩⟩

instance : IsTrans (Session α) GridsStay := ⟨fun s s₁ s' h h' => by
  refine ⟨h'.strategy.trans h.strategy, ?_, Nat.le_trans h.issued h'.issued, fun id slot' hs' hid => ?_⟩
  · rcases h'.cache with hsame | hempty
    · rw [hsame]
      exact h.cache
    · exact .inr hempty
  · obtain ⟨slot₁, hs₁, hgrid₁⟩ := h'.origin id slot' hs' (Nat.lt_of_lt_of_le hid h.issued)
    obtain ⟨slot, hs, hgrid⟩ := h.origin id slot₁ hs₁ hid
    exact ⟨slot, hs, hgrid.trans hgrid₁⟩⟩

namespace GridsStay

/-- Spectra and matrices do not concern the grids. -/
theorem of_areas (hstrategy : s'.strategy = s.strategy) (hcache : s'.cache = s.cache ∨ s'.cache = .empty)
    (hareas : s'.areas = s.areas) : GridsStay s s' :=
  ⟨hstrategy, hcache, Nat.le_of_eq (by rw [hareas]), fun _ slot hs _ => ⟨slot, by rw [← hareas, hs], rfl⟩⟩

/-- Nor do effective areas that come and go as they are. -/
theorem of_curvesStay (h : CurvesStay s s') (hstrategy : s'.strategy = s.strategy) (hcache : s'.cache = s.cache) :
    GridsStay s s' := by
  refine ⟨hstrategy, .inl hcache, h.issued, fun id slot' hs' hid => ?_⟩
  obtain ⟨slot, hs, hvalue⟩ := h.origin id slot' hs' hid
  exact ⟨slot, hs, congrArg EffectiveArea.grid hvalue⟩

theorem of_inherits {N : EffectiveArea α → Prop} (hareas : s.areas.Inherits Eq N s'.areas)
    (hstrategy : s'.strategy = s.strategy) (hcache : s'.cache = s.cache) : GridsStay s s' :=
  of_curvesStay (.of_inherits hareas) hstrategy hcache

/-! ### Slots and spectra -/

theorem putRecord (id : SpectrumId) (r : SpectrumRecord α) : Keeps GridsStay (putRecord id r) := by
  intro s answer s' y
  rcases y.of_putRecord with ⟨_, -, -, rfl⟩ | ⟨_, -, -, rfl⟩
  · exact Std.Refl.refl _
  · exact of_areas rfl (.inl rfl) rfl

theorem putMatrix (id : MatrixId) (m : ResponseMatrix α) : Keeps GridsStay (putMatrix id m) := by
  intro s answer s' y
  rcases y.of_putMatrix with ⟨_, -, -, rfl⟩ | ⟨_, -, -, rfl⟩
  · exact Std.Refl.refl _
  · exact of_areas rfl (.inl rfl) rfl

theorem insertSpectrum (spectrum : Spectrum α) : Keeps GridsStay (insertSpectrum spectrum) := by
  intro s answer s' y
  rw [y.of_insertSpectrum.2]
  exact of_areas rfl (.inl rfl) rfl

theorem insertMatrix (m : ResponseMatrix α) (retained : Bool) : Keeps GridsStay (insertMatrix m retained) := by
  intro s answer s' y
  rw [y.of_insertMatrix.2]
  exact of_areas rfl (.inl rfl) rfl

theorem insertArea (curve : EffectiveArea α) (retained : Bool) : Keeps GridsStay (insertArea curve retained) := by
  intro s answer s' y
  have hstay := CurvesStay.insertArea _ _ _ _ _ y
  rw [y.of_insertArea.2] at hstay ⊢
  exact of_curvesStay hstay rfl rfl

theorem forgetGrid : Keeps GridsStay (forgetGrid (α := α)) := .modify fun _ => of_areas rfl (.inr rfl) rfl

theorem compact : Keeps GridsStay (compact (α := α)) := by
  intro s answer s' y
  rw [y.of_compact.2]
  exact of_inherits (N := fun _ => True) (.compact _) rfl rfl

theorem acquirePair (pair : ResponsePair) : Keeps GridsStay (acquirePair (α := α) pair) := by
  intro s answer s' y
  obtain ⟨_, _, rfl, hareas, -⟩ := y.of_acquirePair (N := fun _ => True) (M := fun _ => True)
  exact of_inherits hareas rfl rfl

theorem releasePair (pair : ResponsePair) : Keeps GridsStay (releasePair (α := α) pair) := by
  intro s answer s' y
  obtain ⟨_, _, rfl, hareas, -⟩ := y.of_releasePair (N := fun _ => True) (M := fun _ => True)
  exact of_inherits hareas rfl rfl

theorem changeSpectrum (id : SpectrumId) (change : Spectrum α → Except (Fault α) (Spectrum α × β)) :
    Keeps GridsStay (changeSpectrum id change) := by
  intro s answer s' y
  rcases y.of_changeSpectrum with ⟨_, -, rfl, -⟩ | ⟨_, _, _, -, -, -, rfl⟩
  · exact Std.Refl.refl _
  · exact of_areas rfl (.inl rfl) rfl

theorem updateSpectrum (id : SpectrumId) (change : Spectrum α → Except (Fault α) (Spectrum α)) :
    Keeps GridsStay (updateSpectrum id change) := changeSpectrum id _

theorem deleteSpectrum (id : SpectrumId) : Keeps GridsStay (deleteSpectrum (α := α) id) := by
  refine .bind (.record _) fun _ => .bind (putRecord _ _) fun _ => .bind (.forM fun _ _ => releasePair _) fun _ =>
    .bind (.forM fun _ _ => releasePair _) fun _ => ?_
  refine .bind .get fun s => .bind (.lift_slot _) fun (_, _) => .bind (.modify fun _ => ?_) fun _ =>
    .bind compact fun _ => .bind forgetGrid fun _ => .pure _
  exact of_areas rfl (.inl rfl) rfl

/-! ### Products -/

theorem deleteArea (id : AreaId) : Keeps GridsStay (deleteArea (α := α) id) := by
  intro s answer s' y
  have hstay := CurvesStay.deleteArea id _ _ _ y
  rcases y.of_deleteArea with ⟨_, -, rfl⟩ | ⟨_, _, -, -, rfl⟩
  · exact Std.Refl.refl _
  · exact of_curvesStay hstay rfl rfl

theorem deleteMatrix (id : MatrixId) : Keeps GridsStay (deleteMatrix (α := α) id) := by
  intro s answer s' y
  rcases y.of_deleteMatrix with ⟨_, -, rfl⟩ | ⟨_, _, -, -, rfl⟩
  · exact Std.Refl.refl _
  · exact of_areas rfl (.inl rfl) rfl

/-- A slot in which an effective area with the same grid is put. -/
theorem of_setSlot {id : AreaId} {slot slot' : Slot (EffectiveArea α)} (hs : s.areas.slot? id = some slot)
    (hgrid : slot'.value.grid = slot.value.grid) :
    GridsStay s { s with areas := s.areas.setSlot id (some slot') } := by
  refine ⟨rfl, .inl rfl, Nat.le_of_eq (Arena.slots_length_setSlot _).symm, fun other found hfound _ => ?_⟩
  rcases Arena.slot?_setSlot_cases hs hfound with ⟨rfl, rfl⟩ | ⟨-, hfound⟩
  · exact ⟨slot, hs, hgrid.symm⟩
  · exact ⟨found, hfound, rfl⟩

theorem releaseArea (id : AreaId) : Keeps GridsStay (releaseArea (α := α) id) := by
  intro s answer s' y
  have hstay := CurvesStay.releaseArea id _ _ _ y
  rcases y.of_releaseArea with ⟨_, -, rfl⟩ | ⟨_, -, -, rfl⟩
  · exact Std.Refl.refl _
  · exact of_curvesStay hstay rfl rfl

theorem releaseMatrix (id : MatrixId) : Keeps GridsStay (releaseMatrix (α := α) id) := by
  intro s answer s' y
  rcases y.of_releaseMatrix with ⟨_, -, rfl⟩ | ⟨_, -, -, rfl⟩
  · exact Std.Refl.refl _
  · exact of_inherits (N := fun _ => True) (.compact _) rfl rfl

variable [Scalar α]

/-- Another exposure time leaves the grid. -/
theorem setExposure (id : AreaId) (exposure : α) : Keeps GridsStay (setExposure id exposure) := by
  intro s answer s' y
  rcases y.of_setExposure with rfl | ⟨slot, curve, hs, hcurve, rfl⟩
  · exact Std.Refl.refl _
  obtain ⟨⟨⟩, -, hcurve⟩ := Except.bind_eq_ok.1 hcurve
  exact of_setSlot hs (by rw [← Except.ok.inj hcurve])

theorem moveChannels (id : MatrixId) (target : Grid α) (threshold : α) :
    Keeps GridsStay (moveChannels id target threshold) :=
  .bind (.matrix _) fun _ => .bind (putMatrix _ _) fun _ => .lift _

theorem syncMatrices (id : SpectrumId) : Keeps GridsStay (syncMatrices (α := α) id) :=
  .syncMatrices_of moveChannels forgetGrid id

/-! ### Spectra and their pairs -/

theorem fitPairs (observed : Grid α) (assigned : List ResponsePair) :
    Keeps GridsStay (fitPairs observed assigned) :=
  (Bred.fitPairs assigned).mono fun s s' h => by
    refine of_inherits h.areas.inherits ?_ ?_
    · rw [h.rest]
    · rw [h.rest]

theorem refreshFit (id : SpectrumId) : Keeps GridsStay (refreshFit (α := α) id) :=
  .bind (.record _) fun _ => .bind (fitPairs _ _) fun _ => .bind (.forM fun _ _ => acquirePair _) fun _ =>
    .bind (.record _) fun _ => .bind (putRecord _ _) fun _ => .bind (.forM fun _ _ => releasePair _) fun _ =>
      .bind compact fun _ => .bind forgetGrid fun _ => syncMatrices _

theorem addSpectrum (spectrum : Spectrum α) : Keeps GridsStay (addSpectrum spectrum) :=
  .bind .get fun _ => .bind (.lift _) fun _ => .bind (insertSpectrum _) fun _ => .bind (refreshFit _) fun _ =>
    .pure _

theorem assign (id : SpectrumId) (pair : ResponsePair) : Keeps GridsStay (assign (α := α) id pair) :=
  .bind (.area _) fun _ => .bind (.matrix _) fun _ => .bind (reads_spectrum _).keeps fun _ => .bind .get fun _ =>
    .bind (.noted _) fun _ => .bind (acquirePair _) fun _ => .bind (.record _) fun _ =>
      .bind (putRecord _ _) fun _ => .bind (.restoreShared_of moveChannels forgetGrid _) fun _ => refreshFit _

theorem unassign (id : SpectrumId) : Keeps GridsStay (unassign (α := α) id) :=
  .bind (.record _) fun _ => .bind (putRecord _ _) fun _ => .bind (.forM fun _ _ => releasePair _) fun _ =>
    refreshFit _

end GridsStay

/-! ### All operations -/

variable [Scalar α]

/-- The operation may replace the grid of an effective area, or the shared grid. -/
def Operation.movesGrids : Operation α → Bool
  | .setConfig _ | .updateArea _ _ | .predictedCounts _ _ | .fitArrays _ _ | .evaluateStatistic _ _ _ => true
  | _ => false

/-- All other operations leave the grids. -/
theorem gridsStay_perform (operation : Operation α) (h : operation.movesGrids = false) :
    Keeps GridsStay operation.perform := by
  cases operation with
  | loadArea file =>
    exact .bind (.bind .get fun _ => .bind (.lift _) fun _ => GridsStay.insertArea _ _) fun _ => .pure _
  | addArea curve => exact .bind (GridsStay.insertArea _ _) fun _ => .pure _
  | setExposure id exposure => exact .bind (GridsStay.setExposure id exposure) fun _ => .pure _
  | deleteArea id => exact .bind (GridsStay.deleteArea id) fun _ => .pure _
  | releaseArea id => exact .bind (GridsStay.releaseArea id) fun _ => .pure _
  | loadMatrix file => exact .bind (.bind (.noted _) fun _ => GridsStay.insertMatrix _ _) fun _ => .pure _
  | takeMatrix m => exact .bind (GridsStay.insertMatrix _ _) fun _ => .pure _
  | deleteMatrix id => exact .bind (GridsStay.deleteMatrix id) fun _ => .pure _
  | releaseMatrix id => exact .bind (GridsStay.releaseMatrix id) fun _ => .pure _
  | rebinMatrix id target threshold =>
    exact .bind (.rebinMatrix_of GridsStay.moveChannels id target threshold) fun _ => .pure _
  | loadSpectrum file => exact .bind (.bind (.noted _) fun _ => GridsStay.addSpectrum _) fun _ => .pure _
  | addSpectrum spectrum => exact .bind (GridsStay.addSpectrum spectrum) fun _ => .pure _
  | deleteSpectrum id => exact .bind (GridsStay.deleteSpectrum id) fun _ => .pure _
  | assign id pair => exact .bind (GridsStay.assign id pair) fun _ => .pure _
  | unassign id => exact .bind (GridsStay.unassign id) fun _ => .pure _
  | setKernel id kernel => exact .bind (GridsStay.updateSpectrum id _) fun _ => .pure _
  | setBackground id background => exact .bind (GridsStay.updateSpectrum id _) fun _ => .pure _
  | setSysFractions id fractions => exact .bind (GridsStay.updateSpectrum id _) fun _ => .pure _
  | setRange id lo hi unit noticed => exact .bind (GridsStay.changeSpectrum id _) fun _ => .pure _
  | noticeAll id => exact .bind (GridsStay.updateSpectrum id _) fun _ => .pure _
  | ignoreAll id => exact .bind (GridsStay.updateSpectrum id _) fun _ => .pure _
  | rebinSpectrum id mask =>
    exact .bind (.bind (GridsStay.updateSpectrum id _) fun _ => GridsStay.syncMatrices id) fun _ => .pure _
  | groupToCount id threshold =>
    exact .bind (.bind (GridsStay.updateSpectrum id _) fun _ => GridsStay.syncMatrices id) fun _ => .pure _
  | unbin id =>
    exact .bind (.bind (GridsStay.updateSpectrum id _) fun _ => GridsStay.syncMatrices id) fun _ => .pure _
  | noticedModelBins id => exact .bind (reads_noticedModelBins id).keeps fun _ => .pure _
  | fluxCorrect id => exact .bind (reads_fluxCorrect id).keeps fun _ => .pure _
  | compact => exact .bind GridsStay.compact fun _ => .pure _
  | showArea id => exact .bind (.area id) fun _ => .pure _
  | showMatrix id => exact .bind (.matrix id) fun _ => .pure _
  | showSpectrum id => exact .bind (reads_spectrum id).keeps fun _ => .pure _
  | _ => cases h

end SpectralResponse.Session
