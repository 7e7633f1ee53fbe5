import SpectralResponse.Fault.Diagnostic
import SpectralResponse.Proofs.Session.KeptGrid
import SpectralResponse.Proofs.Session.Lifetimes
import SpectralResponse.Proofs.Session.Regroup
import SpectralResponse.Proofs.Session.Sharing

/-!
# Products that are shared

Effective areas and matrices may be named by several spectra. A matrix that two spectra name is not moved to other
channels, and a product that any spectrum names is not given away. Both are told from the spectra or from the count
of users, which agree after every run. The arrays and the exposure time of an effective area are replaced without
such a test, whoever names it.

What an operation on products leaves alone is said by `Changes`: the spectra stay, models are evaluated where they
were, and a product that stays keeps its value, apart from the one that the operation is about. Predictions are made
of these, so they can differ only for spectra whose fit pairs name that product.

## What is proved

* `refuses_rebinMatrix`, `refuses_deleteArea`, `refuses_deleteMatrix` — the operations that test who names a product.
* `changesOnly_perform` — what an operation on products leaves alone, whether it succeeds or fails.
* `concerns_one_or_unchanged` — an operation that replaces no effective area has one spectrum to do with at most.
* `sharing_protects_all_but_replaced_areas` — the refusals, the replacement that is not refused, and what each
  operation on products can do to predictions.
-/

namespace SpectralResponse.Session

variable {α : Type} {s s' : Session α}

/-! ### Names -/

/-- An assigned pair or a fit pair of the spectrum names the effective area. -/
def NamesArea (s : Session α) (id : SpectrumId) (areaId : AreaId) : Prop :=
  ∃ slot, s.spectra.slot? id = some slot ∧ ∃ pair ∈ slot.value.assigned ++ slot.value.fit, pair.area = areaId

/-- An assigned pair or a fit pair of the spectrum names the matrix. -/
def NamesMatrix (s : Session α) (id : SpectrumId) (matrixId : MatrixId) : Prop :=
  ∃ slot, s.spectra.slot? id = some slot ∧ ∃ pair ∈ slot.value.assigned ++ slot.value.fit, pair.matrix = matrixId

instance {id : SpectrumId} {areaId : AreaId} : Decidable (s.NamesArea id areaId) :=
  decidable_of_iff (∃ slot ∈ s.spectra.slot? id, ∃ pair ∈ slot.value.assigned ++ slot.value.fit, pair.area = areaId)
    .rfl

instance {id : SpectrumId} {matrixId : MatrixId} : Decidable (s.NamesMatrix id matrixId) :=
  decidable_of_iff
    (∃ slot ∈ s.spectra.slot? id, ∃ pair ∈ slot.value.assigned ++ slot.value.fit, pair.matrix = matrixId) .rfl

/-- An effective area that a spectrum names has users. -/
theorem NamesArea.exists_used {id : SpectrumId} {areaId : AreaId} (hb : s.Balanced) (h : s.NamesArea id areaId) :
    ∃ slot, s.areas.slot? areaId = some slot ∧ 0 < slot.inUse := by
  obtain ⟨slot, hs, pair, hpair, rfl⟩ := h
  exact hb.areas.exists_used (List.mem_map_of_mem (List.mem_append_left _ (mem_pairs_of_slot? hs hpair)))

/-- So has a matrix. -/
theorem NamesMatrix.exists_used {id : SpectrumId} {matrixId : MatrixId} (hb : s.Balanced)
    (h : s.NamesMatrix id matrixId) : ∃ slot, s.matrices.slot? matrixId = some slot ∧ 0 < slot.inUse := by
  obtain ⟨slot, hs, pair, hpair, rfl⟩ := h
  exact hb.matrices.exists_used (List.mem_map_of_mem (List.mem_append_left _ (mem_pairs_of_slot? hs hpair)))

/-- A matrix that two spectra name is counted as shared. -/
theorem NamesMatrix.one_lt_sharers {first second : SpectrumId} {matrixId : MatrixId} (hne : first ≠ second)
    (h : s.NamesMatrix first matrixId) (h' : s.NamesMatrix second matrixId) : 1 < s.sharers matrixId := by
  obtain ⟨slot, hs, pair, hpair, rfl⟩ := h
  obtain ⟨slot', hs', pair', hpair', hsame⟩ := h'
  by_contra hfew
  have honly := onlyNamedBy_of_sharers hs (List.mem_map_of_mem hpair) hfew
  exact hne (honly second slot' hs' (List.mem_map.2 ⟨pair', hpair', hsame⟩)).symm

/-! ### Changes of products -/

/-- Spectra stay, and models are evaluated where they were. Of the products that are there before and afterwards, at
most one effective area and one matrix have another value. -/
structure Changes (area : Option AreaId) (matrix : Option MatrixId) (s s' : Session α) : Prop where
  /-- The spectra. -/
  spectra : s'.spectra = s.spectra
  /-- Where models are evaluated. -/
  strategy : s'.strategy = s.strategy
  /-- The effective areas that were there. -/
  areas : ∀ id, s.areas.contains id = true → s'.areas.contains id = true → area ≠ some id →
    s'.areas.get id = s.areas.get id
  /-- The matrices that were there. -/
  matrices : ∀ id, s.matrices.contains id = true → s'.matrices.contains id = true → matrix ≠ some id →
    s'.matrices.get id = s.matrices.get id

namespace Changes

variable {area : Option AreaId} {matrix : Option MatrixId}

theorem refl (s : Session α) : Changes area matrix s s := ⟨rfl, rfl, fun _ _ _ _ => rfl, fun _ _ _ _ => rfl⟩

/-- Products that come, go or stay as they are do not count. -/
theorem of_frees (hfrees : OnlyFrees s s') (hcurves : CurvesStay s s') (hstrategy : s'.strategy = s.strategy) :
    Changes area matrix s s' :=
  ⟨hfrees.spectra, hstrategy, fun _ hbefore hafter _ => hcurves.get_eq hbefore hafter,
    fun id _ hafter _ => Arena.get_eq_of_origin hafter (hfrees.matrices id)⟩

/-- A new matrix does not count. -/
theorem of_insertMatrix (m : ResponseMatrix α) (retained : Bool) :
    Changes area matrix s { s with matrices := (s.matrices.insert m retained).2 } := by
  refine ⟨rfl, rfl, fun _ _ _ _ => rfl, fun id hbefore hafter _ => ?_⟩
  refine Arena.get_eq_of_origin hafter fun slot' hs' => ?_
  rcases Arena.slot?_insert_cases hs' with ⟨rfl, -⟩ | ⟨-, hs⟩
  · obtain ⟨slot, hs⟩ := Arena.contains_iff.1 hbefore
    exact absurd (Arena.index_lt_of_slot? hs) (Nat.lt_irrefl _)
  · exact ⟨slot', hs, rfl⟩

/-- Another effective area in a slot is the only one that changes. -/
theorem of_setArea {areaId : AreaId} {slot : Slot (EffectiveArea α)} (hs : s.areas.slot? areaId = some slot)
    (curve : EffectiveArea α) (cache : EvaluationCache α) :
    Changes (some areaId) matrix s
      { s with areas := s.areas.setSlot areaId (some { slot with value := curve }), cache } := by
  refine ⟨rfl, rfl, fun id _ hafter hother => ?_, fun _ _ _ _ => rfl⟩
  refine Arena.get_eq_of_origin hafter fun slot' hs' => ?_
  rcases Arena.slot?_setSlot_cases hs hs' with ⟨rfl, -⟩ | ⟨-, hbefore⟩
  · exact absurd rfl hother
  · exact ⟨slot', hbefore, rfl⟩

/-- So is another matrix. -/
theorem of_withMatrix {matrixId : MatrixId} {slot : Slot (ResponseMatrix α)}
    (hs : s.matrices.slot? matrixId = some slot) (m : ResponseMatrix α) (changed : Bool) :
    Changes area (some matrixId) s (s.withMatrix matrixId slot m changed) := by
  refine ⟨rfl, rfl, fun _ _ _ _ => rfl, fun id _ hafter hother => ?_⟩
  refine Arena.get_eq_of_origin hafter fun slot' hs' => ?_
  rcases slot?_withMatrix hs m changed hs' with ⟨rfl, -⟩ | ⟨-, hbefore⟩
  · exact absurd rfl hother
  · exact ⟨slot', hbefore, rfl⟩

end Changes

/-! ### Operations on products -/

/-- The operation concerns effective areas or matrices as such. -/
def Operation.onProducts : Operation α → Bool
  | .loadArea _ | .addArea _ | .updateArea _ _ | .setExposure _ _ | .deleteArea _ | .releaseArea _ | .loadMatrix _
  | .takeMatrix _ | .deleteMatrix _ | .releaseMatrix _ | .rebinMatrix _ _ _ | .compact => true
  | _ => false

/-- The effective area whose arrays or exposure time the operation replaces. -/
def Operation.replacedArea? : Operation α → Option AreaId
  | .updateArea id _ | .setExposure id _ => some id
  | _ => none

/-- The matrix that the operation moves to other channels. -/
def Operation.movedMatrix? : Operation α → Option MatrixId
  | .rebinMatrix id _ _ => some id
  | _ => none

/-- A fit pair of the spectrum names the product that the operation replaces or moves. -/
def Concerns (s : Session α) (operation : Operation α) (id : SpectrumId) : Prop :=
  ∃ slot, s.spectra.slot? id = some slot ∧ ∃ pair ∈ slot.value.fit,
    operation.replacedArea? = some pair.area ∨ operation.movedMatrix? = some pair.matrix

instance {operation : Operation α} {id : SpectrumId} : Decidable (s.Concerns operation id) :=
  decidable_of_iff (∃ slot ∈ s.spectra.slot? id, ∃ pair ∈ slot.value.fit,
    operation.replacedArea? = some pair.area ∨ operation.movedMatrix? = some pair.matrix) .rfl

/-- The values of all products but the one that the operation replaces or moves stay. -/
abbrev ChangesOnly (operation : Operation α) : Session α → Session α → Prop :=
  Changes operation.replacedArea? operation.movedMatrix?

/-- A spectrum that is concerned by an operation which replaces no effective area names the matrix that it moves. -/
theorem Concerns.namesMatrix {operation : Operation α} {id : SpectrumId} (h : s.Concerns operation id)
    (hnone : operation.replacedArea? = none) :
    ∃ matrixId, operation.movedMatrix? = some matrixId ∧ s.NamesMatrix id matrixId := by
  obtain ⟨slot, hs, pair, hpair, harea | hmatrix⟩ := h
  · cases hnone.symm.trans harea
  · exact ⟨_, hmatrix, slot, hs, pair, List.mem_append_right _ hpair, rfl⟩

variable [Scalar α]

/-! ### Refusals -/

/-- The operation answers that a shared resource is in use, and changes nothing. -/
def Refuses (s : Session α) (operation : Operation α) : Prop :=
  ∃ fault, (run operation.perform s).1 = (.error fault, s) ∧ fault.diagnostic.category = .sharedResourceInUse

theorem Refuses.of_yields {operation : Operation α}
    (h : ∀ answer s', Yields operation.perform s answer s' →
      s' = s ∧ ∃ fault, answer = .error fault ∧ fault.diagnostic.category = .sharedResourceInUse) :
    s.Refuses operation := by
  obtain ⟨hs, fault, hanswer, hcategory⟩ := h _ _ (.of_run rfl)
  exact ⟨fault, Prod.ext hanswer hs, hcategory⟩

/-- An effective area with users is not given away. -/
theorem refuses_deleteArea {areaId : AreaId} {slot : Slot (EffectiveArea α)}
    (hs : s.areas.slot? areaId = some slot) (hused : 0 < slot.inUse) : s.Refuses (.deleteArea areaId) := by
  refine .of_yields fun answer s' y => ?_
  obtain ⟨first, y₁, rfl⟩ := y.of_bind_return
  obtain ⟨rfl, rfl⟩ := y₁.of_get_bind.of_slot_error_bind (Arena.remove_eq_error hs hused)
  exact ⟨rfl, _, rfl, rfl⟩

/-- Nor is a matrix. -/
theorem refuses_deleteMatrix {matrixId : MatrixId} {slot : Slot (ResponseMatrix α)}
    (hs : s.matrices.slot? matrixId = some slot) (hused : 0 < slot.inUse) : s.Refuses (.deleteMatrix matrixId) := by
  refine .of_yields fun answer s' y => ?_
  obtain ⟨first, y₁, rfl⟩ := y.of_bind_return
  obtain ⟨rfl, rfl⟩ := y₁.of_get_bind.of_slot_error_bind (Arena.remove_eq_error hs hused)
  exact ⟨rfl, _, rfl, rfl⟩

theorem refuses_rebinMatrix {matrixId : MatrixId} (hshared : 1 < s.sharers matrixId) (target : Grid α)
    (threshold : α) : s.Refuses (.rebinMatrix matrixId target threshold) := by
  refine .of_yields fun answer s' y => ?_
  obtain ⟨first, y₁, rfl⟩ := y.of_bind_return
  rcases y₁.of_rebinMatrix with ⟨-, rfl, rfl⟩ | ⟨hfew, -⟩
  · exact ⟨rfl, _, rfl, rfl⟩
  · exact absurd hshared hfew

/-! ### Replacing the values of an effective area -/

/-- Whoever names it, a live effective area is asked for what replaces it, and stored as it answers. -/
theorem Yields.replaces {areaId : AreaId} {curve : EffectiveArea α} {update : AreaUpdate α}
    {answer : Except (Fault α) (Answer α)} (hcurve : s.areas.get areaId = .ok curve)
    (y : Yields (Operation.updateArea areaId update).perform s answer s') :
    ∃ result, (curve.put update s.config.gridMatchTolerance s.config.defaultUncertainty).Answers result ∧
      answer = result.map (fun replaced => .report replaced.2) ∧
      (∀ replaced, result = .ok replaced → s'.areas.get areaId = .ok replaced.1) ∧
      ∀ fault, result = .error fault → s' = s := by
  obtain ⟨slot, hs, rfl⟩ := Arena.get_eq_ok_iff.1 hcurve
  obtain ⟨first, y₁, rfl⟩ := y.of_bind_return
  rcases y₁.of_updateArea with ⟨hnone, -⟩ | ⟨slot', result, hs', hput, rfl, hafter⟩
  · cases hs.symm.trans hnone
  cases hs.symm.trans hs'
  rcases hafter with ⟨fault, rfl, rfl⟩ | ⟨replacement, report, rfl, rfl⟩
  · exact ⟨_, hput, rfl, fun _ hok => (nomatch hok), fun _ _ => rfl⟩
  · refine ⟨_, hput, rfl, fun replaced hok => ?_, fun _ hfault => (nomatch hfault)⟩
    cases hok
    exact Arena.get_eq_ok_iff.2 ⟨_, Arena.slot?_setSlot_self hs _, rfl⟩

/-! ### What operations on products leave alone -/

theorem changesOnly_rebinMatrix (matrixId : MatrixId) (target : Grid α) (threshold : α) :
    Keeps (ChangesOnly (.rebinMatrix matrixId target threshold)) (rebinMatrix matrixId target threshold) := by
  intro s answer s' y
  rcases y.of_rebinMatrix with ⟨-, -, rfl⟩ | ⟨-, y₁⟩
  · exact .refl _
  cases hs : s.matrices.slot? matrixId with
  | none =>
    rcases y₁.of_matrix_bind with ⟨_, -, -, rfl⟩ | ⟨slot, hlive, -⟩
    · exact .refl _
    · cases hs.symm.trans hlive
  | some slot =>
    rcases y₁.of_moveChannels hs with ⟨_, -, -, rfl⟩ | ⟨_, moved, -, -, rfl⟩
    · exact .refl _
    · exact .of_withMatrix hs moved false

/-- Whether it succeeds or fails, an operation on products leaves the values of all products but the one that it
replaces or moves. -/
theorem changesOnly_perform (operation : Operation α) (h : operation.onProducts = true) :
    Keeps (ChangesOnly operation) operation.perform := by
  intro s answer s' y
  cases operation with
  | loadArea _ | addArea _ | deleteArea _ | releaseArea _ | deleteMatrix _ | releaseMatrix _ | compact =>
    exact .of_frees (onlyFrees_perform _ rfl _ _ _ y) (curvesStay_perform _ rfl rfl _ _ _ y)
      (gridsStay_perform _ rfl _ _ _ y).strategy
  | updateArea areaId update =>
    obtain ⟨_, y₁, -⟩ := y.of_bind_return
    rcases y₁.of_updateArea with ⟨-, rfl⟩ | ⟨slot, _, hs, -, -, ⟨_, -, rfl⟩ | ⟨curve, _, -, rfl⟩⟩
    · exact .refl _
    · exact .refl _
    · exact .of_setArea hs curve .empty
  | setExposure areaId exposure =>
    obtain ⟨_, y₁, -⟩ := y.of_bind_return
    rcases y₁.of_setExposure with rfl | ⟨slot, curve, hs, -, rfl⟩
    · exact .refl _
    · exact .of_setArea hs curve s.cache
  | loadMatrix file =>
    obtain ⟨_, y₁, -⟩ := y.of_bind_return
    rcases y₁.of_bind with ⟨_, z, -⟩ | ⟨m, s₁, z, y₂⟩
    · obtain ⟨rfl, -⟩ := z.of_noted
      exact .refl _
    · obtain ⟨rfl, -⟩ := z.of_noted
      rw [y₂.of_insertMatrix.2]
      exact .of_insertMatrix _ true
  | takeMatrix m =>
    obtain ⟨_, y₁, -⟩ := y.of_bind_return
    rw [y₁.of_insertMatrix.2]
    exact .of_insertMatrix m true
  | rebinMatrix matrixId target threshold =>
    obtain ⟨_, y₁, -⟩ := y.of_bind_return
    exact changesOnly_rebinMatrix matrixId target threshold _ _ _ y₁
  | _ => cases h

/-- An operation that replaces no effective area concerns one spectrum at most, or changes nothing. -/
theorem concerns_one_or_unchanged {operation : Operation α} {answer : Except (Fault α) (Answer α)}
    (hnone : operation.replacedArea? = none) (y : Yields operation.perform s answer s') :
    (∀ first second, s.Concerns operation first → s.Concerns operation second → first = second) ∨ s' = s := by
  by_contra hneither
  push Not at hneither
  obtain ⟨⟨first, second, hfirst, hsecond, hne⟩, hchanged⟩ := hneither
  obtain ⟨matrixId, hmoves, hnames⟩ := hfirst.namesMatrix hnone
  obtain ⟨other, hmoves', hnames'⟩ := hsecond.namesMatrix hnone
  cases hmoves.symm.trans hmoves'
  cases operation with
  | rebinMatrix id target threshold =>
    cases hmoves
    obtain ⟨_, y₁, -⟩ := y.of_bind_return
    rcases y₁.of_rebinMatrix with ⟨-, -, hsame⟩ | ⟨hfew, -⟩
    · exact hchanged hsame
    · exact hfew (hnames.one_lt_sharers hne hnames')
  | _ => cases hmoves

/-! ### Predictions -/

/-- The same counts are predicted for the spectra from every model, or predictions fail alike. -/
def SamePredictions (ids : List SpectrumId) (s s' : Session α) : Prop :=
  ∀ model, answerTo (predictedCounts ids model) s' = answerTo (predictedCounts ids model) s

/-- Predictions stay the same for spectra that the operation does not concern. -/
theorem ChangesOnly.samePredictions {operation : Operation α} (h : ChangesOnly operation s s') (hb : s.Balanced)
    (hb' : s'.Balanced) (hc : s.CacheSound) (hc' : s'.CacheSound) {ids : List SpectrumId}
    (hids : ∀ id ∈ ids, ¬s.Concerns operation id) : SamePredictions ids s s' := by
  intro model
  refine answerTo_predictedCounts_of_stays h.spectra h.strategy hc hc' fun id hid slot hs pair hpair => ?_
  have hmem : pair ∈ slot.value.pairs := List.mem_append_right _ hpair
  have hbefore := hb.hasPairs hs pair hmem
  have hafter := hb'.hasPairs (h.spectra ▸ hs) pair hmem
  have harea : operation.replacedArea? ≠ some pair.area := fun harea =>
    hids id hid ⟨slot, hs, pair, hpair, .inl harea⟩
  have hmatrix : operation.movedMatrix? ≠ some pair.matrix := fun hmatrix =>
    hids id hid ⟨slot, hs, pair, hpair, .inr hmatrix⟩
  exact ⟨h.areas _ hbefore.1 hafter.1 harea, h.matrices _ hbefore.2 hafter.2 hmatrix⟩

/-- An operation that concerns at most one spectrum has no effect on predictions for the others. -/
theorem exists_touched {operation : Operation α}
    (hsame : ∀ ids, (∀ id ∈ ids, ¬s.Concerns operation id) → SamePredictions ids s s')
    (hone : ∀ first second, s.Concerns operation first → s.Concerns operation second → first = second) :
    ∃ touched, ∀ ids, touched ∉ ids → SamePredictions ids s s' := by
  by_cases hany : ∃ id, s.Concerns operation id
  · obtain ⟨touched, htouched⟩ := hany
    refine ⟨touched, fun ids hout => hsame ids fun id hid hconcerned => hout ?_⟩
    rwa [hone _ _ htouched hconcerned]
  · exact ⟨⟨0⟩, fun ids _ => hsame ids fun id _ hconcerned => hany ⟨id, hconcerned⟩⟩

/-- After any run, failed operations included: a matrix that two spectra name is not moved, and a product that any
spectrum names is not given away; the request is refused and nothing changes. The arrays of a live effective area are
replaced as if no spectrum named it. So an operation on products leaves predictions for two spectra at once as they
were, unless it replaces an effective area that the fits of both use. -/
theorem sharing_protects_all_but_replaced_areas {history : List (Event α)} (h : Run history s) :
    (∀ matrixId first second, first ≠ second → s.NamesMatrix first matrixId → s.NamesMatrix second matrixId →
      ∀ target threshold, s.Refuses (.rebinMatrix matrixId target threshold)) ∧
    (∀ id areaId, s.NamesArea id areaId → s.Refuses (.deleteArea areaId)) ∧
    (∀ id matrixId, s.NamesMatrix id matrixId → s.Refuses (.deleteMatrix matrixId)) ∧
    (∀ areaId curve, s.areas.get areaId = .ok curve → ∀ update answer s',
      Yields (Operation.updateArea areaId update).perform s answer s' → ∃ result,
        (curve.put update s.config.gridMatchTolerance s.config.defaultUncertainty).Answers result ∧
        answer = result.map (fun replaced => .report replaced.2) ∧
        (∀ replaced, result = .ok replaced → s'.areas.get areaId = .ok replaced.1) ∧
        ∀ fault, result = .error fault → s' = s) ∧
    ∀ operation, operation.onProducts = true → ∀ answer s', Yields operation.perform s answer s' →
      (∀ ids, (∀ id ∈ ids, ¬s.Concerns operation id) → SamePredictions ids s s') ∧
      (operation.replacedArea? = none ∨
          (∀ first second, s.Concerns operation first → s.Concerns operation second → first = second) →
        ∃ touched, ∀ ids, touched ∉ ids → SamePredictions ids s s') := by
  have hb := balanced_of_run h
  refine ⟨fun matrixId first second hne hfirst hsecond target threshold => ?_, fun id areaId hnames => ?_,
    fun id matrixId hnames => ?_, fun areaId curve hcurve update answer s' y => ?_,
    fun operation hproducts answer s' y => ?_⟩
  · exact refuses_rebinMatrix (hfirst.one_lt_sharers hne hsecond) target threshold
  · obtain ⟨slot, hs, hused⟩ := hnames.exists_used hb
    exact refuses_deleteArea hs hused
  · obtain ⟨slot, hs, hused⟩ := hnames.exists_used hb
    exact refuses_deleteMatrix hs hused
  · exact y.replaces hcurve
  · have hsame : ∀ ids, (∀ id ∈ ids, ¬s.Concerns operation id) → SamePredictions ids s s' := fun ids hids =>
      ChangesOnly.samePredictions (changesOnly_perform operation hproducts _ _ _ y) hb
        (balanced_perform operation _ _ _ y hb) h.cacheSound (cacheSound_perform operation _ _ _ y h.cacheSound) hids
    refine ⟨hsame, ?_⟩
    rintro (hnone | hone)
    · rcases concerns_one_or_unchanged hnone y with hone | rfl
      · exact exists_touched hsame hone
      · exact ⟨⟨0⟩, fun _ _ _ => rfl⟩
    · exact exists_touched hsame hone

/-! ### An effective area that two spectra name -/

namespace SharedArea

/-- The same matrix and the same effective area are assigned to two of three spectra. -/
def operations : List (Operation ℚ) :=
  [.addSpectrum TwoBins.spectrum, .addSpectrum TwoBins.spectrum, .addSpectrum TwoBins.spectrum,
    .takeMatrix (Sample.matrix TwoBins.grid), .addArea (.identity TwoBins.grid), .assign ⟨0⟩ ⟨⟨3⟩, ⟨3⟩⟩,
    .assign ⟨1⟩ ⟨⟨3⟩, ⟨3⟩⟩]

/-- The session after that. -/
def session : Session ℚ := (Sample.start.replay operations).2

/-- Other values for the effective area. -/
def update : AreaUpdate ℚ := ⟨[1, 2], [2, 3], [3, 5], [1, 1], .kev⟩

/-- What the replacement answers and leaves. -/
def replaced : Except (Fault ℚ) (Answer ℚ) × Session ℚ := (run (Operation.updateArea ⟨3⟩ update).perform session).1

/-- The counts predicted for a spectrum and a density of one. -/
def predicted (id : SpectrumId) (s : Session ℚ) : Option (List (List ℚ)) :=
  (answerTo (predictedCounts [id] (Model.flat 1)) s).toOption.map Prediction.counts

theorem run_session : Run (Sample.start.replay operations).1 session :=
  (Run.start Sample.ofConfig_start).replay operations

end SharedArea

/-- Neither product is given away, and the matrix is not moved. The effective area is replaced, which the third
spectrum does not notice. -/
theorem shared_products_are_kept :
    Run (Sample.start.replay SharedArea.operations).1 SharedArea.session ∧
      (∀ target threshold, SharedArea.session.Refuses (.rebinMatrix ⟨3⟩ target threshold)) ∧
      SharedArea.session.Refuses (.deleteArea ⟨3⟩) ∧ SharedArea.session.Refuses (.deleteMatrix ⟨3⟩) ∧
      SamePredictions [⟨2⟩] SharedArea.session SharedArea.replaced.2 := by
  obtain ⟨hmove, harea, hmatrix, -, hpredicted⟩ := sharing_protects_all_but_replaced_areas SharedArea.run_session
  refine ⟨SharedArea.run_session, hmove ⟨3⟩ ⟨0⟩ ⟨1⟩ (by decide) (by decide +kernel) (by decide +kernel),
    harea ⟨0⟩ ⟨3⟩ (by decide +kernel), hmatrix ⟨1⟩ ⟨3⟩ (by decide +kernel), ?_⟩
  exact (hpredicted (.updateArea ⟨3⟩ SharedArea.update) rfl _ _ (.of_run rfl)).1 [⟨2⟩] (by decide +kernel)

/-- Two spectra name the effective area, and still its arrays are replaced. For both of them, other counts are
predicted than before. -/
theorem shared_area_is_replaced :
    Reachable SharedArea.session ∧ SharedArea.session.NamesArea ⟨0⟩ ⟨3⟩ ∧ SharedArea.session.NamesArea ⟨1⟩ ⟨3⟩ ∧
      SharedArea.replaced.1.isOk = true ∧ ¬SharedArea.session.Refuses (.updateArea ⟨3⟩ SharedArea.update) ∧
      SharedArea.predicted ⟨0⟩ SharedArea.session = some [[1, 1]] ∧
      SharedArea.predicted ⟨1⟩ SharedArea.session = some [[1, 1]] ∧
      SharedArea.predicted ⟨0⟩ SharedArea.replaced.2 = some [[3, 5]] ∧
      SharedArea.predicted ⟨1⟩ SharedArea.replaced.2 = some [[3, 5]] := by
  have hok : SharedArea.replaced.1.isOk = true := by decide +kernel
  refine ⟨⟨_, SharedArea.run_session⟩, by decide +kernel, by decide +kernel, hok, ?_, by decide +kernel,
    by decide +kernel, by decide +kernel, by decide +kernel⟩
  rintro ⟨fault, hrefused, -⟩
  rw [SharedArea.replaced, hrefused] at hok
  cases hok

end SpectralResponse.Session
