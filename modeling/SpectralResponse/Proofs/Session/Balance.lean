import SpectralResponse.Proofs.Session.Responses

/-!
# Balance

Every operation, whether it succeeds or fails, leaves the use counts equal to the number of pairs that
name the product. An operation either leaves all holdings as they are, takes in or frees products that
nothing uses, or exchanges the pairs of spectra.

## What is proved

* `sameContents_perform` — the operations that only tell something leave everything as it is.
* `sameHoldings_perform` — those that change values in place or group leave the holdings.
* `balanced_start`, `balanced_perform` — a session is balanced at the start, and every operation keeps it so.
-/

namespace SpectralResponse.Session

variable {α β : Type} {s s' : Session α}

theorem Keeps.balanced {operation : SessionM α β} (h : Keeps SameHoldings operation) :
    Keeps (Preserving Balanced) operation := h.mono fun _ _ hs => hs.held

/-! ### Products -/

theorem balanced_insertArea (curve : EffectiveArea α) (retained : Bool) :
    Keeps (Preserving Balanced) (insertArea curve retained) := by
  intro s answer s' y hb
  rw [y.of_insertArea.2]
  exact ⟨hb.areas.insert curve retained, hb.matrices⟩

theorem balanced_insertMatrix (m : ResponseMatrix α) (retained : Bool) :
    Keeps (Preserving Balanced) (insertMatrix m retained) := by
  intro s answer s' y hb
  rw [y.of_insertMatrix.2]
  exact ⟨hb.areas, hb.matrices.insert m retained⟩

theorem balanced_compact : Keeps (Preserving Balanced) (compact (α := α)) := by
  intro s answer s' y hb
  rw [y.of_compact.2]
  exact Held.compact hb

theorem Yields.of_deleteArea {id : AreaId} {answer : Except (Fault α) (EffectiveArea α)}
    (y : Yields (deleteArea id) s answer s') :
    (∃ fault, answer = .error fault ∧ s' = s) ∨
      ∃ curve areas, s.areas.remove id = .ok (curve, areas) ∧ answer = .ok curve ∧
        s' = { s with areas } := by
  rcases y.of_get_bind.of_slot_bind with ⟨fault, -, rfl, rfl⟩ | ⟨⟨curve, areas⟩, h, y₁⟩
  · exact .inl ⟨_, rfl, rfl⟩
  · obtain ⟨rfl, rfl⟩ := yields_pure.1 y₁.of_modify_bind
    exact .inr ⟨curve, areas, h, rfl, rfl⟩

theorem Yields.of_deleteMatrix {id : MatrixId} {answer : Except (Fault α) (ResponseMatrix α)}
    (y : Yields (deleteMatrix id) s answer s') :
    (∃ fault, answer = .error fault ∧ s' = s) ∨
      ∃ m matrices, s.matrices.remove id = .ok (m, matrices) ∧ answer = .ok m ∧
        s' = { s with matrices } := by
  rcases y.of_get_bind.of_slot_bind with ⟨fault, -, rfl, rfl⟩ | ⟨⟨m, matrices⟩, h, y₁⟩
  · exact .inl ⟨_, rfl, rfl⟩
  · obtain ⟨rfl, rfl⟩ := yields_pure.1 y₁.of_modify_bind
    exact .inr ⟨m, matrices, h, rfl, rfl⟩

theorem Yields.of_releaseArea {id : AreaId} {answer : Except (Fault α) Unit}
    (y : Yields (releaseArea id) s answer s') :
    (∃ fault, answer = .error fault ∧ s' = s) ∨
      ∃ areas, s.areas.setRetained id false = .ok areas ∧ answer = .ok () ∧
        s' = { s with areas := areas.compact.2, matrices := s.matrices.compact.2 } := by
  rcases y.of_get_bind.of_slot_bind with ⟨fault, -, rfl, rfl⟩ | ⟨areas, h, y₁⟩
  · exact .inl ⟨_, rfl, rfl⟩
  obtain ⟨_, _, rfl, y₂⟩ := y₁.of_modify_bind.of_compact_bind
  obtain ⟨rfl, rfl⟩ := yields_pure.1 y₂
  exact .inr ⟨areas, h, rfl, rfl⟩

theorem Yields.of_releaseMatrix {id : MatrixId} {answer : Except (Fault α) Unit}
    (y : Yields (releaseMatrix id) s answer s') :
    (∃ fault, answer = .error fault ∧ s' = s) ∨
      ∃ matrices, s.matrices.setRetained id false = .ok matrices ∧ answer = .ok () ∧
        s' = { s with areas := s.areas.compact.2, matrices := matrices.compact.2 } := by
  rcases y.of_get_bind.of_slot_bind with ⟨fault, -, rfl, rfl⟩ | ⟨matrices, h, y₁⟩
  · exact .inl ⟨_, rfl, rfl⟩
  obtain ⟨_, _, rfl, y₂⟩ := y₁.of_modify_bind.of_compact_bind
  obtain ⟨rfl, rfl⟩ := yields_pure.1 y₂
  exact .inr ⟨matrices, h, rfl, rfl⟩

theorem balanced_deleteArea (id : AreaId) : Keeps (Preserving Balanced) (deleteArea (α := α) id) := by
  intro s answer s' y hb
  rcases y.of_deleteArea with ⟨_, -, rfl⟩ | ⟨curve, areas, h, -, rfl⟩
  · exact hb
  · exact ⟨hb.areas.remove h, hb.matrices⟩

theorem balanced_deleteMatrix (id : MatrixId) : Keeps (Preserving Balanced) (deleteMatrix (α := α) id) := by
  intro s answer s' y hb
  rcases y.of_deleteMatrix with ⟨_, -, rfl⟩ | ⟨m, matrices, h, -, rfl⟩
  · exact hb
  · exact ⟨hb.areas, hb.matrices.remove h⟩

theorem balanced_releaseArea (id : AreaId) : Keeps (Preserving Balanced) (releaseArea (α := α) id) := by
  intro s answer s' y hb
  rcases y.of_releaseArea with ⟨_, -, rfl⟩ | ⟨areas, h, -, rfl⟩
  · exact hb
  · exact ⟨(hb.areas.setRetained h).compact, hb.matrices.compact⟩

theorem balanced_releaseMatrix (id : MatrixId) :
    Keeps (Preserving Balanced) (releaseMatrix (α := α) id) := by
  intro s answer s' y hb
  rcases y.of_releaseMatrix with ⟨_, -, rfl⟩ | ⟨matrices, h, -, rfl⟩
  · exact hb
  · exact ⟨hb.areas.compact, (hb.matrices.setRetained h).compact⟩

/-! ### Pairs -/

variable [Scalar α]

theorem balanced_refreshFit (id : SpectrumId) : Keeps (Preserving Balanced) (refreshFit (α := α) id) := by
  intro s answer s' y hb
  rcases y.of_refreshFit hb with ⟨_, _, -, hbred⟩ | ⟨slot, fit, s₁, hr, y₁⟩
  · exact hbred.held hb
  · exact (Keeps.syncMatrices id).balanced _ _ _ y₁ hr.balanced

theorem balanced_addSpectrum (spectrum : Spectrum α) :
    Keeps (Preserving Balanced) (addSpectrum spectrum) := by
  intro s answer s' y hb
  rcases y.of_addSpectrum with ⟨_, -, rfl, -⟩ | ⟨configured, newId, spectra, -, hinsert, y₁⟩
  · exact hb
  · have hb₁ := Held.insertSpectrum hb ⟨configured, [], []⟩ rfl true
    rw [hinsert] at hb₁
    exact Keeps.bind (balanced_refreshFit newId) (fun _ => .pure _) _ _ _ y₁ hb₁

theorem balanced_deleteSpectrum (id : SpectrumId) :
    Keeps (Preserving Balanced) (deleteSpectrum (α := α) id) :=
  fun _ _ _ y hb => (y.of_deleteSpectrum hb).1

theorem balanced_assign (id : SpectrumId) (pair : ResponsePair) :
    Keeps (Preserving Balanced) (assign (α := α) id pair) := by
  intro s answer s' y hb
  rcases y.of_assign hb with ⟨_, -, rfl, -⟩ | ⟨slot, curve, m, s₁, -, -, -, hr, y₁⟩
  · exact hb
  · exact Keeps.bind (Keeps.restoreShared _).balanced (fun _ => balanced_refreshFit id) _ _ _ y₁ hr.balanced

theorem balanced_unassign (id : SpectrumId) : Keeps (Preserving Balanced) (unassign (α := α) id) := by
  intro s answer s' y hb
  rcases y.of_unassign hb with ⟨_, -, rfl, -⟩ | ⟨slot, s₁, hr, y₁⟩
  · exact hb
  · exact balanced_refreshFit id _ _ _ y₁ hr.balanced

theorem balanced_setConfig (config : Config α) : Keeps (Preserving Balanced) (setConfig config) := by
  refine .bind (.lift _) fun strategy => .bind (.modify fun _ hb => ⟨hb.areas, hb.matrices⟩) fun _ => ?_
  refine .bind .get fun s => .forM fun id _ => ?_
  exact .bind (Keeps.updateSpectrum id _).balanced fun _ => balanced_refreshFit id

/-! ### All operations -/

/-- In a session without products there is nothing to count. -/
theorem balanced_start {config : Config α} (h : ofConfig config = .ok s) : s.Balanced := by
  obtain ⟨-, ha, hm, hs, -⟩ := eq_of_ofConfig h
  have hpairs : s.pairs = [] := by rw [Session.pairs, hs, Arena.values_empty, List.flatMap_nil]
  constructor
  · rw [hpairs, ha]
    exact .empty
  · rw [hpairs, hm]
    exact .empty

/-- The operation may add or free products, or exchange pairs. -/
def Operation.movesProducts : Operation α → Bool
  | .setConfig _ | .loadArea _ | .addArea _ | .deleteArea _ | .releaseArea _ | .loadMatrix _
  | .takeMatrix _ | .deleteMatrix _ | .releaseMatrix _ | .loadSpectrum _ | .addSpectrum _
  | .deleteSpectrum _ | .assign _ _ | .unassign _ | .compact => true
  | _ => false

/-- The operation only tells something about the session. -/
def Operation.onlyTells : Operation α → Bool
  | .noticedModelBins _ | .predictedCounts _ _ | .fitArrays _ _ | .evaluateStatistic _ _ _ | .fluxCorrect _
  | .showArea _ | .showMatrix _ | .showSpectrum _ => true
  | _ => false

/-- Apart from the fluxes of models, which may need a shared grid, everything is only read off. -/
theorem Keeps.perform_of_onlyTells {R : Session α → Session α → Prop} [Std.Refl R] [IsTrans (Session α) R]
    (hfluxes : ∀ ids model, Keeps R (Session.modelFluxes ids model)) (operation : Operation α)
    (h : operation.onlyTells = true) : Keeps R operation.perform := by
  cases operation with
  | noticedModelBins id => exact .bind (reads_noticedModelBins id).keeps fun _ => .pure _
  | predictedCounts ids model => exact .bind (.predictedCounts_of (hfluxes ids model)) fun _ => .pure _
  | fitArrays ids model => exact .bind (.fitArrays_of (hfluxes ids model)) fun _ => .pure _
  | evaluateStatistic ids model statistic =>
    exact .bind (.evaluateStatistic_of (hfluxes ids model) statistic) fun _ => .pure _
  | fluxCorrect id => exact .bind (reads_fluxCorrect id).keeps fun _ => .pure _
  | showArea id => exact .bind (.area id) fun _ => .pure _
  | showMatrix id => exact .bind (.matrix id) fun _ => .pure _
  | showSpectrum id => exact .bind (reads_spectrum id).keeps fun _ => .pure _
  | _ => cases h

theorem sameContents_perform (operation : Operation α) (h : operation.onlyTells = true) :
    Keeps SameContents operation.perform := .perform_of_onlyTells .modelFluxes operation h

theorem sameHoldings_perform (operation : Operation α) (h : operation.movesProducts = false) :
    Keeps SameHoldings operation.perform := by
  by_cases htells : operation.onlyTells = true
  · exact (sameContents_perform operation htells).mono fun _ _ hs => hs.sameHoldings
  · cases operation with
    | updateArea id update => exact .bind (.updateArea id update) fun _ => .pure _
    | setExposure id exposure => exact .bind (.setExposure id exposure) fun _ => .pure _
    | rebinMatrix id target threshold => exact .bind (.rebinMatrix id target threshold) fun _ => .pure _
    | setKernel id kernel => exact .bind (.updateSpectrum id _) fun _ => .pure _
    | setBackground id background => exact .bind (.updateSpectrum id _) fun _ => .pure _
    | setSysFractions id fractions => exact .bind (.updateSpectrum id _) fun _ => .pure _
    | setRange id lo hi unit noticed => exact .bind (.changeSpectrum id _) fun _ => .pure _
    | noticeAll id => exact .bind (.updateSpectrum id _) fun _ => .pure _
    | ignoreAll id => exact .bind (.updateSpectrum id _) fun _ => .pure _
    | rebinSpectrum id mask =>
      exact .bind (.bind (.updateSpectrum id _) fun _ => .syncMatrices id) fun _ => .pure _
    | groupToCount id threshold =>
      exact .bind (.bind (.updateSpectrum id _) fun _ => .syncMatrices id) fun _ => .pure _
    | unbin id => exact .bind (.bind (.updateSpectrum id _) fun _ => .syncMatrices id) fun _ => .pure _
    | _ => first | exact (htells rfl).elim | cases h

/-- Every operation leaves the counts equal to the number of pairs that name the product. -/
theorem balanced_perform (operation : Operation α) : Keeps (Preserving Balanced) operation.perform := by
  by_cases h : operation.movesProducts = true
  · cases operation with
    | setConfig config => exact .bind (balanced_setConfig config) fun _ => .pure _
    | loadArea file =>
      exact .bind (.bind .get fun _ => .bind (.lift _) fun _ => balanced_insertArea _ _) fun _ => .pure _
    | addArea curve => exact .bind (balanced_insertArea _ _) fun _ => .pure _
    | deleteArea id => exact .bind (balanced_deleteArea id) fun _ => .pure _
    | releaseArea id => exact .bind (balanced_releaseArea id) fun _ => .pure _
    | loadMatrix file =>
      exact .bind (.bind (.noted _) fun _ => balanced_insertMatrix _ _) fun _ => .pure _
    | takeMatrix m => exact .bind (balanced_insertMatrix _ _) fun _ => .pure _
    | deleteMatrix id => exact .bind (balanced_deleteMatrix id) fun _ => .pure _
    | releaseMatrix id => exact .bind (balanced_releaseMatrix id) fun _ => .pure _
    | loadSpectrum file =>
      exact .bind (.bind (.noted _) fun _ => balanced_addSpectrum _) fun _ => .pure _
    | addSpectrum spectrum => exact .bind (balanced_addSpectrum spectrum) fun _ => .pure _
    | deleteSpectrum id => exact .bind (balanced_deleteSpectrum id) fun _ => .pure _
    | assign id pair => exact .bind (balanced_assign id pair) fun _ => .pure _
    | unassign id => exact .bind (balanced_unassign id) fun _ => .pure _
    | compact => exact .bind balanced_compact fun _ => .pure _
    | _ => cases h
  · exact (sameHoldings_perform operation (Bool.eq_false_iff.2 h)).balanced

end SpectralResponse.Session
