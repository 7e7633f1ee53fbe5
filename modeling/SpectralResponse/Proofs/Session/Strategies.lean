import SpectralResponse.Proofs.Rebin.Union
import SpectralResponse.Proofs.Scalar.Rational
import SpectralResponse.Proofs.Session.Predictions

/-!
# Merged and separate evaluation

An additive model may be evaluated once on the union of the grids of all effective areas, or on each of these
grids: the fluxes are the same, and so are the counts. With rounding left aside, the choice is one of cost only.

## What is proved

* `fluxes_merged` — the fluxes that come back from a shared grid are those of the model on each grid.
* `merging_keeps_predictions` — what is predicted for some spectra at once from merged grids is predicted for each
  of them alone from separate grids.
-/

namespace SpectralResponse

variable {K : Type} [Field K] [LinearOrder K] [FloorRing K] [Roots K] {total : K → K}

/-! ### Fluxes -/

/-- The merged strategy shares the union, if it shares a grid at all. -/
theorem EvaluationStrategy.union_of_sharedGrid {grids : List (Grid K)} {union : Grid K}
    (h : EvaluationStrategy.merged.sharedGrid grids = .ok (some union)) : Grid.union grids = .ok union := by
  rw [EvaluationStrategy.sharedGrid] at h
  split at h
  · cases h
  · obtain ⟨union', hunion, hsome⟩ := Except.map_eq_ok.1 h
    rw [hunion, Option.some.inj hsome]

/-- An additive model has a flux for each bin. -/
theorem Model.evaluate_additive (grid : Grid K) :
    (Model.additive total).evaluate grid = .ok (Model.additive total grid) := by
  have hlen : grid.length = (Model.additive total grid).length := (List.length_map _).symm
  exact Except.bind_eq_ok.2 ⟨(), Except.requireLength_eq_ok.2 hlen, rfl⟩

namespace Session

variable {s : Session K} {grids : List (Grid K)}

/-- Without a shared grid the model is evaluated on each grid. -/
theorem fluxes_separate (grids : List (Grid K)) :
    fluxes (Model.additive total) none grids = .ok (grids.map (Model.additive total), grids) := by
  have heach : grids.mapM (Model.additive total).evaluate = .ok (grids.map (Model.additive total)) :=
    Except.mapM_eq_ok_map fun grid _ => Model.evaluate_additive grid
  rw [fluxes, heach]
  rfl

variable [IsStrictOrderedRing K]

/-- From a shared grid each grid gets the fluxes that the model has there. -/
theorem fluxes_merged {shared : Option (Grid K)} {values : List (List K)} {evaluated : List (Grid K)}
    (horder : ∀ g ∈ grids, g.Ordered) (hapart : Grid.EdgesApart grids)
    (hshared : EvaluationStrategy.merged.sharedGrid grids = .ok shared)
    (h : fluxes (Model.additive total) shared grids = .ok (values, evaluated)) :
    values = grids.map (Model.additive total) := by
  cases shared with
  | none =>
    rw [fluxes_separate] at h
    exact (Prod.mk.inj (Except.ok.inj h)).1.symm
  | some union =>
    have hunion := EvaluationStrategy.union_of_sharedGrid hshared
    obtain ⟨onUnion, honUnion, h⟩ := Except.bind_eq_ok.1 h
    obtain rfl : Model.additive total union = onUnion :=
      Except.ok.inj ((Model.evaluate_additive union).symm.trans honUnion)
    obtain ⟨moved, hmoved, h⟩ := Except.bind_eq_ok.1 h
    obtain ⟨rfl, -⟩ := Prod.mk.inj (Except.ok.inj h)
    have hback : grids.mapM (fun grid => (rebin grid union (Model.additive total union)).mapError Fault.rebin) =
        (.ok (grids.map (Model.additive total)) : Except (Fault K) _) :=
      Except.mapM_eq_ok_map fun grid hgrid => Except.mapError_eq_ok.2 (rebin_union horder hapart hunion hgrid)
    exact Except.ok.inj (hmoved.symm.trans hback)

/-! ### Sessions -/

section

omit [IsStrictOrderedRing K]

/-- The grids of all effective areas. -/
def areaGrids (s : Session K) : List (Grid K) := s.areas.values.map EffectiveArea.grid

/-- The session with another place for models to be evaluated; if the place changes, a shared grid is
forgotten. -/
def evaluating (strategy : EvaluationStrategy K) (s : Session K) : Session K :=
  if s.strategy = strategy then s else { s with strategy, cache := .empty }

omit [Field K] [FloorRing K] [Roots K] in
theorem strategy_evaluating (strategy : EvaluationStrategy K) (s : Session K) :
    (s.evaluating strategy).strategy = strategy := by
  rw [evaluating]
  split
  · assumption
  · rfl

omit [Field K] [LinearOrder K] [FloorRing K] [Roots K] in
theorem mem_areaGrids {id : AreaId} {grid : Grid K} (h : s.HasGrid id grid) : grid ∈ s.areaGrids := by
  obtain ⟨slot, hs, rfl⟩ := h
  exact List.mem_map_of_mem (Arena.mem_values_iff.2 ⟨id, slot, hs, rfl⟩)

/-- Only the shared grid is another, and it is sound. -/
theorem CacheSound.evaluating (h : s.CacheSound) (strategy : EvaluationStrategy K) :
    (s.evaluating strategy).CacheSound ∧ ∃ cache, s.evaluating strategy = { s with strategy, cache } := by
  rw [Session.evaluating]
  split
  · rename_i hsame
    exact ⟨h, s.cache, by rw [← hsame]⟩
  · exact ⟨.of_empty rfl, .empty, rfl⟩

/-- A spectrum that is predicted alone from separate grids gets the counts that it gets from the fluxes of the
model for any effective areas among which its own are. -/
theorem exists_alone {cache : EvaluationCache K} (h : CacheSound { s with strategy := .separate, cache })
    {areaIds : List AreaId} (hgrids : List.Forall₂ s.HasGrid areaIds grids) {id : SpectrumId}
    {slot : Slot (SpectrumRecord K)} (hs : s.spectra.slot? id = some slot)
    (hareas : ∀ pair ∈ slot.value.fit, pair.area ∈ areaIds) {counts : List K}
    (hcounts : answerTo (spectrumCounts (areaIds.zip (grids.map (Model.additive total))) id) s = .ok counts) :
    ∃ alone, answerTo (predictedCounts [id] (Model.additive total)) { s with strategy := .separate, cache } =
      .ok alone ∧ alone.counts = [counts] := by
  have hflux (pair : ResponsePair) (hpair : pair ∈ slot.value.fit) :=
    exists_fluxOf (Model.additive total) hgrids (hareas pair hpair)
  have heach : ∀ areaId ∈ areasOf (slot.value.fit.map fun pair => (id, pair.area)),
      ∃ grid, s.HasGrid areaId grid := by
    intro areaId hareaId
    obtain ⟨pair, hpair, rfl⟩ := mem_areasOf_fit.1 hareaId
    obtain ⟨grid, hgrid, -⟩ := hflux pair hpair
    exact ⟨grid, hgrid⟩
  obtain ⟨own, hown⟩ := Except.exists_forall₂ heach
  refine ⟨⟨[counts], own⟩, (answerTo_predictedCounts h).2 ⟨_, own, none, own.map (Model.additive total),
    ?_, hown, rfl, fluxes_separate own, .cons ?_ .nil⟩, rfl⟩
  · rw [(reads_members _).elsewhere]
    exact answerTo_members.2 ⟨[_], (List.append_nil _).symm, .cons ⟨slot, hs, rfl⟩ .nil⟩
  · rw [(reads_spectrumCounts _ _).elsewhere, ← hcounts]
    refine answerTo_spectrumCounts_congr hs fun pair hpair => ?_
    obtain ⟨grid, hgrid, hall⟩ := hflux pair hpair
    obtain ⟨grid', hgrid', halone⟩ :=
      exists_fluxOf (Model.additive total) hown (mem_areasOf_fit.2 ⟨pair, hpair, rfl⟩)
    rw [hall, halone, rightUnique_hasGrid s hgrid hgrid']

end

/-- When an additive model is evaluated once on the merged grid and counts are predicted for some spectra, the
same counts are predicted for each of them alone when the model is evaluated on the grid of each effective
area. -/
theorem merging_keeps_predictions (hreach : Reachable s) (horder : ∀ g ∈ s.areaGrids, g.Ordered)
    (hapart : Grid.EdgesApart s.areaGrids) {ids : List SpectrumId} {merged : Prediction K}
    (hmerged : (run (predictedCounts ids (Model.additive total)) (s.evaluating .merged)).1.1 = .ok merged) :
    List.Forall₂ (fun id counts => ∃ alone,
      (run (predictedCounts [id] (Model.additive total)) (s.evaluating .separate)).1.1 = .ok alone ∧
        alone.counts = [counts]) ids merged.counts := by
  obtain ⟨history, hrun⟩ := hreach
  obtain ⟨hsound₁, cache₁, hs₁⟩ := hrun.cacheSound.evaluating .merged
  obtain ⟨hsound₂, cache₂, hs₂⟩ := hrun.cacheSound.evaluating .separate
  rw [hs₁] at hmerged hsound₁
  rw [hs₂] at hsound₂
  obtain ⟨members, grids, shared, values, hmembers, hgrids, hshared, hvalues, hcounts⟩ :=
    (answerTo_predictedCounts hsound₁).1 hmerged
  rw [(reads_members ids).elsewhere] at hmembers
  have hgrids : List.Forall₂ s.HasGrid (areasOf members) grids := hgrids
  have hsub : grids ⊆ s.areaGrids := fun grid hgrid => by
    obtain ⟨id, -, hid⟩ := Except.exists_of_mem_forall₂ hgrids hgrid
    exact mem_areaGrids hid
  obtain rfl := fluxes_merged (fun g hg => horder g (hsub hg)) (hapart.subset hsub) hshared hvalues
  obtain ⟨lists, rfl, hlists⟩ := answerTo_members.1 hmembers
  -- each spectrum takes the fluxes of its own effective areas from those of all
  have hboth := (List.forall₂_and_left _ _).2 ⟨fun id hid => hid, hcounts⟩
  refine hboth.imp fun id counts ⟨hid, hid'⟩ => ?_
  obtain ⟨i, hi⟩ := List.mem_iff_getElem?.1 hid
  obtain ⟨list, hlist, slot, hs, rfl⟩ := Except.getElem?_of_forall₂ hlists hi
  rw [(reads_spectrumCounts _ _).elsewhere] at hid'
  rw [hs₂]
  refine exists_alone hsound₂ hgrids hs (fun pair hpair => ?_) hid'
  exact mem_areasOf.2 ⟨(id, pair.area), List.mem_flatten.2 ⟨_, List.mem_of_getElem? hlist,
    List.mem_map_of_mem hpair⟩, rfl⟩

/-! ### Grids that overlap and leave a gap -/

namespace Overlapping

/-- Two bins with a gap between them. -/
def gapped : Grid ℚ := ⟨[⟨1, 2⟩, ⟨5, 6⟩]⟩

/-- Two bins that touch, the first of which overlaps a gapped one; they do not fill the gap. -/
def touching : Grid ℚ := ⟨[⟨3 / 2, 5 / 2⟩, ⟨5 / 2, 7 / 2⟩]⟩

/-- The union of both grids. -/
def union : Grid ℚ := ⟨[⟨1, 3 / 2⟩, ⟨3 / 2, 2⟩, ⟨2, 5 / 2⟩, ⟨5 / 2, 7 / 2⟩, ⟨5, 6⟩]⟩

/-- The flux in a bin is the difference of the squares of its edges. -/
def model : Model ℚ := Model.additive fun energy => energy * energy

/-- A response on each of the grids is assigned to a spectrum. -/
def operations : List (Operation ℚ) :=
  [.addSpectrum (Sample.spectrum gapped [4, 5] [2, 2]), .addSpectrum (Sample.spectrum touching [4, 5] [2, 2]),
    .addArea (.identity gapped), .addArea (.identity touching), .takeMatrix (Sample.matrix gapped),
    .takeMatrix (Sample.matrix touching), .assign ⟨0⟩ ⟨⟨2⟩, ⟨2⟩⟩, .assign ⟨1⟩ ⟨⟨3⟩, ⟨3⟩⟩]

/-- The session after that. -/
def session : Session ℚ := (Sample.start.replay operations).2

theorem reachable_session : Reachable session :=
  ⟨_, (Run.start Sample.ofConfig_start).replay operations⟩

/-- The union is found by sorting all eight edges. -/
theorem union_eq : Grid.union [gapped, touching] = .ok union := by
  have hsorted : (Grid.allEdges [gapped, touching]).mergeSort (fun a b => a ≤ b) =
      [1, 3 / 2, 2, 5 / 2, 5 / 2, 7 / 2, 5, 6] := by
    have hperm : ((Grid.allEdges [gapped, touching]).mergeSort fun a b => a ≤ b).Perm
        [1, 3 / 2, 2, 5 / 2, 5 / 2, 7 / 2, 5, 6] := (List.mergeSort_perm _ _).trans (by decide +kernel)
    exact hperm.eq_of_pairwise (fun _ _ _ _ => le_antisymm) (Grid.pairwise_sorted _) (by decide +kernel)
  rw [Grid.union, hsorted]
  exact Except.toOption_eq_some.1 (by decide +kernel)

/-- The counts that both spectra get from the union. -/
theorem predicted_session : answerTo (predictedCounts [⟨0⟩, ⟨1⟩] model) (session.evaluating .merged) =
    .ok ⟨[[3, 11], [4, 6]], [union]⟩ := by
  obtain ⟨history, hrun⟩ := reachable_session
  have hshared : (session.evaluating .merged).strategy.sharedGrid [gapped, touching] = .ok (some union) := by
    rw [strategy_evaluating]
    exact congrArg (Except.map some) union_eq
  refine (answerTo_predictedCounts (hrun.cacheSound.evaluating .merged).1).2 ⟨[(⟨0⟩, ⟨2⟩), (⟨1⟩, ⟨3⟩)], _, _,
    [[3, 11], [4, 6]], ?_, answerTo_grids.1 ?_, hshared, ?_, .cons ?_ (.cons ?_ .nil)⟩
  all_goals exact Except.toOption_eq_some.1 (by decide +kernel)

end Overlapping

/-- The counts from the union of a grid with a gap and one that overlaps it, and those of the second spectrum
alone. -/
theorem overlapping_grids_predict_alike :
    (∀ g ∈ Overlapping.session.areaGrids, g.Ordered) ∧ Grid.EdgesApart Overlapping.session.areaGrids ∧
      answerTo (predictedCounts [⟨0⟩, ⟨1⟩] Overlapping.model) (Overlapping.session.evaluating .merged) =
        .ok ⟨[[3, 11], [4, 6]], [Overlapping.union]⟩ ∧
      ∃ alone, answerTo (predictedCounts [⟨1⟩] Overlapping.model) (Overlapping.session.evaluating .separate) =
        .ok alone ∧ alone.counts = [[4, 6]] := by
  have hgrids : Overlapping.session.areaGrids = [Overlapping.gapped, Overlapping.touching] := by decide +kernel
  have horder : ∀ g ∈ Overlapping.session.areaGrids, g.Ordered := by
    rw [hgrids]
    intro g hg
    rcases List.mem_cons.1 hg with rfl | hg
    · exact ⟨by decide +kernel, by decide +kernel⟩
    · obtain rfl := List.mem_singleton.1 hg
      exact ⟨by decide +kernel, by decide +kernel⟩
  have hapart : Grid.EdgesApart Overlapping.session.areaGrids := by
    rw [hgrids]
    unfold Grid.EdgesApart
    decide +kernel
  have halike :=
    merging_keeps_predictions Overlapping.reachable_session horder hapart Overlapping.predicted_session
  obtain ⟨-, hsecond⟩ := List.forall₂_cons.1 halike
  exact ⟨horder, hapart, Overlapping.predicted_session, (List.forall₂_cons.1 hsecond).1⟩

end Session

end SpectralResponse
