import SpectralResponse.Proofs.Session.Effects
import SpectralResponse.Proofs.Session.Values

/-!
# Fit pairs in step

What the fit pairs of a spectrum are to be is told by the assigned pairs, the effective areas and matrices these name,
and the configuration. Ideal products are made from what these are at the time. If they change later, an ideal product
is what would be made of them now only if it has changed along.

## What is proved

* `fitInStep_iff` — fit pairs that were in step in an earlier session are in step as long as the effective areas stay,
  and only then. Matrices may be moved.
* `Yields.fitInStep_of_fitPairs` — pairs that have just been derived are in step.
-/

namespace SpectralResponse

open ResponseMatrix (OnlyMoved)

variable {α : Type}

theorem Arena.All.get {kind : ProductKind} {β : Type} {a : Arena kind β} {P : β → Prop} (h : a.All P)
    {id : Handle kind} {value : β} (hget : a.get id = .ok value) : P value := by
  obtain ⟨slot, hs, rfl⟩ := Arena.get_eq_ok_iff.1 hget
  exact h id slot hs

/-- Values stay when unused products are put behind them. -/
theorem Arena.Grows.get_eq {kind : ProductKind} {β : Type} {a a' : Arena kind β} {N : β → Prop} (h : a.Grows N a')
    {id : Handle kind} {value : β} (hget : a.get id = .ok value) : a'.get id = .ok value := by
  obtain ⟨slot, hs, hvalue⟩ := Arena.get_eq_ok_iff.1 hget
  exact Arena.get_eq_ok_iff.2 ⟨slot, h.slot?_eq hs, hvalue⟩

variable [Scalar α]

theorem EffectiveArea.exposure_of_setExposure {curve next : EffectiveArea α} {exposure : α}
    (h : curve.setExposure exposure = .ok next) : next.exposure = exposure := by
  obtain ⟨_, -, h⟩ := Except.bind_eq_ok.1 h
  cases Except.ok.inj h
  rfl

/-- Of two exposure times set one after the other the second one counts. -/
theorem EffectiveArea.setExposure_setExposure {curve next : EffectiveArea α} {exposure : α}
    (h : curve.setExposure exposure = .ok next) (exposure' : α) :
    next.setExposure exposure' = curve.setExposure exposure' := by
  obtain ⟨_, -, h⟩ := Except.bind_eq_ok.1 h
  cases Except.ok.inj h
  rfl

namespace Session

variable {s t : Session α} {observed : Grid α} {pair fit : ResponsePair} {r r' : SpectrumRecord α}

/-! ### What fit pairs are to be -/

/-- The matrix is the ideal one between two grids, wherever its channels have been moved. -/
def IdealBetween (energies observed : Grid α) (m : ResponseMatrix α) : Prop :=
  (Redistribution.delta energies observed).Answers (.ok m.native) ∧ m.OnlyMoved

/-- The fit pair is what would be derived for an assigned pair. -/
structure PairInStep (s : Session α) (observed : Grid α) (pair fit : ResponsePair) : Prop where
  /-- An ideal effective area has unit area for the assigned matrix, and the exposure of the assigned one. -/
  idealArea : s.config.useIdealArea = true → ∃ curve m ideal, s.areas.get pair.area = .ok curve ∧
    s.matrices.get pair.matrix = .ok m ∧ s.areas.get fit.area = .ok ideal ∧
    (EffectiveArea.identity m.current.energies).setExposure curve.exposure = .ok ideal
  /-- Otherwise it is the assigned one. -/
  sameArea : s.config.useIdealArea = false → fit.area = pair.area
  /-- An ideal matrix leads from the effective area to the observed bins. -/
  idealMatrix : s.config.useIdealMatrix = true → ∃ curve m, s.areas.get fit.area = .ok curve ∧
    s.matrices.get fit.matrix = .ok m ∧ IdealBetween curve.grid observed m
  /-- Otherwise it is the assigned one. -/
  sameMatrix : s.config.useIdealMatrix = false → fit.matrix = pair.matrix

/-- The pair has unit area and an ideal matrix on the observed bins. -/
def StandsIn (s : Session α) (observed : Grid α) (fit : ResponsePair) : Prop :=
  s.areas.get fit.area = .ok (.identity observed) ∧
    ∃ m, s.matrices.get fit.matrix = .ok m ∧ IdealBetween observed observed m

/-- The fit pairs of a spectrum are what would be derived for it. -/
structure FitInStep (s : Session α) (r : SpectrumRecord α) : Prop where
  /-- One pair stands in if nothing is assigned. -/
  standsIn : r.assigned = [] → ∃ fit, r.fit = [fit] ∧ s.StandsIn r.spectrum.observed.grid fit
  /-- Otherwise there is a fit pair for each assigned one. -/
  pairs : r.assigned ≠ [] → List.Forall₂ (s.PairInStep r.spectrum.observed.grid) r.assigned r.fit

/-! ### What they depend on -/

/-- From one session to another, the effective areas that concern an assigned pair and its fit pair stay: an ideal
one is as it was but for the exposure, which is that of the assigned one; one that an ideal matrix was made for has
the grid it had. -/
structure PairAreasStay (t s : Session α) (pair fit : ResponsePair) : Prop where
  /-- The ideal effective area. -/
  ideal : s.config.useIdealArea = true → ∃ curve before now, s.areas.get pair.area = .ok curve ∧
    t.areas.get fit.area = .ok before ∧ s.areas.get fit.area = .ok now ∧ before.setExposure curve.exposure = .ok now
  /-- The effective area of an ideal matrix. -/
  grid : s.config.useIdealMatrix = true → ∃ before now, t.areas.get fit.area = .ok before ∧
    s.areas.get fit.area = .ok now ∧ now.grid = before.grid

/-- The effective areas that concern the pairs of a spectrum stay. -/
structure AreasStay (t s : Session α) (r : SpectrumRecord α) : Prop where
  /-- The pair that stands in. -/
  standsIn : r.assigned = [] → ∀ fit ∈ r.fit, s.areas.get fit.area = t.areas.get fit.area
  /-- The assigned pairs with their fit pairs. -/
  pairs : r.assigned ≠ [] → List.Forall₂ (t.PairAreasStay s) r.assigned r.fit

/-- Under the same configuration, the matrices of some pairs are there and have been moved at most. -/
structure Carried (t s : Session α) (pairs : List ResponsePair) : Prop where
  /-- The configuration. -/
  config : s.config = t.config
  /-- The matrices. -/
  matrices : ∀ pair ∈ pairs, ∃ m m', t.matrices.get pair.matrix = .ok m ∧ s.matrices.get pair.matrix = .ok m' ∧
    m.Reaches m'

theorem Carried.mono {pairs pairs' : List ResponsePair} (h : t.Carried s pairs) (hsub : pairs' ⊆ pairs) :
    t.Carried s pairs' :=
  ⟨h.config, fun pair hpair => h.matrices pair (hsub hpair)⟩

/-- An ideal matrix stays ideal while it is moved, and is ideal for one grid of energies only. -/
theorem idealBetween_iff {energies energies' : Grid α} {m m' : ResponseMatrix α} (h : IdealBetween energies observed m)
    (hm : m.Reaches m') : IdealBetween energies' observed m' ↔ energies' = energies := by
  constructor
  · intro h'
    have hnow := (Redistribution.of_ofRawRows h'.1).1
    rw [hm.native_eq, (Redistribution.of_ofRawRows h.1).1] at hnow
    exact hnow.symm
  · rintro rfl
    refine ⟨?_, h.2.reaches hm⟩
    rw [hm.native_eq]
    exact h.1

/-- The ideal effective area of a fit pair is in step if it stays but for the exposure of the assigned one, and only
then. -/
theorem PairInStep.idealArea_iff (h : t.PairInStep observed pair fit) (hmoved : t.matrices.All OnlyMoved)
    (hcarried : t.Carried s [pair, fit]) (hflag : s.config.useIdealArea = true) :
    (∃ curve m ideal, s.areas.get pair.area = .ok curve ∧ s.matrices.get pair.matrix = .ok m ∧
        s.areas.get fit.area = .ok ideal ∧
        (EffectiveArea.identity m.current.energies).setExposure curve.exposure = .ok ideal) ↔
      ∃ curve before now, s.areas.get pair.area = .ok curve ∧ t.areas.get fit.area = .ok before ∧
        s.areas.get fit.area = .ok now ∧ before.setExposure curve.exposure = .ok now := by
  obtain ⟨_, m, before, -, hm, hbefore, hset⟩ := h.idealArea (hcarried.config ▸ hflag)
  obtain ⟨m₀, m', hm₀, hm', hreaches⟩ := hcarried.matrices pair (by simp)
  cases hm.symm.trans hm₀
  have honly : m.OnlyMoved := hmoved.get hm
  have henergies : m'.current.energies = m.current.energies := by
    rw [(honly.reaches hreaches).energies, hreaches.native_eq, honly.energies]
  -- setting the exposure of the ideal area of then is the same as making one now
  have hsame (exposure : α) :
      before.setExposure exposure = (EffectiveArea.identity m'.current.energies).setExposure exposure := by
    rw [henergies]
    exact EffectiveArea.setExposure_setExposure hset exposure
  constructor
  · rintro ⟨curve, m₁, now, hcurve, hm₁, hnow, hset⟩
    cases hm₁.symm.trans hm'
    exact ⟨curve, before, now, hcurve, hbefore, hnow, (hsame _).trans hset⟩
  · rintro ⟨curve, before₁, now, hcurve, hbefore₁, hnow, hset⟩
    cases hbefore₁.symm.trans hbefore
    exact ⟨curve, m', now, hcurve, hm', hnow, (hsame _).symm.trans hset⟩

/-- The ideal matrix of a fit pair is in step if the effective area that it was made for keeps its grid, and only
then. -/
theorem PairInStep.idealMatrix_iff (h : t.PairInStep observed pair fit) (hcarried : t.Carried s [pair, fit])
    (hflag : s.config.useIdealMatrix = true) :
    (∃ curve m, s.areas.get fit.area = .ok curve ∧ s.matrices.get fit.matrix = .ok m ∧
        IdealBetween curve.grid observed m) ↔
      ∃ before now, t.areas.get fit.area = .ok before ∧ s.areas.get fit.area = .ok now ∧ now.grid = before.grid := by
  obtain ⟨before, m, hbefore, hm, hthen⟩ := h.idealMatrix (hcarried.config ▸ hflag)
  obtain ⟨m₀, m', hm₀, hm', hreaches⟩ := hcarried.matrices fit (by simp)
  cases hm.symm.trans hm₀
  constructor
  · rintro ⟨now, m₁, hnow, hm₁, hideal⟩
    cases hm₁.symm.trans hm'
    exact ⟨before, now, hbefore, hnow, (idealBetween_iff hthen hreaches).1 hideal⟩
  · rintro ⟨before₁, now, hbefore₁, hnow, hgrid⟩
    cases hbefore₁.symm.trans hbefore
    exact ⟨now, m', hnow, hm', (idealBetween_iff hthen hreaches).2 hgrid⟩

/-- A fit pair that was in step is in step if the effective areas stay, and only then. -/
theorem pairInStep_iff (h : t.PairInStep observed pair fit) (hmoved : t.matrices.All OnlyMoved)
    (hcarried : t.Carried s [pair, fit]) : s.PairInStep observed pair fit ↔ t.PairAreasStay s pair fit := by
  have hconfig := hcarried.config
  constructor
  · intro h'
    refine ⟨fun hflag => ?_, fun hflag => ?_⟩
    · exact (h.idealArea_iff hmoved hcarried hflag).1 (h'.idealArea hflag)
    · exact (h.idealMatrix_iff hcarried hflag).1 (h'.idealMatrix hflag)
  · intro hstay
    refine ⟨fun hflag => ?_, fun hflag => h.sameArea (hconfig ▸ hflag), fun hflag => ?_,
      fun hflag => h.sameMatrix (hconfig ▸ hflag)⟩
    · exact (h.idealArea_iff hmoved hcarried hflag).2 (hstay.ideal hflag)
    · exact (h.idealMatrix_iff hcarried hflag).2 (hstay.grid hflag)

/-- The pair that stands in does so as long as its effective area stays. -/
theorem standsIn_iff (h : t.StandsIn observed fit) (hcarried : t.Carried s [fit]) :
    s.StandsIn observed fit ↔ s.areas.get fit.area = t.areas.get fit.area := by
  obtain ⟨harea, m, hm, hideal⟩ := h
  rw [StandsIn, harea]
  refine and_iff_left ?_
  obtain ⟨m₀, m', hm₀, hm', hreaches⟩ := hcarried.matrices fit (by simp)
  cases hm.symm.trans hm₀
  exact ⟨m', hm', (idealBetween_iff hideal hreaches).2 rfl⟩

/-- Related lists stay related, or come to be related otherwise, element by element. -/
theorem forall₂_iff {β γ : Type} {P Q R : β → γ → Prop} {xs : List β} {ys : List γ} (h : List.Forall₂ P xs ys)
    (hiff : ∀ x ∈ xs, ∀ y ∈ ys, P x y → (Q x y ↔ R x y)) : List.Forall₂ Q xs ys ↔ List.Forall₂ R xs ys := by
  induction h with
  | nil => exact ⟨fun _ => .nil, fun _ => .nil⟩
  | cons hxy _ ih =>
    rw [List.forall₂_cons, List.forall₂_cons, hiff _ List.mem_cons_self _ List.mem_cons_self hxy]
    exact and_congr_right' (ih fun x hx y hy => hiff x (List.mem_cons_of_mem _ hx) y (List.mem_cons_of_mem _ hy))

/-- Fit pairs that were in step are in step if the effective areas stay, and only then. -/
theorem fitInStep_iff (h : t.FitInStep r) (hmoved : t.matrices.All OnlyMoved) (hcarried : t.Carried s r.pairs) :
    s.FitInStep r ↔ t.AreasStay s r := by
  have hpair (hne : r.assigned ≠ []) : List.Forall₂ (s.PairInStep r.spectrum.observed.grid) r.assigned r.fit ↔
      List.Forall₂ (t.PairAreasStay s) r.assigned r.fit := by
    refine forall₂_iff (h.pairs hne) fun pair hpair fit hfit hthen => ?_
    refine pairInStep_iff hthen hmoved (hcarried.mono ?_)
    have hassigned : pair ∈ r.pairs := List.mem_append_left _ hpair
    have hfitted : fit ∈ r.pairs := List.mem_append_right _ hfit
    simp [hassigned, hfitted]
  constructor
  · refine fun h' => ⟨fun hnone => ?_, fun hne => (hpair hne).1 (h'.pairs hne)⟩
    obtain ⟨fit, hfit, hthen⟩ := h.standsIn hnone
    obtain ⟨fit₁, hfit₁, hnow⟩ := h'.standsIn hnone
    cases hfit.symm.trans hfit₁
    intro fit' hfit'
    rw [hfit, List.mem_singleton] at hfit'
    subst hfit'
    refine (standsIn_iff hthen (hcarried.mono ?_)).1 hnow
    simp [SpectrumRecord.pairs, hfit]
  · refine fun h' => ⟨fun hnone => ?_, fun hne => (hpair hne).2 (h'.pairs hne)⟩
    obtain ⟨fit, hfit, hthen⟩ := h.standsIn hnone
    refine ⟨fit, hfit, (standsIn_iff hthen (hcarried.mono ?_)).2 (h'.standsIn hnone fit ?_)⟩
    · simp [SpectrumRecord.pairs, hfit]
    · simp [hfit]

/-! ### Deriving fit pairs -/

variable {s' : Session α} {channels : Grid α}

theorem Bred.config (h : Bred channels s s') : s'.config = s.config := by rw [h.rest]

/-- A fit pair stays in step while products are bred. -/
theorem PairInStep.bred (h : s.PairInStep observed pair fit) (hb : Bred channels s s') :
    s'.PairInStep observed pair fit := by
  refine ⟨fun hflag => ?_, fun hflag => h.sameArea (hb.config ▸ hflag), fun hflag => ?_,
    fun hflag => h.sameMatrix (hb.config ▸ hflag)⟩
  · obtain ⟨curve, m, ideal, hcurve, hm, hideal, hset⟩ := h.idealArea (hb.config ▸ hflag)
    exact ⟨curve, m, ideal, hb.areas.get_eq hcurve, hb.matrices.get_eq hm, hb.areas.get_eq hideal, hset⟩
  · obtain ⟨curve, m, hcurve, hm, hideal⟩ := h.idealMatrix (hb.config ▸ hflag)
    exact ⟨curve, m, hb.areas.get_eq hcurve, hb.matrices.get_eq hm, hideal⟩

omit [Scalar α] in
theorem get_insert {kind : ProductKind} {β : Type} {a : Arena kind β} (value : β) (retained : Bool) :
    (a.insert value retained).2.get (a.insert value retained).1 = .ok value :=
  Arena.get_eq_ok_iff.2 ⟨_, Arena.slot?_insert_self _ _, rfl⟩

/-- The effective area for a fit is an ideal one, or the assigned one. -/
theorem Yields.derived_of_fitArea {areaId : AreaId} (y : Yields (fitArea pair) s (.ok areaId) s') :
    (s.config.useIdealArea = true → ∃ curve m ideal, s.areas.get pair.area = .ok curve ∧
        s.matrices.get pair.matrix = .ok m ∧ s'.areas.get areaId = .ok ideal ∧
        (EffectiveArea.identity m.current.energies).setExposure curve.exposure = .ok ideal) ∧
      (s.config.useIdealArea = false → areaId = pair.area) := by
  have y₀ := y.of_get_bind
  split at y₀
  · rename_i hflag
    obtain ⟨curve, s₁, y₁, z₁⟩ := y₀.of_bind_ok
    obtain ⟨hcurve, rfl⟩ := y₁.of_area
    obtain ⟨m, s₂, y₂, z₂⟩ := z₁.of_bind_ok
    obtain ⟨hm, rfl⟩ := y₂.of_matrix
    dsimp only at z₂
    obtain ⟨ideal, s₃, y₃, z₃⟩ := z₂.of_bind_ok
    obtain ⟨hideal, rfl⟩ := yields_lift.1 y₃
    obtain ⟨h, rfl⟩ := z₃.of_insertArea
    cases h
    refine ⟨fun _ => ?_, fun hoff => absurd (hflag.symm.trans hoff) (by decide)⟩
    exact ⟨curve, m, ideal, Except.mapError_eq_ok.1 hcurve.symm, Except.mapError_eq_ok.1 hm.symm, get_insert _ _,
      hideal.symm⟩
  · rename_i hflag
    obtain ⟨h, rfl⟩ := yields_pure.1 y₀
    cases h
    exact ⟨fun hon => absurd hon hflag, fun _ => rfl⟩

/-- The matrix for a fit is an ideal one for the effective area, or the assigned one. -/
theorem Yields.derived_of_fitMatrix {areaId : AreaId} {matrixId : MatrixId}
    (y : Yields (fitMatrix observed pair areaId) s (.ok matrixId) s') :
    (s.config.useIdealMatrix = true → ∃ curve m, s.areas.get areaId = .ok curve ∧
        s'.matrices.get matrixId = .ok m ∧ IdealBetween curve.grid observed m) ∧
      (s.config.useIdealMatrix = false → matrixId = pair.matrix) := by
  have y₀ := y.of_get_bind
  split at y₀
  · rename_i hflag
    obtain ⟨curve, s₁, y₁, z₁⟩ := y₀.of_bind_ok
    obtain ⟨hcurve, rfl⟩ := y₁.of_area
    obtain ⟨ideal, s₂, y₂, z₂⟩ := z₁.of_bind_ok
    obtain ⟨rfl, hideal⟩ := y₂.of_noted
    obtain ⟨h, rfl⟩ := z₂.of_insertMatrix
    cases h
    refine ⟨fun _ => ?_, fun hoff => absurd (hflag.symm.trans hoff) (by decide)⟩
    exact ⟨curve, _, Except.mapError_eq_ok.1 hcurve.symm, get_insert _ _, hideal,
      ResponseMatrix.onlyMoved_ofRedistribution ideal⟩
  · rename_i hflag
    obtain ⟨h, rfl⟩ := yields_pure.1 y₀
    cases h
    exact ⟨fun hon => absurd hon hflag, fun _ => rfl⟩

/-- A pair that has just been derived is in step. -/
theorem Yields.pairInStep_of_fitPair (y : Yields (fitPair observed pair) s (.ok fit) s') :
    s'.PairInStep observed pair fit := by
  obtain ⟨areaId, s₁, y₁, z₁⟩ := y.of_bind_ok
  obtain ⟨matrixId, s₂, y₂, z₂⟩ := z₁.of_bind_ok
  obtain ⟨h, rfl⟩ := yields_pure.1 z₂
  cases h
  have hb₁ : Bred observed s s₁ := Bred.fitArea pair _ _ _ y₁
  have hb₂ : Bred observed s₁ s' := Bred.fitMatrix pair areaId _ _ _ y₂
  obtain ⟨hideal, hsame⟩ := y₁.derived_of_fitArea
  obtain ⟨hideal', hsame'⟩ := y₂.derived_of_fitMatrix
  have hconfig₁ := hb₂.config
  have hconfig : s'.config = s.config := hconfig₁.trans hb₁.config
  refine ⟨fun hflag => ?_, fun hflag => hsame (hconfig ▸ hflag), fun hflag => ?_,
    fun hflag => hsame' (hconfig₁ ▸ hflag)⟩
  · obtain ⟨curve, m, ideal, hcurve, hm, hnew, hset⟩ := hideal (hconfig ▸ hflag)
    exact ⟨curve, m, ideal, hb₂.areas.get_eq (hb₁.areas.get_eq hcurve), hb₂.matrices.get_eq (hb₁.matrices.get_eq hm),
      hb₂.areas.get_eq hnew, hset⟩
  · obtain ⟨curve, m, hcurve, hm, hbetween⟩ := hideal' (hconfig₁ ▸ hflag)
    exact ⟨curve, m, hb₂.areas.get_eq hcurve, hm, hbetween⟩

/-- So is the pair that stands in. -/
theorem Yields.standsIn_of_unassignedPair (y : Yields (unassignedPair observed) s (.ok fit) s') :
    s'.StandsIn observed fit := by
  obtain ⟨areaId, s₁, y₁, z₁⟩ := y.of_bind_ok
  obtain ⟨harea, rfl⟩ := y₁.of_insertArea
  obtain ⟨ideal, s₂, y₂, z₂⟩ := z₁.of_bind_ok
  obtain ⟨rfl, hideal⟩ := y₂.of_noted
  obtain ⟨matrixId, s₃, y₃, z₃⟩ := z₂.of_bind_ok
  obtain ⟨hmatrix, rfl⟩ := y₃.of_insertMatrix
  obtain ⟨h, rfl⟩ := yields_pure.1 z₃
  cases harea
  cases hmatrix
  cases h
  exact ⟨get_insert _ _, _, get_insert _ _, hideal, ResponseMatrix.onlyMoved_ofRedistribution ideal⟩

/-- Pairs that have been derived one after the other are in step in the end. -/
theorem Yields.pairsInStep_of_mapM {assigned fits : List ResponsePair}
    (y : Yields (assigned.mapM (fitPair observed)) s (.ok fits) s') :
    List.Forall₂ (s'.PairInStep observed) assigned fits := by
  induction assigned generalizing s fits with
  | nil =>
    obtain ⟨h, rfl⟩ := yields_pure.1 y
    cases h
    exact .nil
  | cons pair assigned ih =>
    rw [List.mapM_cons] at y
    obtain ⟨fit, s₁, y₁, z₁⟩ := y.of_bind_ok
    obtain ⟨fits', s₂, y₂, z₂⟩ := z₁.of_bind_ok
    obtain ⟨h, rfl⟩ := yields_pure.1 z₂
    cases h
    have hb : Bred observed s₁ s' := Keeps.mapM (fun _ _ => Bred.fitPair _) _ _ _ y₂
    exact .cons (y₁.pairInStep_of_fitPair.bred hb) (ih y₂)

/-- Pairs that have just been derived are in step. -/
theorem Yields.fitInStep_of_fitPairs {fits : List ResponsePair}
    (y : Yields (fitPairs r.spectrum.observed.grid r.assigned) s (.ok fits) s') :
    s'.FitInStep { r with fit := fits } := by
  unfold Session.fitPairs at y
  split at y
  · rename_i hnone
    obtain ⟨fit, s₁, y₁, z₁⟩ := y.of_bind_ok
    obtain ⟨h, rfl⟩ := yields_pure.1 z₁
    cases h
    exact ⟨fun _ => ⟨fit, rfl, y₁.standsIn_of_unassignedPair⟩, fun hne => absurd (List.isEmpty_iff.1 hnone) hne⟩
  · rename_i hsome
    exact ⟨fun hnone => absurd (List.isEmpty_iff.2 hnone) hsome, fun _ => y.pairsInStep_of_mapM⟩

end Session

end SpectralResponse
