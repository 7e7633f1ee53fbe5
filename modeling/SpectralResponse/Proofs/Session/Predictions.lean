import SpectralResponse.Proofs.Session.Cache

/-!
# What a prediction is made of

A prediction looks up the effective areas of the fit pairs and their grids, shares a grid among them if the
strategy says so, evaluates the model, and folds the flux of each effective area. Each of these parts is known from
the session: since a shared grid that was kept is the one that would be made, it can be left out of account.

## What is proved

* `answerTo_predictedCounts` — when a prediction succeeds, and what it answers.
* `Yields.of_addedCounts` — the counts of a spectrum are added up from those of its pairs.
* `answerTo_spectrumCounts_congr` — the counts of a spectrum depend on the fluxes of its own effective areas only.
* `answerTo_predictedCounts_of_stays` — predictions stay the same while the products of the fit pairs do.
-/

namespace SpectralResponse.Session

variable {α : Type} {s : Session α} {ids : List SpectrumId} {members : List EvaluationMember}

/-! ### Members -/

theorem reads_membersOf (id : SpectrumId) :
    Reads (α := α) (do return (← record id).fit.map fun pair => (id, pair.area)) :=
  .bind (.record id) fun _ => .pure _

/-- A spectrum is a member with the effective area of each of its fit pairs. -/
theorem answerTo_membersOf {id : SpectrumId} :
    answerTo (do return (← record id).fit.map fun pair => (id, pair.area)) s = .ok members ↔
      ∃ slot, s.spectra.slot? id = some slot ∧ members = slot.value.fit.map fun pair => (id, pair.area) := by
  rw [(Reads.record id).answerTo_bind, Except.bind_eq_ok]
  constructor
  · rintro ⟨r, hr, hmembers⟩
    obtain ⟨slot, hs, rfl⟩ := answerTo_record.1 hr
    exact ⟨slot, hs, (Except.ok.inj hmembers).symm⟩
  · rintro ⟨slot, hs, rfl⟩
    exact ⟨slot.value, answerTo_record.2 ⟨slot, hs, rfl⟩, rfl⟩

/-- The members of some spectra are those of each of them. -/
theorem answerTo_members : answerTo (Session.members ids) s = .ok members ↔
    ∃ lists, members = lists.flatten ∧ List.Forall₂ (fun id list => ∃ slot, s.spectra.slot? id = some slot ∧
      list = slot.value.fit.map fun pair => (id, pair.area)) ids lists := by
  rw [Session.members, (Reads.mapM reads_membersOf ids).answerTo_bind, Reads.answerTo_mapM reads_membersOf,
    Except.bind_eq_ok]
  simp only [Except.mapM_eq_ok, answerTo_membersOf]
  constructor
  · rintro ⟨lists, hlists, h⟩
    exact ⟨lists, (Except.ok.inj h).symm, hlists⟩
  · rintro ⟨lists, rfl, hlists⟩
    exact ⟨lists, hlists, rfl⟩

/-- The effective areas of some members, in whatever order. -/
theorem mem_areasOf {id : AreaId} : id ∈ areasOf members ↔ ∃ member ∈ members, member.2 = id := by
  rw [areasOf, mem_ascending strictlyOrders_handles, List.mem_map]

/-- The effective areas of the fit pairs of a spectrum. -/
theorem mem_areasOf_fit {id : SpectrumId} {fit : List ResponsePair} {areaId : AreaId} :
    areaId ∈ areasOf (fit.map fun pair => (id, pair.area)) ↔ ∃ pair ∈ fit, pair.area = areaId := by
  simp only [mem_areasOf, List.mem_map, exists_exists_and_eq_and]

variable [Scalar α] {grids : List (Grid α)} {model : Model α}

/-! ### Fluxes -/

/-- The shared grid is the one of the strategy. -/
theorem answerTo_sharedGrid (h : s.CacheSound) (hgrids : List.Forall₂ s.HasGrid (areasOf members) grids) :
    answerTo (sharedGrid members grids) s = (s.strategy.sharedGrid grids).mapError .grid := by
  have y : Yields (sharedGrid members grids) s (answerTo (sharedGrid members grids) s) _ := .of_run rfl
  have hmap : ((s.cache.get (evaluationKey members) s.strategy grids).map Prod.fst).mapError Fault.grid =
      ((s.cache.get (evaluationKey members) s.strategy grids).mapError Fault.grid).map Prod.fst := by
    cases s.cache.get (evaluationKey members) s.strategy grids <;> rfl
  rw [← h.get_eq hgrids, hmap]
  rcases y.of_get_bind.of_lift_bind with ⟨fault, hget, hanswer, -⟩ | ⟨⟨shared, cache⟩, hget, y₁⟩
  · rw [hanswer, hget]
    rfl
  · obtain ⟨hanswer, -⟩ := yields_pure.1 y₁.of_modify_bind
    rw [hanswer, hget]
    rfl

/-- Without a shared grid the fluxes are those of the model on each grid. -/
theorem eq_map_of_fluxes {values : List (List α)} {evaluated : List (Grid α)}
    (h : Session.fluxes model none grids = .ok (values, evaluated)) : values = grids.map model := by
  obtain ⟨onGrids, hvalues, h⟩ := Except.bind_eq_ok.1 h
  obtain ⟨rfl, -⟩ := Prod.mk.inj (Except.ok.inj h)
  refine Except.eq_map_of_mapM (fun grid value hvalue => ?_) hvalues
  obtain ⟨⟨⟩, -, hvalue⟩ := Except.bind_eq_ok.1 hvalue
  exact (Except.ok.inj hvalue).symm

/-- The fluxes are made of the members, their grids and the shared grid. -/
theorem answerTo_modelFluxes_eq (ids : List SpectrumId) (model : Model α) (s : Session α) :
    answerTo (modelFluxes ids model) s = (do
      let members ← answerTo (Session.members ids) s
      let grids ← answerTo ((areasOf members).mapM fun id => do return (← area id).grid) s
      let shared ← answerTo (sharedGrid members grids) s
      let result ← Session.fluxes model shared grids
      return ((areasOf members).zip result.1, result.2)) := by
  rw [modelFluxes, (reads_members ids).answerTo_bind]
  refine congrArg _ (funext fun members => ?_)
  rw [(reads_grids (areasOf members)).answerTo_bind]
  refine congrArg _ (funext fun grids => ?_)
  rw [answerTo_bind_reads fun _ s' y => ⟨s'.cache, Keeps.sharedGrid members grids _ _ _ y⟩]
  · refine congrArg _ (funext fun shared => ?_)
    rw [(Reads.lift _).answerTo_bind]
    rfl
  · exact fun shared => .bind (.lift _) fun _ => .pure _

/-- The fluxes are worked out on the shared grid. -/
theorem answerTo_modelFluxes (h : s.CacheSound) {fluxes : List (AreaId × List α) × List (Grid α)} :
    answerTo (modelFluxes ids model) s = .ok fluxes ↔ ∃ members grids shared values,
      answerTo (Session.members ids) s = .ok members ∧ List.Forall₂ s.HasGrid (areasOf members) grids ∧
      s.strategy.sharedGrid grids = .ok shared ∧ Session.fluxes model shared grids = .ok (values, fluxes.2) ∧
      (areasOf members).zip values = fluxes.1 := by
  rw [answerTo_modelFluxes_eq]
  simp only [Except.bind_eq_ok, answerTo_grids]
  constructor
  · rintro ⟨members, hmembers, grids, hgrids, shared, hshared, ⟨values, evaluated⟩, hvalues, hpair⟩
    rw [answerTo_sharedGrid h hgrids, Except.mapError_eq_ok] at hshared
    cases Except.ok.inj hpair
    exact ⟨members, grids, shared, values, hmembers, hgrids, hshared, hvalues, rfl⟩
  · rintro ⟨members, grids, shared, values, hmembers, hgrids, hshared, hvalues, hpair⟩
    refine ⟨members, hmembers, grids, hgrids, shared, ?_, (values, fluxes.2), hvalues, ?_⟩
    · rw [answerTo_sharedGrid h hgrids, hshared]
      rfl
    · rw [hpair]
      rfl

/-- A prediction is made of the fluxes and of the counts of each spectrum. -/
theorem answerTo_predictedCounts_eq (ids : List SpectrumId) (model : Model α) (s : Session α) :
    answerTo (predictedCounts ids model) s = (do
      let result ← answerTo (modelFluxes ids model) s
      let counts ← ids.mapM fun id => answerTo (spectrumCounts result.1 id) s
      return { counts, evaluated := result.2 }) := by
  rw [predictedCounts, answerTo_bind_reads fun _ s' y => ⟨s'.cache, Keeps.modelFluxes ids model _ _ _ y⟩]
  · refine congrArg _ (funext fun result => ?_)
    rw [(Reads.mapM (reads_spectrumCounts result.1) ids).answerTo_bind,
      Reads.answerTo_mapM (reads_spectrumCounts result.1)]
    rfl
  · exact fun result => .bind (.mapM (reads_spectrumCounts result.1) ids) fun _ => .pure _

/-- A prediction adds up the counts of each spectrum from the fluxes. -/
theorem answerTo_predictedCounts (h : s.CacheSound) {prediction : Prediction α} :
    answerTo (predictedCounts ids model) s = .ok prediction ↔ ∃ members grids shared values,
      answerTo (Session.members ids) s = .ok members ∧ List.Forall₂ s.HasGrid (areasOf members) grids ∧
      s.strategy.sharedGrid grids = .ok shared ∧
      Session.fluxes model shared grids = .ok (values, prediction.evaluated) ∧
      List.Forall₂ (fun id counts =>
        answerTo (spectrumCounts ((areasOf members).zip values) id) s = .ok counts) ids prediction.counts := by
  rw [answerTo_predictedCounts_eq]
  simp only [Except.bind_eq_ok, Except.mapM_eq_ok, answerTo_modelFluxes h]
  constructor
  · rintro ⟨result, hfluxes, counts, hcounts, hprediction⟩
    obtain ⟨members, grids, shared, values, hmembers, hgrids, hshared, hvalues, hzip⟩ := hfluxes
    cases Except.ok.inj hprediction
    rw [← hzip] at hcounts
    exact ⟨members, grids, shared, values, hmembers, hgrids, hshared, hvalues, hcounts⟩
  · rintro ⟨members, grids, shared, values, hmembers, hgrids, hshared, hvalues, hcounts⟩
    refine ⟨((areasOf members).zip values, prediction.evaluated), ?_, prediction.counts, hcounts, rfl⟩
    exact ⟨members, grids, shared, values, hmembers, hgrids, hshared, hvalues, rfl⟩

/-! ### Counts -/

/-- Sums of lists of the same length have that length. -/
theorem length_foldl_add {n : Nat} {lists : List (List α)} (hlists : ∀ list ∈ lists, list.length = n) {init : List α}
    (hinit : init.length = n) : (lists.foldl (List.zipWith (· + ·)) init).length = n := by
  induction lists generalizing init with
  | nil => exact hinit
  | cons list lists ih =>
    obtain ⟨hlist, hlists⟩ := List.forall_mem_cons.1 hlists
    exact ih hlists (by rw [List.length_zipWith, hinit, hlist, Nat.min_self])

section

variable {s' : Session α} {pair : ResponsePair} {fluxes : List (AreaId × List α)} {spectrum : Spectrum α}
  {counts : List α}

/-- What the counts of one pair are made of. -/
theorem Yields.of_pairCounts (y : Yields (pairCounts fluxes spectrum pair) s (.ok counts) s') :
    s' = s ∧ ∃ curve mslot flux folded, s.areas.slot? pair.area = some curve ∧
      s.matrices.slot? pair.matrix = some mslot ∧ fluxOf fluxes pair.area = .ok flux ∧
      spectrum.kernel.fold curve.value mslot.value.current flux
        (List.replicate mslot.value.current.channelCount 0) = .ok folded ∧
      spectrum.toWorking folded = .ok counts := by
  rcases y.of_area_bind with ⟨_, -, hfault, -⟩ | ⟨curve, hcurve, y₁⟩
  · cases hfault
  rcases y₁.of_matrix_bind with ⟨_, -, hfault, -⟩ | ⟨mslot, hm, y₂⟩
  · cases hfault
  rcases y₂.of_lift_bind with ⟨_, -, hfault, -⟩ | ⟨flux, hflux, y₃⟩
  · cases hfault
  rcases y₃.of_lift_bind with ⟨_, -, hfault, -⟩ | ⟨folded, hfolded, y₄⟩
  · cases hfault
  obtain ⟨hcounts, rfl⟩ := yields_lift.1 y₄
  exact ⟨rfl, curve, mslot, flux, folded, hcurve, hm, hflux, hfolded, hcounts.symm⟩

/-- The counts of some pairs are added up, and the session stays as it is. -/
theorem Yields.of_addedCounts {fit : List ResponsePair} {init : List α}
    (y : Yields (fit.foldlM (fun counts pair => do
      return List.zipWith (· + ·) counts (← Session.pairCounts fluxes spectrum pair)) init) s (.ok counts) s') :
    s' = s ∧ ∃ lists, List.Forall₂ (fun pair list => Yields (pairCounts fluxes spectrum pair) s (.ok list) s)
      fit lists ∧ counts = lists.foldl (List.zipWith (· + ·)) init := by
  induction fit generalizing init with
  | nil =>
    obtain ⟨hcounts, rfl⟩ := yields_pure.1 y
    exact ⟨rfl, [], .nil, Except.ok.inj hcounts⟩
  | cons pair fit ih =>
    rw [List.foldlM_cons] at y
    obtain ⟨next, s₁, y₁, y₂⟩ := y.of_bind_ok
    obtain ⟨list, z, rfl⟩ := y₁.of_bind_pure
    obtain rfl := z.of_pairCounts.1
    obtain ⟨rfl, lists, hlists, hcounts⟩ := ih y₂
    exact ⟨rfl, list :: lists, .cons z hlists, hcounts⟩

end

omit [Scalar α] in
/-- The flux of an effective area stands beside it. -/
theorem exists_fluxOf (model : Model α) {areaIds : List AreaId} (hgrids : List.Forall₂ s.HasGrid areaIds grids)
    {id : AreaId} (hid : id ∈ areaIds) :
    ∃ grid, s.HasGrid id grid ∧ fluxOf (areaIds.zip (grids.map model)) id = .ok (model grid) := by
  induction hgrids with
  | nil => cases hid
  | @cons areaId grid areaIds grids hgrid _ ih =>
    by_cases hsame : areaId = id
    · subst hsame
      exact ⟨grid, hgrid, by simp [fluxOf]⟩
    · obtain ⟨grid', hgrid', hflux⟩ := ih ((List.mem_cons.1 hid).resolve_left fun he => hsame he.symm)
      refine ⟨grid', hgrid', ?_⟩
      rw [← hflux]
      simp [fluxOf, hsame]

/-- The counts of a spectrum depend on the fluxes of its own effective areas only. -/
theorem answerTo_spectrumCounts_congr {fluxes fluxes' : List (AreaId × List α)} {id : SpectrumId}
    {slot : Slot (SpectrumRecord α)} (hs : s.spectra.slot? id = some slot)
    (h : ∀ pair ∈ slot.value.fit, fluxOf fluxes pair.area = fluxOf fluxes' pair.area) :
    answerTo (spectrumCounts fluxes id) s = answerTo (spectrumCounts fluxes' id) s := by
  have hrecord : answerTo (record id) s = .ok slot.value := answerTo_record.2 ⟨slot, hs, rfl⟩
  rw [spectrumCounts, spectrumCounts, (Reads.record id).answerTo_bind, (Reads.record id).answerTo_bind, hrecord]
  refine congrArg (answerTo · s) ?_
  generalize List.replicate slot.value.spectrum.workingCount (0 : α) = init
  generalize slot.value.fit = fit at h
  induction fit generalizing init with
  | nil => rfl
  | cons pair fit ih =>
    obtain ⟨hpair, hfit⟩ := List.forall_mem_cons.1 h
    have hcounts : pairCounts fluxes slot.value.spectrum pair = pairCounts fluxes' slot.value.spectrum pair := by
      rw [pairCounts, pairCounts, hpair]
    rw [List.foldlM_cons, List.foldlM_cons, hcounts]
    exact congrArg _ (funext fun counts => ih counts hfit)

/-! ### Sessions that predict the same -/

section

variable {s' : Session α}

omit [Scalar α] in
/-- The products of a pair have the values they had. -/
structure PairStays (s s' : Session α) (pair : ResponsePair) : Prop where
  /-- The effective area. -/
  area : s'.areas.get pair.area = s.areas.get pair.area
  /-- The matrix. -/
  matrix : s'.matrices.get pair.matrix = s.matrices.get pair.matrix

omit [Scalar α] in
theorem answerTo_record_congr (h : s'.spectra = s.spectra) (id : SpectrumId) :
    answerTo (record id) s' = answerTo (record id) s := by
  show (s'.spectra.get id).mapError _ = (s.spectra.get id).mapError _
  rw [h]

omit [Scalar α] in
theorem answerTo_members_congr (h : s'.spectra = s.spectra) (ids : List SpectrumId) :
    answerTo (Session.members ids) s' = answerTo (Session.members ids) s := by
  rw [Session.members, (Reads.mapM reads_membersOf ids).answerTo_bind, (Reads.mapM reads_membersOf ids).answerTo_bind,
    Reads.answerTo_mapM reads_membersOf, Reads.answerTo_mapM reads_membersOf]
  simp only [(Reads.record _).answerTo_bind, answerTo_record_congr h]
  rfl

omit [Scalar α] in
theorem answerTo_area_congr {id : AreaId} (h : s'.areas.get id = s.areas.get id) :
    answerTo (area id) s' = answerTo (area id) s := by
  show (s'.areas.get id).mapError _ = (s.areas.get id).mapError _
  rw [h]

omit [Scalar α] in
theorem answerTo_matrix_congr {id : MatrixId} (h : s'.matrices.get id = s.matrices.get id) :
    answerTo (matrix id) s' = answerTo (matrix id) s := by
  show (s'.matrices.get id).mapError _ = (s.matrices.get id).mapError _
  rw [h]

theorem answerTo_pairCounts_congr {pair : ResponsePair} (h : PairStays s s' pair)
    (fluxes : List (AreaId × List α)) (spectrum : Spectrum α) :
    answerTo (pairCounts fluxes spectrum pair) s' = answerTo (pairCounts fluxes spectrum pair) s := by
  simp only [pairCounts, (Reads.area _).answerTo_bind, (Reads.matrix _).answerTo_bind, (Reads.lift _).answerTo_bind,
    answerTo_area_congr h.area, answerTo_matrix_congr h.matrix]
  rfl

/-- The counts of a spectrum depend on the products of its fit pairs only. -/
theorem answerTo_spectrumCounts_of_stays {id : SpectrumId} (hspectra : s'.spectra = s.spectra)
    (hstays : ∀ slot, s.spectra.slot? id = some slot → ∀ pair ∈ slot.value.fit, PairStays s s' pair)
    (fluxes : List (AreaId × List α)) :
    answerTo (spectrumCounts fluxes id) s' = answerTo (spectrumCounts fluxes id) s := by
  rw [spectrumCounts, (Reads.record id).answerTo_bind, (Reads.record id).answerTo_bind,
    answerTo_record_congr hspectra]
  refine Except.bind_congr fun r hanswer => ?_
  obtain ⟨slot, hs, rfl⟩ := answerTo_record.1 hanswer
  have hreads (counts : List α) (pair : ResponsePair) :
      Reads (do return List.zipWith (· + ·) counts (← pairCounts fluxes slot.value.spectrum pair)) :=
    .bind (reads_pairCounts _ _ _) fun _ => .pure _
  rw [Reads.answerTo_foldlM hreads, Reads.answerTo_foldlM hreads]
  refine Except.foldlM_congr (fun pair hpair counts => ?_) _
  rw [(reads_pairCounts _ _ _).answerTo_bind, (reads_pairCounts _ _ _).answerTo_bind,
    answerTo_pairCounts_congr (hstays slot hs pair hpair)]
  rfl

/-- The fluxes of a model depend on the grids of the effective areas of the fit pairs and on where models are
evaluated. -/
theorem answerTo_modelFluxes_of_stays (hspectra : s'.spectra = s.spectra) (hstrategy : s'.strategy = s.strategy)
    (h : s.CacheSound) (h' : s'.CacheSound)
    (hstays : ∀ id ∈ ids, ∀ slot, s.spectra.slot? id = some slot → ∀ pair ∈ slot.value.fit, PairStays s s' pair) :
    answerTo (modelFluxes ids model) s' = answerTo (modelFluxes ids model) s := by
  rw [answerTo_modelFluxes_eq, answerTo_modelFluxes_eq, answerTo_members_congr hspectra]
  refine Except.bind_congr fun members hmembers => ?_
  have hareas : ∀ areaId ∈ areasOf members, s'.areas.get areaId = s.areas.get areaId := by
    intro areaId harea
    obtain ⟨member, hmember, rfl⟩ := mem_areasOf.1 harea
    obtain ⟨lists, rfl, hlists⟩ := answerTo_members.1 hmembers
    obtain ⟨list, hlist, hmember⟩ := List.mem_flatten.1 hmember
    obtain ⟨id, hid, slot, hs, rfl⟩ := Except.exists_of_mem_forall₂ hlists hlist
    obtain ⟨pair, hpair, rfl⟩ := List.mem_map.1 hmember
    exact (hstays id hid slot hs pair hpair).area
  have hgrids : answerTo ((areasOf members).mapM fun id => do return (← area id).grid) s' =
      answerTo ((areasOf members).mapM fun id => do return (← area id).grid) s := by
    have hreads (id : AreaId) : Reads (do return (← area (α := α) id).grid) := .bind (.area id) fun _ => .pure _
    rw [Reads.answerTo_mapM hreads, Reads.answerTo_mapM hreads]
    refine Except.mapM_congr fun areaId harea => ?_
    rw [(Reads.area _).answerTo_bind, (Reads.area _).answerTo_bind, answerTo_area_congr (hareas areaId harea)]
    rfl
  rw [hgrids]
  refine Except.bind_congr fun grids hanswer => ?_
  rw [answerTo_sharedGrid h (answerTo_grids.1 hanswer),
    answerTo_sharedGrid h' (answerTo_grids.1 (hgrids.trans hanswer)), hstrategy]

/-- Predictions for some spectra stay the same while the spectra, the values of the products of their fit pairs and
the place where models are evaluated do. -/
theorem answerTo_predictedCounts_of_stays (hspectra : s'.spectra = s.spectra) (hstrategy : s'.strategy = s.strategy)
    (h : s.CacheSound) (h' : s'.CacheSound)
    (hstays : ∀ id ∈ ids, ∀ slot, s.spectra.slot? id = some slot → ∀ pair ∈ slot.value.fit, PairStays s s' pair) :
    answerTo (predictedCounts ids model) s' = answerTo (predictedCounts ids model) s := by
  rw [answerTo_predictedCounts_eq, answerTo_predictedCounts_eq,
    answerTo_modelFluxes_of_stays hspectra hstrategy h h' hstays]
  refine congrArg _ (funext fun result => ?_)
  rw [Except.mapM_congr fun id hid => answerTo_spectrumCounts_of_stays hspectra (hstays id hid) result.1]

end

end SpectralResponse.Session
