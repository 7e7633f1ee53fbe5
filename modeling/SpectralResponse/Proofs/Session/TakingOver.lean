import SpectralResponse.Proofs.Scalar.Rational
import SpectralResponse.Proofs.Session.Fitting

/-!
# Taking over a configuration

When a session takes over a configuration, one spectrum after another does so, in the order of their handles: it
derives its fit pairs anew, and the matrices that only it names follow it. So a matrix that a later spectrum
has in a fit pair does not follow, even if that spectrum is about to let go of it. And a matrix that stands where it should
already is not moved, whatever weights were left out when it was brought there.

## What is proved

* `TakenOver` — what the spectra that take over a configuration leave alone, one or several.
* `Yields.of_takeOver_own` — where the matrices of one spectrum are then.
* `Turn` — what comes before and after the turn of one spectrum.
* `configuration_reaches_matrices` — where the matrix of a single spectrum is when all have taken over a configuration.
* `old_threshold_and_old_pair_linger` — a matrix in place, and one that a later spectrum lets go of.
-/

namespace SpectralResponse

variable {α : Type} [Scalar α]

/-! ### Moves from the matrix as it was built -/

namespace ResponseMatrix

variable {m moved : ResponseMatrix α} {target : Grid α} {threshold : α} {changed : Bool}

/-- The matrix is what a move makes of the matrix as it was built. -/
def MovedDirectly (m : ResponseMatrix α) (target : Grid α) (threshold : α) : Prop :=
  ∃ changed, (ofRedistribution m.native).rebinChannels target threshold = .ok (changed, m)

/-- A matrix that does not stand on a grid already is moved there from where it was built. -/
theorem movedDirectly_of_rebinChannels (h : m.rebinChannels target threshold = .ok (changed, moved)) :
    moved.MovedDirectly target threshold ∨ moved = m ∧ m.current.channels.agrees target Grid.edgeTolerance = true := by
  rw [rebinChannels_eq] at h
  split at h
  · rename_i hthere
    cases Except.ok.inj h
    exact .inr ⟨rfl, hthere⟩
  refine .inl ?_
  split at h
  · rename_i hnative
    cases Except.ok.inj h
    exact ⟨false, (rebinChannels_eq _ _ _).trans (if_pos hnative)⟩
  · rename_i hnative
    obtain ⟨current, hmoved, h⟩ := Except.bind_eq_ok.1 h
    cases Except.ok.inj h
    refine ⟨true, (rebinChannels_eq _ _ _).trans ((if_neg hnative).trans ((if_neg hnative).trans ?_))⟩
    exact Except.bind_eq_ok.2 ⟨current, hmoved, rfl⟩

end ResponseMatrix

namespace Session

variable {s s₁ s' : Session α} {config : Config α} {id : SpectrumId} {ids ids' : List SpectrumId}
  {slot : Slot (SpectrumRecord α)} {matrixId : MatrixId} {mslot : Slot (ResponseMatrix α)} {ms : List MatrixId}

/-! ### Matrices that follow -/

theorem Balanced.syncedMatrix {r : SpectrumRecord α} (hb : s.Balanced) (h : s.syncedMatrix r matrixId = .ok s') :
    s'.Balanced := by
  obtain ⟨mslot, hm, ⟨-, rfl⟩ | ⟨-, _, changed, moved, -, -, rfl⟩⟩ := of_syncedMatrix h
  · exact hb
  · exact (sameHoldings_withMatrix hm moved changed).held hb

/-- A matrix that another spectrum names stays where it is. -/
theorem slot?_of_syncList {other : SpectrumId} {oslot : Slot (SpectrumRecord α)} (hb : s.Balanced)
    (hs : s.spectra.slot? id = some slot) (ho : s.spectra.slot? other = some oslot) (hne : other ≠ id)
    (hm : matrixId ∈ oslot.value.matrices) (h : ms.foldlM (syncedMatrix slot.value) s = .ok s') :
    s'.matrices.slot? matrixId = s.matrices.slot? matrixId := by
  induction ms generalizing s with
  | nil =>
    cases h
    rfl
  | cons m ms ih =>
    rw [List.foldlM_cons] at h
    obtain ⟨s₁, h₁, h₂⟩ := Except.bind_eq_ok.1 h
    obtain ⟨hspectra, -, -, hother⟩ := syncedMatrix_frame h₁
    rw [ih (hb.syncedMatrix h₁) (by rw [hspectra, hs]) (by rw [hspectra, ho]) h₂]
    by_cases heq : matrixId = m
    · subst heq
      obtain ⟨mslot, hms, ⟨-, rfl⟩ | ⟨hown, -⟩⟩ := of_syncedMatrix h₁
      · rfl
      · exact absurd ((inUse_eq_iff_onlyNamedBy hb hs hms).1 hown other oslot ho hm) hne
    · exact hother matrixId heq

/-- A matrix that only the spectrum names is moved once. -/
theorem of_syncList_of_mem (hb : s.Balanced) (hs : s.spectra.slot? id = some slot)
    (honly : s.OnlyNamedBy matrixId id) (hm : s.matrices.slot? matrixId = some mslot)
    (hlen : mslot.value.native.channels.length = slot.value.spectrum.grouping.fineLength) (hms : ms.Nodup)
    (hmem : matrixId ∈ ms) (h : ms.foldlM (syncedMatrix slot.value) s = .ok s') :
    ∃ target changed mslot', slot.value.spectrum.grouping.grid mslot.value.native.channels = .ok target ∧
      mslot.value.rebinChannels target s.config.matrixRebinThreshold = .ok (changed, mslot'.value) ∧
        s'.matrices.slot? matrixId = some mslot' := by
  induction ms generalizing s with
  | nil => cases hmem
  | cons m ms ih =>
    rw [List.foldlM_cons] at h
    obtain ⟨s₁, h₁, h₂⟩ := Except.bind_eq_ok.1 h
    obtain ⟨hspectra, hconfig, -, hother⟩ := syncedMatrix_frame h₁
    obtain ⟨hnot, hms⟩ := List.nodup_cons.1 hms
    by_cases heq : matrixId = m
    · subst heq
      obtain ⟨mslot', hm', ⟨hshared | hlength, -⟩ | ⟨-, target, changed, moved, hgrid, hmove, rfl⟩⟩ :=
        of_syncedMatrix h₁
      · exact absurd ((inUse_eq_iff_onlyNamedBy hb hs hm').2 honly) hshared
      · cases hm.symm.trans hm'
        exact absurd hlen hlength
      · cases hm.symm.trans hm'
        refine ⟨target, changed, { mslot with value := moved }, hgrid, hmove, ?_⟩
        rw [(foldlM_syncedMatrix_frame h₂).2.2 matrixId hnot]
        exact Arena.slot?_setSlot_self hm _
    · have honly₁ : s₁.OnlyNamedBy matrixId id := fun other oslot ho => honly other oslot (hspectra ▸ ho)
      rw [← hconfig]
      exact ih (hb.syncedMatrix h₁) (by rw [hspectra, hs]) honly₁ (by rw [hother matrixId heq, hm]) hms
        ((List.mem_cons.1 hmem).resolve_left heq) h₂

/-! ### One spectrum -/

/-- A spectrum takes over a configuration, and derives its fit pairs anew. -/
def takeOver (config : Config α) (id : SpectrumId) : SessionM α Unit := do
  updateSpectrum id (·.configure config)
  refreshFit id

/-- The spectrum is changed, its fit pairs are exchanged, and its matrices are moved next. -/
theorem Yields.of_takeOver (h : s.Fitting) (y : Yields (takeOver config id) s (.ok ()) s') :
    ∃ slot next fit s₁, s.spectra.slot? id = some slot ∧
      Refreshed (s.withSpectrum id slot next) id { slot with value := { slot.value with spectrum := next } } fit s₁ ∧
        s₁.Fitting ∧ Yields (syncMatrices id) s₁ (.ok ()) s' := by
  obtain ⟨⟨⟩, s₀, y₁, y₂⟩ := y.of_bind_ok
  rcases y₁.of_updateSpectrum with ⟨_, hfault, -⟩ | ⟨slot, next, hs, hnext, -, rfl⟩
  · cases hfault
  have hchanged := PlacedBut.configured h hs hnext
  rcases y₂.of_refreshFit hchanged.balanced with ⟨_, _, hfault, -⟩ | ⟨slot', fit, s₁, hr, y₃⟩
  · cases hfault
  cases (Arena.slot?_setSlot_self hs _).symm.trans hr.found
  exact ⟨slot, next, fit, s₁, hs, hr, hchanged.refreshed hr, y₃⟩

/-- A matrix is there before and after, and is the same. -/
def SameMatrix (matrixId : MatrixId) (s s' : Session α) : Prop :=
  ∃ mslot mslot', s.matrices.slot? matrixId = some mslot ∧ s'.matrices.slot? matrixId = some mslot' ∧
    mslot'.value = mslot.value

omit [Scalar α] in
theorem SameMatrix.trans (h : SameMatrix matrixId s s₁) (h' : SameMatrix matrixId s₁ s') :
    SameMatrix matrixId s s' := by
  obtain ⟨mslot, mslot₁, hm, hm₁, hvalue⟩ := h
  obtain ⟨mslot₁', mslot', hm₁', hm', hvalue'⟩ := h'
  cases hm₁.symm.trans hm₁'
  exact ⟨mslot, mslot', hm, hm', hvalue'.trans hvalue⟩

/-- What the spectra that take over a configuration leave alone. -/
structure TakenOver (ids : List SpectrumId) (s s' : Session α) : Prop where
  /-- The session is fitting. -/
  fitting : s'.Fitting
  /-- The configuration stays. -/
  config : s'.config = s.config
  /-- The spectra stay, with the pairs that are assigned to them. -/
  assigned : ∀ id, (s'.spectra.slot? id).map (fun slot => slot.value.assigned) =
    (s.spectra.slot? id).map fun slot => slot.value.assigned
  /-- All other spectra stay as they are. -/
  others : ∀ id ∉ ids, s'.spectra.slot? id = s.spectra.slot? id
  /-- So do the matrices that these name. -/
  kept : ∀ id ∉ ids, ∀ slot, s.spectra.slot? id = some slot → ∀ matrixId ∈ slot.value.matrices,
    SameMatrix matrixId s s'

theorem TakenOver.append (h : TakenOver ids s s₁) (h' : TakenOver ids' s₁ s') : TakenOver (ids ++ ids') s s' := by
  refine ⟨h'.fitting, h'.config.trans h.config, fun id => (h'.assigned id).trans (h.assigned id), ?_, ?_⟩
  · intro id hid
    obtain ⟨hids, hids'⟩ := not_or.1 (mt List.mem_append.2 hid)
    rw [h'.others id hids', h.others id hids]
  · intro id hid slot hs matrixId hm
    obtain ⟨hids, hids'⟩ := not_or.1 (mt List.mem_append.2 hid)
    exact (h.kept id hids slot hs matrixId hm).trans
      (h'.kept id hids' slot (by rw [h.others id hids, hs]) matrixId hm)

/-- One spectrum leaves all others alone. -/
theorem Yields.takenOver (h : s.Fitting) (y : Yields (takeOver config id) s (.ok ()) s') : TakenOver [id] s s' := by
  obtain ⟨slot, next, fit, s₁, hs, hr, hfitting, y₁⟩ := y.of_takeOver h
  have hmoves : OnlyMoves s₁ s' := OnlyMoves.syncMatrices id _ _ _ y₁
  have hothers : ∀ other ≠ id, s'.spectra.slot? other = s.spectra.slot? other := fun other hne => by
    rw [hmoves.spectra, hr.spectra, Arena.slot?_setSlot_of_ne hne]
    exact Arena.slot?_setSlot_of_ne hne _
  refine ⟨.of_placedBut (PlacedBut.syncMatrices hfitting y₁), hmoves.config.trans hr.config, fun other => ?_,
    fun other hother => ?_, fun other hother oslot ho matrixId hm => ?_⟩
  · by_cases hother : other = id
    · subst hother
      rw [hmoves.spectra, hr.spectra, Arena.slot?_setSlot_self hr.found, hs]
      rfl
    · rw [hothers other hother]
  · exact hothers other (mt List.mem_singleton.2 hother)
  · have hne := mt List.mem_singleton.2 hother
    have ho₁ : s₁.spectra.slot? other = some oslot := by rw [← hmoves.spectra, hothers other hne, ho]
    obtain ⟨mslot, hms⟩ := h.balanced.exists_matrix ho hm
    obtain ⟨mslot₁, hms₁⟩ := hfitting.balanced.exists_matrix ho₁ hm
    have hvalue := Arena.value_eq_of_origin (hr.exchanges.matrices_origin matrixId mslot₁ hms₁) hms
    refine ⟨mslot, mslot₁, hms, ?_, hvalue.symm⟩
    rcases y₁.of_matricesSynced with ⟨-, slot₁, hs₁, hsync⟩ | ⟨-, rfl⟩
    · rw [slot?_of_syncList hfitting.balanced hs₁ ho₁ hne hm hsync, hms₁]
    · exact hms₁

/-- A matrix that only this spectrum names then has been moved from where it was built, unless the spectrum named it
before and it stood in place. -/
theorem Yields.of_takeOver_own (h : s.Fitting) (hflag : s.config.rebinMatrixWithData = true)
    (y : Yields (takeOver config id) s (.ok ()) s') (hs' : s'.spectra.slot? id = some slot)
    (hm : matrixId ∈ slot.value.matrices) (hm' : s'.matrices.slot? matrixId = some mslot)
    (honly : s'.OnlyNamedBy matrixId id) :
    ∃ target, slot.value.spectrum.grouping.grid mslot.value.native.channels = .ok target ∧
      (mslot.value.MovedDirectly target s.config.matrixRebinThreshold ∨
        ∃ old before, s.spectra.slot? id = some old ∧ matrixId ∈ old.value.matrices ∧
          s.matrices.slot? matrixId = some before ∧ mslot.value = before.value ∧
            before.value.current.channels.agrees target Grid.edgeTolerance = true) := by
  obtain ⟨old, next, fit, s₁, hs, hr, hfitting, y₁⟩ := y.of_takeOver h
  have hmoves : OnlyMoves s₁ s' := OnlyMoves.syncMatrices id _ _ _ y₁
  have hs₁ : s₁.spectra.slot? id = some slot := hmoves.spectra ▸ hs'
  obtain ⟨mslot₁, hm₁⟩ := hfitting.balanced.exists_matrix hs₁ hm
  have hlen : mslot₁.value.native.channels.length = slot.value.spectrum.grouping.fineLength := by
    rw [(hfitting.spectra id slot hs₁).fineLength]
    exact hfitting.fits id slot matrixId mslot₁ ⟨hs₁, hm, hm₁⟩
  have hconfig : s₁.config = s.config := hr.config
  rcases y₁.of_matricesSynced with ⟨-, slot₁, hslot₁, hsync⟩ | ⟨hoff, -⟩
  swap
  · rw [hconfig, hflag] at hoff
    cases hoff
  cases hs₁.symm.trans hslot₁
  have honly₁ : s₁.OnlyNamedBy matrixId id := fun other oslot ho => honly other oslot (hmoves.spectra ▸ ho)
  obtain ⟨target, changed, mslot', hgrid, hmove, hm''⟩ := of_syncList_of_mem hfitting.balanced hs₁ honly₁ hm₁ hlen
    (nodup_ascending strictlyOrders_handles _) ((mem_ascending strictlyOrders_handles).2 hm) hsync
  cases hm'.symm.trans hm''
  have hnative := ResponseMatrix.native_of_rebinChannels hmove
  rw [hconfig] at hmove
  refine ⟨target, hnative ▸ hgrid, ?_⟩
  rcases hr.exchanges.matrices_origin matrixId mslot₁ hm₁ with ⟨before, hbefore, hvalue⟩ | ⟨-, hideal⟩
  · refine (ResponseMatrix.movedDirectly_of_rebinChannels hmove).imp_right fun ⟨hstays, hagrees⟩ => ?_
    refine ⟨old, before, hs, ?_, hbefore, hstays.trans hvalue.symm, hvalue ▸ hagrees⟩
    have hslot := (hr.spectra ▸ hs₁ : (Arena.setSlot _ id _).slot? id = some slot)
    cases (Arena.slot?_setSlot_self hr.found _).symm.trans hslot
    exact (hr.named hm).resolve_right (Nat.not_le.2 (Arena.index_lt_of_slot? hbefore))
  · -- an ideal matrix that was made for this spectrum stands where it was built
    obtain ⟨energies, ideal, -, hvalue⟩ := hideal
    rw [hvalue] at hmove hnative
    exact .inl ⟨changed, hnative ▸ hmove⟩

/-! ### All spectra -/

/-- Several spectra, one after the other, leave all others alone. -/
theorem Yields.allTakenOver (h : s.Fitting) (y : Yields (ids.forM (takeOver config)) s (.ok ()) s') :
    TakenOver ids s s' := by
  induction ids generalizing s with
  | nil =>
    obtain ⟨-, rfl⟩ := yields_pure.1 y
    refine ⟨h, rfl, fun _ => rfl, fun _ _ => rfl, fun id _ slot hs matrixId hm => ?_⟩
    obtain ⟨mslot, hms⟩ := h.balanced.exists_matrix hs hm
    exact ⟨mslot, mslot, hms, hms, rfl⟩
  | cons id ids ih =>
    obtain ⟨⟨⟩, s₁, y₁, y₂⟩ := Yields.of_bind_ok y
    have hfirst := y₁.takenOver h
    exact hfirst.append (ih hfirst.fitting y₂)

/-- A spectrum that takes over the configuration later has the matrix in a fit pair. -/
def HeldLater (s : Session α) (id : SpectrumId) (matrixId : MatrixId) : Prop :=
  ∃ later slot, s.spectra.slot? later = some slot ∧ id.index < later.index ∧
    matrixId ∈ slot.value.fit.map ResponsePair.matrix

omit [Scalar α] in
/-- In the order of their handles, some spectra take over a configuration before a given one, and some after it. -/
theorem exists_order (hs : s.spectra.slot? id = some slot) : ∃ before after,
    s.spectra.ids = before ++ id :: after ∧ (∀ other ∈ before, other.index < id.index) ∧
      ∀ other ∈ after, id.index < other.index := by
  obtain ⟨before, after, hids⟩ := List.append_of_mem (Arena.mem_ids_of_slot? hs)
  have hpairwise := s.spectra.pairwise_ids
  rw [hids] at hpairwise
  obtain ⟨-, hafter, hbefore⟩ := List.pairwise_append.1 hpairwise
  exact ⟨before, after, hids, fun other hother => hbefore other hother id List.mem_cons_self,
    (List.pairwise_cons.1 hafter).1⟩

/-- The turn of one spectrum when all take over a configuration, in the order of their handles. -/
structure Turn (config : Config α) (id : SpectrumId) (earlier later : List SpectrumId) (s t t' s' : Session α) :
    Prop where
  /-- Some have taken it over before. -/
  before : TakenOver earlier s t
  /-- Then this one takes it over. -/
  own : Yields (takeOver config id) t (.ok ()) t'
  /-- It leaves the others alone. -/
  alone : TakenOver [id] t t'
  /-- Some take it over after that. -/
  after : TakenOver later t' s'
  /-- Those before it have lesser handles. -/
  earlier_lt : ∀ other ∈ earlier, other.index < id.index
  /-- Those after it have greater handles. -/
  lt_later : ∀ other ∈ later, id.index < other.index

/-- Each spectrum that is there in the end has had its turn. -/
theorem Yields.exists_turn (h : s.Fitting) (y : Yields (s.spectra.ids.forM (takeOver config)) s (.ok ()) s')
    (hs' : s'.spectra.slot? id = some slot) : ∃ earlier later t t', Turn config id earlier later s t t' s' := by
  obtain ⟨slot₀, hs₀⟩ : ∃ slot₀, s.spectra.slot? id = some slot₀ := by
    have hassigned := (y.allTakenOver h).assigned id
    rw [hs'] at hassigned
    exact (Option.map_eq_some_iff.1 hassigned.symm).imp fun _ => And.left
  obtain ⟨earlier, later, hids, hearlier, hlater⟩ := exists_order hs₀
  rw [hids] at y
  obtain ⟨t, y₁, y⟩ := y.of_forM_append
  obtain ⟨⟨⟩, t', y₂, y₃⟩ := Yields.of_bind_ok y
  have hbefore := y₁.allTakenOver h
  have halone := y₂.takenOver hbefore.fitting
  exact ⟨earlier, later, t, t', hbefore, y₂, halone, y₃.allTakenOver halone.fitting, hearlier, hlater⟩

namespace Turn

variable {earlier later : List SpectrumId} {t t' : Session α} {other : SpectrumId} {oslot : Slot (SpectrumRecord α)}

theorem not_mem_later (h : Turn config id earlier later s t t' s') : id ∉ later :=
  fun hmem => Nat.lt_irrefl _ (h.lt_later id hmem)

theorem not_mem_earlier (h : Turn config id earlier later s t t' s') (hle : id.index ≤ other.index) :
    other ∉ earlier := fun hmem => Nat.not_lt.2 hle (h.earlier_lt other hmem)

/-- A spectrum whose turn comes later stays as it is until then. -/
theorem slot?_eq_of_lt (h : Turn config id earlier later s t t' s') (hlt : id.index < other.index) :
    t.spectra.slot? other = s.spectra.slot? other ∧ t'.spectra.slot? other = s.spectra.slot? other := by
  have hne : other ≠ id := fun heq => Nat.lt_irrefl _ (heq ▸ hlt)
  have hbefore := h.before.others other (h.not_mem_earlier hlt.le)
  exact ⟨hbefore, (h.alone.others other (mt List.mem_singleton.1 hne)).trans hbefore⟩

/-- A matrix that only this spectrum names after its turn has been moved from where it was built, unless it stood in
place. -/
theorem moved (h : Turn config id earlier later s t t' s') (hflag : s.config.rebinMatrixWithData = true)
    (hs' : t'.spectra.slot? id = some slot) (hm : matrixId ∈ slot.value.matrices)
    (hm' : t'.matrices.slot? matrixId = some mslot) (honly : t'.OnlyNamedBy matrixId id) :
    ∃ target, slot.value.spectrum.grouping.grid mslot.value.native.channels = .ok target ∧
      (mslot.value.MovedDirectly target s.config.matrixRebinThreshold ∨
        ∃ before, s.matrices.slot? matrixId = some before ∧ mslot.value = before.value ∧
          before.value.current.channels.agrees target Grid.edgeTolerance = true) := by
  have hflag : t.config.rebinMatrixWithData = true := by rw [h.before.config, hflag]
  obtain ⟨target, hgrid, hmoved⟩ := h.own.of_takeOver_own h.before.fitting hflag hs' hm hm' honly
  rw [h.before.config] at hmoved
  refine ⟨target, hgrid, hmoved.imp_right ?_⟩
  rintro ⟨old, before, hold, hnamed, hbefore, hstays, hagrees⟩
  have hid := h.not_mem_earlier (le_refl id.index)
  rw [h.before.others id hid] at hold
  obtain ⟨before₀, _, hbefore₀, hbefore', hvalue⟩ := h.before.kept id hid old hold matrixId hnamed
  cases hbefore.symm.trans hbefore'
  exact ⟨before₀, hbefore₀, hstays.trans hvalue, hvalue ▸ hagrees⟩

/-- If another spectrum names a matrix after that turn, but not in the end, then its own turn comes later, and it has
the matrix in a fit pair. -/
theorem later_of_named (h : Turn config id earlier later s t t' s') (honly : s'.OnlyNamedBy matrixId id)
    (ho : t'.spectra.slot? other = some oslot) (hnamed : matrixId ∈ oslot.value.matrices) (hne : other ≠ id) :
    id.index < other.index ∧ matrixId ∈ oslot.value.fit.map ResponsePair.matrix := by
  refine ⟨h.lt_later other ?_, (SpectrumRecord.mem_matrices.1 hnamed).resolve_left fun hassigned => hne ?_⟩
  · by_contra hnot
    exact hne (honly other oslot ((h.after.others other hnot).trans ho) hnamed)
  · have hkeeps := h.after.assigned other
    rw [ho, Option.map_some, Option.map_eq_some_iff] at hkeeps
    obtain ⟨oslot', hend, hsame⟩ := hkeeps
    exact honly other oslot' hend (SpectrumRecord.mem_matrices.2 (.inl (hsame ▸ hassigned)))

/-- A matrix that a later spectrum names is the same after the turn of this one. -/
theorem sameMatrix (h : Turn config id earlier later s t t' s') (hlt : id.index < other.index)
    (ho : s.spectra.slot? other = some oslot) (hnamed : matrixId ∈ oslot.value.matrices) :
    SameMatrix matrixId s t' := by
  have hne : other ≠ id := fun heq => Nat.lt_irrefl _ (heq ▸ hlt)
  exact (h.before.kept other (h.not_mem_earlier hlt.le) oslot ho matrixId hnamed).trans
    (h.alone.kept other (mt List.mem_singleton.1 hne) oslot ((h.slot?_eq_of_lt hlt).1.trans ho) matrixId hnamed)

end Turn

/-- Spectrum by spectrum. -/
theorem Yields.of_setConfig (y : Yields (setConfig config) s (.ok ()) s') : ∃ strategy,
    Yields (s.spectra.ids.forM (takeOver config)) { s with strategy, config, cache := .empty } (.ok ()) s' := by
  rcases y.of_lift_bind with ⟨_, -, hfault, -⟩ | ⟨strategy, -, y₁⟩
  · cases hfault
  exact ⟨strategy, y₁.of_modify_bind.of_get_bind⟩

/-- After any operations that have all succeeded, when a session takes over a configuration that lets matrices follow:
a matrix that only one spectrum names then is what a move to the channels of its grouping, with the threshold of the
configuration, makes of the matrix as it was built, but for two cases. It has not moved at all if a spectrum that takes
over the configuration later had it in a fit pair. And it has not moved if it stood there already. -/
theorem configuration_reaches_matrices {initial : Config α} {start : Session α} (hstart : ofConfig initial = .ok start)
    {operations : List (Operation α)} (htakes : ∀ operation ∈ operations, operation.TakesTidy)
    (hok : ∀ e ∈ (start.replay operations).1, e.Succeeded) (hreplay : (start.replay operations).2 = s)
    (hflag : config.rebinMatrixWithData = true) (hrun : (run (setConfig config) s).1 = (.ok (), s'))
    (hn : s'.Names id slot matrixId mslot) (honly : s'.OnlyNamedBy matrixId id) :
    (s.HeldLater id matrixId ∧ ∃ before, s.matrices.slot? matrixId = some before ∧ mslot.value = before.value) ∨
      ¬ s.HeldLater id matrixId ∧ ∃ target,
        slot.value.spectrum.grouping.grid mslot.value.native.channels = .ok target ∧
          (mslot.value.MovedDirectly target config.matrixRebinThreshold ∨
            ∃ before, s.matrices.slot? matrixId = some before ∧ mslot.value = before.value ∧
              before.value.current.channels.agrees target Grid.edgeTolerance = true) := by
  have hfitting : s.Fitting := hreplay ▸ fitting_replay hstart htakes hok
  obtain ⟨strategy, y⟩ := (Yields.of_run hrun).of_setConfig
  obtain ⟨earlier, later, t, t', h⟩ := y.exists_turn (hfitting.withConfig strategy config .empty) hn.spectrum
  -- once its spectrum has had its turn, the matrix stays
  have hs' : t'.spectra.slot? id = some slot := (h.after.others id h.not_mem_later).symm.trans hn.spectrum
  obtain ⟨mslot', _, hm', hm, hvalue⟩ := h.after.kept id h.not_mem_later slot hs' matrixId hn.named
  cases hn.matrix.symm.trans hm
  by_cases honly' : t'.OnlyNamedBy matrixId id
  · refine .inr ⟨?_, ?_⟩
    · rintro ⟨other, oslot, ho, hlt, hfit⟩
      have hid := honly' other oslot ((h.slot?_eq_of_lt hlt).2.trans ho) (SpectrumRecord.mem_matrices.2 (.inr hfit))
      exact Nat.lt_irrefl _ (hid ▸ hlt)
    · obtain ⟨target, hgrid, hmoved⟩ := h.moved hflag hs' hn.named hm' honly'
      rw [← hvalue] at hmoved
      exact ⟨target, hvalue ▸ hgrid, hmoved⟩
  · refine .inl ?_
    simp only [OnlyNamedBy, not_forall] at honly'
    obtain ⟨other, oslot, ho', hnamed, hne⟩ := honly'
    obtain ⟨hlt, hfit⟩ := h.later_of_named honly ho' hnamed hne
    have ho := (h.slot?_eq_of_lt hlt).2.symm.trans ho'
    obtain ⟨before, _, hbefore, hm'', hvalue'⟩ := h.sameMatrix hlt ho hnamed
    cases hm'.symm.trans hm''
    exact ⟨⟨other, oslot, ho, hlt, hfit⟩, before, hbefore, hvalue.trans hvalue'⟩

/-! ### One matrix and two configurations -/

namespace Lingering

/-- A spectrum with three bins. -/
def spectrum : Spectrum ℚ := Sample.spectrum (Sample.grid 3) [4, 5, 6] [2, 2, 2]

/-- The first two of them in one. -/
def grouped : Grid ℚ := ⟨[⟨1, 3⟩, ⟨3, 4⟩]⟩

/-- One energy bin. -/
def energies : Grid ℚ := ⟨[⟨1, 4⟩]⟩

/-- A matrix that counts the energy bin in each of the three bins alike. -/
def matrix : ResponseMatrix ℚ :=
  .ofRedistribution ⟨.delta, energies, Sample.grid 3, [[⟨0, [1 / 3, 1 / 3, 1 / 3]⟩]], .plain, {}⟩

/-- A spectrum gets the matrix, and is grouped. -/
def alone : List (Operation ℚ) :=
  [.addSpectrum spectrum, .takeMatrix matrix, .addArea (.identity energies), .assign ⟨0⟩ ⟨⟨1⟩, ⟨1⟩⟩,
    .rebinSpectrum ⟨0⟩ [1, 1, -1]]

/-- A spectrum gets the matrix that was made for the fit pair of another one, and is grouped. -/
def borrowing : List (Operation ℚ) :=
  [.addSpectrum spectrum, .addSpectrum spectrum, .assign ⟨0⟩ ⟨⟨1⟩, ⟨1⟩⟩, .rebinSpectrum ⟨0⟩ [1, 1, -1]]

/-- Matrices do not follow. -/
def resting : Config ℚ := { Config.default with rebinMatrixWithData := false }

/-- Weights up to one half are left out. -/
def coarse : Config ℚ := { Config.default with matrixRebinThreshold := 1 / 2 }

/-- The session after some operations. -/
def session (initial : Config ℚ) (operations : List (Operation ℚ)) : Session ℚ :=
  ((Sample.empty initial).replay operations).2

/-- The session when it has taken over another configuration then. -/
def reconfigured (initial : Config ℚ) (operations : List (Operation ℚ)) (config : Config ℚ) : Session ℚ :=
  (run (setConfig config) (session initial operations)).1.2

/-- The session in which the matrix did not follow. -/
def rested : Session ℚ := session resting alone

/-- The session in which it has followed after that. -/
def moved : Session ℚ := reconfigured resting alone coarse

/-- The matrices that the spectra name. -/
def named (s : Session ℚ) : List (List MatrixId) := s.spectra.values.map SpectrumRecord.matrices

/-- The channels on which the matrix should stand. -/
def axis (s : Session ℚ) : Option (Grid ℚ) :=
  (s.spectra.slot? ⟨0⟩).bind fun slot => (s.matrices.slot? ⟨1⟩).bind fun mslot =>
    (slot.value.spectrum.grouping.grid mslot.value.native.channels).toOption

/-- The matrix as it is. -/
def stored (s : Session ℚ) : Option (ResponseMatrix ℚ) := (s.matrices.slot? ⟨1⟩).map Slot.value

/-- The matrix as it should be. -/
def direct (s : Session ℚ) : Option (ResponseMatrix ℚ) :=
  (s.matrices.slot? ⟨1⟩).bind fun mslot => (axis s).bind fun target =>
    ((ResponseMatrix.ofRedistribution mslot.value.native).rebinChannels target
      s.config.matrixRebinThreshold).toOption.map Prod.snd

/-- The channels of a matrix, its groups, and the threshold it was moved with. -/
def face (m : ResponseMatrix ℚ) : Grid ℚ × List (List (ResponseGroup ℚ)) × ℚ :=
  (m.current.channels, m.current.rows, m.current.layout.threshold)

/-- After some operations a session takes over a configuration that lets matrices follow, and nothing fails. The first
spectrum is the only one to name the matrix then, but it is not what a move from where it was built makes of it. -/
structure Missed (operations : List (Operation ℚ)) (config : Config ℚ) : Prop where
  /-- The session can be reached. -/
  run : Run (Sample.start.replay operations).1 (session Config.default operations)
  /-- No operation fails or moves a matrix by hand. -/
  succeeded : ∀ e ∈ (Sample.start.replay operations).1, e.Succeeded ∧ e.operation.LeavesAxes
  /-- The configuration is taken over. -/
  taken : (Session.run (setConfig config) (session Config.default operations)).1.1.isOk = true
  /-- Matrices follow. -/
  follows : config.rebinMatrixWithData = true
  /-- The first spectrum names the matrix, and others do not. -/
  named : ∃ others, (named (reconfigured Config.default operations config)).map
    (fun matrices => decide ((⟨1⟩ : MatrixId) ∈ matrices)) = true :: List.replicate others false
  /-- The matrix is not what it should be. -/
  differs : stored (reconfigured Config.default operations config) ≠ direct (reconfigured Config.default operations config)

theorem leavesAxes_spectrum : (Operation.addSpectrum spectrum).LeavesAxes :=
  Spectrum.tidy_of_ungrouped rfl rfl (by decide +kernel)

theorem leavesAxes_alone : ∀ operation ∈ alone, operation.LeavesAxes := by
  intro operation hoperation
  simp only [alone, List.mem_cons, List.not_mem_nil, or_false] at hoperation
  rcases hoperation with rfl | rfl | rfl | rfl | rfl
  · exact leavesAxes_spectrum
  · rfl
  all_goals trivial

theorem leavesAxes_borrowing : ∀ operation ∈ borrowing, operation.LeavesAxes := by
  intro operation hoperation
  simp only [borrowing, List.mem_cons, List.not_mem_nil, or_false] at hoperation
  rcases hoperation with rfl | rfl | rfl | rfl
  · exact leavesAxes_spectrum
  · exact leavesAxes_spectrum
  all_goals trivial

end Lingering

/-- A matrix that did not follow before is moved to the working bins then, and weights up to one half are left out. -/
theorem resting_matrix_is_moved_directly :
    ∃ mslot, Lingering.moved.matrices.slot? ⟨1⟩ = some mslot ∧
      mslot.value.MovedDirectly Lingering.grouped (1 / 2) ∧
        Lingering.face mslot.value = (Lingering.grouped, [[⟨0, [2 / 3]⟩]], 1 / 2) := by
  have hstart : ofConfig Lingering.resting = .ok (Sample.empty Lingering.resting) := rfl
  have hok : ∀ e ∈ ((Sample.empty Lingering.resting).replay Lingering.alone).1, e.Succeeded := by decide +kernel
  have hreplay : ((Sample.empty Lingering.resting).replay Lingering.alone).2 = Lingering.rested := rfl
  have htaken : (run (setConfig Lingering.coarse) Lingering.rested).1.1.isOk = true := by decide +kernel
  have hone : Lingering.rested.spectra.slots.length = 1 := by decide +kernel
  have hone' : Lingering.moved.spectra.slots.length = 1 := by decide +kernel
  have hnamed : (Lingering.moved.spectra.slot? ⟨0⟩).map (fun slot => slot.value.matrices) = some [⟨1⟩, ⟨1⟩] := by
    decide +kernel
  have hface : (Lingering.moved.matrices.slot? ⟨1⟩).map (fun mslot => Lingering.face mslot.value) =
      some (Lingering.grouped, [[⟨0, [2 / 3]⟩]], 1 / 2) := by decide +kernel
  have haxis : Lingering.axis Lingering.moved = some Lingering.grouped := by decide +kernel
  have hbefore : (Lingering.rested.matrices.slot? ⟨1⟩).map
      (fun mslot => mslot.value.current.channels.agrees Lingering.grouped Grid.edgeTolerance) = some false := by
    decide +kernel
  obtain ⟨⟨⟩, hanswer⟩ := Except.exists_of_isOk htaken
  obtain ⟨slot, hs, hmatrices⟩ := Option.map_eq_some_iff.1 hnamed
  obtain ⟨mslot, hm, hvalue⟩ := Option.map_eq_some_iff.1 hface
  have honly : Lingering.moved.OnlyNamedBy ⟨1⟩ ⟨0⟩ := by
    intro other oslot ho _
    have hlt := Arena.index_lt_of_slot? ho
    rw [hone'] at hlt
    exact Handle.index_inj.1 (Nat.lt_one_iff.1 hlt)
  refine ⟨mslot, hm, ?_, hvalue⟩
  rcases configuration_reaches_matrices hstart (fun o ho => (Lingering.leavesAxes_alone o ho).takesTidy) hok hreplay
    rfl (Prod.ext hanswer rfl) ⟨hs, by rw [hmatrices]; exact List.mem_cons_self, hm⟩ honly with
    ⟨⟨later, lslot, hlater, hlt, -⟩, -⟩ | ⟨-, target, hgrid, hmoved⟩
  · have hlt' := Arena.index_lt_of_slot? hlater
    rw [hone] at hlt'
    exact absurd hlt (Nat.not_lt.2 (Nat.le_of_lt_succ hlt'))
  · have htarget : target = Lingering.grouped := by
      rw [Lingering.axis, hs, hm, Option.bind_some, Option.bind_some, hgrid] at haxis
      exact Option.some.inj haxis
    subst htarget
    refine hmoved.resolve_right ?_
    rintro ⟨before, hstood, -, hagrees⟩
    rw [hstood, Option.map_some, hagrees] at hbefore
    cases hbefore

/-- A matrix that stands in place keeps weights that the new configuration leaves out. A matrix that was made for the fit
pair of a later spectrum stays on its own channels. -/
theorem old_threshold_and_old_pair_linger :
    Lingering.Missed Lingering.alone Lingering.coarse ∧ Lingering.Missed Lingering.borrowing Config.default := by
  have hok : ∀ e ∈ (Sample.start.replay Lingering.alone).1, e.Succeeded := by decide +kernel
  have hok' : ∀ e ∈ (Sample.start.replay Lingering.borrowing).1, e.Succeeded := by decide +kernel
  have hrun := (Run.start Sample.ofConfig_start).replay Lingering.alone
  have hrun' := (Run.start Sample.ofConfig_start).replay Lingering.borrowing
  refine ⟨⟨hrun, fun e he => ⟨hok e he, ?_⟩, by decide +kernel, rfl, ⟨0, by decide +kernel⟩,
      by decide +kernel⟩,
    ⟨hrun', fun e he => ⟨hok' e he, ?_⟩, by decide +kernel, rfl, ⟨1, by decide +kernel⟩,
      by decide +kernel⟩⟩
  · exact Lingering.leavesAxes_alone _ (mem_of_mem_replay he)
  · exact Lingering.leavesAxes_borrowing _ (mem_of_mem_replay he)

end Session

end SpectralResponse
