import SpectralResponse.Proofs.Session.Refresh

/-!
# Taking in, assigning, giving away

The operations that exchange the pairs of a spectrum, taken apart: which record stands in the place of
which, and what is still to be done with the session then. The session in between is balanced.

## What is proved

* `Yields.of_assign_checks` — a pair is refused exactly if a member is missing or does not fit.
* `Yields.of_addSpectrum`, `Yields.of_assign`, `Yields.of_unassign` — the request is refused and nothing
  happens, or the lists are changed and the fit pairs are derived anew.
* `Yields.of_deleteSpectrum` — a spectrum goes with all its pairs.
-/

namespace SpectralResponse.Session

variable {α : Type} [Scalar α] {s s' : Session α} {id : SpectrumId} {pair : ResponsePair}

/-- A spectrum is refused, or it stands in a new slot and its fit pairs are derived. -/
theorem Yields.of_addSpectrum {spectrum : Spectrum α} {answer : Except (Fault α) SpectrumId}
    (y : Yields (addSpectrum spectrum) s answer s') :
    (∃ fault, answer = .error fault ∧ s' = s ∧ spectrum.configure s.config = .error fault) ∨
      ∃ configured newId spectra, spectrum.configure s.config = .ok configured ∧
        s.spectra.insert ⟨configured, [], []⟩ true = (newId, spectra) ∧
        Yields (do refreshFit newId; return newId) { s with spectra } answer s' := by
  rcases y.of_get_bind.of_lift_bind with ⟨fault, hrefused, rfl, rfl⟩ | ⟨configured, h, y₁⟩
  · exact .inl ⟨fault, rfl, rfl, hrefused⟩
  rcases y₁.of_bind with ⟨fault, z, -⟩ | ⟨newId, s₁, z, y₂⟩
  · cases z.of_insertSpectrum.1
  · obtain ⟨hid, rfl⟩ := z.of_insertSpectrum
    cases hid
    exact .inr ⟨configured, _, _, h, rfl, y₂⟩

/-- Pairs stand in one record in place of others, and are counted so; nothing else changes. -/
structure Repaired (s : Session α) (id : SpectrumId) (slot : Slot (SpectrumRecord α))
    (r : SpectrumRecord α) (s' : Session α) : Prop where
  /-- Where the spectrum stood. -/
  found : s.spectra.slot? id = some slot
  /-- Its record is another. -/
  spectra : s'.spectra = s.spectra.setSlot id (some { slot with value := r })
  /-- The users are counted. -/
  balanced : s'.Balanced
  /-- Products stay with their values. -/
  exchanges : ∀ channels, Exchanges channels s s'
  /-- The configuration stays. -/
  config : s'.config = s.config

/-- The members of a pair fit each other and a spectrum. -/
def Fits (spectrum : Spectrum α) (curve : EffectiveArea α) (m : ResponseMatrix α) : Prop :=
  m.current.energyCount = curve.length ∧ spectrum.observedCount = m.native.channelCount

/-- A pair is accepted if its members fit, and refused if they do not. -/
theorem answers_checkPair {config : Config α} {spectrum : Spectrum α} {curve : EffectiveArea α}
    {m : ResponseMatrix α} {answer : Except (Fault α) Unit}
    (h : (checkPair config id spectrum pair curve m).Answers answer) : answer = .ok () ↔ Fits spectrum curve m := by
  constructor
  · rintro rfl
    obtain ⟨⟨⟩, hbins, h⟩ := h.of_lift_bind
    have hchannels := Noted.answers_lift.1 h.of_warnIf_bind
    exact ⟨Except.requireLength_eq_ok.1 hbins, Except.requireLength_eq_ok.1 hchannels.symm⟩
  · rintro ⟨hbins, hchannels⟩
    obtain ⟨w, h⟩ := h
    dsimp only [checkPair] at h
    rw [Except.requireLength_eq_ok.2 hbins, Except.requireLength_eq_ok.2 hchannels] at h
    rw [← h]
    cases curve.grid.agrees m.current.energies config.gridMatchTolerance <;> rfl

/-- The response pair can be assigned to the spectrum: both members are there and fit. -/
def Accepts (s : Session α) (id : SpectrumId) (pair : ResponsePair) : Prop :=
  ∃ slot curve m, s.spectra.slot? id = some slot ∧ s.areas.slot? pair.area = some curve ∧
    s.matrices.slot? pair.matrix = some m ∧ Fits slot.value.spectrum curve.value m.value

/-- A pair is refused, or it is accepted and its users are counted next. -/
theorem Yields.of_assign_checks {answer : Except (Fault α) Unit} (y : Yields (assign id pair) s answer s') :
    (¬ s.Accepts id pair ∧ (∃ fault, answer = .error fault) ∧ s' = s) ∨
      ∃ slot curve matrix, s.spectra.slot? id = some slot ∧ s.areas.slot? pair.area = some curve ∧
        s.matrices.slot? pair.matrix = some matrix ∧
        (checkPair s.config id slot.value.spectrum pair curve.value matrix.value).Answers (.ok ()) ∧
        Yields (do
          acquirePair pair
          let record ← record id
          putRecord id { record with assigned := record.assigned ++ [pair] }
          restoreShared pair.matrix
          refreshFit id) s answer s' := by
  rcases y.of_area_bind with ⟨fault, hnone, rfl, rfl⟩ | ⟨curve, hcurve, y₁⟩
  · refine .inl ⟨?_, ⟨fault, rfl⟩, rfl⟩
    rintro ⟨_, _, _, -, hcurve, -⟩
    cases hnone.symm.trans hcurve
  rcases y₁.of_matrix_bind with ⟨fault, hnone, rfl, rfl⟩ | ⟨matrix, hmatrix, y₂⟩
  · refine .inl ⟨?_, ⟨fault, rfl⟩, rfl⟩
    rintro ⟨_, _, _, -, -, hmatrix, -⟩
    cases hnone.symm.trans hmatrix
  rcases y₂.of_bind with ⟨fault, z, rfl⟩ | ⟨spectrum, s₁, z, y₃⟩
  · rcases z.of_record_bind with ⟨_, hnone, -, rfl⟩ | ⟨_, -, z⟩
    · refine .inl ⟨?_, ⟨fault, rfl⟩, rfl⟩
      rintro ⟨_, _, _, hs, -⟩
      cases hnone.symm.trans hs
    · cases (yields_pure.1 z).1
  rcases z.of_record_bind with ⟨_, -, h, -⟩ | ⟨slot, hs, z⟩
  · cases h
  obtain ⟨h, rfl⟩ := yields_pure.1 z
  cases h
  rcases y₃.of_get_bind.of_bind with ⟨fault, z, rfl⟩ | ⟨_, s₂, z, y₄⟩
  · obtain ⟨rfl, hcheck⟩ := z.of_noted
    refine .inl ⟨?_, ⟨fault, rfl⟩, rfl⟩
    rintro ⟨slot', curve', matrix', hs', hcurve', hmatrix', hfits⟩
    cases hs.symm.trans hs'
    cases hcurve.symm.trans hcurve'
    cases hmatrix.symm.trans hmatrix'
    cases (answers_checkPair hcheck).2 hfits
  obtain ⟨rfl, hcheck⟩ := z.of_noted
  exact .inr ⟨slot, curve, matrix, hs, hcurve, hmatrix, hcheck, y₄⟩

/-- A pair is refused, or it stands behind the assigned ones; its matrix, if shared, goes back to its own
channels, and the fit pairs are derived anew. -/
theorem Yields.of_assign {answer : Except (Fault α) Unit} (hb : s.Balanced)
    (y : Yields (assign id pair) s answer s') :
    (∃ fault, answer = .error fault ∧ s' = s ∧ ¬ s.Accepts id pair) ∨
      ∃ slot curve matrix s₁, s.areas.slot? pair.area = some curve ∧
        s.matrices.slot? pair.matrix = some matrix ∧
        (checkPair s.config id slot.value.spectrum pair curve.value matrix.value).Answers (.ok ()) ∧
        Repaired s id slot { slot.value with assigned := slot.value.assigned ++ [pair] } s₁ ∧
        Yields (do restoreShared pair.matrix; refreshFit id) s₁ answer s' := by
  rcases y.of_assign_checks with
    ⟨hrefused, ⟨fault, rfl⟩, rfl⟩ | ⟨slot, curve, matrix, hs, hcurve, hmatrix, hcheck, y₄⟩
  · exact .inl ⟨fault, rfl, rfl, hrefused⟩
  have hpair : s.HasPair pair := ⟨Arena.contains_iff.2 ⟨_, hcurve⟩, Arena.contains_iff.2 ⟨_, hmatrix⟩⟩
  rcases y₄.of_bind with ⟨fault, z, -⟩ | ⟨_, s₃, z₃, y₅⟩
  · cases (hb.acquirePair hpair z).1
  have hexchanges : ∀ channels, Exchanges channels s s₃ := fun _ => Exchanges.acquirePair _ _ _ _ z₃
  obtain ⟨-, ⟨areas, matrices, rfl⟩, hheld, -⟩ := hb.acquirePair hpair z₃
  obtain ⟨_, rfl, y₆⟩ := (y₅.of_live_record hs).of_putRecord_bind hs
  refine .inr ⟨slot, curve, matrix, _, hcurve, hmatrix, hcheck, ?_, y₆⟩
  refine ⟨hs, rfl, ?_, ?_, rfl⟩
  · refine hheld.setRecord hs ?_
    simp only [SpectrumRecord.pairs, List.append_assoc, List.append_nil]
    exact List.perm_append_comm.append_left _
  · exact fun channels => ⟨(hexchanges channels).areas, (hexchanges channels).matrices⟩

/-- The spectrum is unknown, or it has no assigned pairs any more and its fit pairs are derived anew. -/
theorem Yields.of_unassign {answer : Except (Fault α) Unit} (hb : s.Balanced)
    (y : Yields (unassign id) s answer s') :
    (∃ fault, answer = .error fault ∧ s' = s ∧ s.spectra.slot? id = none) ∨
      ∃ slot s₁, Repaired s id slot { slot.value with assigned := [] } s₁ ∧
        Yields (refreshFit id) s₁ answer s' := by
  rcases y.of_record_bind with ⟨fault, hnone, rfl, rfl⟩ | ⟨slot, hs, y₁⟩
  · exact .inl ⟨fault, rfl, rfl, hnone⟩
  obtain ⟨s₁, hs₁, y₂⟩ := y₁.of_putRecord_bind hs
  have hheld : s₁.Held (slot.value.assigned ++ []) := by
    rw [hs₁]
    refine Held.setRecord hb hs ?_
    simp only [SpectrumRecord.pairs, List.append_nil, List.nil_append]
    exact List.perm_append_comm
  obtain ⟨areas, matrices, hheld', hexchanges, y₃⟩ := hheld.of_releasePairs_bind y₂
  subst hs₁
  refine .inr ⟨slot, _, ?_, y₃⟩
  exact ⟨hs, rfl, hheld', fun channels => ⟨(hexchanges channels).areas, (hexchanges channels).matrices⟩, rfl⟩

/-- A spectrum that is given away leaves a balanced session. If it was given away, its slot is empty and
what only it used is gone. -/
theorem Yields.of_deleteSpectrum {answer : Except (Fault α) (Spectrum α)} (hb : s.Balanced)
    (y : Yields (deleteSpectrum id) s answer s') :
    s'.Balanced ∧ (∀ channels, Exchanges channels s s') ∧ s'.config = s.config ∧
      ((∃ fault, answer = .error fault) ∨
        s'.spectra = s.spectra.setSlot id none ∧ s'.areas.Tidy ∧ s'.matrices.Tidy) := by
  rcases y.of_record_bind with ⟨fault, -, rfl, rfl⟩ | ⟨slot, hs, y₁⟩
  · exact ⟨hb, fun _ => Std.Refl.refl _, rfl, .inl ⟨fault, rfl⟩⟩
  obtain ⟨s₁, hs₁, y₂⟩ := y₁.of_putRecord_bind hs
  -- what the record held is still counted
  have hheld : s₁.Held (slot.value.assigned ++ (slot.value.fit ++ [])) := by
    rw [hs₁]
    refine Held.setRecord hb hs ?_
    simp [SpectrumRecord.pairs]
  obtain ⟨areas₂, matrices₂, hheld₂, hexchanges₂, y₃⟩ := hheld.of_releasePairs_bind y₂
  obtain ⟨areas₃, matrices₃, hheld₃, hexchanges₃, y₄⟩ := hheld₂.of_releasePairs_bind y₃
  have hexchanges : ∀ channels, Exchanges channels s₁ { s₁ with areas := areas₃, matrices := matrices₃ } :=
    fun channels => IsTrans.trans _ _ _ (hexchanges₂ channels) (hexchanges₃ channels)
  subst hs₁
  rcases y₄.of_get_bind.of_slot_bind with ⟨fault, -, rfl, rfl⟩ | ⟨⟨record, spectra⟩, hremove, y₅⟩
  · exact ⟨hheld₃, fun channels => ⟨(hexchanges channels).areas, (hexchanges channels).matrices⟩, rfl,
      .inl ⟨_, rfl⟩⟩
  obtain ⟨slot', hs', -, -, rfl⟩ := Arena.remove_eq_ok_iff.1 hremove
  have hslot : slot'.value.pairs = [] := by
    rw [Arena.slot?_setSlot_self hs, Option.some.injEq] at hs'
    rw [← hs']
    rfl
  have hheld₄ := hheld₃.removeSpectrum hs' hslot
  obtain ⟨_, _, rfl, y₆⟩ := y₅.of_modify_bind.of_compact_bind
  obtain ⟨rfl, rfl⟩ := yields_pure.1 y₆.of_modify_bind
  refine ⟨⟨hheld₄.compact.areas, hheld₄.compact.matrices⟩, fun channels => ⟨?_, ?_⟩, rfl,
    .inr ⟨?_, Arena.tidy_compact, Arena.tidy_compact⟩⟩
  · exact (hexchanges channels).areas.trans_eq (.compact _)
  · exact (hexchanges channels).matrices.trans_eq (.compact _)
  · simp [Arena.setSlot]

end SpectralResponse.Session
