import SpectralResponse.Proofs.Session.Reading
import SpectralResponse.Proofs.Session.Uses

/-!
# Steps of session operations

Each primitive operation that writes to the session either fails and leaves it as it was, or puts one
slot in the place of another. Most operations are made of reading and of writing values back into their
slots; these leave all uses alone.

## What is proved

* `Yields.of_changeSpectrum` — a spectrum is changed in place, or nothing is.
* `SameHoldings` — replacing values, grouping spectra and moving channels leave the use counts, the
  retained marks and the pairs as they are, also when they fail part of the way.
* `SameContents` — reading and predicting leave everything as it is.
-/

namespace SpectralResponse.Session

variable {α β : Type} {s s' : Session α}

/-! ### Writing one slot -/

theorem Yields.of_putArea {id : AreaId} {curve : EffectiveArea α} {answer : Except (Fault α) Unit}
    (y : Yields (putArea id curve) s answer s') :
    (∃ fault, answer = .error fault ∧ s.areas.slot? id = none ∧ s' = s) ∨
      ∃ slot, s.areas.slot? id = some slot ∧ answer = .ok () ∧
        s' = { s with areas := s.areas.setSlot id (some { slot with value := curve }) } := by
  rcases y.of_get_bind.of_slot_bind with ⟨fault, h, rfl, rfl⟩ | ⟨areas, h, y⟩
  · exact .inl ⟨_, rfl, Arena.slot?_of_put_error h, rfl⟩
  · obtain ⟨rfl, rfl⟩ := yields_modify.1 y
    obtain ⟨slot, hs, rfl⟩ := Arena.put_eq_ok_iff.1 h
    exact .inr ⟨slot, hs, rfl, rfl⟩

theorem Yields.of_putMatrix {id : MatrixId} {m : ResponseMatrix α} {answer : Except (Fault α) Unit}
    (y : Yields (putMatrix id m) s answer s') :
    (∃ fault, answer = .error fault ∧ s.matrices.slot? id = none ∧ s' = s) ∨
      ∃ slot, s.matrices.slot? id = some slot ∧ answer = .ok () ∧
        s' = { s with matrices := s.matrices.setSlot id (some { slot with value := m }) } := by
  rcases y.of_get_bind.of_slot_bind with ⟨fault, h, rfl, rfl⟩ | ⟨matrices, h, y⟩
  · exact .inl ⟨_, rfl, Arena.slot?_of_put_error h, rfl⟩
  · obtain ⟨rfl, rfl⟩ := yields_modify.1 y
    obtain ⟨slot, hs, rfl⟩ := Arena.put_eq_ok_iff.1 h
    exact .inr ⟨slot, hs, rfl, rfl⟩

theorem Yields.of_putRecord {id : SpectrumId} {r : SpectrumRecord α} {answer : Except (Fault α) Unit}
    (y : Yields (putRecord id r) s answer s') :
    (∃ fault, answer = .error fault ∧ s.spectra.slot? id = none ∧ s' = s) ∨
      ∃ slot, s.spectra.slot? id = some slot ∧ answer = .ok () ∧
        s' = { s with spectra := s.spectra.setSlot id (some { slot with value := r }) } := by
  rcases y.of_get_bind.of_slot_bind with ⟨fault, h, rfl, rfl⟩ | ⟨spectra, h, y⟩
  · exact .inl ⟨_, rfl, Arena.slot?_of_put_error h, rfl⟩
  · obtain ⟨rfl, rfl⟩ := yields_modify.1 y
    obtain ⟨slot, hs, rfl⟩ := Arena.put_eq_ok_iff.1 h
    exact .inr ⟨slot, hs, rfl, rfl⟩

/-- A live matrix is replaced, and the operation goes on. -/
theorem Yields.of_putMatrix_bind {id : MatrixId} {m : ResponseMatrix α} {slot : Slot (ResponseMatrix α)}
    {f : Unit → SessionM α β} {answer : Except (Fault α) β} (y : Yields (putMatrix id m >>= f) s answer s')
    (hs : s.matrices.slot? id = some slot) :
    ∃ s₁, s₁ = { s with matrices := s.matrices.setSlot id (some { slot with value := m }) } ∧
      Yields (f ()) s₁ answer s' := by
  rcases y.of_bind with ⟨fault, z, -⟩ | ⟨_, s₁, z, y₁⟩
  · rcases z.of_putMatrix with ⟨_, -, hnone, -⟩ | ⟨_, -, h, -⟩
    · rw [hs] at hnone
      cases hnone
    · cases h
  rcases z.of_putMatrix with ⟨_, h, -⟩ | ⟨slot', hs', -, rfl⟩
  · cases h
  obtain rfl : slot = slot' := Option.some.inj (hs.symm.trans hs')
  exact ⟨_, rfl, y₁⟩

/-- So is a live effective area. -/
theorem Yields.of_putArea_bind {id : AreaId} {curve : EffectiveArea α} {slot : Slot (EffectiveArea α)}
    {f : Unit → SessionM α β} {answer : Except (Fault α) β} (y : Yields (putArea id curve >>= f) s answer s')
    (hs : s.areas.slot? id = some slot) :
    ∃ s₁, s₁ = { s with areas := s.areas.setSlot id (some { slot with value := curve }) } ∧
      Yields (f ()) s₁ answer s' := by
  rcases y.of_bind with ⟨fault, z, -⟩ | ⟨_, s₁, z, y₁⟩
  · rcases z.of_putArea with ⟨_, -, hnone, -⟩ | ⟨_, -, h, -⟩
    · rw [hs] at hnone
      cases hnone
    · cases h
  rcases z.of_putArea with ⟨_, h, -⟩ | ⟨slot', hs', -, rfl⟩
  · cases h
  obtain rfl : slot = slot' := Option.some.inj (hs.symm.trans hs')
  exact ⟨_, rfl, y₁⟩

/-- A live record is replaced, and the operation goes on. -/
theorem Yields.of_putRecord_bind {id : SpectrumId} {r : SpectrumRecord α} {slot : Slot (SpectrumRecord α)}
    {f : Unit → SessionM α β} {answer : Except (Fault α) β} (y : Yields (putRecord id r >>= f) s answer s')
    (hs : s.spectra.slot? id = some slot) :
    ∃ s₁, s₁ = { s with spectra := s.spectra.setSlot id (some { slot with value := r }) } ∧
      Yields (f ()) s₁ answer s' := by
  rcases y.of_bind with ⟨fault, z, -⟩ | ⟨_, s₁, z, y₁⟩
  · rcases z.of_putRecord with ⟨_, -, hnone, -⟩ | ⟨_, -, h, -⟩
    · rw [hs] at hnone
      cases hnone
    · cases h
  rcases z.of_putRecord with ⟨_, h, -⟩ | ⟨slot', hs', -, rfl⟩
  · cases h
  obtain rfl : slot = slot' := Option.some.inj (hs.symm.trans hs')
  exact ⟨_, rfl, y₁⟩

theorem Yields.of_insertArea {curve : EffectiveArea α} {retained : Bool}
    {answer : Except (Fault α) AreaId} (y : Yields (insertArea curve retained) s answer s') :
    answer = .ok (s.areas.insert curve retained).1 ∧
      s' = { s with areas := (s.areas.insert curve retained).2 } := by
  obtain ⟨rfl, rfl⟩ := yields_pure.1 y.of_get_bind.of_modify_bind
  exact ⟨rfl, rfl⟩

theorem Yields.of_insertMatrix {m : ResponseMatrix α} {retained : Bool}
    {answer : Except (Fault α) MatrixId} (y : Yields (insertMatrix m retained) s answer s') :
    answer = .ok (s.matrices.insert m retained).1 ∧
      s' = { s with matrices := (s.matrices.insert m retained).2 } := by
  obtain ⟨rfl, rfl⟩ := yields_pure.1 y.of_get_bind.of_modify_bind
  exact ⟨rfl, rfl⟩

theorem Yields.of_insertSpectrum {spectrum : Spectrum α} {answer : Except (Fault α) SpectrumId}
    (y : Yields (insertSpectrum spectrum) s answer s') :
    answer = .ok (s.spectra.insert ⟨spectrum, [], []⟩ true).1 ∧
      s' = { s with spectra := (s.spectra.insert ⟨spectrum, [], []⟩ true).2 } := by
  obtain ⟨rfl, rfl⟩ := yields_pure.1 y.of_get_bind.of_modify_bind
  exact ⟨rfl, rfl⟩

theorem Yields.of_compact {answer : Except (Fault α) Nat} (y : Yields compact s answer s') :
    (∃ count, answer = .ok count) ∧
      s' = { s with areas := s.areas.compact.2, matrices := s.matrices.compact.2 } := by
  obtain ⟨rfl, rfl⟩ := yields_pure.1 y.of_get_bind.of_get_bind.of_modify_bind.of_modify_bind
  exact ⟨⟨_, rfl⟩, rfl⟩

/-- The arenas are swept, and the operation goes on. -/
theorem Yields.of_compact_bind {f : Nat → SessionM α β} {answer : Except (Fault α) β}
    (y : Yields (compact >>= f) s answer s') :
    ∃ count s₁, s₁ = { s with areas := s.areas.compact.2, matrices := s.matrices.compact.2 } ∧
      Yields (f count) s₁ answer s' := by
  rcases y.of_bind with ⟨fault, z, -⟩ | ⟨count, s₁, z, y₁⟩
  · obtain ⟨⟨_, h⟩, -⟩ := z.of_compact
    cases h
  · obtain ⟨-, rfl⟩ := z.of_compact
    exact ⟨count, _, rfl, y₁⟩

theorem Yields.of_record_bind {id : SpectrumId} {f : SpectrumRecord α → SessionM α β}
    {answer : Except (Fault α) β} (y : Yields (record id >>= f) s answer s') :
    (∃ fault, s.spectra.slot? id = none ∧ answer = .error fault ∧ s' = s) ∨
      ∃ slot, s.spectra.slot? id = some slot ∧ Yields (f slot.value) s answer s' := by
  rcases y.of_bind with ⟨fault, y₁, rfl⟩ | ⟨r, s₁, y₁, y'⟩
  · obtain ⟨h, rfl⟩ := y₁.of_record
    cases hget : s'.spectra.get id with
    | error fault' => exact .inl ⟨fault, Arena.slot?_of_get_error hget, rfl, rfl⟩
    | ok r => rw [hget] at h; cases h
  · obtain ⟨h, rfl⟩ := y₁.of_record
    obtain ⟨slot, hs, rfl⟩ := Arena.get_eq_ok_iff.1 (Except.mapError_eq_ok.1 h.symm)
    exact .inr ⟨slot, hs, y'⟩

theorem Yields.of_matrix_bind {id : MatrixId} {f : ResponseMatrix α → SessionM α β}
    {answer : Except (Fault α) β} (y : Yields (matrix id >>= f) s answer s') :
    (∃ fault, s.matrices.slot? id = none ∧ answer = .error fault ∧ s' = s) ∨
      ∃ slot, s.matrices.slot? id = some slot ∧ Yields (f slot.value) s answer s' := by
  rcases y.of_bind with ⟨fault, y₁, rfl⟩ | ⟨m, s₁, y₁, y'⟩
  · obtain ⟨h, rfl⟩ := y₁.of_matrix
    cases hget : s'.matrices.get id with
    | error fault' => exact .inl ⟨fault, Arena.slot?_of_get_error hget, rfl, rfl⟩
    | ok m => rw [hget] at h; cases h
  · obtain ⟨h, rfl⟩ := y₁.of_matrix
    obtain ⟨slot, hs, rfl⟩ := Arena.get_eq_ok_iff.1 (Except.mapError_eq_ok.1 h.symm)
    exact .inr ⟨slot, hs, y'⟩

/-- A record that is known to be live is read. -/
theorem Yields.of_live_record {id : SpectrumId} {slot : Slot (SpectrumRecord α)}
    {f : SpectrumRecord α → SessionM α β} {answer : Except (Fault α) β}
    (y : Yields (record id >>= f) s answer s') (hs : s.spectra.slot? id = some slot) :
    Yields (f slot.value) s answer s' := by
  rcases y.of_record_bind with ⟨_, hnone, -⟩ | ⟨slot', hs', y₁⟩
  · cases hs.symm.trans hnone
  obtain rfl : slot = slot' := Option.some.inj (hs.symm.trans hs')
  exact y₁

/-- A matrix that is known to be live is read. -/
theorem Yields.of_live_matrix {id : MatrixId} {slot : Slot (ResponseMatrix α)}
    {f : ResponseMatrix α → SessionM α β} {answer : Except (Fault α) β}
    (y : Yields (matrix id >>= f) s answer s') (hs : s.matrices.slot? id = some slot) :
    Yields (f slot.value) s answer s' := by
  rcases y.of_matrix_bind with ⟨_, hnone, -⟩ | ⟨slot', hs', y₁⟩
  · cases hs.symm.trans hnone
  obtain rfl : slot = slot' := Option.some.inj (hs.symm.trans hs')
  exact y₁

theorem Yields.of_area_bind {id : AreaId} {f : EffectiveArea α → SessionM α β}
    {answer : Except (Fault α) β} (y : Yields (area id >>= f) s answer s') :
    (∃ fault, s.areas.slot? id = none ∧ answer = .error fault ∧ s' = s) ∨
      ∃ slot, s.areas.slot? id = some slot ∧ Yields (f slot.value) s answer s' := by
  rcases y.of_bind with ⟨fault, y₁, rfl⟩ | ⟨m, s₁, y₁, y'⟩
  · obtain ⟨h, rfl⟩ := y₁.of_area
    cases hget : s'.areas.get id with
    | error fault' => exact .inl ⟨fault, Arena.slot?_of_get_error hget, rfl, rfl⟩
    | ok curve => rw [hget] at h; cases h
  · obtain ⟨h, rfl⟩ := y₁.of_area
    obtain ⟨slot, hs, rfl⟩ := Arena.get_eq_ok_iff.1 (Except.mapError_eq_ok.1 h.symm)
    exact .inr ⟨slot, hs, y'⟩

/-- Puts a spectrum in the place of the one in a slot. -/
def withSpectrum (s : Session α) (id : SpectrumId) (slot : Slot (SpectrumRecord α))
    (spectrum : Spectrum α) : Session α :=
  { s with spectra := s.spectra.setSlot id (some { slot with value := { slot.value with spectrum } }) }

/-- The record of one spectrum is replaced; those of all others stay. -/
theorem slot?_setSpectrum {spectra : Arena .spectrum (SpectrumRecord α)} {id : SpectrumId}
    {slot : Slot (SpectrumRecord α)} {r : SpectrumRecord α}
    (hs : s.spectra.slot? id = some slot)
    (hset : spectra = s.spectra.setSlot id (some { slot with value := r })) {other : SpectrumId}
    {slot' : Slot (SpectrumRecord α)} (hs' : spectra.slot? other = some slot') :
    (other = id ∧ slot'.value = r) ∨ other ≠ id ∧ s.spectra.slot? other = some slot' := by
  subst hset
  exact (Arena.slot?_setSlot_cases hs hs').imp_left fun hnew => ⟨hnew.1, by rw [← hnew.2]⟩

/-- The spectrum is changed as asked, or the change is refused and nothing happens. -/
theorem Yields.of_changeSpectrum {id : SpectrumId}
    {change : Spectrum α → Except (Fault α) (Spectrum α × β)} {answer : Except (Fault α) β}
    (y : Yields (changeSpectrum id change) s answer s') :
    (∃ fault, answer = .error fault ∧ s' = s ∧
        ∀ slot, s.spectra.slot? id = some slot → change slot.value.spectrum = .error fault) ∨
      ∃ slot next b, s.spectra.slot? id = some slot ∧ change slot.value.spectrum = .ok (next, b) ∧
        answer = .ok b ∧ s' = s.withSpectrum id slot next := by
  rcases y.of_record_bind with ⟨fault, hs, rfl, rfl⟩ | ⟨slot, hs, y⟩
  · refine .inl ⟨fault, rfl, rfl, fun slot hs' => ?_⟩
    rw [hs] at hs'
    cases hs'
  rcases y.of_lift_bind with ⟨fault, h, rfl, rfl⟩ | ⟨⟨next, b⟩, h, y⟩
  · refine .inl ⟨fault, rfl, rfl, fun slot' hs' => ?_⟩
    rw [hs, Option.some.injEq] at hs'
    rw [← hs', h]
  obtain ⟨_, rfl, y⟩ := y.of_putRecord_bind hs
  obtain ⟨rfl, rfl⟩ := yields_pure.1 y
  exact .inr ⟨slot, next, b, hs, h, rfl, rfl⟩

theorem Yields.of_updateSpectrum {id : SpectrumId} {change : Spectrum α → Except (Fault α) (Spectrum α)}
    {answer : Except (Fault α) Unit} (y : Yields (updateSpectrum id change) s answer s') :
    (∃ fault, answer = .error fault ∧ s' = s ∧
        ∀ slot, s.spectra.slot? id = some slot → change slot.value.spectrum = .error fault) ∨
      ∃ slot next, s.spectra.slot? id = some slot ∧ change slot.value.spectrum = .ok next ∧
        answer = .ok () ∧ s' = s.withSpectrum id slot next := by
  rcases y.of_changeSpectrum with ⟨fault, rfl, rfl, hrefuse⟩ | ⟨slot, next, b, hs, hnext, rfl, rfl⟩
  · refine .inl ⟨fault, rfl, rfl, fun slot hs => ?_⟩
    have hrefused := hrefuse slot hs
    cases hchange : change slot.value.spectrum with
    | error fault' => rw [hchange] at hrefused; cases hrefused; rfl
    | ok next => rw [hchange] at hrefused; cases hrefused
  · obtain ⟨next', hnext', heq⟩ := Except.map_eq_ok.1 hnext
    obtain rfl : next' = next := (Prod.mk.inj heq).1
    exact .inr ⟨slot, next', hs, hnext', rfl, rfl⟩

section

variable [Scalar α]

/-- The arrays of a live effective area are replaced, or refused as they are. Nothing is asked about who names it. -/
theorem Yields.of_updateArea {id : AreaId} {update : AreaUpdate α} {answer : Except (Fault α) PutReport}
    (y : Yields (updateArea id update) s answer s') :
    (s.areas.slot? id = none ∧ s' = s) ∨ ∃ slot result, s.areas.slot? id = some slot ∧
      (slot.value.put update s.config.gridMatchTolerance s.config.defaultUncertainty).Answers result ∧
      answer = result.map Prod.snd ∧
      ((∃ fault, result = .error fault ∧ s' = s) ∨ ∃ curve report, result = .ok (curve, report) ∧
        s' = { s with areas := s.areas.setSlot id (some { slot with value := curve }), cache := .empty }) := by
  rcases y.of_get_bind.of_area_bind with ⟨_, hnone, -, rfl⟩ | ⟨slot, hs, y₁⟩
  · exact .inl ⟨hnone, rfl⟩
  refine .inr ⟨slot, ?_⟩
  rcases y₁.of_bind with ⟨fault, z, rfl⟩ | ⟨⟨curve, report⟩, s₁, z, y₂⟩
  · obtain ⟨rfl, hput⟩ := z.of_noted
    exact ⟨_, hs, hput, rfl, .inl ⟨fault, rfl, rfl⟩⟩
  obtain ⟨rfl, hput⟩ := z.of_noted
  obtain ⟨_, rfl, y₃⟩ := y₂.of_putArea_bind hs
  obtain ⟨rfl, rfl⟩ := yields_pure.1 y₃.of_modify_bind
  exact ⟨_, hs, hput, rfl, .inr ⟨curve, report, rfl, rfl⟩⟩

/-- The exposure time of a live effective area is replaced, or nothing happens. -/
theorem Yields.of_setExposure {id : AreaId} {exposure : α} {answer : Except (Fault α) Unit}
    (y : Yields (setExposure id exposure) s answer s') :
    s' = s ∨ ∃ slot curve, s.areas.slot? id = some slot ∧ slot.value.setExposure exposure = .ok curve ∧
      s' = { s with areas := s.areas.setSlot id (some { slot with value := curve }) } := by
  rcases y.of_area_bind with ⟨_, -, -, rfl⟩ | ⟨slot, hs, y₁⟩
  · exact .inl rfl
  rcases y₁.of_lift_bind with ⟨_, -, -, rfl⟩ | ⟨curve, hcurve, y₂⟩
  · exact .inl rfl
  rcases y₂.of_putArea with ⟨_, -, -, rfl⟩ | ⟨slot', hs', -, rfl⟩
  · exact .inl rfl
  obtain rfl : slot = slot' := Option.some.inj (hs.symm.trans hs')
  exact .inr ⟨slot, curve, hs, hcurve, rfl⟩

end

/-! ### Operations that leave uses alone -/

/-- The sessions have the same slots with the same users, retained or not, and the same pairs. -/
structure SameHoldings (s s' : Session α) : Prop where
  /-- The effective areas. -/
  areas : s.areas.SameUses s'.areas
  /-- The matrices. -/
  matrices : s.matrices.SameUses s'.matrices
  /-- The pairs. -/
  pairs : s'.pairs = s.pairs

instance : Std.Refl (SameHoldings (α := α)) := ⟨fun _ => ⟨.refl _, .refl _, rfl⟩⟩

instance : IsTrans (Session α) SameHoldings :=
  ⟨fun _ _ _ h h' => ⟨h.areas.trans h'.areas, h.matrices.trans h'.matrices, h'.pairs.trans h.pairs⟩⟩

theorem SameHoldings.held (h : SameHoldings s s') {extra : List ResponsePair} (hh : s.Held extra) :
    s'.Held extra where
  areas := by
    rw [h.pairs]
    exact h.areas.holds hh.areas
  matrices := by
    rw [h.pairs]
    exact h.matrices.holds hh.matrices

/-- Changing a spectrum in place leaves the pairs alone. -/
theorem pairs_withSpectrum {id : SpectrumId} {slot : Slot (SpectrumRecord α)}
    (h : s.spectra.slot? id = some slot) (spectrum : Spectrum α) :
    (s.withSpectrum id slot spectrum).pairs = s.pairs := by
  obtain ⟨before, after, hpairs, hset⟩ := exists_pairs_setSlot h
  exact (hset _).trans hpairs.symm

theorem sameHoldings_withSpectrum {id : SpectrumId} {slot : Slot (SpectrumRecord α)}
    (h : s.spectra.slot? id = some slot) (spectrum : Spectrum α) :
    SameHoldings s (s.withSpectrum id slot spectrum) := ⟨.refl _, .refl _, pairs_withSpectrum h spectrum⟩

namespace Keeps

theorem putArea (id : AreaId) (curve : EffectiveArea α) : Keeps SameHoldings (putArea id curve) := by
  intro s answer s' y
  rcases y.of_putArea with ⟨_, -, -, rfl⟩ | ⟨slot, hs, -, rfl⟩
  · exact Std.Refl.refl _
  · exact ⟨.put (Arena.put_eq_ok_iff.2 ⟨slot, hs, rfl⟩), .refl _, rfl⟩

theorem putMatrix (id : MatrixId) (m : ResponseMatrix α) : Keeps SameHoldings (putMatrix id m) := by
  intro s answer s' y
  rcases y.of_putMatrix with ⟨_, -, -, rfl⟩ | ⟨slot, hs, -, rfl⟩
  · exact Std.Refl.refl _
  · exact ⟨.refl _, .put (Arena.put_eq_ok_iff.2 ⟨slot, hs, rfl⟩), rfl⟩

theorem forgetGrid : Keeps SameHoldings (forgetGrid (α := α)) :=
  .modify fun _ => ⟨.refl _, .refl _, rfl⟩

theorem changeSpectrum (id : SpectrumId) (change : Spectrum α → Except (Fault α) (Spectrum α × β)) :
    Keeps SameHoldings (changeSpectrum id change) := by
  intro s answer s' y
  rcases y.of_changeSpectrum with ⟨_, -, rfl, -⟩ | ⟨slot, next, b, hs, -, -, rfl⟩
  · exact Std.Refl.refl _
  · exact sameHoldings_withSpectrum hs next

theorem updateSpectrum (id : SpectrumId) (change : Spectrum α → Except (Fault α) (Spectrum α)) :
    Keeps SameHoldings (updateSpectrum id change) := changeSpectrum id _

variable [Scalar α]

theorem setExposure (id : AreaId) (exposure : α) : Keeps SameHoldings (setExposure id exposure) :=
  .bind (.area id) fun _ => .bind (.lift _) fun _ => .putArea _ _

theorem updateArea (id : AreaId) (update : AreaUpdate α) : Keeps SameHoldings (updateArea id update) :=
  .bind .get fun _ => .bind (.area id) fun _ => .bind (.noted _) fun _ => .bind (.putArea _ _) fun _ =>
    .bind .forgetGrid fun _ => .pure _

theorem moveChannels (id : MatrixId) (target : Grid α) (threshold : α) :
    Keeps SameHoldings (moveChannels id target threshold) :=
  .bind (.matrix id) fun _ => .bind (.putMatrix _ _) fun _ => .lift _

section

variable {R : Session α → Session α → Prop} [Std.Refl R] [IsTrans (Session α) R]
  (hmove : ∀ id target threshold, Keeps R (Session.moveChannels id target threshold))

include hmove

theorem rebinMatrix_of (id : MatrixId) (target : Grid α) (threshold : α) :
    Keeps R (rebinMatrix id target threshold) := by
  refine .bind .get fun s => ?_
  dsimp only
  split
  · exact .bind (.throw _) fun _ => hmove _ _ _
  · exact hmove _ _ _

variable (hforget : Keeps R Session.forgetGrid)

include hforget

/-- Matrices follow a spectrum by moving their channels, and nothing else is done. -/
theorem syncMatrix_of (id : SpectrumId) (r : SpectrumRecord α) (matrixId : MatrixId) :
    Keeps R (syncMatrix id r matrixId) := by
  refine .bind .get fun s => .bind (.lift_slot _) fun inUse => ?_
  split
  · exact .noted _
  · refine .bind (.matrix _) fun m => ?_
    dsimp only
    split
    · refine .bind (.lift _) fun target => .bind .get fun s => .bind (hmove _ _ _) fun changed => ?_
      split
      · exact hforget
      · exact .pure _
    · exact .pure _

theorem syncMatrices_of (id : SpectrumId) : Keeps R (syncMatrices id) := by
  refine .bind .get fun s => ?_
  split
  · exact .bind (.record id) fun r => .forM fun _ _ => .syncMatrix_of hmove hforget _ _ _
  · exact .pure _

theorem restoreShared_of (id : MatrixId) : Keeps R (restoreShared id) := by
  refine .bind .get fun s => .bind (.matrix id) fun m => ?_
  split
  · exact .bind .get fun s => .bind (hmove _ _ _) fun _ => hforget
  · exact .pure _

end

theorem syncMatrices (id : SpectrumId) : Keeps SameHoldings (syncMatrices (α := α) id) :=
  .syncMatrices_of moveChannels forgetGrid id

theorem restoreShared (id : MatrixId) : Keeps SameHoldings (restoreShared (α := α) id) :=
  .restoreShared_of moveChannels forgetGrid id

theorem rebinMatrix (id : MatrixId) (target : Grid α) (threshold : α) :
    Keeps SameHoldings (rebinMatrix id target threshold) :=
  .rebinMatrix_of moveChannels id target threshold

end Keeps

/-! ### Operations that leave everything alone -/

/-- The sessions differ in the shared evaluation grid at most, which is worked out again when needed. -/
def SameContents (s s' : Session α) : Prop := s' = { s with cache := s'.cache }

instance : Std.Refl (SameContents (α := α)) := ⟨fun _ => rfl⟩

instance : IsTrans (Session α) SameContents := ⟨fun s s₁ s' h h' => by
  rw [SameContents] at h h' ⊢
  rw [h', h]⟩

theorem SameContents.sameHoldings (h : SameContents s s') : SameHoldings s s' := by
  rw [h]
  exact ⟨.refl _, .refl _, rfl⟩

namespace Keeps

variable [Scalar α]

theorem sharedGrid (members : List EvaluationMember) (grids : List (Grid α)) :
    Keeps SameContents (sharedGrid members grids) :=
  .bind .get fun _ => .bind (.lift _) fun (_, _) => .bind (.modify fun _ => rfl) fun _ =>
    .pure _

theorem modelFluxes (ids : List SpectrumId) (model : Model α) :
    Keeps SameContents (modelFluxes ids model) :=
  .bind (reads_members ids).keeps fun _ => .bind (reads_grids _).keeps fun _ =>
    .bind (.sharedGrid _ _) fun _ => .bind (.lift _) fun (_, _) => .pure _

section

variable {R : Session α → Session α → Prop} [Std.Refl R] [IsTrans (Session α) R] {ids : List SpectrumId}
  {model : Model α} (hfluxes : Keeps R (Session.modelFluxes ids model))

include hfluxes

/-- Once the fluxes are known, counts are only read off. -/
theorem predictedCounts_of : Keeps R (predictedCounts ids model) :=
  .bind hfluxes fun (_, _) => .bind (Reads.mapM (reads_spectrumCounts _) _).keeps fun _ => .pure _

theorem fitArrays_of : Keeps R (fitArrays ids model) :=
  .bind (predictedCounts_of hfluxes) fun _ => .foldlM (fun _ _ _ => .bind (reads_spectrum _).keeps fun _ =>
    .bind (.lift _) fun _ => .bind (.lift _) fun _ => .pure _) _

theorem evaluateStatistic_of (statistic : Statistic α) : Keeps R (evaluateStatistic ids model statistic) :=
  .bind (fitArrays_of hfluxes) fun _ => .pure _

end

end Keeps

end SpectralResponse.Session
