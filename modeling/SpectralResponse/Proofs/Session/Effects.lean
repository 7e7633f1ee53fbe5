import SpectralResponse.Proofs.Session.Freeing
import SpectralResponse.Proofs.Session.Regroup
import SpectralResponse.Proofs.Session.Sharing
import SpectralResponse.Proofs.Spectrum.Tidy

/-!
# What an operation has done

An operation that has succeeded has done one of a few things: it has freed products at most, changed or
regrouped one spectrum, taken in or given away a spectrum, taken in a matrix, exchanged response pairs, moved a
matrix by hand, or taken over a configuration. What all operations are to keep has to be shown for these few
only.

## What is proved

* `Yields.effect` — the effect of each operation that succeeds.
* `Yields.of_spectrumAdded`, `Yields.of_pairAssigned` — what has been done when a spectrum is taken in or a pair
  is assigned, and what is still to be done.
* `Refreshed.named` — which matrices a spectrum names once its fit pairs have been derived anew.
-/

namespace SpectralResponse

variable {α : Type}

/-! ### The matrices of a record -/

theorem SpectrumRecord.mem_matrices {r : SpectrumRecord α} {m : MatrixId} :
    m ∈ r.matrices ↔ m ∈ r.assigned.map ResponsePair.matrix ∨ m ∈ r.fit.map ResponsePair.matrix := by
  rw [matrices, pairs, List.map_append, List.mem_append]

theorem SpectrumRecord.mem_matrices_assigned {r : SpectrumRecord α} {pair : ResponsePair} {m : MatrixId} :
    m ∈ ({ r with assigned := r.assigned ++ [pair] } : SpectrumRecord α).matrices ↔
      m = pair.matrix ∨ m ∈ r.matrices := by
  simp only [mem_matrices, List.map_append, List.map_cons, List.map_nil, List.mem_append, List.mem_singleton]
  exact or_assoc.trans or_left_comm

theorem SpectrumRecord.mem_matrices_of_unassigned {r : SpectrumRecord α} {m : MatrixId}
    (h : m ∈ ({ r with assigned := [] } : SpectrumRecord α).matrices) : m ∈ r.matrices :=
  mem_matrices.2 (.inr ((mem_matrices.1 h).resolve_left List.not_mem_nil))

namespace Session

variable [Scalar α] {s s' : Session α} {id : SpectrumId} {slot : Slot (SpectrumRecord α)} {pair : ResponsePair}

/-- Once the fit pairs have been derived, a spectrum names matrices that it has named or new ones. -/
theorem Refreshed.named {fit : List ResponsePair} (h : Refreshed s id slot fit s') {m : MatrixId}
    (hm : m ∈ ({ slot.value with fit } : SpectrumRecord α).matrices) :
    m ∈ slot.value.matrices ∨ s.matrices.slots.length ≤ m.index := by
  obtain ⟨pair, hpair, rfl⟩ := List.mem_map.1 hm
  have hassigned (hp : pair.matrix ∈ slot.value.assigned.map ResponsePair.matrix) :
      pair.matrix ∈ slot.value.matrices := SpectrumRecord.mem_matrices.2 (.inl hp)
  rcases List.mem_append.1 hpair with hpair | hpair
  · exact .inl (hassigned (List.mem_map_of_mem hpair))
  · exact (h.drawn pair hpair).2.imp_left hassigned

theorem Repaired.slot_eq {r : SpectrumRecord α} (h : Repaired s id slot r s') :
    s'.spectra.slot? id = some { slot with value := r } := by
  rw [h.spectra]
  exact Arena.slot?_setSlot_self h.found _

/-- Regrouping a spectrum leaves what was observed. -/
theorem Regrouping.observed_of_change {g : Regrouping α} {spectrum next : Spectrum α}
    (h : g.change spectrum = .ok next) : next.observed = spectrum.observed := by
  cases g with
  | mask flags =>
    obtain ⟨⟨⟩, -, h⟩ := Except.bind_eq_ok.1 h
    obtain ⟨grouping, -, h⟩ := Except.bind_eq_ok.1 h
    rw [Spectrum.eq_of_rebuild h]
  | leastCount threshold =>
    obtain ⟨grouping, -, h⟩ := Except.bind_eq_ok.1 h
    rw [Spectrum.eq_of_rebuild h]
  | unbin => rw [Spectrum.eq_of_rebuild h]

/-! ### Operations in parts -/

/-- A spectrum has been taken in with no pairs, and its fit pairs are derived next. -/
theorem Yields.of_spectrumAdded {spectrum : Spectrum α} {newId : SpectrumId} (hb : s.Balanced)
    (y : Yields (addSpectrum spectrum) s (.ok newId) s') :
    ∃ configured spectra, spectrum.configure s.config = .ok configured ∧ { s with spectra }.Balanced ∧
      (∀ id slot, spectra.slot? id = some slot →
        slot.value = ⟨configured, [], []⟩ ∨ s.spectra.slot? id = some slot) ∧
      Yields (refreshFit newId) { s with spectra } (.ok ()) s' := by
  rcases y.of_addSpectrum with ⟨_, hfault, -⟩ | ⟨configured, newId, spectra, hconfigure, hinsert, y₁⟩
  · cases hfault
  obtain ⟨⟨⟩, s₁, y₂, y₃⟩ := y₁.of_bind_ok
  obtain ⟨hid, rfl⟩ := yields_pure.1 y₃
  cases hid
  have hspectra : spectra = (s.spectra.insert ⟨configured, [], []⟩ true).2 := by rw [hinsert]
  refine ⟨configured, spectra, hconfigure, ?_, fun id slot hs => ?_, y₂⟩
  · rw [hspectra]
    exact Held.insertSpectrum hb ⟨configured, [], []⟩ rfl true
  · rw [hspectra] at hs
    exact (Arena.slot?_insert_cases hs).imp (fun hnew => by rw [← hnew.2]) And.right

/-- A pair whose matrix fits has been assigned; its matrix may be taken back to its own channels, and the fit
pairs are derived next. -/
theorem Yields.of_pairAssigned (hb : s.Balanced) (y : Yields (assign id pair) s (.ok ()) s') :
    ∃ slot mslot s₁ s₂, s.matrices.slot? pair.matrix = some mslot ∧
      mslot.value.native.channelCount = slot.value.spectrum.observedCount ∧
      Repaired s id slot { slot.value with assigned := slot.value.assigned ++ [pair] } s₁ ∧
      Yields (restoreShared pair.matrix) s₁ (.ok ()) s₂ ∧ Yields (refreshFit id) s₂ (.ok ()) s' := by
  rcases y.of_assign hb with ⟨_, hfault, -⟩ | ⟨slot, curve, mslot, s₁, -, hm, hcheck, hr, y₁⟩
  · cases hfault
  obtain ⟨⟨⟩, s₂, y₂, y₃⟩ := y₁.of_bind_ok
  obtain ⟨⟨⟩, -, hcheck⟩ := hcheck.of_lift_bind
  have hfits := Except.requireLength_eq_ok.1 (Noted.answers_lift.1 hcheck.of_warnIf_bind).symm
  exact ⟨slot, mslot, s₁, s₂, hm, hfits.symm, hr, y₂, y₃⟩

omit [Scalar α] in
/-- A matrix that is there once one has been taken in is that one, or has stood there before. -/
theorem Yields.of_matrixTaken {m : ResponseMatrix α} {newId : MatrixId} (hb : s.Balanced)
    (y : Yields (takeMatrix m) s (.ok newId) s') :
    s'.Balanced ∧ s'.config = s.config ∧ s'.spectra = s.spectra ∧
      ∀ id slot', s'.matrices.slot? id = some slot' →
        (∃ slot, s.matrices.slot? id = some slot ∧ slot.value = slot'.value) ∨
          s.matrices.slots.length ≤ id.index ∧ slot'.value = m := by
  have hb' := balanced_insertMatrix m true _ _ _ y hb
  obtain ⟨-, rfl⟩ := y.of_insertMatrix
  refine ⟨hb', rfl, rfl, fun id slot' hs' => ?_⟩
  rcases Arena.slot?_insert_cases hs' with ⟨rfl, rfl⟩ | ⟨-, hs'⟩
  · exact .inr ⟨Nat.le_refl _, rfl⟩
  · exact .inl ⟨slot', hs', rfl⟩

end Session

/-! ### Effects -/

variable [Scalar α]

namespace Session

variable {s s' : Session α}

/-- What an operation that has succeeded has done to a session. -/
inductive Effect (s s' : Session α) : Operation α → Prop where
  /-- Products are freed at most. -/
  | freed {operation : Operation α} (h : OnlyFrees s s') (hop : operation.onlyFrees = true) : Effect s s' operation
  /-- A spectrum is changed, but not regrouped. -/
  | edited {operation : Operation α} {id : SpectrumId} {slot : Slot (SpectrumRecord α)} {next : Spectrum α}
      (hs : s.spectra.slot? id = some slot) (hnext : slot.value.spectrum.Edited next)
      (hs' : s' = s.withSpectrum id slot next) : Effect s s' operation
  /-- A spectrum is regrouped. -/
  | regrouped {operation : Operation α} {id : SpectrumId} (g : Regrouping α)
      (y : Yields (g.perform id) s (.ok ()) s') : Effect s s' operation
  /-- A spectrum is read and taken in. -/
  | spectrumLoaded {file : CalibrationFile α} {spectrum : Spectrum α} {id : SpectrumId}
      (hread : (Spectrum.read file).Answers (.ok spectrum))
      (y : Yields (addSpectrum spectrum) s (.ok id) s') : Effect s s' (.loadSpectrum file)
  /-- A spectrum is taken in. -/
  | spectrumAdded {spectrum : Spectrum α} {id : SpectrumId}
      (y : Yields (addSpectrum spectrum) s (.ok id) s') : Effect s s' (.addSpectrum spectrum)
  /-- A spectrum is given away. -/
  | spectrumDeleted {id : SpectrumId} {spectrum : Spectrum α}
      (y : Yields (deleteSpectrum id) s (.ok spectrum) s') : Effect s s' (.deleteSpectrum id)
  /-- A matrix is read and taken in. -/
  | matrixLoaded {file : CalibrationFile α} {m : Redistribution α} {id : MatrixId}
      (hread : (Redistribution.read file).Answers (.ok m))
      (y : Yields (takeMatrix (.ofRedistribution m)) s (.ok id) s') : Effect s s' (.loadMatrix file)
  /-- A matrix is taken in. -/
  | matrixTaken {m : ResponseMatrix α} {id : MatrixId} (y : Yields (takeMatrix m) s (.ok id) s') :
      Effect s s' (.takeMatrix m)
  /-- A matrix is moved by hand. -/
  | matrixMoved {id : MatrixId} {target : Grid α} {threshold : α} :
      Effect s s' (.rebinMatrix id target threshold)
  /-- A pair is assigned to a spectrum. -/
  | pairAssigned {id : SpectrumId} {pair : ResponsePair} (y : Yields (assign id pair) s (.ok ()) s') :
      Effect s s' (.assign id pair)
  /-- A spectrum has no assigned pairs any more. -/
  | pairsUnassigned {id : SpectrumId} (y : Yields (unassign id) s (.ok ()) s') : Effect s s' (.unassign id)
  /-- A configuration is taken over. -/
  | configured {config : Config α} (y : Yields (setConfig config) s (.ok ()) s') :
      Effect s s' (.setConfig config)

theorem Effect.of_updateSpectrum {operation : Operation α} {id : SpectrumId}
    {change : Spectrum α → Except (Fault α) (Spectrum α)} (y : Yields (updateSpectrum id change) s (.ok ()) s')
    (hchange : ∀ spectrum next, change spectrum = .ok next → spectrum.Edited next) : Effect s s' operation := by
  rcases y.of_updateSpectrum with ⟨_, hfault, -⟩ | ⟨slot, next, hs, hnext, -, hs'⟩
  · cases hfault
  · exact .edited hs (hchange _ _ hnext) hs'

/-- Each operation that succeeds has its effect. -/
theorem Yields.effect {operation : Operation α} {answer : Answer α}
    (y : Yields operation.perform s (.ok answer) s') : Effect s s' operation := by
  by_cases hfrees : operation.onlyFrees = true
  · exact .freed (onlyFrees_perform operation hfrees _ _ _ y) hfrees
  cases operation with
  | setConfig config =>
    obtain ⟨_, z, -⟩ := y.of_bind_pure
    exact .configured z
  | loadMatrix file =>
    obtain ⟨newId, z, -⟩ := y.of_bind_pure
    obtain ⟨m, s₁, z₁, z₂⟩ := z.of_bind_ok
    obtain ⟨rfl, hread⟩ := z₁.of_noted
    exact .matrixLoaded hread z₂
  | takeMatrix m =>
    obtain ⟨newId, z, -⟩ := y.of_bind_pure
    exact .matrixTaken z
  | rebinMatrix id target threshold => exact .matrixMoved
  | loadSpectrum file =>
    obtain ⟨newId, z, -⟩ := y.of_bind_pure
    obtain ⟨spectrum, s₁, z₁, z₂⟩ := z.of_bind_ok
    obtain ⟨rfl, hread⟩ := z₁.of_noted
    exact .spectrumLoaded hread z₂
  | addSpectrum spectrum =>
    obtain ⟨newId, z, -⟩ := y.of_bind_pure
    exact .spectrumAdded z
  | deleteSpectrum id =>
    obtain ⟨spectrum, z, -⟩ := y.of_bind_pure
    exact .spectrumDeleted z
  | assign id pair =>
    obtain ⟨_, z, -⟩ := y.of_bind_pure
    exact .pairAssigned z
  | unassign id =>
    obtain ⟨_, z, -⟩ := y.of_bind_pure
    exact .pairsUnassigned z
  | setKernel id kernel =>
    obtain ⟨_, z, -⟩ := y.of_bind_pure
    exact .of_updateSpectrum z fun _ _ hnext => .kernel kernel (Except.ok.inj hnext).symm
  | setBackground id background =>
    obtain ⟨_, z, -⟩ := y.of_bind_pure
    exact .of_updateSpectrum z fun _ _ => .background
  | setSysFractions id fractions =>
    obtain ⟨_, z, -⟩ := y.of_bind_pure
    exact .of_updateSpectrum z fun _ _ => .sysFractions
  | setRange id lo hi unit noticed =>
    obtain ⟨_, z, -⟩ := y.of_bind_pure
    rcases z.of_changeSpectrum with ⟨_, hfault, -⟩ | ⟨slot, next, count, hs, hnext, -, hs'⟩
    · cases hfault
    · obtain ⟨flags, hflags⟩ := Spectrum.exists_setNotice_of_setRange hnext
      exact .edited hs (.notice hflags) hs'
  | noticeAll id =>
    obtain ⟨_, z, -⟩ := y.of_bind_pure
    exact .of_updateSpectrum z fun _ _ => .notice
  | ignoreAll id =>
    obtain ⟨_, z, -⟩ := y.of_bind_pure
    exact .of_updateSpectrum z fun _ _ => .notice
  | rebinSpectrum id mask =>
    obtain ⟨_, z, -⟩ := y.of_bind_pure
    exact .regrouped (.mask mask) z
  | groupToCount id threshold =>
    obtain ⟨_, z, -⟩ := y.of_bind_pure
    exact .regrouped (.leastCount threshold) z
  | unbin id =>
    obtain ⟨_, z, -⟩ := y.of_bind_pure
    exact .regrouped .unbin z
  | _ => exact absurd rfl hfrees

end Session

end SpectralResponse
