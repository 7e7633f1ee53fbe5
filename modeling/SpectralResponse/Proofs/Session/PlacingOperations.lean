import SpectralResponse.Proofs.Session.Placing

/-!
# Placed matrices and the operations of a session

Each operation exchanges pairs or products, changes a spectrum, moves a matrix by hand, or only tells something.
While operations succeed, the matrices they leave waiting are moved before they are done, as far as the
configuration asks for it. When a configuration is taken over, all spectra move their matrices, or, if it does
not let matrices follow, these are left where they stand.

## What is proved

* `PlacedBut.refreshFit` — deriving the fit pairs of a spectrum anew brings its matrices into place.
* `Placed.setConfig` — taking over a configuration.
* `placed_start` — a session without products has no matrix out of place.
* `placed_perform` — each operation that succeeds leaves the matrices in place, if what it takes in allows it.
-/

namespace SpectralResponse.Session

variable {α : Type} [Scalar α] {P : Placing α} {s s' : Session α} {id : SpectrumId}
  {slot : Slot (SpectrumRecord α)} {loose loose' : MatrixId → Prop}
  {waiting waiting' : SpectrumId → MatrixId → Prop}

/-! ### Spectra and their pairs -/

namespace PlacedBut

/-- Only the record of one spectrum is replaced. -/
theorem renewRecord {r : SpectrumRecord α} (h : s.PlacedBut P loose waiting) (hb : s'.Balanced)
    (hconfig : s'.config = s.config) (hs : s.spectra.slot? id = some slot)
    (hspectra : s'.spectra = s.spectra.setSlot id (some { slot with value := r }))
    (hexchanges : Exchanges slot.value.spectrum.observed.grid s s') (hr : P.Good r.spectrum)
    (hnaming : ∀ m ∈ r.matrices, Naming loose' waiting' (Ideal slot.value.spectrum.observed.grid) s id r m)
    (hl : ∀ m, loose m → loose' m) (hw : ∀ id m, waiting id m → waiting' id m) :
    s'.PlacedBut P loose' waiting' := by
  refine h.renew ⟨hb, hconfig, hexchanges.matrices_origin, ?_, ?_⟩ hl hw
    fun m hm => P.ideal _ m (h.spectra id slot hs) hm
  · intro other slot' hs'
    rcases slot?_setSpectrum hs hspectra hs' with ⟨-, hvalue⟩ | ⟨-, hs'⟩
    · rw [hvalue]
      exact hr
    · exact h.spectra other slot' hs'
  · intro other slot' hs' m hm
    rcases slot?_setSpectrum hs hspectra hs' with ⟨rfl, hvalue⟩ | ⟨-, hs'⟩
    · rw [hvalue] at hm ⊢
      exact hnaming m hm
    · exact .same hs' hm

/-- Exchanging the fit pairs of a spectrum leaves waiting what was waiting. -/
theorem refreshed {fit : List ResponsePair} (h : s.PlacedBut P loose waiting) (hr : Refreshed s id slot fit s') :
    s'.PlacedBut P loose waiting := by
  refine h.renewRecord hr.balanced hr.config hr.found hr.spectra hr.exchanges (h.spectra id slot hr.found)
    (fun m hm => ?_) (fun _ hl => hl) fun _ _ hw => hw
  rcases hr.named hm with hold | hnew
  · exact .kept hr.found hold rfl (.inl rfl)
  · exact .fresh hnew fun m hm => channelCount_of_ideal hm

/-- No matrix is waiting for a spectrum whose fit pairs have been derived anew. -/
theorem refreshFit (h : s.PlacedBut P (fun _ => False) waiting) (y : Yields (refreshFit id) s (.ok ()) s') :
    s'.PlacedBut P (fun _ => False) fun other m => waiting other m ∧ other ≠ id := by
  rcases y.of_refreshFit h.balanced with ⟨_, _, hfault, -⟩ | ⟨slot, fit, s₁, hr, y₁⟩
  · cases hfault
  exact (h.refreshed hr).syncMatrices y₁

end PlacedBut

namespace Placed

theorem addSpectrum {spectrum : Spectrum α} {newId : SpectrumId} (h : s.Placed P)
    (hgood : ∀ config next, spectrum.configure config = .ok next → P.Good next)
    (y : Yields (addSpectrum spectrum) s (.ok newId) s') : s'.Placed P := by
  obtain ⟨configured, spectra, hconfigure, hb, hslot, y₁⟩ := y.of_spectrumAdded h.balanced
  have hrenewed : Renewed P (fun _ => False) (fun _ _ => False) (fun _ => False) s { s with spectra } := by
    refine ⟨hb, rfl, fun _ slot hs => .inl ⟨slot, hs, rfl⟩, ?_, ?_⟩
    · intro id slot hs
      rcases hslot id slot hs with hvalue | hs
      · rw [hvalue]
        exact hgood _ _ hconfigure
      · exact h.spectra id slot hs
    · intro id slot hs m hm
      rcases hslot id slot hs with hvalue | hs
      · rw [hvalue] at hm
        cases hm
      · exact .same hs hm
  have hinserted : Placed P { s with spectra } :=
    h.renew hrenewed (fun _ => False.elim) (fun _ _ => False.elim) fun _ => False.elim
  exact (hinserted.refreshFit y₁).revise (fun _ => False.elim) fun _ _ _ _ _ _ hw => hw.1

theorem deleteSpectrum {spectrum : Spectrum α} (h : s.Placed P)
    (y : Yields (deleteSpectrum id) s (.ok spectrum) s') : s'.Placed P := by
  obtain ⟨slot, hs⟩ : ∃ slot, s.spectra.slot? id = some slot := by
    rcases y.of_record_bind with ⟨_, -, hfault, -⟩ | ⟨slot, hs, -⟩
    · cases hfault
    · exact ⟨slot, hs⟩
  obtain ⟨hb, hexchanges, hconfig, hdone⟩ := y.of_deleteSpectrum h.balanced
  rcases hdone with ⟨_, hfault⟩ | ⟨hspectra, -⟩
  · cases hfault
  have hold : ∀ other slot, s'.spectra.slot? other = some slot → s.spectra.slot? other = some slot :=
    fun _ _ hs => Arena.slot?_of_setSlot_none (hspectra ▸ hs)
  refine h.renew ⟨hb, hconfig, (hexchanges slot.value.spectrum.observed.grid).matrices_origin, ?_, ?_⟩
    (fun _ => False.elim) (fun _ _ => False.elim) fun m hm => P.ideal _ m (h.spectra id slot hs) hm
  · exact fun other slot hs => h.spectra other slot (hold other slot hs)
  · exact fun other slot hs m hm => .same (hold other slot hs) hm

theorem assign {pair : ResponsePair} (h : s.Placed P) (y : Yields (assign id pair) s (.ok ()) s') :
    s'.Placed P := by
  obtain ⟨slot, mslot, s₁, s₂, hm, hfits, hr, y₁, y₂⟩ := y.of_pairAssigned h.balanced
  have hgood := h.spectra id slot hr.found
  -- the matrix of the new pair may stand on the channels of another spectrum
  have h₁ : s₁.PlacedBut P (· = pair.matrix) fun other _ => other = id := by
    refine h.renewRecord hr.balanced hr.config hr.found hr.spectra (hr.exchanges _) hgood
      (fun m hnamed => ?_) (fun _ => False.elim) fun _ _ => False.elim
    rcases SpectrumRecord.mem_matrices_assigned.1 hnamed with rfl | hold
    · exact .joined hm hfits rfl rfl
    · exact .kept hr.found hold rfl (.inl rfl)
  have h₂ := h₁.restoreShared hr.slot_eq (SpectrumRecord.mem_matrices_assigned.2 (.inl rfl)) y₁
  exact (h₂.refreshFit y₂).revise (fun _ => False.elim) fun _ _ _ _ _ _ hw => hw.2 hw.1

theorem unassign (h : s.Placed P) (y : Yields (unassign id) s (.ok ()) s') : s'.Placed P := by
  rcases y.of_unassign h.balanced with ⟨_, hfault, -⟩ | ⟨slot, s₁, hr, y₁⟩
  · cases hfault
  have hgood := h.spectra id slot hr.found
  have h₁ : s₁.Placed P := by
    refine h.renewRecord hr.balanced hr.config hr.found hr.spectra (hr.exchanges _) hgood (fun m hm => ?_)
      (fun _ => False.elim) fun _ _ => False.elim
    exact .kept hr.found (SpectrumRecord.mem_matrices_of_unassigned hm) rfl (.inl rfl)
  exact (h₁.refreshFit y₁).revise (fun _ => False.elim) fun _ _ _ _ _ _ hw => hw.1

end Placed

/-! ### Changes of one spectrum -/

namespace PlacedBut

variable {next : Spectrum α}

/-- One spectrum is changed; if it is grouped anew, its matrices are waiting. -/
theorem withSpectrum (h : s.PlacedBut P loose waiting) (hs : s.spectra.slot? id = some slot)
    (hgood : P.Good next) (hobserved : next.observed = slot.value.spectrum.observed)
    (hgrouping : slot.value.spectrum.grouping = next.grouping ∨ ∀ m, waiting' id m)
    (hw : ∀ id m, waiting id m → waiting' id m) :
    (s.withSpectrum id slot next).PlacedBut P loose waiting' := by
  have hb := (sameHoldings_withSpectrum hs next).held h.balanced
  refine h.renewRecord hb rfl hs rfl ⟨.refl _, .refl _⟩ hgood
    (fun m hm => .kept hs hm ?_ (hgrouping.imp_right fun hw => hw m)) (fun _ hl => hl) hw
  rw [Spectrum.observedCount, Spectrum.observedCount, hobserved]

/-- An edit of a spectrum leaves all matrices where they are. -/
theorem edited (h : s.PlacedBut P loose waiting) (hs : s.spectra.slot? id = some slot)
    (hnext : slot.value.spectrum.Edited next) : (s.withSpectrum id slot next).PlacedBut P loose waiting := by
  obtain ⟨hobserved, hgrouping⟩ := hnext.keeps
  exact h.withSpectrum hs (P.edited _ _ (h.spectra id slot hs) hnext) hobserved (.inl hgrouping.symm)
    fun _ _ hw => hw

/-- So does taking over a configuration. -/
theorem configured {config : Config α} (h : s.PlacedBut P loose waiting) (hs : s.spectra.slot? id = some slot)
    (hnext : slot.value.spectrum.configure config = .ok next) :
    (s.withSpectrum id slot next).PlacedBut P loose waiting := by
  have hsame := Spectrum.eq_of_rebuild hnext
  exact h.withSpectrum hs (P.configured _ _ _ (h.spectra id slot hs) hnext) (by rw [hsame])
    (.inl (by rw [hsame])) fun _ _ hw => hw

end PlacedBut

theorem Placed.regroup {g : Regrouping α} (h : s.Placed P) (y : Yields (g.perform id) s (.ok ()) s') :
    s'.Placed P := by
  rw [g.perform_eq] at y
  obtain ⟨⟨⟩, s₁, y₁, y₂⟩ := y.of_bind_ok
  rcases y₁.of_updateSpectrum with ⟨_, hfault, -⟩ | ⟨slot, next, hs, hchange, -, rfl⟩
  · cases hfault
  have hwaiting : (s.withSpectrum id slot next).PlacedBut P (fun _ => False) fun other _ => other = id :=
    PlacedBut.withSpectrum h hs (P.regrouped g _ _ (h.spectra id slot hs) hchange)
      (Regrouping.observed_of_change hchange) (.inr fun _ => rfl) fun _ _ => False.elim
  exact (hwaiting.syncMatrices y₂).revise (fun _ => False.elim) fun _ _ _ _ _ _ hw => hw.2 hw.1

/-! ### Configurations -/

/-- One spectrum after another takes over a configuration and derives its fit pairs anew; then no matrix is
waiting any more. -/
theorem PlacedBut.reconfigure {config : Config α} {ids : List SpectrumId}
    (h : s.PlacedBut P (fun _ => False) fun other _ => other ∈ ids)
    (y : Yields (ids.forM fun id => do
      Session.updateSpectrum id (·.configure config)
      Session.refreshFit id) s (.ok ()) s') : s'.Placed P := by
  induction ids generalizing s with
  | nil =>
    obtain ⟨-, rfl⟩ := yields_pure.1 y
    exact h.revise (fun _ => False.elim) fun _ _ _ _ _ _ hw => absurd hw List.not_mem_nil
  | cons id ids ih =>
    obtain ⟨⟨⟩, s₁, y₁, y₂⟩ := Yields.of_bind_ok y
    obtain ⟨⟨⟩, s₂, y₃, y₄⟩ := y₁.of_bind_ok
    rcases y₃.of_updateSpectrum with ⟨_, hfault, -⟩ | ⟨slot, next, hs, hnext, -, rfl⟩
    · cases hfault
    refine ih (((h.configured hs hnext).refreshFit y₄).revise (fun _ => False.elim) fun _ other _ _ _ _ hw => ?_) y₂
    exact (List.mem_cons.1 hw.1).resolve_left hw.2

/-- Where matrices stand is left at another configuration, if it does not let them follow; if it does, all of them
are waiting. -/
theorem Placed.withConfig {config : Config α} (h : s.Placed P) (strategy : EvaluationStrategy α)
    (cache : EvaluationCache α) (hallows : P.Allows config)
    (hleft : s.config.rebinMatrixWithData = true → ∀ m mslot, s.matrices.slot? m = some mslot →
      P.AtHome mslot.value ∨ P.Left m mslot.value) :
    PlacedBut P (fun _ => False) (fun other _ => other ∈ s.spectra.ids) { s with strategy, config, cache } := by
  constructor
  case balanced => exact ⟨h.balanced.areas, h.balanced.matrices⟩
  case config => exact hallows
  case spectra => exact h.spectra
  case matrices => exact h.matrices
  case fits => exact fun id slot m mslot hn => h.fits id slot m mslot ⟨hn.spectrum, hn.named, hn.matrix⟩
  case stands =>
    intro id slot m mslot hn
    have hstood := h.stands id slot m mslot ⟨hn.spectrum, hn.named, hn.matrix⟩
    exact hstood.imp_right fun ⟨honly, _⟩ => ⟨honly, fun _ => .inl (Arena.mem_ids_of_slot? hn.spectrum)⟩
  case rests =>
    intro _ m mslot hm
    cases hflag : s.config.rebinMatrixWithData with
    | false => exact h.rests hflag m mslot hm
    | true => exact hleft hflag m mslot hm

theorem Placed.setConfig {config : Config α} (h : s.Placed P) (hallows : P.Allows config)
    (hleft : s.config.rebinMatrixWithData = true → ∀ m mslot, s.matrices.slot? m = some mslot →
      P.AtHome mslot.value ∨ P.Left m mslot.value)
    (y : Yields (setConfig config) s (.ok ()) s') : s'.Placed P := by
  rcases y.of_lift_bind with ⟨_, -, hfault, -⟩ | ⟨strategy, -, y₁⟩
  · cases hfault
  exact (h.withConfig strategy .empty hallows hleft).reconfigure y₁.of_modify_bind.of_get_bind

/-! ### Products come and go -/

namespace Placed

/-- Matrices stay as they are, go, or are new and at home. -/
theorem renewProducts (h : s.Placed P) (hb : s'.Balanced) (hconfig : s'.config = s.config)
    (hspectra : s'.spectra = s.spectra)
    (hmatrices : ∀ id slot', s'.matrices.slot? id = some slot' →
      (∃ slot, s.matrices.slot? id = some slot ∧ slot.value = slot'.value) ∨
        s.matrices.slots.length ≤ id.index ∧ P.Sound slot'.value ∧ P.AtHome slot'.value) : s'.Placed P := by
  have hrenewed : Renewed P (fun _ => False) (fun _ _ => False) (fun m => P.Sound m ∧ P.AtHome m) s s' := by
    refine ⟨hb, hconfig, hmatrices, ?_, ?_⟩
    · rw [hspectra]
      exact h.spectra
    · rw [hspectra]
      exact fun _ _ hs _ hm => .same hs hm
  exact h.renew hrenewed (fun _ => False.elim) (fun _ _ => False.elim) fun _ hn => hn

theorem onlyFrees (h : s.Placed P) (hfrees : OnlyFrees s s') (hb : s'.Balanced) : s'.Placed P :=
  h.renewProducts hb hfrees.config hfrees.spectra fun id slot' hs' => .inl (hfrees.matrices id slot' hs')

theorem sameContents (h : s.Placed P) (hsame : SameContents s s') : s'.Placed P :=
  h.onlyFrees (.of_sameContents hsame) (hsame.sameHoldings.held h.balanced)

theorem takeMatrix {m : ResponseMatrix α} {newId : MatrixId} (h : s.Placed P) (hm : P.Sound m ∧ P.AtHome m)
    (y : Yields (takeMatrix m) s (.ok newId) s') : s'.Placed P := by
  obtain ⟨hb, hconfig, hspectra, hmatrices⟩ := y.of_matrixTaken h.balanced
  refine h.renewProducts hb hconfig hspectra fun id slot' hs' => (hmatrices id slot' hs').imp_right ?_
  rintro ⟨hindex, rfl⟩
  exact ⟨hindex, hm⟩

/-- A matrix is moved by hand; it is in place if it is wherever it stands. -/
theorem rebinMatrix {matrixId : MatrixId} {target : Grid α} {threshold : α} {changed : Bool} (h : s.Placed P)
    (hall : ∀ m, P.Sound m ∧ P.AtHome m) (y : Yields (rebinMatrix matrixId target threshold) s (.ok changed) s') :
    s'.Placed P := by
  rcases y.of_rebinMatrix with ⟨-, hfault, -⟩ | ⟨-, y₁⟩
  · cases hfault
  rcases y₁.of_matrix_bind with ⟨_, -, hfault, -⟩ | ⟨mslot, hm, -⟩
  · cases hfault
  rcases y₁.of_moveChannels hm with ⟨_, -, hfault, -⟩ | ⟨changed, moved, hmove, -, rfl⟩
  · cases hfault
  exact h.move hm (hall moved).1 (ResponseMatrix.native_of_rebinChannels hmove) (fun _ => (hall moved).2)
    (fun _ _ _ _ => .inl (hall moved).2) (fun _ _ => False.elim) fun _ _ _ => False.elim

end Placed

/-! ### All operations -/

/-- What an operation takes in is known to be good, sound and at home, it moves no matrix by hand unless all are at
home anywhere, and where matrices stand may be left when it takes over a configuration. -/
def Placing.Takes (P : Placing α) (s : Session α) : Operation α → Prop
  | .rebinMatrix _ _ _ => ∀ m, P.Sound m ∧ P.AtHome m
  | .takeMatrix m => P.Sound m ∧ P.AtHome m
  | .loadMatrix file => ∀ p, (Redistribution.read file).Answers (.ok p) →
      P.Sound (.ofRedistribution p) ∧ P.AtHome (.ofRedistribution p)
  | .addSpectrum spectrum => ∀ config next, spectrum.configure config = .ok next → P.Good next
  | .loadSpectrum file => ∀ spectrum, (Spectrum.read file).Answers (.ok spectrum) →
      ∀ config next, spectrum.configure config = .ok next → P.Good next
  | .setConfig config => P.Allows config ∧ (s.config.rebinMatrixWithData = true →
      ∀ m mslot, s.matrices.slot? m = some mslot → P.AtHome mslot.value ∨ P.Left m mslot.value)
  | _ => True

/-- A session without products has no matrix out of place. -/
theorem placed_start {config : Config α} (h : ofConfig config = .ok s) (hallows : P.Allows config) :
    s.Placed P := by
  obtain ⟨hconfig, -, hmatrices, hspectra, -⟩ := eq_of_ofConfig h
  have hnospectra : ∀ id, s.spectra.slot? id = none := fun id => by rw [hspectra, Arena.slot?_empty]
  have hnomatrices : ∀ id, s.matrices.slot? id = none := fun id => by rw [hmatrices, Arena.slot?_empty]
  exact {
    balanced := balanced_start h
    config := hconfig ▸ hallows
    spectra := fun id slot hs => by cases hs.symm.trans (hnospectra id)
    matrices := fun id slot hs => by cases hs.symm.trans (hnomatrices id)
    fits := fun id slot _ _ hn => by cases hn.spectrum.symm.trans (hnospectra id)
    stands := fun id slot _ _ hn => by cases hn.spectrum.symm.trans (hnospectra id)
    rests := fun _ id slot hs => by cases hs.symm.trans (hnomatrices id) }

/-- Each operation that succeeds leaves the matrices in place. -/
theorem placed_perform {operation : Operation α} {answer : Answer α} (htakes : P.Takes s operation)
    (h : s.Placed P) (y : Yields operation.perform s (.ok answer) s') : s'.Placed P := by
  have hb : s'.Balanced := balanced_perform operation _ _ _ y h.balanced
  cases y.effect with
  | freed hfrees => exact h.onlyFrees hfrees hb
  | edited hs hnext hs' => exact hs' ▸ PlacedBut.edited h hs hnext
  | regrouped g z => exact h.regroup z
  | spectrumLoaded hread z => exact h.addSpectrum (htakes _ hread) z
  | spectrumAdded z => exact h.addSpectrum htakes z
  | spectrumDeleted z => exact h.deleteSpectrum z
  | matrixLoaded hread z => exact h.takeMatrix (htakes _ hread) z
  | matrixTaken z => exact h.takeMatrix htakes z
  | matrixMoved =>
    obtain ⟨changed, z, -⟩ := y.of_bind_pure
    exact h.rebinMatrix htakes z
  | pairAssigned z => exact h.assign z
  | pairsUnassigned z => exact h.unassign z
  | configured z => exact h.setConfig htakes.1 htakes.2 z

end SpectralResponse.Session
