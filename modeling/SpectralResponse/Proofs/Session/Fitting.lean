import SpectralResponse.Proofs.Session.Axes
import SpectralResponse.Proofs.Session.FitPairsOperations

/-!
# Responses that fit

Each spectrum that is there has pairs for fits, and each matrix that its pairs name has as many channels of its own
as the spectrum has observed bins. No operation that succeeds changes that, whatever it does to the channels on which
matrices stand.

## What is proved

* `fitting_perform`, `fitting_replay` — matrices fit the spectra that name them after any operations that have
  succeeded.
* `FittedBut.refreshFit` — a spectrum whose fit pairs have been derived is not waiting for them any more.
* `fitted_perform`, `fitted_replay` — all spectra have fit pairs after any operations that have succeeded.
-/

namespace SpectralResponse.Session

variable {α : Type} [Scalar α] {s s' : Session α} {id : SpectrumId} {slot : Slot (SpectrumRecord α)}

/-! ### Matrices that fit -/

/-- Matrices may stand anywhere. -/
def Placing.anywhere : Placing α where
  Good := Spectrum.Tidy
  Sound _ := True
  AtHome _ := True
  Follows _ _ := True
  Left _ _ := True
  Allows _ := True
  fineLength _ h := h.fineLength
  configured _ _ _ h hnext := h.configure hnext
  edited _ _ h hnext := h.edited hnext
  regrouped _ _ _ h hnext := Regrouping.tidy_of_change h hnext
  atHome _ _ := trivial
  ideal _ _ _ _ := ⟨trivial, trivial⟩
  followed _ _ _ _ _ _ _ _ _ _ _ := ⟨trivial, .inl trivial⟩
  restored _ _ _ _ _ _ := ⟨trivial, trivial⟩

/-- Spectra are tidy, and the matrices they name fit them. -/
def Fitting (s : Session α) : Prop := s.Placed .anywhere

namespace Fitting

/-- Where matrices may stand anywhere, none need wait. -/
theorem of_placedBut {loose : MatrixId → Prop} {waiting : SpectrumId → MatrixId → Prop}
    (h : s.PlacedBut .anywhere loose waiting) : s.Fitting :=
  { h with stands := fun _ _ _ _ _ => .inl trivial }

/-- The configuration does not matter for that. -/
theorem withConfig (h : s.Fitting) (strategy : EvaluationStrategy α) (config : Config α) (cache : EvaluationCache α) :
    Fitting { s with strategy, config, cache } :=
  of_placedBut (Placed.withConfig h strategy cache trivial fun _ _ _ _ => .inl trivial)

end Fitting

/-- A spectrum is taken in as it is when it has been made and changed. -/
def Operation.TakesTidy : Operation α → Prop
  | .addSpectrum spectrum => spectrum.Tidy
  | _ => True

theorem Operation.LeavesAxes.takesTidy {operation : Operation α} (h : operation.LeavesAxes) : operation.TakesTidy := by
  cases operation with
  | addSpectrum spectrum => exact h
  | _ => trivial

theorem Operation.TakesTidy.takes {operation : Operation α} (h : operation.TakesTidy) :
    Placing.anywhere.Takes s operation := by
  cases operation with
  | setConfig config => exact ⟨trivial, fun _ _ _ _ => .inl trivial⟩
  | rebinMatrix id target threshold => exact fun _ => ⟨trivial, trivial⟩
  | takeMatrix m => exact ⟨trivial, trivial⟩
  | loadMatrix file => exact fun _ _ => ⟨trivial, trivial⟩
  | addSpectrum spectrum => exact fun _ _ hconfigure => Spectrum.Tidy.configure h hconfigure
  | loadSpectrum file => exact fun _ hread _ _ hconfigure => (Spectrum.tidy_of_read hread).configure hconfigure
  | _ => trivial

/-- Each operation that succeeds leaves a session fitting. -/
theorem fitting_perform {operation : Operation α} {answer : Answer α} (htakes : operation.TakesTidy)
    (h : s.Fitting) (y : Yields operation.perform s (.ok answer) s') : s'.Fitting :=
  placed_perform htakes.takes h y

/-- A session is fitting after any operations that have succeeded. -/
theorem fitting_replay {config : Config α} (h : ofConfig config = .ok s) {operations : List (Operation α)}
    (htakes : ∀ operation ∈ operations, operation.TakesTidy) (hok : ∀ e ∈ (s.replay operations).1, e.Succeeded) :
    (s.replay operations).2.Fitting :=
  replay_preserves (fun _ _ _ _ htakes hs y => fitting_perform htakes hs y) (placed_start h trivial) htakes hok

/-! ### Spectra with fit pairs -/

section

variable {waiting waiting' : SpectrumId → Prop}

/-- All spectra have fit pairs, but for those that are waiting for them. -/
structure FittedBut (waiting : SpectrumId → Prop) (s : Session α) : Prop where
  /-- The users are counted. -/
  balanced : s.Balanced
  /-- A spectrum has fit pairs, or is waiting for them. -/
  fitted : ∀ id slot, s.spectra.slot? id = some slot → slot.value.fit ≠ [] ∨ waiting id

/-- All spectra have fit pairs. -/
def Fitted (s : Session α) : Prop := s.FittedBut fun _ => False

/-- Deriving the fit pairs of a spectrum leaves it with some. -/
theorem Refreshed.ne_nil {fit : List ResponsePair} (h : Refreshed s id slot fit s') : fit ≠ [] := by
  obtain ⟨s₀, y₀, -⟩ := h.derived
  have hstep := y₀.fitInStep_of_fitPairs
  intro hempty
  by_cases hnone : slot.value.assigned = []
  · obtain ⟨pair, hpair, -⟩ := hstep.standsIn hnone
    exact List.cons_ne_nil _ _ (hpair.symm.trans hempty)
  · have hlen := (hstep.pairs hnone).length_eq
    rw [hempty, List.length_nil] at hlen
    exact hnone (List.length_eq_zero_iff.1 hlen)

namespace FittedBut

section

omit [Scalar α]

theorem mono (h : s.FittedBut waiting) (hw : ∀ id, waiting id → waiting' id) : s.FittedBut waiting' :=
  ⟨h.balanced, fun id slot hs => (h.fitted id slot hs).imp_right (hw id)⟩

/-- Each spectrum that is there was there before with the same fit pairs. -/
theorem keeps (h : s.FittedBut waiting) (hb : s'.Balanced)
    (hspectra : ∀ id slot', s'.spectra.slot? id = some slot' →
      ∃ slot, s.spectra.slot? id = some slot ∧ slot.value.fit = slot'.value.fit) : s'.FittedBut waiting := by
  refine ⟨hb, fun id slot' hs' => ?_⟩
  obtain ⟨slot, hs, hfit⟩ := hspectra id slot' hs'
  rw [← hfit]
  exact h.fitted id slot hs

theorem sameSpectra (h : s.FittedBut waiting) (hb : s'.Balanced) (hspectra : s'.spectra = s.spectra) :
    s'.FittedBut waiting :=
  h.keeps hb fun _ slot hs => ⟨slot, hspectra ▸ hs, rfl⟩

/-- The record of one spectrum is replaced, with the same fit pairs. -/
theorem setRecord {r : SpectrumRecord α} (h : s.FittedBut waiting) (hb : s'.Balanced)
    (hs : s.spectra.slot? id = some slot)
    (hspectra : s'.spectra = s.spectra.setSlot id (some { slot with value := r }))
    (hfit : r.fit = slot.value.fit) : s'.FittedBut waiting := by
  refine h.keeps hb fun other slot' hs' => ?_
  rcases slot?_setSpectrum hs hspectra hs' with ⟨rfl, hvalue⟩ | ⟨-, hs'⟩
  · exact ⟨slot, hs, by rw [hvalue, hfit]⟩
  · exact ⟨slot', hs', rfl⟩

theorem withSpectrum (h : s.FittedBut waiting) (hs : s.spectra.slot? id = some slot) (next : Spectrum α) :
    (s.withSpectrum id slot next).FittedBut waiting :=
  h.setRecord ((sameHoldings_withSpectrum hs next).held h.balanced) hs rfl rfl

end

theorem refreshFit (h : s.FittedBut waiting) (y : Yields (refreshFit id) s (.ok ()) s') :
    s'.FittedBut fun other => waiting other ∧ other ≠ id := by
  have hb' : s'.Balanced := balanced_refreshFit id _ _ _ y h.balanced
  rcases y.of_refreshFit h.balanced with ⟨_, _, hfault, -⟩ | ⟨slot, fit, s₁, hr, y₁⟩
  · cases hfault
  refine ⟨hb', fun other slot' hs' => ?_⟩
  rw [(OnlyMoves.syncMatrices id _ _ _ y₁).spectra] at hs'
  rcases slot?_setSpectrum hr.found hr.spectra hs' with ⟨rfl, hvalue⟩ | ⟨hne, hs'⟩
  · rw [hvalue]
    exact .inl hr.ne_nil
  · exact (h.fitted other slot' hs').imp_right fun hw => ⟨hw, hne⟩

end FittedBut

namespace Fitted

theorem addSpectrum {spectrum : Spectrum α} {newId : SpectrumId} (h : s.Fitted)
    (y : Yields (addSpectrum spectrum) s (.ok newId) s') : s'.Fitted := by
  rcases y.of_addSpectrum with ⟨_, hfault, -⟩ | ⟨configured, newId, spectra, -, hinsert, y₁⟩
  · cases hfault
  obtain ⟨⟨⟩, s₁, y₂, y₃⟩ := y₁.of_bind_ok
  obtain ⟨hid, rfl⟩ := yields_pure.1 y₃
  cases hid
  obtain ⟨rfl, rfl⟩ := Prod.mk.inj hinsert
  have hinserted : FittedBut (· = (s.spectra.insert ⟨configured, [], []⟩ true).1)
      { s with spectra := (s.spectra.insert ⟨configured, [], []⟩ true).2 } := by
    refine ⟨Held.insertSpectrum h.balanced ⟨configured, [], []⟩ rfl true, fun id slot hs => ?_⟩
    rcases Arena.slot?_insert_cases hs with ⟨rfl, -⟩ | ⟨-, hs⟩
    · exact .inr rfl
    · exact .inl ((h.fitted id slot hs).resolve_right not_false)
  exact (hinserted.refreshFit y₂).mono fun _ hw => hw.2 hw.1

theorem deleteSpectrum {spectrum : Spectrum α} (h : s.Fitted)
    (y : Yields (deleteSpectrum id) s (.ok spectrum) s') : s'.Fitted := by
  obtain ⟨hb, -, -, ⟨_, hfault⟩ | ⟨hspectra, -⟩⟩ := y.of_deleteSpectrum h.balanced
  · cases hfault
  exact h.keeps hb fun _ slot hs => ⟨slot, Arena.slot?_of_setSlot_none (hspectra ▸ hs), rfl⟩

theorem assign {pair : ResponsePair} (h : s.Fitted) (y : Yields (assign id pair) s (.ok ()) s') : s'.Fitted := by
  obtain ⟨slot, mslot, s₁, s₂, -, -, hr, y₁, y₂⟩ := y.of_pairAssigned h.balanced
  have h₁ : s₁.Fitted := h.setRecord hr.balanced hr.found hr.spectra rfl
  have hb₂ : s₂.Balanced := (Keeps.restoreShared _).balanced _ _ _ y₁ hr.balanced
  exact ((h₁.sameSpectra hb₂ (OnlyMoves.restoreShared _ _ _ _ y₁).spectra).refreshFit y₂).mono fun _ => And.left

theorem unassign (h : s.Fitted) (y : Yields (unassign id) s (.ok ()) s') : s'.Fitted := by
  rcases y.of_unassign h.balanced with ⟨_, hfault, -⟩ | ⟨slot, s₁, hr, y₁⟩
  · cases hfault
  have h₁ : s₁.Fitted := h.setRecord hr.balanced hr.found hr.spectra rfl
  exact (h₁.refreshFit y₁).mono fun _ => And.left

theorem regroup {g : Regrouping α} (h : s.Fitted) (y : Yields (g.perform id) s (.ok ()) s') : s'.Fitted := by
  rw [g.perform_eq] at y
  obtain ⟨⟨⟩, s₁, y₁, y₂⟩ := y.of_bind_ok
  rcases y₁.of_updateSpectrum with ⟨_, hfault, -⟩ | ⟨slot, next, hs, -, -, rfl⟩
  · cases hfault
  have hchanged := FittedBut.withSpectrum h hs next
  have hb' : s'.Balanced := (Keeps.syncMatrices id).balanced _ _ _ y₂ hchanged.balanced
  exact hchanged.sameSpectra hb' (OnlyMoves.syncMatrices id _ _ _ y₂).spectra

theorem setConfig {config : Config α} (h : s.Fitted) (y : Yields (setConfig config) s (.ok ()) s') : s'.Fitted := by
  rcases y.of_lift_bind with ⟨_, -, hfault, -⟩ | ⟨strategy, -, y₁⟩
  · cases hfault
  have h₁ : Fitted { s with strategy, config, cache := .empty } :=
    ⟨⟨h.balanced.areas, h.balanced.matrices⟩, h.fitted⟩
  refine Yields.forM_ok (fun id _ t t' ht z => ?_) h₁ y₁.of_modify_bind.of_get_bind
  obtain ⟨⟨⟩, t₁, z₁, z₂⟩ := z.of_bind_ok
  rcases z₁.of_updateSpectrum with ⟨_, hfault, -⟩ | ⟨slot, next, hs, -, -, rfl⟩
  · cases hfault
  exact ((FittedBut.withSpectrum ht hs next).refreshFit z₂).mono fun _ => And.left

end Fitted

/-- Each operation that succeeds leaves all spectra with fit pairs. -/
theorem fitted_perform {operation : Operation α} {answer : Answer α} (h : s.Fitted)
    (y : Yields operation.perform s (.ok answer) s') : s'.Fitted := by
  have hb : s'.Balanced := balanced_perform operation _ _ _ y h.balanced
  cases y.effect with
  | freed hfrees => exact h.sameSpectra hb hfrees.spectra
  | edited hs hnext hs' => exact hs' ▸ FittedBut.withSpectrum h hs _
  | regrouped g z => exact h.regroup z
  | spectrumLoaded hread z => exact h.addSpectrum z
  | spectrumAdded z => exact h.addSpectrum z
  | spectrumDeleted z => exact h.deleteSpectrum z
  | matrixLoaded hread z => exact h.sameSpectra hb (z.of_matrixTaken h.balanced).2.2.1
  | matrixTaken z => exact h.sameSpectra hb (z.of_matrixTaken h.balanced).2.2.1
  | matrixMoved =>
    obtain ⟨changed, z, -⟩ := y.of_bind_pure
    exact h.sameSpectra hb (OnlyMoves.rebinMatrix _ _ _ _ _ _ z).spectra
  | pairAssigned z => exact h.assign z
  | pairsUnassigned z => exact h.unassign z
  | configured z => exact h.setConfig z

/-- All spectra have fit pairs after any operations that have succeeded. -/
theorem fitted_replay {config : Config α} (h : ofConfig config = .ok s) {operations : List (Operation α)}
    (hok : ∀ e ∈ (s.replay operations).1, e.Succeeded) : (s.replay operations).2.Fitted := by
  have hstart : s.Fitted := by
    refine ⟨balanced_start h, fun id slot hs => ?_⟩
    rw [(eq_of_ofConfig h).2.2.2.1, Arena.slot?_empty] at hs
    cases hs
  exact replay_preserves (fun _ _ _ _ (_ : True) hs y => fitted_perform hs y) hstart (fun _ _ => trivial) hok

end

end SpectralResponse.Session
