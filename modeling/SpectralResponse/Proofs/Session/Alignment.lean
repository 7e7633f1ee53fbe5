import SpectralResponse.Proofs.ResponseMatrix.Moving
import SpectralResponse.Proofs.Session.PlacingOperations
import SpectralResponse.Proofs.Spectrum.Sound

/-!
# Alignment

Over exact scalars, while nothing fails, each matrix that a spectrum names stands either on its own
channels or on those of the grouping of that spectrum, and in the second case no other spectrum names it.
No configuration is taken over on the way. Under one that does not let matrices follow, none was ever moved.

## What is proved

* `Placing.aligned` — what sound spectra and sound matrices owe to be placed.
* `aligned_perform` — each operation that succeeds keeps a session aligned, unless it takes over a
  configuration or moves a matrix by hand.
* `aligned_start`, `aligned_replay` — a session is aligned at the start and after any number of operations.
-/

namespace SpectralResponse.Session

variable {K : Type} [Field K] [LinearOrder K] [FloorRing K] [Roots K] {s s' : Session K} {id : SpectrumId}
  {slot : Slot (SpectrumRecord K)} {matrixId : MatrixId} {mslot : Slot (ResponseMatrix K)}

/-! ### Aligned sessions -/

/-- The channels of an ideal matrix are those of the spectrum it is made for. -/
theorem sound_of_ideal {channels : Grid K} (hw : channels.Wide) {m : ResponseMatrix K} (h : Ideal channels m) :
    m.Sound ∧ m.pristine = none := by
  obtain ⟨energies, ideal, hideal, rfl⟩ := h
  have hchannels : ideal.channels = channels := (Redistribution.of_ofRawRows hideal).2.1
  refine ⟨ResponseMatrix.sound_of_built rfl (Redistribution.clean_of_ofRawRows hideal) ?_, rfl⟩
  rw [ResponseMatrix.ofRedistribution, hchannels]
  exact hw

/-- Regrouping a sound spectrum makes a sound one. -/
theorem Regrouping.sound_of_change {g : Regrouping K} {spectrum next : Spectrum K} (hs : spectrum.Sound)
    (h : g.change spectrum = .ok next) : next.Sound := by
  cases g with
  | mask flags => exact hs.rebinByMask h
  | leastCount threshold => exact hs.groupToCount h
  | unbin => exact hs.unbin h

variable [IsStrictOrderedRing K]

/-- A sound matrix is at home if it was never moved, and follows a grouping if it was moved by it. No weight is
left out when channels are moved. -/
def Placing.aligned : Placing K where
  Good := Spectrum.Sound
  Sound := ResponseMatrix.Sound
  AtHome m := m.pristine = none
  Follows grouping m := m.MovedBy grouping
  Left _ _ := False
  Allows config := config.matrixRebinThreshold = 0
  fineLength _ h := h.fineLength
  configured _ _ _ h hnext := Spectrum.sound_of_configure hnext h.wide h.proper
  edited _ _ h hnext := h.edited hnext
  regrouped _ _ _ h hnext := Regrouping.sound_of_change h hnext
  atHome _ h := h
  ideal _ _ h hideal := sound_of_ideal h.wide hideal
  followed config _ _ _ _ _ hthreshold h hm hgrid hmove := by
    rw [hthreshold] at hmove
    exact hm.follow h.proper hgrid hmove
  restored _ _ _ _ hm hmove := hm.restore hmove

/-- The matrices that spectra name follow their groupings. -/
def Aligned (s : Session K) : Prop := s.Placed .aligned

/-- A matrix that a spectrum names stands on its own channels, or it was moved by the grouping of the spectrum
and is its alone. -/
theorem Aligned.follows (h : s.Aligned) (hn : s.Names id slot matrixId mslot) : mslot.value.pristine = none ∨
    mslot.value.MovedBy slot.value.spectrum.grouping ∧ s.OnlyNamedBy matrixId id := by
  refine or_iff_not_imp_left.2 fun hmoved => ?_
  obtain ⟨honly, hfollows⟩ := (h.stands id slot matrixId mslot hn).resolve_left hmoved
  refine ⟨(hfollows ?_).resolve_left False.elim, honly.resolve_left False.elim⟩
  cases hflag : s.config.rebinMatrixWithData with
  | true => rfl
  | false => exact absurd ((h.rests hflag matrixId mslot hn.matrix).resolve_right False.elim) hmoved

/-! ### All operations -/

/-- What an operation must satisfy for grouped and ungrouped predictions to agree: it does not take over a
configuration or move a matrix by hand, matrices are taken in as they were built, and all grids that are
taken in are wide. -/
def Operation.Admissible : Operation K → Prop
  | .setConfig _ | .rebinMatrix _ _ _ => False
  | .takeMatrix m => m.pristine = none ∧ m.current.Clean ∧ m.current.channels.Wide
  | .loadMatrix file => ∀ m, (Redistribution.read file).Answers (.ok m) → m.channels.Wide
  | .addSpectrum spectrum => spectrum.grouping.Proper ∧ spectrum.observed.grid.Wide
  | .loadSpectrum file => ∀ spectrum, (Spectrum.read file).Answers (.ok spectrum) → spectrum.observed.grid.Wide
  | _ => True

/-- What is taken in is sound. -/
theorem Operation.Admissible.takes {operation : Operation K} (h : operation.Admissible) :
    Placing.aligned.Takes s operation := by
  cases operation with
  | setConfig config => exact h.elim
  | rebinMatrix id target threshold => exact h.elim
  | takeMatrix m =>
    obtain ⟨hnone, hclean, hwide⟩ := h
    exact ⟨ResponseMatrix.sound_of_built hnone hclean hwide, hnone⟩
  | loadMatrix file =>
    exact fun p hread => ⟨ResponseMatrix.sound_of_built rfl (Redistribution.clean_of_read hread) (h p hread), rfl⟩
  | addSpectrum spectrum => exact fun _ _ hconfigure => Spectrum.sound_of_configure hconfigure h.2 h.1
  | loadSpectrum file =>
    intro spectrum hread _ _ hconfigure
    exact Spectrum.sound_of_configure hconfigure (h spectrum hread) (Spectrum.proper_of_read hread)
  | _ => trivial

/-- A session without products is aligned. -/
theorem aligned_start {config : Config K} (h : ofConfig config = .ok s)
    (hthreshold : config.matrixRebinThreshold = 0) : s.Aligned :=
  placed_start h hthreshold

/-- Each admissible operation that succeeds keeps a session aligned. -/
theorem aligned_perform {operation : Operation K} {answer : Answer K} (hadmissible : operation.Admissible)
    (h : s.Aligned) (y : Yields operation.perform s (.ok answer) s') : s'.Aligned :=
  placed_perform hadmissible.takes h y

/-- After admissible operations that have all succeeded the session is aligned. -/
theorem aligned_replay {operations : List (Operation K)} (h : s.Aligned)
    (hadmissible : ∀ operation ∈ operations, operation.Admissible)
    (hok : ∀ e ∈ (s.replay operations).1, e.Succeeded) : (s.replay operations).2.Aligned :=
  replay_preserves (fun _ _ _ _ hadmissible h y => aligned_perform hadmissible h y) h hadmissible hok

end SpectralResponse.Session
