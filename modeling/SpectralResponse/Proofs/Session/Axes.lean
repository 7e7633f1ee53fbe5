import SpectralResponse.Proofs.Session.PlacingOperations

/-!
# Channel axes

Which channels a matrix stands on, while nothing fails and nobody moves it by hand. As long as the
configuration lets matrices follow, a matrix that a spectrum names stands on its own channels or on those of
the grouping of that spectrum. Once the configuration does not let them follow any more, a matrix may be taken
back to its own channels, but it is never moved to others: it stays where the last session left it that let it
follow. All this is meant up to the tolerance for edges, within which a matrix counts as standing there already.

## What is proved

* `of_rebinChannels` — after a move a matrix stands where it was asked to, or on its own channels.
* `Placing.axes` — what tidy spectra owe for their matrices to be placed on channels.
* `onAxes_perform` — each operation that succeeds leaves the matrices in place, unless it moves one by hand.
-/

namespace SpectralResponse

variable {α : Type} [Scalar α]

/-! ### Where a matrix stands -/

namespace ResponseMatrix

variable {m moved : ResponseMatrix α} {target : Grid α} {threshold : α} {changed : Bool}

/-- The channels of the matrix are those of a grid, up to the tolerance for edges. -/
def StandsOn (m : ResponseMatrix α) (axis : Grid α) : Prop :=
  m.current.channels = axis ∨ m.current.channels.agrees axis Grid.edgeTolerance = true

instance [DecidableEq α] (m : ResponseMatrix α) (axis : Grid α) : Decidable (m.StandsOn axis) :=
  inferInstanceAs (Decidable (_ ∨ _))

/-- The matrix stands on its own channels. -/
def StandsAtHome (m : ResponseMatrix α) : Prop := m.StandsOn m.native.channels

instance [DecidableEq α] (m : ResponseMatrix α) : Decidable m.StandsAtHome :=
  inferInstanceAs (Decidable (m.StandsOn _))

/-- The matrix stands on the grid that a grouping makes of its own channels. -/
def StandsIn (g : Grouping) (m : ResponseMatrix α) : Prop :=
  ∃ axis, g.grid m.native.channels = .ok axis ∧ m.StandsOn axis

theorem standsAtHome_of_pristine (h : m.pristine = none) : m.StandsAtHome := by
  refine .inl ?_
  rw [native, h, Option.getD_none]

/-- After a move the matrix stands where it was asked to, or on its own channels. -/
theorem of_rebinChannels (h : m.rebinChannels target threshold = .ok (changed, moved)) :
    moved.StandsAtHome ∨ moved.StandsOn target := by
  rw [rebinChannels_eq] at h
  split at h
  · rename_i hthere
    cases Except.ok.inj h
    exact .inr (.inr hthere)
  split at h
  · cases Except.ok.inj h
    exact .inl (standsAtHome_of_pristine rfl)
  · obtain ⟨current, hmoved, h⟩ := Except.bind_eq_ok.1 h
    cases Except.ok.inj h
    exact .inr (.inl (movedFrom_of_onChannels (c := ⟨target, threshold⟩) hmoved).2.1)

end ResponseMatrix

/-! ### Matrices on channels -/

namespace Session

variable {s s' : Session α} {last : Option (Session α)}

theorem standsAtHome_of_ideal {channels : Grid α} {m : ResponseMatrix α} (h : Ideal channels m) :
    m.StandsAtHome := by
  obtain ⟨energies, ideal, -, rfl⟩ := h
  exact ResponseMatrix.standsAtHome_of_pristine rfl

/-- Regrouping a tidy spectrum makes a tidy one. -/
theorem Regrouping.tidy_of_change {g : Regrouping α} {spectrum next : Spectrum α} (hs : spectrum.Tidy)
    (h : g.change spectrum = .ok next) : next.Tidy := by
  cases g with
  | mask flags => exact hs.rebinByMask h
  | leastCount threshold => exact hs.groupToCount h
  | unbin => exact hs.unbin h

/-- The matrix is the one that stood in its slot in a session, if there is one. -/
def LeftIn (last : Option (Session α)) (matrixId : MatrixId) (m : ResponseMatrix α) : Prop :=
  ∃ t ∈ last, ∃ mslot, t.matrices.slot? matrixId = some mslot ∧ mslot.value = m

/-- Matrices stand on channels, or were left where they stood in a session. -/
def Placing.axes (last : Option (Session α)) : Placing α where
  Good := Spectrum.Tidy
  Sound _ := True
  AtHome := ResponseMatrix.StandsAtHome
  Follows := ResponseMatrix.StandsIn
  Left := LeftIn last
  Allows _ := True
  fineLength _ h := h.fineLength
  configured _ _ _ h hnext := h.configure hnext
  edited _ _ h hnext := h.edited hnext
  regrouped _ _ _ h hnext := Regrouping.tidy_of_change h hnext
  atHome _ h := ResponseMatrix.standsAtHome_of_pristine h
  ideal _ _ _ h := ⟨trivial, standsAtHome_of_ideal h⟩
  followed _ _ _ target _ _ _ _ _ hgrid hmove := by
    refine ⟨trivial, (ResponseMatrix.of_rebinChannels hmove).imp_right fun hstands => ⟨target, ?_, hstands⟩⟩
    rw [ResponseMatrix.native_of_rebinChannels hmove]
    exact hgrid
  restored _ _ _ _ _ hmove := by
    refine ⟨trivial, (ResponseMatrix.of_rebinChannels hmove).elim id fun hstands => ?_⟩
    rwa [ResponseMatrix.StandsAtHome, ResponseMatrix.native_of_rebinChannels hmove]

/-- The matrices that spectra name stand in place. -/
def OnAxes (last : Option (Session α)) (s : Session α) : Prop := s.Placed (.axes last)

/-! ### All operations -/

/-- The operation does not move a matrix by hand; a matrix is taken in as it was built, and a spectrum as it is
when it has been made and changed. -/
def Operation.LeavesAxes : Operation α → Prop
  | .rebinMatrix _ _ _ => False
  | .takeMatrix m => m.pristine = none
  | .addSpectrum spectrum => spectrum.Tidy
  | _ => True

/-- What is taken in is tidy or stands at home, and matrices are left where they stand now. -/
theorem Operation.LeavesAxes.takes {operation : Operation α} (h : operation.LeavesAxes)
    (hlast : s.config.rebinMatrixWithData = true → last = some s) : (Placing.axes last).Takes s operation := by
  cases operation with
  | setConfig config => exact ⟨trivial, fun hflag m mslot hm => .inr ⟨s, hlast hflag, mslot, hm, rfl⟩⟩
  | rebinMatrix id target threshold => exact h.elim
  | takeMatrix m => exact ⟨trivial, ResponseMatrix.standsAtHome_of_pristine h⟩
  | loadMatrix file => exact fun _ _ => ⟨trivial, ResponseMatrix.standsAtHome_of_pristine rfl⟩
  | addSpectrum spectrum => exact fun _ _ hconfigure => Spectrum.Tidy.configure h hconfigure
  | loadSpectrum file => exact fun _ hread _ _ hconfigure => (Spectrum.tidy_of_read hread).configure hconfigure
  | _ => trivial

/-- Each operation that succeeds leaves the matrices in place. -/
theorem onAxes_perform {operation : Operation α} {answer : Answer α} (hleaves : operation.LeavesAxes)
    (h : s.OnAxes last) (hlast : s.config.rebinMatrixWithData = true → last = some s)
    (y : Yields operation.perform s (.ok answer) s') : s'.OnAxes last :=
  placed_perform (hleaves.takes hlast) h y

end Session

end SpectralResponse
