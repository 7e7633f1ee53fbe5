import SpectralResponse.Proofs.Scalar.Rational
import SpectralResponse.Proofs.Session.Axes

/-!
# Channel axes over whole runs

Where the matrices stand after any operations that have succeeded depends on the configuration. While it lets
matrices follow, they stand on their own channels or on those of the groupings. Once it does not, later
regroupings leave them where they are, and a matrix may stand on the channels of a grouping that its spectrum
has no more.

## What is proved

* `onAxes_start`, `onAxes_replay` — the matrices are in place at the start and after operations that succeed.
* `matrices_stand_where_last_followed` — where the matrix of a pair stands after such operations.
* `stale_channels_predict_wrongly` — a matrix that has been left behind, and the counts it predicts.
-/

namespace SpectralResponse.Session

section

variable {α : Type} [Scalar α] {s s' : Session α} {last : Option (Session α)} {id : SpectrumId}
  {slot : Slot (SpectrumRecord α)}

/-- The session itself, if its configuration lets matrices follow, or else the one given. -/
def orLast (s : Session α) (last : Option (Session α)) : Option (Session α) :=
  if s.config.rebinMatrixWithData then some s else last

/-- The last of the sessions, from the first one on, whose configuration lets matrices follow, while operations
are carried out; the one given, if there is none. -/
def lastFollowing (last : Option (Session α)) (s : Session α) : List (Operation α) → Option (Session α)
  | [] => s.orLast last
  | operation :: operations => lastFollowing (s.orLast last) (run operation.perform s).1.2 operations

/-- A session without products has no matrix out of place. -/
theorem onAxes_start {config : Config α} (h : ofConfig config = .ok s) : s.OnAxes last := placed_start h trivial

/-- A session whose configuration lets matrices follow is itself the last such session. -/
theorem OnAxes.orLast (h : s.OnAxes last) : s.OnAxes (s.orLast last) := by
  refine ⟨h.balanced, h.config, h.spectra, h.matrices, h.fits, h.stands, fun hflag => ?_⟩
  rw [Session.orLast, hflag]
  exact h.rests hflag

/-- The matrices are in place after any operations that have succeeded. -/
theorem onAxes_replay {operations : List (Operation α)} (h : s.OnAxes last)
    (hleaves : ∀ operation ∈ operations, operation.LeavesAxes)
    (hok : ∀ e ∈ (s.replay operations).1, e.Succeeded) :
    (s.replay operations).2.OnAxes (s.lastFollowing last operations) := by
  induction operations generalizing s last with
  | nil => exact h.orLast
  | cons operation operations ih =>
    obtain ⟨answer, hanswer⟩ := hok _ List.mem_cons_self
    have hstep : Yields operation.perform s (.ok answer) (run operation.perform s).1.2 :=
      .of_run (Prod.ext hanswer rfl)
    have hlast : s.config.rebinMatrixWithData = true → s.orLast last = some s := fun hflag => if_pos hflag
    exact ih (onAxes_perform (hleaves _ List.mem_cons_self) h.orLast hlast hstep)
      (fun o ho => hleaves o (List.mem_cons_of_mem _ ho)) fun e he => hok e (List.mem_cons_of_mem _ he)

/-- After any operations that have all succeeded and have not moved a matrix by hand, changes of the
configuration included: a matrix that a spectrum names stands on its own channels, or it is named by that
spectrum only and stands on the channels of its grouping, if the configuration lets matrices follow; if it does
not, the matrix is the one that was there in the last session that let matrices follow. -/
theorem matrices_stand_where_last_followed {config : Config α} (h : ofConfig config = .ok s)
    {operations : List (Operation α)} (hleaves : ∀ operation ∈ operations, operation.LeavesAxes)
    (hok : ∀ e ∈ (s.replay operations).1, e.Succeeded) (hs' : (s.replay operations).2 = s')
    (hs : s'.spectra.slot? id = some slot) {pair : ResponsePair} (hpair : pair ∈ slot.value.pairs) :
    ∃ mslot, s'.matrices.slot? pair.matrix = some mslot ∧ (mslot.value.StandsAtHome ∨
      s'.OnlyNamedBy pair.matrix id ∧
        (s'.config.rebinMatrixWithData = true → mslot.value.StandsIn slot.value.spectrum.grouping) ∧
        (s'.config.rebinMatrixWithData = false →
          LeftIn (s.lastFollowing none operations) pair.matrix mslot.value)) := by
  subst hs'
  have haxes : (s.replay operations).2.OnAxes (s.lastFollowing none operations) :=
    onAxes_replay (onAxes_start h) hleaves hok
  have hm : pair.matrix ∈ slot.value.matrices := List.mem_map_of_mem hpair
  obtain ⟨mslot, hmslot⟩ := haxes.balanced.exists_matrix hs hm
  refine ⟨mslot, hmslot, ?_⟩
  rcases haxes.stands id slot pair.matrix mslot ⟨hs, hm, hmslot⟩ with hhome | ⟨honly, hfollows⟩
  · exact .inl hhome
  by_cases hhome : mslot.value.StandsAtHome
  · exact .inl hhome
  refine .inr ⟨honly.resolve_left False.elim, fun hflag => (hfollows hflag).resolve_left False.elim,
    fun hflag => ?_⟩
  exact (haxes.rests hflag pair.matrix mslot hmslot).resolve_left hhome

end

/-! ### A matrix that is left behind -/

namespace Stale

/-- A spectrum with three bins. -/
def spectrum : Spectrum ℚ := Sample.spectrum (Sample.grid 3) [4, 5, 6] [2, 2, 2]

/-- The matrix is assigned to the spectrum and follows when the first two bins are grouped. -/
def followed : List (Operation ℚ) :=
  [.addSpectrum spectrum, .takeMatrix (Sample.matrix (Sample.grid 3)), .addArea (.identity (Sample.grid 3)),
    .assign ⟨0⟩ ⟨⟨1⟩, ⟨1⟩⟩, .rebinSpectrum ⟨0⟩ [1, 1, -1]]

/-- The last two bins are grouped instead. -/
def regroup : Operation ℚ := .rebinSpectrum ⟨0⟩ [1, -1, -1]

/-- Before that, a configuration is taken over that does not let matrices follow. -/
def operations : List (Operation ℚ) :=
  followed ++ [.setConfig { Config.default with rebinMatrixWithData := false }, regroup]

/-- The session after some operations. -/
def session (operations : List (Operation ℚ)) : Session ℚ := (Sample.start.replay operations).2

/-- The slot of the spectrum in the end. -/
def recordSlot : Slot (SpectrumRecord ℚ) :=
  ((session operations).spectra.slot? ⟨0⟩).getD ⟨⟨spectrum, [], []⟩, 0, true⟩

/-- The slot of the matrix in the end. -/
def matrixSlot : Slot (ResponseMatrix ℚ) :=
  ((session operations).matrices.slot? ⟨1⟩).getD ⟨Sample.matrix (Sample.grid 3), 0, true⟩

/-- The counts predicted for a density of one. -/
def predicted (operations : List (Operation ℚ)) : Option (List (List ℚ)) :=
  (run (predictedCounts [⟨0⟩] (Model.flat 1)) (session operations)).1.1.toOption.map Prediction.counts

theorem slot?_spectrum : (session operations).spectra.slot? ⟨0⟩ = some recordSlot := by
  have hsome : ((session operations).spectra.slot? ⟨0⟩).isSome = true := by decide +kernel
  obtain ⟨found, hfound⟩ := Option.isSome_iff_exists.1 hsome
  rw [recordSlot, hfound, Option.getD_some]

theorem slot?_matrix : (session operations).matrices.slot? ⟨1⟩ = some matrixSlot := by
  have hsome : ((session operations).matrices.slot? ⟨1⟩).isSome = true := by decide +kernel
  obtain ⟨found, hfound⟩ := Option.isSome_iff_exists.1 hsome
  rw [matrixSlot, hfound, Option.getD_some]

theorem leavesAxes_operations : ∀ operation ∈ operations, operation.LeavesAxes := by
  have hspectrum : (Operation.addSpectrum spectrum).LeavesAxes :=
    Spectrum.tidy_of_ungrouped rfl rfl (by decide +kernel)
  intro operation hoperation
  simp only [operations, followed, regroup, List.cons_append, List.nil_append, List.mem_cons, List.not_mem_nil,
    or_false] at hoperation
  rcases hoperation with rfl | rfl | rfl | rfl | rfl | rfl | rfl
  · exact hspectrum
  · rfl
  · trivial
  · trivial
  · trivial
  · trivial
  · trivial

theorem succeeded_operations : ∀ e ∈ (Sample.start.replay operations).1, e.Succeeded := by decide +kernel

theorem not_standsAtHome : ¬ matrixSlot.value.StandsAtHome := by decide +kernel

end Stale

/-- When the last two bins are grouped, the matrix stays on the channels of the first two, where it was left
when the configuration was changed. -/
theorem matrix_is_left_on_merged_channels :
    Stale.matrixSlot.value.current.channels = ⟨[⟨1, 3⟩, ⟨3, 4⟩]⟩ ∧
      LeftIn (Sample.start.lastFollowing none Stale.operations) ⟨1⟩ Stale.matrixSlot.value := by
  have hpair : ⟨⟨1⟩, ⟨1⟩⟩ ∈ Stale.recordSlot.value.pairs := by decide +kernel
  obtain ⟨mslot, hm, hplace⟩ := matrices_stand_where_last_followed Sample.ofConfig_start
    Stale.leavesAxes_operations Stale.succeeded_operations rfl Stale.slot?_spectrum hpair
  cases Stale.slot?_matrix.symm.trans hm
  exact ⟨by decide +kernel, (hplace.resolve_left Stale.not_standsAtHome).2.2 (by decide +kernel)⟩

/-- After operations that have all succeeded, the matrix of the fit pair stands neither on its own channels nor
on those of the grouping that the spectrum has. Of three counts it puts two into the first working bin, which
should get one, as it does if the configuration is not changed. -/
theorem stale_channels_predict_wrongly :
    Run (Sample.start.replay Stale.operations).1 (Stale.session Stale.operations) ∧
      (∀ e ∈ (Sample.start.replay Stale.operations).1, e.Succeeded ∧ e.operation.LeavesAxes) ∧
      (Stale.session Stale.operations).spectra.slot? ⟨0⟩ = some Stale.recordSlot ∧
      Stale.recordSlot.value.fit = [⟨⟨1⟩, ⟨1⟩⟩] ∧
      (Stale.session Stale.operations).matrices.slot? ⟨1⟩ = some Stale.matrixSlot ∧
      ¬ Stale.matrixSlot.value.StandsAtHome ∧
      ¬ Stale.matrixSlot.value.StandsIn Stale.recordSlot.value.spectrum.grouping ∧
      Stale.predicted Stale.operations = some [[2, 1]] ∧
      Stale.predicted (Stale.followed ++ [Stale.regroup]) = some [[1, 2]] := by
  have hrun : Run (Sample.start.replay Stale.operations).1 (Stale.session Stale.operations) :=
    (Run.start Sample.ofConfig_start).replay Stale.operations
  refine ⟨hrun, fun e he => ⟨Stale.succeeded_operations e he, ?_⟩, Stale.slot?_spectrum, by decide +kernel,
    Stale.slot?_matrix, Stale.not_standsAtHome, ?_, by decide +kernel, by decide +kernel⟩
  · exact Stale.leavesAxes_operations _ (mem_of_mem_replay he)
  · rintro ⟨axis, hgrid, hstands⟩
    have haxis : (Stale.recordSlot.value.spectrum.grouping.grid Stale.matrixSlot.value.native.channels).toOption =
        some ⟨[⟨1, 2⟩, ⟨2, 4⟩]⟩ := by decide +kernel
    cases Except.ok.inj (hgrid.symm.trans (Except.toOption_eq_some.1 haxis))
    have hnot : ¬ Stale.matrixSlot.value.StandsOn ⟨[⟨1, 2⟩, ⟨2, 4⟩]⟩ := by decide +kernel
    exact hnot hstands

end SpectralResponse.Session
