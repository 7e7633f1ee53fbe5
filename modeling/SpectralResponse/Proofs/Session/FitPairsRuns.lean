import SpectralResponse.Proofs.Session.FitPairsOperations
import SpectralResponse.Proofs.Session.KeptGrid

/-!
# Fit pairs over whole runs

Fit pairs are derived when a spectrum is taken in, when its assigned pairs change, and when a configuration is taken
over; what an operation does to effective areas does not derive them. After any operations that have succeeded, they
are therefore those of the last time they were derived, and whether they are in step depends on what has become of
the effective areas since.

## What is proved

* `fitEffect_perform` — which fit pairs an operation that succeeds has derived, and what has become of the others.
* `allInStep_replay` — while effective areas are not touched, the fit pairs of all spectra are in step.
* `tracked_replay` — a spectrum has the pairs of the last time they were derived.
* `fit_pairs_in_step_iff` — when the fit pairs of a spectrum are in step after operations that have succeeded.
* `stale_exposure_predicts_wrongly` — fit pairs that are not, and the counts they predict.
-/

namespace SpectralResponse.Session

open ResponseMatrix (OnlyMoved)

section

variable {α : Type} [Scalar α] {s s' t : Session α} {id : SpectrumId} {slot : Slot (SpectrumRecord α)}

/-! ### One operation -/

/-- A matrix that is taken in was built, and has only been moved. -/
def Operation.TakesMoved : Operation α → Prop
  | .takeMatrix m => m.OnlyMoved
  | _ => True

/-- The operation may derive fit pairs. -/
def Operation.derivesPairs : Operation α → Bool
  | .setConfig _ | .loadSpectrum _ | .addSpectrum _ | .assign _ _ | .unassign _ => true
  | _ => false

/-- The operation has derived the fit pairs of the spectrum: a configuration was taken over, the spectrum was taken
in, a pair was assigned to it, or its pairs were taken away. -/
def Event.derives (id : SpectrumId) (e : Event α) : Bool :=
  match e.operation with
  | .setConfig _ => true
  | .loadSpectrum _ | .addSpectrum _ =>
    match e.answer with
    | .ok (.spectrumId newId) => newId == id
    | _ => false
  | .assign other _ | .unassign other => other == id
  | _ => false

omit [Scalar α] in
theorem derives_eq_false {operation : Operation α} (h : operation.derivesPairs = false) (id : SpectrumId)
    (answer : Except (Fault α) (Answer α)) : Event.derives id ⟨operation, answer⟩ = false := by
  cases operation <;> first | rfl | cases h

theorem FitEffect.congr {touches : Bool} {derived derived' : SpectrumId → Prop}
    (h : FitEffect touches derived s s') (hiff : ∀ id, derived id ↔ derived' id) : FitEffect touches derived' s s' := by
  obtain rfl : derived = derived' := funext fun id => propext (hiff id)
  exact h

/-- Which fit pairs an operation that succeeds has derived, and what has become of the others. -/
theorem fitEffect_perform {operation : Operation α} {answer : Answer α} (htakes : operation.TakesMoved)
    (hb : s.Balanced) (hmoved : s.matrices.All OnlyMoved) (y : Yields operation.perform s (.ok answer) s') :
    FitEffect operation.touchesAreas (fun id => Event.derives id ⟨operation, .ok answer⟩ = true) s s' := by
  have hderived (newId : SpectrumId) : ∀ id, id = newId ↔ (newId == id) = true :=
    fun id => eq_comm.trans beq_iff_eq.symm
  by_cases hderives : operation.derivesPairs = true
  · cases operation with
    | setConfig config =>
      obtain ⟨⟨⟩, z, -⟩ := y.of_bind_pure
      exact (FitEffect.setConfig hb hmoved z).congr fun id => (iff_of_true trivial rfl)
    | loadSpectrum file =>
      obtain ⟨newId, z, rfl⟩ := y.of_bind_pure
      obtain ⟨spectrum, s₁, z₁, z₂⟩ := z.of_bind_ok
      obtain ⟨rfl, -⟩ := z₁.of_noted
      exact (FitEffect.addSpectrum hb hmoved z₂).congr (hderived newId)
    | addSpectrum spectrum =>
      obtain ⟨newId, z, rfl⟩ := y.of_bind_pure
      exact (FitEffect.addSpectrum hb hmoved z).congr (hderived newId)
    | assign id pair =>
      obtain ⟨⟨⟩, z, -⟩ := y.of_bind_pure
      exact (FitEffect.assign hb hmoved z).congr (hderived id)
    | unassign id =>
      obtain ⟨⟨⟩, z, -⟩ := y.of_bind_pure
      exact (FitEffect.unassign hb hmoved z).congr (hderived id)
    | _ => cases hderives
  -- nothing is derived
  have hnone := derives_eq_false (Bool.eq_false_iff.2 hderives)
  suffices h : FitEffect operation.touchesAreas (fun _ => False) s s' from h.congr fun id => by simp [hnone id]
  cases y.effect with
  | freed h hop =>
    exact .of_spectra h.config (.of_onlyFrees h) (fun htouches => curvesStay_perform operation hop htouches _ _ _ y)
      h.spectra
  | edited hs hnext hs' => exact hs' ▸ .withSpectrum hs hnext.keeps.1
  | regrouped g z => exact .regroup z
  | spectrumDeleted z => exact .deleteSpectrum hb z
  | matrixLoaded hread z => exact .takeMatrix (ResponseMatrix.onlyMoved_ofRedistribution _) z
  | matrixTaken z => exact .takeMatrix htakes z
  | matrixMoved =>
    obtain ⟨changed, z, -⟩ := y.of_bind_pure
    exact .rebinMatrix z
  | _ => exact absurd rfl hderives

/-! ### Many operations -/

/-- The matrices were built and have only been moved, and the fit pairs of all spectra are in step. -/
structure AllInStep (s : Session α) : Prop where
  /-- The users are counted. -/
  balanced : s.Balanced
  /-- The matrices. -/
  moved : s.matrices.All OnlyMoved
  /-- The spectra. -/
  inStep : ∀ id slot, s.spectra.slot? id = some slot → s.FitInStep slot.value

/-- An operation that does not touch effective areas leaves all fit pairs in step. -/
theorem AllInStep.perform {operation : Operation α} {answer : Answer α} (h : s.AllInStep)
    (htakes : operation.TakesMoved) (htouches : operation.touchesAreas = false)
    (y : Yields operation.perform s (.ok answer) s') : s'.AllInStep := by
  have heffect := fitEffect_perform htakes h.balanced h.moved y
  have hb' : s'.Balanced := balanced_perform operation _ _ _ y h.balanced
  refine ⟨hb', heffect.renews.onlyMoved h.moved, fun id slot' hs' => ?_⟩
  rcases heffect.spectra id slot' hs' with ⟨-, hstep⟩ | ⟨-, hconfig, slot, hs, hsame⟩
  · exact hstep
  have hthen : s.FitInStep slot'.value := (h.inStep id slot hs).congr hsame
  have hlive : ∀ pair ∈ slot'.value.pairs, s.HasPair pair := hsame.pairs_eq ▸ h.balanced.hasPairs hs
  exact hthen.stays h.moved hconfig heffect.renews (heffect.curves htouches) hlive (hb'.hasPairs hs')

/-- The session after the last of some operations that has derived the fit pairs of a spectrum; the one given, if
there is none. -/
def lastDerived (id : SpectrumId) (last s : Session α) : List (Operation α) → Session α
  | [] => last
  | operation :: operations =>
    let (answer, next) := (run operation.perform s).1
    lastDerived id (if Event.derives id ⟨operation, answer⟩ then next else last) next operations

/-- In an earlier session the fit pairs of a spectrum were in step. Since then it has kept its pairs, and its matrices
have been moved at most. -/
structure KeptSince (id : SpectrumId) (t s : Session α) (slot : Slot (SpectrumRecord α)) : Prop where
  /-- The users were counted. -/
  balanced : t.Balanced
  /-- The matrices were built and had only been moved. -/
  moved : t.matrices.All OnlyMoved
  /-- What has become of the matrices. -/
  renews : Renews t s
  /-- The configuration has stayed. -/
  config : s.config = t.config
  /-- The pairs were the same, and in step. -/
  inStep : ∃ before, t.spectra.slot? id = some before ∧ t.FitInStep before.value ∧ SamePairs before.value slot.value

/-- Since an earlier session, the fit pairs of a spectrum have not been derived. -/
structure Tracked (id : SpectrumId) (t s : Session α) : Prop where
  /-- The users are counted. -/
  balanced : s.Balanced
  /-- The matrices were built and have only been moved. -/
  moved : s.matrices.All OnlyMoved
  /-- The spectrum, if it is there. -/
  kept : ∀ slot, s.spectra.slot? id = some slot → KeptSince id t s slot

theorem Tracked.perform {operation : Operation α} {answer : Answer α} (h : Tracked id t s)
    (htakes : operation.TakesMoved) (y : Yields operation.perform s (.ok answer) s') :
    Tracked id (if Event.derives id ⟨operation, .ok answer⟩ then s' else t) s' := by
  have heffect := fitEffect_perform htakes h.balanced h.moved y
  have hb' : s'.Balanced := balanced_perform operation _ _ _ y h.balanced
  have hmoved' := heffect.renews.onlyMoved h.moved
  refine ⟨hb', hmoved', fun slot' hs' => ?_⟩
  rcases heffect.spectra id slot' hs' with ⟨hderived, hstep⟩ | ⟨hderived, hconfig, slot, hs, hsame⟩
  · rw [if_pos hderived]
    exact ⟨hb', hmoved', Std.Refl.refl _, rfl, slot', hs', hstep, .refl _⟩
  · rw [if_neg hderived]
    have hkept := h.kept slot hs
    obtain ⟨before, hbefore, hstep, hsince⟩ := hkept.inStep
    exact ⟨hkept.balanced, hkept.moved, IsTrans.trans _ _ _ hkept.renews heffect.renews, hconfig.trans hkept.config,
      before, hbefore, hstep, hsince.trans hsame⟩

/-- A spectrum has the pairs of the last time they were derived. -/
theorem tracked_replay {operations : List (Operation α)} (h : Tracked id t s)
    (htakes : ∀ operation ∈ operations, operation.TakesMoved)
    (hok : ∀ e ∈ (s.replay operations).1, e.Succeeded) :
    Tracked id (lastDerived id t s operations) (s.replay operations).2 := by
  induction operations generalizing s t with
  | nil => exact h
  | cons operation operations ih =>
    obtain ⟨answer, hanswer⟩ := hok _ List.mem_cons_self
    have hstep : Yields operation.perform s (.ok answer) (run operation.perform s).1.2 :=
      .of_run (Prod.ext hanswer rfl)
    have hnext := h.perform (htakes _ List.mem_cons_self) hstep
    have hrest := ih hnext (fun o ho => htakes o (List.mem_cons_of_mem _ ho))
      fun e he => hok e (List.mem_cons_of_mem _ he)
    rw [← hanswer] at hrest
    exact hrest

theorem onlyMoved_start {config : Config α} (h : ofConfig config = .ok s) : s.matrices.All OnlyMoved := by
  rw [(eq_of_ofConfig h).2.2.1]
  exact .empty

theorem slot?_start {config : Config α} (h : ofConfig config = .ok s) : s.spectra.slot? id = none := by
  rw [(eq_of_ofConfig h).2.2.2.1, Arena.slot?_empty]

/-- While effective areas are not touched, the fit pairs of all spectra are in step. -/
theorem allInStep_replay {config : Config α} (h : ofConfig config = .ok s) {operations : List (Operation α)}
    (hallowed : ∀ operation ∈ operations, operation.TakesMoved ∧ operation.touchesAreas = false)
    (hok : ∀ e ∈ (s.replay operations).1, e.Succeeded) : (s.replay operations).2.AllInStep := by
  refine replay_preserves (fun operation s answer s' hallowed hs y => hs.perform hallowed.1 hallowed.2 y) ?_
    hallowed hok
  exact ⟨balanced_start h, onlyMoved_start h, fun id slot hs => by cases (slot?_start h).symm.trans hs⟩

/-- After any operations that have all succeeded, a spectrum has the pairs of the last time its fit pairs were derived,
when they were what would be derived for its assigned pairs. They still are exactly if the effective areas that concern
them have stayed since then. As long as no operation has touched effective areas, they are. -/
theorem fit_pairs_in_step_iff {config : Config α} (h : ofConfig config = .ok s) {operations : List (Operation α)}
    (htakes : ∀ operation ∈ operations, operation.TakesMoved)
    (hok : ∀ e ∈ (s.replay operations).1, e.Succeeded) (ht : lastDerived id s s operations = t)
    (hs' : (s.replay operations).2 = s') (hs : s'.spectra.slot? id = some slot) :
    (∃ before, t.spectra.slot? id = some before ∧ SamePairs before.value slot.value ∧ t.FitInStep before.value) ∧
      (s'.FitInStep slot.value ↔ t.AreasStay s' slot.value) ∧
      ((∀ operation ∈ operations, operation.touchesAreas = false) → s'.FitInStep slot.value) := by
  subst ht hs'
  have htracked : Tracked id (lastDerived id s s operations) (s.replay operations).2 := by
    refine tracked_replay ⟨balanced_start h, onlyMoved_start h, fun slot hs => ?_⟩ htakes hok
    cases (slot?_start h).symm.trans hs
  have hkept := htracked.kept slot hs
  obtain ⟨before, hbefore, hstep, hsame⟩ := hkept.inStep
  refine ⟨⟨before, hbefore, hsame, hstep⟩, ?_, fun htouches => ?_⟩
  · have hlive : ∀ pair ∈ slot.value.pairs, (lastDerived id s s operations).HasPair pair :=
      hsame.pairs_eq ▸ hkept.balanced.hasPairs hbefore
    have hlive' := htracked.balanced.hasPairs hs
    exact fitInStep_iff (hstep.congr hsame) hkept.moved (hkept.renews.carried hkept.config hlive hlive')
  · have hall := allInStep_replay h (fun operation hmem => ⟨htakes operation hmem, htouches operation hmem⟩) hok
    exact hall.inStep id slot hs

end

/-! ### An exposure time that is left behind -/

namespace Exposed

/-- Fits use unit areas. -/
def config : Config ℚ := { Config.default with useIdealArea := true }

/-- The matrix and an effective area are assigned to the spectrum. -/
def assigned : List (Operation ℚ) :=
  [.addSpectrum TwoBins.spectrum, .takeMatrix (Sample.matrix TwoBins.grid), .addArea (.identity TwoBins.grid),
    .assign ⟨0⟩ ⟨⟨1⟩, ⟨1⟩⟩]

/-- After that the exposure time of the effective area is doubled. -/
def doubled : List (Operation ℚ) := assigned ++ [.setExposure ⟨1⟩ 2]

/-- The session after some operations. -/
def session (operations : List (Operation ℚ)) : Session ℚ := ((Sample.empty config).replay operations).2

/-- The slot of the spectrum after some operations. -/
def recordSlot (operations : List (Operation ℚ)) : Slot (SpectrumRecord ℚ) :=
  ((session operations).spectra.slot? ⟨0⟩).getD ⟨⟨TwoBins.spectrum, [], []⟩, 0, true⟩

/-- The counts predicted for a density of one. -/
def predicted (operations : List (Operation ℚ)) : Option (List (List ℚ)) :=
  (run (predictedCounts [⟨0⟩] (Model.flat 1)) (session operations)).1.1.toOption.map Prediction.counts

theorem slot?_spectrum {operations : List (Operation ℚ)}
    (h : ((session operations).spectra.slot? ⟨0⟩).isSome = true) :
    (session operations).spectra.slot? ⟨0⟩ = some (recordSlot operations) := by
  obtain ⟨found, hfound⟩ := Option.isSome_iff_exists.1 h
  rw [recordSlot, hfound, Option.getD_some]

theorem takesMoved_doubled : ∀ operation ∈ doubled, operation.TakesMoved := by
  intro operation hoperation
  simp only [doubled, assigned, List.cons_append, List.nil_append, List.mem_cons, List.not_mem_nil, or_false]
    at hoperation
  rcases hoperation with rfl | rfl | rfl | rfl | rfl
  · trivial
  · exact ResponseMatrix.onlyMoved_ofRedistribution _
  · trivial
  · trivial
  · trivial

end Exposed

/-- The fit pair of the assigned one has a unit area, and is in step. -/
theorem assigned_pair_is_in_step :
    (Exposed.recordSlot Exposed.assigned).value.assigned = [⟨⟨1⟩, ⟨1⟩⟩] ∧
      (Exposed.recordSlot Exposed.assigned).value.fit = [⟨⟨2⟩, ⟨1⟩⟩] ∧
      (Exposed.session Exposed.assigned).FitInStep (Exposed.recordSlot Exposed.assigned).value := by
  have hstart : ofConfig Exposed.config = .ok (Sample.empty Exposed.config) := rfl
  have hs : (Exposed.session Exposed.assigned).spectra.slot? ⟨0⟩ = some (Exposed.recordSlot Exposed.assigned) :=
    Exposed.slot?_spectrum (by decide +kernel)
  have hall := fit_pairs_in_step_iff hstart
    (fun operation h => Exposed.takesMoved_doubled operation (List.mem_append_left _ h)) (by decide +kernel) rfl rfl hs
  exact ⟨by decide +kernel, by decide +kernel, hall.2.2 (by decide +kernel)⟩

/-- After operations that have all succeeded, the unit area of the fit pair has half the exposure time of the assigned
effective area, so one count is predicted for each bin. Once the same configuration has been taken over again, there
are two. -/
theorem stale_exposure_predicts_wrongly :
    Run ((Sample.empty Exposed.config).replay Exposed.doubled).1 (Exposed.session Exposed.doubled) ∧
      (∀ e ∈ ((Sample.empty Exposed.config).replay Exposed.doubled).1, e.Succeeded ∧ e.operation.TakesMoved) ∧
      (Exposed.session Exposed.doubled).spectra.slot? ⟨0⟩ = some (Exposed.recordSlot Exposed.doubled) ∧
      ¬ (Exposed.session Exposed.doubled).FitInStep (Exposed.recordSlot Exposed.doubled).value ∧
      Exposed.predicted Exposed.doubled = some [[1, 1]] ∧
      Exposed.predicted (Exposed.doubled ++ [.setConfig Exposed.config]) = some [[2, 2]] := by
  have hstart : ofConfig Exposed.config = .ok (Sample.empty Exposed.config) := rfl
  have hrun : Run ((Sample.empty Exposed.config).replay Exposed.doubled).1 (Exposed.session Exposed.doubled) :=
    (Run.start hstart).replay Exposed.doubled
  have hok : ∀ e ∈ ((Sample.empty Exposed.config).replay Exposed.doubled).1, e.Succeeded := by decide +kernel
  refine ⟨hrun, fun e he => ⟨hok e he, Exposed.takesMoved_doubled _ (mem_of_mem_replay he)⟩,
    Exposed.slot?_spectrum (by decide +kernel), fun hstep => ?_, by decide +kernel, by decide +kernel⟩
  have hassigned : (Exposed.recordSlot Exposed.doubled).value.assigned = [⟨⟨1⟩, ⟨1⟩⟩] := by decide +kernel
  have hfit : (Exposed.recordSlot Exposed.doubled).value.fit = [⟨⟨2⟩, ⟨1⟩⟩] := by decide +kernel
  have hpairs := hstep.pairs (by rw [hassigned]; exact List.cons_ne_nil _ _)
  rw [hassigned, hfit, List.forall₂_cons] at hpairs
  obtain ⟨curve, m, ideal, hcurve, -, hideal, hset⟩ := hpairs.1.idealArea (by decide +kernel)
  have hassignedTime : ((Exposed.session Exposed.doubled).areas.get ⟨1⟩).toOption.map (·.exposure) = some 2 := by
    decide +kernel
  have hidealTime : ((Exposed.session Exposed.doubled).areas.get ⟨2⟩).toOption.map (·.exposure) = some 1 := by
    decide +kernel
  rw [hcurve] at hassignedTime
  rw [hideal] at hidealTime
  have htwo : curve.exposure = 2 := Option.some.inj hassignedTime
  have hone : ideal.exposure = 1 := Option.some.inj hidealTime
  have hsame := EffectiveArea.exposure_of_setExposure hset
  rw [htwo, hone] at hsame
  norm_num at hsame

end SpectralResponse.Session
